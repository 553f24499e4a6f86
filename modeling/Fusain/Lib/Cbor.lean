import Fusain.Lib.Endian

/-!
# CBOR data items

The standard encoding of the items that small typed messages are made of: integers
with the shortest argument that holds them, one-byte booleans, 64-bit floats as bit
patterns, and maps of indefinite length.
-/
namespace Cbor

open Endian

/-- The low `k` bytes of a number, most significant first. -/
def toBig (k n : Nat) : List UInt8 := (toLittle k n).reverse

/-- The number whose bytes, most significant first, are given. -/
def big (bs : List UInt8) : Nat := little bs.reverse

@[simp] theorem length_toBig (k n : Nat) : (toBig k n).length = k := by simp [toBig]

theorem big_toBig {k n : Nat} (h : n < 256 ^ k) : big (toBig k n) = n := by
  rw [big, toBig, List.reverse_reverse, little_toLittle, Nat.mod_eq_of_lt h]

/-- An initial byte: the major type and five bits of additional information. -/
def initial (major info : Nat) : UInt8 := UInt8.ofNat (32 * major + info)

/-- The initial byte and the shortest argument. -/
def head (major n : Nat) : List UInt8 :=
  if n < 24 then [initial major n]
  else if n < 256 ^ 1 then initial major 24 :: toBig 1 n
  else if n < 256 ^ 2 then initial major 25 :: toBig 2 n
  else if n < 256 ^ 4 then initial major 26 :: toBig 4 n
  else initial major 27 :: toBig 8 n

def uint (n : Nat) : List UInt8 := head 0 n

/-- Major type 1 holds `-1 - n`. -/
def int : Int → List UInt8
  | .ofNat n => head 0 n
  | .negSucc n => head 1 n

def bool (b : Bool) : List UInt8 := [if b then 0xF5 else 0xF4]

def float64 (bits : UInt64) : List UInt8 := 0xFB :: toBig 8 bits.toNat

/-- Opens a map of indefinite length. -/
def mapStart : UInt8 := 0xBF

/-- Ends an item of indefinite length. -/
def stop : UInt8 := 0xFF

/-- How many bytes of argument the additional information announces. -/
def argumentWidth : Nat → Option Nat
  | 24 => some 1
  | 25 => some 2
  | 26 => some 4
  | 27 => some 8
  | _ => none

/-- The major type and the argument in front of the bytes that follow. -/
def readHead : List UInt8 → Option ((Nat × Nat) × List UInt8)
  | [] => none
  | b :: rest =>
    if b.toNat % 32 < 24 then some ((b.toNat / 32, b.toNat % 32), rest)
    else
      match argumentWidth (b.toNat % 32) with
      | none => none
      | some k =>
        if rest.length < k then none
        else some ((b.toNat / 32, big (rest.take k)), rest.drop k)

theorem initial_toNat {major info : Nat} (hm : major < 8) (hi : info < 32) :
    (initial major info).toNat = 32 * major + info := by
  rw [initial, UInt8.toNat_ofNat']
  omega

/-- The part of an initial byte that says how to go on. -/
theorem initial_split {major info : Nat} (hm : major < 8) (hi : info < 32) :
    (initial major info).toNat / 32 = major ∧ (initial major info).toNat % 32 = info := by
  rw [initial_toNat hm hi]
  omega

theorem readHead_short {major n : Nat} (hm : major < 8) (hn : n < 24) (rest : List UInt8) :
    readHead (initial major n :: rest) = some ((major, n), rest) := by
  obtain ⟨hq, hr⟩ := initial_split hm (show n < 32 by omega)
  rw [readHead, hq, hr, if_pos hn]

theorem readHead_long {major info k n : Nat} (hm : major < 8) (hi : info < 32) (h24 : 24 ≤ info)
    (hk : argumentWidth info = some k) (hn : n < 256 ^ k) (rest : List UInt8) :
    readHead (initial major info :: (toBig k n ++ rest)) = some ((major, n), rest) := by
  obtain ⟨hq, hr⟩ := initial_split hm hi
  rw [readHead, hq, hr, if_neg (by omega), hk]
  have hl : ¬ (toBig k n ++ rest).length < k := by simp
  have ht : (toBig k n ++ rest).take k = toBig k n := List.take_left' (length_toBig k n)
  have hd : (toBig k n ++ rest).drop k = rest := List.drop_left' (length_toBig k n)
  simp only [hl, if_false, ht, hd, big_toBig hn]

/-- A head is read back in front of any bytes. -/
theorem readHead_head {major n : Nat} (hm : major < 8) (hn : n < 256 ^ 8) (rest : List UInt8) :
    readHead (head major n ++ rest) = some ((major, n), rest) := by
  unfold head
  split
  · exact readHead_short hm ‹_› rest
  split
  · exact readHead_long hm (by omega) (by omega) rfl ‹_› rest
  split
  · exact readHead_long hm (by omega) (by omega) rfl ‹_› rest
  split
  · exact readHead_long hm (by omega) (by omega) rfl ‹_› rest
  · exact readHead_long hm (by omega) (by omega) rfl hn rest

/-- The end of a map is no head of an integer. -/
theorem readHead_stop (rest : List UInt8) : readHead (stop :: rest) = none := rfl

theorem length_head_le (major n : Nat) : (head major n).length ≤ 9 := by
  unfold head
  split_ifs <;> simp

theorem length_head_le_five {major n : Nat} (h : n < 2 ^ 32) : (head major n).length ≤ 5 := by
  unfold head
  split_ifs <;> first | omega | simp

theorem length_int_le_five {i : Int} (lo : -2147483648 ≤ i) (hi : i < 2147483648) :
    (int i).length ≤ 5 := by
  cases i with
  | ofNat n =>
    simp only [Int.ofNat_eq_natCast] at hi
    exact length_head_le_five (by omega)
  | negSucc n => exact length_head_le_five (by omega)

end Cbor
