import Fusain.Lib.Zcbor

/-!
# A runtime over lists of bytes

The smallest runtime that keeps the promises of `Standard`: the encoder is the output
and the room left, the decoder is the rest of the input and whether a map is open.
-/
namespace Zcbor

open Cbor

/-- The output so far and the room left. -/
abbrev Output := List UInt8 × Nat

/-- Whether a map is open, and the rest of the input. -/
abbrev Input := Bool × List UInt8

def put (l : List UInt8) : Put Output := fun (out, room) =>
  if l.length ≤ room then (true, out ++ l, room - l.length) else (false, out, room)

/-- Read one item inside a map. -/
def get {α : Type} (read : List UInt8 → Option (α × List UInt8)) : Get Input α
  | (false, _) => none
  | (true, l) => (read l).map fun (a, rest) => (a, true, rest)

def readUint (limit : Nat) (l : List UInt8) : Option (Nat × List UInt8) :=
  match readHead l with
  | some ((0, n), rest) => if n < limit then some (n, rest) else none
  | _ => none

def readInt32 (l : List UInt8) : Option (Int32 × List UInt8) :=
  match readHead l with
  | some ((0, n), rest) => if n < 2 ^ 31 then some (Int32.ofInt n, rest) else none
  | some ((1, n), rest) => if n < 2 ^ 31 then some (Int32.ofInt (Int.negSucc n), rest) else none
  | _ => none

def readBool : List UInt8 → Option (Bool × List UInt8)
  | 0xF4 :: rest => some (false, rest)
  | 0xF5 :: rest => some (true, rest)
  | _ => none

def readFloat64 : List UInt8 → Option (UInt64 × List UInt8)
  | 0xFB :: rest =>
    if rest.length < 8 then none else some (UInt64.ofNat (big (rest.take 8)), rest.drop 8)
  | _ => none

def listRuntime : Runtime Output Input where
  uint32Put v := put (uint v.toNat)
  uint32Encode v := put (uint v.toNat)
  int32Encode v := put (int v.toInt)
  uint64Encode v := put (uint v.toNat)
  boolEncode v := put (Cbor.bool v)
  float64Encode v := put (float64 v)
  mapStartEncode _ := put [mapStart]
  mapEndEncode _ := put [stop]
  listMapEndForceEncode e := e
  wrongRange e := e
  entryEncode f buffer :=
    match f ([], buffer.length) with
    | (true, out, _) => (some out.length, out ++ buffer.drop out.length)
    | (false, out, _) => (none, out ++ buffer.drop out.length)
  uint32Expect v := get fun l =>
    match readUint (2 ^ 32) l with
    | some (n, rest) => if n = v.toNat then some ((), rest) else none
    | none => none
  uint32Decode := get fun l => (readUint (2 ^ 32) l).map fun (n, rest) => (UInt32.ofNat n, rest)
  int32Decode := get readInt32
  uint64Decode := get fun l => (readUint (2 ^ 64) l).map fun (n, rest) => (UInt64.ofNat n, rest)
  boolDecode := get readBool
  floatDecode := get readFloat64
  presentDecode g d :=
    match g d with
    | some (a, d') => some (some a, d')
    | none => some (none, d)
  mapStartDecode
    | (false, b :: rest) => if b = mapStart then some ((), true, rest) else none
    | _ => none
  mapEndDecode
    | (true, b :: rest) => if b = stop then some ((), false, rest) else none
    | _ => none
  entryDecode f buffer :=
    (f (false, buffer)).map fun (a, _, rest) => (a, buffer.length - rest.length)

/-- The encoder has written `out` and has `room` bytes left. -/
def Wrote (e : Output) (out : List UInt8) (room : Nat) : Prop := e = (out, room)

/-- The decoder stands in front of `l`. -/
def StandsAt (d : Input) (inside : Bool) (l : List UInt8) : Prop := d = (inside, l)

theorem put_appends (l : List UInt8) : Appends Wrote (put l) l := by
  rintro e out room rfl hr
  exact ⟨_, by simp only [put, if_pos hr], rfl⟩

theorem get_reads {α : Type} {read : List UInt8 → Option (α × List UInt8)} {l rest : List UInt8}
    {a : α} (h : read l = some (a, rest)) : Reads StandsAt (get read) l a rest := by
  rintro d rfl
  exact ⟨(true, rest), by simp [get, h], rfl⟩

theorem readUint_uint {n limit : Nat} (h : n < limit) (hl : limit ≤ 256 ^ 8) (rest : List UInt8) :
    readUint limit (uint n ++ rest) = some (n, rest) := by
  rw [readUint, uint, readHead_head (by decide) (by omega)]
  simp [h]

theorem readInt32_int (v : Int32) (rest : List UInt8) :
    readInt32 (int v.toInt ++ rest) = some (v, rest) := by
  have lo := v.le_toInt
  have hi := v.toInt_lt
  have back : Int32.ofInt v.toInt = v := Int32.ofInt_toInt v
  cases hv : v.toInt with
  | ofNat n =>
    rw [hv] at hi back
    simp only [Int.ofNat_eq_natCast] at hi back
    rw [int, readInt32, readHead_head (by decide) (by omega)]
    simp only [show n < 2 ^ 31 by omega, if_true, back]
  | negSucc n =>
    rw [hv] at lo back
    rw [int, readInt32, readHead_head (by decide) (by omega)]
    simp only [show n < 2 ^ 31 by omega, if_true, back]

theorem readFloat64_float64 (v : UInt64) (rest : List UInt8) :
    readFloat64 (float64 v ++ rest) = some (v, rest) := by
  have hv : big (toBig 8 v.toNat) = v.toNat := big_toBig v.toNat_lt
  have ht : (toBig 8 v.toNat ++ rest).take 8 = toBig 8 v.toNat :=
    List.take_left' (length_toBig 8 _)
  have hd : (toBig 8 v.toNat ++ rest).drop 8 = rest := List.drop_left' (length_toBig 8 _)
  have hl : ¬ (toBig 8 v.toNat ++ rest).length < 8 := by simp
  simp only [float64, List.cons_append, readFloat64, hl, if_false, ht, hd, hv, UInt64.ofNat_toNat]

theorem listRuntime_standard : Standard listRuntime Wrote StandsAt where
  uint32Put v := put_appends _
  uint32Encode v := put_appends _
  int32Encode v := put_appends _
  uint64Encode v := put_appends _
  boolEncode v := put_appends _
  float64Encode v := put_appends _
  mapStartEncode _ := put_appends _
  mapEndEncode _ := put_appends _
  entryEncode f buffer := by
    refine ⟨([], buffer.length), rfl, ?_, ?_⟩
    · rintro e' l room hf rfl
      exact ⟨buffer.drop l.length, by simp only [listRuntime, hf]⟩
    · intro e' hf
      simp only [listRuntime, hf]
  uint32Expect v rest := by
    apply get_reads
    simp only [readUint_uint v.toNat_lt (by decide), if_true]
  uint32Expect_other := by
    rintro v w rest d hne rfl
    have hn : w.toNat ≠ v.toNat := fun h => hne (UInt32.toNat_inj.mp h.symm)
    simp only [listRuntime, get, readUint_uint w.toNat_lt (by decide), if_neg hn, Option.map_none]
  uint32Expect_stop := by
    rintro v rest d rfl
    simp only [listRuntime, get, readUint, readHead_stop, Option.map_none]
  uint32Decode v rest := by
    apply get_reads
    simp only [readUint_uint v.toNat_lt (by decide), Option.map_some, UInt32.ofNat_toNat]
  int32Decode v rest := get_reads (readInt32_int v rest)
  uint64Decode v rest := by
    apply get_reads
    simp only [readUint_uint v.toNat_lt (by decide), Option.map_some, UInt64.ofNat_toNat]
  boolDecode v rest := by
    apply get_reads
    cases v <;> rfl
  floatDecode v rest := get_reads (readFloat64_float64 v rest)
  present g d a d' h := by simp only [listRuntime, h]
  absent g d l hd h := ⟨d, by simp only [listRuntime, h], hd⟩
  mapStartDecode := by
    rintro rest d rfl
    exact ⟨(true, rest), by simp [listRuntime], rfl⟩
  mapEndDecode := by
    rintro rest d rfl
    exact ⟨(false, rest), by simp [listRuntime], rfl⟩
  entryDecode f buffer := by
    refine ⟨(false, buffer), rfl, ?_⟩
    rintro a d' rest hf rfl
    simp only [listRuntime, hf, Option.map_some]

/-- Its results come from decoders that succeeded. -/
theorem listRuntime_faithful : Faithful listRuntime where
  entryDecode g buffer a n h := by
    obtain ⟨⟨b, d'⟩, hg, hb⟩ := Option.map_eq_some_iff.mp h
    obtain ⟨rfl, -⟩ := Prod.mk.inj hb
    exact ⟨(false, buffer), d', hg⟩
  present g d a d' h := by
    cases hg : g d with
    | none =>
      simp only [listRuntime, hg] at h
      cases h
    | some found =>
      simp only [listRuntime, hg] at h
      cases h
      exact ⟨d, found.2, hg⟩

end Zcbor
