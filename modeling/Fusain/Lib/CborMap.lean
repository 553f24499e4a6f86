import Fusain.Lib.ListRuntime
import Mathlib.Algebra.Group.Int.Defs

/-!
# Maps with integer keys

A map of indefinite length from integers to integers, booleans and floats: what it looks
like on the wire, a reader that knows nothing about what the keys mean, and the chains of
generated encoder calls that write one.
-/
namespace Cbor

/-- The values of a map. A double is its bit pattern. -/
inductive Atom where
  | int (i : Int)
  | bool (b : Bool)
  | float (bits : UInt64)
  deriving DecidableEq, Repr

def Atom.bytes : Atom → List UInt8
  | .int i => Cbor.int i
  | .bool b => Cbor.bool b
  | .float bits => float64 bits

/-- Integers have an argument of at most 64 bits. -/
def Atom.Fits : Atom → Prop
  | .int i => -(2 ^ 64) ≤ i ∧ i < 2 ^ 64
  | .bool _ | .float _ => True

/-- A key and its value. -/
abbrev Entry := Nat × Atom

def entryBytes (e : Entry) : List UInt8 := uint e.1 ++ e.2.bytes

def mapBytes (es : List Entry) : List UInt8 := mapStart :: (es.flatMap entryBytes ++ [stop])

def readAtom (l : List UInt8) : Option (Atom × List UInt8) :=
  match readHead l with
  | some ((0, n), rest) => some (.int n, rest)
  | some ((1, n), rest) => some (.int (Int.negSucc n), rest)
  | _ =>
    match Zcbor.readBool l with
    | some (b, rest) => some (.bool b, rest)
    | none => (Zcbor.readFloat64 l).map fun (bits, rest) => (.float bits, rest)

/-- Entries up to the end of the map, at most as many as the first argument says. -/
def readEntries : Nat → List UInt8 → Option (List Entry × List UInt8)
  | 0, _ => none
  | n + 1, l =>
    match readHead l, l with
    | some ((0, key), rest), _ =>
      match readAtom rest with
      | some (a, rest) => (readEntries n rest).map fun (es, rest) => ((key, a) :: es, rest)
      | none => none
    | none, b :: rest => if b = stop then some ([], rest) else none
    | _, _ => none

def readMap : List UInt8 → Option (List Entry × List UInt8)
  | [] => none
  | b :: rest => if b = mapStart then readEntries rest.length rest else none

theorem readAtom_bytes {a : Atom} (h : a.Fits) (rest : List UInt8) :
    readAtom (a.bytes ++ rest) = some (a, rest) := by
  cases a with
  | int i =>
    obtain ⟨lo, hi⟩ := h
    cases i with
    | ofNat n =>
      have hb : (Atom.int (Int.ofNat n)).bytes = head 0 n := rfl
      simp only [Int.ofNat_eq_natCast] at hi
      rw [hb, readAtom, readHead_head (by decide) (by omega)]
      rfl
    | negSucc n =>
      have hb : (Atom.int (Int.negSucc n)).bytes = head 1 n := rfl
      rw [hb, readAtom, readHead_head (by decide) (by omega)]
      rfl
  | bool b => cases b <;> rfl
  | float bits =>
    have hb : float64 bits = initial 7 27 :: toBig 8 bits.toNat := rfl
    have hhead : readHead (float64 bits ++ rest) = some ((7, bits.toNat), rest) := by
      rw [hb, List.cons_append]
      exact readHead_long (by decide) (by decide) (by decide) rfl bits.toNat_lt rest
    have hbool : Zcbor.readBool (float64 bits ++ rest) = none := rfl
    rw [Atom.bytes, readAtom, hhead, hbool, Zcbor.readFloat64_float64]
    rfl

/-- Keys and values of at most 64 bits. -/
def Entry.Fits (e : Entry) : Prop := e.1 < 2 ^ 64 ∧ e.2.Fits

theorem readEntries_entries {es : List Entry} (hfits : ∀ e ∈ es, Entry.Fits e) {n : Nat}
    (hn : es.length < n) (rest : List UInt8) :
    readEntries n (es.flatMap entryBytes ++ stop :: rest) = some (es, rest) := by
  induction es generalizing n with
  | nil =>
    obtain ⟨n, rfl⟩ := Nat.exists_eq_succ_of_ne_zero (show n ≠ 0 by omega)
    simp [readEntries, readHead_stop]
  | cons e es ih =>
    obtain ⟨key, a⟩ := e
    obtain ⟨n, rfl⟩ := Nat.exists_eq_succ_of_ne_zero (show n ≠ 0 by omega)
    obtain ⟨hkey, ha⟩ : key < 2 ^ 64 ∧ a.Fits := hfits (key, a) List.mem_cons_self
    have hhead := readHead_head (show 0 < 8 by decide) (show key < 256 ^ 8 by omega)
      (a.bytes ++ (es.flatMap entryBytes ++ stop :: rest))
    have hrest := ih (fun e he => hfits e (List.mem_cons_of_mem _ he)) (n := n)
      (by simp only [List.length_cons] at hn; omega)
    have hl : List.flatMap entryBytes ((key, a) :: es) ++ stop :: rest =
        head 0 key ++ (a.bytes ++ (es.flatMap entryBytes ++ stop :: rest)) := by
      simp [entryBytes, uint]
    rw [hl]
    simp only [readEntries, hhead, readAtom_bytes ha, hrest, Option.map_some]

/-- Every entry has at least two bytes. -/
theorem length_entries_le (es : List Entry) : es.length ≤ (es.flatMap entryBytes).length := by
  induction es with
  | nil => simp
  | cons e es ih =>
    have hkey : 1 ≤ (uint e.1).length := by
      unfold uint head
      split_ifs <;> simp
    rw [List.flatMap_cons, List.length_append, List.length_cons, entryBytes, List.length_append]
    omega

/-- A map is read back in front of any bytes. -/
theorem readMap_map {es : List Entry} (hfits : ∀ e ∈ es, Entry.Fits e) (rest : List UInt8) :
    readMap (mapBytes es ++ rest) = some (es, rest) := by
  have hlen := length_entries_le es
  rw [mapBytes, List.cons_append, readMap, if_pos rfl, List.append_assoc, List.singleton_append]
  apply readEntries_entries hfits
  rw [List.length_append, List.length_cons]
  omega

theorem length_int_le (i : Int) : (int i).length ≤ 9 := by
  cases i with
  | ofNat n => exact length_head_le 0 n
  | negSucc n => exact length_head_le 1 n

theorem length_atom_le (a : Atom) : a.bytes.length ≤ 9 := by
  cases a with
  | int i => exact length_int_le i
  | bool b => simp [Atom.bytes, bool]
  | float bits => simp [Atom.bytes, float64]

/-- Small keys take one byte. -/
theorem length_map_le {es : List Entry} (h : ∀ e ∈ es, e.1 < 24) :
    (mapBytes es).length ≤ 2 + 10 * es.length := by
  have hentries : (es.flatMap entryBytes).length ≤ 10 * es.length := by
    induction es with
    | nil => simp
    | cons e es ih =>
      have hrest := ih fun e he => h e (List.mem_cons_of_mem _ he)
      have ha := length_atom_le e.2
      have hkey : uint e.1 = [initial 0 e.1] := by
        rw [uint, head, if_pos (h e List.mem_cons_self)]
      rw [List.flatMap_cons, List.length_append, List.length_cons, entryBytes, hkey,
        List.length_append, List.length_singleton]
      omega
  rw [mapBytes, List.length_cons, List.length_append, List.length_singleton]
  omega

end Cbor

namespace Zcbor

open Cbor

variable {E D α : Type} {W : E → List UInt8 → Nat → Prop} {R : D → Bool → List UInt8 → Prop}
  {z : Runtime E D}

/-- The steps write the entries, in this order and with nothing in between. -/
def Writes (W : E → List UInt8 → Nat → Prop) (steps : List (Put E)) (es : List Entry) : Prop :=
  Appends W (all steps) (es.flatMap entryBytes)

theorem writes_nil : Writes W [] [] := appends_nil

theorem appends_entry (hz : Standard z W R) (key : UInt32) {ok : α → Bool} {encode : α → Put E}
    {v : α} {l : List UInt8} (hok : ok v = true) (h : Appends W (encode v) l) :
    Appends W (z.entry key ok encode v) (uint key.toNat ++ l) := by
  have := appends_all (hz.uint32Put key)
    (appends_all (appends_check (z := z) hok) (appends_all h appends_nil))
  simpa [Runtime.entry] using this

section Steps

variable {steps : List (Put E)} {es : List Entry} {encode : α → Put E} {ok : α → Bool} {a : Atom}

theorem writes_entry (hz : Standard z W R) (key : UInt32) {v : α} (hok : ok v = true)
    (h : Appends W (encode v) a.bytes) (hrest : Writes W steps es) :
    Writes W (z.entry key ok encode v :: steps) ((key.toNat, a) :: es) :=
  appends_all (appends_entry hz key hok h) hrest

/-- An entry that is written on a condition. -/
theorem writes_if (hz : Standard z W R) (key : UInt32) {c : Prop} [Decidable c] {v : α}
    (hok : c → ok v = true) (h : c → Appends W (encode v) a.bytes) (hrest : Writes W steps es) :
    Writes W (optional (z.entry key ok encode) (if c then some v else none) :: steps)
      ((if c then [(key.toNat, a)] else []) ++ es) := by
  by_cases hc : c
  · rw [if_pos hc, if_pos hc]
    exact writes_entry hz key (hok hc) (h hc) hrest
  · rw [if_neg hc, if_neg hc]
    exact appends_all appends_nil hrest

end Steps

section Values

variable (hz : Standard z W R)
include hz

theorem appends_uint32 (v : UInt32) : Appends W (z.uint32Encode v) (Atom.int v.toNat).bytes :=
  hz.uint32Encode v

theorem appends_int32 (v : Int32) : Appends W (z.int32Encode v) (Atom.int v.toInt).bytes :=
  hz.int32Encode v

theorem appends_uint64 (v : UInt64) : Appends W (z.uint64Encode v) (Atom.int v.toNat).bytes :=
  hz.uint64Encode v

theorem appends_bool (v : Bool) : Appends W (z.boolEncode v) (Atom.bool v).bytes := hz.boolEncode v

theorem appends_float (v : UInt64) : Appends W (z.float64Encode v) (Atom.float v).bytes :=
  hz.float64Encode v

end Values

/-- A map writes its entries between its start and its end. -/
theorem appends_map (hz : Standard z W R) (size : Nat) {steps : List (Put E)} {es : List Entry}
    (h : Writes W steps es) : Appends W (z.map size steps) (mapBytes es) := by
  have := appends_all (hz.mapStartEncode size)
    (appends_all (appends_forced (z := z) h) (appends_all (hz.mapEndEncode size) appends_nil))
  simpa [Runtime.map, mapBytes] using this

/-- In a buffer with room for it the entry function writes the bytes at the front. -/
theorem entry_writes (hz : Standard z W R) {p : Put E} {l : List UInt8} (h : Appends W p l)
    {buffer : List UInt8} (room : l.length ≤ buffer.length) :
    ∃ tail, z.entryEncode p buffer = (some l.length, l ++ tail) := by
  obtain ⟨e, he, hok, -⟩ := hz.entryEncode p buffer
  obtain ⟨e', hpe, hwe⟩ := h e [] buffer.length he room
  exact hok e' l _ hpe hwe

end Zcbor
