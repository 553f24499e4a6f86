import Fusain.Lib.Cbor

/-!
# Code generated for zcbor

The generated encoders and decoders are chains of calls into a runtime that is not
part of the code. The runtime is a parameter here, `Standard` says what its
documentation promises, and the rules below carry a chain of map entries from what
the encoder writes to what the decoder reads.
-/
namespace Zcbor

open Cbor

/-- A call of the encoder: whether it succeeded, and the state after it. -/
abbrev Put (E : Type) := E → Bool × E

/-- A call of the decoder; a failed call leaves a state nobody looks at. -/
abbrev Get (D : Type) := StateT D Option

/-- The runtime: encoder states `E`, decoder states `D`. A double is its bit pattern. -/
structure Runtime (E D : Type) where
  uint32Put : UInt32 → Put E
  uint32Encode : UInt32 → Put E
  int32Encode : Int32 → Put E
  uint64Encode : UInt64 → Put E
  boolEncode : Bool → Put E
  float64Encode : UInt64 → Put E
  mapStartEncode : Nat → Put E
  mapEndEncode : Nat → Put E
  listMapEndForceEncode : E → E
  /-- zcbor_error with ZCBOR_ERR_WRONG_RANGE -/
  wrongRange : E → E
  /-- zcbor_entry_function for an encoder, on the buffer: the length written if it
  returned ZCBOR_SUCCESS, and the buffer after it -/
  entryEncode : Put E → List UInt8 → Option Nat × List UInt8
  uint32Expect : UInt32 → Get D Unit
  uint32Decode : Get D UInt32
  int32Decode : Get D Int32
  uint64Decode : Get D UInt64
  boolDecode : Get D Bool
  floatDecode : Get D UInt64
  presentDecode : {α : Type} → Get D α → Get D (Option α)
  mapStartDecode : Get D Unit
  mapEndDecode : Get D Unit
  /-- zcbor_entry_function for a decoder, on the buffer: the result and the length read
  if it returned ZCBOR_SUCCESS -/
  entryDecode : {α : Type} → Get D α → List UInt8 → Option (α × Nat)

variable {E D α β : Type}

/-- `p && q` -/
def both (p q : Put E) : Put E := fun e =>
  match p e with
  | (true, e') => q e'
  | (false, e') => (false, e')

/-- A chain of `&&`. -/
def all : List (Put E) → Put E
  | [] => fun e => (true, e)
  | p :: ps => both p (all ps)

/-- `!present || encode(state, &value)` -/
def optional (encode : α → Put E) : Option α → Put E
  | none => fun e => (true, e)
  | some v => encode v

namespace Runtime

variable (z : Runtime E D)

/-- `ok || (zcbor_error(state, ZCBOR_ERR_WRONG_RANGE), false)` -/
def check (ok : Bool) : Put E := fun e => if ok then (true, e) else (false, z.wrongRange e)

/-- One entry of a map: its key, the check of its range, its value. -/
def entry (key : UInt32) (ok : α → Bool) (encode : α → Put E) (v : α) : Put E :=
  all [z.uint32Put key, z.check (ok v), encode v]

/-- `body || (zcbor_list_map_end_force_encode(state), false)` -/
def forced (body : Put E) : Put E := fun e =>
  match body e with
  | (true, e') => (true, e')
  | (false, e') => (false, z.listMapEndForceEncode e')

/-- A map of at most `size` entries. -/
def map (size : Nat) (entries : List (Put E)) : Put E :=
  all [z.mapStartEncode size, z.forced (all entries), z.mapEndEncode size]

/-- One entry of a map, read: its key, its value, the check of its range. -/
def readEntry (key : UInt32) (ok : α → Bool) (decode : Get D α) : Get D α := do
  z.uint32Expect key
  let v ← decode
  guard (ok v)
  return v

/-- A map, read; the forced end behind a failed body is not seen from outside. -/
def readMap (body : Get D α) : Get D α := do
  z.mapStartDecode
  let a ← body
  z.mapEndDecode
  return a

end Runtime

/-- `p` adds the bytes `l` to the output `out` when there is room for them. -/
def Appends (W : E → List UInt8 → Nat → Prop) (p : Put E) (l : List UInt8) : Prop :=
  ∀ e out room, W e out room → l.length ≤ room →
    ∃ e', p e = (true, e') ∧ W e' (out ++ l) (room - l.length)

/-- Inside a map and in front of `l`, `g` gives `a` and stops in front of `l'`. -/
def Reads (R : D → Bool → List UInt8 → Prop) (g : Get D α) (l : List UInt8) (a : α)
    (l' : List UInt8) : Prop :=
  ∀ d, R d true l → ∃ d', g d = some (a, d') ∧ R d' true l'

/-- The runtime writes and reads standard CBOR. `W e out room`: the encoder has written
`out` and has `room` bytes left. `R d inside l`: the decoder stands in front of `l`,
inside a map or not. -/
structure Standard (z : Runtime E D) (W : E → List UInt8 → Nat → Prop)
    (R : D → Bool → List UInt8 → Prop) : Prop where
  uint32Put : ∀ v, Appends W (z.uint32Put v) (uint v.toNat)
  uint32Encode : ∀ v, Appends W (z.uint32Encode v) (uint v.toNat)
  int32Encode : ∀ v, Appends W (z.int32Encode v) (int v.toInt)
  uint64Encode : ∀ v, Appends W (z.uint64Encode v) (uint v.toNat)
  boolEncode : ∀ v, Appends W (z.boolEncode v) (bool v)
  float64Encode : ∀ v, Appends W (z.float64Encode v) (float64 v)
  mapStartEncode : ∀ size, Appends W (z.mapStartEncode size) [mapStart]
  mapEndEncode : ∀ size, Appends W (z.mapEndEncode size) [stop]
  /-- The entry function starts at the front of the buffer and reports how the encoder went. -/
  entryEncode : ∀ f buffer, ∃ e, W e [] buffer.length ∧
    (∀ e' l room, f e = (true, e') → W e' l room →
      ∃ tail, z.entryEncode f buffer = (some l.length, l ++ tail)) ∧
    ∀ e', f e = (false, e') → (z.entryEncode f buffer).1 = none
  uint32Expect : ∀ v rest, Reads R (z.uint32Expect v) (uint v.toNat ++ rest) () rest
  uint32Expect_other : ∀ v w rest d, v ≠ w → R d true (uint w.toNat ++ rest) →
    z.uint32Expect v d = none
  uint32Expect_stop : ∀ v rest d, R d true (stop :: rest) → z.uint32Expect v d = none
  uint32Decode : ∀ v rest, Reads R z.uint32Decode (uint v.toNat ++ rest) v rest
  int32Decode : ∀ v rest, Reads R z.int32Decode (int v.toInt ++ rest) v rest
  uint64Decode : ∀ v rest, Reads R z.uint64Decode (uint v.toNat ++ rest) v rest
  boolDecode : ∀ v rest, Reads R z.boolDecode (bool v ++ rest) v rest
  floatDecode : ∀ v rest, Reads R z.floatDecode (float64 v ++ rest) v rest
  /-- A decoder that succeeds is present. -/
  present : ∀ {α : Type} (g : Get D α) d a d', g d = some (a, d') →
    z.presentDecode g d = some (some a, d')
  /-- A decoder that fails is absent, and what it read is put back. -/
  absent : ∀ {α : Type} (g : Get D α) d l, R d true l → g d = none →
    ∃ d', z.presentDecode g d = some (none, d') ∧ R d' true l
  mapStartDecode : ∀ rest d, R d false (mapStart :: rest) →
    ∃ d', z.mapStartDecode d = some ((), d') ∧ R d' true rest
  mapEndDecode : ∀ rest d, R d true (stop :: rest) →
    ∃ d', z.mapEndDecode d = some ((), d') ∧ R d' false rest
  /-- The entry function starts at the front of the buffer and reports what was read. -/
  entryDecode : ∀ {α : Type} (f : Get D α) buffer, ∃ d, R d false buffer ∧
    ∀ a d' rest, f d = some (a, d') → R d' false rest →
      z.entryDecode f buffer = some (a, buffer.length - rest.length)

section Encoder

variable {W : E → List UInt8 → Nat → Prop} {z : Runtime E D}

theorem appends_nil : Appends W (all []) [] := by
  intro e out room h _
  exact ⟨e, rfl, by simpa using h⟩

theorem appends_both {p q : Put E} {l m : List UInt8} (hp : Appends W p l)
    (hq : Appends W q m) : Appends W (both p q) (l ++ m) := by
  intro e out room h hr
  rw [List.length_append] at hr
  obtain ⟨e', hpe, hw⟩ := hp e out room h (by omega)
  obtain ⟨e'', hqe, hw'⟩ := hq e' (out ++ l) (room - l.length) hw (by omega)
  refine ⟨e'', by simp only [both, hpe, hqe], ?_⟩
  rw [List.length_append, ← List.append_assoc, ← Nat.sub_sub]
  exact hw'

theorem appends_all {p : Put E} {ps : List (Put E)} {l m : List UInt8} (hp : Appends W p l)
    (hps : Appends W (all ps) m) : Appends W (all (p :: ps)) (l ++ m) := appends_both hp hps

theorem appends_check {ok : Bool} (h : ok = true) : Appends W (z.check ok) [] := by
  intro e out room hw _
  exact ⟨e, by simp [Runtime.check, h], by simpa using hw⟩

/-- A body that succeeds needs no forced end. -/
theorem appends_forced {p : Put E} {l : List UInt8} (hp : Appends W p l) :
    Appends W (z.forced p) l := by
  intro e out room h hr
  obtain ⟨e', hpe, hw⟩ := hp e out room h hr
  exact ⟨e', by simp only [Runtime.forced, hpe], hw⟩

end Encoder

section Failure

variable {z : Runtime E D}

/-- The call fails in every state. -/
def Fails (p : Put E) : Prop := ∀ e, (p e).1 = false

theorem fails_both_left {p q : Put E} (h : Fails p) : Fails (both p q) := by
  intro e
  have hp := h e
  unfold both
  split
  next heq => rw [heq] at hp; cases hp
  next => rfl

theorem fails_both_right {p q : Put E} (h : Fails q) : Fails (both p q) := by
  intro e
  unfold both
  split
  next e' _ => exact h e'
  next => rfl

/-- A chain fails with any of its links. -/
theorem fails_all {p : Put E} {ps : List (Put E)} (hm : p ∈ ps) (h : Fails p) : Fails (all ps) := by
  induction ps with
  | nil => cases hm
  | cons q ps ih =>
    rcases List.mem_cons.mp hm with rfl | hm
    · exact fails_both_left h
    · exact fails_both_right (ih hm)

theorem fails_check : Fails (z.check false) := fun _ => rfl

/-- A value out of range is not written. -/
theorem fails_entry {key : UInt32} {ok : α → Bool} {encode : α → Put E} {v : α}
    (h : ok v = false) : Fails (z.entry key ok encode v) :=
  fails_all (.tail _ (.head _)) (by rw [h]; exact fails_check)

theorem fails_optional {encode : α → Put E} {o : Option α} {v : α} (hv : v ∈ o)
    (h : Fails (encode v)) : Fails (optional encode o) := by
  cases hv
  exact h

theorem fails_forced {p : Put E} (h : Fails p) : Fails (z.forced p) := by
  intro e
  have hp := h e
  unfold Runtime.forced
  split
  next heq => rw [heq] at hp; cases hp
  next => rfl

/-- Nor is a map with one of its entries missing. -/
theorem fails_map {size : Nat} {entries : List (Put E)} {p : Put E} (hm : p ∈ entries)
    (h : Fails p) : Fails (z.map size entries) :=
  fails_all (.tail _ (.head _)) (fails_forced (fails_all hm h))

/-- The entry function reports the failure. -/
theorem entry_fails {W : E → List UInt8 → Nat → Prop} {R : D → Bool → List UInt8 → Prop}
    (hz : Standard z W R) {p : Put E} (h : Fails p) (buffer : List UInt8) :
    (z.entryEncode p buffer).1 = none := by
  obtain ⟨e, -, -, hfail⟩ := hz.entryEncode p buffer
  exact hfail (p e).2 (Prod.ext (h e) rfl)

end Failure

section Decoder

variable {R : D → Bool → List UInt8 → Prop} {z : Runtime E D}

theorem reads_pure (a : α) (l : List UInt8) : Reads R (pure a : Get D α) l a l :=
  fun d h => ⟨d, rfl, h⟩

theorem bind_some {g : Get D α} {f : α → Get D β} {d d' : D} {a : α} (h : g d = some (a, d')) :
    (g >>= f) d = f a d' := by simp [bind, StateT.bind, h]

theorem bind_none {g : Get D α} {f : α → Get D β} {d : D} (h : g d = none) :
    (g >>= f) d = none := by simp [bind, StateT.bind, h]

theorem reads_bind {g : Get D α} {f : α → Get D β} {l l' l'' : List UInt8} {a : α} {b : β}
    (hg : Reads R g l a l') (hf : Reads R (f a) l' b l'') : Reads R (g >>= f) l b l'' := by
  intro d h
  obtain ⟨d', hgd, h'⟩ := hg d h
  obtain ⟨d'', hfd, h''⟩ := hf d' h'
  exact ⟨d'', by rw [bind_some hgd, hfd], h''⟩

theorem reads_guard {ok : Bool} (h : ok = true) (l : List UInt8) :
    Reads R (guard (ok = true) : Get D Unit) l () l := by
  rw [guard, if_pos h]
  exact reads_pure () l

end Decoder

/-- A result says that the decoder behind it has succeeded, whatever input it was given. -/
structure Faithful (z : Runtime E D) : Prop where
  entryDecode : ∀ {α : Type} (g : Get D α) buffer a n, z.entryDecode g buffer = some (a, n) →
    ∃ d d', g d = some (a, d')
  present : ∀ {α : Type} (g : Get D α) d a d', z.presentDecode g d = some (some a, d') →
    ∃ d₀ d₁, g d₀ = some (a, d₁)

/-- Every result of `g` meets `P`, from any input. -/
def Ensures (g : Get D α) (P : α → Prop) : Prop := ∀ d a d', g d = some (a, d') → P a

section Postconditions

variable {z : Runtime E D} {P : β → Prop}

theorem ensures_pure {b : β} (h : P b) : Ensures (pure b : Get D β) P := by
  intro d a d' hd
  obtain ⟨rfl, -⟩ := Prod.mk.inj (Option.some.inj hd)
  exact h

theorem ensures_bind {Q : α → Prop} {g : Get D α} {f : α → Get D β} (hg : Ensures g Q)
    (hf : ∀ a, Q a → Ensures (f a) P) : Ensures (g >>= f) P := by
  intro d b d' h
  cases hga : g d with
  | none =>
    rw [bind_none hga] at h
    cases h
  | some found =>
    obtain ⟨a, d₁⟩ := found
    rw [bind_some hga] at h
    exact hf a (hg d a d₁ hga) d₁ b d' h

theorem ensures_any (g : Get D α) : Ensures g fun _ => True := fun _ _ _ _ => trivial

theorem ensures_guard (ok : Bool) : Ensures (guard (ok = true) : Get D Unit) fun _ => ok = true := by
  intro d a d' h
  by_contra hn
  rw [guard, if_neg hn] at h
  cases h

/-- An entry that is read has passed its check. -/
theorem ensures_readEntry (key : UInt32) (ok : α → Bool) (decode : Get D α) :
    Ensures (z.readEntry key ok decode) fun v => ok v = true :=
  ensures_bind (ensures_any _) fun _ _ => ensures_bind (ensures_any _) fun v _ =>
    ensures_bind (ensures_guard (ok v)) fun _ h => ensures_pure h

theorem ensures_present (hf : Faithful z) {Q : α → Prop} {g : Get D α} (h : Ensures g Q) :
    Ensures (z.presentDecode g) fun o => ∀ v ∈ o, Q v := by
  rintro d o d' hd v rfl
  obtain ⟨d₀, d₁, hg⟩ := hf.present g d v d' hd
  exact h d₀ v d₁ hg

/-- A required entry. -/
theorem ensures_entry {key : UInt32} {ok : α → Bool} {decode : Get D α} {f : α → Get D β}
    (h : ∀ v, ok v = true → Ensures (f v) P) : Ensures (z.readEntry key ok decode >>= f) P :=
  ensures_bind (ensures_readEntry key ok decode) h

/-- An optional entry. -/
theorem ensures_optional (hf : Faithful z) {key : UInt32} {ok : α → Bool} {decode : Get D α}
    {f : Option α → Get D β} (h : ∀ o, (∀ v ∈ o, ok v = true) → Ensures (f o) P) :
    Ensures (z.presentDecode (z.readEntry key ok decode) >>= f) P :=
  ensures_bind (ensures_present hf (ensures_readEntry key ok decode)) h

theorem ensures_map {body : Get D β} (h : Ensures body P) : Ensures (z.readMap body) P :=
  ensures_bind (ensures_any _) fun _ _ => ensures_bind h fun _ hb =>
    ensures_bind (ensures_any _) fun _ _ => ensures_pure hb

end Postconditions

section Rules

variable (W : E → List UInt8 → Nat → Prop) (R : D → Bool → List UInt8 → Prop)

/-- The two calls invert each other on every value, in at most `n` bytes. -/
def Inverse (encode : α → Put E) (decode : Get D α) (n : Nat) : Prop :=
  ∀ v, ∃ l, l.length ≤ n ∧ Appends W (encode v) l ∧ ∀ rest, Reads R decode (l ++ rest) v rest

/-- The entries that follow have keys from `k` on, or there are none. -/
def KeysFrom (k : Nat) (l : List UInt8) : Prop :=
  (∃ rest, l = stop :: rest) ∨ ∃ (key : UInt32) (rest : _), k ≤ key.toNat ∧ l = uint key.toNat ++ rest

/-- The steps write at most `n` bytes, entries with keys from `k` on, which `g` reads
back as `a` in front of the end of the map. -/
def Carries (k : Nat) (steps : List (Put E)) (g : Get D α) (a : α) (n : Nat) : Prop :=
  ∃ l, l.length ≤ n ∧ Appends W (all steps) l ∧
    ∀ rest, KeysFrom k (l ++ stop :: rest) ∧ Reads R g (l ++ stop :: rest) a (stop :: rest)

/-- What `p` writes, at most `n` bytes, `g` reads back as `a`. -/
def Transfers (p : Put E) (g : Get D α) (a : α) (n : Nat) : Prop :=
  ∃ l, l ≠ [] ∧ l.length ≤ n ∧ Appends W p l ∧
    ∀ d rest, R d false (l ++ rest) → ∃ d', g d = some (a, d') ∧ R d' false rest

variable {W R} {z : Runtime E D} (hz : Standard z W R)

section Values

include hz

theorem inverse_uint32 : Inverse W R z.uint32Encode z.uint32Decode 5 := fun v =>
  ⟨uint v.toNat, length_head_le_five v.toNat_lt, hz.uint32Encode v, hz.uint32Decode v⟩

theorem inverse_int32 : Inverse W R z.int32Encode z.int32Decode 5 := fun v =>
  ⟨int v.toInt, length_int_le_five v.le_toInt v.toInt_lt, hz.int32Encode v,
    hz.int32Decode v⟩

theorem inverse_uint64 : Inverse W R z.uint64Encode z.uint64Decode 9 := fun v =>
  ⟨uint v.toNat, length_head_le 0 v.toNat, hz.uint64Encode v, hz.uint64Decode v⟩

theorem inverse_bool : Inverse W R z.boolEncode z.boolDecode 1 := fun v =>
  ⟨Cbor.bool v, Nat.le_refl 1, hz.boolEncode v, hz.boolDecode v⟩

theorem inverse_float : Inverse W R z.float64Encode z.floatDecode 9 := fun v =>
  ⟨float64 v, by simp [float64], hz.float64Encode v, hz.floatDecode v⟩

end Values

section Entries

variable {encode : α → Put E} {decode : Get D α} {m : Nat} {key : UInt32} {ok : α → Bool}

/-- What an entry writes starts with its key and is read back. -/
theorem entry_inverse (hz : Standard z W R) (inv : Inverse W R encode decode m) (key : UInt32)
    {v : α} (hok : ok v = true) :
    ∃ l, l.length ≤ m ∧ Appends W (z.entry key ok encode v) (uint key.toNat ++ l) ∧
      ∀ rest, Reads R (z.readEntry key ok decode) (uint key.toNat ++ l ++ rest) v rest := by
  obtain ⟨l, hl, hw, hr⟩ := inv v
  refine ⟨l, hl, ?_, fun rest => ?_⟩
  · have := appends_all (hz.uint32Put key)
      (appends_all (appends_check (z := z) hok) (appends_all hw appends_nil))
    simpa [Runtime.entry] using this
  · rw [List.append_assoc]
    exact reads_bind (hz.uint32Expect key _) (reads_bind (hr rest)
      (reads_bind (reads_guard hok rest) (reads_pure v rest)))

/-- An entry with a smaller key is not there. -/
theorem entry_absent (hz : Standard z W R) {k : Nat} (hk : key.toNat < k) {l : List UInt8}
    (h : KeysFrom k l) : Reads R (z.presentDecode (z.readEntry key ok decode)) l none l := by
  intro d hd
  have expect : z.uint32Expect key d = none := by
    rcases h with ⟨rest, rfl⟩ | ⟨other, rest, ho, rfl⟩
    · exact hz.uint32Expect_stop key rest d hd
    · have hne : key ≠ other := by
        rintro rfl
        omega
      exact hz.uint32Expect_other key other rest d hne hd
  exact hz.absent _ d l hd (bind_none expect)

theorem carries_nil (k : Nat) (a : α) (n : Nat) : Carries W R k [] (pure a : Get D α) a n :=
  ⟨[], n.zero_le, appends_nil, fun rest => ⟨.inl ⟨rest, rfl⟩, reads_pure a _⟩⟩

/-- A required entry in front of entries with larger keys, if there is room for it. -/
theorem carries_entry (hz : Standard z W R) (inv : Inverse W R encode decode m) {v : α}
    (hok : ok v = true) {k n : Nat} (fits : k ≤ key.toNat ∧ 5 + m ≤ n) {steps : List (Put E)}
    {f : α → Get D β} {b : β}
    (h : Carries W R (key.toNat + 1) steps (f v) b (n - (5 + m))) :
    Carries W R k (z.entry key ok encode v :: steps) (z.readEntry key ok decode >>= f) b n := by
  obtain ⟨l, hl, hw, hr⟩ := entry_inverse hz inv key hok
  obtain ⟨t, ht, hwt, hrt⟩ := h
  have hkey : (uint key.toNat).length ≤ 5 := length_head_le_five key.toNat_lt
  refine ⟨uint key.toNat ++ l ++ t, ?_, appends_all hw hwt, fun rest => ⟨?_, ?_⟩⟩
  · simp only [List.length_append]
    omega
  · exact .inr ⟨key, l ++ t ++ stop :: rest, fits.1, by simp⟩
  · rw [List.append_assoc _ t]
    exact reads_bind (hr _) (hrt rest).2

/-- An optional entry in front of entries with larger keys. -/
theorem carries_optional (hz : Standard z W R) (inv : Inverse W R encode decode m) (o : Option α)
    (hok : ∀ v ∈ o, ok v = true) {k n : Nat} (fits : k ≤ key.toNat ∧ 5 + m ≤ n)
    {steps : List (Put E)} {f : Option α → Get D β} {b : β}
    (h : Carries W R (key.toNat + 1) steps (f o) b (n - (5 + m))) :
    Carries W R k (optional (z.entry key ok encode) o :: steps)
      (z.presentDecode (z.readEntry key ok decode) >>= f) b n := by
  obtain ⟨t, ht, hwt, hrt⟩ := h
  cases o with
  | none =>
    refine ⟨t, by omega, appends_all appends_nil hwt, fun rest => ⟨?_, ?_⟩⟩
    · rcases (hrt rest).1 with hs | ⟨other, l, ho, hl⟩
      · exact .inl hs
      · exact .inr ⟨other, l, by omega, hl⟩
    · exact reads_bind (entry_absent hz (Nat.lt_succ_self _) (hrt rest).1) (hrt rest).2
  | some v =>
    obtain ⟨l, hl, hw, hr⟩ := entry_inverse hz inv key (hok v rfl)
    have hkey : (uint key.toNat).length ≤ 5 := length_head_le_five key.toNat_lt
    refine ⟨uint key.toNat ++ l ++ t, ?_, appends_all hw hwt, fun rest => ⟨?_, ?_⟩⟩
    · simp only [List.length_append]
      omega
    · exact .inr ⟨key, l ++ t ++ stop :: rest, by omega, by simp⟩
    · have present : Reads R (z.presentDecode (z.readEntry key ok decode))
          (uint key.toNat ++ l ++ (t ++ stop :: rest)) (some v) (t ++ stop :: rest) := by
        intro d hd
        obtain ⟨d', hg, hd'⟩ := hr _ d hd
        exact ⟨d', hz.present _ d v d' hg, hd'⟩
      rw [List.append_assoc _ t]
      exact reads_bind present (hrt rest).2

end Entries

/-- The entries of a map, between its start and its end. -/
theorem map_transfers (hz : Standard z W R) {size n : Nat} (hn : 2 ≤ n) {entries : List (Put E)}
    {body : Get D α} {a : α} (h : Carries W R 0 entries body a (n - 2)) :
    Transfers W R (z.map size entries) (z.readMap body) a n := by
  obtain ⟨l, hl, hw, hr⟩ := h
  refine ⟨mapStart :: (l ++ [stop]), by simp, by simp; omega, ?_, ?_⟩
  · have := appends_all (hz.mapStartEncode size)
      (appends_all (appends_forced (z := z) hw) (appends_all (hz.mapEndEncode size) appends_nil))
    simpa [Runtime.map] using this
  · intro d rest hd
    simp only [List.cons_append, List.append_assoc, List.nil_append] at hd
    obtain ⟨d₁, h₁, hd₁⟩ := hz.mapStartDecode _ d hd
    obtain ⟨d₂, h₂, hd₂⟩ := (hr rest).2 d₁ hd₁
    obtain ⟨d₃, h₃, hd₃⟩ := hz.mapEndDecode rest d₂ hd₂
    refine ⟨d₃, ?_, hd₃⟩
    rw [Runtime.readMap, bind_some h₁, bind_some h₂, bind_some h₃]
    rfl

/-- In a buffer with room for it a message is written at the front, and its bytes are read
back to their end. -/
theorem entry_transfers (hz : Standard z W R) {p : Put E} {g : Get D α} {a : α} {n : Nat}
    (h : Transfers W R p g a n) {buffer : List UInt8} (room : n ≤ buffer.length) :
    ∃ l tail, l ≠ [] ∧ l.length ≤ n ∧ z.entryEncode p buffer = (some l.length, l ++ tail) ∧
      z.entryDecode g l = some (a, l.length) := by
  obtain ⟨l, hne, hl, hw, hr⟩ := h
  obtain ⟨e, he, hok, -⟩ := hz.entryEncode p buffer
  obtain ⟨e', hpe, hwe⟩ := hw e [] buffer.length he (by omega)
  obtain ⟨tail, ht⟩ := hok e' l _ hpe hwe
  obtain ⟨d, hd, hdec⟩ := hz.entryDecode g l
  obtain ⟨d', hgd, hd'⟩ := hr d [] (by simpa using hd)
  exact ⟨l, tail, hne, hl, ht, by simpa using hdec a d' [] hgd hd'⟩

end Rules

end Zcbor
