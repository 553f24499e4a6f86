import Mathlib.Data.List.Induction
import Mathlib.Logic.Function.Iterate

/-!
# Division by a generator, one message bit at a time

A register of `w` bits shifts left on every message bit and adds the generator
`g` when the bit leaving it differs from the message bit. When `g` has a constant
term the register never loses information: it is injective in its old contents,
and no message of at most `w` bits is confused with another.
-/
namespace ShiftRegister

variable {w n : Nat}

/-- The register after one message bit. -/
def clock (g r : BitVec w) (b : Bool) : BitVec w :=
  (r <<< 1) ^^^ (if (r.msb ^^ b) = true then g else 0#w)

/-- The register after a message. -/
def feed (g r : BitVec w) (bits : List Bool) : BitVec w := bits.foldl (clock g) r

/-- A shift with no message bit. -/
def shift (g r : BitVec w) : BitVec w := clock g r false

/-- The bits of a word, most significant first. -/
def bits (v : BitVec n) : List Bool := (List.range n).map v.getMsbD

/-- A short word against the top of the register. -/
def align (v : BitVec n) : BitVec w := v.setWidth w <<< (w - n)

@[simp] theorem length_bits (v : BitVec n) : (bits v).length = n := by simp [bits]

theorem bits_injective : Function.Injective (bits (n := n)) := by
  intro u v h
  apply BitVec.eq_of_getMsbD_eq
  intro i hi
  have he := congrArg (fun l => l[i]?) h
  simpa [bits, hi] using he

@[simp] theorem feed_nil (g r : BitVec w) : feed g r [] = r := rfl
@[simp] theorem feed_cons (g r : BitVec w) (b : Bool) (bs : List Bool) :
    feed g r (b :: bs) = feed g (clock g r b) bs := rfl

theorem feed_append (g r : BitVec w) (a b : List Bool) :
    feed g r (a ++ b) = feed g (feed g r a) b := List.foldl_append

theorem getLsbD_clock (g r : BitVec w) (b : Bool) (i : Nat) (hi : i < w) :
    (clock g r b).getLsbD i =
      ((decide (0 < i) && r.getLsbD (i - 1)) ^^ ((r.msb ^^ b) && g.getLsbD i)) := by
  have hs : (r <<< 1).getLsbD i = (decide (0 < i) && r.getLsbD (i - 1)) := by
    rw [BitVec.getLsbD_shiftLeft]
    cases i <;> simp [hi]
  unfold clock
  rw [BitVec.getLsbD_xor, hs]
  cases (r.msb ^^ b) <;> simp

section Odd

variable {g : BitVec w} (hg : g.getLsbD 0 = true)
include hg

theorem odd_pos : 0 < w := by
  rcases Nat.eq_zero_or_pos w with h | h
  · subst h; simp at hg
  · exact h

/-- With a constant term in the generator the low bit tells what was shifted out. -/
theorem clock_low (r : BitVec w) (b : Bool) : (clock g r b).getLsbD 0 = (r.msb ^^ b) := by
  rw [getLsbD_clock _ _ _ _ (odd_pos hg)]
  simp [hg]

/-- Registers that agree below bit `k + 1` after a clock agreed below bit `k` before. -/
theorem agree_of_clock {r s : BitVec w} {a b : Bool} {k : Nat} (hk : k < w)
    (h : ∀ i < k + 1, (clock g r a).getLsbD i = (clock g s b).getLsbD i) :
    (r.msb ^^ a) = (s.msb ^^ b) ∧ ∀ i < k, r.getLsbD i = s.getLsbD i := by
  have h0 := h 0 (by omega)
  rw [clock_low hg, clock_low hg] at h0
  refine ⟨h0, ?_⟩
  intro i hi
  have hs := h (i + 1) (by omega)
  rw [getLsbD_clock _ _ _ _ (by omega), getLsbD_clock _ _ _ _ (by omega), h0] at hs
  simpa using hs

theorem clock_injective {r s : BitVec w} {b : Bool} (h : clock g r b = clock g s b) : r = s := by
  have hw := odd_pos hg
  obtain ⟨hm, hl⟩ := agree_of_clock hg (r := r) (s := s) (a := b) (b := b) (k := w - 1) (by omega)
    (fun i _ => by rw [h])
  have hm' : r.msb = s.msb := by simpa using hm
  apply BitVec.eq_of_getLsbD_eq
  intro i hi
  by_cases hi' : i < w - 1
  · exact hl i hi'
  · have he : i = w - 1 := by omega
    simpa [he, BitVec.msb_eq_getLsbD_last] using hm'

/-- For a fixed message the register after it determines the register before it. -/
theorem feed_injective {r s : BitVec w} (bs : List Bool) (h : feed g r bs = feed g s bs) :
    r = s := by
  induction bs generalizing r s with
  | nil => exact h
  | cons b bs ih => exact clock_injective hg (ih h)

/-- Two messages of equal length `n` that leave equal low `w - k` bits are equal
when `n + k ≤ w`: the last bit of each is read off the low bit of the register. -/
theorem feed_agree {r : BitVec w} {k : Nat} (a b : List Bool) (hl : a.length = b.length)
    (hk : a.length + k ≤ w)
    (h : ∀ i < w - k, (feed g r a).getLsbD i = (feed g r b).getLsbD i) : a = b := by
  induction a using List.reverseRecOn generalizing b k with
  | nil => exact (List.eq_nil_of_length_eq_zero hl.symm).symm
  | append_singleton a x ih =>
    obtain ⟨b, y, rfl⟩ : ∃ b' y, b = b' ++ [y] := by
      rcases List.eq_nil_or_concat b with hb | ⟨b', y, hb⟩
      · subst hb; simp at hl
      · exact ⟨b', y, by simpa using hb⟩
    simp only [List.length_append, List.length_singleton] at hl hk
    simp only [feed_append, feed_cons, feed_nil] at h
    have hw : w - k = w - (k + 1) + 1 := by omega
    rw [hw] at h
    obtain ⟨hm, hr⟩ := agree_of_clock hg (by omega) h
    have hab : a = b := ih b (by omega) (by omega) hr
    subst hab
    simpa using hm

/-- No burst of at most `w` bits goes unnoticed. -/
theorem feed_burst {r : BitVec w} (a b : List Bool) (hl : a.length = b.length)
    (hw : a.length ≤ w) (h : feed g r a = feed g r b) : a = b :=
  feed_agree hg (k := 0) a b hl (by omega) (fun i _ => by rw [h])

end Odd

/-- A map of words that respects exclusive or. -/
def Linear (f : BitVec w → BitVec n) : Prop := ∀ u v, f (u ^^^ v) = f u ^^^ f v

theorem Linear.zero {f : BitVec w → BitVec n} (hf : Linear f) : f 0#w = 0#n := by
  have h := hf 0#w 0#w
  rwa [BitVec.xor_self, BitVec.xor_self] at h

theorem Linear.comp {k : Nat} {f : BitVec n → BitVec k} {f' : BitVec w → BitVec n}
    (hf : Linear f) (hf' : Linear f') : Linear (fun v => f (f' v)) := by
  intro u v
  show f (f' (u ^^^ v)) = f (f' u) ^^^ f (f' v)
  rw [hf', hf]

theorem Linear.add {f f' : BitVec w → BitVec n} (hf : Linear f) (hf' : Linear f') :
    Linear (fun v => f v ^^^ f' v) := by
  intro u v
  show f (u ^^^ v) ^^^ f' (u ^^^ v) = f u ^^^ f' u ^^^ (f v ^^^ f' v)
  rw [hf, hf']
  ac_rfl

/-- The lowest `k + 1` bits of a word are the lowest `k` and one more. -/
theorem low_succ (v : BitVec w) (k : Nat) :
    (v.setWidth (k + 1)).setWidth w =
      (v.setWidth k).setWidth w ^^^ (if v.getLsbD k = true then BitVec.twoPow w k else 0#w) := by
  apply BitVec.eq_of_getLsbD_eq
  intro i hi
  have hbit : (if v.getLsbD k = true then BitVec.twoPow w k else 0#w).getLsbD i =
      (decide (k = i) && v.getLsbD k) := by
    cases v.getLsbD k
    · simp
    · simp [BitVec.getLsbD_twoPow]
      omega
  simp only [BitVec.getLsbD_xor, hbit, BitVec.getLsbD_setWidth, hi]
  rcases Nat.lt_trichotomy i k with h | rfl | h
  · simp [h, Nat.lt_succ_of_lt h, Nat.ne_of_gt h]
  · simp
  · simp [show ¬ i < k + 1 by omega, show ¬ i < k by omega, show k ≠ i by omega]

/-- Linear maps that agree on every single bit are equal. -/
theorem Linear.ext {f f' : BitVec w → BitVec n} (hf : Linear f) (hf' : Linear f')
    (h : ∀ i < w, f (BitVec.twoPow w i) = f' (BitVec.twoPow w i)) (v : BitVec w) : f v = f' v := by
  have low : ∀ k ≤ w, f ((v.setWidth k).setWidth w) = f' ((v.setWidth k).setWidth w) := by
    intro k
    induction k with
    | zero =>
      intro _
      rw [BitVec.of_length_zero (x := v.setWidth 0), BitVec.setWidth_zero, hf.zero, hf'.zero]
    | succ k ih =>
      intro hk
      have hbit : f (if v.getLsbD k = true then BitVec.twoPow w k else 0#w) =
          f' (if v.getLsbD k = true then BitVec.twoPow w k else 0#w) := by
        split
        · exact h k hk
        · rw [hf.zero, hf'.zero]
      rw [low_succ, hf, hf', ih (by omega), hbit]
  simpa using low w (Nat.le_refl w)

/-- The register is linear in its contents and the message taken together. -/
theorem clock_xor (g r s : BitVec w) (a b : Bool) :
    clock g (r ^^^ s) (a ^^ b) = clock g r a ^^^ clock g s b := by
  have htop : ((r ^^^ s).msb ^^ (a ^^ b)) = ((r.msb ^^ a) ^^ (s.msb ^^ b)) := by
    rw [BitVec.msb_xor, Bool.xor_assoc, Bool.xor_assoc, Bool.xor_left_comm s.msb]
  simp only [clock, htop, BitVec.shiftLeft_xor_distrib]
  cases (r.msb ^^ a) <;> cases (s.msb ^^ b)
  · simp
  · simp [BitVec.xor_assoc]
  · simp only [Bool.xor_false, if_true, Bool.false_eq_true, if_false, BitVec.xor_zero]
    ac_rfl
  · have hg : r <<< 1 ^^^ g ^^^ (s <<< 1 ^^^ g) = r <<< 1 ^^^ s <<< 1 ^^^ (g ^^^ g) := by ac_rfl
    simp [hg]

theorem shift_linear (g : BitVec w) : Linear (shift g) := fun r s => clock_xor g r s false false

theorem shifts_linear (g : BitVec w) (k : Nat) : Linear (shift g)^[k] := by
  induction k with
  | zero => intro r s; rfl
  | succ k ih => exact ih.comp (shift_linear g)

theorem feed_xor (g r s : BitVec w) {a b : List Bool} (h : a.length = b.length) :
    feed g (r ^^^ s) (List.zipWith xor a b) = feed g r a ^^^ feed g s b := by
  induction a generalizing r s b with
  | nil =>
    cases b with
    | nil => rfl
    | cons y b => cases h
  | cons x a ih =>
    cases b with
    | nil => cases h
    | cons y b =>
      rw [List.zipWith_cons_cons, feed_cons, clock_xor, ih _ _ (Nat.succ.inj h)]
      rfl

theorem bits_xor (u v : BitVec n) : bits (u ^^^ v) = List.zipWith xor (bits u) (bits v) := by
  apply List.ext_getElem
  · simp
  · intro i h1 h2
    simp [bits]

/-- Feeding a register its own leading bits shifts them out without a trace. -/
theorem feed_own (g r : BitVec w) (k : Nat) :
    feed g r ((List.range k).map r.getMsbD) = r <<< k := by
  induction k with
  | zero => simp
  | succ k ih =>
    have hm : (r <<< k).msb = r.getMsbD k := by
      rw [BitVec.msb_shiftLeft]
    rw [List.range_succ, List.map_append, feed_append, ih]
    simp [clock, hm, BitVec.shiftLeft_add]

/-- A register is cleared by exactly one message of its own width: its contents. -/
theorem feed_eq_zero_iff {g : BitVec w} (hg : g.getLsbD 0 = true) (r v : BitVec w) :
    feed g r (bits v) = 0#w ↔ v = r := by
  have hown : feed g r (bits r) = 0#w := by
    rw [bits, feed_own, BitVec.shiftLeft_eq_zero (Nat.le_refl w)]
  constructor
  · intro h
    exact bits_injective (feed_burst hg _ _ (by simp) (by simp) (h.trans hown.symm))
  · rintro rfl
    exact hown

theorem msb_align_shift (v : BitVec n) (hn : n ≤ w) (k : Nat) (hk : k < n) :
    ((align v : BitVec w) <<< k).msb = v.getMsbD k := by
  rw [BitVec.msb_shiftLeft, BitVec.getMsbD_eq_getLsbD, BitVec.getMsbD_eq_getLsbD]
  have hkw : k < w := by omega
  have hi : w - 1 - k - (w - n) = n - 1 - k := by omega
  simp only [align, BitVec.getLsbD_shiftLeft, BitVec.getLsbD_setWidth, hkw, hk, hi]
  have h1 : w - 1 - k < w := by omega
  have h2 : ¬ w - 1 - k < w - n := by omega
  have h3 : n - 1 - k < w := by omega
  simp [h1, h2, h3]

/-- Adding a word at the top and shifting it through is feeding its bits. -/
theorem shifts_align (g r : BitVec w) (v : BitVec n) (hn : n ≤ w) :
    (shift g)^[n] (r ^^^ align v) = feed g r (bits v) := by
  have main : ∀ k ≤ n, (shift g)^[k] (r ^^^ align v) =
      feed g r ((List.range k).map v.getMsbD) ^^^ ((align v : BitVec w) <<< k) := by
    intro k
    induction k with
    | zero => simp
    | succ k ih =>
      intro hk
      -- the top bit is the sum of the register's own and the next bit of the word
      rw [Function.iterate_succ_apply', ih (by omega), List.range_succ, List.map_append, feed_append]
      simp only [List.map_cons, List.map_nil, feed_cons, feed_nil, shift, clock, Bool.xor_false,
        BitVec.msb_xor, msb_align_shift v hn k (by omega), BitVec.shiftLeft_xor_distrib,
        ← BitVec.shiftLeft_add]
      ac_rfl
  have hz : (align v : BitVec w) <<< n = 0#w := by
    rw [align, ← BitVec.shiftLeft_add]
    exact BitVec.shiftLeft_eq_zero (by omega)
  simpa [hz, bits] using main n (Nat.le_refl n)

theorem feed_zeros (g r : BitVec w) (k : Nat) :
    feed g r (List.replicate k false) = (shift g)^[k] r := by
  induction k generalizing r with
  | zero => rfl
  | succ k ih => exact ih (shift g r)

@[simp] theorem feed_zero_zeros (g : BitVec w) (k : Nat) :
    feed g 0#w (List.replicate k false) = 0#w := by
  rw [feed_zeros, (shifts_linear g k).zero]

/-- Zeros in front of a message are not noticed by an empty register. -/
theorem feed_zeros_append (g : BitVec w) (k : Nat) (bs : List Bool) :
    feed g 0#w (List.replicate k false ++ bs) = feed g 0#w bs := by
  rw [feed_append, feed_zero_zeros]

/-- Zeros behind a message do not empty a register. -/
theorem feed_append_zeros {g : BitVec w} (hg : g.getLsbD 0 = true) {bs : List Bool} {k : Nat}
    (h : feed g 0#w (bs ++ List.replicate k false) = 0#w) : feed g 0#w bs = 0#w := by
  apply feed_injective hg (List.replicate k false)
  rw [← feed_append, h, feed_zero_zeros]

theorem eq_zeros {bs : List Bool} (h : true ∉ bs) : bs = List.replicate bs.length false := by
  apply List.eq_replicate_of_mem
  intro b hb
  cases b with
  | false => rfl
  | true => exact absurd hb h

/-- The ones of a message lie within `k` consecutive positions. -/
def Confined (k : Nat) (bs : List Bool) : Prop :=
  ∃ j, ∀ i : Nat, bs[i]? = some true → j ≤ i ∧ i < j + k

theorem Confined.parts {k : Nat} {bs : List Bool} (h : Confined k bs) :
    ∃ i mid j, bs = List.replicate i false ++ (mid ++ List.replicate j false) ∧
      mid.length ≤ k := by
  obtain ⟨j, hj⟩ := h
  have hfront : true ∉ bs.take j := by
    intro hm
    obtain ⟨i, hi, hb⟩ := List.mem_take_iff_getElem.mp hm
    have := hj i (by rw [List.getElem?_eq_getElem (by omega), hb])
    omega
  have hback : true ∉ (bs.drop j).drop k := by
    intro hm
    rw [List.drop_drop] at hm
    obtain ⟨i, hi⟩ := List.mem_iff_getElem?.mp hm
    rw [List.getElem?_drop] at hi
    have := hj _ hi
    omega
  refine ⟨(bs.take j).length, (bs.drop j).take k, ((bs.drop j).drop k).length, ?_,
    List.length_take_le _ _⟩
  rw [← eq_zeros hfront, ← eq_zeros hback, List.take_append_drop, List.take_append_drop]

/-- No burst of at most `w` bits goes unnoticed, wherever it stands. -/
theorem feed_confined {g : BitVec w} (hg : g.getLsbD 0 = true) {bs : List Bool}
    (hc : Confined w bs) (h : feed g 0#w bs = 0#w) : true ∉ bs := by
  obtain ⟨i, mid, j, rfl, hmid⟩ := hc.parts
  rw [feed_zeros_append] at h
  have hm : mid = List.replicate mid.length false :=
    feed_burst hg _ _ (by simp) hmid ((feed_append_zeros hg h).trans (feed_zero_zeros g _).symm)
  rw [hm]
  simp

theorem split_true {bs : List Bool} (h : true ∈ bs) :
    ∃ i rest, bs = List.replicate i false ++ true :: rest := by
  induction bs with
  | nil => cases h
  | cons b bs ih =>
    cases b with
    | true => exact ⟨0, bs, rfl⟩
    | false =>
      obtain ⟨i, rest, rfl⟩ := ih (by simpa using h)
      exact ⟨i + 1, rest, rfl⟩

/-- A message of weight 2. -/
theorem pair_parts {bs : List Bool} (h : bs.count true = 2) :
    ∃ i j k, bs = List.replicate i false ++
      true :: (List.replicate j false ++ true :: List.replicate k false) := by
  obtain ⟨i, rest, rfl⟩ := split_true (List.count_pos_iff.mp (by omega : 0 < bs.count true))
  have hrest : rest.count true = 1 := by simpa [List.count_replicate] using h
  obtain ⟨j, last, rfl⟩ := split_true (List.count_pos_iff.mp (by omega : 0 < rest.count true))
  have hlast : last.count true = 0 := by simpa [List.count_replicate] using hrest
  exact ⟨i, j, last.length, by rw [← eq_zeros (List.count_eq_zero.mp hlast)]⟩

theorem clock_zero (g : BitVec w) : clock g 0#w true = g := by simp [clock]

/-- Two ones go unnoticed only where the generator comes back to itself in between. -/
theorem feed_pair {g : BitVec w} (hg : g.getLsbD 0 = true) {i j k : Nat}
    (h : feed g 0#w (List.replicate i false ++
      true :: (List.replicate j false ++ true :: List.replicate k false)) = 0#w) :
    (shift g)^[j + 1] g = g := by
  rw [feed_zeros_append] at h
  have hfront : feed g 0#w (true :: (List.replicate j false ++ [true])) = 0#w := by
    apply feed_append_zeros hg (k := k)
    simpa using h
  rw [feed_cons, clock_zero, feed_append, feed_zeros, feed_cons, feed_nil] at hfront
  -- the second one adds the generator to what a shift would leave
  have hsum := clock_xor g ((shift g)^[j] g) 0#w false true
  rw [BitVec.xor_zero, Bool.false_xor, hfront, clock_zero] at hsum
  rw [Function.iterate_succ_apply']
  exact BitVec.xor_eq_zero_iff.mp hsum.symm

/-- None of the next `n` registers is `v`. -/
def avoids (g v : BitVec w) : Nat → BitVec w → Bool
  | 0, _ => true
  | n + 1, r => decide (shift g r ≠ v) && avoids g v n (shift g r)

theorem avoids_spec {g v r : BitVec w} {n : Nat} (h : avoids g v n r = true) {k : Nat}
    (hk : k < n) : (shift g)^[k + 1] r ≠ v := by
  induction n generalizing r k with
  | zero => omega
  | succ n ih =>
    obtain ⟨hnext, hrest⟩ := Bool.and_eq_true_iff.mp h
    cases k with
    | zero => exact of_decide_eq_true hnext
    | succ k => exact ih hrest (Nat.lt_of_succ_lt_succ hk)

end ShiftRegister
