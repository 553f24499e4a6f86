import Fusain.Lib.Stuffing

/-!
# Words with their own delimiters

A word that has one symbol at its start only and another at its end only can be found
again in a series of such words: it occurs nowhere but where it was put, never across the
seam of two others. Such a code is comma-free.
-/
namespace CommaFree

open Stuffing

variable {α κ : Type}

/-- `first` stands at the start of the word and `last` at its end, and nowhere else. -/
def Delimited (first last : α) (w : List α) : Prop :=
  ∃ inner, w = first :: (inner ++ [last]) ∧ first ∉ inner ++ [last] ∧ last ∉ inner

section Words

variable {first last : α} {v w : List α}

theorem Delimited.ne_nil (h : Delimited first last w) : w ≠ [] := by
  obtain ⟨inner, rfl, -, -⟩ := h
  exact List.cons_ne_nil _ _

theorem Delimited.split {s t : List α} (hv : Delimited first last v) (hw : Delimited first last w)
    (h : v ++ s = w ++ t) : v = w ∧ s = t := by
  obtain ⟨i, rfl, -, hi⟩ := hv
  obtain ⟨j, rfl, -, hj⟩ := hw
  have hinner : (i ++ [last]) ++ s = (j ++ [last]) ++ t := (List.cons.inj h).2
  have hprefix : j ++ [last] <+: (i ++ [last]) ++ s := hinner ▸ List.prefix_append _ t
  obtain rfl : i = j := by
    rcases List.prefix_or_prefix_of_prefix (List.prefix_append (i ++ [last]) s) hprefix with hp | hp
    · exact terminated_prefix hi hj hp
    · symm
      exact terminated_prefix hj hi hp
  exact ⟨rfl, List.append_cancel_left h⟩

theorem Delimited.no_overlap {before c s t : List α} (hv : Delimited first last v)
    (hw : Delimited first last w) (hbefore : before ≠ []) (hc : c ≠ []) (hcut : v = before ++ c)
    (h : w ++ s = c ++ t) : False := by
  obtain ⟨i, rfl, hi, -⟩ := hv
  obtain ⟨j, rfl, -, -⟩ := hw
  cases before with
  | nil => exact hbefore rfl
  | cons x before =>
    cases c with
    | nil => exact hc rfl
    | cons y c =>
      obtain rfl : first = y := (List.cons.inj h).1
      have htail : i ++ [last] = before ++ first :: c := (List.cons.inj hcut).2
      exact hi (htail ▸ List.mem_append_right before List.mem_cons_self)

end Words

variable {first last : α} {word : κ → List α} (delimited : ∀ k, Delimited first last (word k))
include delimited

/-- Wherever a word occurs in a series of words, it is one of them. -/
theorem occurrence (k : κ) (ks : List κ) (before after : List α) :
    before ++ word k ++ after = ks.flatMap word ↔
      ∃ earlier k' later, ks = earlier ++ k' :: later ∧ before = earlier.flatMap word ∧
        word k = word k' ∧ after = later.flatMap word := by
  constructor
  · intro h
    induction ks generalizing before with
    | nil =>
      rw [List.flatMap_nil, List.append_eq_nil_iff, List.append_eq_nil_iff] at h
      exact absurd h.1.2 (delimited k).ne_nil
    | cons k' ks ih =>
      have behind : ∀ more, more ++ word k ++ after = ks.flatMap word → before = word k' ++ more →
          ∃ earlier k'' later, k' :: ks = earlier ++ k'' :: later ∧
            before = earlier.flatMap word ∧ word k = word k'' ∧ after = later.flatMap word := by
        intro more hrest hbefore
        obtain ⟨earlier, k'', later, rfl, rfl, hword, hafter⟩ := ih more hrest
        exact ⟨k' :: earlier, k'', later, rfl, hbefore, hword, hafter⟩
      rw [List.append_assoc, List.flatMap_cons, List.append_eq_append_iff] at h
      rcases h with ⟨c, hcut, hrest⟩ | ⟨more, hbefore, hrest⟩
      · -- the word starts in front of the seam behind `word k'`, or right at it
        by_cases hc : c = []
        · subst hc
          exact behind [] hrest (by simpa using hcut.symm)
        by_cases hbefore : before = []
        · subst hbefore
          rw [List.nil_append] at hcut
          subst hcut
          obtain ⟨hword, hafter⟩ := (delimited k).split (delimited k') hrest
          exact ⟨[], k', ks, rfl, rfl, hword, hafter⟩
        · exact ((delimited k').no_overlap (delimited k) hbefore hc hcut hrest).elim
      · exact behind more (by rw [List.append_assoc]; exact hrest.symm) hbefore
  · rintro ⟨earlier, k', later, rfl, rfl, hword, rfl⟩
    rw [hword, List.flatMap_append, List.flatMap_cons, List.append_assoc]

/-- A series tells its words: where equal words are words of one letter, it tells the letters. -/
theorem series_inj {β : Type} {letter : κ → β} (same : ∀ k k', word k = word k' ↔ letter k = letter k')
    (ks ks' : List κ) : ks.flatMap word = ks'.flatMap word ↔ ks.map letter = ks'.map letter := by
  induction ks generalizing ks' with
  | nil =>
    cases ks' with
    | nil => exact iff_of_true rfl rfl
    | cons k' ks' =>
      refine iff_of_false (fun h => ?_) (List.cons_ne_nil _ _).symm
      rw [List.flatMap_nil, List.flatMap_cons] at h
      exact (delimited k').ne_nil (List.append_eq_nil_iff.mp h.symm).1
  | cons k ks ih =>
    cases ks' with
    | nil =>
      refine iff_of_false (fun h => ?_) (List.cons_ne_nil _ _)
      rw [List.flatMap_nil, List.flatMap_cons] at h
      exact (delimited k).ne_nil (List.append_eq_nil_iff.mp h).1
    | cons k' ks' =>
      rw [List.flatMap_cons, List.flatMap_cons, List.map_cons, List.map_cons, List.cons.injEq,
        ← same, ← ih]
      constructor
      · exact (delimited k).split (delimited k')
      · rintro ⟨hk, hks⟩
        rw [hk, hks]

end CommaFree
