import Fusain.Lib.Stuffing

/-!
# Single faults on a stuffed word

One raw symbol of a stuffed word is deleted, replaced or preceded by another one. A
fault may make or break an escape, so the word that is read back can differ from the
word that was sent in six ways, all of them next to the fault.
-/
namespace Damage

open Stuffing

variable {α : Type} (c : Scheme α)

/-- The word sent and the word read after a single fault. -/
inductive Damaged : List α → List α → Prop
  | one (a : List α) {x y : α} (t : List α) : x ≠ y → Damaged (a ++ x :: t) (a ++ y :: t)
  | two (a : List α) {x x' y y' : α} (t : List α) : x' ≠ y' →
      Damaged (a ++ x :: x' :: t) (a ++ y :: y' :: t)
  | lost (a : List α) (x : α) (t : List α) : Damaged (a ++ x :: t) (a ++ t)
  | merged (a : List α) (x x' : α) (t : List α) : Damaged (a ++ x :: x' :: t) (a ++ c.mask x' :: t)
  | added (a : List α) (x : α) (t : List α) : Damaged (a ++ t) (a ++ x :: t)
  | split (a : List α) {x : α} (y y' : α) (t : List α) : c.special x = true →
      Damaged (a ++ x :: t) (a ++ y :: y' :: t)

variable [DecidableEq α]

/-- An escape left open takes in the symbol behind it. -/
theorem opened_damaged (a : List α) (x : α) (t : List α) :
    Damaged c (a ++ x :: t) (a ++ word c (c.esc :: stuff c t)) := by
  cases t with
  | nil => simpa [word] using Damaged.lost (c := c) a x []
  | cons b t =>
    cases hb : c.special b with
    | false =>
      rw [stuff_cons, stuffOne_plain c hb, List.singleton_append, word_escaped, word_stuff]
      exact .merged a x b t
    | true =>
      rw [stuff_cons, stuffOne_special c hb, List.cons_append, List.singleton_append, word_escaped,
        word_plain c (plain_ne_esc c (c.mask_plain b hb)), word_stuff]
      exact .two a t (c.mask_ne b).symm

section Fault

variable {bs u v : List α} {x : α} (h : stuff c bs = u ++ x :: v)
include h

theorem delete_damaged : Damaged c bs (word c (u ++ v)) := by
  obtain ⟨a, b, t, rfl, ⟨hb, rfl, rfl, rfl⟩ | ⟨hb, rfl, rfl, rfl⟩ | ⟨hb, rfl, rfl, rfl⟩⟩ :=
    stuff_split c h
  · rw [word_stuff_append, word_stuff]
    exact .lost a x t
  · rw [word_stuff_append, word_plain c (plain_ne_esc c (c.mask_plain b hb)), word_stuff]
    exact .one a t (c.mask_ne b).symm
  · rw [List.append_assoc, word_stuff_append]
    exact opened_damaged c a b t

theorem replace_damaged {y : α} (hy : y ≠ x) : Damaged c bs (word c (u ++ y :: v)) := by
  obtain ⟨a, b, t, rfl, ⟨hb, rfl, rfl, rfl⟩ | ⟨hb, rfl, rfl, rfl⟩ | ⟨hb, rfl, rfl, rfl⟩⟩ :=
    stuff_split c h
  · rw [word_stuff_append]
    by_cases he : y = c.esc
    · rw [he]
      exact opened_damaged c a x t
    · rw [word_plain c he, word_stuff]
      exact .one a t hy.symm
  · rw [word_stuff_append, word_plain c hy,
      word_plain c (plain_ne_esc c (c.mask_plain b hb)), word_stuff]
    exact .split a y (c.mask b) t hb
  · rw [List.append_assoc, word_stuff_append, List.singleton_append, word_escaped, word_stuff]
    refine .one a t fun hm => hy ?_
    rw [hm, c.mask_mask]

theorem insert_damaged (y : α) : Damaged c bs (word c (u ++ y :: x :: v)) := by
  obtain ⟨a, b, t, rfl, ⟨hb, rfl, rfl, rfl⟩ | ⟨hb, rfl, rfl, rfl⟩ | ⟨hb, rfl, rfl, rfl⟩⟩ :=
    stuff_split c h
  · rw [word_stuff_append]
    by_cases he : y = c.esc
    · rw [he, word_escaped, word_stuff]
      exact .one a t (c.mask_ne x).symm
    · rw [word_plain c he, word_plain c (plain_ne_esc c hb), word_stuff]
      exact .added a y (x :: t)
  · have hm := plain_ne_esc c (c.mask_plain b hb)
    rw [word_stuff_append]
    by_cases he : y = c.esc
    · rw [he, word_escaped, word_plain c hm, word_stuff]
      exact .split a (c.mask c.esc) (c.mask b) t hb
    · rw [word_plain c he, word_escaped, word_stuff, c.mask_mask]
      exact .added a y (b :: t)
  · have hm := plain_ne_esc c (c.mask_plain b hb)
    rw [List.append_assoc, word_stuff_append, List.singleton_append, word_escaped,
      word_plain c hm, word_stuff]
    exact .split a (c.mask y) (c.mask b) t hb

/-- What is read before the fault is a proper prefix of the word. -/
theorem prefix_word : ∃ b t, bs = word c u ++ b :: t := by
  obtain ⟨a, b, t, rfl, ⟨-, -, rfl, -⟩ | ⟨-, -, rfl, -⟩ | ⟨-, -, rfl, -⟩⟩ := stuff_split c h
  · exact ⟨b, t, by rw [word_stuff]⟩
  · exact ⟨b, t, by rw [word_stuff]⟩
  · exact ⟨b, t, by rw [word_stuff_append]; simp [word]⟩

end Fault

end Damage
