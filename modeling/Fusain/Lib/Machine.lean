import Mathlib.Data.List.Basic
import Mathlib.Algebra.Ring.Nat

/-!
# Machines that answer every input

A deterministic machine reads one input at a time and gives one answer for each.
Facts about whole runs are reduced here to facts about one step: an invariant may
mention the inputs read so far, and two machines are compared by a relation
between their states that every input preserves.
-/
namespace Machine

variable {σ τ ι ο ω : Type}

/-- The state after a whole input word. -/
def final (step : σ → ι → σ × ο) (s : σ) (xs : List ι) : σ :=
  xs.foldl (fun s x => (step s x).1) s

/-- The answers along a run, one for each input. -/
def answers (step : σ → ι → σ × ο) : σ → List ι → List ο
  | _, [] => []
  | s, x :: xs => (step s x).2 :: answers step (step s x).1 xs

variable (step : σ → ι → σ × ο)

@[simp] theorem final_nil (s : σ) : final step s [] = s := rfl
@[simp] theorem final_cons (s : σ) (x : ι) (xs : List ι) :
    final step s (x :: xs) = final step (step s x).1 xs := rfl
@[simp] theorem answers_nil (s : σ) : answers step s [] = [] := rfl
@[simp] theorem answers_cons (s : σ) (x : ι) (xs : List ι) :
    answers step s (x :: xs) = (step s x).2 :: answers step (step s x).1 xs := rfl

theorem final_append (s : σ) (xs ys : List ι) :
    final step s (xs ++ ys) = final step (final step s xs) ys := List.foldl_append

theorem answers_append (s : σ) (xs ys : List ι) :
    answers step s (xs ++ ys) = answers step s xs ++ answers step (final step s xs) ys := by
  induction xs generalizing s with
  | nil => rfl
  | cons x xs ih => simp [ih]

@[simp] theorem length_answers (s : σ) (xs : List ι) :
    (answers step s xs).length = xs.length := by
  induction xs generalizing s with
  | nil => rfl
  | cons x xs ih => simp [ih]

theorem getElem?_answers (s : σ) (xs : List ι) (i : Nat) :
    (answers step s xs)[i]? = xs[i]?.map fun x => (step (final step s (xs.take i)) x).2 := by
  induction xs generalizing s i with
  | nil => rfl
  | cons x xs ih =>
    cases i with
    | zero => rfl
    | succ i => exact ih (step s x).1 i

/-- An answer of a run is given somewhere along it. -/
theorem mem_answers (s : σ) (xs : List ι) (o : ο) :
    o ∈ answers step s xs ↔
      ∃ past x rest, xs = past ++ x :: rest ∧ o = (step (final step s past) x).2 := by
  constructor
  · intro h
    induction xs generalizing s with
    | nil => cases h
    | cons x xs ih =>
      rcases List.mem_cons.mp h with rfl | h
      · exact ⟨[], x, xs, rfl, rfl⟩
      · obtain ⟨past, y, rest, rfl, rfl⟩ := ih (step s x).1 h
        exact ⟨x :: past, y, rest, rfl, rfl⟩
  · rintro ⟨past, x, rest, rfl, rfl⟩
    simp [answers_append]

/-- An invariant that mentions the inputs read so far holds after every run. -/
theorem invariant {I : List ι → σ → Prop} {s : σ} (start : I [] s)
    (next : ∀ past s x, I past s → I (past ++ [x]) (step s x).1) (xs : List ι) :
    I xs (final step s xs) := by
  have main : ∀ past s, I past s → I (past ++ xs) (final step s xs) := by
    induction xs with
    | nil => intro past s h; simpa using h
    | cons x xs ih =>
      intro past s h
      simpa using ih (past ++ [x]) (step s x).1 (next past s x h)
  exact main [] s start

/-- Two machines whose steps keep `R` between their states and give answers
related by `Q` do so over whole runs. -/
theorem simulation (step' : τ → ι → τ × ω) {R : σ → τ → Prop} {Q : ο → ω → Prop}
    (next : ∀ s t x, R s t → R (step s x).1 (step' t x).1 ∧ Q (step s x).2 (step' t x).2)
    (xs : List ι) {s : σ} {t : τ} (h : R s t) :
    R (final step s xs) (final step' t xs) ∧
      List.Forall₂ Q (answers step s xs) (answers step' t xs) := by
  induction xs generalizing s t with
  | nil => exact ⟨h, .nil⟩
  | cons x xs ih =>
    obtain ⟨hr, hq⟩ := next s t x h
    obtain ⟨hR, hQ⟩ := ih hr
    exact ⟨hR, .cons hq hQ⟩

/-- Every step of a run meets `P`, which may mention the state before it. -/
def Along (P : σ → ι → Prop) : σ → List ι → Prop
  | _, [] => True
  | s, x :: xs => P s x ∧ Along P (step s x).1 xs

instance decidableAlong {P : σ → ι → Prop} [∀ s x, Decidable (P s x)] :
    ∀ s xs, Decidable (Along step P s xs)
  | _, [] => .isTrue trivial
  | s, x :: xs =>
    have : Decidable (Along step P (step s x).1 xs) := decidableAlong (step s x).1 xs
    inferInstanceAs (Decidable (P s x ∧ Along step P (step s x).1 xs))

/-- An invariant that holds of every step meeting `P` along such a run. -/
theorem answers_along {P : σ → ι → Prop} {I : σ → Prop} {Q : ο → Prop}
    (next : ∀ s x, I s → P s x → I (step s x).1 ∧ Q (step s x).2) (xs : List ι) {s : σ}
    (start : I s) (h : Along step P s xs) : ∀ o ∈ answers step s xs, Q o := by
  induction xs generalizing s with
  | nil => simp
  | cons x xs ih =>
    obtain ⟨hx, hxs⟩ := h
    obtain ⟨hinv, hq⟩ := next s x start hx
    intro o ho
    rcases List.mem_cons.mp ho with rfl | ho
    · exact hq
    · exact ih hinv hxs o ho

/-- A simulation that needs `P` of every step of the second machine. -/
theorem simulation_along (step' : τ → ι → τ × ω) {P : τ → ι → Prop} {R : σ → τ → Prop}
    {Q : ο → ω → Prop}
    (next : ∀ s t x, R s t → P t x → R (step s x).1 (step' t x).1 ∧ Q (step s x).2 (step' t x).2)
    (xs : List ι) {s : σ} {t : τ} (start : R s t) (h : Along step' P t xs) :
    List.Forall₂ Q (answers step s xs) (answers step' t xs) := by
  induction xs generalizing s t with
  | nil => exact .nil
  | cons x xs ih =>
    obtain ⟨hx, hxs⟩ := h
    obtain ⟨hr, hq⟩ := next s t x start hx
    exact .cons hq (ih hr hxs)

/-- A run over words one after the other, each read from a state that keeps `I`, splits into
one chunk of answers for each word. -/
theorem answers_flatMap {κ : Type} {I : σ → Prop} {Q : κ → List ο → Prop} (word : κ → List ι)
    (ks : List κ)
    (next : ∀ k ∈ ks, ∀ s, I s → I (final step s (word k)) ∧ Q k (answers step s (word k)))
    {s : σ} (h : I s) :
    I (final step s (ks.flatMap word)) ∧ ∃ chunks : List (List ο),
      answers step s (ks.flatMap word) = chunks.flatten ∧ List.Forall₂ Q ks chunks := by
  induction ks generalizing s with
  | nil => exact ⟨h, [], rfl, .nil⟩
  | cons k ks ih =>
    obtain ⟨hk, hq⟩ := next k List.mem_cons_self s h
    obtain ⟨hks, chunks, hrest, hall⟩ := ih (fun k hk => next k (List.mem_cons_of_mem _ hk)) hk
    rw [List.flatMap_cons, final_append, answers_append, hrest]
    exact ⟨hks, answers step s (word k) :: chunks, rfl, .cons hq hall⟩

/-- Where every element with `p` costs `k` at least. -/
theorem mul_countP_le {α : Type} {p : α → Bool} {cost : α → Nat} {k : Nat} {xs : List α}
    (h : ∀ x ∈ xs, p x = true → k ≤ cost x) : k * xs.countP p ≤ (xs.map cost).sum := by
  induction xs with
  | nil => simp
  | cons x xs ih =>
    have hrest := ih fun y hy => h y (List.mem_cons_of_mem x hy)
    rw [List.map_cons, List.sum_cons, List.countP_cons, Nat.mul_add]
    cases hp : p x with
    | false => simp; omega
    | true =>
      have hx := h x List.mem_cons_self hp
      simp; omega

/-- Every answer has its cost, every input its income. Where a second machine in step with
the first keeps a potential that covers the difference, so it does over whole runs. -/
theorem answers_budget (step' : τ → ι → τ × ω) {R : σ → τ → Prop} (cost : ο → Nat)
    (income : ι → Nat) (potential : τ → Nat)
    (next : ∀ s t x, R s t → R (step s x).1 (step' t x).1 ∧
      cost (step s x).2 + potential (step' t x).1 ≤ potential t + income x)
    (xs : List ι) {s : σ} {t : τ} (h : R s t) :
    ((answers step s xs).map cost).sum + potential (final step' t xs) ≤
      potential t + (xs.map income).sum := by
  induction xs generalizing s t with
  | nil => simp
  | cons x xs ih =>
    obtain ⟨hr, hstep⟩ := next s t x h
    have hrest := ih hr
    simp only [answers_cons, final_cons, List.map_cons, List.sum_cons]
    omega

/-- A rank that falls with every quiet input, but never to zero, is a bound on the inputs
before the next answer. -/
theorem answered_within (loud : ο → Prop) {P : σ → ι → Prop} (rank : σ → Nat)
    (next : ∀ s x, P s x → 0 < rank s →
      loud (step s x).2 ∨ 0 < rank (step s x).1 ∧ rank (step s x).1 < rank s)
    (xs : List ι) {s : σ} (hall : Along step P s xs) (hpos : 0 < rank s) (hlen : rank s ≤ xs.length) :
    ∃ o ∈ answers step s xs, loud o := by
  induction xs generalizing s with
  | nil =>
    rw [List.length_nil] at hlen
    omega
  | cons x xs ih =>
    obtain ⟨hx, hrest⟩ := hall
    rcases next s x hx hpos with hloud | ⟨hpos', hless⟩
    · exact ⟨_, List.mem_cons_self, hloud⟩
    · rw [List.length_cons] at hlen
      obtain ⟨o, ho, hloud⟩ := ih hrest hpos' (by omega)
      exact ⟨o, List.mem_cons_of_mem _ ho, hloud⟩

end Machine
