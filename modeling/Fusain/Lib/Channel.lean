import Mathlib.Data.List.Forall2

/-!
# Channels that may lose messages

A queue between a sender and a receiver: messages come out in the order they went in, each
at most once, and what is missing was spoilt or cannot be read. A system is compared with it
step by step, where one step of the system may be none or several of the channel.
-/
namespace Channel

variable {α σ ε : Type}

inductive Event (α : Type) where
  | send (a : α)
  | receive
  | spoil

/-- The queue, whether its first message is spoilt, and what became of those before it. -/
structure State (α : Type) where
  sent : List α
  queue : List α
  spoilt : Bool
  received : List α
  lost : Nat

def idle : State α := ⟨[], [], false, [], 0⟩

section Steps

variable (legible : α → Bool)

/-- A spoilt message leaves the queue like any other, but is not received. -/
def step (s : State α) : Event α → State α
  | .send a => { s with sent := s.sent ++ [a], queue := s.queue ++ [a] }
  | .receive =>
    match s.queue with
    | [] => s
    | a :: rest =>
      if s.spoilt then { s with queue := rest, spoilt := false, lost := s.lost + 1 }
      else { s with queue := rest, received := if legible a then s.received ++ [a] else s.received }
  | .spoil => if s.queue = [] then s else { s with spoilt := true }

def run (s : State α) (events : List (Event α)) : State α := events.foldl (step legible) s

end Steps

def sends (events : List (Event α)) : List α :=
  events.filterMap fun | .send a => some a | _ => none

def spoils (events : List (Event α)) : Nat :=
  events.countP fun | .spoil => true | _ => false

variable {legible : α → Bool}

/-- All that was sent and can be read is queued, received or lost, and in order. -/
structure Sound (legible : α → Bool) (s : State α) : Prop where
  through : ∃ past, s.sent = past ++ s.queue ∧ s.received.Sublist (past.filter legible) ∧
    (past.filter legible).length ≤ s.received.length + s.lost

theorem sound_idle : Sound legible idle := ⟨[], rfl, .slnil, Nat.le_refl 0⟩

theorem step_sound {s : State α} (h : Sound legible s) (e : Event α) :
    Sound legible (step legible s e) := by
  obtain ⟨past, hsent, hsub, hlen⟩ := h
  cases e with
  | send a => exact ⟨past, by simp [step, hsent], hsub, hlen⟩
  | spoil =>
    by_cases hq : s.queue = []
    · simpa only [step, if_pos hq] using ⟨past, hsent, hsub, hlen⟩
    · simpa only [step, if_neg hq] using ⟨past, hsent, hsub, hlen⟩
  | receive =>
    cases hq : s.queue with
    | nil => simpa only [step, hq] using ⟨past, hsent, hsub, hlen⟩
    | cons a rest =>
      have hone : ([a].filter legible).length ≤ 1 := List.length_filter_le legible [a]
      have hsent' : s.sent = (past ++ [a]) ++ rest := by simp [hsent, hq]
      simp only [step, hq]
      cases s.spoilt with
      | true =>
        refine ⟨past ++ [a], hsent', ?_⟩
        simp only [if_true, List.filter_append, List.length_append]
        exact ⟨hsub.trans (List.sublist_append_left _ _), by omega⟩
      | false =>
        refine ⟨past ++ [a], hsent', ?_⟩
        simp only [Bool.false_eq_true, if_false, List.filter_append]
        cases ha : legible a with
        | false => simpa [ha] using ⟨hsub, hlen⟩
        | true =>
          simp only [List.filter_cons_of_pos ha, List.filter_nil, if_true, List.length_append,
            List.length_singleton]
          exact ⟨hsub.append (List.Sublist.refl [a]), by omega⟩

theorem run_sound {s : State α} (h : Sound legible s) (events : List (Event α)) :
    Sound legible (run legible s events) := by
  induction events generalizing s with
  | nil => exact h
  | cons e events ih => exact ih (step_sound h e)

/-- A message that is lost was spoilt before. -/
theorem step_counts (legible : α → Bool) (s : State α) (e : Event α) :
    (step legible s e).sent = s.sent ++ sends [e] ∧
      (step legible s e).lost + (step legible s e).spoilt.toNat ≤
        s.lost + s.spoilt.toNat + spoils [e] := by
  cases e with
  | send a => exact ⟨rfl, Nat.le_refl _⟩
  | spoil =>
    by_cases hq : s.queue = []
    · simp [step, hq, sends, spoils]
    · simp [step, hq, sends, spoils]
  | receive =>
    cases hq : s.queue with
    | nil => simp [step, hq, sends, spoils]
    | cons a rest => cases hs : s.spoilt <;> simp [step, hq, hs, sends, spoils]

/-- What was sent is in the events, and so is every loss. -/
theorem run_counts (legible : α → Bool) (s : State α) (events : List (Event α)) :
    (run legible s events).sent = s.sent ++ sends events ∧
      (run legible s events).lost + (run legible s events).spoilt.toNat ≤
        s.lost + s.spoilt.toNat + spoils events := by
  induction events generalizing s with
  | nil => simp [run, sends, spoils]
  | cons e events ih =>
    obtain ⟨hsent, hlost⟩ := ih (step legible s e)
    obtain ⟨hsent₁, hlost₁⟩ := step_counts legible s e
    have hrun : run legible s (e :: events) = run legible (step legible s e) events := rfl
    have hsends : sends (e :: events) = sends [e] ++ sends events := List.filterMap_append (l := [e])
    have hspoils : spoils (e :: events) = spoils [e] + spoils events :=
      @List.countP_append _ _ [e] events
    rw [hrun, hsends, hspoils]
    exact ⟨by rw [hsent, hsent₁, List.append_assoc], by omega⟩

/-- In a channel that was idle at first. -/
theorem run_idle (legible : α → Bool) (events : List (Event α)) :
    ∃ past, sends events = past ++ (run legible idle events).queue ∧
      (run legible idle events).received.Sublist (past.filter legible) ∧
      (past.filter legible).length ≤ (run legible idle events).received.length + spoils events := by
  obtain ⟨past, hsent, hsub, hlen⟩ := run_sound (@sound_idle _ legible) events
  obtain ⟨hsends, hlost⟩ := run_counts legible idle events
  have hnone : (idle : State α).lost + (idle : State α).spoilt.toNat = 0 := rfl
  exact ⟨past, hsends.symm.trans hsent, hsub, by omega⟩

/-- Where every step of a system has a shadow on the channel, so has every run. -/
theorem run_refines {f : σ → ε → σ} {R : σ → State α → Prop} {Shadow : ε → List (Event α) → Prop}
    (next : ∀ l s e, R l s → ∃ events, Shadow e events ∧ R (f l e) (run legible s events))
    (es : List ε) {l : σ} {s : State α} (h : R l s) :
    ∃ shadows, List.Forall₂ Shadow es shadows ∧ R (es.foldl f l) (run legible s shadows.flatten) := by
  induction es generalizing l s with
  | nil => exact ⟨[], .nil, h⟩
  | cons e es ih =>
    obtain ⟨events, hshadow, hnext⟩ := next l s e h
    obtain ⟨shadows, hall, hrest⟩ := ih hnext
    refine ⟨events :: shadows, .cons hshadow hall, ?_⟩
    rw [List.flatten_cons, run, List.foldl_append]
    exact hrest

end Channel
