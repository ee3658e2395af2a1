import Mathlib.Data.List.Basic

/-!
# Resumable consumers

A consumer is run on a state and the input offered so far; it ends in an outcome,
which carries a new state and the input it leaves.  More input is offered by
appending it to what was left.  The one law of a resumable consumer is that
running on `front ++ back` agrees with running on `front` and resuming with
`back`; feeding any pieces then agrees with offering them all at once.

The second section derives the law for a consumer that repeats single passes
until one of them ends it.
-/

namespace SamuraiFormal.Library.Resumable

open List

variable {σ α ω : Type}

structure Consumer (σ α ω : Type) where
  run : σ → List α → ω
  state : ω → σ
  rest : ω → List α

namespace Consumer

def resume (consumer : Consumer σ α ω) (outcome : ω) (piece : List α) : ω :=
  consumer.run (consumer.state outcome) (consumer.rest outcome ++ piece)

def feed (consumer : Consumer σ α ω) (outcome : ω) (pieces : List (List α)) : ω :=
  pieces.foldl consumer.resume outcome

/-- The law, on the states and inputs that `fits` admits and up to `agree`. -/
structure IsResumable (consumer : Consumer σ α ω) (fits : σ → List α → Prop)
    (agree : ω → ω → Prop) : Prop where
  refl : ∀ outcome, agree outcome outcome
  trans : ∀ {first second third}, agree first second → agree second third → agree first third
  keeps : ∀ {state front back}, fits state (front ++ back) →
    fits (consumer.state (consumer.run state front))
      (consumer.rest (consumer.run state front) ++ back)
  resumes : ∀ {state front back}, fits state (front ++ back) →
    agree (consumer.run state (front ++ back)) (consumer.resume (consumer.run state front) back)

/-- Any way of cutting the input agrees with offering it whole. -/
theorem IsResumable.feed_pieces {consumer : Consumer σ α ω} {fits : σ → List α → Prop}
    {agree : ω → ω → Prop} (law : consumer.IsResumable fits agree) (pieces : List (List α))
    {state : σ} {front : List α} (fitting : fits state (front ++ pieces.flatten)) :
    agree (consumer.run state (front ++ pieces.flatten))
      (consumer.feed (consumer.run state front) pieces) := by
  induction pieces generalizing state front with
  | nil =>
    rw [flatten_nil, append_nil]
    exact law.refl _
  | cons piece pieces ih =>
    have later := law.keeps fitting
    rw [flatten_cons, ← append_assoc] at later
    have resumed := law.resumes fitting
    rw [resume, flatten_cons, ← append_assoc (consumer.rest _)] at resumed
    exact law.trans resumed (ih later)

end Consumer

/-- A loop over `pass`: an outcome that `ends` it is returned, any other is continued
from with a smaller measure. -/
structure IsLoop (consumer : Consumer σ α ω) (pass : σ → List α → ω)
    (ends : σ → List α → ω → Prop) (measure : σ → List α → Nat) : Prop where
  last : ∀ {state input}, ends state input (pass state input) →
    consumer.run state input = pass state input
  again : ∀ {state input}, ¬ ends state input (pass state input) →
    consumer.run state input =
      consumer.run (consumer.state (pass state input)) (consumer.rest (pass state input)) ∧
    measure (consumer.state (pass state input)) (consumer.rest (pass state input)) <
      measure state input

/-- If every single pass may be resumed then so may the whole loop. -/
theorem IsLoop.isResumable {consumer : Consumer σ α ω} {pass : σ → List α → ω}
    {ends : σ → List α → ω → Prop} {measure : σ → List α → Nat}
    (loop : IsLoop consumer pass ends measure) {fits : σ → List α → Prop}
    {agree : ω → ω → Prop} (refl : ∀ outcome, agree outcome outcome)
    (trans : ∀ {first second third}, agree first second → agree second third →
      agree first third)
    (keeps : ∀ {state front back}, fits state (front ++ back) →
      fits (consumer.state (pass state front)) (consumer.rest (pass state front) ++ back))
    (resumes : ∀ {state front back}, fits state (front ++ back) →
      agree (consumer.run state (front ++ back)) (consumer.resume (pass state front) back)) :
    consumer.IsResumable fits agree := by
  have both (bound : Nat) : ∀ {state front back}, measure state front < bound →
      fits state (front ++ back) →
      fits (consumer.state (consumer.run state front))
        (consumer.rest (consumer.run state front) ++ back) ∧
      agree (consumer.run state (front ++ back))
        (consumer.resume (consumer.run state front) back) := by
    induction bound with
    | zero => exact fun small => absurd small (Nat.not_lt_zero _)
    | succ bound ih =>
      intro state front back small fitting
      by_cases last : ends state front (pass state front)
      · rw [loop.last last]
        exact ⟨keeps fitting, resumes fitting⟩
      obtain ⟨continued, smaller⟩ := loop.again last
      rw [continued]
      obtain ⟨kept, agreed⟩ := ih (Nat.lt_of_lt_of_le smaller (Nat.le_of_lt_succ small))
        (keeps fitting)
      exact ⟨kept, trans (resumes fitting) agreed⟩
  exact {
    refl := refl
    trans := trans
    keeps := fun fitting => (both _ (Nat.lt_succ_self _) fitting).1
    resumes := fun fitting => (both _ (Nat.lt_succ_self _) fitting).2 }

end SamuraiFormal.Library.Resumable
