import Mathlib.Logic.Relation

/-!
# Loops that end

A loop runs its body until the body says what the result is.  The body may itself fail to
return, and so may the loop: a bound on the number of turns stands for the time it is
given, and a loop that is still running then has no result.  A measure that every turn
lowers shows that the loop returns; an invariant says with what.
-/

namespace SamuraiFormal.Library.Loops

variable {State Result : Type}

/-- One turn of a loop goes on with a new state or ends with a result. -/
abbrev Body (State Result : Type) : Type := State → Option (State ⊕ Result)

def loop (body : Body State Result) : Nat → State → Option Result
  | 0, _ => none
  | turns + 1, state =>
    match body state with
    | none => none
    | some (.inl next) => loop body turns next
    | some (.inr result) => some result

variable {body : Body State Result} {state next : State} {result : Result} {turns : Nat}

theorem loop_next (goes : body state = some (.inl next)) :
    loop body (turns + 1) state = loop body turns next := by
  rw [loop, goes]

theorem loop_ends (ends : body state = some (.inr result)) :
    loop body (turns + 1) state = some result := by
  rw [loop, ends]

/-- The states that the loop passes through. -/
def Reaches (body : Body State Result) : State → State → Prop :=
  Relation.ReflTransGen fun state next => body state = some (.inl next)

/-- A loop that gets to its last turn returns what that turn says, given any time in which
it returns at all. -/
theorem loop_of_reaches {last : State} {other : Result} (reaches : Reaches body state last)
    (ends : body last = some (.inr result)) (returns : loop body turns state = some other) :
    loop body turns state = some result := by
  induction reaches using Relation.ReflTransGen.head_induction_on generalizing turns with
  | refl =>
    cases turns with
    | zero => cases returns
    | succ turns => exact loop_ends ends
  | head goes _ ih =>
    cases turns with
    | zero => cases returns
    | succ turns =>
      rw [loop_next goes] at returns ⊢
      exact ih returns

/-- A result comes from the last turn, in a state that is reached. -/
theorem loop_last (returns : loop body turns state = some result) :
    ∃ last, Reaches body state last ∧ body last = some (.inr result) := by
  induction turns generalizing state with
  | zero => cases returns
  | succ turns ih =>
    rw [loop] at returns
    cases turn : body state with
    | none => simp [turn] at returns
    | some step =>
      cases step with
      | inl next =>
        simp only [turn] at returns
        obtain ⟨last, reaches, ends⟩ := ih returns
        exact ⟨last, Relation.ReflTransGen.head turn reaches, ends⟩
      | inr last =>
        simp only [turn, Option.some.injEq] at returns
        rw [returns] at turn
        exact ⟨state, .refl, turn⟩

/-- A loop whose turns keep an invariant and lower a measure returns in as many turns as
the measure counts, with a result that its last turn vouches for. -/
theorem loop_total (measure : State → Nat) (good : State → Prop) (post : Result → Prop)
    (turn : ∀ here, good here → ∃ step, body here = some step ∧
      step.elim (fun next => good next ∧ measure next < measure here) post)
    (first : good state) (time : measure state < turns) :
    ∃ result, loop body turns state = some result ∧ post result := by
  induction turns generalizing state with
  | zero => exact absurd time (Nat.not_lt_zero _)
  | succ turns ih =>
    obtain ⟨step, goes, kind⟩ := turn state first
    cases step with
    | inl next =>
      rw [loop_next goes]
      exact ih kind.1 (Nat.lt_of_lt_of_le kind.2 (Nat.le_of_lt_succ time))
    | inr last => exact ⟨last, loop_ends goes, kind⟩

section Image

variable {State' Result' : Type} {body' : Body State' Result'} {view : State → State'}
  {report : Result → Result'}

theorem loop_image (turn : ∀ state, body' (view state) = (body state).map (Sum.map view report))
    (turns : Nat) (state : State) :
    loop body' turns (view state) = (loop body turns state).map report := by
  induction turns generalizing state with
  | zero => rfl
  | succ turns ih =>
    rw [loop, loop, turn]
    cases body state with
    | none => rfl
    | some step =>
      cases step with
      | inl next => exact ih next
      | inr last => rfl

end Image

end SamuraiFormal.Library.Loops
