import Mathlib.Algebra.Order.Group.Nat
import SamuraiFormal.Library.Traces

/-!
# Fair infinite runs

A behaviour is an infinite run.  Its labels belong to threads, and it is fair when no
thread can move from some moment on without ever moving.  What a fair behaviour reaches
is proved with one rule: a condition stays until the goal is met, enables a thread, and
that thread's move meets the goal.
-/

namespace SamuraiFormal.Library.Fairness

open Library.Traces

variable {State Label Act Thread : Type}

/-- The infinite runs of a machine from a state, all of whose steps are allowed. -/
structure Behaviour (step : State → Label → Option (State × List Act))
    (allowed : State → Label → Prop) (origin : State) where
  state : Nat → State
  label : Nat → Label
  acts : Nat → List Act
  starts : state 0 = origin
  fits : ∀ n, allowed (state n) (label n)
  moves : ∀ n, step (state n) (label n) = some (state (n + 1), acts n)

variable {n : Nat} {goal held : State → Prop} {owner : Label → Option Thread}

namespace Behaviour

variable {step : State → Label → Option (State × List Act)}
  {allowed : State → Label → Prop} {origin : State}

/-- The acts of the first steps. -/
def trace (behaviour : Behaviour step allowed origin) (n : Nat) : List Act :=
  (List.range n).flatMap behaviour.acts

theorem trace_succ (behaviour : Behaviour step allowed origin) (n : Nat) :
    behaviour.trace (n + 1) = behaviour.trace n ++ behaviour.acts n := by
  rw [trace, List.range_succ, List.flatMap_append, List.flatMap_singleton, trace]

/-- Every state of a behaviour is reached by a run. -/
theorem run_trace (behaviour : Behaviour step allowed origin) (n : Nat) :
    Run step allowed origin (behaviour.state n) (behaviour.trace n) := by
  induction n with
  | zero =>
    rw [behaviour.starts]
    exact .start
  | succ n ih =>
    rw [trace_succ]
    exact .step (behaviour.label n) ih (behaviour.fits n) (behaviour.moves n)

theorem run (behaviour : Behaviour step allowed origin) (n : Nat) :
    ∃ trace, Run step allowed origin (behaviour.state n) trace :=
  ⟨_, behaviour.run_trace n⟩

/-- A thread can move. -/
def Enabled (step : State → Label → Option (State × List Act)) (owner : Label → Option Thread)
    (thread : Thread) (state : State) : Prop :=
  ∃ label, owner label = some thread ∧ (step state label).isSome

/-- No thread can move from some moment on without ever moving. -/
def Fair (behaviour : Behaviour step allowed origin) (owner : Label → Option Thread) : Prop :=
  ∀ thread n, (∀ m, n ≤ m → Enabled step owner thread (behaviour.state m)) →
    ∃ m, n ≤ m ∧ owner (behaviour.label m) = some thread

/-- The goal is met at some moment from this one on. -/
def Eventually (behaviour : Behaviour step allowed origin) (n : Nat) (goal : State → Prop) : Prop :=
  ∃ m, n ≤ m ∧ goal (behaviour.state m)

variable {behaviour : Behaviour step allowed origin}

theorem Eventually.now (met : goal (behaviour.state n)) : behaviour.Eventually n goal :=
  ⟨n, Nat.le_refl n, met⟩

theorem Eventually.trans {middle : State → Prop} (first : behaviour.Eventually n middle)
    (second : ∀ m, middle (behaviour.state m) → behaviour.Eventually m goal) :
    behaviour.Eventually n goal := by
  obtain ⟨m, after, met⟩ := first
  obtain ⟨k, later, reached⟩ := second m met
  exact ⟨k, Nat.le_trans after later, reached⟩

/-- A condition that stays until a goal that is never met stays for ever. -/
theorem stays_of_never
    (keeps : ∀ m, held (behaviour.state m) →
      held (behaviour.state (m + 1)) ∨ goal (behaviour.state (m + 1)))
    (now : held (behaviour.state n)) (never : ¬ behaviour.Eventually n goal) :
    ∀ m, n ≤ m → held (behaviour.state m) := by
  intro m after
  induction m, after using Nat.le_induction with
  | base => exact now
  | succ m after ih =>
    rcases keeps m ih with holds | met
    · exact holds
    · exact absurd ⟨m + 1, Nat.le_succ_of_le after, met⟩ never

/-- A condition that stays until the goal is met, and under which some thread can move and
meets the goal by moving, leads to the goal. -/
theorem eventually_of_fair (held : State → Prop) (fair : behaviour.Fair owner) (thread : Thread)
    (enabled : ∀ m, held (behaviour.state m) → Enabled step owner thread (behaviour.state m))
    (keeps : ∀ m, held (behaviour.state m) →
      held (behaviour.state (m + 1)) ∨ goal (behaviour.state (m + 1)))
    (meets : ∀ m, held (behaviour.state m) → owner (behaviour.label m) = some thread →
      goal (behaviour.state (m + 1))) (now : held (behaviour.state n)) :
    behaviour.Eventually n goal := by
  by_contra never
  have stays := stays_of_never keeps now never
  obtain ⟨m, after, moved⟩ := fair thread n fun m after => enabled m (stays m after)
  exact never ⟨m + 1, Nat.le_succ_of_le after, meets m (stays m after) moved⟩

/-- A thread that can move again and again moves. -/
def StronglyFair (behaviour : Behaviour step allowed origin) (owner : Label → Option Thread)
    (thread : Thread) : Prop :=
  ∀ n, (∀ k, n ≤ k → behaviour.Eventually k (Enabled step owner thread)) →
    ∃ m, n ≤ m ∧ owner (behaviour.label m) = some thread

/-- As for a fair thread, but it is enough that the thread can move again and again while
the condition holds. -/
theorem eventually_of_stronglyFair (held : State → Prop) {thread : Thread}
    (fair : behaviour.StronglyFair owner thread)
    (enabled : ∀ m, (∀ k, m ≤ k → held (behaviour.state k)) →
      behaviour.Eventually m (Enabled step owner thread))
    (keeps : ∀ m, held (behaviour.state m) →
      held (behaviour.state (m + 1)) ∨ goal (behaviour.state (m + 1)))
    (meets : ∀ m, held (behaviour.state m) → owner (behaviour.label m) = some thread →
      goal (behaviour.state (m + 1))) (now : held (behaviour.state n)) :
    behaviour.Eventually n goal := by
  by_contra never
  have stays := stays_of_never keeps now never
  obtain ⟨m, after, moved⟩ := fair n fun k later =>
    enabled k fun i after => stays i (Nat.le_trans later after)
  exact never ⟨m + 1, Nat.le_succ_of_le after, meets m (stays m after) moved⟩

/-- A condition that always leads to the goal or to itself at a lower rank leads to the
goal. -/
theorem eventually_of_rank (held : State → Prop) (rank : State → Nat)
    (lowers : ∀ m, held (behaviour.state m) → behaviour.Eventually m fun state =>
      goal state ∨ held state ∧ rank state < rank (behaviour.state m))
    (now : held (behaviour.state n)) : behaviour.Eventually n goal := by
  generalize height : rank (behaviour.state n) = r
  induction r using Nat.strong_induction_on generalizing n with
  | _ r ih =>
    refine (lowers n now).trans ?_
    rintro m (met | ⟨holds, lower⟩)
    · exact .now met
    · exact ih _ (height ▸ lower) holds rfl

/-- Every step meets the goal, lowers the rank, or leaves it to the same helper, who can
move and has not moved. -/
theorem eventually_of_helpful (held : State → Prop) (fair : behaviour.Fair owner)
    (rank : State → Nat) (helper : State → Thread)
    (enabled : ∀ m, held (behaviour.state m) →
      Enabled step owner (helper (behaviour.state m)) (behaviour.state m))
    (progress : ∀ m, held (behaviour.state m) → goal (behaviour.state (m + 1)) ∨
      held (behaviour.state (m + 1)) ∧
        (rank (behaviour.state (m + 1)) < rank (behaviour.state m) ∨
          rank (behaviour.state (m + 1)) = rank (behaviour.state m) ∧
            helper (behaviour.state (m + 1)) = helper (behaviour.state m) ∧
            owner (behaviour.label m) ≠ some (helper (behaviour.state m))))
    (now : held (behaviour.state n)) : behaviour.Eventually n goal := by
  refine eventually_of_rank held rank ?_ now
  intro m holds
  generalize height : rank (behaviour.state m) = r
  generalize who : helper (behaviour.state m) = thread
  refine eventually_of_fair (fun state => held state ∧ rank state = r ∧ helper state = thread)
    fair thread ?_ ?_ ?_ ⟨holds, height, who⟩
  · rintro k ⟨holds, -, rfl⟩
    exact enabled k holds
  · rintro k ⟨holds, rfl, rfl⟩
    rcases progress k holds with met | ⟨later, lower | ⟨same, helps, -⟩⟩
    · exact .inr (.inl met)
    · exact .inr (.inr ⟨later, lower⟩)
    · exact .inl ⟨later, same, helps⟩
  · rintro k ⟨holds, rfl, rfl⟩ moved
    rcases progress k holds with met | ⟨later, lower | ⟨-, -, other⟩⟩
    · exact .inl met
    · exact .inr ⟨later, lower⟩
    · exact absurd moved other

/-- A step in front of a behaviour. -/
def cons {next : State} {acts : List Act} (label : Label) (fits : allowed origin label)
    (moves : step origin label = some (next, acts)) (rest : Behaviour step allowed next) :
    Behaviour step allowed origin where
  state
    | 0 => origin
    | n + 1 => rest.state n
  label
    | 0 => label
    | n + 1 => rest.label n
  acts
    | 0 => acts
    | n + 1 => rest.acts n
  starts := rfl
  fits
    | 0 => fits
    | n + 1 => rest.fits n
  moves
    | 0 => moves.trans (congrArg (fun state => some (state, acts)) rest.starts.symm)
    | n + 1 => rest.moves n

theorem Fair.cons {next : State} {acts : List Act} {label : Label} {fits : allowed origin label}
    {moves : step origin label = some (next, acts)} {rest : Behaviour step allowed next}
    (fair : rest.Fair owner) : (Behaviour.cons label fits moves rest).Fair owner := by
  intro thread n enabled
  obtain ⟨m, after, moved⟩ := fair thread n fun m after => enabled (m + 1) (Nat.le_succ_of_le after)
  exact ⟨m + 1, Nat.le_succ_of_le after, moved⟩

/-- One step that changes nothing, for ever. -/
def rest (label : Label) (fits : allowed origin label)
    (moves : step origin label = some (origin, [])) : Behaviour step allowed origin where
  state _ := origin
  label _ := label
  acts _ := []
  starts := rfl
  fits _ := fits
  moves _ := moves

theorem StronglyFair.cons {next : State} {acts : List Act} {label : Label}
    {fits : allowed origin label} {moves : step origin label = some (next, acts)}
    {rest : Behaviour step allowed next} {thread : Thread} (fair : rest.StronglyFair owner thread) :
    (Behaviour.cons label fits moves rest).StronglyFair owner thread := by
  intro n enabled
  obtain ⟨m, after, moved⟩ := fair n fun k later => by
    obtain ⟨i, past, able⟩ := enabled (k + 1) (Nat.le_succ_of_le later)
    obtain ⟨j, rfl⟩ : ∃ j, i = j + 1 := ⟨i - 1, by omega⟩
    exact ⟨j, Nat.le_of_succ_le_succ past, able⟩
  exact ⟨m + 1, Nat.le_succ_of_le after, moved⟩

/-- A run after which no thread can move goes on as a fair behaviour. -/
theorem exists_fair_of_play [∀ state label, Decidable (allowed state label)]
    {drainer : Label → Option Thread} (labels : List Label) {last : State} {trace : List Act}
    (played : play (restrict step allowed) origin labels = some (last, trace)) (idle : Label)
    (fits : allowed last idle) (still : step last idle = some (last, []))
    (stuck : ∀ thread, ¬ Enabled step owner thread last)
    (drained : ∀ thread, ¬ Enabled step drainer thread last) :
    ∃ behaviour : Behaviour step allowed origin, behaviour.Fair owner ∧
      ∀ thread, behaviour.StronglyFair drainer thread := by
  induction labels generalizing origin trace with
  | nil =>
    cases played
    refine ⟨rest idle fits still, ?_, ?_⟩
    · intro thread n enabled
      exact absurd (enabled n (Nat.le_refl n)) (stuck thread)
    · intro thread n enabled
      obtain ⟨_, _, able⟩ := enabled n (Nat.le_refl n)
      exact absurd able (drained thread)
  | cons label labels ih =>
    obtain ⟨next, acts, more, moved, later, rfl⟩ := play_cons_inv played
    obtain ⟨first, moves⟩ := restrict_inv moved
    obtain ⟨behaviour, fair, strong⟩ := ih later
    exact ⟨.cons label first moves behaviour, fair.cons, fun thread => (strong thread).cons⟩

end Behaviour

end SamuraiFormal.Library.Fairness
