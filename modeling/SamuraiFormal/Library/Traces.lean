import Mathlib.Logic.Relation

/-!
# Runs that leave a trace

A machine answers a label with its next state and the acts of that step, or refuses
the label.  A run is a sequence of steps that meet a condition, with the acts of all
of them in order.  Properties of runs are stated act by act, each one against the trace
in front of it.
-/

namespace SamuraiFormal.Library.Traces

open List

variable {State Label Act : Type}

/-- The runs of a machine from a state, all of whose steps are allowed. -/
inductive Run (step : State → Label → Option (State × List Act))
    (allowed : State → Label → Prop) (origin : State) : State → List Act → Prop where
  | start : Run step allowed origin origin []
  | step {state next : State} {trace acts : List Act} (label : Label)
      (before : Run step allowed origin state trace) (fits : allowed state label)
      (moves : step state label = some (next, acts)) :
      Run step allowed origin next (trace ++ acts)

variable {step : State → Label → Option (State × List Act)} {allowed : State → Label → Prop}
  {origin state : State} {trace : List Act}

/-- What holds at the start and is kept by every allowed step holds along every run. -/
theorem Run.invariant (holds : State → List Act → Prop) (base : holds origin [])
    (keeps : ∀ {state next trace acts} (label : Label), holds state trace →
      allowed state label → step state label = some (next, acts) → holds next (trace ++ acts))
    (run : Run step allowed origin state trace) : holds state trace := by
  induction run with
  | start => exact base
  | step label _ fits moves ih => exact keeps label ih fits moves

theorem Run.mono {wider : State → Label → Prop}
    (widens : ∀ state label, allowed state label → wider state label)
    (run : Run step allowed origin state trace) : Run step wider origin state trace := by
  induction run with
  | start => exact .start
  | step label _ fits moves ih => exact .step label ih (widens _ label fits) moves

/-- Play a list of labels. -/
def play (step : State → Label → Option (State × List Act)) :
    State → List Label → Option (State × List Act)
  | state, [] => some (state, [])
  | state, label :: labels =>
    match step state label with
    | none => none
    | some (next, acts) =>
      match play step next labels with
      | none => none
      | some (last, more) => some (last, acts ++ more)

theorem Run.trans {middle : State} {front back : List Act}
    (first : Run step allowed origin middle front) (second : Run step allowed middle state back) :
    Run step allowed origin state (front ++ back) := by
  induction second with
  | start => rwa [append_nil]
  | step label _ fits moves ih =>
    rw [← append_assoc]
    exact .step label ih fits moves

/-- The machine that refuses what is not allowed. -/
def restrict (step : State → Label → Option (State × List Act)) (allowed : State → Label → Prop)
    [∀ state label, Decidable (allowed state label)] (state : State) (label : Label) :
    Option (State × List Act) :=
  if allowed state label then step state label else none

theorem restrict_inv [∀ state label, Decidable (allowed state label)] {label : Label}
    {result : State × List Act} (moves : restrict step allowed state label = some result) :
    allowed state label ∧ step state label = some result := by
  rw [restrict] at moves
  split at moves
  · exact ⟨‹_›, moves⟩
  · cases moves

theorem play_cons_inv {last : State} {label : Label} {labels : List Label}
    (played : play step origin (label :: labels) = some (last, trace)) :
    ∃ next acts more, step origin label = some (next, acts) ∧
      play step next labels = some (last, more) ∧ trace = acts ++ more := by
  rw [play] at played
  cases moves : step origin label with
  | none => simp [moves] at played
  | some result =>
    obtain ⟨next, acts⟩ := result
    cases later : play step next labels with
    | none => simp [moves, later] at played
    | some rest =>
      obtain ⟨end', more⟩ := rest
      simp only [moves, later] at played
      obtain ⟨rfl, rfl⟩ := played
      exact ⟨next, acts, more, rfl, later, rfl⟩

/-- What the restricted machine plays is a run. -/
theorem run_of_play [∀ state label, Decidable (allowed state label)] (labels : List Label)
    {last : State} (played : play (restrict step allowed) origin labels = some (last, trace)) :
    Run step allowed origin last trace := by
  induction labels generalizing origin trace with
  | nil =>
    cases played
    exact .start
  | cons label labels ih =>
    obtain ⟨next, acts, more, moved, later, rfl⟩ := play_cons_inv played
    obtain ⟨fits, moves⟩ := restrict_inv moved
    exact Run.trans (.step label .start fits moves) (ih later)

/-- Every act is good after the acts in front of it. -/
def Always (good : List Act → Act → Prop) (trace : List Act) : Prop :=
  ∀ front act back, trace = front ++ act :: back → good front act

theorem always_nil (good : List Act → Act → Prop) : Always good [] := by
  intro front act back empty
  simp at empty

variable {good : List Act → Act → Prop}

theorem always_snoc {act : Act} :
    Always good (trace ++ [act]) ↔ Always good trace ∧ good trace act := by
  constructor
  · intro always
    refine ⟨?_, always trace act [] rfl⟩
    intro front earlier back split
    exact always front earlier (back ++ [act]) (by rw [split]; simp)
  · rintro ⟨always, last⟩ front earlier back split
    rcases eq_nil_or_concat back with rfl | ⟨body, final, rfl⟩
    · obtain ⟨rfl, same⟩ := append_inj' split rfl
      cases same
      exact last
    rw [concat_eq_append, ← cons_append, ← append_assoc] at split
    obtain ⟨rfl, same⟩ := append_inj' split rfl
    exact always front earlier body rfl

theorem Always.of_mem {act : Act} (always : Always good trace) (member : act ∈ trace) :
    ∃ front, front ⊆ trace ∧ good front act := by
  obtain ⟨front, back, split⟩ := append_of_mem member
  exact ⟨front, split ▸ subset_append_left _ _, always front act back split⟩

/-- More acts, each of them good wherever it comes after the trace. -/
theorem Always.append {acts : List Act} (always : Always good trace)
    (each : ∀ front act back, acts = front ++ act :: back → good (trace ++ front) act) :
    Always good (trace ++ acts) := by
  induction acts generalizing trace with
  | nil => rwa [append_nil]
  | cons act acts ih =>
    rw [append_cons]
    have first : good trace act := by
      have found := each [] act acts rfl
      rwa [append_nil] at found
    refine ih (always_snoc.mpr ⟨always, first⟩) ?_
    intro front later back split
    have found := each (act :: front) later back (by rw [split]; rfl)
    rwa [append_assoc]

end SamuraiFormal.Library.Traces
