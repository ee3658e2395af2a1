import SamuraiFormal.Timers.Turns

/-!
# What a pass fires

The deadlines are read off the trace alone: which timers exist, which of them have been
reset, and which single-shot ones have fired.  Against them, every pass fires the timers that
are due when it starts, unless a callback takes them out before their turn.
-/

namespace SamuraiFormal.Timers

open Library.Traces
open List

/-- The deadlines of the live timers, by serial number. -/
abbrev Plan : Type := Nat → Option Nat

def Plan.after (plan : Plan) : Act → Plan
  | .constructed serial due => Function.update plan serial (some due)
  | .destroyed serial => Function.update plan serial none
  -- a single-shot timer that has fired is not brought back
  | .reset serial due => Function.update plan serial ((plan serial).map fun _ => due)
  | .fires now _ timer => Function.update plan timer.serial (timer.again now)
  | .begins _ | .skips _ | .ends _ => plan

def planOf (trace : List Act) : Plan := trace.foldl Plan.after fun _ => none

theorem planOf_snoc (trace : List Act) (act : Act) :
    planOf (trace ++ [act]) = (planOf trace).after act := by
  rw [planOf, foldl_append]
  rfl

def Act.IsBegins : Act → Prop
  | .begins _ => True
  | _ => False

/-- A callback takes the timer out of the pass. -/
def Act.Stops (serial : Nat) : Act → Prop
  | .destroyed other => other = serial
  | .reset other _ => other = serial
  | _ => False

def Act.Fires (serial : Nat) : Act → Prop
  | .fires _ _ timer => timer.serial = serial
  | _ => False

/-- The trace ends with the acts of a pass. -/
structure PassOf (trace before : List Act) (now : Nat) (acts : List Act) : Prop where
  split : trace = before ++ .begins now :: acts
  one : ∀ act ∈ acts, ¬act.IsBegins

/-- A timer fires from the entry of its own deadline, which was due when the pass began; it has
not been fired in the pass nor been taken out of it, and no later deadline has come first. -/
structure FiresRightly (trace : List Act) (now : Nat) (e : Entry) (timer : Timer)
    (before acts : List Act) : Prop where
  pass : PassOf trace before now acts
  serial : e.serial = timer.serial
  due : e.due = timer.due
  live : planOf trace timer.serial = some e.due
  atStart : planOf before timer.serial = some e.due
  early : e.due ≤ now
  kept : ∀ act ∈ acts, ¬act.Stops timer.serial
  once : ∀ act ∈ acts, ¬act.Fires timer.serial
  order : ∀ now' e' timer', .fires now' e' timer' ∈ acts → e'.due ≤ e.due

/-- Every timer that was due has fired or was taken out. -/
structure EndsRightly (trace : List Act) (now : Nat) (before acts : List Act) : Prop where
  pass : PassOf trace before now acts
  complete : ∀ serial due, planOf before serial = some due → due ≤ now →
    ∃ act ∈ acts, act.Stops serial ∨ act.Fires serial

def Right (trace : List Act) : Act → Prop
  -- no two timers share a serial number
  | .constructed serial _ => ∀ due, .constructed serial due ∉ trace
  | .fires now e timer => ∃ before acts, FiresRightly trace now e timer before acts
  | .ends now => ∃ before acts, EndsRightly trace now before acts
  | _ => True

/-- The acts of the running pass, against the plan it began with. -/
structure Passing (world : World) (trace : List Act) (now : Nat) (before acts : List Act) :
    Prop where
  pass : PassOf trace before now acts
  numbered : ∀ serial due, planOf before serial = some due → serial ≤ world.counter
  remaining : ∀ serial due, due ≤ now → (planOf trace serial = some due ↔
    planOf before serial = some due ∧ ∀ act ∈ acts, ¬(act.Stops serial ∨ act.Fires serial))
  order : ∀ now' e timer, .fires now' e timer ∈ acts →
    e.due ≤ now ∧ ∀ other ∈ world.manager.heap, e.due ≤ other.due

structure Kept (world : World) (trace : List Act) : Prop where
  sound : Sound Positive world
  plan : ∀ serial due, planOf trace serial = some due ↔ Alive world serial due
  numbered : ∀ serial due, .constructed serial due ∈ trace → serial ≤ world.counter
  passing : ∀ now, world.phase.pass = some now → ∃ before acts, Passing world trace now before acts
  right : Always Right trace

variable {world next : World} {trace : List Act}

variable {acts : List Act} {now floor serial address : Nat} {act : Act} {deadline : Option Nat}

theorem PassOf.snoc {before : List Act} (pass : PassOf trace before now acts)
    (inner : ¬act.IsBegins) : PassOf (trace ++ [act]) before now (acts ++ [act]) where
  split := by
    rw [pass.split, append_assoc, cons_append]
  one := by
    intro other among
    rcases mem_append.mp among with there | last
    · exact pass.one other there
    · rw [mem_singleton.mp last]
      exact inner

/-- The plan moves as the deadlines do. -/
theorem plan_effect (plan : ∀ serial due, planOf trace serial = some due ↔ Alive world serial due)
    (effect : Effect Positive world next floor serial deadline)
    (moved : (planOf trace).after act = Function.update (planOf trace) serial deadline)
    (other due : Nat) : planOf (trace ++ [act]) other = some due ↔ Alive next other due := by
  rw [planOf_snoc, moved]
  by_cases same : other = serial
  · subst same
    rw [Function.update_self, effect.self]
  · rw [Function.update_of_ne same, plan, effect.other other due same]

/-- A pass goes on through an act that gives one timer a later deadline or none. -/
theorem passing_effect {before : List Act} (passing : Passing world trace now before acts)
    (ahead : now < floor) (effect : Effect Positive world next floor serial deadline)
    (moved : (planOf trace).after act = Function.update (planOf trace) serial deadline)
    (inner : ¬act.IsBegins)
    (touches : act.Stops serial ∨ act.Fires serial ∨ world.counter < serial)
    (only : ∀ other, act.Stops other ∨ act.Fires other → other = serial)
    (fired : ∀ now' e timer, act = .fires now' e timer →
      e.due ≤ now ∧ ∀ other ∈ world.manager.heap, e.due ≤ other.due) :
    Passing next (trace ++ [act]) now before (acts ++ [act]) where
  pass := passing.pass.snoc inner
  numbered := fun other due held => Nat.le_trans (passing.numbered other due held) effect.counter
  remaining := by
    intro other due early
    rw [planOf_snoc, moved]
    by_cases same : other = serial
    · subst same
      rw [Function.update_self]
      constructor
      · intro held
        have later := effect.later due held
        omega
      · rintro ⟨held, untouched⟩
        have clear := untouched act (mem_append_right _ (mem_singleton_self _))
        have old := passing.numbered other due held
        rcases touches with stops | fires | fresh
        · exact absurd (.inl stops) clear
        · exact absurd (.inr fires) clear
        · omega
    · rw [Function.update_of_ne same, passing.remaining other due early]
      constructor
      · rintro ⟨held, untouched⟩
        refine ⟨held, ?_⟩
        intro act' among
        rcases mem_append.mp among with there | last
        · exact untouched act' there
        · rw [mem_singleton.mp last]
          exact fun touched => same (only other touched)
      · rintro ⟨held, untouched⟩
        exact ⟨held, fun act' among => untouched act' (mem_append_left _ among)⟩
  order := by
    have below : ∀ e : Entry, e.due ≤ now → (∀ other ∈ world.manager.heap, e.due ≤ other.due) →
        ∀ other ∈ next.manager.heap, e.due ≤ other.due := by
      intro e early least other among
      rcases effect.heap other among with there | later
      · exact least other there
      · omega
    intro now' e timer among
    rcases mem_append.mp among with there | last
    · obtain ⟨early, least⟩ := passing.order now' e timer there
      exact ⟨early, below e early least⟩
    · obtain ⟨early, least⟩ := fired now' e timer (mem_singleton.mp last).symm
      exact ⟨early, below e early least⟩

/-! ## Every step keeps it -/

section

variable (kept : Kept world trace)
include kept

theorem Kept.effect (effect : Effect Positive world next floor serial deadline)
    (ahead : ∀ now, world.phase.pass = some now → now < floor)
    (moved : (planOf trace).after act = Function.update (planOf trace) serial deadline)
    (inner : ¬act.IsBegins)
    (touches : act.Stops serial ∨ act.Fires serial ∨ world.counter < serial)
    (only : ∀ other, act.Stops other ∨ act.Fires other → other = serial)
    (fired : ∀ now' e timer, act = .fires now' e timer → ∀ now, world.phase.pass = some now →
      e.due ≤ now ∧ ∀ other ∈ world.manager.heap, e.due ≤ other.due)
    (numbered : ∀ number due, act = .constructed number due → number ≤ next.counter)
    (right : Right trace act) : Kept next (trace ++ [act]) where
  sound := effect.sound
  plan := plan_effect kept.plan effect moved
  numbered := by
    intro number due among
    rcases mem_append.mp among with there | last
    · exact Nat.le_trans (kept.numbered number due there) effect.counter
    · exact numbered number due (mem_singleton.mp last).symm
  passing := by
    intro now pass
    rw [effect.pass] at pass
    obtain ⟨before, acts, passing⟩ := kept.passing now pass
    exact ⟨before, acts ++ [act], passing_effect passing (ahead now pass) effect moved inner touches
      only fun now' e timer same => fired now' e timer same now pass⟩
  right := always_snoc.mpr ⟨kept.right, right⟩

/-- Nothing happens to a timer. -/
theorem Kept.quiet (sound : Sound Positive next) (same : next.memory = world.memory)
    (live : next.manager.live = world.manager.live)
    (heap : ∀ e ∈ next.manager.heap, e ∈ world.manager.heap)
    (counter : next.counter = world.counter)
    (phase : ∀ now, next.phase.pass = some now → world.phase.pass = some now) (acts : List Act)
    (idle : ∀ act ∈ acts, (∃ e, act = .skips e) ∨ ∃ now, act = .ends now)
    (right : Always Right (trace ++ acts)) : Kept next (trace ++ acts) := by
  have plan : planOf (trace ++ acts) = planOf trace := by
    clear right
    induction acts using List.reverseRecOn with
    | nil => rw [append_nil]
    | append_singleton acts act ih =>
      have earlier := ih fun other among => idle other (mem_append_left _ among)
      rw [← append_assoc, planOf_snoc, earlier]
      rcases idle act (mem_append_right _ (mem_singleton_self _)) with ⟨e, rfl⟩ | ⟨now, rfl⟩
      · rfl
      · rfl
  have alive : ∀ serial due, Alive next serial due ↔ Alive world serial due := by
    intro serial due
    rw [Alive, Alive, same, live]
  refine ⟨sound, ?_, ?_, ?_, right⟩
  · intro serial due
    rw [plan, alive, kept.plan]
  · intro number due among
    rw [counter]
    rcases mem_append.mp among with there | last
    · exact kept.numbered number due there
    · rcases idle _ last with ⟨e, ⟨⟩⟩ | ⟨now, ⟨⟩⟩
  · intro now pass
    obtain ⟨before, inner, passing⟩ := kept.passing now (phase now pass)
    refine ⟨before, inner ++ acts, ?_⟩
    refine ⟨⟨?_, ?_⟩, ?_, ?_, ?_⟩
    · rw [passing.pass.split, append_assoc, cons_append]
    · intro act among
      rcases mem_append.mp among with there | last
      · exact passing.pass.one act there
      · rcases idle act last with ⟨e, rfl⟩ | ⟨now, rfl⟩ <;> exact id
    · rw [counter]
      exact passing.numbered
    · intro serial due early
      rw [plan, passing.remaining serial due early]
      constructor
      · rintro ⟨held, untouched⟩
        refine ⟨held, ?_⟩
        intro act among
        rcases mem_append.mp among with there | last
        · exact untouched act there
        · rcases idle act last with ⟨e, rfl⟩ | ⟨now, rfl⟩ <;>
            exact fun touched => touched.elim id id
      · rintro ⟨held, untouched⟩
        exact ⟨held, fun act among => untouched act (mem_append_left _ among)⟩
    · intro now' e timer among
      rcases mem_append.mp among with there | last
      · obtain ⟨early, least⟩ := passing.order now' e timer there
        exact ⟨early, fun other among => least other (heap other among)⟩
      · rcases idle _ last with ⟨e, ⟨⟩⟩ | ⟨now, ⟨⟩⟩

theorem Kept.constructed {timeout : Nat} (callback : Option Nat) (singleShot : Bool)
    (free : world.memory address = none) (positive : 0 < timeout) :
    Kept (world.construct address callback timeout singleShot).1
      (trace ++ [.constructed (world.counter + 1) (world.clock + milliseconds timeout)]) := by
  apply kept.effect (construct_effect kept.sound free callback singleShot positive)
  · intro now pass
    exact Nat.lt_of_le_of_lt (kept.sound.started now pass) (lt_add_milliseconds _ positive)
  · rfl
  · exact id
  · exact .inr (.inr (Nat.lt_succ_self _))
  · rintro other (stops | fires)
    · exact stops.elim
    · exact fires.elim
  · nofun
  · rintro number due ⟨⟩
    exact Nat.le_refl _
  · intro due there
    have old := kept.numbered _ due there
    omega

theorem Kept.destroyed {timer : Timer} (held : world.memory address = some timer) :
    Kept (world.destroy address timer).1 (trace ++ [.destroyed timer.serial]) := by
  apply kept.effect (destroy_effect kept.sound held (world.clock + 1))
  · intro now pass
    exact Nat.lt_succ_of_le (kept.sound.started now pass)
  · rfl
  · exact id
  · exact .inl rfl
  · rintro other (same | fires)
    · exact Eq.symm same
    · exact fires.elim
  · nofun
  · nofun
  · trivial

theorem Kept.reset {timer : Timer} (held : world.memory address = some timer) :
    Kept (world.reset address timer).1
      (trace ++ [.reset timer.serial (world.clock + milliseconds timer.interval)]) := by
  apply kept.effect (reset_effect kept.sound held)
  · intro now pass
    exact Nat.lt_of_le_of_lt (kept.sound.started now pass)
      (lt_add_milliseconds _ (kept.sound.timers address timer held).admitted)
  · rw [Plan.after]
    by_cases live : address ∈ world.manager.live
    · rw [if_pos live, (kept.plan _ _).mpr ((kept.sound.live_iff held).mp live)]
      rfl
    rw [if_neg live]
    cases planned : planOf trace timer.serial with
    | none => rfl
    | some due =>
      have alive := (kept.plan _ due).mp planned
      rw [← kept.sound.alive_due held alive, ← kept.sound.live_iff held] at alive
      exact absurd alive live
  · exact id
  · exact .inl rfl
  · rintro other (same | fires)
    · exact Eq.symm same
    · exact fires.elim
  · nofun
  · nofun
  · trivial

theorem Kept.turned {place : Nat} (pass : world.phase = .passing now)
    (moves : world.turn now place = some (next, acts)) : Kept next (trace ++ acts) := by
  obtain ⟨e, among, least, early, turned⟩ := turn_cases kept.sound pass moves
  have inPass : world.phase.pass = some now := by rw [pass]; rfl
  cases turned with
  | skipped sound =>
    refine kept.quiet sound rfl rfl (fun _ => mem_of_without) rfl (fun _ same => same) [.skips e] ?_
      (always_snoc.mpr ⟨kept.right, trivial⟩)
    intro act last
    exact .inl ⟨e, mem_singleton.mp last⟩
  | @fired next timer live held serial due effect =>
    obtain ⟨before, inner, passing⟩ := kept.passing now inPass
    have planned : planOf trace timer.serial = some e.due := by
      rw [kept.plan, ← due]
      exact ⟨e.timer, timer, live, held, rfl, rfl⟩
    obtain ⟨atStart, untouched⟩ := (passing.remaining _ _ early).mp planned
    apply kept.effect effect
    · intro now' pass'
      rw [inPass] at pass'
      cases pass'
      exact lt_add_milliseconds now (kept.sound.timers e.timer timer held).admitted
    · rw [← serial]
      rfl
    · exact id
    · exact .inr (.inl serial)
    · rintro other (stops | same)
      · exact stops.elim
      · exact Eq.trans (Eq.symm same) serial
    · rintro now' e' timer' ⟨⟩ now'' pass'
      rw [inPass] at pass'
      cases pass'
      exact ⟨early, least⟩
    · nofun
    · exact ⟨before, inner,
        { pass := passing.pass
          serial := serial.symm
          due := due.symm
          live := planned
          atStart := atStart
          early := early
          kept := fun act there stops => untouched act there (.inl stops)
          once := fun act there fires => untouched act there (.inr fires)
          order := fun now' e' timer' there => (passing.order now' e' timer' there).2 e among }⟩

/-- At the end of a pass no live timer is due. -/
theorem Kept.ended (pass : world.phase = .passing now)
    (later : ∀ e ∈ world.manager.heap, now < e.due) :
    Kept { world with phase := .idle } (trace ++ [.ends now]) := by
  obtain ⟨before, acts, passing⟩ := kept.passing now (by rw [pass]; rfl)
  have complete : ∀ serial due, planOf before serial = some due → due ≤ now →
      ∃ act ∈ acts, act.Stops serial ∨ act.Fires serial := by
    intro serial due held early
    by_contra none
    push Not at none
    have planned := (passing.remaining serial due early).mpr
      ⟨held, fun act there touched => touched.elim (none act there).1 (none act there).2⟩
    obtain ⟨address, timer, live, stored, -, rfl⟩ := (kept.plan serial due).mp planned
    obtain ⟨timer', stored', entered⟩ := kept.sound.listed address live
    rw [stored] at stored'
    cases stored'
    have ahead := later _ entered
    dsimp only at ahead
    omega
  have sound := Stepped.sound (.ended pass later) kept.sound
  refine kept.quiet sound rfl rfl (fun _ there => there) rfl nofun [.ends now] ?_
    (always_snoc.mpr ⟨kept.right, before, acts, passing.pass, complete⟩)
  intro act last
  exact .inr ⟨now, mem_singleton.mp last⟩

/-- A pass begins with the plan of its moment. -/
theorem Kept.began (idle : world.phase = .idle) :
    Kept { world with phase := .passing world.clock } (trace ++ [.begins world.clock]) := by
  have plan : planOf (trace ++ [.begins world.clock]) = planOf trace := planOf_snoc ..
  refine ⟨Stepped.sound (.began idle) kept.sound, ?_, ?_, ?_,
    always_snoc.mpr ⟨kept.right, trivial⟩⟩
  · intro serial due
    rw [plan]
    exact kept.plan serial due
  · intro number due among
    rcases mem_append.mp among with there | last
    · exact kept.numbered number due there
    · cases mem_singleton.mp last
  · rintro _ ⟨⟩
    refine ⟨trace, [], ⟨rfl, nofun⟩, ?_, ?_, nofun⟩
    · intro serial due held
      obtain ⟨address, timer, -, stored, rfl, -⟩ := (kept.plan serial due).mp held
      exact (kept.sound.timers address timer stored).numbered
    · intro serial due _
      rw [plan]
      exact ⟨fun held => ⟨held, nofun⟩, And.left⟩

theorem Kept.step (stepped : Stepped Positive world next acts) : Kept next (trace ++ acts) := by
  cases stepped with
  | ticked elapsed =>
    exact kept.quiet (Stepped.sound (.ticked elapsed) kept.sound) rfl rfl (fun _ there => there) rfl
      (fun _ same => same) [] (fun _ none => nomatch none) (by rw [append_nil]; exact kept.right)
  | @returned now pass =>
    refine kept.quiet (Stepped.sound (.returned pass) kept.sound) rfl rfl (fun _ there => there) rfl
      ?_ [] (fun _ none => nomatch none) (by rw [append_nil]; exact kept.right)
    intro now same
    rw [pass]
    exact same
  | constructed callback singleShot free positive =>
    exact kept.constructed callback singleShot free positive
  | destroyed held => exact kept.destroyed held
  | reset held => exact kept.reset held
  | began idle => exact kept.began idle
  | turned pass moves => exact kept.turned pass moves
  | ended pass later => exact kept.ended pass later

end

theorem start_kept : Kept World.start [] where
  sound := start_sound _
  plan := by
    intro serial due
    constructor
    · nofun
    · rintro ⟨address, timer, live, -⟩
      cases live
  numbered := nofun
  passing := nofun
  right := always_nil _

theorem Proper.stepped {label : Label} (proper : Proper world label)
    (moves : step world label = some (next, acts)) : Stepped Positive world next acts := by
  refine step_cases ?_ moves
  rintro _ _ _ _ rfl
  exact proper

theorem run_kept (run : Run step Proper World.start world trace) : Kept world trace :=
  run.invariant Kept start_kept fun _ kept proper moves => kept.step (proper.stepped moves)

/-- In every run each pass fires the timers that were due when it began and that no callback
has taken out before, each once and in the order of their deadlines; and a pass that has
begun has a turn to take or an end to reach, with fewer entries left after each turn. -/
theorem passes_fire_what_is_due (run : Run step Proper World.start world trace) :
    Always Right trace ∧
      (∀ now, world.phase = .passing now →
        (∃ result, step world .leave = some result) ∨
          ∃ place result, step world (.turn place) = some result) ∧
      ∀ now label next acts, world.phase.pass = some now → Proper world label →
        step world label = some (next, acts) →
          dueCount next now ≤ dueCount world now ∧
            ∀ place, label = .turn place → dueCount next now < dueCount world now := by
  have kept := run_kept run
  refine ⟨kept.right, fun now pass => turn_or_leave kept.sound.listed pass, ?_⟩
  intro now label next acts pass proper moves
  refine ⟨(proper.stepped moves).dueCount_le kept.sound pass, ?_⟩
  rintro place rfl
  rw [step] at moves
  split at moves
  case h_1 now' pass' =>
    rw [pass'] at pass
    cases pass
    exact turn_dueCount kept.sound.rearms moves
  case h_2 => cases moves

/-- Two timers are due; the callback of one destroys the other. -/
def sampleLabels : List Label :=
  [.construct 1 (some 0) 5 false, .construct 2 (some 0) 5 true, .tick 10000000, .process, .turn 1,
    .destroy 2, .returns, .turn 1, .leave]

def sampleTrace : List Act :=
  [.constructed 1 5000000, .constructed 2 5000000, .begins 10000000,
    .fires 10000000 ⟨5000000, 1, 1⟩ ⟨some 0, false, 5, 5000000, 1⟩, .destroyed 2,
    .skips ⟨5000000, 2, 2⟩, .ends 10000000]

theorem sampleLabels_run : ∃ world, Run step Proper World.start world sampleTrace :=
  ⟨_, run_of_play sampleLabels rfl⟩

theorem sampleTrace_right : Always Right sampleTrace :=
  sampleLabels_run.elim fun _ run => (passes_fire_what_is_due run).1

end SamuraiFormal.Timers
