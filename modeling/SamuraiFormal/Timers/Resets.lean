import SamuraiFormal.Timers.Passes

/-!
# Resets

A live timer that is reset fires in the first pass at or after its new deadline.  A single-shot
timer that has fired is no longer live: `reset()` schedules it, but only `add()` puts a timer into
the set of live ones, so the new entry is passed over as stale.
-/

namespace SamuraiFormal.Timers

open Library.Traces
open List

variable {trace later front back acts before : List Act} {serial now due : Nat}

theorem PassOf.acts_eq (pass : PassOf trace before now acts) :
    acts = (trace.reverse.takeWhile fun act => !act matches .begins _).reverse := by
  have inner : ∀ act ∈ acts.reverse, (!act matches .begins _) = true := by
    intro act among
    have other := pass.one act (mem_reverse.mp among)
    cases act with
    | begins => exact absurd trivial other
    | _ => rfl
  rw [pass.split, reverse_append, reverse_cons, append_assoc,
    takeWhile_append_of_pos inner, singleton_append]
  simp

theorem PassOf.unique {before' acts' : List Act} {now' : Nat} (pass : PassOf trace before now acts)
    (pass' : PassOf trace before' now' acts') : before' = before ∧ now' = now ∧ acts' = acts := by
  have same : acts' = acts := pass'.acts_eq.trans pass.acts_eq.symm
  subst same
  obtain ⟨rfl, last⟩ := append_inj' (pass'.split.symm.trans pass.split) rfl
  cases last
  exact ⟨rfl, rfl, rfl⟩

/-- What has happened since the last pass began, or since the timer was given a deadline that the
running pass is too early for. -/
structure Since (due : Nat) (trace : List Act) (now : Nat) (acts : List Act) : Prop where
  start : (trace = acts ∧ now < due) ∨ ∃ before, trace = before ++ .begins now :: acts
  one : ∀ act ∈ acts, ¬act.IsBegins

theorem Since.snoc {act : Act} (since : Since due trace now acts) (inner : ¬act.IsBegins) :
    Since due (trace ++ [act]) now (acts ++ [act]) where
  start := by
    rcases since.start with ⟨rfl, early⟩ | ⟨before, rfl⟩
    · exact .inl ⟨rfl, early⟩
    · exact .inr ⟨before, by simp⟩
  one := forall_mem_append.mpr ⟨since.one, forall_mem_singleton.mpr inner⟩

theorem Since.eq {started : Nat} {inner : List Act} (since : Since due trace started inner)
    (pass : PassOf trace before now acts) : started = now ∧ inner = acts := by
  rcases since.start with ⟨rfl, -⟩ | ⟨before', split⟩
  · have begins : .begins now ∈ trace := by simp [pass.split]
    exact absurd trivial (since.one _ begins)
  · exact (pass.unique ⟨split, since.one⟩).2

/-- The timer fires once in a pass, and first in one that has reached the deadline; a pass that
ends without has not reached it. -/
def Timely (serial due : Nat) (trace : List Act) : Act → Prop
  | .fires now _ timer => timer.serial = serial →
    ∃ acts, Since due trace now acts ∧ (∀ act ∈ acts, ¬act.Fires serial) ∧
      ((∀ act ∈ trace, ¬act.Fires serial) → due ≤ now)
  | .ends now => ∃ acts, Since due trace now acts ∧
      ((∀ act ∈ trace, ¬act.Fires serial) → now < due)
  | _ => True

/-- A timer that has been given a deadline, and what has happened since. -/
structure Armed (serial due : Nat) (world : World) (trace : List Act) : Prop where
  sound : Sound (fun number interval => number = serial → 0 < interval) world
  known : serial ≤ world.counter
  waits : (∀ act ∈ trace, ¬act.Fires serial) → Alive world serial due
  spent : ∀ now, world.phase.pass = some now → ∃ acts, Since due trace now acts ∧
    ((∃ act ∈ acts, act.Fires serial) → ∀ due', Alive world serial due' → now < due')
  timely : Always (Timely serial due) trace

variable {world next : World}

section

variable (armed : Armed serial due world trace)
include armed

/-- Nothing happens to the timer. -/
theorem Armed.quiet {act : Act}
    (sound : Sound (fun number interval => number = serial → 0 < interval) next)
    (known : world.counter ≤ next.counter)
    (same : ∀ due', Alive next serial due' ↔ Alive world serial due')
    (pass : ∀ now, next.phase.pass = some now → world.phase.pass = some now)
    (inner : ¬act.IsBegins) (silent : ¬act.Fires serial) (timely : Timely serial due trace act) :
    Armed serial due next (trace ++ [act]) where
  sound := sound
  known := Nat.le_trans armed.known known
  waits := fun still => (same due).mpr (armed.waits (forall_mem_append.mp still).1)
  spent := by
    intro now passing
    obtain ⟨acts, since, spent⟩ := armed.spent now (pass now passing)
    refine ⟨acts ++ [act], since.snoc inner, ?_⟩
    rintro ⟨fires, among, own⟩ due' alive
    rcases mem_append.mp among with there | last
    · exact spent ⟨fires, there, own⟩ due' ((same due').mp alive)
    · rw [mem_singleton.mp last] at own
      exact absurd own silent
  timely := always_snoc.mpr ⟨armed.timely, timely⟩

/-- Something happens to another timer. -/
theorem Armed.other {act : Act} {floor other : Nat} {deadline : Option Nat}
    (effect : Effect (fun number interval => number = serial → 0 < interval) world next floor other
      deadline) (apart : serial ≠ other) (inner : ¬act.IsBegins) (silent : ¬act.Fires serial)
    (timely : Timely serial due trace act) : Armed serial due next (trace ++ [act]) :=
  armed.quiet effect.sound effect.counter (fun due' => effect.other serial due' apart)
    (fun _ passing => effect.pass ▸ passing) inner silent timely

/-- Only time passes, or a callback returns. -/
theorem Armed.waiting (sound : Sound (fun number interval => number = serial → 0 < interval) next)
    (memory : next.memory = world.memory) (manager : next.manager = world.manager)
    (counter : next.counter = world.counter) (pass : next.phase.pass = world.phase.pass) :
    Armed serial due next trace := by
  have same : ∀ due', Alive next serial due' ↔ Alive world serial due' := by
    intro due'
    rw [Alive, Alive, memory, manager]
  refine ⟨sound, counter ▸ armed.known, fun still => (same due).mpr (armed.waits still), ?_,
    armed.timely⟩
  intro now passing
  obtain ⟨acts, since, spent⟩ := armed.spent now (pass ▸ passing)
  exact ⟨acts, since, fun fired due' alive => spent fired due' ((same due').mp alive)⟩

/-- The timer itself fires. -/
theorem Armed.fires {e : Entry} {timer : Timer} (passing : world.phase.pass = some now)
    (early : e.due ≤ now) (live : e.timer ∈ world.manager.live)
    (held : world.memory e.timer = some timer) (own : timer.serial = serial)
    (due' : timer.due = e.due)
    (effect : Effect (fun number interval => number = serial → 0 < interval) world next
      (now + milliseconds timer.interval) e.serial (timer.again now)) (same : e.serial = serial) :
    Armed serial due next (trace ++ [.fires now e timer]) := by
  obtain ⟨acts, since, spent⟩ := armed.spent now passing
  have alive : Alive world serial e.due := ⟨e.timer, timer, live, held, own, due'⟩
  refine ⟨effect.sound, Nat.le_trans armed.known effect.counter, ?_, ?_,
    always_snoc.mpr ⟨armed.timely, ?_⟩⟩
  · intro still
    exact absurd own (still _ (mem_append_right _ (mem_singleton_self _)))
  · intro now' passing'
    rw [effect.pass, passing] at passing'
    cases passing'
    refine ⟨_, since.snoc id, fun _ due' alive' => ?_⟩
    have ahead := effect.later due' ((effect.self due').mp (same ▸ alive'))
    have positive := (armed.sound.timers e.timer timer held).admitted own
    exact Nat.lt_of_lt_of_le (lt_add_milliseconds now positive) ahead
  · refine fun _ => ⟨acts, since, fun act among fired => ?_, fun still => ?_⟩
    · have late := spent ⟨act, among, fired⟩ e.due alive
      omega
    · have kept := armed.sound.alive_due held (own.symm ▸ armed.waits still)
      omega

theorem Armed.turned {place : Nat} (passing : world.phase = .passing now)
    (moves : world.turn now place = some (next, acts)) :
    Armed serial due next (trace ++ acts) := by
  have pass : world.phase.pass = some now := by rw [passing]; rfl
  obtain ⟨e, -, -, early, turned⟩ := turn_cases armed.sound passing moves
  cases turned with
  | skipped sound =>
    exact armed.quiet sound (Nat.le_refl _) (fun _ => Iff.rfl) (fun _ same => same) id id trivial
  | @fired next timer live held number deadline effect =>
    by_cases own : timer.serial = serial
    · exact armed.fires pass early live held own deadline effect (number.symm.trans own)
    · exact armed.other effect (fun same => own (number.trans same.symm)) id own (absurd · own)

theorem Armed.step
    (stepped : Stepped (fun number interval => number = serial → 0 < interval) world next acts)
    (kept : ∀ act ∈ acts, ¬act.Stops serial) : Armed serial due next (trace ++ acts) := by
  have sound := stepped.sound armed.sound
  cases stepped with
  | ticked elapsed =>
    rw [append_nil]
    exact armed.waiting sound rfl rfl rfl rfl
  | returned pass =>
    rw [append_nil]
    exact armed.waiting sound rfl rfl rfl (by rw [pass]; rfl)
  | constructed callback singleShot free admitted =>
    have fresh : serial ≠ world.counter + 1 := Nat.ne_of_lt (Nat.lt_succ_of_le armed.known)
    exact armed.other (construct_effect armed.sound free callback singleShot admitted) fresh id id
      trivial
  | destroyed held =>
    have apart := kept _ (mem_singleton_self _)
    exact armed.other (destroy_effect armed.sound held 0)
      (fun same => apart same.symm) id id trivial
  | reset held =>
    have apart := kept _ (mem_singleton_self _)
    exact armed.other (reset_effect armed.sound held) (fun same => apart same.symm) id id trivial
  | began =>
    refine ⟨sound, armed.known, fun still => armed.waits (forall_mem_append.mp still).1, ?_,
      always_snoc.mpr ⟨armed.timely, trivial⟩⟩
    rintro _ ⟨⟩
    exact ⟨[], ⟨.inr ⟨trace, rfl⟩, nofun⟩, by simp⟩
  | turned passing moves => exact armed.turned passing moves
  | @ended now passing later =>
    obtain ⟨inner, since, -⟩ := armed.spent now (by rw [passing]; rfl)
    refine armed.quiet sound (Nat.le_refl _) (fun _ => Iff.rfl) nofun id id ⟨inner, since, ?_⟩
    intro still
    obtain ⟨address, timer, live, held, -, rfl⟩ := armed.waits still
    obtain ⟨_, held', entered⟩ := armed.sound.listed address live
    cases held.symm.trans held'
    exact later _ entered

end

/-- The timer that was reset is armed along every run that does not stop it. -/
theorem run_armed {allowed : World → Label → Prop} {last : World}
    (armed : Armed serial due world []) (onward : Run step allowed world last later)
    (kept : ∀ act ∈ later, ¬act.Stops serial) : Armed serial due last later := by
  refine onward.invariant
    (fun world acts => (∀ act ∈ acts, ¬act.Stops serial) → Armed serial due world acts)
    (fun _ => armed) ?_ kept
  intro world next trace acts label ih _ moves kept
  obtain ⟨earlier, last⟩ := forall_mem_append.mp kept
  have armed := ih earlier
  refine armed.step (step_cases ?_ moves) last
  intro _ _ _ _ _ same
  have known := armed.known
  omega

section

variable (timely : Always (Timely serial due) later)
include timely

/-- Passes that begin before the deadline do not fire the timer. -/
theorem silent_of_early (split : later = front ++ back)
    (early : ∀ now, .begins now ∈ front → now < due) : ∀ act ∈ front, ¬act.Fires serial := by
  induction front using List.reverseRecOn generalizing back with
  | nil => nofun
  | append_singleton front act ih =>
    rw [append_assoc] at split
    have still := ih split fun now among => early now (mem_append_left _ among)
    refine forall_mem_append.mpr ⟨still, forall_mem_singleton.mpr ?_⟩
    intro fires
    cases act with
    | fires now e timer =>
      obtain ⟨acts, since, -, reached⟩ := timely _ _ back split fires
      have reached := reached still
      rcases since.start with ⟨-, before⟩ | ⟨before, rfl⟩
      · omega
      · have before := early now (by simp)
        omega
    | _ => exact fires

variable (split : later = (before ++ .begins now :: acts) ++ back)
  (one : ∀ act ∈ acts, ¬act.IsBegins)
include split one

/-- A pass fires the timer at most once. -/
theorem fires_once {first rest : List Act} {act : Act} (cut : acts = first ++ act :: rest)
    (fires : act.Fires serial) :
    (∃ e timer, act = .fires now e timer ∧ timer.serial = serial) ∧
      ∀ act ∈ first, ¬act.Fires serial := by
  cases act with
  | fires started e timer =>
    obtain ⟨_, since, still, -⟩ := timely (before ++ .begins now :: first)
      (.fires started e timer) (rest ++ back) (by rw [split, cut]; simp) fires
    obtain ⟨rfl, rfl⟩ := since.eq ⟨rfl, fun act among => one act (cut ▸ mem_append_left _ among)⟩
    exact ⟨⟨e, timer, rfl, fires⟩, still⟩
  | _ => exact fires.elim

/-- A pass that has ended has fired the timer if the deadline was reached. -/
theorem fired_of_reached {ended : Nat} {rest : List Act} (ends : back = .ends ended :: rest)
    (still : ∀ act ∈ before, ¬act.Fires serial) (reached : due ≤ now) :
    ∃ act ∈ acts, act.Fires serial := by
  obtain ⟨_, since, early⟩ := timely _ _ rest (ends ▸ split)
  obtain ⟨rfl, -⟩ := since.eq ⟨rfl, one⟩
  by_contra none
  push Not at none
  have before := early (forall_mem_append.mpr ⟨still, forall_mem_cons.mpr ⟨id, none⟩⟩)
  omega

end

/-- After a live timer of a positive interval has been reset, passes that begin before the new
deadline do not fire it, and the first pass that begins at or after the deadline fires it once;
the other timers may have any interval. -/
theorem reset_fires_once {last : World} {address : Nat} {timer : Timer} {resetActs : List Act}
    (run : Run step (fun _ _ => True) World.start world trace)
    (held : world.memory address = some timer) (positive : 0 < timer.interval)
    (live : address ∈ world.manager.live)
    (resets : step world (.reset address) = some (next, resetActs))
    (onward : Run step (fun _ _ => True) next last later)
    (kept : ∀ act ∈ later, ¬act.Stops timer.serial) :
    (∀ front back, later = front ++ back →
      (∀ now, .begins now ∈ front → now < world.clock + milliseconds timer.interval) →
      ∀ act ∈ front, ¬act.Fires timer.serial) ∧
    ∀ before now acts ended back,
      later = (before ++ .begins now :: acts) ++ .ends ended :: back →
      (∀ act ∈ acts, ¬act.IsBegins) →
      (∀ now, .begins now ∈ before → now < world.clock + milliseconds timer.interval) →
      world.clock + milliseconds timer.interval ≤ now →
      ∃ first e fired rest, acts = first ++ .fires now e fired :: rest ∧
        fired.serial = timer.serial ∧ ∀ act ∈ first ++ rest, ¬act.Fires timer.serial := by
  have sound := run_sound run
  have admitted : Sound (fun number interval => number = timer.serial → 0 < interval) world := by
    refine ⟨sound.listed, fun other timer' held' => ?_, sound.distinct, sound.started⟩
    have fits := sound.timers other timer' held'
    refine ⟨fits.numbered, fun same => ?_, fits.near⟩
    obtain rfl := sound.distinct other address timer' timer held' held same
    cases held.symm.trans held'
    exact positive
  have effect := reset_effect admitted held
  obtain rfl : next = (world.reset address timer).1 := by
    rw [step, held] at resets
    cases phase : world.phase with
    | passing now =>
      rw [phase] at resets
      cases resets
    | idle | inside =>
      rw [phase] at resets
      cases resets
      rfl
  have armed : Armed timer.serial (world.clock + milliseconds timer.interval)
      (world.reset address timer).1 [] := by
    refine ⟨effect.sound, (sound.timers address timer held).numbered,
      fun _ => (effect.self _).mpr (if_pos live), fun now passing => ?_, always_nil _⟩
    have started := sound.started now (effect.pass ▸ passing)
    exact ⟨[], ⟨.inl ⟨rfl, Nat.lt_of_le_of_lt started (lt_add_milliseconds _ positive)⟩,
      forall_mem_nil _⟩, by simp⟩
  have timely := (run_armed armed onward kept).timely
  refine ⟨fun front back split early => silent_of_early timely split early, ?_⟩
  intro before now acts ended back split one early reached
  have still := silent_of_early timely (split.trans (append_assoc ..)) early
  obtain ⟨act, among, fires⟩ := fired_of_reached timely split one rfl still reached
  obtain ⟨first, rest, cut⟩ := append_of_mem among
  obtain ⟨⟨e, fired, rfl, own⟩, earlier⟩ := fires_once timely split one cut fires
  refine ⟨first, e, fired, rest, cut, own, forall_mem_append.mpr ⟨earlier, ?_⟩⟩
  intro act among again
  obtain ⟨inner, tail, rfl⟩ := append_of_mem among
  have twice := fires_once timely split one
    (cut.trans (append_assoc first (_ :: inner) _).symm) again
  exact twice.2 _ (mem_append_right _ mem_cons_self) fires

/-- A timer is reset before its deadline; the pass at the new one fires it, after a single-shot
timer of no interval. -/
theorem reset_fires_once_sample :
    ∃ (first : List Act) (e : Entry) (fired : Timer) (rest : List Act),
      [.fires 9000000 ⟨0, 2, 2⟩ ⟨none, true, 0, 0, 2⟩, .skips ⟨5000000, 1, 1⟩,
          .fires 9000000 ⟨8000000, 1, 1⟩ ⟨none, true, 5, 8000000, 1⟩] =
        first ++ .fires 9000000 e fired :: rest ∧ fired.serial = 1 ∧
      ∀ act ∈ first ++ rest, ¬act.Fires 1 :=
  (reset_fires_once
    (run_of_play [.construct 1 none 5 true, .construct 2 none 0 true, .tick 3000000] rfl)
    (rfl : World.memory _ 1 = some ⟨none, true, 5, 5000000, 1⟩) (by decide) (by decide) rfl
    (run_of_play [.tick 6000000, .process, .turn 1, .turn 1, .turn 0, .leave] rfl)
    (by simp [Act.Stops])).2 [] 9000000 _ 9000000 [] rfl (by simp [Act.IsBegins]) nofun (by decide)

/-- A single-shot timer that has fired is reset; the pass at its new deadline skips it. -/
theorem reset_after_single_shot :
    ∃ world, Run step Proper World.start world
      [.constructed 1 5000000, .begins 5000000,
        .fires 5000000 ⟨5000000, 1, 1⟩ ⟨none, true, 5, 5000000, 1⟩, .ends 5000000,
        .reset 1 10000000, .begins 10000000, .skips ⟨10000000, 1, 1⟩, .ends 10000000] :=
  ⟨_, run_of_play [.construct 1 none 5 true, .tick 5000000, .process, .turn 0, .leave, .reset 1,
    .tick 5000000, .process, .turn 0, .leave] rfl⟩

end SamuraiFormal.Timers
