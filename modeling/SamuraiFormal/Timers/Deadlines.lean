import SamuraiFormal.Timers.Turns

/-!
# Timers of any interval

An interval may be zero.  A repeating timer of that kind is due again as soon as it has fired, and
`process()` does not come to an end.  `timeToNext()` finds the nearest deadline of any timers, but
narrows the milliseconds to an `int`, which a deadline more than 24 days ahead does not fit.
-/

namespace SamuraiFormal.Timers

open Library.Traces
open List

variable {world next : World} {trace acts : List Act} {now : Nat}

/-- Time may pass, the loop takes its turns and the callbacks return. -/
def Undisturbed (_ : World) : Label → Prop
  | .tick _ | .turn _ | .leave | .returns => True
  | _ => False

instance (world : World) : (label : Label) → Decidable (Undisturbed world label)
  | .tick _ | .turn _ | .leave | .returns => inferInstanceAs (Decidable True)
  | .construct .. | .destroy _ | .reset _ | .process => inferInstanceAs (Decidable False)

/-- The addresses of the timers that were fired. -/
def firings (trace : List Act) : List Nat :=
  trace.filterMap fun
    | .fires _ e _ => some e.timer
    | _ => none

def Act.isTurn : Act → Bool
  | .skips _ | .fires _ _ _ => true
  | _ => false

/-- Everything that can happen in a pass that is left alone. -/
inductive Undergone (world : World) : World → List Act → Prop where
  | waits {next : World} (memory : next.memory = world.memory)
      (manager : next.manager = world.manager) (pass : next.phase.pass = world.phase.pass) :
      Undergone world next []
  | turns {now place : Nat} {next : World} {acts : List Act} (pass : world.phase = .passing now)
      (moves : world.turn now place = some (next, acts)) : Undergone world next acts
  | leaves {now : Nat} (pass : world.phase = .passing now)
      (later : ∀ e ∈ world.manager.heap, now < e.due) :
      Undergone world { world with phase := .idle } [.ends now]

theorem undergone {label : Label} (fits : Undisturbed world label)
    (moves : step world label = some (next, acts)) : Undergone world next acts := by
  cases label with
  | tick elapsed =>
    cases moves
    exact .waits rfl rfl rfl
  | turn place =>
    rw [step] at moves
    split at moves
    case h_1 pass => exact .turns pass moves
    case h_2 => cases moves
  | leave =>
    rw [step] at moves
    split at moves
    case h_1 pass =>
      split at moves
      case isTrue later =>
        cases moves
        exact .leaves pass later
      case isFalse => cases moves
    case h_2 => cases moves
  | returns =>
    rw [step] at moves
    split at moves
    case h_1 pass =>
      cases moves
      exact .waits rfl rfl (by rw [pass]; rfl)
    case h_2 => cases moves
  | construct | destroy | reset | process => exact fits.elim

/-- A pass that began with `due` entries to take up. -/
structure Draining (now due : Nat) (world : World) (acts : List Act) : Prop where
  sound : Sound (fun _ _ => True) world
  rearms : Rearms world
  phase : ∀ now', world.phase.pass = some now' → now' = now
  turns : acts.countP Act.isTurn + dueCount world now ≤ due
  once : (firings acts).Nodup
  spent : ∀ address ∈ firings acts, ∀ timer, address ∈ world.manager.live →
    world.memory address = some timer → now < timer.due

/-- The live timers after one has fired: the others as they were, and this one with a deadline
ahead if it repeats. -/
theorem internalFire_live (sound : Sound (fun _ _ => True) world) {place address : Nat} {e : Entry}
    {timer timer' : Timer} (there : world.manager.heap[place]? = some e)
    (stored : world.memory e.timer = some timer) (pass : world.phase.pass = some now)
    (live : address ∈ ((world.without place).internalFire now e.timer timer).manager.live)
    (held : ((world.without place).internalFire now e.timer timer).memory address = some timer') :
    (timer.singleShot = false ∧ timer' = { timer with due := now + milliseconds timer.interval }) ∨
      (address ≠ e.timer ∧ address ∈ world.manager.live ∧ world.memory address = some timer') := by
  have change := fire_change sound there stored pass
  by_cases same : address = e.timer
  · subst same
    have repeats := (mem_live_internalFire.mp live).1
    rw [change.here, Timer.again_of_repeats repeats, Option.getD_some] at held
    exact .inl ⟨repeats, (Option.some.inj held).symm⟩
  · rw [change.elsewhere same] at held
    exact .inr ⟨same, (change.live address same).mp live, held⟩

theorem Draining.turn {due place : Nat} {more : List Act} (draining : Draining now due world acts)
    (passing : world.phase = .passing now) (moves : world.turn now place = some (next, more))
    (sound : Sound (fun _ _ => True) next) : Draining now due next (acts ++ more) := by
  have pass : world.phase.pass = some now := by rw [passing]; rfl
  have fewer := turn_dueCount draining.rearms moves
  have turns := draining.turns
  obtain ⟨e, there, -, early, ⟨rfl, rfl, -⟩ | ⟨timer, live, held, -, deadline, rfl, rfl⟩⟩ :=
    turn_inv moves
  · have same : firings (acts ++ [.skips e]) = firings acts := by simp [firings]
    refine ⟨sound, draining.rearms, draining.phase, ?_, same ▸ draining.once, same ▸ draining.spent⟩
    rw [countP_append, countP_singleton]
    simp only [Act.isTurn, if_true]
    omega
  · have fresh : e.timer ∉ firings acts := by
      intro fired
      have ahead := draining.spent e.timer fired timer live held
      omega
    have more : firings (acts ++ [.fires now e timer]) = firings acts ++ [e.timer] := by
      simp [firings]
    refine ⟨sound, ?_, ?_, ?_, ?_, ?_⟩
    · intro address timer' live' held' repeats
      rcases internalFire_live draining.sound there held pass live' held' with
        ⟨again, rfl⟩ | ⟨-, live', held'⟩
      · exact draining.rearms e.timer timer live held again
      · exact draining.rearms address timer' live' held' repeats
    · rw [(fire_change draining.sound there held pass).pass]
      exact draining.phase
    · rw [countP_append, countP_singleton]
      simp only [Act.isTurn, if_true]
      omega
    · rw [more]
      exact nodup_append'.mpr ⟨draining.once, nodup_singleton _, by simpa using fresh⟩
    · intro address among timer' live' held'
      rcases internalFire_live draining.sound there held pass live' held' with
        ⟨again, rfl⟩ | ⟨away, live', held'⟩
      · exact lt_add_milliseconds now (draining.rearms e.timer timer live held again)
      · rw [more] at among
        exact draining.spent address (by simpa [away] using among) timer' live' held'

theorem Draining.step {due : Nat} {label : Label} {more : List Act}
    (draining : Draining now due world acts) (fits : Undisturbed world label)
    (moves : Timers.step world label = some (next, more)) :
    Draining now due next (acts ++ more) := by
  have sound := (step_cases (fun _ _ _ _ _ => trivial) moves).sound draining.sound
  obtain ⟨former, rearms, phase, turns, once, spent⟩ := draining
  cases undergone fits moves with
  | waits memory manager pass =>
    rw [append_nil]
    refine ⟨sound, ?_, pass ▸ phase, ?_, once, ?_⟩
    · rw [Rearms, memory, manager]
      exact rearms
    · rw [dueCount, manager]
      exact turns
    · rw [memory, manager]
      exact spent
  | @turns now' _ _ _ passing moves =>
    obtain rfl := phase now' (by rw [passing]; rfl)
    exact Draining.turn ⟨former, rearms, phase, turns, once, spent⟩ passing moves sound
  | leaves =>
    have same (now : Nat) : firings (acts ++ [.ends now]) = firings acts := by simp [firings]
    refine ⟨sound, rearms, by rintro _ ⟨⟩, ?_, same _ ▸ once, same _ ▸ spent⟩
    rw [countP_append]
    exact turns

/-- A pass has a repeating timer of no interval to fire. -/
structure Stalled (now address : Nat) (world : World) : Prop where
  sound : Sound (fun _ _ => True) world
  pass : world.phase.pass = some now
  live : address ∈ world.manager.live
  due : ∃ timer, world.memory address = some timer ∧ timer.singleShot = false ∧
    timer.interval = 0 ∧ timer.due ≤ now

/-- Firing it changes nothing, and while it is due the loop is not left. -/
theorem Stalled.step {address : Nat} (stalled : Stalled now address world) (label : Label)
    (fits : Undisturbed world label) (moves : Timers.step world label = some (next, acts)) :
    Stalled now address next := by
  have sound := (step_cases (fun _ _ _ _ _ => trivial) moves).sound stalled.sound
  obtain ⟨former, pass, live, timer, held, repeats, zero, due⟩ := stalled
  cases undergone fits moves with
  | waits memory manager same =>
    exact ⟨sound, same.trans pass, manager ▸ live, timer, memory ▸ held, repeats, zero, due⟩
  | @turns now' place _ _ passing moves =>
    obtain rfl : now' = now := by
      rw [passing] at pass
      exact Option.some.inj pass
    obtain ⟨e, there, -, -, ⟨rfl, -, -⟩ | ⟨fired, -, stored, -, -, rfl, -⟩⟩ := turn_inv moves
    · exact ⟨sound, pass, live, timer, held, repeats, zero, due⟩
    have change := fire_change former there stored pass
    by_cases same : address = e.timer
    · subst same
      cases held.symm.trans stored
      refine ⟨sound, change.pass.trans pass, mem_live_internalFire.mpr ⟨repeats, live⟩, _,
        change.here, repeats, zero, ?_⟩
      rw [Timer.again_of_repeats repeats, zero]
      exact Nat.le_refl _
    · exact ⟨sound, change.pass.trans pass, (change.live address same).mpr live, timer,
        (change.elsewhere same).trans held, repeats, zero, due⟩
  | @leaves now' passing later =>
    obtain rfl : now' = now := by
      rw [passing] at pass
      exact Option.some.inj pass
    obtain ⟨_, held', entered⟩ := former.listed address live
    cases held.symm.trans held'
    exact absurd due (Nat.not_le_of_lt (later _ entered))

/-- The loop takes one turn after the other. -/
theorem stalled_turns {begun : World} {address : Nat} (stalled : Stalled now address begun)
    (turns : Nat) : ∃ last acts, Run step Undisturbed begun last acts ∧
      Stalled now address last ∧ turns ≤ acts.countP Act.isTurn := by
  induction turns with
  | zero => exact ⟨begun, [], .start, stalled, Nat.zero_le _⟩
  | succ turns ih =>
    obtain ⟨last, acts, run, stalled, most⟩ := ih
    obtain ⟨last, run, stalled, passing⟩ : ∃ last, Run step Undisturbed begun last acts ∧
        Stalled now address last ∧ last.phase = .passing now := by
      have pass := stalled.pass
      cases phase : last.phase with
      | idle =>
        rw [phase] at pass
        cases pass
      | passing =>
        rw [phase] at pass
        cases pass
        exact ⟨last, run, stalled, phase⟩
      | inside =>
        rw [phase] at pass
        cases pass
        have returns : step last .returns = some ({ last with phase := .passing now }, []) := by
          rw [step, phase]
        exact ⟨_, append_nil acts ▸ run.step .returns trivial returns,
          stalled.step .returns trivial returns, rfl⟩
    rcases turn_or_leave stalled.sound.listed passing with
      ⟨⟨next, more⟩, moves⟩ | ⟨place, ⟨next, more⟩, moves⟩
    · have idle := (stalled.step .leave trivial moves).pass
      rw [step, passing] at moves
      dsimp only at moves
      split at moves
      · cases moves
        cases idle
      · cases moves
    · refine ⟨next, acts ++ more, run.step (.turn place) trivial moves,
        stalled.step (.turn place) trivial moves, ?_⟩
      rw [step, passing] at moves
      have turned : more.countP Act.isTurn = 1 := by
        obtain ⟨e, -, -, -, ⟨-, rfl, -⟩ | ⟨timer, -, -, -, -, -, rfl⟩⟩ := turn_inv moves <;> rfl
      rw [countP_append, turned]
      omega

/-- The live timers that repeat have a positive interval exactly if every pass that is left alone
fires each timer at most once, takes no more turns than entries are due, and can go on until it is
over. -/
theorem pass_ends {begun : World} {first : List Act}
    (run : Run step (fun _ _ => True) World.start world trace)
    (begins : step world .process = some (begun, first)) :
    Rearms world ↔ ∀ last acts, Run step Undisturbed begun last acts →
      (firings acts).Nodup ∧ acts.countP Act.isTurn ≤ dueCount world world.clock ∧
        (last.phase = .idle ∨ ∃ label result, (label = .leave ∨ label = .returns ∨
          ∃ place, label = .turn place) ∧ step last label = some result) := by
  have sound := run_sound run
  have began := (step_cases (fun _ _ _ _ _ => trivial) begins).sound sound
  obtain rfl : begun = { world with phase := .passing world.clock } := by
    rw [step] at begins
    split at begins
    · cases begins
      rfl
    · cases begins
  constructor
  · intro rearms last acts pass
    have draining := pass.invariant (Draining world.clock (dueCount world world.clock))
      ⟨began, rearms, by rintro _ ⟨⟩; rfl, Nat.le_of_eq (Nat.zero_add _), .nil, by rintro _ ⟨⟩⟩
      fun _ draining fits moves => draining.step fits moves
    refine ⟨draining.once, Nat.le_trans (Nat.le_add_right ..) draining.turns, ?_⟩
    cases phase : last.phase with
    | idle => exact .inl rfl
    | passing now =>
      rcases turn_or_leave draining.sound.listed phase with ⟨result, moves⟩ | ⟨place, result, moves⟩
      · exact .inr ⟨_, result, .inl rfl, moves⟩
      · exact .inr ⟨_, result, .inr (.inr ⟨place, rfl⟩), moves⟩
    | inside now => exact .inr ⟨.returns, _, .inr (.inl rfl), by rw [step, phase]⟩
  · intro ends address timer live held repeats
    by_contra zero
    have zero : timer.interval = 0 := by omega
    have near := (sound.timers address timer held).near
    rw [zero] at near
    have stalled : Stalled world.clock address { world with phase := .passing world.clock } :=
      ⟨began, rfl, live, timer, held, repeats, zero, near⟩
    obtain ⟨last, acts, pass, -, most⟩ := stalled_turns stalled (dueCount world world.clock + 1)
    have bounded := (ends last acts pass).2.1
    omega

/-- A single-shot timer of no interval and a repeating one, due together. -/
theorem pass_ends_sample : (firings
    [.fires 5000000 ⟨0, 2, 2⟩ ⟨none, true, 0, 0, 2⟩,
      .fires 5000000 ⟨5000000, 1, 1⟩ ⟨none, false, 5, 5000000, 1⟩]).Nodup :=
  ((pass_ends
    (run_of_play [.construct 1 none 5 false, .construct 2 none 0 true, .tick 5000000] rfl) rfl).mp
    (by
      intro address timer live held repeats
      rcases mem_cons.mp live with rfl | live
      · cases held
        cases repeats
      cases mem_singleton.mp live
      cases held
      decide) _ _ (run_of_play [.turn 0, .turn 0] rfl)).1

/-- A repeating timer of no interval, in a pass. -/
def zeroInterval : World where
  memory := Function.update (fun _ => none) 1 (some ⟨none, false, 0, 0, 1⟩)
  counter := 1
  clock := 0
  manager := ⟨[⟨0, 1, 1⟩], [1]⟩
  phase := .passing 0

/-- Each turn fires the timer and leaves everything as it was. -/
theorem turn_zeroInterval : step zeroInterval (.turn 0) =
    some (zeroInterval, [.fires 0 ⟨0, 1, 1⟩ ⟨none, false, 0, 0, 1⟩]) := by
  have turned : step zeroInterval (.turn 0) =
      some ({ zeroInterval with memory := zeroInterval.store 1 (some ⟨none, false, 0, 0, 1⟩) },
        [.fires 0 ⟨0, 1, 1⟩ ⟨none, false, 0, 0, 1⟩]) := rfl
  rw [turned, World.store, zeroInterval, Function.update_idem]

theorem zeroInterval_never_ends :
    Run step (fun _ _ => True) World.start zeroInterval [.constructed 1 0, .begins 0] ∧
    (∀ turns, Run step Undisturbed zeroInterval zeroInterval
      (List.replicate turns (.fires 0 ⟨0, 1, 1⟩ ⟨none, false, 0, 0, 1⟩))) ∧
    step zeroInterval .leave = none := by
  refine ⟨run_of_play [.construct 1 none 0 false, .process] rfl, ?_, rfl⟩
  intro turns
  induction turns with
  | zero => exact .start
  | succ turns ih =>
    rw [replicate_succ']
    exact ih.step (.turn 0) trivial turn_zeroInterval

/-! ## The time to the next deadline -/

/-- `(int)` of a count. -/
def asInt (count : Nat) : Int := (count : Int).bmod (2 ^ 32)

/-- How the loop of `timeToNext()` ends. -/
inductive Scan where
  | due
  | nearest (best : Option Nat)
  deriving DecidableEq

def TimerManager.scan (manager : TimerManager) (memory : Nat → Option Timer) (now : Nat) :
    List Entry → Option Nat → Option Scan
  | [], best => some (.nearest best)
  | e :: rest, best =>
    match manager.current memory e with
    | none => none
    | some false => manager.scan memory now rest best
    | some true =>
      if e.due ≤ now then some .due
      else
        match best with
        | none => manager.scan memory now rest (some e.due)
        | some due => manager.scan memory now rest (some (if e.due < due then e.due else due))

/-- `timeToNext()`, with the entries in the order the heap has them in. -/
def timeToNext (world : World) (heap : List Entry) : Option Int :=
  match world.manager.scan world.memory world.clock heap none with
  | none => none
  | some .due => some 0
  | some (.nearest none) => some (-1)
  | some (.nearest (some best)) => some (asInt ((best - world.clock + 999999) / 1000000))

/-- The loop has looked at these deadlines. -/
def Scan.Tells (now : Nat) (deadlines : List Nat) : Scan → Prop
  | .due => ∃ deadline ∈ deadlines, deadline ≤ now
  | .nearest none => deadlines = []
  | .nearest (some best) => now < best ∧ best ∈ deadlines ∧ ∀ deadline ∈ deadlines, best ≤ deadline

/-- Deadlines that are not nearer than others do not matter. -/
theorem Scan.Tells.of_lower {fewer deadlines : List Nat} {scan : Scan}
    (tells : scan.Tells now fewer)
    (among : ∀ deadline ∈ fewer, deadline ∈ deadlines)
    (lower : ∀ deadline ∈ deadlines, ∃ nearer ∈ fewer, nearer ≤ deadline) :
    scan.Tells now deadlines := by
  cases scan with
  | due =>
    obtain ⟨deadline, there, early⟩ := tells
    exact ⟨deadline, among deadline there, early⟩
  | nearest best =>
    cases best with
    | none =>
      refine eq_nil_iff_forall_not_mem.mpr fun deadline there => ?_
      obtain ⟨nearer, there, -⟩ := lower deadline there
      rw [show fewer = [] from tells] at there
      cases there
    | some best =>
      obtain ⟨ahead, there, least⟩ := tells
      refine ⟨ahead, among best there, fun deadline there => ?_⟩
      obtain ⟨nearer, there, below⟩ := lower deadline there
      exact Nat.le_trans (least nearer there) below

variable {manager : TimerManager} {memory : Nat → Option Timer}

/-- The deadlines of the entries that are current. -/
def TimerManager.deadlines (manager : TimerManager) (memory : Nat → Option Timer)
    (entries : List Entry) : List Nat :=
  (entries.filter (manager.current memory · = some true)).map Entry.due

theorem scan_tells (judged : ∀ e, manager.current memory e ≠ none) (entries : List Entry)
    (best : Option Nat) (ahead : ∀ due, best = some due → now < due) :
    ∃ result, manager.scan memory now entries best = some result ∧
      result.Tells now (best.toList ++ manager.deadlines memory entries) := by
  induction entries generalizing best with
  | nil =>
    refine ⟨_, rfl, ?_⟩
    cases best with
    | none => rfl
    | some due => exact ⟨ahead due rfl, by simp, by simp [TimerManager.deadlines]⟩
  | cons e rest ih =>
    unfold TimerManager.scan
    cases judgement : manager.current memory e with
    | none => exact absurd judgement (judged e)
    | some own =>
      cases own with
      | false =>
        obtain ⟨result, found, tells⟩ := ih best ahead
        have same : manager.deadlines memory (e :: rest) = manager.deadlines memory rest := by
          simp [TimerManager.deadlines, judgement]
        exact ⟨result, found, same ▸ tells⟩
      | true =>
        have more :
            manager.deadlines memory (e :: rest) = e.due :: manager.deadlines memory rest := by
          simp [TimerManager.deadlines, judgement]
        rw [more]
        by_cases early : e.due ≤ now
        · exact ⟨.due, if_pos early, e.due, by simp, early⟩
        rw [if_neg early]
        cases best with
        | none =>
          obtain ⟨result, found, tells⟩ := ih (some e.due) (by rintro _ ⟨⟩; omega)
          exact ⟨result, found, tells⟩
        | some due =>
          have later := ahead due rfl
          obtain ⟨result, found, tells⟩ := ih (some (if e.due < due then e.due else due)) (by
            rintro _ ⟨⟩
            split <;> omega)
          refine ⟨result, found, tells.of_lower ?_ ?_⟩
          · simp only [Option.toList_some]
            grind
          · simp only [Option.toList_some, singleton_append, mem_cons]
            rintro deadline (rfl | rfl | there)
            · exact ⟨_, .inl rfl, by split <;> omega⟩
            · exact ⟨_, .inl rfl, by split <;> omega⟩
            · exact ⟨deadline, .inr there, Nat.le_refl _⟩

theorem current_iff {e : Entry} : world.manager.current world.memory e = some true ↔
    e.timer ∈ world.manager.live ∧ ∃ timer, world.memory e.timer = some timer ∧
      timer.serial = e.serial ∧ timer.due = e.due := by
  rw [TimerManager.current]
  split
  case isTrue live => simp [live]
  case isFalse gone => simp [gone]

/-- The current entries are those of the live timers. -/
theorem mem_deadlines {heap : List Entry} {due : Nat} (listed : Listed world)
    (order : heap.Perm world.manager.heap) :
    due ∈ world.manager.deadlines world.memory heap ↔ ∃ serial, Alive world serial due := by
  simp only [TimerManager.deadlines, mem_map, mem_filter, decide_eq_true_eq, current_iff]
  constructor
  · rintro ⟨e, ⟨-, live, timer, held, -, same⟩, rfl⟩
    exact ⟨timer.serial, e.timer, timer, live, held, rfl, same⟩
  · rintro ⟨serial, address, timer, live, held, rfl, rfl⟩
    obtain ⟨_, held', entered⟩ := listed address live
    cases held.symm.trans held'
    exact ⟨_, ⟨order.mem_iff.mpr entered, live, timer, held, rfl, rfl⟩, rfl⟩

/-- -1 says that no timer is live, 0 that one is due, and a positive number that the nearest
deadline lies within that many milliseconds and not within one less. -/
def Tells (world : World) (result : Int) : Prop :=
  (result = -1 ↔ ∀ serial due, ¬Alive world serial due) ∧
    (result = 0 ↔ ∃ serial due, Alive world serial due ∧ due ≤ world.clock) ∧
    (result ≠ -1 → result ≠ 0 → ∃ time : Nat, result = time ∧ 0 < time ∧
      ∃ serial due, Alive world serial due ∧
        (∀ serial' due', Alive world serial' due' → due ≤ due') ∧
        world.clock + milliseconds (time - 1) < due ∧ due ≤ world.clock + milliseconds time)

/-- `timeToNext()` tells the nearest deadline exactly if there is none or it is less than 2^31
milliseconds ahead. -/
theorem timeToNext_nearest {heap : List Entry}
    (run : Run step (fun _ _ => True) World.start world trace)
    (order : heap.Perm world.manager.heap) :
    ∃ result, timeToNext world heap = some result ∧ (Tells world result ↔
      ∀ serial due, Alive world serial due → ∃ serial' due', Alive world serial' due' ∧
        due' ≤ world.clock + milliseconds (2 ^ 31 - 1)) := by
  have listed := (run_sound run).listed
  have judged : ∀ e, world.manager.current world.memory e ≠ none := by
    intro e
    rw [TimerManager.current]
    split
    case isTrue live =>
      obtain ⟨timer, held, -⟩ := listed e.timer live
      simp [held]
    case isFalse => simp
  obtain ⟨scan, found, tells⟩ := scan_tells judged heap none (by simp)
  have alive (due : Nat) : _ ↔ ∃ serial, Alive world serial due := mem_deadlines listed order
  rw [timeToNext, found]
  cases scan with
  | due =>
    obtain ⟨due, there, early⟩ := tells
    obtain ⟨serial, lives⟩ := (alive _).mp there
    refine ⟨0, rfl, iff_of_true ⟨⟨by simp, fun none => absurd lives (none serial due)⟩, ?_,
      fun _ other => absurd rfl other⟩ ?_⟩
    · exact ⟨fun _ => ⟨serial, due, lives, early⟩, fun _ => rfl⟩
    · exact fun _ _ _ => ⟨serial, due, lives, Nat.le_trans early (Nat.le_add_right ..)⟩
  | nearest best =>
    cases best with
    | none =>
      have none : ∀ serial due, ¬Alive world serial due := by
        intro serial due lives
        have there := (alive _).mpr ⟨serial, lives⟩
        rw [show world.manager.deadlines world.memory heap = [] from tells] at there
        cases there
      refine ⟨-1, rfl, iff_of_true ⟨⟨fun _ => none, fun _ => rfl⟩, ⟨by simp, ?_⟩,
        fun other => absurd rfl other⟩ fun serial due lives => absurd lives (none serial due)⟩
      rintro ⟨serial, due, lives, -⟩
      exact absurd lives (none serial due)
    | some best =>
      obtain ⟨ahead, there, least⟩ := tells
      obtain ⟨serial, lives⟩ := (alive _).mp there
      have nearest : ∀ serial due, Alive world serial due → best ≤ due :=
        fun serial due lives => least due ((alive _).mpr ⟨serial, lives⟩)
      refine ⟨_, rfl, ?_, fun near => ?_⟩
      · rintro ⟨silent, now, exact⟩ _ _ _
        have bounded : asInt ((best - world.clock + 999999) / 1000000) < (2 ^ 32 + 1) / 2 :=
          Int.bmod_lt (by decide)
        obtain ⟨time, told, -, serial', due, lives', first, -, close⟩ := exact
          (fun none => silent.mp none serial best lives) (fun zero => by
            obtain ⟨_, due, lives, early⟩ := now.mp zero
            have later := nearest _ due lives
            omega)
        have short : time ≤ 2 ^ 31 - 1 := by omega
        refine ⟨serial', due, lives', Nat.le_trans close (Nat.add_le_add_left ?_ _)⟩
        exact Nat.mul_le_mul_right _ short
      · obtain ⟨serial', due', lives', close⟩ := near serial best lives
        have below := nearest serial' due' lives'
        simp only [Tells, milliseconds] at close ⊢
        have fits : asInt ((best - world.clock + 999999) / 1000000) =
            ((best - world.clock + 999999) / 1000000 : Nat) := by
          apply Int.bmod_eq_of_le <;> omega
        rw [fits]
        refine ⟨⟨by omega, fun none => absurd lives (none serial best)⟩, ⟨by omega, ?_⟩, ?_⟩
        · rintro ⟨serial, due, lives, early⟩
          have later := nearest serial due lives
          omega
        · intro _ _
          exact ⟨_, rfl, by omega, serial, best, lives, nearest, by omega, by omega⟩

/-- Three timers; one has been reset, so that its first entry is stale, and one is destroyed. -/
theorem timeToNext_nearest_sample : ∃ result world,
    timeToNext world world.manager.heap = some result ∧
    world.manager.heap = [⟨8000000, 2, 2⟩, ⟨4000000, 3, 3⟩, ⟨5000000, 2, 2⟩, ⟨9000000, 1, 1⟩] ∧
    Tells world result := by
  obtain ⟨result, found, tells⟩ := timeToNext_nearest (run_of_play [.construct 1 none 9 false,
    .construct 2 none 5 true, .construct 3 none 4 true, .tick 3000000, .reset 2, .destroy 3] rfl)
    (.refl _)
  refine ⟨result, _, found, rfl, tells.mpr ?_⟩
  rintro serial due ⟨address, timer, live, held, rfl, rfl⟩
  refine ⟨_, _, ⟨address, timer, live, held, rfl, rfl⟩, ?_⟩
  rcases mem_cons.mp live with rfl | live
  · cases held
    decide
  cases mem_singleton.mp live
  cases held
  decide

/-- A deadline 2^32 milliseconds ahead: nothing is due, and the time is given as 0. -/
theorem timeToNext_narrowed : ∃ world, Run step (fun _ _ => True) World.start world
      [.constructed 1 4294967296000000] ∧ Alive world 1 4294967296000000 ∧ world.clock = 0 ∧
    timeToNext world world.manager.heap = some 0 :=
  ⟨_, run_of_play [.construct 1 none 4294967296 true] rfl,
    ⟨1, _, by decide, rfl, rfl, rfl⟩, rfl, by decide⟩

end SamuraiFormal.Timers
