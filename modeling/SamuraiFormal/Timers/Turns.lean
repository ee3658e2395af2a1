import Mathlib.Data.Finset.Max
import SamuraiFormal.Timers.Manager

/-!
# The loop of a pass

What a turn of `process()` does, that it is never stuck and has only so many turns, and
with it everything a step of the program can be.
-/

namespace SamuraiFormal.Timers

open List

variable {admits : Nat → Nat → Prop} {world : World} {address : Nat}

variable {place now : Nat} {next : World} {acts : List Act}

theorem mem_without {e : Entry} (there : world.manager.heap[place]? = some e) {other : Entry}
    (among : other ∈ world.manager.heap) :
    other = e ∨ other ∈ (world.without place).manager.heap := by
  obtain ⟨index, within, rfl⟩ := mem_iff_getElem.mp among
  by_cases same : index = place
  · left
    subst same
    rw [getElem?_eq_getElem within] at there
    exact Option.some.inj there
  · right
    exact mem_eraseIdx_iff_getElem.mpr ⟨index, within, same, rfl⟩

theorem mem_of_without {other : Entry} (among : other ∈ (world.without place).manager.heap) :
    other ∈ world.manager.heap :=
  mem_of_mem_eraseIdx among

/-- A stale entry is of no timer as it is now, so its loss is no loss. -/
theorem Sound.without (sound : Sound admits world) {e : Entry}
    (there : world.manager.heap[place]? = some e)
    (stale : ∀ timer, e.timer ∈ world.manager.live → world.memory e.timer = some timer →
      ¬(timer.serial = e.serial ∧ timer.due = e.due)) : Sound admits (world.without place) := by
  refine sound.later rfl ?_ rfl (Nat.le_refl _) sound.started
  intro address live
  obtain ⟨timer, held, entered⟩ := sound.listed address live
  refine ⟨timer, held, ?_⟩
  rcases mem_without there entered with rfl | stays
  · exact absurd ⟨rfl, rfl⟩ (stale timer live held)
  · exact stays

/-- The deadline a timer has once it has fired. -/
def Timer.again (timer : Timer) (now : Nat) : Option Nat :=
  if timer.singleShot then none else some (now + milliseconds timer.interval)

theorem Timer.again_of_repeats {timer : Timer} (repeats : timer.singleShot = false) :
    timer.again now = some (now + milliseconds timer.interval) :=
  if_neg (Bool.eq_false_iff.mp repeats)

/-- The timer that fires is taken out of the live ones or scheduled again. -/
theorem fire_change (sound : Sound admits world) {e : Entry} {timer : Timer}
    (there : world.manager.heap[place]? = some e) (held : world.memory e.timer = some timer)
    (pass : world.phase.pass = some now) :
    Change admits world ((world.without place).internalFire now e.timer timer) e.timer timer.serial
      (some { timer with due := (timer.again now).getD timer.due }) := by
  have stays : ∀ other ∈ world.manager.heap, other.timer ≠ e.timer →
      other ∈ (world.without place).manager.heap := by
    intro other among away
    refine (mem_without there among).resolve_left ?_
    rintro rfl
    exact away rfl
  have inPass : (if timer.callback.isSome then .inside now else .passing now : Phase).pass =
      world.phase.pass := by
    rw [pass]
    split <;> rfl
  rw [World.internalFire, Timer.again]
  split
  · exact
      { memory := by
          rw [World.store, Option.getD_none, ← held, Function.update_eq_self]
          rfl
        counter := Nat.le_refl _
        clock := rfl
        pass := inPass
        live := fun other away => mem_remove.trans ⟨And.left, fun live => ⟨live, away⟩⟩
        mine := mine_of_held held
        others := sound.others held
        well := by
          rintro _ ⟨⟩
          exact ⟨rfl, (sound.timers e.timer timer held).later (Nat.le_refl _) (Nat.le_refl _)⟩
        stays := stays
        comes := fun other among => .inl (mem_of_without among)
        entered := fun live => absurd rfl (mem_remove.mp live).2 }
  · rw [Option.getD_some]
    exact schedule_change sound held (Nat.add_le_add_right (sound.started now pass) _) rfl rfl rfl
        inPass rfl rfl stays (fun _ => mem_of_without)

/-- A timer is live after it has fired exactly if it was and repeats. -/
theorem mem_live_internalFire {e : Entry} {timer : Timer} :
    e.timer ∈ ((world.without place).internalFire now e.timer timer).manager.live ↔
      timer.singleShot = false ∧ e.timer ∈ world.manager.live := by
  rw [World.internalFire]
  split
  case isTrue single => simp [mem_remove, single]
  case isFalse repeats => simp [repeats, TimerManager.schedule, World.without]

theorem fire_effect (sound : Sound admits world) {e : Entry} {timer : Timer}
    (there : world.manager.heap[place]? = some e) (live : e.timer ∈ world.manager.live)
    (held : world.memory e.timer = some timer) (pass : world.phase.pass = some now) :
    Effect admits world ((world.without place).internalFire now e.timer timer)
      (now + milliseconds timer.interval) timer.serial (timer.again now) := by
  apply (fire_change sound there held pass).effect sound
  · rintro _ ⟨⟩ early
    rw [mem_live_internalFire, World.internalFire]
    cases single : timer.singleShot with
    | true =>
      rw [if_pos rfl]
      exact ⟨by simp, fun other among => mem_of_without among⟩
    | false =>
      dsimp only at early
      rw [Timer.again_of_repeats single, Option.getD_some] at early
      exact absurd early (Nat.lt_irrefl _)
  · intro due
    rw [mem_live_internalFire]
    cases single : timer.singleShot with
    | true => simp [Timer.again, single]
    | false =>
      rw [Timer.again_of_repeats single, Option.getD_some, Option.some.injEq]
      constructor
      · rintro ⟨-, _, ⟨⟩, same⟩
        exact same
      · intro same
        exact ⟨⟨rfl, live⟩, _, rfl, same⟩

/-- A turn of the loop passes over a stale entry, or fires a timer from its own entry. -/
inductive Turned (admits : Nat → Nat → Prop) (world : World) (now : Nat) (e : Entry) :
    World → List Act → Prop where
  | skipped {place : Nat} (sound : Sound admits (world.without place)) :
      Turned admits world now e (world.without place) [.skips e]
  | fired {next : World} {timer : Timer} (live : e.timer ∈ world.manager.live)
      (held : world.memory e.timer = some timer) (serial : timer.serial = e.serial)
      (due : timer.due = e.due)
      (effect : Effect admits world next (now + milliseconds timer.interval) e.serial
        (timer.again now)) : Turned admits world now e next [.fires now e timer]

/-- The heap hands out a first entry: it is stale, or it is the entry of its timer. -/
theorem turn_inv (moves : world.turn now place = some (next, acts)) :
    ∃ e, world.manager.heap[place]? = some e ∧
      (∀ other ∈ world.manager.heap, e.due ≤ other.due) ∧ e.due ≤ now ∧
      ((next = world.without place ∧ acts = [.skips e] ∧
          ∀ timer, e.timer ∈ world.manager.live → world.memory e.timer = some timer →
            ¬(timer.serial = e.serial ∧ timer.due = e.due)) ∨
        ∃ timer, e.timer ∈ world.manager.live ∧ world.memory e.timer = some timer ∧
          timer.serial = e.serial ∧ timer.due = e.due ∧
          next = (world.without place).internalFire now e.timer timer ∧
          acts = [.fires now e timer]) := by
  rw [World.turn] at moves
  cases there : world.manager.heap[place]? with
  | none =>
    rw [there] at moves
    cases moves
  | some e =>
    rw [there] at moves
    dsimp only at moves
    split at moves
    case isFalse => cases moves
    case isTrue first =>
      refine ⟨e, rfl, first.1, first.2, ?_⟩
      have read : (world.without place).manager.current (world.without place).memory e =
          world.manager.current world.memory e := rfl
      rw [World.surface, read, TimerManager.current] at moves
      by_cases live : e.timer ∈ world.manager.live
      · rw [if_pos live] at moves
        cases held : world.memory e.timer with
        | none =>
          rw [held] at moves
          cases moves
        | some timer =>
          have held' : (world.without place).memory e.timer = some timer := held
          rw [held, Option.map_some, held'] at moves
          by_cases own : timer.serial = e.serial ∧ timer.due = e.due
          · rw [decide_eq_true own] at moves
            cases moves
            exact .inr ⟨timer, live, rfl, own.1, own.2, rfl, rfl⟩
          rw [decide_eq_false own] at moves
          cases moves
          refine .inl ⟨rfl, rfl, ?_⟩
          rintro _ _ ⟨⟩
          exact own
      · rw [if_neg live] at moves
        cases moves
        exact .inl ⟨rfl, rfl, fun _ again => absurd again live⟩

theorem turn_cases (sound : Sound admits world) (pass : world.phase = .passing now)
    (moves : world.turn now place = some (next, acts)) :
    ∃ e ∈ world.manager.heap, (∀ other ∈ world.manager.heap, e.due ≤ other.due) ∧ e.due ≤ now ∧
      Turned admits world now e next acts := by
  obtain ⟨e, there, least, early, turned⟩ := turn_inv moves
  refine ⟨e, mem_of_getElem? there, least, early, ?_⟩
  rcases turned with ⟨rfl, rfl, stale⟩ | ⟨timer, live, held, serial, due, rfl, rfl⟩
  · exact .skipped (sound.without there stale)
  have inPass : world.phase.pass = some now := by rw [pass]; rfl
  exact .fired live held serial due (serial ▸ fire_effect sound there live held inPass)

/-- An entry that comes up is judged: a live address has its timer. -/
theorem surface_some (listed : Listed world) (place now : Nat) (e : Entry) :
    ∃ result, (world.without place).surface now e = some result := by
  have read : (world.without place).manager.current (world.without place).memory e =
      world.manager.current world.memory e := rfl
  rw [World.surface, read, TimerManager.current]
  by_cases live : e.timer ∈ world.manager.live
  · obtain ⟨timer, held, -⟩ := listed e.timer live
    have held' : (world.without place).memory e.timer = some timer := held
    rw [if_pos live, held, Option.map_some, held']
    cases decide (timer.serial = e.serial ∧ timer.due = e.due) with
    | false | true => exact ⟨_, rfl⟩
  · rw [if_neg live]
    exact ⟨_, rfl⟩

/-- The loop always finds its next turn or its end. -/
theorem turn_or_leave (listed : Listed world) (pass : world.phase = .passing now) :
    (∃ result, step world .leave = some result) ∨
      ∃ place result, step world (.turn place) = some result := by
  simp only [step, pass]
  by_cases later : ∀ e ∈ world.manager.heap, now < e.due
  · exact .inl ⟨_, if_pos later⟩
  right
  push Not at later
  obtain ⟨e, among, due⟩ := later
  obtain ⟨first, there, least⟩ := Finset.exists_min_image world.manager.heap.toFinset Entry.due
    ⟨e, mem_toFinset.mpr among⟩
  obtain ⟨place, found⟩ := mem_iff_getElem?.mp (mem_toFinset.mp there)
  have least' : ∀ other ∈ world.manager.heap, first.due ≤ other.due :=
    fun other among => least other (mem_toFinset.mpr among)
  obtain ⟨result, judged⟩ := surface_some listed place now first
  refine ⟨place, result, ?_⟩
  rw [World.turn, found]
  dsimp only
  rw [if_pos ⟨least', Nat.le_trans (least' e among) due⟩]
  exact judged

/-- The entries a pass still has to take up. -/
def dueCount (world : World) (now : Nat) : Nat := world.manager.heap.countP (·.due ≤ now)

theorem dueCount_later {due : Nat} (later : now < due) (address serial : Nat) (heap : List Entry) :
    (⟨due, address, serial⟩ :: heap : List Entry).countP (·.due ≤ now) =
      heap.countP (·.due ≤ now) :=
  countP_cons_of_neg (by simpa using later)

/-- Live timers that repeat have a positive interval. -/
def Rearms (world : World) : Prop :=
  ∀ address timer, address ∈ world.manager.live → world.memory address = some timer →
    timer.singleShot = false → 0 < timer.interval

/-- Every turn takes up one of the due entries, and puts none back. -/
theorem turn_dueCount (rearms : Rearms world) (moves : world.turn now place = some (next, acts)) :
    dueCount next now < dueCount world now := by
  obtain ⟨e, there, -, early, turned⟩ := turn_inv moves
  have fewer : dueCount (world.without place) now < dueCount world now := by
    obtain ⟨within, rfl⟩ := List.getElem?_eq_some_iff.mp there
    have split := (getElem_cons_eraseIdx_perm within).countP_eq (·.due ≤ now)
    rw [countP_cons_of_pos (by simpa using early)] at split
    rw [dueCount, dueCount, ← split]
    exact Nat.lt_succ_self _
  refine Nat.lt_of_le_of_lt (Nat.le_of_eq ?_) fewer
  rcases turned with ⟨rfl, -, -⟩ | ⟨timer, live, held, -, -, rfl, -⟩
  · rfl
  rw [World.internalFire]
  split
  · rfl
  case isFalse repeats =>
    have positive := rearms e.timer timer live held (Bool.eq_false_iff.mpr repeats)
    exact dueCount_later (lt_add_milliseconds now positive) ..

/-- Everything a step can be. -/
inductive Stepped (admits : Nat → Nat → Prop) (world : World) : World → List Act → Prop where
  | ticked (elapsed : Nat) : Stepped admits world { world with clock := world.clock + elapsed } []
  | returned {now : Nat} (pass : world.phase = .inside now) :
      Stepped admits world { world with phase := .passing now } []
  | constructed {address timeout : Nat} (callback : Option Nat) (singleShot : Bool)
      (free : world.memory address = none) (admitted : admits (world.counter + 1) timeout) :
      Stepped admits world (world.construct address callback timeout singleShot).1
        [.constructed (world.counter + 1) (world.clock + milliseconds timeout)]
  | destroyed {address : Nat} {timer : Timer} (held : world.memory address = some timer) :
      Stepped admits world (world.destroy address timer).1 [.destroyed timer.serial]
  | reset {address : Nat} {timer : Timer} (held : world.memory address = some timer) :
      Stepped admits world (world.reset address timer).1
        [.reset timer.serial (world.clock + milliseconds timer.interval)]
  | began (idle : world.phase = .idle) :
      Stepped admits world { world with phase := .passing world.clock } [.begins world.clock]
  | turned {now place : Nat} {next : World} {acts : List Act} (pass : world.phase = .passing now)
      (moves : world.turn now place = some (next, acts)) : Stepped admits world next acts
  | ended {now : Nat} (pass : world.phase = .passing now)
      (later : ∀ e ∈ world.manager.heap, now < e.due) :
      Stepped admits world { world with phase := .idle } [.ends now]

theorem step_cases {label : Label}
    (admitted : ∀ address callback timeout singleShot,
      label = .construct address callback timeout singleShot → admits (world.counter + 1) timeout)
    (moves : step world label = some (next, acts)) : Stepped admits world next acts := by
  cases label with
  | tick elapsed =>
    cases moves
    exact .ticked elapsed
  | construct address callback timeout singleShot =>
    rw [step] at moves
    split at moves
    · cases moves
    · cases moves
    case h_3 free _ =>
      cases moves
      exact .constructed callback singleShot free (admitted _ _ _ _ rfl)
  | destroy address =>
    rw [step] at moves
    split at moves
    · cases moves
    · cases moves
    case h_3 held _ =>
      cases moves
      exact .destroyed held
  | reset address =>
    rw [step] at moves
    split at moves
    · cases moves
    · cases moves
    case h_3 held _ =>
      cases moves
      exact .reset held
  | process =>
    rw [step] at moves
    split at moves
    case h_1 idle =>
      cases moves
      exact .began idle
    · cases moves
  | turn place =>
    rw [step] at moves
    split at moves
    case h_1 pass => exact .turned pass moves
    · cases moves
  | leave =>
    rw [step] at moves
    split at moves
    case h_1 now pass =>
      split at moves
      case isTrue later =>
        cases moves
        exact .ended pass later
      case isFalse => cases moves
    · cases moves
  | returns =>
    rw [step] at moves
    split at moves
    case h_1 pass =>
      cases moves
      exact .returned pass
    · cases moves

/-- Every timer has a positive interval. -/
def Positive (_ interval : Nat) : Prop := 0 < interval

theorem Sound.rearms (sound : Sound Positive world) : Rearms world :=
  fun address timer _ held _ => (sound.timers address timer held).admitted

/-- Nothing but the time or the place of control changes. -/
theorem Sound.idle (sound : Sound admits world) {next : World} (memory : next.memory = world.memory)
    (manager : next.manager = world.manager) (counter : next.counter = world.counter)
    (clock : world.clock ≤ next.clock)
    (started : ∀ now, next.phase.pass = some now → now ≤ next.clock) : Sound admits next := by
  refine sound.later memory ?_ counter clock started
  rw [Listed, memory, manager]
  exact sound.listed

theorem Stepped.sound (stepped : Stepped admits world next acts) (sound : Sound admits world) :
    Sound admits next := by
  cases stepped with
  | ticked elapsed =>
    refine sound.idle rfl rfl rfl (Nat.le_add_right ..) fun now pass => ?_
    exact Nat.le_trans (sound.started now pass) (Nat.le_add_right ..)
  | returned pass =>
    exact sound.idle rfl rfl rfl (Nat.le_refl _) fun now same =>
      sound.started now (by rw [pass]; exact same)
  | constructed callback singleShot free admitted =>
    exact (construct_effect sound free callback singleShot admitted).sound
  | destroyed held => exact (destroy_effect sound held 0).sound
  | reset held => exact (reset_effect sound held).sound
  | began =>
    refine sound.idle rfl rfl rfl (Nat.le_refl _) fun _ same => ?_
    cases same
    exact Nat.le_refl _
  | turned pass moves =>
    obtain ⟨e, -, -, -, turned⟩ := turn_cases sound pass moves
    cases turned with
    | skipped sound => exact sound
    | fired _ _ _ _ effect => exact effect.sound
  | ended => exact sound.idle rfl rfl rfl (Nat.le_refl _) nofun

theorem start_sound (admits : Nat → Nat → Prop) : Sound admits World.start :=
  ⟨nofun, nofun, nofun, nofun⟩

/-- Whatever the intervals are. -/
theorem run_sound {allowed : World → Label → Prop} {trace : List Act}
    (run : Library.Traces.Run step allowed World.start world trace) :
    Sound (fun _ _ => True) world :=
  run.invariant (fun world _ => Sound (fun _ _ => True) world) (start_sound _)
    fun _ sound _ moves => (step_cases (fun _ _ _ _ _ => trivial) moves).sound sound

/-- What happens in the callbacks of a pass gives it nothing more to do. -/
theorem Stepped.dueCount_le (stepped : Stepped Positive world next acts)
    (sound : Sound Positive world) (pass : world.phase.pass = some now) :
    dueCount next now ≤ dueCount world now := by
  have started := sound.started now pass
  cases stepped with
  | ticked elapsed | returned => exact Nat.le_refl _
  | constructed callback singleShot free positive =>
    have later := lt_add_milliseconds world.clock positive
    exact Nat.le_of_eq (dueCount_later (Nat.lt_of_le_of_lt started later) ..)
  | destroyed held => exact Nat.le_refl _
  | @reset address timer held =>
    have later := lt_add_milliseconds world.clock (sound.timers address timer held).admitted
    exact Nat.le_of_eq (dueCount_later (Nat.lt_of_le_of_lt started later) ..)
  | began idle => exact Nat.le_refl _
  | @turned now' place next acts pass' moves =>
    rw [pass'] at pass
    cases pass
    exact Nat.le_of_lt (turn_dueCount sound.rearms moves)
  | ended => exact Nat.le_refl _

end SamuraiFormal.Timers
