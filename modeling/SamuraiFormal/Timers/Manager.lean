import Mathlib.Logic.Function.Basic
import SamuraiFormal.Library.Traces

/-!
# Timers and their manager

`Timer` and `TimerManager`: a heap of deadlines that is never searched.  An entry stays in
it when its timer is reset or destroyed, and is recognised as stale when it comes up.

Timers are named by their addresses, which are used again.  The heap functions of the
standard library promise that the entry handed out has the least deadline; which of several
such entries it is stays open.  Time is counted in nanoseconds and serial numbers are not
taken to run out.
-/

namespace SamuraiFormal.Timers

open List

structure Timer where
  callback : Option Nat
  singleShot : Bool
  /-- Milliseconds. -/
  interval : Nat
  due : Nat
  serial : Nat
  deriving DecidableEq, Repr

/-- Milliseconds on the clock. -/
def milliseconds (count : Nat) : Nat := count * 1000000

structure Entry where
  due : Nat
  timer : Nat
  serial : Nat
  deriving DecidableEq, Repr

/-- `unordered_set` is a list in which an address stands or does not stand. -/
structure TimerManager where
  heap : List Entry
  live : List Nat
  deriving DecidableEq, Repr

namespace TimerManager

def schedule (manager : TimerManager) (address : Nat) (timer : Timer) : TimerManager :=
  { manager with heap := ⟨timer.due, address, timer.serial⟩ :: manager.heap }

def add (manager : TimerManager) (address : Nat) (timer : Timer) : TimerManager :=
  schedule { manager with live := address :: manager.live } address timer

def remove (manager : TimerManager) (address : Nat) : TimerManager :=
  { manager with live := manager.live.filter (· ≠ address) }

/-- `current()`; nothing where the timer of a live address has gone. -/
def current (manager : TimerManager) (memory : Nat → Option Timer) (e : Entry) : Option Bool :=
  if e.timer ∈ manager.live then
    (memory e.timer).map fun timer => decide (timer.serial = e.serial ∧ timer.due = e.due)
  else some false

end TimerManager

/-! ## The program -/

/-- Where control is: outside, in the loop of `process()`, or in a callback made by it. -/
inductive Phase where
  | idle
  | passing (now : Nat)
  | inside (now : Nat)
  deriving DecidableEq, Repr

/-- The time read at the start of the pass. -/
def Phase.pass : Phase → Option Nat
  | .idle => none
  | .passing now | .inside now => some now

structure World where
  memory : Nat → Option Timer
  /-- The last serial number handed out. -/
  counter : Nat
  clock : Nat
  manager : TimerManager
  phase : Phase

def World.start : World := ⟨fun _ => none, 0, 0, ⟨[], []⟩, .idle⟩

inductive Act where
  | constructed (serial due : Nat)
  | destroyed (serial : Nat)
  | reset (serial due : Nat)
  | begins (now : Nat)
  | skips (e : Entry)
  | fires (now : Nat) (e : Entry) (timer : Timer)
  | ends (now : Nat)
  deriving DecidableEq, Repr

inductive Label where
  | tick (elapsed : Nat)
  | construct (address : Nat) (callback : Option Nat) (timeout : Nat) (singleShot : Bool)
  | destroy (address : Nat)
  | reset (address : Nat)
  | process
  /-- A turn of the loop, with the place of the entry the heap hands out. -/
  | turn (place : Nat)
  | leave
  | returns
  deriving DecidableEq, Repr

namespace World

def store (world : World) (address : Nat) (timer : Option Timer) : Nat → Option Timer :=
  Function.update world.memory address timer

def construct (world : World) (address : Nat) (callback : Option Nat) (timeout : Nat)
    (singleShot : Bool) : World × List Act :=
  let timer : Timer :=
    { callback, singleShot, interval := timeout, due := world.clock + milliseconds timeout,
      serial := world.counter + 1 }
  ({ world with
      memory := world.store address (some timer)
      counter := world.counter + 1
      manager := world.manager.add address timer },
    [.constructed timer.serial timer.due])

def destroy (world : World) (address : Nat) (timer : Timer) : World × List Act :=
  ({ world with
      memory := world.store address none
      manager := world.manager.remove address },
    [.destroyed timer.serial])

def reset (world : World) (address : Nat) (timer : Timer) : World × List Act :=
  let timer := { timer with due := world.clock + milliseconds timer.interval }
  ({ world with
      memory := world.store address (some timer)
      manager := world.manager.schedule address timer },
    [.reset timer.serial timer.due])

/-- `internal_fire()`: what is done before the callback, which is then entered. -/
def internalFire (world : World) (now address : Nat) (timer : Timer) : World :=
  let phase := if timer.callback.isSome then .inside now else .passing now
  if timer.singleShot then
    { world with manager := world.manager.remove address, phase := phase }
  else
    let timer := { timer with due := now + milliseconds timer.interval }
    { world with
      memory := world.store address (some timer)
      manager := world.manager.schedule address timer
      phase := phase }

/-- A turn of the loop of `process()`, once the heap has handed out an entry. -/
def surface (world : World) (now : Nat) (e : Entry) : Option (World × List Act) :=
  match world.manager.current world.memory e with
  | none => none
  | some false => some (world, [.skips e])
  | some true =>
    match world.memory e.timer with
    | none => none
    | some timer => some (world.internalFire now e.timer timer, [.fires now e timer])

/-- The heap without the entry at a place. -/
def without (world : World) (place : Nat) : World :=
  { world with manager := { world.manager with heap := world.manager.heap.eraseIdx place } }

def turn (world : World) (now place : Nat) : Option (World × List Act) :=
  match world.manager.heap[place]? with
  | none => none
  | some e =>
    if (∀ other ∈ world.manager.heap, e.due ≤ other.due) ∧ e.due ≤ now then
      (world.without place).surface now e
    else none

end World

/-- Timers are handled outside a pass and in its callbacks. -/
def step (world : World) : Label → Option (World × List Act)
  | .tick elapsed => some ({ world with clock := world.clock + elapsed }, [])
  | .construct address callback timeout singleShot =>
    match world.phase, world.memory address with
    | .passing _, _ => none
    | _, some _ => none
    | _, none => some (world.construct address callback timeout singleShot)
  | .destroy address =>
    match world.phase, world.memory address with
    | .passing _, _ => none
    | _, none => none
    | _, some timer => some (world.destroy address timer)
  | .reset address =>
    match world.phase, world.memory address with
    | .passing _, _ => none
    | _, none => none
    | _, some timer => some (world.reset address timer)
  | .process =>
    match world.phase with
    | .idle => some ({ world with phase := .passing world.clock }, [.begins world.clock])
    | _ => none
  | .turn place =>
    match world.phase with
    | .passing now => world.turn now place
    | _ => none
  | .leave =>
    match world.phase with
    | .passing now =>
      if ∀ e ∈ world.manager.heap, now < e.due then
        some ({ world with phase := .idle }, [.ends now])
      else none
    | _ => none
  | .returns =>
    match world.phase with
    | .inside now => some ({ world with phase := .passing now }, [])
    | _ => none

/-- Intervals are positive. -/
def Proper (_ : World) : Label → Prop
  | .construct _ _ timeout _ => 0 < timeout
  | _ => True

instance (world : World) : (label : Label) → Decidable (Proper world label)
  | .construct _ _ timeout _ => inferInstanceAs (Decidable (0 < timeout))
  | .tick _ | .destroy _ | .reset _ | .process | .turn _ | .leave | .returns =>
    inferInstanceAs (Decidable True)

/-- The timer with this serial number is live and has this deadline. -/
def Alive (world : World) (serial due : Nat) : Prop :=
  ∃ address timer, address ∈ world.manager.live ∧ world.memory address = some timer ∧
    timer.serial = serial ∧ timer.due = due

/-- Every live timer has its entry. -/
def Listed (world : World) : Prop :=
  ∀ address ∈ world.manager.live, ∃ timer, world.memory address = some timer ∧
    ⟨timer.due, address, timer.serial⟩ ∈ world.manager.heap

/-- A timer has a serial number that was handed out, an interval that is admitted for it, and a
deadline no further ahead than that. -/
structure Timer.Fits (admits : Nat → Nat → Prop) (world : World) (timer : Timer) : Prop where
  numbered : timer.serial ≤ world.counter
  admitted : admits timer.serial timer.interval
  near : timer.due ≤ world.clock + milliseconds timer.interval

/-- Runs are looked at under different conditions on the intervals of the timers. -/
structure Sound (admits : Nat → Nat → Prop) (world : World) : Prop where
  listed : Listed world
  timers : ∀ address timer, world.memory address = some timer → timer.Fits admits world
  distinct : ∀ first second timer other, world.memory first = some timer →
    world.memory second = some other → timer.serial = other.serial → first = second
  started : ∀ now, world.phase.pass = some now → now ≤ world.clock

/-- One address gets another content; the entries of the others stay. -/
structure Change (admits : Nat → Nat → Prop) (before after : World) (address serial : Nat)
    (content : Option Timer) : Prop where
  memory : after.memory = before.store address content
  counter : before.counter ≤ after.counter
  clock : after.clock = before.clock
  pass : after.phase.pass = before.phase.pass
  live : ∀ other, other ≠ address → (other ∈ after.manager.live ↔ other ∈ before.manager.live)
  mine : ∀ timer, before.memory address = some timer → timer.serial = serial
  others : ∀ other timer, other ≠ address → before.memory other = some timer →
    timer.serial ≠ serial
  well : ∀ timer, content = some timer → timer.serial = serial ∧ timer.Fits admits after
  stays : ∀ e ∈ before.manager.heap, e.timer ≠ address → e ∈ after.manager.heap
  comes : ∀ e ∈ after.manager.heap, e ∈ before.manager.heap ∨
    ∃ timer, content = some timer ∧ e.due = timer.due
  entered : address ∈ after.manager.live →
    ∃ timer, content = some timer ∧ ⟨timer.due, address, timer.serial⟩ ∈ after.manager.heap

variable {admits : Nat → Nat → Prop} {before after world : World} {address serial : Nat}
  {content : Option Timer} {timer : Timer}

theorem Timer.Fits.later (fits : timer.Fits admits before)
    (counter : before.counter ≤ after.counter)
    (clock : before.clock ≤ after.clock) : timer.Fits admits after :=
  ⟨Nat.le_trans fits.numbered counter, fits.admitted,
    Nat.le_trans fits.near (Nat.add_le_add_right clock _)⟩

/-- The timers are as they were; the time may be later. -/
theorem Sound.later (sound : Sound admits before) (memory : after.memory = before.memory)
    (listed : Listed after) (counter : after.counter = before.counter)
    (clock : before.clock ≤ after.clock)
    (started : ∀ now, after.phase.pass = some now → now ≤ after.clock) : Sound admits after where
  listed := listed
  timers := fun address timer held =>
    (sound.timers address timer (memory ▸ held)).later (Nat.le_of_eq counter.symm) clock
  distinct := memory ▸ sound.distinct
  started := started

theorem Change.here (change : Change admits before after address serial content) :
    after.memory address = content := by
  rw [change.memory]
  exact Function.update_self ..

theorem Change.elsewhere (change : Change admits before after address serial content) {other : Nat}
    (away : other ≠ address) : after.memory other = before.memory other := by
  rw [change.memory]
  exact Function.update_of_ne away ..

theorem Sound.change (sound : Sound admits before)
    (change : Change admits before after address serial content) : Sound admits after where
  listed := by
    intro other there
    by_cases away : other = address
    · subst away
      obtain ⟨timer, held, entered⟩ := change.entered there
      exact ⟨timer, change.here.trans held, entered⟩
    · obtain ⟨timer, held, entered⟩ := sound.listed other ((change.live other away).mp there)
      exact ⟨timer, (change.elsewhere away).trans held, change.stays _ entered away⟩
  timers := by
    intro other timer held
    by_cases away : other = address
    · subst away
      exact (change.well timer (change.here.symm.trans held)).2
    · exact (sound.timers other timer ((change.elsewhere away).symm.trans held)).later
        change.counter (Nat.le_of_eq change.clock.symm)
  distinct := by
    -- the changed address has a serial number of its own
    have apart : ∀ other timer mine, other ≠ address → after.memory other = some timer →
        content = some mine → timer.serial ≠ mine.serial := by
      intro other timer mine away held held'
      rw [(change.well mine held').1]
      exact change.others other timer away ((change.elsewhere away).symm.trans held)
    intro first second timer other held held' same
    by_cases here : first = address <;> by_cases here' : second = address
    · rw [here, here']
    · subst here
      exact absurd same.symm (apart second other timer here' held' (change.here.symm.trans held))
    · subst here'
      exact absurd same (apart first timer other here held (change.here.symm.trans held'))
    · exact sound.distinct first second timer other ((change.elsewhere here).symm.trans held)
        ((change.elsewhere here').symm.trans held') same
  started := by
    rw [change.pass, change.clock]
    exact sound.started

/-- The other timers are as live as before. -/
theorem Change.alive_other (change : Change admits before after address serial content)
    {other due : Nat} (apart : other ≠ serial) :
    Alive after other due ↔ Alive before other due := by
  constructor
  · rintro ⟨place, timer, live, held, number, deadline⟩
    have away : place ≠ address := by
      rintro rfl
      have own := (change.well timer (change.here.symm.trans held)).1
      exact apart (number.symm.trans own)
    exact ⟨place, timer, (change.live place away).mp live, (change.elsewhere away).symm.trans held,
      number, deadline⟩
  · rintro ⟨place, timer, live, held, number, deadline⟩
    have away : place ≠ address := by
      rintro rfl
      exact apart (number.symm.trans (change.mine timer held))
    exact ⟨place, timer, (change.live place away).mpr live, (change.elsewhere away).trans held,
      number, deadline⟩

/-- The changed timer is live with the deadline it was given, if at all. -/
theorem Change.alive_self (change : Change admits before after address serial content) {due : Nat} :
    Alive after serial due ↔
      address ∈ after.manager.live ∧ ∃ timer, content = some timer ∧ timer.due = due := by
  constructor
  · rintro ⟨place, timer, live, held, number, deadline⟩
    by_cases away : place = address
    · subst away
      exact ⟨live, timer, change.here.symm.trans held, deadline⟩
    · exact absurd number (change.others place timer away ((change.elsewhere away).symm.trans held))
  · rintro ⟨live, timer, held, deadline⟩
    exact ⟨address, timer, live, change.here.trans held, (change.well timer held).1, deadline⟩

theorem mem_remove {manager : TimerManager} {other : Nat} :
    other ∈ (manager.remove address).live ↔ other ∈ manager.live ∧ other ≠ address := by
  simp [TimerManager.remove]

theorem Sound.others (sound : Sound admits world) (held : world.memory address = some timer)
    (other : Nat) (timer' : Timer) (away : other ≠ address)
    (held' : world.memory other = some timer') : timer'.serial ≠ timer.serial :=
  fun same => away (sound.distinct other address timer' timer held' held same)

theorem mine_of_held (held : world.memory address = some timer) (other : Timer)
    (held' : world.memory address = some other) : other.serial = timer.serial := by
  rw [held] at held'
  cases held'
  rfl

theorem lt_add_milliseconds {interval : Nat} (clock : Nat) (positive : 0 < interval) :
    clock < clock + milliseconds interval := by
  rw [milliseconds]
  omega

theorem construct_change (sound : Sound admits world) (free : world.memory address = none)
    (callback : Option Nat) {timeout : Nat} (singleShot : Bool)
    (admitted : admits (world.counter + 1) timeout) :
    ∃ timer, timer.due = world.clock + milliseconds timeout ∧
      Change admits world (world.construct address callback timeout singleShot).1 address
        (world.counter + 1) (some timer) := by
  refine ⟨_, rfl, rfl, Nat.le_succ _, rfl, rfl, ?_, ?_, ?_, ?_, ?_, ?_, ?_⟩
  · intro other away
    exact ⟨fun live => (mem_cons.mp live).resolve_left away, mem_cons_of_mem _⟩
  · intro timer held
    rw [free] at held
    cases held
  · intro other timer away held same
    have numbered := (sound.timers other timer held).numbered
    omega
  · rintro _ ⟨⟩
    exact ⟨rfl, Nat.le_refl _, admitted, Nat.le_refl _⟩
  · exact fun e among _ => mem_cons_of_mem _ among
  · intro e among
    rcases mem_cons.mp among with rfl | there
    · exact .inr ⟨_, rfl, rfl⟩
    · exact .inl there
  · exact fun _ => ⟨_, rfl, mem_cons_self⟩

theorem destroy_change (sound : Sound admits world) (held : world.memory address = some timer) :
    Change admits world (world.destroy address timer).1 address timer.serial none where
  memory := rfl
  counter := Nat.le_refl _
  clock := rfl
  pass := rfl
  live := by
    intro other away
    exact mem_remove.trans ⟨And.left, fun live => ⟨live, away⟩⟩
  mine := mine_of_held held
  others := sound.others held
  well := nofun
  stays := fun e among _ => among
  comes := fun e among => .inl among
  entered := fun live => absurd rfl (mem_remove.mp live).2

/-- A timer that is scheduled anew, from a heap that may have lost entries of its own. -/
theorem schedule_change (sound : Sound admits before) (held : before.memory address = some timer)
    {due : Nat} (near : due ≤ before.clock + milliseconds timer.interval)
    (memory : after.memory = before.store address (some { timer with due := due }))
    (counter : after.counter = before.counter) (clock : after.clock = before.clock)
    (pass : after.phase.pass = before.phase.pass)
    (live : after.manager.live = before.manager.live) {heap : List Entry}
    (pushed : after.manager.heap = ⟨due, address, timer.serial⟩ :: heap)
    (stays : ∀ e ∈ before.manager.heap, e.timer ≠ address → e ∈ heap)
    (fewer : ∀ e ∈ heap, e ∈ before.manager.heap) :
    Change admits before after address timer.serial (some { timer with due := due }) where
  memory := memory
  counter := Nat.le_of_eq counter.symm
  clock := clock
  pass := pass
  live := by
    intro other _
    rw [live]
  mine := mine_of_held held
  others := sound.others held
  well := by
    rintro _ ⟨⟩
    have fits := sound.timers address timer held
    exact ⟨rfl, counter ▸ fits.numbered, fits.admitted, clock ▸ near⟩
  stays := by
    intro e among away
    rw [pushed]
    exact mem_cons_of_mem _ (stays e among away)
  comes := by
    intro e among
    rw [pushed] at among
    rcases mem_cons.mp among with rfl | there
    · exact .inr ⟨_, rfl, rfl⟩
    · exact .inl (fewer e there)
  entered := by
    intro _
    rw [pushed]
    exact ⟨_, rfl, mem_cons_self⟩

theorem reset_change (sound : Sound admits world) (held : world.memory address = some timer) :
    Change admits world (world.reset address timer).1 address timer.serial
      (some { timer with due := world.clock + milliseconds timer.interval }) :=
  schedule_change sound held (Nat.le_refl _) rfl rfl rfl rfl rfl rfl (fun _ among _ => among)
    (fun _ among => among)

/-- One timer gets a deadline not earlier than `floor` or none; the others keep theirs. -/
structure Effect (admits : Nat → Nat → Prop) (before after : World) (floor serial : Nat)
    (deadline : Option Nat) : Prop where
  sound : Sound admits after
  self : ∀ due, Alive after serial due ↔ deadline = some due
  other : ∀ other due, other ≠ serial → (Alive after other due ↔ Alive before other due)
  later : ∀ due, deadline = some due → floor ≤ due
  heap : ∀ e ∈ after.manager.heap, e ∈ before.manager.heap ∨ floor ≤ e.due
  counter : before.counter ≤ after.counter
  clock : after.clock = before.clock
  pass : after.phase.pass = before.phase.pass

/-- A change is an effect where the deadline of the content lies ahead. -/
theorem Change.effect (change : Change admits before after address serial content)
    (sound : Sound admits before) {floor : Nat} {deadline : Option Nat}
    (ahead : ∀ timer, content = some timer → timer.due < floor →
      address ∉ after.manager.live ∧ ∀ e ∈ after.manager.heap, e ∈ before.manager.heap)
    (self : ∀ due,
      (address ∈ after.manager.live ∧ ∃ timer, content = some timer ∧ timer.due = due) ↔
        deadline = some due) : Effect admits before after floor serial deadline where
  sound := sound.change change
  self := fun due => change.alive_self.trans (self due)
  other := fun other due apart => change.alive_other apart
  later := by
    intro due given
    obtain ⟨live, timer, held, rfl⟩ := (self due).mpr given
    exact Nat.le_of_not_lt fun early => (ahead timer held early).1 live
  heap := by
    intro e among
    rcases change.comes e among with there | ⟨timer, held, due⟩
    · exact .inl there
    by_cases early : timer.due < floor
    · exact .inl ((ahead timer held early).2 e among)
    · exact .inr (by omega)
  counter := change.counter
  clock := change.clock
  pass := change.pass

variable (sound : Sound admits world)
include sound

theorem construct_effect (free : world.memory address = none) (callback : Option Nat)
    {timeout : Nat} (singleShot : Bool) (admitted : admits (world.counter + 1) timeout) :
    Effect admits world (world.construct address callback timeout singleShot).1
      (world.clock + milliseconds timeout) (world.counter + 1)
      (some (world.clock + milliseconds timeout)) := by
  obtain ⟨timer, due, change⟩ := construct_change sound free callback singleShot admitted
  apply change.effect sound
  · rintro _ ⟨⟩ early
    omega
  · intro deadline
    rw [Option.some.injEq, ← due]
    constructor
    · rintro ⟨-, _, ⟨⟩, same⟩
      exact same
    · intro same
      exact ⟨mem_cons_self, timer, rfl, same⟩

theorem destroy_effect (held : world.memory address = some timer) (floor : Nat) :
    Effect admits world (world.destroy address timer).1 floor timer.serial none := by
  apply (destroy_change sound held).effect sound
  · nofun
  · intro due
    constructor
    · rintro ⟨-, _, ⟨⟩, -⟩
    · nofun

/-- A timer that is not live has no deadline, and a reset does not give it one. -/
theorem reset_effect (held : world.memory address = some timer) :
    Effect admits world (world.reset address timer).1
      (world.clock + milliseconds timer.interval) timer.serial
      (if address ∈ world.manager.live then some (world.clock + milliseconds timer.interval)
      else none) := by
  apply (reset_change sound held).effect sound
  · rintro _ ⟨⟩ early
    exact absurd early (Nat.lt_irrefl _)
  · intro due
    by_cases live : address ∈ world.manager.live
    · rw [if_pos live, Option.some.injEq]
      constructor
      · rintro ⟨-, _, ⟨⟩, same⟩
        exact same
      · intro same
        exact ⟨live, _, rfl, same⟩
    · rw [if_neg live]
      constructor
      · rintro ⟨there, -⟩
        exact absurd there live
      · nofun

/-- An address is live exactly if its timer is. -/
theorem Sound.live_iff (held : world.memory address = some timer) :
    address ∈ world.manager.live ↔ Alive world timer.serial timer.due := by
  constructor
  · exact fun live => ⟨address, timer, live, held, rfl, rfl⟩
  · rintro ⟨place, other, live, held', same, -⟩
    rwa [← sound.distinct place address other timer held' held same]

theorem Sound.alive_due (held : world.memory address = some timer) {due : Nat}
    (alive : Alive world timer.serial due) : timer.due = due := by
  obtain ⟨place, other, live, held', same, rfl⟩ := alive
  have here := sound.distinct place address other timer held' held same
  rw [here, held] at held'
  cases held'
  rfl

end SamuraiFormal.Timers
