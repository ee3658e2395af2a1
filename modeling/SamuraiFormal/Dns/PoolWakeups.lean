import SamuraiFormal.Dns.PoolMoves

/-!
# Who looks at the queue

While requests are queued and the pool is not stopping, some worker is still in its loop,
or the scheduler has a wake-up outstanding.  A worker leaves its loop under the lock and
stores its flag later, and the headcount of the scheduler counts it until then: a pass in
between finds an idle worker where there is none and spends the wake-up on nothing.  The
property holds in every run without such a pass, and no request stays queued in the fair
ones.
-/

namespace SamuraiFormal.Dns

open Library.Traces
open Library.Fairness
open List

/-- Some worker has not left its loop. -/
def Attended (workers : List Worker) : Prop := ∃ worker ∈ workers, worker.inLoop = true

instance (workers : List Worker) : Decidable (Attended workers) :=
  inferInstanceAs (Decidable (∃ worker ∈ workers, worker.inLoop = true))

variable {index : Nat} {old new : Worker} {pool : Pool}

variable {workers : List Worker}

theorem attended_set (found : workers[index]? = some old) (inLoop : new.inLoop = true) :
    Attended (workers.set index new) := by
  obtain ⟨inside, -⟩ := List.getElem?_eq_some_iff.mp found
  exact ⟨new, mem_set inside new, inLoop⟩

/-- A worker outside its loop may change without the others noticing. -/
theorem Attended.set (attended : Attended workers) (found : workers[index]? = some old)
    (outside : old.inLoop = false) : Attended (workers.set index new) := by
  obtain ⟨worker, member, inLoop⟩ := attended
  obtain ⟨place, bound, rfl⟩ := getElem_of_mem member
  have apart : index ≠ place := by
    rintro rfl
    rw [getElem?_eq_getElem bound] at found
    cases found
    rw [outside] at inLoop
    cases inLoop
  refine ⟨_, mem_iff_getElem?.mpr ⟨place, ?_⟩, inLoop⟩
  rw [getElem?_set_ne apart, getElem?_eq_getElem bound]

/-- The new worker is in its loop, and nobody else has moved. -/
theorem startWorker_spec (workers : List Worker) :
    (∃ slot, workers[slot]? = some .finished ∧
      Pool.startWorker workers = workers.set slot .awake) ∨
      Pool.startWorker workers = workers ++ [.awake] := by
  unfold Pool.startWorker
  split
  · rename_i slot found
    refine .inl ⟨slot, ?_, rfl⟩
    obtain ⟨inside, finished, -⟩ := findIdx?_eq_some_iff_getElem.mp found
    rw [getElem?_eq_getElem inside]
    generalize workers[slot] = worker at finished
    cases worker <;> first | rfl | cases finished
  · exact .inr rfl

theorem attended_startWorker (workers : List Worker) : Attended (Pool.startWorker workers) := by
  rcases startWorker_spec workers with ⟨slot, found, same⟩ | same
  · rw [same]
    exact attended_set found rfl
  · rw [same]
    exact ⟨.awake, mem_append_right _ (mem_singleton.mpr rfl), rfl⟩

/-- With nobody in the loop and no flag left to store, nobody is live. -/
theorem live_eq_zero (none : ¬ Attended pool.workers) (stored : Worker.left ∉ pool.workers) :
    pool.live = 0 := by
  refine countP_eq_zero.mpr ?_
  intro worker member
  cases worker with
  | left => exact absurd member stored
  | finished => simp [Worker.isFinished]
  | awake | blocked | notifying | resolving request => exact absurd ⟨_, member, rfl⟩ none

/-- A pass does not fall between the end of the last worker's loop and its store. -/
def Timely (pool : Pool) : Label → Prop
  | .schedule => pool.stopping = false → pool.pending ≠ [] → ¬ Attended pool.workers →
      Worker.left ∉ pool.workers
  | _ => True

instance (pool : Pool) (label : Label) : Decidable (Timely pool label) := by
  cases label <;> unfold Timely <;> infer_instance

/-- What the section of the scheduler does. -/
theorem schedule_cases (pool : Pool) :
    (pool.stopping = false ∧ pool.schedWakeup = false ∧
      pool.schedule = { pool with scheduler := .blocked }) ∨
    (pool.stopping = true ∧
      pool.schedule = { pool with schedWakeup := false, scheduler := .returned }) ∨
    (pool.stopping = false ∧ pool.schedWakeup = true ∧ pool.wantsWorker = true ∧
      pool.schedule =
        { pool with schedWakeup := false, workers := Pool.startWorker pool.workers }) ∨
    (pool.stopping = false ∧ pool.schedWakeup = true ∧ pool.wantsWorker = false ∧
      pool.schedule = { pool with schedWakeup := false }) := by
  cases stopping : pool.stopping with
  | true => exact .inr (.inl ⟨rfl, by simp [Pool.schedule, stopping]⟩)
  | false =>
    cases wakeup : pool.schedWakeup with
    | false => exact .inl ⟨rfl, rfl, by simp [Pool.schedule, stopping, wakeup]⟩
    | true =>
      cases wants : pool.wantsWorker with
      | true =>
        exact .inr (.inr (.inl ⟨rfl, rfl, rfl, by
          simp [Pool.schedule, stopping, wakeup, wants]⟩))
      | false =>
        exact .inr (.inr (.inr ⟨rfl, rfl, rfl, by
          simp [Pool.schedule, stopping, wakeup, wants]⟩))

/-- A pass that finds nobody live and something queued starts a worker. -/
theorem wantsWorker_of_live_eq_zero (queued : pool.pending ≠ []) (none : pool.live = 0) :
    pool.wantsWorker = true := by
  have most := pool.some_worker
  simp [Pool.wantsWorker, queued]
  omega

/-- A timely pass with a wake-up leaves a worker in its loop, if anything is queued. -/
theorem schedule_attended (running : pool.stopping = false) (queued : pool.pending ≠ [])
    (wakeup : pool.schedWakeup = true) (timely : Timely pool .schedule) :
    Attended pool.schedule.workers := by
  rcases schedule_cases pool with ⟨-, off, -⟩ | ⟨stopping, -⟩ | ⟨-, -, -, same⟩ | ⟨-, -, idle, same⟩
  · rw [wakeup] at off
    cases off
  · rw [running] at stopping
    cases stopping
  · rw [same]
    exact attended_startWorker _
  · rw [same]
    by_contra attended
    have zero : pool.live = 0 := live_eq_zero attended (timely running queued attended)
    rw [wantsWorker_of_live_eq_zero queued zero] at idle
    cases idle

/-! ## The invariant -/

/-- The notification that ends `submit()` has not been sent yet. -/
def LoopThread.Notifying (loop : LoopThread) : Prop := loop = .notifyWork ∨ loop = .notifySched

/-- What holds in every state, whenever the scheduler passes. -/
structure Orderly (pool : Pool) : Prop where
  started : pool.started = true → pool.scheduler ≠ .absent
  queued : pool.pending ≠ [] → pool.scheduler ≠ .absent
  returned : pool.scheduler = .returned → pool.stopping = true
  /-- a scheduler asleep on a wake-up is about to be notified -/
  heard : pool.stopping = false → pool.schedWakeup = true → pool.scheduler = .blocked →
    pool.loop.Notifying
  numbered : ∀ request ∈ pool.pending, request.id < pool.nextRequest
  distinct : (pool.pending.map Request.id).Nodup

/-- Somebody will look at the queue. -/
def Covered (pool : Pool) : Prop :=
  pool.stopping = false → pool.pending ≠ [] → Attended pool.workers ∨ pool.schedWakeup = true

theorem orderly_fresh : Orderly .fresh where
  started := nofun
  queued := fun queued => absurd rfl queued
  returned := nofun
  heard := nofun
  numbered := forall_mem_nil _
  distinct := nodup_nil

section Moves

variable {pool next : Pool} {label : Label}

theorem Aside.orderly (aside : Aside pool next) (orderly : Orderly pool) : Orderly next where
  started started := by
    rw [aside.scheduler]
    exact orderly.started (aside.started ▸ started)
  queued queued := by
    rw [aside.scheduler]
    exact orderly.queued (aside.pending ▸ queued)
  returned returned := by
    rw [aside.stopping]
    exact orderly.returned (aside.scheduler ▸ returned)
  heard running wakeup asleep := by
    rcases orderly.heard (aside.stopping ▸ running) (aside.schedWakeup ▸ wakeup)
      (aside.scheduler ▸ asleep) with turn | turn
    · exact absurd turn aside.loop.1
    · exact absurd turn aside.loop.2
  numbered request member :=
    Nat.lt_of_lt_of_le (orderly.numbered request (aside.pending ▸ member)) aside.numbers
  distinct := by
    rw [aside.pending]
    exact orderly.distinct

theorem Submits.orderly {request : Request} (submits : Submits request pool next)
    (orderly : Orderly pool) : Orderly next := by
  have present : next.scheduler ≠ .absent := by
    rcases submits.running with started | awake
    · rcases submits.scheduler with awake | same
      · rw [awake]
        nofun
      · rw [same]
        exact orderly.started started
    · rw [awake]
      nofun
  refine ⟨fun _ => present, fun _ => present, ?_, fun _ _ _ => .inl submits.loop, ?_, ?_⟩
  · intro returned
    rcases submits.scheduler with awake | same
    · rw [awake] at returned
      cases returned
    · rw [submits.stopping]
      exact orderly.returned (same ▸ returned)
  · rw [submits.pending, submits.numbers]
    intro other member
    rcases mem_append.mp member with old | new
    · exact Nat.lt_succ_of_lt (orderly.numbered other old)
    · rw [mem_singleton.mp new, submits.number]
      exact Nat.lt_succ_self _
  · rw [submits.pending, map_append]
    refine nodup_append.mpr ⟨orderly.distinct, nodup_singleton _, ?_⟩
    rintro id member other new rfl
    obtain ⟨old, queued, rfl⟩ := mem_map.mp member
    have small := orderly.numbered old queued
    rw [mem_singleton.mp new, submits.number] at small
    exact Nat.lt_irrefl _ small

/-- A shorter queue keeps the requests apart. -/
theorem Orderly.shrink (orderly : Orderly { next with pending := pool.pending })
    (fewer : next.pending.Sublist pool.pending) : Orderly next where
  started := orderly.started
  queued queued := by
    refine orderly.queued ?_
    intro empty
    rw [empty] at fewer
    exact queued (sublist_nil.mp fewer)
  returned := orderly.returned
  heard := orderly.heard
  numbered request member := orderly.numbered request (fewer.subset member)
  distinct := orderly.distinct.sublist (fewer.map _)

/-- A worker's place says nothing about the rest. -/
theorem Shifts.orderly (shifts : Shifts index old new pool next)
    (fewer : next.pending.Sublist pool.pending) (orderly : Orderly pool) : Orderly next := by
  refine @Orderly.shrink pool next ⟨?_, ?_, ?_, ?_, ?_, orderly.distinct⟩ fewer
  · intro started
    rw [shifts.scheduler]
    exact orderly.started (shifts.started ▸ started)
  · intro queued
    rw [shifts.scheduler]
    exact orderly.queued queued
  · intro returned
    rw [shifts.stopping]
    exact orderly.returned (shifts.scheduler ▸ returned)
  · intro running wakeup asleep
    rw [shifts.loop]
    exact orderly.heard (shifts.stopping ▸ running) (shifts.schedWakeup ▸ wakeup)
      (shifts.scheduler ▸ asleep)
  · rw [shifts.nextRequest]
    exact orderly.numbered

/-- A scheduler that has been notified is not asleep. -/
theorem Orderly.rouse (orderly : Orderly pool) (workers : List Worker) (loop : LoopThread) :
    Orderly
      { pool with
        workers
        scheduler := if pool.scheduler = .blocked then .awake else pool.scheduler
        loop } := by
  by_cases asleep : pool.scheduler = .blocked
  · simp only [asleep]
    exact ⟨by simp, by simp, by simp, by simp, orderly.numbered, orderly.distinct⟩
  simp only [asleep]
  exact ⟨orderly.started, orderly.queued, orderly.returned, fun _ _ => (absurd · asleep),
    orderly.numbered, orderly.distinct⟩

theorem schedule_orderly (orderly : Orderly pool) :
    Orderly pool.schedule := by
  rcases schedule_cases pool with
    ⟨running, off, same⟩ | ⟨stopping, same⟩ | ⟨-, -, -, same⟩ | ⟨-, -, -, same⟩
  · rw [same]
    refine ⟨nofun, nofun, nofun, ?_, orderly.numbered, orderly.distinct⟩
    intro _ on
    rw [show pool.schedWakeup = true from on] at off
    cases off
  · rw [same]
    exact ⟨nofun, nofun, fun _ => stopping, nofun, orderly.numbered, orderly.distinct⟩
  all_goals
    rw [same]
    exact ⟨orderly.started, orderly.queued, orderly.returned, nofun, orderly.numbered,
      orderly.distinct⟩

theorem Move.orderly (move : Move pool label next) (orderly : Orderly pool) : Orderly next := by
  cases move with
  | aside _ same => exact same.orderly orderly
  | submit request _ submits => exact submits.orderly orderly
  | cancel id _ same pending =>
    exact (same.orderly orderly).shrink (pending ▸ eraseP_sublist)
  | notifyWork turn | notifyWorker index turn found =>
    exact ⟨orderly.started, orderly.queued, orderly.returned, fun _ _ _ => .inr rfl,
      orderly.numbered, orderly.distinct⟩
  | notifySched turn => exact orderly.rouse _ _
  | stop stopping pending _ _ scheduler started numbers _ =>
    refine ⟨?_, ?_, fun _ => stopping, ?_, ?_, ?_⟩
    · rw [started, scheduler]
      exact orderly.started
    · rw [pending, scheduler]
      exact orderly.queued
    · intro running
      rw [stopping] at running
      cases running
    · rw [pending, numbers]
      exact orderly.numbered
    · rw [pending]
      exact orderly.distinct
  | notifyAll turn => exact orderly.rouse _ _
  | pass turn => exact schedule_orderly orderly
  | wakeScheduler asleep =>
    exact ⟨nofun, nofun, nofun, nofun, orderly.numbered, orderly.distinct⟩
  | shift _ shifts pending => exact shifts.orderly (pending ▸ List.Sublist.refl _) orderly
  | take _ _ shifts pending => exact shifts.orderly (pending ▸ sublist_cons_self _ _) orderly

/-- The counter of busy workers is the number of workers that are resolving. -/
def Tallied (pool : Pool) : Prop := pool.busyWorkers = pool.workers.countP Worker.isResolving

theorem countP_set_load (found : workers[index]? = some old) :
    (workers.set index new).countP Worker.isResolving =
      workers.countP Worker.isResolving - old.load + new.load := by
  obtain ⟨inside, rfl⟩ := List.getElem?_eq_some_iff.mp found
  rw [countP_set inside]
  rfl

theorem Shifts.tallied (shifts : Shifts index old new pool next) (tallied : Tallied pool) :
    Tallied next := by
  rw [Tallied, shifts.busyWorkers, shifts.workers, countP_set_load shifts.found, tallied]

theorem countP_startWorker (workers : List Worker) :
    (Pool.startWorker workers).countP Worker.isResolving = workers.countP Worker.isResolving := by
  rcases startWorker_spec workers with ⟨slot, found, same⟩ | same
  · rw [same, countP_set_load found]
    rfl
  · rw [same, countP_append]
    rfl

theorem Move.tallied (move : Move pool label next) (tallied : Tallied pool) : Tallied next := by
  cases move with
  | aside _ same => rw [Tallied, same.busyWorkers, same.workers, tallied]
  | submit request _ submits => rw [Tallied, submits.busyWorkers, submits.workers, tallied]
  | cancel id _ same pending =>
    exact same.busyWorkers.trans (tallied.trans (congrArg _ same.workers.symm))
  | notifyWork turn => exact tallied
  | notifyWorker index turn found =>
    exact Eq.trans tallied (@countP_set_load _ _ .awake _ found).symm
  | notifySched turn => exact tallied
  | stop _ _ workers busyWorkers _ _ _ _ => rw [Tallied, busyWorkers, workers, tallied]
  | notifyAll turn =>
    refine Eq.trans tallied ?_
    rw [Pool.wakeAll, countP_map]
    refine countP_congr ?_
    intro worker _
    cases worker <;> rfl
  | pass turn =>
    rcases schedule_cases pool with ⟨-, -, same⟩ | ⟨-, same⟩ | ⟨-, -, -, same⟩ | ⟨-, -, -, same⟩
    · rw [same]
      exact tallied
    · rw [same]
      exact tallied
    · rw [same]
      exact Eq.trans tallied (countP_startWorker _).symm
    · rw [same]
      exact tallied
  | wakeScheduler asleep => exact tallied
  | shift _ shifts _ | take _ _ shifts _ => exact shifts.tallied tallied

/-- Nobody is busy when nobody is in the loop. -/
theorem Tallied.eq_zero (tallied : Tallied pool) (none : ¬ Attended pool.workers) :
    pool.busyWorkers = 0 := by
  rw [tallied]
  refine countP_eq_zero.mpr ?_
  intro worker member resolving
  cases worker with
  | resolving request => exact none ⟨_, member, rfl⟩
  | awake | blocked | notifying | left | finished => cases resolving

theorem Shift.covered (shift : Shift pool index label old new)
    (shifts : Shifts index old new pool next) (pending : next.pending = pool.pending)
    (covered : Covered pool) : Covered next := by
  intro running queued
  rw [shifts.stopping] at running
  rw [pending] at queued
  rw [shifts.workers, shifts.schedWakeup]
  cases shift with
  | block | wake | complete | notify => exact .inl (attended_set shifts.found rfl)
  | expire empty => exact absurd empty queued
  | quitAwake stopping | quitBlocked stopping =>
    rw [stopping] at running
    cases running
  | finish =>
    rcases covered running queued with attended | wakeup
    · exact .inl (attended.set shifts.found rfl)
    · exact .inr wakeup

theorem schedule_covered (timely : Timely pool .schedule) (covered : Covered pool) :
    Covered pool.schedule := by
  intro running queued
  rcases schedule_cases pool with ⟨-, -, same⟩ | ⟨stopping, same⟩ | ⟨-, -, -, same⟩ |
    ⟨-, wakeup, -, same⟩
  · rw [same] at running queued ⊢
    exact covered running queued
  · rw [same] at running
    rw [show pool.stopping = false from running] at stopping
    cases stopping
  · rw [same]
    exact .inl (attended_startWorker _)
  · rw [same] at running queued
    exact .inl (schedule_attended running queued wakeup timely)

theorem wakeAll_covered (covered : Covered pool) : Covered pool.wakeAll := by
  intro running queued
  rcases covered running queued with ⟨worker, member, inLoop⟩ | wakeup
  · refine .inl ⟨_, mem_map_of_mem member, ?_⟩
    split
    · rfl
    · exact inLoop
  · exact .inr wakeup

theorem Move.covered (move : Move pool label next) (timely : Timely pool label)
    (covered : Covered pool) : Covered next := by
  cases move with
  | aside _ same =>
    intro running queued
    rw [same.workers, same.schedWakeup]
    exact covered (same.stopping ▸ running) (same.pending ▸ queued)
  | submit request _ submits => exact fun _ _ => .inr submits.schedWakeup
  | cancel id _ same pending =>
    intro running queued
    have workers : next.workers = pool.workers := same.workers
    have schedWakeup : next.schedWakeup = pool.schedWakeup := same.schedWakeup
    have stopping : next.stopping = pool.stopping := same.stopping
    rw [workers, schedWakeup]
    refine covered (stopping ▸ running) ?_
    intro empty
    rw [pending, empty] at queued
    exact queued rfl
  | notifyWork turn => exact covered
  | notifyWorker index turn found => exact fun _ _ => .inl (attended_set found rfl)
  | notifySched turn => exact covered
  | stop stopping _ _ _ _ _ _ _ =>
    intro running
    rw [stopping] at running
    cases running
  | notifyAll turn => exact wakeAll_covered covered
  | pass turn => exact schedule_covered timely covered
  | wakeScheduler asleep => exact covered
  | shift shift shifts pending => exact shift.covered shifts pending covered
  | take _ _ shifts _ =>
    intro _ _
    rw [shifts.workers]
    exact .inl (attended_set shifts.found rfl)

end Moves

/-- The scheduler has not used a wake-up, will hear of it, and starts a worker with it. -/
structure WakeupOutstanding (pool : Pool) : Prop where
  wakeup : pool.schedWakeup = true
  heard : pool.scheduler = .awake ∨ pool.scheduler = .blocked ∧ pool.loop.Notifying
  starts : ∀ next acts, Timely pool .schedule → step pool .schedule = some (next, acts) →
    Attended next.workers

/-- A worker in its loop will look at the queue again, or the scheduler has a wake-up
outstanding that makes it start one. -/
def Watched (pool : Pool) : Prop :=
  pool.stopping = false → pool.pending ≠ [] →
    Attended pool.workers ∨ WakeupOutstanding pool

theorem watched_of_covered (orderly : Orderly pool) (covered : Covered pool) : Watched pool := by
  intro running queued
  rcases covered running queued with attended | wakeup
  · exact .inl attended
  refine .inr ⟨wakeup, ?_, ?_⟩
  · cases place : pool.scheduler with
    | absent => exact absurd place (orderly.queued queued)
    | awake => exact .inl rfl
    | blocked => exact .inr ⟨rfl, orderly.heard running wakeup place⟩
    | returned =>
      rw [orderly.returned place] at running
      cases running
  · intro next acts timely moved
    rw [step] at moved
    split at moved
    · cases moved
      exact schedule_attended running queued wakeup timely
    · cases moved

/-- Nobody is left to look at the queue. -/
theorem not_watched (running : pool.stopping = false) (queued : pool.pending ≠ [])
    (none : ¬ Attended pool.workers) (off : pool.schedWakeup = false) : ¬ Watched pool := by
  intro watched
  rcases watched running queued with attended | outstanding
  · exact none attended
  · rw [outstanding.wakeup] at off
    cases off

/-- A pass that is not timely leaves requests queued with nobody to look at them. -/
theorem not_watched_of_late {next : Pool} {acts : List Act} (tallied : Tallied pool)
    (late : ¬ Timely pool .schedule) (moved : step pool .schedule = some (next, acts)) :
    ¬ Watched next := by
  simp only [Timely, Classical.not_imp, not_not] at late
  obtain ⟨running, queued, none, left⟩ := late
  have live : 0 < pool.live := countP_pos_iff.mpr ⟨_, left, rfl⟩
  have idle : pool.wantsWorker = false := by
    simp [Pool.wantsWorker, tallied.eq_zero none, live]
  rw [step] at moved
  split at moved
  · cases moved
    rcases schedule_cases pool with
      ⟨-, off, same⟩ | ⟨stopping, -⟩ | ⟨-, -, wants, -⟩ | ⟨-, -, -, same⟩
    · rw [same]
      exact not_watched running queued none off
    · rw [running] at stopping
      cases stopping
    · rw [idle] at wants
      cases wants
    · rw [same]
      exact not_watched running queued none rfl
  · cases moved

/-- The counter is right in every run. -/
theorem run_tallied {allowed : Pool → Label → Prop} {trace : List Act}
    (run : Run step allowed .fresh pool trace) : Tallied pool := by
  have fresh : Tallied .fresh := rfl
  refine run.invariant (fun pool _ => Tallied pool) fresh ?_
  intro pool next trace acts label tallied _ moved
  exact (step_move moved).tallied tallied

/-- Whatever has run, the invariant holds if every pass was timely. -/
theorem run_orderly {trace : List Act} (run : Run step Timely .fresh pool trace) :
    Orderly pool ∧ Covered pool := by
  refine run.invariant (fun pool _ => Orderly pool ∧ Covered pool) ⟨orderly_fresh, ?_⟩ ?_
  · exact fun _ queued => absurd rfl queued
  · intro pool next trace acts label holds timely moved
    have move := step_move moved
    exact ⟨move.orderly holds.1, move.covered timely holds.2⟩

end SamuraiFormal.Dns
