import SamuraiFormal.Dns.PoolWakeups

/-!
# No request stays queued

In a fair behaviour whose passes are timely every queued request is taken or cancelled,
unless the pool stops.  The number of requests in front of it never grows.  A worker in its
loop comes back to the queue and takes one of them; without such a worker the notification
reaches the scheduler and the scheduler starts one.
-/

namespace SamuraiFormal.Dns

open Library.Traces
open Library.Fairness
open List

/-- The numbers of the queued requests. -/
def Pool.numbers (pool : Pool) : List Nat := pool.pending.map Request.id

/-- The request is queued. -/
def Queued (id : Nat) (pool : Pool) : Prop := id ∈ pool.numbers

instance (id : Nat) (pool : Pool) : Decidable (Queued id pool) :=
  inferInstanceAs (Decidable (id ∈ pool.numbers))

/-- How many requests are in front of it. -/
def ahead (id : Nat) (pool : Pool) : Nat := pool.numbers.idxOf id

/-- The request has left the queue, or nobody needs it any more. -/
def Settled (id : Nat) (pool : Pool) : Prop := ¬ Queued id pool ∨ pool.stopping = true

/-- The request is queued behind at most so many others. -/
structure Waiting (id most : Nat) (pool : Pool) : Prop where
  running : pool.stopping = false
  queued : Queued id pool
  place : ahead id pool ≤ most

/-- The request has moved up or left. -/
def Closer (id most : Nat) (pool : Pool) : Prop :=
  Settled id pool ∨ pool.stopping = false ∧ Queued id pool ∧ ahead id pool < most

variable {pool next : Pool} {index : Nat} {worker : Worker} {label : Label}

theorem Waiting.pending {id most : Nat} (waiting : Waiting id most pool) : pool.pending ≠ [] := by
  intro empty
  have queued := waiting.queued
  rw [Queued, Pool.numbers, empty] at queued
  exact absurd queued not_mem_nil

/-- Erasing another number does not move a number back. -/
theorem idxOf_erase_le {id other : Nat} {numbers : List Nat} (apart : id ≠ other) :
    (numbers.erase other).idxOf id ≤ numbers.idxOf id := by
  induction numbers with
  | nil => exact Nat.le_refl _
  | cons first rest ih =>
    rw [erase_cons]
    split
    · rename_i same
      have ne : first ≠ id := fun eq => apart (eq.symm.trans (beq_iff_eq.mp same))
      rw [idxOf_cons_ne rest ne]
      exact Nat.le_succ _
    · by_cases eq : first = id
      · rw [eq, idxOf_cons_self]
        exact Nat.zero_le _
      · rw [idxOf_cons_ne _ eq, idxOf_cons_ne _ eq]
        exact Nat.succ_le_succ ih

section Moves

variable {pool next : Pool} {label : Label} {id most : Nat}

section

variable (waiting : Waiting id most pool)
include waiting

/-- A step that leaves the flag and the queue alone. -/
theorem Waiting.same (stopping : next.stopping = pool.stopping)
    (pending : next.pending = pool.pending) : Waiting id most next := by
  refine ⟨stopping ▸ waiting.running, ?_, ?_⟩
  · rw [Queued, Pool.numbers, pending]
    exact waiting.queued
  · rw [ahead, Pool.numbers, pending]
    exact waiting.place

theorem Waiting.submit {request : Request} (submits : Submits request pool next) :
    Waiting id most next := by
  have numbers : next.numbers = pool.numbers ++ [request.id] := by
    rw [Pool.numbers, submits.pending, map_append]
    rfl
  refine ⟨submits.stopping ▸ waiting.running, ?_, ?_⟩
  · rw [Queued, numbers]
    exact mem_append_left _ waiting.queued
  · rw [ahead, numbers, idxOf_append_of_mem waiting.queued]
    exact waiting.place

theorem Waiting.cancel {other : Nat} (orderly : Orderly pool)
    (stopping : next.stopping = pool.stopping)
    (pending : next.pending = pool.pending.eraseP (·.id == other)) :
    Settled id next ∨ Waiting id most next := by
  have numbers : next.numbers = pool.numbers.erase other := by
    rw [Pool.numbers, pending, Pool.numbers, erase_eq_eraseP', eraseP_map]
    rfl
  by_cases same : id = other
  · refine .inl (.inl ?_)
    rw [Queued, numbers, same]
    exact List.Nodup.not_mem_erase orderly.distinct
  refine .inr ⟨stopping ▸ waiting.running, ?_, ?_⟩
  · rw [Queued, numbers]
    exact (mem_erase_of_ne same).mpr waiting.queued
  · rw [ahead, numbers]
    exact Nat.le_trans (idxOf_erase_le same) waiting.place

/-- Taking the first request brings all others closer. -/
theorem Waiting.take {request : Request} (orderly : Orderly pool)
    (stopping : next.stopping = pool.stopping) (pending : pool.pending = request :: next.pending) :
    Closer id most next := by
  have numbers : pool.numbers = request.id :: next.numbers := by
    rw [Pool.numbers, pending]
    rfl
  have distinct : (request.id :: next.numbers).Nodup := numbers ▸ orderly.distinct
  have queued : id ∈ request.id :: next.numbers := numbers ▸ waiting.queued
  have place := waiting.place
  by_cases same : request.id = id
  · refine .inl (.inl ?_)
    rw [← same]
    exact (nodup_cons.mp distinct).1
  rw [ahead, numbers, idxOf_cons_ne _ same] at place
  refine .inr ⟨stopping ▸ waiting.running, ?_, place⟩
  rcases mem_cons.mp queued with eq | later
  · exact absurd eq.symm same
  · exact later

end

/-! ## A worker comes back to the queue -/

/-- How far a worker is from looking at the queue. -/
def Worker.distance : Worker → Nat
  | .resolving _ => 3
  | .notifying => 2
  | .blocked => 2
  | .awake => 1
  | .left => 0
  | .finished => 0

/-- The place of a worker after another one's change. -/
theorem getElem?_set_cases {workers : List Worker} {place : Nat} {old new : Worker}
    (found : workers[index]? = some worker) (changed : workers[place]? = some old) :
    place ≠ index ∧ (workers.set place new)[index]? = some worker ∨
      place = index ∧ old = worker ∧ (workers.set place new)[index]? = some new := by
  by_cases same : place = index
  · subst same
    rw [found] at changed
    refine .inr ⟨rfl, (Option.some.inj changed).symm, ?_⟩
    obtain ⟨inside, -⟩ := List.getElem?_eq_some_iff.mp found
    exact getElem?_set_self inside
  · exact .inl ⟨same, (getElem?_set_ne same).trans found⟩

/-- A worker in its loop keeps its slot when another one starts. -/
theorem getElem?_startWorker {workers : List Worker} (found : workers[index]? = some worker)
    (inLoop : worker.inLoop = true) : (Pool.startWorker workers)[index]? = some worker := by
  rcases startWorker_spec workers with ⟨slot, finished, same⟩ | same
  · rw [same]
    rcases @getElem?_set_cases _ _ _ _ _ .awake found finished with ⟨-, kept⟩ | ⟨-, rfl, -⟩
    · exact kept
    · cases inLoop
  · rw [same]
    obtain ⟨inside, -⟩ := List.getElem?_eq_some_iff.mp found
    rw [getElem?_append_left inside]
    exact found

theorem Shift.owner {old new : Worker} (shift : Shift pool index label old new) :
    label.owner = some (.worker index) ∨ label.owner = none := by
  cases shift with
  | wake => exact .inr rfl
  | block | expire | quitAwake | quitBlocked | complete | notify | finish => exact .inl rfl

/-- A worker in its loop can always go on. -/
theorem enabled_worker (found : pool.workers[index]? = some worker)
    (inLoop : worker.inLoop = true) : Behaviour.Enabled step Label.owner (.worker index) pool := by
  cases worker with
  | awake => exact ⟨.work index, rfl, by simp [step, Pool.worker, found]⟩
  | blocked => exact ⟨.expire index, rfl, by simp [step, Pool.worker, found]⟩
  | resolving request =>
    exact ⟨.complete index ⟨.ok [], .ok []⟩, rfl, by simp [step, found]⟩
  | notifying => exact ⟨.notify index, rfl, by simp [step, Pool.worker, found]⟩
  | left | finished => cases inLoop

/-- A worker that is due stays where it is or comes nearer to the queue, and its own step
brings it nearer or takes a request. -/
theorem Move.returns (move : Move pool label next) (orderly : Orderly pool)
    (waiting : Waiting id most pool) (found : pool.workers[index]? = some worker)
    (inLoop : worker.inLoop = true) :
    Closer id most next ∨ Waiting id most next ∧
      ((∃ nearer, next.workers[index]? = some nearer ∧ nearer.inLoop = true ∧
        nearer.distance < worker.distance) ∨
      next.workers[index]? = some worker ∧ label.owner ≠ some (.worker index)) := by
  cases move with
  | aside app same =>
    refine .inr ⟨waiting.same same.stopping same.pending, .inr ⟨same.workers ▸ found, ?_⟩⟩
    rw [app]
    simp
  | submit request app submits =>
    refine .inr ⟨waiting.submit submits, .inr ⟨submits.workers ▸ found, ?_⟩⟩
    rw [app]
    simp
  | cancel other app same pending =>
    have workers : next.workers = pool.workers := same.workers
    have stopping : next.stopping = pool.stopping := same.stopping
    rcases waiting.cancel orderly stopping pending with settled | waits
    · exact .inl (.inl settled)
    refine .inr ⟨waits, .inr ⟨workers ▸ found, ?_⟩⟩
    rw [app]
    simp
  | notifyWork turn | notifySched turn | wakeScheduler asleep =>
    exact .inr ⟨waiting.same rfl rfl, .inr ⟨found, by rintro ⟨⟩⟩⟩
  | notifyWorker place turn asleep =>
    refine .inr ⟨waiting.same rfl rfl, ?_⟩
    rcases @getElem?_set_cases _ _ _ _ _ .awake found asleep with ⟨-, kept⟩ | ⟨-, rfl, woken⟩
    · exact .inr ⟨kept, by rintro ⟨⟩⟩
    · exact .inl ⟨.awake, woken, rfl, by decide⟩
  | stop stopping _ _ _ _ _ _ _ => exact .inl (.inl (.inr stopping))
  | notifyAll turn =>
    refine .inr ⟨waiting.same rfl rfl, ?_⟩
    have changed : pool.wakeAll.workers[index]? =
        some (if worker = .blocked then .awake else worker) := by
      simp [Pool.wakeAll, found]
    by_cases asleep : worker = .blocked
    · rw [if_pos asleep] at changed
      exact .inl ⟨.awake, changed, rfl, by rw [asleep]; decide⟩
    · rw [if_neg asleep] at changed
      exact .inr ⟨changed, by rintro ⟨⟩⟩
  | pass turn =>
    refine .inr ?_
    rcases schedule_cases pool with ⟨-, -, same⟩ | ⟨stopping, -⟩ | ⟨-, -, -, same⟩ | ⟨-, -, -, same⟩
    · rw [same]
      exact ⟨waiting.same rfl rfl, .inr ⟨found, by rintro ⟨⟩⟩⟩
    · rw [waiting.running] at stopping
      cases stopping
    · rw [same]
      exact ⟨waiting.same rfl rfl, .inr ⟨getElem?_startWorker found inLoop, by rintro ⟨⟩⟩⟩
    · rw [same]
      exact ⟨waiting.same rfl rfl, .inr ⟨found, by rintro ⟨⟩⟩⟩
  | take _ _ shifts pending => exact .inl (waiting.take orderly shifts.stopping pending)
  | @shift _ _ place old new shift shifts pending =>
    refine .inr ⟨waiting.same shifts.stopping pending, ?_⟩
    rw [shifts.workers]
    rcases @getElem?_set_cases _ _ _ _ _ new found shifts.found with ⟨apart, kept⟩ |
      ⟨rfl, rfl, changed⟩
    · refine .inr ⟨kept, ?_⟩
      rcases shift.owner with mine | nobody
      · rw [mine]
        exact fun same => apart (Thread.worker.inj (Option.some.inj same))
      · rw [nobody]
        simp
    · cases shift with
      | block empty | expire empty => exact absurd empty waiting.pending
      | quitAwake stopping | quitBlocked stopping =>
        rw [waiting.running] at stopping
        cases stopping
      | wake => exact .inl ⟨_, changed, rfl, by decide⟩
      | complete request platform => exact .inl ⟨_, changed, rfl, Nat.lt_succ_self 2⟩
      | notify => exact .inl ⟨_, changed, rfl, by decide⟩
      | finish => cases inLoop

end Moves

section Behaviours

variable {origin : Pool} {behaviour : Behaviour step Timely origin} {id most : Nat}

theorem behaviour_orderly {front : List Act} (reached : Run step Timely .fresh origin front)
    (behaviour : Behaviour step Timely origin) (n : Nat) :
    Orderly (behaviour.state n) ∧ Covered (behaviour.state n) := by
  obtain ⟨trace, run⟩ := behaviour.run n
  exact run_orderly (reached.trans run)

theorem behaviour_move (behaviour : Behaviour step Timely origin) (n : Nat) :
    Move (behaviour.state n) (behaviour.label n) (behaviour.state (n + 1)) :=
  step_move (behaviour.moves n)

/-- The worker of a slot is in its loop while the request waits. -/
def Due (id most index : Nat) (pool : Pool) : Prop :=
  Waiting id most pool ∧ ∃ worker, pool.workers[index]? = some worker ∧ worker.inLoop = true

/-- How far the worker of a slot is from the queue. -/
def Pool.distance (index : Nat) (pool : Pool) : Nat :=
  (pool.workers[index]?).elim 0 Worker.distance

theorem distance_eq (found : pool.workers[index]? = some worker) :
    pool.distance index = worker.distance := by
  rw [Pool.distance, found]
  rfl

theorem eventually_of_due (fair : behaviour.Fair Label.owner)
    (orderly : ∀ n, Orderly (behaviour.state n)) {n : Nat}
    (due : Due id most index (behaviour.state n)) : behaviour.Eventually n (Closer id most) := by
  refine Behaviour.eventually_of_helpful _ fair (Pool.distance index) (fun _ => .worker index)
    ?_ ?_ due
  · rintro m ⟨-, worker, found, inLoop⟩
    exact enabled_worker found inLoop
  · rintro m ⟨waiting, worker, found, inLoop⟩
    rcases (behaviour_move behaviour m).returns (orderly m) waiting found inLoop with closer |
      ⟨later, ⟨nearer, there, stays, lower⟩ | ⟨kept, other⟩⟩
    · exact .inl closer
    · refine .inr ⟨⟨later, nearer, there, stays⟩, .inl ?_⟩
      rw [distance_eq there, distance_eq found]
      exact lower
    · refine .inr ⟨⟨later, worker, kept, inLoop⟩, .inr ⟨?_, rfl, other⟩⟩
      rw [distance_eq kept, distance_eq found]

/-- The scheduler has a wake-up and will hear of it while the request waits. -/
structure Summoned (id most : Nat) (pool : Pool) : Prop where
  waiting : Waiting id most pool
  wakeup : pool.schedWakeup = true
  heard : pool.scheduler = .awake ∨ pool.scheduler = .blocked ∧ pool.loop.Notifying

/-- How many steps the notification is from the scheduler. -/
def Pool.delay (pool : Pool) : Nat :=
  if pool.scheduler = .awake then 0 else if pool.loop = .notifySched then 1 else 2

/-- Who has to move next. -/
def Pool.messenger (pool : Pool) : Thread :=
  if pool.scheduler = .awake then .scheduler else .loop

/-- The notifications that end `submit()` can always go on. -/
theorem enabled_loop (turn : pool.loop.Notifying) :
    Behaviour.Enabled step Label.owner .loop pool := by
  rcases turn with turn | turn
  · by_cases asleep : Worker.blocked ∈ pool.workers
    · obtain ⟨index, found⟩ := mem_iff_getElem?.mp asleep
      exact ⟨.notifyWork (some index), rfl, by simp [step, turn, Pool.worker, found]⟩
    · exact ⟨.notifyWork none, rfl, by simp [step, turn, asleep]⟩
  · exact ⟨.notifySched, rfl, by simp [step, turn]⟩

theorem enabled_messenger (summoned : Summoned id most pool) :
    Behaviour.Enabled step Label.owner pool.messenger pool := by
  rcases summoned.heard with awake | ⟨asleep, turn⟩
  · rw [Pool.messenger, if_pos awake]
    exact ⟨.schedule, rfl, by simp [step, awake]⟩
  · rw [Pool.messenger, asleep]
    exact enabled_loop turn

/-- The notification has come nearer to the scheduler, or nobody concerned has moved. -/
def Nears (id most : Nat) (pool : Pool) (label : Label) (next : Pool) : Prop :=
  Summoned id most next ∧ (next.delay < pool.delay ∨
    next.delay = pool.delay ∧ next.messenger = pool.messenger ∧
      label.owner ≠ some pool.messenger)

theorem nears_of_awake (awake : pool.scheduler = .awake) (still : next.scheduler = .awake)
    (waiting : Waiting id most next) (wakeup : next.schedWakeup = true)
    (other : label.owner ≠ some .scheduler) : Nears id most pool label next := by
  refine ⟨⟨waiting, wakeup, .inl still⟩, .inr ⟨?_, ?_, ?_⟩⟩
  · rw [Pool.delay, Pool.delay, if_pos awake, if_pos still]
  · rw [Pool.messenger, Pool.messenger, if_pos awake, if_pos still]
  · rwa [Pool.messenger, if_pos awake]

theorem nears_of_roused (asleep : pool.scheduler = .blocked) (awake : next.scheduler = .awake)
    (waiting : Waiting id most next) (wakeup : next.schedWakeup = true) :
    Nears id most pool label next := by
  refine ⟨⟨waiting, wakeup, .inl awake⟩, .inl ?_⟩
  have far : pool.scheduler ≠ .awake := by
    rw [asleep]
    nofun
  rw [Pool.delay, if_pos awake, Pool.delay, if_neg far]
  split <;> decide

theorem Summoned.nears (summoned : Summoned id most pool)
    (scheduler : next.scheduler = pool.scheduler) (loop : next.loop = pool.loop)
    (waiting : Waiting id most next) (wakeup : next.schedWakeup = pool.schedWakeup)
    (other : label.owner ≠ some pool.messenger) : Nears id most pool label next := by
  refine ⟨⟨waiting, wakeup.trans summoned.wakeup, ?_⟩, .inr ⟨?_, ?_, other⟩⟩
  · rw [scheduler, loop]
    exact summoned.heard
  · rw [Pool.delay, Pool.delay, scheduler, loop]
  · rw [Pool.messenger, Pool.messenger, scheduler]

theorem Pool.messenger_ne_worker (pool : Pool) (index : Nat) :
    some (Thread.worker index) ≠ some pool.messenger := by
  unfold Pool.messenger
  split <;> nofun

/-- While nobody is in the loop, a notification under way keeps going, and a timely pass
starts a worker. -/
theorem Move.summons (move : Move pool label next) (orderly : Orderly pool)
    (timely : Timely pool label) (summoned : Summoned id most pool) :
    (Closer id most next ∨ Waiting id most next ∧ Attended next.workers) ∨
      Nears id most pool label next := by
  have waiting := summoned.waiting
  -- between two notifications the scheduler is awake already
  have awake : pool.loop ≠ .notifyWork ∧ pool.loop ≠ .notifySched → pool.scheduler = .awake := by
    intro apart
    rcases summoned.heard with awake | ⟨-, turn | turn⟩
    · exact awake
    · exact absurd turn apart.1
    · exact absurd turn apart.2
  cases move with
  | aside app same =>
    have up := awake same.loop
    refine .inr (nears_of_awake up (same.scheduler.trans up)
      (waiting.same same.stopping same.pending) (same.schedWakeup.trans summoned.wakeup) ?_)
    rw [app]
    simp
  | submit request app submits =>
    have up := awake (not_notifying submits.free)
    have still : next.scheduler = .awake := submits.scheduler.elim (fun up => up) (·.trans up)
    refine .inr (nears_of_awake up still (waiting.submit submits) submits.schedWakeup ?_)
    rw [app]
    simp
  | cancel other app same pending =>
    have up := awake same.loop
    have stopping : next.stopping = pool.stopping := same.stopping
    rcases waiting.cancel orderly stopping pending with settled | waits
    · exact .inl (.inl (.inl settled))
    refine .inr (nears_of_awake up (same.scheduler.trans up) waits
      (same.schedWakeup.trans summoned.wakeup) ?_)
    rw [app]
    simp
  | notifyWork turn =>
    refine .inr ?_
    rcases summoned.heard with up | ⟨asleep, -⟩
    · exact nears_of_awake up up (waiting.same rfl rfl) summoned.wakeup (by rintro ⟨⟩)
    · refine ⟨⟨waiting.same rfl rfl, summoned.wakeup, .inr ⟨asleep, .inr rfl⟩⟩, .inl ?_⟩
      simp [Pool.delay, asleep, turn]
  | notifyWorker index turn found =>
    exact .inl (.inr ⟨waiting.same rfl rfl, attended_set found rfl⟩)
  | notifySched turn =>
    refine .inr ?_
    rcases summoned.heard with up | ⟨asleep, -⟩
    · exact nears_of_awake up (by simp [up]) (waiting.same rfl rfl) summoned.wakeup (by rintro ⟨⟩)
    · exact nears_of_roused asleep (by simp [asleep]) (waiting.same rfl rfl) summoned.wakeup
  | stop stopping _ _ _ _ _ _ _ => exact .inl (.inl (.inl (.inr stopping)))
  | notifyAll turn =>
    have up := awake (by rw [turn]; exact ⟨by simp, by simp⟩)
    exact .inr (nears_of_awake up (by simp [Pool.wakeAll, up]) (waiting.same rfl rfl)
      summoned.wakeup (by rintro ⟨⟩))
  | pass turn =>
    refine .inl (.inr ⟨?_, schedule_attended waiting.running waiting.pending summoned.wakeup
      timely⟩)
    rcases schedule_cases pool with ⟨-, -, same⟩ | ⟨-, same⟩ | ⟨-, -, -, same⟩ | ⟨-, -, -, same⟩
    all_goals
      rw [same]
      exact waiting.same rfl rfl
  | wakeScheduler asleep =>
    exact .inr (nears_of_roused asleep rfl (waiting.same rfl rfl) summoned.wakeup)
  | take _ _ shifts pending => exact .inl (.inl (waiting.take orderly shifts.stopping pending))
  | shift shift shifts pending =>
    refine .inr (summoned.nears shifts.scheduler shifts.loop
      (waiting.same shifts.stopping pending) shifts.schedWakeup ?_)
    rcases shift.owner with mine | nobody
    · rw [mine]
      exact pool.messenger_ne_worker _
    · rw [nobody]
      simp

variable (fair : behaviour.Fair Label.owner)
include fair

theorem eventually_of_summoned (orderly : ∀ n, Orderly (behaviour.state n)) {n : Nat}
    (summoned : Summoned id most (behaviour.state n)) :
    behaviour.Eventually n fun pool =>
      Closer id most pool ∨ Waiting id most pool ∧ Attended pool.workers :=
  Behaviour.eventually_of_helpful _ fair Pool.delay Pool.messenger
    (fun _ held => enabled_messenger held)
    (fun m held => (behaviour_move behaviour m).summons (orderly m) (behaviour.fits m) held)
    summoned

theorem eventually_of_attended (orderly : ∀ n, Orderly (behaviour.state n)) {n : Nat}
    (waiting : Waiting id most (behaviour.state n))
    (attended : Attended (behaviour.state n).workers) :
    behaviour.Eventually n (Closer id most) := by
  obtain ⟨worker, member, inLoop⟩ := attended
  obtain ⟨index, found⟩ := mem_iff_getElem?.mp member
  exact eventually_of_due fair orderly ⟨waiting, worker, found, inLoop⟩

theorem eventually_closer (sound : ∀ n, Orderly (behaviour.state n) ∧ Covered (behaviour.state n))
    {n : Nat} (waiting : Waiting id most (behaviour.state n)) :
    behaviour.Eventually n (Closer id most) := by
  have orderly : ∀ n, Orderly (behaviour.state n) := fun n => (sound n).1
  rcases watched_of_covered (orderly n) (sound n).2 waiting.running waiting.pending with
    attended | outstanding
  · exact eventually_of_attended fair orderly waiting attended
  have summoned : Summoned id most (behaviour.state n) :=
    ⟨waiting, outstanding.wakeup, outstanding.heard⟩
  refine (eventually_of_summoned fair orderly summoned).trans ?_
  rintro m (closer | ⟨waits, attended⟩)
  · exact .now closer
  · exact eventually_of_attended fair orderly waits attended

/-- A queued request leaves the queue, unless the pool stops. -/
theorem eventually_settled
    (sound : ∀ n, Orderly (behaviour.state n) ∧ Covered (behaviour.state n)) (id n : Nat) :
    behaviour.Eventually n (Settled id) := by
  by_cases settled : Settled id (behaviour.state n)
  · exact .now settled
  simp only [Settled, not_or, not_not, Bool.not_eq_true] at settled
  refine Behaviour.eventually_of_rank (fun pool => Queued id pool ∧ pool.stopping = false)
    (ahead id) ?_ settled
  rintro m ⟨queued, running⟩
  refine (eventually_closer fair sound ⟨running, queued, Nat.le_refl _⟩).trans ?_
  rintro k (done | ⟨going, still, less⟩)
  · exact .now (.inl done)
  · exact .now (.inr ⟨⟨still, going⟩, less⟩)

end Behaviours

/-- **Nothing is left in the queue.**  In every state of a run in which no pass of the
scheduler fell between the end of the last worker's loop and its store: if requests are
queued and the pool is not stopping, some worker will look at the queue again or the
scheduler has a wake-up outstanding that makes it start one; however the run goes on, if it
is fair no request stays queued; and the first pass that does fall there breaks the
property. -/
theorem pool_serves_queue {pool : Pool} {trace : List Act}
    (run : Run step Timely .fresh pool trace) :
    Watched pool ∧
      (∀ behaviour : Behaviour step Timely pool, behaviour.Fair Label.owner →
        ∀ id n, behaviour.Eventually n (Settled id)) ∧
      ∀ label next acts, step pool label = some (next, acts) → ¬ Timely pool label →
        ¬ Watched next := by
  obtain ⟨orderly, covered⟩ := run_orderly run
  refine ⟨watched_of_covered orderly covered, ?_, ?_⟩
  · intro behaviour fair id n
    exact eventually_settled fair (behaviour_orderly run behaviour) id n
  · intro label next acts moved late
    cases label with
    | schedule => exact not_watched_of_late (run_tallied run) late moved
    | _ => exact absurd trivial late

/-- Nobody moves by itself in a pool whose workers have all returned and whose scheduler
sleeps. -/
theorem not_enabled_of_resting (free : pool.loop = .free) (asleep : pool.scheduler ≠ .awake)
    (finished : ∀ worker ∈ pool.workers, worker = .finished) (thread : Thread) :
    ¬ Behaviour.Enabled step Label.owner thread pool := by
  rintro ⟨label, mine, moves⟩
  obtain ⟨⟨next, acts⟩, moved⟩ := Option.isSome_iff_exists.mp moves
  have gone {index : Nat} {worker : Worker} (found : pool.workers[index]? = some worker) :
      worker = .finished := finished worker (mem_of_getElem? found)
  cases step_move moved with
  | aside app | submit _ app | cancel _ app =>
    rw [app] at mine
    cases mine
  | notifyWork turn | notifyWorker _ turn | notifySched turn | notifyAll turn =>
    rw [free] at turn
    cases turn
  | stop | wakeScheduler => cases mine
  | pass turn => exact asleep turn
  | shift shift shifts =>
    have last := gone shifts.found
    cases shift <;> cases last
  | take _ seeking shifts =>
    have last := gone shifts.found
    rcases seeking with rfl | rfl <;> cases last

/-- One lookup; the worker that made it waits in vain for another and leaves its loop. -/
def lookupRun : List Label :=
  [.construct (some 0), .lookup 0 [97] true, .notifyWork none, .notifySched, .schedule, .work 0,
    .complete 0 ⟨.ok [], .ok []⟩, .notify 0, .work 0, .expire 0]

/-- The pool with the request queued. -/
def askedEnd : Pool × List Act :=
  (play (restrict step Timely) .fresh (lookupRun.take 2)).getD (.fresh, [])

/-- The rest of the run; the worker stores its flag and the scheduler sleeps again. -/
def restRun : List Label := lookupRun.drop 2 ++ [.finish 0, .schedule]

def restEnd : Pool × List Act := (play (restrict step Timely) askedEnd.1 restRun).getD (.fresh, [])

/-- The lookup is queued, and goes through in a fair behaviour. -/
theorem pool_serves_lookup :
    Queued 0 askedEnd.1 ∧ Watched askedEnd.1 ∧
      ∃ behaviour : Behaviour step Timely askedEnd.1, behaviour.Fair Label.owner ∧
        behaviour.Eventually 0 (Settled 0) := by
  have asked : Run step Timely .fresh askedEnd.1 askedEnd.2 := run_of_play (lookupRun.take 2) rfl
  have played : play (restrict step Timely) askedEnd.1 restRun = some (restEnd.1, restEnd.2) := rfl
  obtain ⟨watched, serves, -⟩ := pool_serves_queue asked
  have resting : ∀ thread, ¬ Behaviour.Enabled step Label.owner thread restEnd.1 :=
    not_enabled_of_resting rfl (by decide) (by decide)
  obtain ⟨behaviour, fair, -⟩ :=
    Behaviour.exists_fair_of_play restRun played (.setMaxWorkers 4) (by decide) rfl resting resting
  exact ⟨by decide, watched, behaviour, fair, serves behaviour fair 0 0⟩

/-- The worker has left its loop, a second request comes, and the scheduler passes before
the worker stores its flag. -/
def lateRun : List Label :=
  lookupRun ++
    [.lookup 0 [98] true, .notifyWork none, .notifySched, .schedule, .finish 0, .schedule]

def lateEnd : Pool × List Act := (play step .fresh lateRun).getD (.fresh, [])

/-- The second request stays queued: no wake-up is outstanding and every thread rests. -/
theorem late_pass_not_watched :
    ∃ pool trace, Run step (fun _ _ => True) .fresh pool trace ∧ ¬ Watched pool ∧
      ∀ thread, ¬ Behaviour.Enabled step Label.owner thread pool := by
  have run : Run step (fun _ _ => True) .fresh lateEnd.1 lateEnd.2 := run_of_play lateRun rfl
  refine ⟨_, _, run, ?_, ?_⟩
  · exact not_watched rfl (by decide) (by decide) rfl
  · exact not_enabled_of_resting rfl (by decide) (by decide)

/-- The queue is in the order of submission. -/
def InOrder (pool : Pool) : Prop :=
  pool.pending.Pairwise fun first second => first.id < second.id

theorem Move.inOrder {pool next : Pool} {label : Label} (move : Move pool label next)
    (orderly : Orderly pool) (order : InOrder pool) : InOrder next := by
  have keeps {next : Pool} (sub : next.pending <+ pool.pending) : InOrder next := order.sublist sub
  cases move with
  | aside _ same => exact keeps (same.pending ▸ .refl _)
  | submit request _ submits =>
    rw [InOrder, submits.pending, pairwise_append]
    refine ⟨order, pairwise_singleton _ _, fun other among => forall_mem_singleton.mpr ?_⟩
    rw [submits.number]
    exact orderly.numbered other among
  | cancel id _ _ pending => exact keeps (pending ▸ eraseP_sublist)
  | notifyWork | notifyWorker | notifySched | notifyAll | wakeScheduler => exact keeps (.refl _)
  | stop _ pending | shift _ _ pending => exact keeps (pending ▸ .refl _)
  | pass =>
    rcases schedule_cases pool with ⟨-, -, same⟩ | ⟨-, same⟩ | ⟨-, -, -, same⟩ | ⟨-, -, -, same⟩ <;>
      exact same ▸ keeps (.refl _)
  | take _ _ _ pending => exact keeps (pending ▸ sublist_cons_self ..)

/-- In every run, what a worker takes from the front was submitted before all that waits. -/
theorem run_inOrder {allowed : Pool → Label → Prop} {pool : Pool} {trace : List Act}
    (run : Run step allowed .fresh pool trace) : InOrder pool := by
  have holds : Orderly pool ∧ InOrder pool := by
    refine run.invariant (fun pool _ => Orderly pool ∧ InOrder pool) ⟨orderly_fresh, .nil⟩ ?_
    intro pool next trace acts label holds _ moved
    have move := step_move moved
    exact ⟨move.orderly holds.1, move.inOrder holds.1 holds.2⟩
  exact holds.2

/-- Two more requests after the one that stays queued. -/
def queueRun : List Label :=
  lateRun ++ [.lookup 0 [99] true, .notifyWork none, .notifySched, .lookup 0 [100] true]

theorem queueRun_inOrder :
    ∃ pool trace, play (restrict step fun _ _ => True) .fresh queueRun = some (pool, trace) ∧
      pool.pending.map Request.id = [1, 2, 3] ∧ InOrder pool :=
  ⟨_, _, rfl, rfl, @run_inOrder (fun _ _ => True) _ _ (run_of_play queueRun rfl)⟩

end SamuraiFormal.Dns
