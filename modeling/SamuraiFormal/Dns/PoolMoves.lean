import Mathlib.Data.List.Nodup
import SamuraiFormal.Dns.ResolverPool
import SamuraiFormal.Library.Fairness

/-!
# What a step of the resolver pool does

`Effect` lists the steps with their guards and all they leave; `step_effect` finds the one
for a step, and everything else about a step is read off it.  `Move` is what happens to the
queue, the workers, the scheduler and the notifications under way.
-/

namespace SamuraiFormal.Dns

open Library.Traces

/-- The threads that run by themselves.  The loop thread is one of them inside `submit()`
and the destructor only; where it runs the application nothing makes it go on. -/
inductive Thread where
  | loop
  | scheduler
  | worker (index : Nat)
  deriving DecidableEq

/-- Whose step it is.  Nobody owns a call of the application or a spurious wake-up. -/
def Label.owner : Label → Option Thread
  | .notifyWork _ | .notifySched | .notifyAll => some .loop
  | .schedule => some .scheduler
  | .work index | .expire index | .complete index _ | .notify index | .finish index =>
    some (.worker index)
  | _ => none

/-- The resolver that a call asks. -/
def Label.asker : Label → Option Nat
  | .lookup index _ _ => some index
  | .lookupAddress index _ _ => some index
  | _ => none

/-- The request that an event is about; a refused call has none. -/
def Act.request : Act → Option Nat
  | .eventHostFound _ request _ => some request
  | .eventHostError _ request _ => request

/-- The steps, each with its guard, the pool it leaves and what it tells. -/
inductive Effect (pool : Pool) : Label → Pool → List Act → Prop where
  | construct {eventHandler : Option Nat} (free : pool.loop = .free) :
      Effect pool (.construct eventHandler)
        { pool with resolvers := pool.resolvers ++ [some ⟨eventHandler, none⟩] } []
  | setMaxWorkers {count : Nat} (free : pool.loop = .free) :
      Effect pool (.setMaxWorkers count) (pool.setMaxWorkers count) []
  -- a call without a handler, or for nothing that could be looked up
  | idle {label : Label} {acts : List Act} {index : Nat} (asker : label.asker = some index)
      (free : pool.loop = .free) (silent : ∀ act ∈ acts, act.request = none) :
      Effect pool label pool acts
  | ask {label : Label} {index handler : Nat} (kind : Kind) (query : Util.Bytes)
      (address : Net.InetAddress) (notifier : Bool) (asker : label.asker = some index)
      (free : pool.loop = .free)
      (found : ∃ request, pool.resolvers[index]? = some (some ⟨some handler, request⟩)) :
      Effect pool label (pool.ask index handler kind query address notifier).1
        (pool.ask index handler kind query address notifier).2
  | destroy {index : Nat} {resolver : PooledResolver} (free : pool.loop = .free)
      (found : pool.resolvers[index]? = some (some resolver)) :
      Effect pool (.destroy index) (pool.destroy index resolver) []
  | notifyWork (turn : pool.loop = .notifyWork) :
      Effect pool (.notifyWork none) { pool with loop := .notifySched } []
  | notifyWorker {index : Nat} (turn : pool.loop = .notifyWork)
      (found : pool.workers[index]? = some .blocked) :
      Effect pool (.notifyWork (some index))
        ({ pool with loop := .notifySched }.setWorker index .awake) []
  | notifySched (turn : pool.loop = .notifySched) :
      Effect pool .notifySched
        { pool with
          scheduler := if pool.scheduler = .blocked then .awake else pool.scheduler
          loop := .free } []
  | receive (free : pool.loop = .free) (done : pool.ready = []) (notified : pool.notified = true) :
      Effect pool .receive { pool with notified := false, loop := .draining } []
  | drain (turn : pool.loop = .draining) : Effect pool .drain pool.drain []
  | deliver {request : Request} {rest : List Request} (free : pool.loop = .free)
      (taken : pool.ready = request :: rest) :
      Effect pool .deliver { pool with ready := rest } (pool.report request)
  | stop (free : pool.loop = .free) :
      Effect pool .stop { pool with stopping := true, schedWakeup := true, loop := .notifyAll } []
  | notifyAll (turn : pool.loop = .notifyAll) : Effect pool .notifyAll pool.wakeAll []
  | schedule (turn : pool.scheduler = .awake) : Effect pool .schedule pool.schedule []
  | wakeScheduler (asleep : pool.scheduler = .blocked) :
      Effect pool .wakeScheduler { pool with scheduler := .awake } []
  | work {index : Nat} (found : pool.workers[index]? = some .awake) :
      Effect pool (.work index) (pool.lookAtQueue index .blocked) []
  | expire {index : Nat} (found : pool.workers[index]? = some .blocked) :
      Effect pool (.expire index) (pool.lookAtQueue index .left) []
  | wake {index : Nat} (found : pool.workers[index]? = some .blocked) :
      Effect pool (.wake index) (pool.setWorker index .awake) []
  | complete {index : Nat} {request : Request} (platform : Platform)
      (found : pool.workers[index]? = some (.resolving request)) :
      Effect pool (.complete index platform) (pool.complete index request platform) []
  | notify {index : Nat} (found : pool.workers[index]? = some .notifying) :
      Effect pool (.notify index) ({ pool with notified := true }.setWorker index .awake) []
  | finish {index : Nat} (found : pool.workers[index]? = some .left) :
      Effect pool (.finish index) (pool.setWorker index .finished) []

/-- The queue, the workers and the scheduler are left alone. -/
structure Aside (pool next : Pool) : Prop where
  pending : next.pending = pool.pending
  workers : next.workers = pool.workers
  busyWorkers : next.busyWorkers = pool.busyWorkers
  schedWakeup : next.schedWakeup = pool.schedWakeup
  stopping : next.stopping = pool.stopping
  scheduler : next.scheduler = pool.scheduler
  started : next.started = pool.started
  numbers : pool.nextRequest ≤ next.nextRequest
  loop : pool.loop ≠ .notifyWork ∧ pool.loop ≠ .notifySched

/-- A request has been queued. -/
structure Submits (request : Request) (pool next : Pool) : Prop where
  free : pool.loop = .free
  pending : next.pending = pool.pending ++ [request]
  workers : next.workers = pool.workers
  busyWorkers : next.busyWorkers = pool.busyWorkers
  schedWakeup : next.schedWakeup = true
  stopping : next.stopping = pool.stopping
  scheduler : next.scheduler = .awake ∨ next.scheduler = pool.scheduler
  running : pool.started = true ∨ next.scheduler = .awake
  started : next.started = true
  number : request.id = pool.nextRequest
  numbers : next.nextRequest = pool.nextRequest + 1
  loop : next.loop = .notifyWork

/-- What a worker adds to the number of busy ones. -/
def Worker.load (worker : Worker) : Nat := if worker.isResolving then 1 else 0

/-- The changes of a worker's place that leave the queue alone. -/
inductive Shift (pool : Pool) (index : Nat) : Label → Worker → Worker → Prop where
  | block (empty : pool.pending = []) : Shift pool index (.work index) .awake .blocked
  | expire (empty : pool.pending = []) : Shift pool index (.expire index) .blocked .left
  | quitAwake (stopping : pool.stopping = true) : Shift pool index (.work index) .awake .left
  | quitBlocked (stopping : pool.stopping = true) :
      Shift pool index (.expire index) .blocked .left
  | wake : Shift pool index (.wake index) .blocked .awake
  | complete (request : Request) (platform : Platform) :
      Shift pool index (.complete index platform) (.resolving request) .notifying
  | notify : Shift pool index (.notify index) .notifying .awake
  | finish : Shift pool index (.finish index) .left .finished

/-- One worker has changed its place. -/
structure Shifts (index : Nat) (old new : Worker) (pool next : Pool) : Prop where
  found : pool.workers[index]? = some old
  workers : next.workers = pool.workers.set index new
  busyWorkers : next.busyWorkers = pool.busyWorkers - old.load + new.load
  schedWakeup : next.schedWakeup = pool.schedWakeup
  stopping : next.stopping = pool.stopping
  scheduler : next.scheduler = pool.scheduler
  started : next.started = pool.started
  nextRequest : next.nextRequest = pool.nextRequest
  loop : next.loop = pool.loop

/-- The effects of a step. -/
inductive Move (pool : Pool) : Label → Pool → Prop where
  | aside {label : Label} {next : Pool} (app : label.owner = none) (same : Aside pool next) :
      Move pool label next
  | submit {label : Label} {next : Pool} (request : Request) (app : label.owner = none)
      (submits : Submits request pool next) : Move pool label next
  | cancel {label : Label} {next : Pool} (id : Nat) (app : label.owner = none)
      (same : Aside pool { next with pending := pool.pending })
      (pending : next.pending = pool.pending.eraseP (·.id == id)) : Move pool label next
  | notifyWork (turn : pool.loop = .notifyWork) :
      Move pool (.notifyWork none) { pool with loop := .notifySched }
  | notifyWorker (index : Nat) (turn : pool.loop = .notifyWork)
      (found : pool.workers[index]? = some .blocked) :
      Move pool (.notifyWork (some index))
        ({ pool with loop := .notifySched }.setWorker index .awake)
  | notifySched (turn : pool.loop = .notifySched) :
      Move pool .notifySched
        { pool with
          scheduler := if pool.scheduler = .blocked then .awake else pool.scheduler
          loop := .free }
  | stop {next : Pool} (stopping : next.stopping = true) (pending : next.pending = pool.pending)
      (workers : next.workers = pool.workers) (busyWorkers : next.busyWorkers = pool.busyWorkers)
      (scheduler : next.scheduler = pool.scheduler) (started : next.started = pool.started)
      (numbers : next.nextRequest = pool.nextRequest) (loop : next.loop = .notifyAll) :
      Move pool .stop next
  | notifyAll (turn : pool.loop = .notifyAll) : Move pool .notifyAll pool.wakeAll
  | pass (turn : pool.scheduler = .awake) : Move pool .schedule pool.schedule
  | wakeScheduler (asleep : pool.scheduler = .blocked) :
      Move pool .wakeScheduler { pool with scheduler := .awake }
  | shift {label : Label} {next : Pool} {index : Nat} {old new : Worker}
      (shift : Shift pool index label old new) (shifts : Shifts index old new pool next)
      (pending : next.pending = pool.pending) : Move pool label next
  | take {label : Label} {next : Pool} {index : Nat} {old : Worker} {request : Request}
      (mine : label.owner = some (.worker index)) (seeking : old = .awake ∨ old = .blocked)
      (shifts : Shifts index old (.resolving request) pool next)
      (pending : pool.pending = request :: next.pending) : Move pool label next

variable {index : Nat}

variable {notifier : Bool} {resolver : PooledResolver}

section Steps

variable {pool next : Pool} {acts : List Act} {label : Label}

theorem app_inv {result : Pool × List Act} (moved : pool.app result = some (next, acts)) :
    pool.loop = .free ∧ result = (next, acts) := by
  rw [Pool.app] at moved
  split at moved
  · exact ⟨‹_›, Option.some.inj moved⟩
  · cases moved

theorem worker_inv {place : Worker} {result : Pool}
    (moved : pool.worker index place result = some (next, acts)) :
    pool.workers[index]? = some place ∧ result = next ∧ acts = [] := by
  rw [Pool.worker] at moved
  split at moved
  · cases moved
    exact ⟨‹_›, rfl, rfl⟩
  · cases moved

theorem lookup_effect {name : Util.Bytes} (free : pool.loop = .free)
    (found : pool.resolvers[index]? = some (some resolver)) :
    Effect pool (.lookup index name notifier) (pool.lookup index resolver name notifier).1
      (pool.lookup index resolver name notifier).2 := by
  obtain ⟨eventHandler, request⟩ := resolver
  unfold Pool.lookup
  cases eventHandler with
  | none => exact .idle rfl free (by simp)
  | some handler =>
    dsimp only
    split
    · exact .idle rfl free (by simp [Act.request])
    · exact .ask _ _ _ _ rfl free ⟨request, found⟩

theorem lookupAddress_effect {address : Net.InetAddress} (free : pool.loop = .free)
    (found : pool.resolvers[index]? = some (some resolver)) :
    Effect pool (.lookupAddress index address notifier)
      (pool.lookupAddress index resolver address notifier).1
      (pool.lookupAddress index resolver address notifier).2 := by
  obtain ⟨eventHandler, request⟩ := resolver
  unfold Pool.lookupAddress
  cases eventHandler with
  | none => exact .idle rfl free (by simp)
  | some handler =>
    dsimp only
    split
    · exact .idle rfl free (by simp [Act.request])
    · exact .ask _ _ _ _ rfl free ⟨request, found⟩

/-- Every step has one of the effects. -/
theorem step_effect (moved : step pool label = some (next, acts)) :
    Effect pool label next acts := by
  cases label with
  | construct eventHandler =>
    obtain ⟨free, same⟩ := app_inv moved
    cases same
    exact .construct free
  | setMaxWorkers count =>
    obtain ⟨free, same⟩ := app_inv moved
    cases same
    exact .setMaxWorkers free
  | lookup index name notifier =>
    rw [step] at moved
    split at moved
    · obtain ⟨free, same⟩ := app_inv moved
      have effect := @lookup_effect index notifier _ pool name free ‹_›
      rwa [same] at effect
    · cases moved
  | lookupAddress index address notifier =>
    rw [step] at moved
    split at moved
    · obtain ⟨free, same⟩ := app_inv moved
      have effect := @lookupAddress_effect index notifier _ pool address free ‹_›
      rwa [same] at effect
    · cases moved
  | destroy index =>
    rw [step] at moved
    split at moved
    · obtain ⟨free, same⟩ := app_inv moved
      cases same
      exact .destroy free ‹_›
    · cases moved
  | notifyWork woken =>
    obtain ⟨turn, moved⟩ := Option.ite_none_right_eq_some.mp moved
    cases woken with
    | none =>
      obtain ⟨-, same⟩ := Option.ite_none_left_eq_some.mp moved
      cases same
      exact .notifyWork turn
    | some index =>
      obtain ⟨found, rfl, rfl⟩ := worker_inv moved
      exact .notifyWorker turn found
  | receive =>
    obtain ⟨⟨free, done, notified⟩, same⟩ := Option.ite_none_right_eq_some.mp moved
    cases same
    exact .receive free done notified
  | deliver =>
    rw [step] at moved
    split at moved
    · cases moved
    · obtain ⟨free, same⟩ := app_inv moved
      cases same
      exact .deliver free ‹_›
  | stop =>
    obtain ⟨free, same⟩ := app_inv moved
    cases same
    exact .stop free
  | notifySched | drain | notifyAll | schedule | wakeScheduler =>
    obtain ⟨turn, same⟩ := Option.ite_none_right_eq_some.mp moved
    cases same
    constructor
    exact turn
  | work index | expire index | wake index | notify index | finish index =>
    obtain ⟨found, rfl, rfl⟩ := worker_inv moved
    constructor
    exact found
  | complete index platform =>
    rw [step] at moved
    split at moved
    · cases moved
      exact .complete platform ‹_›
    · cases moved

theorem owner_of_asker (asker : label.asker = some index) : label.owner = none := by
  cases label with
  | lookup | lookupAddress => rfl
  | _ => cases asker

theorem not_notifying (free : pool.loop = .free) :
    pool.loop ≠ .notifyWork ∧ pool.loop ≠ .notifySched := by
  rw [free]
  exact ⟨nofun, nofun⟩

theorem startOnce_started (pool : Pool) (notifier : Bool)
    (started : (pool.startOnce notifier).started = true) :
    ((pool.startOnce notifier).scheduler = .awake ∨
      (pool.startOnce notifier).scheduler = pool.scheduler) ∧
      (pool.started = true ∨ (pool.startOnce notifier).scheduler = .awake) := by
  unfold Pool.startOnce at started ⊢
  split
  · exact ⟨.inr rfl, .inl ‹_›⟩
  split
  · exact ⟨.inl rfl, .inr rfl⟩
  · simp_all

/-- `startOnce()` starts the scheduler or does nothing. -/
theorem startOnce_aside (pool : Pool) (notifier : Bool) :
    (pool.startOnce notifier).pending = pool.pending ∧
      (pool.startOnce notifier).workers = pool.workers ∧
      (pool.startOnce notifier).busyWorkers = pool.busyWorkers ∧
      (pool.startOnce notifier).stopping = pool.stopping ∧
      (pool.startOnce notifier).nextRequest = pool.nextRequest ∧
      ((pool.startOnce notifier).started = false → pool.startOnce notifier = pool) := by
  unfold Pool.startOnce
  split
  · exact ⟨rfl, rfl, rfl, rfl, rfl, fun _ => rfl⟩
  split
  · exact ⟨rfl, rfl, rfl, rfl, rfl, nofun⟩
  · exact ⟨rfl, rfl, rfl, rfl, rfl, fun _ => rfl⟩

theorem ask_move {handler : Nat} {kind : Kind} {query : Util.Bytes} {address : Net.InetAddress}
    (app : label.owner = none) (free : pool.loop = .free) :
    Move pool label (pool.ask index handler kind query address notifier).1 := by
  unfold Pool.ask Pool.submit
  simp only
  generalize start : Pool.startOnce _ notifier = begun
  obtain ⟨pending, workers, busyWorkers, stopping, numbers, same⟩ :=
    start ▸ startOnce_aside _ notifier
  split
  · rename_i off
    have same := same (by simpa using off)
    subst same
    exact .aside app ⟨rfl, rfl, rfl, rfl, rfl, rfl, rfl, Nat.le_succ _, not_notifying free⟩
  · rename_i off
    have started : begun.started = true := by simpa using off
    obtain ⟨scheduler, running⟩ := start ▸ startOnce_started _ notifier (start ▸ started)
    exact .submit _ app
      ⟨free, congrArg (· ++ _) pending, workers, busyWorkers, rfl, stopping, scheduler, running,
        started, rfl, numbers, rfl⟩

theorem destroy_move (app : label.owner = none) (free : pool.loop = .free) :
    Move pool label (pool.destroy index resolver) := by
  unfold Pool.destroy
  cases resolver.request with
  | none => exact .aside app ⟨rfl, rfl, rfl, rfl, rfl, rfl, rfl, Nat.le_refl _, not_notifying free⟩
  | some id =>
    exact .cancel id app ⟨rfl, rfl, rfl, rfl, rfl, rfl, rfl, Nat.le_refl _, not_notifying free⟩ rfl

/-- What a worker that looks at the queue does. -/
theorem lookAtQueue_move {old idle : Worker} (mine : label.owner = some (.worker index))
    (seeking : old = .awake ∨ old = .blocked) (found : pool.workers[index]? = some old)
    (rests : idle.load = 0) (quits : pool.stopping = true → Shift pool index label old .left)
    (idles : pool.pending = [] → Shift pool index label old idle) :
    Move pool label (pool.lookAtQueue index idle) := by
  have light : old.load = 0 := by rcases seeking with rfl | rfl <;> rfl
  unfold Pool.lookAtQueue
  split
  · refine .shift (quits ‹_›) ⟨found, rfl, ?_, rfl, rfl, rfl, rfl, rfl, rfl⟩ rfl
    rw [light]
    rfl
  split
  · refine .shift (idles ‹_›) ⟨found, rfl, ?_, rfl, rfl, rfl, rfl, rfl, rfl⟩ rfl
    rw [light, rests]
    rfl
  refine .take mine seeking ⟨found, rfl, ?_, rfl, rfl, rfl, rfl, rfl, rfl⟩ ‹_›
  rw [light]
  rfl

/-- Every step is a move. -/
theorem step_move (moved : step pool label = some (next, acts)) : Move pool label next := by
  cases step_effect moved with
  | construct free | setMaxWorkers free | receive free | deliver free =>
    exact .aside rfl ⟨rfl, rfl, rfl, rfl, rfl, rfl, rfl, Nat.le_refl _, not_notifying free⟩
  | idle asker free =>
    exact .aside (owner_of_asker asker)
      ⟨rfl, rfl, rfl, rfl, rfl, rfl, rfl, Nat.le_refl _, not_notifying free⟩
  | ask _ _ _ _ asker free => exact ask_move (owner_of_asker asker) free
  | destroy free => exact destroy_move rfl free
  | notifyWork turn => exact .notifyWork turn
  | notifyWorker turn found => exact .notifyWorker _ turn found
  | notifySched turn => exact .notifySched turn
  | drain turn =>
    refine .aside rfl ⟨rfl, rfl, rfl, rfl, rfl, rfl, rfl, Nat.le_refl _, ?_⟩
    rw [turn]
    exact ⟨by rintro ⟨⟩, by rintro ⟨⟩⟩
  | stop => exact .stop rfl rfl rfl rfl rfl rfl rfl rfl
  | notifyAll turn => exact .notifyAll turn
  | schedule turn => exact .pass turn
  | wakeScheduler asleep => exact .wakeScheduler asleep
  | work found => exact lookAtQueue_move rfl (.inl rfl) found rfl .quitAwake .block
  | expire found => exact lookAtQueue_move rfl (.inr rfl) found rfl .quitBlocked .expire
  | wake found => exact .shift .wake ⟨found, rfl, rfl, rfl, rfl, rfl, rfl, rfl, rfl⟩ rfl
  | complete platform found =>
    exact .shift (.complete _ platform) ⟨found, rfl, rfl, rfl, rfl, rfl, rfl, rfl, rfl⟩ rfl
  | notify found => exact .shift .notify ⟨found, rfl, rfl, rfl, rfl, rfl, rfl, rfl, rfl⟩ rfl
  | finish found => exact .shift .finish ⟨found, rfl, rfl, rfl, rfl, rfl, rfl, rfl, rfl⟩ rfl

end Steps

end SamuraiFormal.Dns
