import SamuraiFormal.Dns.PoolWakeups

/-!
# How a request travels

A request is queued, resolved by a worker, completed, taken by the drain and reported.
`Travel` lists what a step does to the requests on their way, to the wake-up of the drain
and to the resolvers; `step_travel` finds one of its cases for every step.
-/

namespace SamuraiFormal.Dns

open Library.Traces
open List

/-- The worker has a result on its hands, or the wake-up for one. -/
def Worker.carries : Worker → Bool
  | .resolving _ => true
  | .notifying => true
  | _ => false

/-- A request's number and the handler that it is for. -/
structure Ticket where
  id : Nat
  handler : Nat

/-- The request has this number and this handler. -/
def Request.speaks (ticket : Ticket) (request : Request) : Bool :=
  request.id == ticket.id && request.handler == some ticket.handler

def Worker.serves (ticket : Ticket) : Worker → Bool
  | .resolving request => request.speaks ticket
  | _ => false

@[simp] theorem serves_resolving (ticket : Ticket) (request : Request) :
    (Worker.resolving request).serves ticket = request.speaks ticket := rfl

@[simp] theorem serves_notifying (ticket : Ticket) :
    Worker.notifying.serves ticket = false := rfl

@[simp] theorem serves_awake (ticket : Ticket) : Worker.awake.serves ticket = false := rfl

/-- How often a request is on its way. -/
def Pool.copies (ticket : Ticket) (pool : Pool) : Nat :=
  pool.pending.countP (·.speaks ticket) + pool.workers.countP (·.serves ticket) +
    pool.completed.countP (·.speaks ticket) + pool.ready.countP (·.speaks ticket)

/-- The handler that is called. -/
def Act.handler : Act → Nat
  | .eventHostFound handler _ _ => handler
  | .eventHostError handler _ _ => handler

/-- How often a request is reported to the handler. -/
def reports (ticket : Ticket) (acts : List Act) : Nat :=
  acts.countP fun act => act.request == some ticket.id && act.handler == ticket.handler

/-- The steps by which the loop drains. -/
def Label.drainer : Label → Option Thread
  | .receive | .drain | .deliver => some .loop
  | _ => none

/-- The application calls; no result moves. -/
structure Frame (pool next : Pool) : Prop where
  free : pool.loop = .free
  workers : next.workers = pool.workers
  completed : next.completed = pool.completed
  ready : next.ready = pool.ready
  notified : next.notified = pool.notified
  stopping : next.stopping = pool.stopping

/-- A resolver is given a request, which it keeps a handle on. -/
structure Asks (index handler : Nat) (request : Request) (pool next : Pool) : Prop where
  frame : Frame pool next
  dead : next.dead = pool.dead
  found : ∃ held, pool.resolvers[index]? = some (some ⟨some handler, held⟩)
  resolvers : next.resolvers = pool.resolvers.set index (some ⟨some handler, some request.id⟩)
  number : request.id = pool.nextRequest
  numbers : next.nextRequest = pool.nextRequest + 1
  manned : request.handler = some handler

/-- What the workers carry stays where it is. -/
structure Carried (before after : List Worker) : Prop where
  serves : ∀ ticket, after.countP (·.serves ticket) = before.countP (·.serves ticket)
  stays : ∀ (place : Nat) (worker : Worker), worker.carries = true →
    before[place]? = some worker → after[place]? = some worker

/-- Threads move, and no request with them. -/
structure Around (pool : Pool) (label : Label) (next : Pool) : Prop where
  other : label.drainer = none
  pending : next.pending = pool.pending
  completed : next.completed = pool.completed
  ready : next.ready = pool.ready
  notified : next.notified = pool.notified
  dead : next.dead = pool.dead
  numbers : next.nextRequest = pool.nextRequest
  resolvers : next.resolvers = pool.resolvers
  stopping : next.stopping = pool.stopping
  workers : Carried pool.workers next.workers
  loop : next.loop = pool.loop ∧ label.owner ≠ some .loop ∨
    pool.loop = .notifyWork ∧ next.loop = .notifySched ∨
    pool.loop = .notifySched ∧ next.loop = .free ∨
    pool.loop = .notifyAll ∧ next.loop = .joining

/-- What a step does to the requests. -/
inductive Travel (pool : Pool) : Label → Pool → List Act → Prop where
  | call {label : Label} {next : Pool} {acts : List Act} (other : label.drainer = none)
      (frame : Frame pool next) (pending : next.pending = pool.pending)
      (dead : next.dead = pool.dead) (numbers : next.nextRequest = pool.nextRequest)
      (loop : next.loop = pool.loop)
      (resolvers : next.resolvers = pool.resolvers ∨
        ∃ handler, next.resolvers = pool.resolvers ++ [some ⟨handler, none⟩])
      (silent : ∀ ticket, reports ticket acts = 0) : Travel pool label next acts
  | queue {label : Label} {next : Pool} {index handler : Nat} (request : Request)
      (asker : label.asker = some index) (asks : Asks index handler request pool next)
      (pending : next.pending = pool.pending ++ [request]) (loop : next.loop = .notifyWork) :
      Travel pool label next []
  | refuse {label : Label} {next : Pool} {index handler : Nat} (request : Request)
      (asker : label.asker = some index) (asks : Asks index handler request pool next)
      (pending : next.pending = pool.pending) (loop : next.loop = pool.loop) :
      Travel pool label next [.eventHostError handler (some request.id) .serverError]
  | forget {next : Pool} (index : Nat) (frame : Frame pool next)
      (found : ∃ handler, pool.resolvers[index]? = some (some ⟨handler, none⟩))
      (pending : next.pending = pool.pending) (dead : next.dead = pool.dead)
      (numbers : next.nextRequest = pool.nextRequest) (loop : next.loop = pool.loop)
      (resolvers : next.resolvers = pool.resolvers.set index none) :
      Travel pool (.destroy index) next []
  | cancel {next : Pool} (index id : Nat) (frame : Frame pool next)
      (found : ∃ handler, pool.resolvers[index]? = some (some ⟨handler, some id⟩))
      (pending : next.pending = pool.pending.eraseP (·.id == id))
      (dead : next.dead = id :: pool.dead) (numbers : next.nextRequest = pool.nextRequest)
      (loop : next.loop = pool.loop)
      (resolvers : next.resolvers = pool.resolvers.set index none) :
      Travel pool (.destroy index) next []
  | receive (free : pool.loop = .free) (done : pool.ready = []) (notified : pool.notified = true) :
      Travel pool .receive { pool with notified := false, loop := .draining } []
  | drain (turn : pool.loop = .draining) : Travel pool .drain pool.drain []
  | deliver {request : Request} {rest : List Request} (free : pool.loop = .free)
      (taken : pool.ready = request :: rest) :
      Travel pool .deliver { pool with ready := rest } (pool.report request)
  | stop (free : pool.loop = .free) :
      Travel pool .stop { pool with stopping := true, schedWakeup := true, loop := .notifyAll } []
  | around {label : Label} {next : Pool} (around : Around pool label next) :
      Travel pool label next []
  | take {label : Label} {next : Pool} {index : Nat} {old : Worker} {request : Request}
      (mine : label.owner = some (.worker index)) (idle : old.carries = false)
      (found : pool.workers[index]? = some old)
      (pending : pool.pending = request :: next.pending)
      (same : next = { pool with
        pending := next.pending
        workers := pool.workers.set index (.resolving request)
        busyWorkers := next.busyWorkers }) : Travel pool label next []
  | complete {index : Nat} {request : Request} (platform : Platform)
      (found : pool.workers[index]? = some (.resolving request)) :
      Travel pool (.complete index platform) (pool.complete index request platform) []
  | notify {index : Nat} (found : pool.workers[index]? = some .notifying) :
      Travel pool (.notify index) ({ pool with notified := true }.setWorker index .awake) []

variable {index : Nat}

variable {workers : List Worker} {old : Worker} {notifier : Bool} {resolver : PooledResolver}

theorem countP_set_worker (new : Worker) (ticket : Ticket) (found : workers[index]? = some old) :
    (workers.set index new).countP (·.serves ticket) + (if old.serves ticket then 1 else 0) =
      workers.countP (·.serves ticket) + (if new.serves ticket then 1 else 0) := by
  obtain ⟨inside, rfl⟩ := List.getElem?_eq_some_iff.mp found
  rw [countP_set inside]
  have counted : workers[index].serves ticket = true → 0 < workers.countP (·.serves ticket) :=
    fun serves => countP_pos_iff.mpr ⟨_, getElem_mem inside, serves⟩
  by_cases serves : workers[index].serves ticket = true
  · have := counted serves
    rw [if_pos serves]
    omega
  · rw [if_neg serves]
    omega

theorem serves_of_not_carries {worker : Worker} (idle : worker.carries = false) (ticket : Ticket) :
    worker.serves ticket = false := by
  cases worker with
  | resolving request => cases idle
  | awake | blocked | notifying | left | finished => rfl

theorem Carried.refl (workers : List Worker) : Carried workers workers :=
  ⟨fun _ => rfl, fun _ _ _ there => there⟩

/-- A worker that carries nothing changes its place to one where it carries nothing. -/
theorem carried_set {new : Worker} (found : workers[index]? = some old)
    (idle : old.carries = false) (rests : new.carries = false) :
    Carried workers (workers.set index new) where
  serves ticket := by
    have counted := countP_set_worker new ticket found
    rwa [serves_of_not_carries idle, serves_of_not_carries rests] at counted
  stays place worker carries there := by
    have apart : index ≠ place := by
      rintro rfl
      rw [found] at there
      cases there
      rw [idle] at carries
      cases carries
    rw [getElem?_set_ne apart]
    exact there

theorem carried_startWorker (workers : List Worker) :
    Carried workers (Pool.startWorker workers) := by
  rcases startWorker_spec workers with ⟨slot, found, same⟩ | same
  · rw [same]
    exact carried_set found rfl rfl
  rw [same]
  refine ⟨fun ticket => ?_, fun place worker _ there => ?_⟩
  · rw [countP_append]
    rfl
  · obtain ⟨inside, -⟩ := List.getElem?_eq_some_iff.mp there
    rw [getElem?_append_left inside]
    exact there

theorem carried_wakeAll (pool : Pool) : Carried pool.workers pool.wakeAll.workers where
  serves ticket := by
    rw [Pool.wakeAll, countP_map]
    refine countP_congr fun worker _ => ?_
    cases worker <;> rfl
  stays place worker carries there := by
    rw [Pool.wakeAll, getElem?_map, there, Option.map_some, if_neg]
    rintro rfl
    cases carries

section Steps

variable {pool next : Pool} {acts : List Act} {label : Label}

/-- Only the workers and the scheduler change. -/
theorem around_travel (label : Label) (other : label.drainer = none)
    (mine : label.owner ≠ some .loop) (carried : Carried pool.workers workers)
    (scheduler : Scheduler) (schedWakeup : Bool) :
    Travel pool label
      { pool with workers := workers, scheduler := scheduler, schedWakeup := schedWakeup } [] :=
  .around ⟨other, rfl, rfl, rfl, rfl, rfl, rfl, rfl, rfl, carried, .inl ⟨rfl, mine⟩⟩

theorem ask_travel {handler : Nat} {kind : Kind} {query : Util.Bytes} {address : Net.InetAddress}
    (asker : label.asker = some index) (free : pool.loop = .free)
    (found : ∃ held, pool.resolvers[index]? = some (some ⟨some handler, held⟩)) :
    Travel pool label (pool.ask index handler kind query address notifier).1
      (pool.ask index handler kind query address notifier).2 := by
  rw [Pool.ask, Pool.submit]
  -- only a pool that has not started and cannot refuses
  cases started : pool.started <;> cases notifier <;> simp only [Pool.startOnce, started]
  case false.false =>
    exact .refuse ⟨pool.nextRequest, kind, query, false, address, [], .unknown, some handler⟩
      asker ⟨⟨free, rfl, rfl, rfl, rfl, rfl⟩, rfl, found, rfl, rfl, rfl, rfl⟩ rfl rfl
  all_goals
    exact .queue _ asker
      ⟨⟨free, rfl, rfl, rfl, rfl, rfl⟩, rfl, found, rfl, rfl, rfl, rfl⟩ rfl rfl

theorem reports_of_none (silent : ∀ act ∈ acts, act.request = none) (ticket : Ticket) :
    reports ticket acts = 0 := by
  refine countP_eq_zero.mpr fun act among => ?_
  rw [silent act among]
  simp

theorem drainer_of_asker (asker : label.asker = some index) : label.drainer = none := by
  cases label with
  | lookup | lookupAddress => rfl
  | _ => cases asker

theorem destroy_travel (found : pool.resolvers[index]? = some (some resolver))
    (free : pool.loop = .free) : Travel pool (.destroy index) (pool.destroy index resolver) [] := by
  obtain ⟨handler, request⟩ := resolver
  cases request with
  | none =>
    exact .forget index ⟨free, rfl, rfl, rfl, rfl, rfl⟩ ⟨handler, found⟩ rfl rfl rfl rfl rfl
  | some id =>
    exact .cancel index id ⟨free, rfl, rfl, rfl, rfl, rfl⟩ ⟨handler, found⟩ rfl rfl rfl rfl rfl

theorem lookAtQueue_travel {idle : Worker} (mine : label.owner = some (.worker index))
    (other : label.drainer = none) (found : pool.workers[index]? = some old)
    (seeks : old.carries = false) (rests : idle.carries = false) :
    Travel pool label (pool.lookAtQueue index idle) [] := by
  have apart : label.owner ≠ some .loop := by
    rw [mine]
    nofun
  unfold Pool.lookAtQueue
  split
  · exact around_travel _ other apart (carried_set found seeks rfl) _ _
  split
  · exact around_travel _ other apart (carried_set found seeks rests) _ _
  · next request rest queued => exact .take mine seeks found queued rfl

theorem schedule_travel (pool : Pool) : Travel pool .schedule pool.schedule [] := by
  unfold Pool.schedule
  split
  · exact around_travel .schedule rfl (by rintro ⟨⟩) (.refl _) _ _
  split
  · exact around_travel .schedule rfl (by rintro ⟨⟩) (.refl _) _ _
  split
  · exact around_travel .schedule rfl (by rintro ⟨⟩) (carried_startWorker _) _ _
  · exact around_travel .schedule rfl (by rintro ⟨⟩) (.refl _) _ _

theorem step_travel (moved : step pool label = some (next, acts)) :
    Travel pool label next acts := by
  cases step_effect moved with
  | construct free =>
    exact .call rfl ⟨free, rfl, rfl, rfl, rfl, rfl⟩ rfl rfl rfl rfl (.inr ⟨_, rfl⟩) fun _ => rfl
  | setMaxWorkers free =>
    exact .call rfl ⟨free, rfl, rfl, rfl, rfl, rfl⟩ rfl rfl rfl rfl (.inl rfl) fun _ => rfl
  | idle asker free silent =>
    exact .call (drainer_of_asker asker) ⟨free, rfl, rfl, rfl, rfl, rfl⟩ rfl rfl rfl rfl (.inl rfl)
      (reports_of_none silent)
  | ask _ _ _ _ asker free found => exact ask_travel asker free found
  | destroy free found => exact destroy_travel found free
  | notifyWork turn =>
    exact .around ⟨rfl, rfl, rfl, rfl, rfl, rfl, rfl, rfl, rfl, .refl _, .inr (.inl ⟨turn, rfl⟩)⟩
  | notifyWorker turn found =>
    exact .around ⟨rfl, rfl, rfl, rfl, rfl, rfl, rfl, rfl, rfl, carried_set found rfl rfl,
      .inr (.inl ⟨turn, rfl⟩)⟩
  | notifySched turn =>
    exact .around ⟨rfl, rfl, rfl, rfl, rfl, rfl, rfl, rfl, rfl, .refl _,
      .inr (.inr (.inl ⟨turn, rfl⟩))⟩
  | receive free done notified => exact .receive free done notified
  | drain turn => exact .drain turn
  | deliver free taken => exact .deliver free taken
  | stop free => exact .stop free
  | notifyAll turn =>
    exact .around ⟨rfl, rfl, rfl, rfl, rfl, rfl, rfl, rfl, rfl, carried_wakeAll pool,
      .inr (.inr (.inr ⟨turn, rfl⟩))⟩
  | schedule => exact schedule_travel pool
  | wakeScheduler => exact around_travel .wakeScheduler rfl (by rintro ⟨⟩) (.refl _) _ _
  | work found | expire found => exact lookAtQueue_travel rfl rfl found rfl rfl
  | @wake index found =>
    exact around_travel (.wake index) rfl (by rintro ⟨⟩) (carried_set found rfl rfl) _ _
  | complete platform found => exact .complete platform found
  | notify found => exact .notify found
  | @finish index found =>
    exact around_travel (.finish index) rfl (by rintro ⟨⟩) (carried_set found rfl rfl) _ _

end Steps

end SamuraiFormal.Dns
