import SamuraiFormal.Library.Traces
import SamuraiFormal.Net.InetAddress

/-!
# The resolver pool

`ResolverPool` runs lookups on worker threads and reports them on the loop thread.  A
step is one section under the mutex, one wake-up or time-out of a condition variable, one
store to a worker's `finished` flag, or one callback.  The loop thread runs the
application, the notifications that end `submit()`, and the drain; a handler that the
drain calls is the application again, so its calls come between two deliveries.
-/

namespace SamuraiFormal.Dns

open Util
open Net

inductive Kind where
  | forward
  | reverse
  deriving DecidableEq, Repr

/-- `Resolver::Error`. -/
inductive ResolverError where
  | notFound
  | noAddress
  | serverError
  | tryAgain
  | unknown
  deriving DecidableEq, Repr

/-- The results of `getaddrinfo()` that are told apart. -/
inductive EaiError where
  | noName
  | again
  | fail
  | noData
  | memory
  | other
  deriving DecidableEq, Repr

def mapResolveError : EaiError → ResolverError
  | .noName => .notFound
  | .again => .tryAgain
  | .fail => .serverError
  | .noData => .noAddress
  | .memory => .serverError
  | .other => .unknown

/-- One entry of a `getaddrinfo()` list; another family or a short address is skipped. -/
inductive Candidate where
  | inet (octets : Octets 4)
  | inet6 (octets : Octets 16)
  | skipped
  deriving DecidableEq

def Candidate.ip : Candidate → Option IpAddress
  | .inet octets => some (.v4 octets)
  | .inet6 octets => some (.v6 octets)
  | .skipped => none

/-- What the platform answers, whichever way it is asked. -/
structure Platform where
  getaddrinfo : Except EaiError (List Candidate)
  getnameinfo : Except EaiError Bytes

/-- A `Request`; its `dead` flag is kept by the pool under the request's number. -/
structure Request where
  id : Nat
  kind : Kind
  query : Bytes
  ok : Bool
  address : InetAddress
  name : Bytes
  error : ResolverError
  handler : Option Nat
  deriving DecidableEq

def resolveForward (platform : Platform) (request : Request) : Request :=
  match platform.getaddrinfo with
  | .error rc => { request with error := mapResolveError rc, ok := false }
  | .ok candidates =>
    match candidates.findSome? Candidate.ip with
    | some ip =>
      { request with
        ok := true
        address := { request.address with ip := some ip, resolveState := .resolved } }
    | none => { request with ok := false, error := .noAddress }

def resolveReverse (platform : Platform) (request : Request) : Request :=
  match request.address.ip with
  | none => { request with error := .notFound, ok := false }
  | some _ =>
    match platform.getnameinfo with
    | .error rc => { request with error := mapResolveError rc, ok := false }
    | .ok host => { request with name := host, ok := true }

def Request.resolve (platform : Platform) (request : Request) : Request :=
  match request.kind with
  | .forward => resolveForward platform request
  | .reverse => resolveReverse platform request

/-- Where a worker thread is in `work()`. -/
inductive Worker where
  /-- about to take the lock and look at the queue -/
  | awake
  /-- in `cv_work.wait_for()` -/
  | blocked
  | resolving (request : Request)
  /-- the result is queued, the notifier not yet written -/
  | notifying
  /-- out of the loop, the flag not yet stored -/
  | left
  | finished
  deriving DecidableEq

def Worker.inLoop : Worker → Bool
  | .left => false
  | .finished => false
  | _ => true

def Worker.isFinished : Worker → Bool
  | .finished => true
  | _ => false

def Worker.isResolving : Worker → Bool
  | .resolving _ => true
  | _ => false

/-- Where the scheduler thread is in `schedule()`. -/
inductive Scheduler where
  | absent
  | awake
  | blocked
  | returned
  deriving DecidableEq

/-- What the loop thread does next. -/
inductive LoopThread where
  /-- the application, also inside a handler -/
  | free
  | notifyWork
  | notifySched
  /-- the notifier has been read, the completed queue not yet taken -/
  | draining
  | notifyAll
  | joining
  deriving DecidableEq

structure PooledResolver where
  eventHandler : Option Nat
  request : Option Nat
  deriving DecidableEq

structure Pool where
  pending : List Request
  completed : List Request
  workers : List Worker
  maxWorkers : Nat
  busyWorkers : Nat
  schedWakeup : Bool
  stopping : Bool
  started : Bool
  scheduler : Scheduler
  loop : LoopThread
  /-- completed requests that the drain has taken and not yet reported -/
  ready : List Request
  /-- a byte is waiting in the notifier -/
  notified : Bool
  dead : List Nat
  nextRequest : Nat
  resolvers : List (Option PooledResolver)
  /-- the pool may always run a worker -/
  some_worker : 0 < maxWorkers

/-- `ResolverPool()`. -/
def Pool.fresh : Pool where
  pending := []
  completed := []
  workers := []
  maxWorkers := 4
  busyWorkers := 0
  schedWakeup := false
  stopping := false
  started := false
  scheduler := .absent
  loop := .free
  ready := []
  notified := false
  dead := []
  nextRequest := 0
  resolvers := []
  some_worker := by decide

inductive Act where
  | eventHostFound (handler request : Nat) (address : InetAddress)
  | eventHostError (handler : Nat) (request : Option Nat) (error : ResolverError)
  deriving DecidableEq

namespace Pool

/-- `startOnce()`; the argument says whether a notifier can be created. -/
def startOnce (pool : Pool) (notifier : Bool) : Pool :=
  if pool.started then pool
  else if notifier then { pool with scheduler := .awake, started := true }
  else pool

/-- `submit()`, up to its notifications. -/
def submit (pool : Pool) (request : Request) (notifier : Bool) : Pool × List Act :=
  let pool := pool.startOnce notifier
  if !pool.started then
    (pool, request.handler.toList.map (.eventHostError · (some request.id) .serverError))
  else
    ({ pool with
      pending := pool.pending ++ [request]
      schedWakeup := true
      loop := .notifyWork }, [])

def cancel (pool : Pool) (id : Nat) : Pool :=
  { pool with
    dead := id :: pool.dead
    pending := pool.pending.eraseP (·.id == id) }

def setMaxWorkers (pool : Pool) (count : Nat) : Pool :=
  { pool with
    maxWorkers := if count = 0 then 1 else count
    some_worker := by split <;> omega }

/-- Start a request that its resolver keeps a handle on. -/
def ask (pool : Pool) (index : Nat) (handler : Nat) (kind : Kind) (query : Bytes)
    (address : InetAddress) (notifier : Bool) : Pool × List Act :=
  let request : Request :=
    ⟨pool.nextRequest, kind, query, false, address, [], .unknown, some handler⟩
  submit
    { pool with
      nextRequest := pool.nextRequest + 1
      resolvers := pool.resolvers.set index (some ⟨some handler, some request.id⟩) }
    request notifier

/-- `PooledResolver::lookup()`; no name at all is the empty one. -/
def lookup (pool : Pool) (index : Nat) (resolver : PooledResolver) (name : Bytes)
    (notifier : Bool) : Pool × List Act :=
  match resolver.eventHandler with
  | none => (pool, [])
  | some handler =>
    if cString name = [] then (pool, [.eventHostError handler none .notFound])
    else ask pool index handler .forward (cString name) ⟨[], none, .unresolved⟩ notifier

/-- `PooledResolver::lookupAddress()`. -/
def lookupAddress (pool : Pool) (index : Nat) (resolver : PooledResolver)
    (address : InetAddress) (notifier : Bool) : Pool × List Act :=
  match resolver.eventHandler with
  | none => (pool, [])
  | some handler =>
    if !address.ip.any IpAddress.isValid then (pool, [.eventHostError handler none .notFound])
    else ask pool index handler .reverse [] address notifier

/-- `~PooledResolver()`. -/
def destroy (pool : Pool) (index : Nat) (resolver : PooledResolver) : Pool :=
  let pool := { pool with resolvers := pool.resolvers.set index none }
  match resolver.request with
  | none => pool
  | some id => pool.cancel id

/-- `drain()` under the lock. -/
def drain (pool : Pool) : Pool :=
  { pool with ready := pool.completed, completed := [], loop := .free }

/-- What `drain()` tells the handler of one request. -/
def report (pool : Pool) (request : Request) : List Act :=
  match request.handler with
  | none => []
  | some handler =>
    if request.id ∈ pool.dead then []
    else if !request.ok then [.eventHostError handler (some request.id) request.error]
    else
      match request.kind with
      | .forward => [.eventHostFound handler request.id request.address]
      | .reverse =>
        [.eventHostFound handler request.id { request.address with hostname := request.name }]

/-- The workers that have not stored their flag. -/
def live (pool : Pool) : Nat := pool.workers.countP (!·.isFinished)

/-- A new worker, in the first slot whose thread has returned if there is one. -/
def startWorker (workers : List Worker) : List Worker :=
  match workers.findIdx? Worker.isFinished with
  | some slot => workers.set slot .awake
  | none => workers ++ [.awake]

/-- The headcount allows another worker. -/
def wantsWorker (pool : Pool) : Bool :=
  !(pool.pending = [] || pool.busyWorkers < pool.live || pool.maxWorkers ≤ pool.live)

/-- The section of `schedule()`: wait, or one pass of the loop. -/
def schedule (pool : Pool) : Pool :=
  if !(pool.stopping || pool.schedWakeup) then { pool with scheduler := .blocked }
  else if pool.stopping then { pool with schedWakeup := false, scheduler := .returned }
  else if pool.wantsWorker then
    { pool with schedWakeup := false, workers := startWorker pool.workers }
  else { pool with schedWakeup := false }

def setWorker (pool : Pool) (index : Nat) (worker : Worker) : Pool :=
  { pool with workers := pool.workers.set index worker }

/-- A worker tests the predicate of its wait, and takes a request if there is one.  What
it becomes without one depends on whether its time is up. -/
def lookAtQueue (pool : Pool) (index : Nat) (idle : Worker) : Pool :=
  if pool.stopping then pool.setWorker index .left
  else
    match pool.pending with
    | [] => pool.setWorker index idle
    | request :: rest =>
      setWorker
        { pool with pending := rest, busyWorkers := pool.busyWorkers + 1 }
        index (.resolving request)

/-- The lookup is over and its result is queued. -/
def complete (pool : Pool) (index : Nat) (request : Request) (platform : Platform) : Pool :=
  setWorker
    { pool with
      completed := pool.completed ++ [request.resolve platform]
      busyWorkers := pool.busyWorkers - 1 }
    index .notifying

/-- `notify_all()` on both condition variables. -/
def wakeAll (pool : Pool) : Pool :=
  { pool with
    workers := pool.workers.map fun worker => if worker = .blocked then .awake else worker
    scheduler := if pool.scheduler = .blocked then .awake else pool.scheduler
    loop := .joining }

end Pool

inductive Label where
  | construct (eventHandler : Option Nat)
  | lookup (index : Nat) (name : Bytes) (notifier : Bool)
  | lookupAddress (index : Nat) (address : InetAddress) (notifier : Bool)
  | destroy (index : Nat)
  | setMaxWorkers (count : Nat)
  /-- `cv_work.notify_one()`, and which blocked worker it wakes -/
  | notifyWork (woken : Option Nat)
  | notifySched
  /-- the monitor finds the notifier readable -/
  | receive
  | drain
  | deliver
  | stop
  | notifyAll
  | schedule
  /-- the scheduler wakes without having been notified -/
  | wakeScheduler
  | work (index : Nat)
  /-- a worker wakes without having been notified -/
  | wake (index : Nat)
  | expire (index : Nat)
  | complete (index : Nat) (platform : Platform)
  | notify (index : Nat)
  | finish (index : Nat)

/-- The application runs and the step is its call. -/
def Pool.app (pool : Pool) (result : Pool × List Act) : Option (Pool × List Act) :=
  if pool.loop = .free then some result else none

/-- A step of a worker that is at a given place. -/
def Pool.worker (pool : Pool) (index : Nat) (place : Worker) (next : Pool) :
    Option (Pool × List Act) :=
  if pool.workers[index]? = some place then some (next, []) else none

/-- One step of one thread. -/
def step (pool : Pool) : Label → Option (Pool × List Act)
  | .construct eventHandler =>
    pool.app ({ pool with resolvers := pool.resolvers ++ [some ⟨eventHandler, none⟩] }, [])
  | .lookup index name notifier =>
    match pool.resolvers[index]? with
    | some (some resolver) => pool.app (pool.lookup index resolver name notifier)
    | _ => none
  | .lookupAddress index address notifier =>
    match pool.resolvers[index]? with
    | some (some resolver) => pool.app (pool.lookupAddress index resolver address notifier)
    | _ => none
  | .destroy index =>
    match pool.resolvers[index]? with
    | some (some resolver) => pool.app (pool.destroy index resolver, [])
    | _ => none
  | .setMaxWorkers count => pool.app (pool.setMaxWorkers count, [])
  | .notifyWork woken =>
    if pool.loop = .notifyWork then
      match woken with
      | none =>
        if Worker.blocked ∈ pool.workers then none
        else some ({ pool with loop := .notifySched }, [])
      | some index =>
        pool.worker index .blocked ({ pool with loop := .notifySched }.setWorker index .awake)
    else none
  | .notifySched =>
    if pool.loop = .notifySched then
      some ({ pool with
        scheduler := if pool.scheduler = .blocked then .awake else pool.scheduler
        loop := .free }, [])
    else none
  | .receive =>
    if pool.loop = .free ∧ pool.ready = [] ∧ pool.notified then
      some ({ pool with notified := false, loop := .draining }, [])
    else none
  | .drain => if pool.loop = .draining then some (pool.drain, []) else none
  | .deliver =>
    match pool.ready with
    | [] => none
    | request :: rest => pool.app ({ pool with ready := rest }, pool.report request)
  | .stop => pool.app ({ pool with stopping := true, schedWakeup := true, loop := .notifyAll }, [])
  | .notifyAll => if pool.loop = .notifyAll then some (pool.wakeAll, []) else none
  | .schedule => if pool.scheduler = .awake then some (pool.schedule, []) else none
  | .wakeScheduler =>
    if pool.scheduler = .blocked then some ({ pool with scheduler := .awake }, []) else none
  | .work index => pool.worker index .awake (pool.lookAtQueue index .blocked)
  | .wake index => pool.worker index .blocked (pool.setWorker index .awake)
  | .expire index => pool.worker index .blocked (pool.lookAtQueue index .left)
  | .complete index platform =>
    match pool.workers[index]? with
    | some (.resolving request) => some (pool.complete index request platform, [])
    | _ => none
  | .notify index =>
    pool.worker index .notifying ({ pool with notified := true }.setWorker index .awake)
  | .finish index => pool.worker index .left (pool.setWorker index .finished)

end SamuraiFormal.Dns
