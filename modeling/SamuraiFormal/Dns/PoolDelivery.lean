import SamuraiFormal.Dns.PoolProgress
import SamuraiFormal.Dns.PoolReports

/-!
# Every lookup is reported

In a fair behaviour in which the loop keeps draining, a request that is on its way gets from
the queue to a worker, from the worker to the completed ones, from there to the drain and
from the drain to its handler.  A lookup is reported exactly once unless its resolver is
destroyed or the pool stops.  The destructor of a resolver cancels its last lookup only: an
earlier one that is still on its way is reported to the handler of a resolver that is gone.
-/

namespace SamuraiFormal.Dns

open Library.Traces
open Library.Fairness
open List

def InFlight (ticket : Ticket) (index : Nat) (pool : Pool) : Prop :=
  ∃ request, pool.workers[index]? = some (.resolving request) ∧ request.speaks ticket = true

def Completed (ticket : Ticket) (pool : Pool) : Prop :=
  ∃ request ∈ pool.completed, request.speaks ticket = true

def Ready (ticket : Ticket) (pool : Pool) : Prop :=
  ∃ request ∈ pool.ready, request.speaks ticket = true

variable {pool next : Pool} {acts : List Act} {index : Nat}

theorem place_of_copies {ticket : Ticket} (some' : pool.copies ticket ≠ 0) :
    Queued ticket.id pool ∨ (∃ index, InFlight ticket index pool) ∨ Completed ticket pool ∨
    Ready ticket pool := by
  by_contra nowhere
  rw [not_or, not_or, not_or] at nowhere
  obtain ⟨notQueued, notFlying, notCompleted, notReady⟩ := nowhere
  have queue : pool.pending.countP (·.speaks ticket) = 0 := by
    rw [countP_eq_zero]
    intro request among speaks
    exact notQueued (mem_map.mpr ⟨request, among, (speaks_iff_eq.mp speaks).1⟩)
  have workers : pool.workers.countP (·.serves ticket) = 0 := by
    rw [countP_eq_zero]
    intro worker among serves
    obtain ⟨index, found⟩ := mem_iff_getElem?.mp among
    cases worker with
    | resolving request => exact notFlying ⟨index, request, found, serves⟩
    | awake | blocked | notifying | left | finished => cases serves
  have completed : pool.completed.countP (·.speaks ticket) = 0 := by
    rw [countP_eq_zero]
    exact fun request among speaks => notCompleted ⟨request, among, speaks⟩
  have ready : pool.ready.countP (·.speaks ticket) = 0 := by
    rw [countP_eq_zero]
    exact fun request among speaks => notReady ⟨request, among, speaks⟩
  rw [Pool.copies, queue, workers, completed, ready] at some'
  exact some' rfl

/-! ## What one step does to its place -/

section Steps

variable {pool next : Pool} {acts : List Act} {label : Label} {ticket : Ticket} {index : Nat}

/-- What a worker carries stays with it until its own step. -/
theorem Travel.carried (travel : Travel pool label next acts) {worker : Worker}
    (found : pool.workers[index]? = some worker) (carries : worker.carries = true) :
    next.workers[index]? = some worker ∨
      (∃ request platform, worker = .resolving request ∧
        next = pool.complete index request platform) ∨
      worker = .notifying ∧ next.notified = true := by
  have set' {place : Nat} {old new : Worker} (there : pool.workers[place]? = some old)
      (other : old ≠ worker) : (pool.workers.set place new)[index]? = some worker := by
    rcases @getElem?_set_cases _ _ _ _ _ new found there with ⟨-, kept⟩ | ⟨-, same, -⟩
    · exact kept
    · exact absurd same other
  cases travel with
  | call _ frame | forget _ frame | cancel _ _ frame =>
    rw [frame.workers]
    exact .inl found
  | queue _ _ asks | refuse _ _ asks =>
    rw [asks.frame.workers]
    exact .inl found
  | receive | drain | deliver | stop => exact .inl found
  | around around => exact .inl (around.workers.stays index worker carries found)
  | @take _ _ place old request mine idle there pending same =>
    refine .inl ?_
    rw [same]
    refine set' there ?_
    rintro rfl
    rw [idle] at carries
    cases carries
  | @complete place request platform there =>
    rcases @getElem?_set_cases _ _ _ _ _ .notifying found there with ⟨-, kept⟩ | ⟨rfl, rfl, -⟩
    · exact .inl kept
    · exact .inr (.inl ⟨request, platform, rfl, rfl⟩)
  | @notify place there =>
    rcases @getElem?_set_cases _ _ _ _ _ .awake found there with ⟨-, kept⟩ | ⟨rfl, rfl, -⟩
    · exact .inl kept
    · exact .inr (.inr ⟨rfl, rfl⟩)

/-- The own step of a worker that carries something. -/
theorem carrier_step {worker : Worker} (moved : step pool label = some (next, acts))
    (mine : label.owner = some (.worker index)) (found : pool.workers[index]? = some worker)
    (carries : worker.carries = true) :
    (∃ request platform, worker = .resolving request ∧
        next = pool.complete index request platform) ∨
      worker = .notifying ∧ next.notified = true := by
  cases step_effect moved with
  | idle asker | ask _ _ _ _ asker =>
    rw [owner_of_asker asker] at mine
    cases mine
  | work there | expire there | finish there =>
    cases mine
    rw [found] at there
    cases there
    cases carries
  | complete platform there =>
    cases mine
    rw [found] at there
    cases there
    exact .inl ⟨_, platform, rfl, rfl⟩
  | notify there =>
    cases mine
    rw [found] at there
    cases there
    exact .inr ⟨rfl, rfl⟩
  | _ => cases mine

theorem completed_of_complete {request : Request} {platform : Platform}
    (speaks : request.speaks ticket = true) :
    Completed ticket (pool.complete index request platform) :=
  ⟨request.resolve platform, mem_append_right _ mem_cons_self,
    (speaks_resolve platform ticket request).trans speaks⟩

theorem Travel.inFlight (travel : Travel pool label next acts)
    (flying : InFlight ticket index pool) :
    InFlight ticket index next ∨ Completed ticket next := by
  obtain ⟨request, found, speaks⟩ := flying
  rcases travel.carried found rfl with kept | ⟨other, platform, same, rfl⟩ | ⟨same, -⟩
  · exact .inl ⟨request, kept, speaks⟩
  · cases same
    exact .inr (completed_of_complete speaks)
  · cases same

/-- A completed request stays, or the drain has taken it. -/
theorem Travel.completed (travel : Travel pool label next acts)
    (completed : Completed ticket pool) :
    Completed ticket next ∧ next.ready.length ≤ pool.ready.length ∨
      pool.loop = .draining ∧ Ready ticket next := by
  obtain ⟨request, among, speaks⟩ := completed
  have kept (same : next.completed = pool.completed) : Completed ticket next :=
    ⟨request, same ▸ among, speaks⟩
  cases travel with
  | call _ frame | forget _ frame | cancel _ _ frame =>
    exact .inl ⟨kept frame.completed, Nat.le_of_eq (congrArg _ frame.ready)⟩
  | queue _ _ asks | refuse _ _ asks =>
    exact .inl ⟨kept asks.frame.completed, Nat.le_of_eq (congrArg _ asks.frame.ready)⟩
  | receive | stop | notify => exact .inl ⟨kept rfl, Nat.le_refl _⟩
  | drain turn => exact .inr ⟨turn, request, among, speaks⟩
  | deliver _ taken =>
    refine .inl ⟨kept rfl, ?_⟩
    rw [taken]
    exact Nat.le_succ _
  | around around =>
    exact .inl ⟨kept around.completed, Nat.le_of_eq (congrArg _ around.ready)⟩
  | take _ _ _ _ same =>
    refine .inl ⟨kept ?_, ?_⟩
    · rw [same]
    · rw [same]
  | complete => exact .inl ⟨⟨request, mem_append_left _ among, speaks⟩, Nat.le_refl _⟩

theorem ready_of_drain (moved : step pool label = some (next, acts)) (drained : label = .drain)
    (completed : Completed ticket pool) : Ready ticket next := by
  subst drained
  cases step_effect moved with
  | drain => exact completed
  | idle asker | ask _ _ _ _ asker => cases asker

section

variable (travel : Travel pool label next acts)
include travel

/-- The notifier stays readable until it is read. -/
theorem Travel.notified (notified : pool.notified = true) :
    next.notified = true ∨ label = .receive ∧ next.loop = .draining := by
  cases travel with
  | call _ frame | forget _ frame | cancel _ _ frame => exact .inl (frame.notified.trans notified)
  | queue _ _ asks | refuse _ _ asks => exact .inl (asks.frame.notified.trans notified)
  | receive => exact .inr ⟨rfl, rfl⟩
  | drain | deliver | stop | complete => exact .inl notified
  | around around => exact .inl (around.notified.trans notified)
  | take _ _ _ _ same =>
    refine .inl ?_
    rw [same]
    exact notified
  | notify => exact .inl rfl

/-- Nothing else happens on the loop thread before the drain has taken the results. -/
theorem Travel.draining (turn : pool.loop = .draining) :
    next.loop = .draining ∧ label.drainer = none ∨ label = .drain := by
  cases travel with
  | call _ frame | forget _ frame | cancel _ _ frame =>
    rw [frame.free] at turn
    cases turn
  | queue _ _ asks | refuse _ _ asks =>
    rw [asks.frame.free] at turn
    cases turn
  | receive free | deliver free | stop free =>
    rw [free] at turn
    cases turn
  | drain => exact .inr rfl
  | around around =>
    rcases around.loop with ⟨same, -⟩ | ⟨was, -⟩ | ⟨was, -⟩ | ⟨was, -⟩
    · exact .inl ⟨same.trans turn, around.other⟩
    all_goals
      rw [turn] at was
      cases was
  | take mine _ _ _ same =>
    refine .inl ⟨?_, ?_⟩
    · rw [same]
      exact turn
    · cases label <;> first | rfl | cases mine
  | complete | notify => exact .inl ⟨turn, rfl⟩

/-- The steps of the drain. -/
theorem Travel.drained (mine : label.drainer = some .loop) :
    pool.ready = [] ∧ next.loop = .draining ∨
      pool.loop = .draining ∧ next.ready = pool.completed ∨
      ∃ request, pool.ready = request :: next.ready ∧ next = { pool with ready := next.ready } := by
  cases travel with
  | call other =>
    rw [other] at mine
    cases mine
  | queue _ asker | refuse _ asker =>
    cases label with
    | receive | drain | deliver => cases asker
    | _ => cases mine
  | forget | cancel | stop | complete | notify => cases mine
  | receive _ done => exact .inl ⟨done, rfl⟩
  | drain turn => exact .inr (.inl ⟨turn, rfl⟩)
  | deliver _ taken => exact .inr (.inr ⟨_, taken, rfl⟩)
  | around around =>
    rw [around.other] at mine
    cases mine
  | take other =>
    cases label with
    | receive | drain | deliver => cases other
    | _ => cases mine

/-- Nobody but the drain touches what it has taken. -/
theorem Travel.ready (other : label.drainer = none) : next.ready = pool.ready := by
  cases travel with
  | call _ frame | forget _ frame | cancel _ _ frame => exact frame.ready
  | queue _ _ asks | refuse _ _ asks => exact asks.frame.ready
  | receive | drain | deliver => cases other
  | stop | complete | notify => rfl
  | around around => exact around.ready
  | take _ _ _ _ same => rw [same]

end

theorem drainer_cases (label : Label) : label.drainer = none ∨ label.drainer = some .loop := by
  cases label with
  | receive | drain | deliver => exact .inr rfl
  | _ => exact .inl rfl

theorem enabled_drain (running : pool.stopping = false)
    (place : pool.loop = .free ∨ pool.loop = .draining ∨ pool.stopping = true)
    (some' : pool.notified = true ∨ pool.ready ≠ []) :
    Behaviour.Enabled step Label.drainer .loop pool := by
  rcases place with free | turn | stopping
  · cases taken : pool.ready with
    | nil =>
      have notified := some'.resolve_right fun some' => some' taken
      exact ⟨.receive, rfl, by simp [step, free, taken, notified]⟩
    | cons request rest => exact ⟨.deliver, rfl, by simp [step, Pool.app, free, taken]⟩
  · exact ⟨.drain, rfl, by simp [step, turn]⟩
  · rw [running] at stopping
    cases stopping

end Steps

variable {label : Label} {n : Nat}

/-- A step of another thread leaves the notifications alone, and their own step goes on. -/
theorem Travel.notifying (travel : Travel pool label next acts) (turn : pool.loop.Notifying) :
    next.loop = pool.loop ∧ label.owner ≠ some .loop ∨
      pool.loop = .notifyWork ∧ next.loop = .notifySched ∨
      pool.loop = .notifySched ∧ next.loop = .free := by
  have busy : pool.loop ≠ .free ∧ pool.loop ≠ .draining ∧ pool.loop ≠ .notifyAll := by
    rcases turn with turn | turn <;> rw [turn] <;> exact ⟨nofun, nofun, nofun⟩
  cases travel with
  | call _ frame | forget _ frame | cancel _ _ frame => exact absurd frame.free busy.1
  | queue _ _ asks | refuse _ _ asks => exact absurd asks.frame.free busy.1
  | receive free | deliver free | stop free => exact absurd free busy.1
  | drain draining => exact absurd draining busy.2.1
  | around around =>
    rcases around.loop with same | first | second | ⟨was, -⟩
    · exact .inl same
    · exact .inr (.inl first)
    · exact .inr (.inr second)
    · exact absurd was busy.2.2
  | take mine _ _ _ same =>
    refine .inl ⟨?_, ?_⟩
    · rw [same]
    · rw [mine]
      nofun
  | complete | notify => exact .inl ⟨rfl, nofun⟩

section Behaviours

variable {origin : Pool} {behaviour : Behaviour step Timely origin} {ticket : Ticket}

/-- The loop keeps draining: whenever it can drain again and again, it does. -/
def Drains (behaviour : Behaviour step Timely origin) : Prop :=
  behaviour.StronglyFair Label.drainer .loop

theorem behaviour_travel (behaviour : Behaviour step Timely origin) (n : Nat) :
    Travel (behaviour.state n) (behaviour.label n) (behaviour.state (n + 1)) (behaviour.acts n) :=
  step_travel (behaviour.moves n)

theorem eventually_free (fair : behaviour.Fair Label.owner)
    (roused : ∀ n, Roused (behaviour.state n)) (n : Nat) :
    behaviour.Eventually n fun pool =>
      pool.loop = .free ∨ pool.loop = .draining ∨ pool.stopping = true := by
  cases turn : (behaviour.state n).loop with
  | free => exact .now (.inl turn)
  | draining => exact .now (.inr (.inl turn))
  | notifyAll => exact .now (.inr (.inr ((roused n).stopped (.inl turn))))
  | joining => exact .now (.inr (.inr ((roused n).stopped (.inr turn))))
  | notifyWork | notifySched =>
    refine Behaviour.eventually_of_helpful (fun pool => pool.loop.Notifying) fair
      (fun pool => if pool.loop = .notifyWork then 1 else 0) (fun _ => .loop) ?_ ?_
      (by simp [LoopThread.Notifying, turn])
    · exact fun m held => enabled_loop held
    · intro m held
      rcases (behaviour_travel behaviour m).notifying held with ⟨same, other⟩ | ⟨was, now⟩ |
        ⟨-, now⟩
      · refine .inr ⟨by rwa [same], .inr ⟨by rw [same], rfl, other⟩⟩
      · refine .inr ⟨.inr now, .inl ?_⟩
        rw [was, now]
        decide
      · exact .inl (.inl now)

theorem eventually_completed (fair : behaviour.Fair Label.owner)
    (flying : InFlight ticket index (behaviour.state n)) :
    behaviour.Eventually n (Completed ticket) := by
  refine Behaviour.eventually_of_fair _ fair (.worker index) ?_ ?_ ?_ flying
  · rintro m ⟨request, found, -⟩
    exact enabled_worker found rfl
  · exact fun m held => (behaviour_travel behaviour m).inFlight held
  · rintro m ⟨request, found, speaks⟩ mine
    rcases carrier_step (behaviour.moves m) mine found rfl with ⟨other, platform, same, next⟩ |
      ⟨same, -⟩
    · cases same
      rw [next]
      exact completed_of_complete speaks
    · cases same

theorem eventually_ready_of_draining (drains : Drains behaviour)
    (completed : Completed ticket (behaviour.state n))
    (turn : (behaviour.state n).loop = .draining) :
    behaviour.Eventually n (Ready ticket) := by
  refine Behaviour.eventually_of_stronglyFair
    (fun pool => Completed ticket pool ∧ pool.loop = .draining) drains ?_ ?_ ?_ ⟨completed, turn⟩
  · intro m held
    have turn := (held m (Nat.le_refl m)).2
    exact .now ⟨.drain, rfl, by simp [step, turn]⟩
  · rintro m ⟨completed, turn⟩
    rcases (behaviour_travel behaviour m).completed completed with ⟨stays, -⟩ | ⟨-, ready⟩
    · rcases (behaviour_travel behaviour m).draining turn with ⟨still, -⟩ | drained
      · exact .inl ⟨stays, still⟩
      · exact .inr (ready_of_drain (behaviour.moves m) drained completed)
    · exact .inr ready
  · rintro m ⟨completed, turn⟩ mine
    rcases (behaviour_travel behaviour m).draining turn with ⟨-, other⟩ | drained
    · rw [other] at mine
      cases mine
    · exact ready_of_drain (behaviour.moves m) drained completed

/-- Completed, with the notifier readable. -/
structure Announced (ticket : Ticket) (pool : Pool) : Prop where
  running : pool.stopping = false
  completed : Completed ticket pool
  notified : pool.notified = true

/-- The results are about to be taken. -/
def Fetched (ticket : Ticket) (pool : Pool) : Prop :=
  pool.stopping = true ∨ Ready ticket pool ∨ Completed ticket pool ∧ pool.loop = .draining

theorem Travel.announced (travel : Travel pool label next acts)
    (announced : Announced ticket pool) :
    Announced ticket next ∧ next.ready.length ≤ pool.ready.length ∨ Fetched ticket next := by
  cases running : next.stopping with
  | true => exact .inr (.inl running)
  | false =>
    rcases travel.completed announced.completed with ⟨completed, shorter⟩ | ⟨-, ready⟩
    · rcases travel.notified announced.notified with notified | ⟨-, turn⟩
      · exact .inl ⟨⟨running, completed, notified⟩, shorter⟩
      · exact .inr (.inr (.inr ⟨completed, turn⟩))
    · exact .inr (.inr (.inl ready))

/-- The drain empties what it has and reads the notifier again. -/
theorem eventually_fetched (fair : behaviour.Fair Label.owner) (drains : Drains behaviour)
    (roused : ∀ n, Roused (behaviour.state n)) (announced : Announced ticket (behaviour.state n)) :
    behaviour.Eventually n (Fetched ticket) := by
  refine Behaviour.eventually_of_rank _ (fun pool => pool.ready.length) ?_ announced
  intro m announced
  generalize length : (behaviour.state m).ready.length = r
  refine Behaviour.eventually_of_stronglyFair
    (fun pool => Announced ticket pool ∧ pool.ready.length ≤ r) drains ?_ ?_ ?_
    ⟨announced, Nat.le_of_eq length⟩
  · intro k held
    obtain ⟨j, after, place⟩ := eventually_free fair roused k
    have now := (held j after).1
    exact ⟨j, after, enabled_drain now.running place (.inl now.notified)⟩
  · rintro k ⟨announced, short⟩
    rcases (behaviour_travel behaviour k).announced announced with ⟨still, shorter⟩ | fetched
    · exact .inl ⟨still, Nat.le_trans shorter short⟩
    · exact .inr (.inl fetched)
  · rintro k ⟨announced, short⟩ mine
    have travel := behaviour_travel behaviour k
    rcases travel.announced announced with ⟨still, -⟩ | fetched
    · rcases travel.drained mine with ⟨-, turn⟩ | ⟨-, taken⟩ | ⟨request, popped, -⟩
      · exact .inl (.inr (.inr ⟨still.completed, turn⟩))
      · refine .inl (.inr (.inl ?_))
        obtain ⟨request, among, speaks⟩ := announced.completed
        exact ⟨request, taken ▸ among, speaks⟩
      · refine .inr ⟨still, ?_⟩
        rw [popped] at short
        exact short
    · exact .inl fetched

theorem eventually_ready (fair : behaviour.Fair Label.owner) (drains : Drains behaviour)
    (roused : ∀ n, Roused (behaviour.state n)) (completed : Completed ticket (behaviour.state n)) :
    behaviour.Eventually n fun pool => pool.stopping = true ∨ Ready ticket pool := by
  have fetch {m : Nat} (completed : Completed ticket (behaviour.state m))
      (turn : (behaviour.state m).loop = .draining) :
      behaviour.Eventually m fun pool => pool.stopping = true ∨ Ready ticket pool := by
    refine (eventually_ready_of_draining drains completed turn).trans fun k ready => ?_
    exact .now (.inr ready)
  have read {m : Nat} (completed : Completed ticket (behaviour.state m))
      (notified : (behaviour.state m).notified = true) :
      behaviour.Eventually m fun pool => pool.stopping = true ∨ Ready ticket pool := by
    cases running : (behaviour.state m).stopping with
    | true => exact .now (.inl running)
    | false =>
      refine (eventually_fetched fair drains roused ⟨running, completed, notified⟩).trans ?_
      rintro k (stopping | ready | ⟨completed, turn⟩)
      · exact .now (.inl stopping)
      · exact .now (.inr ready)
      · exact fetch completed turn
  have some' : (behaviour.state n).completed ≠ [] := by
    obtain ⟨request, among, -⟩ := completed
    exact ne_nil_of_mem among
  rcases (roused n).woken some' with notified | turn | ⟨index, notifying⟩
  · exact read completed notified
  · exact fetch completed turn
  · -- the worker that queued the result still has to write to the notifier
    have told : behaviour.Eventually n fun pool =>
        Ready ticket pool ∨ Completed ticket pool ∧ pool.notified = true := by
      refine Behaviour.eventually_of_fair
        (fun pool => Completed ticket pool ∧ pool.workers[index]? = some .notifying) fair
        (.worker index) ?_ ?_ ?_ ⟨completed, notifying⟩
      · exact fun m held => enabled_worker held.2 rfl
      · rintro m ⟨completed, notifying⟩
        have travel := behaviour_travel behaviour m
        rcases travel.completed completed with ⟨still, -⟩ | ⟨-, ready⟩
        · rcases travel.carried notifying rfl with kept | ⟨_, _, same, -⟩ | ⟨-, notified⟩
          · exact .inl ⟨still, kept⟩
          · cases same
          · exact .inr (.inr ⟨still, notified⟩)
        · exact .inr (.inl ready)
      · rintro m ⟨completed, notifying⟩ mine
        rcases carrier_step (behaviour.moves m) mine notifying rfl with ⟨_, _, same, -⟩ |
          ⟨-, notified⟩
        · cases same
        rcases (behaviour_travel behaviour m).completed completed with ⟨still, -⟩ | ⟨-, ready⟩
        · exact .inr ⟨still, notified⟩
        · exact .inl ready
    refine told.trans ?_
    rintro m (ready | ⟨completed, notified⟩)
    · exact .now (.inr ready)
    · exact read completed notified

/-- The request is not on its way any more, or the pool stops. -/
def Left (ticket : Ticket) (pool : Pool) : Prop := pool.stopping = true ∨ pool.copies ticket = 0

/-- The drain reports what it has taken, one request after the other. -/
theorem Travel.leaves (travel : Travel pool label next acts) (roused : Roused pool)
    (once : pool.copies ticket ≤ 1) (ready : Ready ticket pool) :
    Ready ticket next ∧ (next.ready.length < pool.ready.length ∨
      next.ready.length = pool.ready.length ∧ label.drainer = none) ∨ next.copies ticket = 0 := by
  obtain ⟨spoken, among, speaks⟩ := ready
  rcases drainer_cases label with other | mine
  · have same := travel.ready other
    exact .inl ⟨⟨spoken, same ▸ among, speaks⟩, .inr ⟨congrArg _ same, other⟩⟩
  rcases travel.drained mine with ⟨done, -⟩ | ⟨turn, -⟩ | ⟨request, popped, whole⟩
  · rw [done] at among
    cases among
  · rw [roused.done turn] at among
    cases among
  · rw [popped] at among
    rcases mem_cons.mp among with rfl | later
    · -- the copy that is reported was the only one
      refine .inr ?_
      have copies : pool.copies ticket = next.copies ticket + 1 := by
        rw [whole]
        simp only [Pool.copies, popped, countP_cons, speaks, if_true]
        omega
      omega
    · refine .inl ⟨⟨spoken, later, speaks⟩, .inl ?_⟩
      rw [popped]
      exact Nat.lt_succ_self _

theorem eventually_left_of_ready (fair : behaviour.Fair Label.owner) (drains : Drains behaviour)
    (roused : ∀ n, Roused (behaviour.state n)) (once : ∀ n, (behaviour.state n).copies ticket ≤ 1)
    (ready : Ready ticket (behaviour.state n)) : behaviour.Eventually n (Left ticket) := by
  cases running : (behaviour.state n).stopping with
  | true => exact .now (.inl running)
  | false =>
    refine Behaviour.eventually_of_rank (fun pool => pool.stopping = false ∧ Ready ticket pool)
      (fun pool => pool.ready.length) ?_ ⟨running, ready⟩
    rintro m ⟨running, ready⟩
    generalize length : (behaviour.state m).ready.length = r
    refine Behaviour.eventually_of_stronglyFair
      (fun pool => pool.stopping = false ∧ Ready ticket pool ∧ pool.ready.length = r) drains
      ?_ ?_ ?_ ⟨running, ready, length⟩
    · intro k held
      obtain ⟨j, after, place⟩ := eventually_free fair roused k
      obtain ⟨running, ⟨request, among, -⟩, -⟩ := held j after
      exact ⟨j, after, enabled_drain running place (.inr (ne_nil_of_mem among))⟩
    · rintro k ⟨running, ready, length⟩
      by_cases later : (behaviour.state (k + 1)).stopping = true
      · exact .inr (.inl (.inl later))
      rw [Bool.not_eq_true] at later
      rcases (behaviour_travel behaviour k).leaves (roused k) (once k) ready with
        ⟨still, shorter | ⟨same, -⟩⟩ | gone
      · exact .inr (.inr ⟨⟨later, still⟩, length ▸ shorter⟩)
      · exact .inl ⟨later, still, same.trans length⟩
      · exact .inr (.inl (.inr gone))
    · rintro k ⟨running, ready, length⟩ mine
      by_cases later : (behaviour.state (k + 1)).stopping = true
      · exact .inl (.inl later)
      rw [Bool.not_eq_true] at later
      rcases (behaviour_travel behaviour k).leaves (roused k) (once k) ready with
        ⟨still, shorter | ⟨-, other⟩⟩ | gone
      · exact .inr ⟨⟨later, still⟩, length ▸ shorter⟩
      · rw [other] at mine
        cases mine
      · exact .inl (.inr gone)

/-- Whatever is on its way arrives, unless the pool stops. -/
theorem eventually_left (fair : behaviour.Fair Label.owner) (drains : Drains behaviour)
    (sound : ∀ n, Orderly (behaviour.state n) ∧ Covered (behaviour.state n))
    (roused : ∀ n, Roused (behaviour.state n)) (once : ∀ n, (behaviour.state n).copies ticket ≤ 1)
    (n : Nat) : behaviour.Eventually n (Left ticket) := by
  have report {m : Nat} (completed : Completed ticket (behaviour.state m)) :
      behaviour.Eventually m (Left ticket) := by
    refine (eventually_ready fair drains roused completed).trans ?_
    rintro k (stopping | ready)
    · exact .now (.inl stopping)
    · exact eventually_left_of_ready fair drains roused once ready
  refine (eventually_settled fair sound ticket.id n).trans ?_
  rintro m (taken | stopping)
  · by_cases gone : (behaviour.state m).copies ticket = 0
    · exact .now (.inr gone)
    · rcases place_of_copies gone with queued | ⟨index, flying⟩ | completed | ready
      · exact absurd queued taken
      · exact (eventually_completed fair flying).trans fun k completed => report completed
      · exact report completed
      · exact eventually_left_of_ready fair drains roused once ready
  · exact .now (.inl stopping)

end Behaviours

/-- Any step at all. -/
def Any (_ : Pool) (_ : Label) : Prop := True

theorem destroy_inv (moved : step pool (.destroy index) = some (next, acts)) :
    ∃ resolver, pool.resolvers[index]? = some (some resolver) ∧
      next = pool.destroy index resolver ∧ acts = [] := by
  cases step_effect moved with
  | destroy _ found => exact ⟨_, found, rfl, rfl⟩
  | idle asker | ask _ _ _ _ asker => cases asker

/-- The destructor makes the last lookup of its resolver silent, and no other. -/
theorem silent_of_destroy {ticket : Ticket} (roused : Roused pool)
    (owned : Owned index ticket.id pool) (moved : step pool (.destroy index) = some (next, acts))
    (last : (∃ handler, pool.resolvers[index]? = some (some ⟨handler, some ticket.id⟩)) ∨
      pool.copies ticket = 0) : Silent ticket next := by
  rcases last with ⟨handler, held⟩ | gone
  · obtain ⟨resolver, found, rfl, -⟩ := destroy_inv moved
    rw [held] at found
    cases found
    exact ⟨owned.number, .inl mem_cons_self⟩
  · exact ((step_travel moved).silent roused ⟨owned.number, .inr gone⟩).2

theorem copies_of_destroy {ticket : Ticket} (roused : Roused pool)
    (owned : Owned index ticket.id pool) (moved : step pool (.destroy index) = some (next, acts))
    (earlier : ¬ ∃ handler, pool.resolvers[index]? = some (some ⟨handler, some ticket.id⟩)) :
    next.copies ticket = pool.copies ticket ∧ ticket.id ∉ next.dead := by
  obtain ⟨⟨handler, request⟩, found, destroyed, rfl⟩ := destroy_inv moved
  have alive : ticket.id ∉ pool.dead := by
    intro dead
    rw [owned.buried dead] at found
    cases found
  have still : ticket.id ∉ next.dead := by
    rw [destroyed]
    cases request with
    | none => exact alive
    | some other =>
      intro dead
      rcases mem_cons.mp dead with same | before
      · exact earlier ⟨handler, same ▸ found⟩
      · exact alive before
  have balance := ((step_travel moved).balance roused.done ticket).eq still
    (Nat.ne_of_lt owned.number)
  exact ⟨balance, still⟩

/-- **A lookup is reported once, and not after its resolver.**  Let a resolver start a
lookup that is accepted.  Whatever happens then, it is reported to the handler of the resolver
at most once, and to nobody else.  It is reported in every fair behaviour in which the loop
keeps draining and no pass of the scheduler falls between the end of the last worker's loop
and its store, unless the resolver is destroyed or the pool stops.  After the destruction of
the resolver it is not reported if it was the last lookup of the resolver or had been reported
before; otherwise it is still on its way. -/
theorem lookup_reported_once {pool called : Pool} {trace acts : List Act} {label : Label}
    {index : Nat} (run : Run step Any .fresh pool trace)
    (moved : step pool label = some (called, acts)) (asker : label.asker = some index)
    (accepted : called.nextRequest = pool.nextRequest + 1) :
    ∃ handler held, pool.resolvers[index]? = some (some ⟨some handler, held⟩) ∧
    (∀ last later, Run step Any called last later →
      reports ⟨pool.nextRequest, handler⟩ (acts ++ later) ≤ 1 ∧
      ∀ other ≠ handler, reports ⟨pool.nextRequest, other⟩ (acts ++ later) = 0) ∧
    (∀ front, Run step Timely .fresh called front →
      ∀ behaviour : Behaviour step Timely called, behaviour.Fair Label.owner → Drains behaviour →
        ∃ n, reports ⟨pool.nextRequest, handler⟩ (acts ++ behaviour.trace n) = 1 ∨
          (behaviour.state n).resolvers[index]? = some none ∨
          (behaviour.state n).stopping = true) ∧
    ∀ before middle destroyed silence, Run step Any called before middle →
      step before (.destroy index) = some (destroyed, silence) →
        ((∃ handler, before.resolvers[index]? = some (some ⟨handler, some pool.nextRequest⟩)) ∨
            before.copies ⟨pool.nextRequest, handler⟩ = 0 →
          ∀ last later, Run step Any destroyed last later →
            ∀ other, reports ⟨pool.nextRequest, other⟩ later = 0) ∧
        (¬ ((∃ handler, before.resolvers[index]? = some (some ⟨handler, some pool.nextRequest⟩)) ∨
            before.copies ⟨pool.nextRequest, handler⟩ = 0) →
          destroyed.copies ⟨pool.nextRequest, handler⟩ = 1 ∧
            pool.nextRequest ∉ destroyed.dead) := by
  obtain ⟨roused, accounted⟩ := run_accounted run
  have travel := step_travel moved
  have rousedCalled := travel.roused roused
  obtain ⟨handler, ⟨held, found⟩, owned, -, count⟩ := travel.accepted accounted asker accepted
  have one := (count handler).trans (if_pos rfl)
  -- nothing of the request is on its way to anybody else
  have nobody (other : Nat) (apart : other ≠ handler) :
      Silent ⟨pool.nextRequest, other⟩ called ∧ reports ⟨pool.nextRequest, other⟩ acts = 0 := by
    have none' := (count other).trans (if_neg apart)
    exact ⟨⟨owned.number, .inr (by omega)⟩, by omega⟩
  refine ⟨handler, held, found, ?_, ?_, ?_⟩
  · intro last later more
    have whole : Run step Any .fresh last (trace ++ acts ++ later) :=
      Run.trans (.step label run trivial moved) more
    have once := (run_accounted whole).2.once ⟨pool.nextRequest, handler⟩
    rw [append_assoc, reports_append] at once
    refine ⟨by omega, fun other apart => ?_⟩
    obtain ⟨silent, none'⟩ := nobody other apart
    obtain ⟨-, -, later⟩ := run_silent rousedCalled silent more
    rw [reports_append, none', later]
  · intro front timely behaviour fair drains
    have accounts (n : Nat) := run_accounted (timely.trans (behaviour.run_trace n))
    have once (n : Nat) : (behaviour.state n).copies ⟨pool.nextRequest, handler⟩ ≤ 1 :=
      Nat.le_trans (Nat.le_add_right _ _) ((accounts n).2.once _)
    obtain ⟨n, -, left⟩ := eventually_left fair drains (behaviour_orderly timely behaviour)
      (fun n => (accounts n).1) once 0
    refine ⟨n, ?_⟩
    rcases left with stopping | gone
    · exact .inr (.inr stopping)
    obtain ⟨-, still, dead | kept⟩ := run_owned rousedCalled owned one (behaviour.run_trace n)
    · exact .inr (.inl (still.buried dead))
    · exact .inl (by omega)
  · intro before middle destroyed silence more gone
    obtain ⟨rousedBefore, ownedBefore, kept⟩ := run_owned rousedCalled owned one more
    refine ⟨fun last final later rest other => ?_, fun earlier => ?_⟩
    · refine (run_silent ((step_travel gone).roused rousedBefore) ?_ rest).2.2
      by_cases same : other = handler
      · rw [same]
        exact silent_of_destroy rousedBefore ownedBefore gone last
      · obtain ⟨-, silent, -⟩ := run_silent rousedCalled (nobody other same).1 more
        exact ((step_travel gone).silent rousedBefore silent).2
    · rw [not_or] at earlier
      obtain ⟨copies, alive⟩ := copies_of_destroy rousedBefore ownedBefore gone earlier.1
      have before' : pool.nextRequest ∉ before.dead :=
        fun dead => alive ((step_travel gone).dead_subset dead)
      have kept := kept.resolve_left before'
      exact ⟨by omega, alive⟩

/-- Nothing is there to be drained. -/
theorem not_enabled_of_drained (free : pool.loop = .free) (done : pool.ready = [])
    (quiet : pool.notified = false) (thread : Thread) :
    ¬ Behaviour.Enabled step Label.drainer thread pool := by
  rintro ⟨label, mine, moves⟩
  cases label with
  | receive => simp [step, quiet] at moves
  | drain => simp [step, free] at moves
  | deliver => simp [step, done] at moves
  | _ => cases mine

def constructedEnd : Pool × List Act :=
  (play (restrict step Timely) .fresh (lookupRun.take 1)).getD (.fresh, [])

/-- The lookup goes all the way, and everybody rests. -/
def reportedRun : List Label := restRun ++ [.receive, .drain, .deliver]

def reportedEnd : Pool × List Act :=
  (play (restrict step Timely) askedEnd.1 reportedRun).getD (.fresh, [])

theorem lookup_reported_once_sample :
    ∃ behaviour : Behaviour step Timely askedEnd.1, behaviour.Fair Label.owner ∧
      Drains behaviour ∧ ∃ n, reports ⟨0, 0⟩ ([] ++ behaviour.trace n) = 1 ∨
        (behaviour.state n).resolvers[0]? = some none ∨ (behaviour.state n).stopping = true := by
  have constructed : Run step Timely .fresh constructedEnd.1 constructedEnd.2 :=
    run_of_play (lookupRun.take 1) rfl
  have asked : Run step Timely .fresh askedEnd.1 askedEnd.2 := run_of_play (lookupRun.take 2) rfl
  have played : play (restrict step Timely) askedEnd.1 reportedRun =
      some (reportedEnd.1, reportedEnd.2) := rfl
  obtain ⟨behaviour, fair, drains⟩ :=
    Behaviour.exists_fair_of_play reportedRun played (.setMaxWorkers 4) (by decide) rfl
      (not_enabled_of_resting rfl (by decide) (by decide)) (not_enabled_of_drained rfl rfl rfl)
  obtain ⟨handler, held, found, -, served, -⟩ :=
    lookup_reported_once (constructed.mono fun _ _ _ => trivial)
      (show step constructedEnd.1 (.lookup 0 [97] true) = some (askedEnd.1, []) from rfl) rfl rfl
  have same : (0 : Nat) = handler := by
    rw [show constructedEnd.1.resolvers[0]? = some (some ⟨some 0, none⟩) from rfl] at found
    cases found
    rfl
  rw [← same] at served
  exact ⟨behaviour, fair, drains .loop, served askedEnd.2 asked behaviour fair (drains .loop)⟩

/-- A second lookup on the same resolver, before the first one is served. -/
def secondRun : List Label :=
  lookupRun.take 4 ++ [.lookup 0 [98] true, .notifyWork none, .notifySched]

def secondEnd : Pool × List Act := (play (restrict step Timely) .fresh secondRun).getD (.fresh, [])

def orphanEnd : Pool × List Act := (step secondEnd.1 (.destroy 0)).getD (.fresh, [])

/-- What remains is resolved and reported. -/
def orphanRun : List Label :=
  [.schedule, .work 0, .complete 0 ⟨.ok [], .ok []⟩, .notify 0, .receive, .drain, .deliver]

/-- The first of two lookups is reported after their resolver has been destroyed. -/
theorem earlier_lookup_reported :
    play (restrict step Timely) .fresh secondRun = some secondEnd ∧
      step secondEnd.1 (.destroy 0) = some orphanEnd ∧
      ∃ last later, play (restrict step Timely) orphanEnd.1 orphanRun = some (last, later) ∧
        reports ⟨0, 0⟩ later = 1 :=
  ⟨rfl, rfl, _, _, rfl, rfl⟩

end SamuraiFormal.Dns
