import SamuraiFormal.Dns.PoolTravel

/-!
# A request is reported at most once

The copies of a request that are on their way and its reports so far are never more than
one together, and they are exactly one until the request is cancelled.  A cancelled request
is silent, and so is one that has been reported.
-/

namespace SamuraiFormal.Dns

open Library.Traces
open List

theorem reports_append (ticket : Ticket) (front back : List Act) :
    reports ticket (front ++ back) = reports ticket front + reports ticket back :=
  countP_append

/-- The request that a step gives this number to. -/
def born (id : Nat) (pool next : Pool) : Nat :=
  if id = pool.nextRequest ∧ pool.nextRequest < next.nextRequest then 1 else 0

variable {ticket : Ticket} {pool : Pool} {allowed : Pool → Label → Prop} {trace : List Act}

theorem born_of_lt {id : Nat} {next : Pool} (old : id < pool.nextRequest) : born id pool next = 0 :=
  if_neg fun new => Nat.ne_of_lt old new.1

theorem born_of_same {id : Nat} {next : Pool} (same : next.nextRequest = pool.nextRequest) :
    born id pool next = 0 :=
  if_neg fun new => Nat.ne_of_gt new.2 same

theorem speaks_iff_eq {request : Request} : request.speaks ticket = true ↔
    request.id = ticket.id ∧ request.handler = some ticket.handler := by
  rw [Request.speaks, Bool.and_eq_true, beq_iff_eq, beq_iff_eq]

theorem speaks_resolve (platform : Platform) (ticket : Ticket) (request : Request) :
    (request.resolve platform).speaks ticket = request.speaks ticket := by
  have kept : (request.resolve platform).id = request.id ∧
      (request.resolve platform).handler = request.handler := by
    unfold Request.resolve resolveForward resolveReverse
    split
    · split
      · exact ⟨rfl, rfl⟩
      · split <;> exact ⟨rfl, rfl⟩
    split
    · exact ⟨rfl, rfl⟩
    · split <;> exact ⟨rfl, rfl⟩
  rw [Request.speaks, Request.speaks, kept.1, kept.2]

/-- An event about a request, to the handler of the request, is a report of it. -/
theorem reports_singleton {act : Act} {request : Request} (about : act.request = some request.id)
    (told : request.handler = some act.handler) (ticket : Ticket) :
    reports ticket [act] = if request.speaks ticket = true then 1 else 0 := by
  rw [reports, countP_singleton, about, Request.speaks, told]
  rfl

/-- What the drain tells of one request: everything, unless it is dead. -/
theorem reports_report (pool : Pool) (request : Request) (ticket : Ticket) :
    reports ticket (pool.report request) =
      if request.speaks ticket = true ∧ ticket.id ∉ pool.dead then 1 else 0 := by
  unfold Pool.report
  cases manned : request.handler with
  | none =>
    rw [if_neg]
    · rfl
    · rintro ⟨speaks, -⟩
      rw [speaks_iff_eq, manned] at speaks
      cases speaks.2
  | some handler =>
    dsimp only
    split
    · next dead =>
        rw [if_neg]
        · rfl
        · rintro ⟨speaks, alive⟩
          exact alive ((speaks_iff_eq.mp speaks).1 ▸ dead)
    · next alive =>
        have heard : (request.speaks ticket = true ∧ ticket.id ∉ pool.dead) ↔
            request.speaks ticket = true :=
          and_iff_left_of_imp fun speaks => (speaks_iff_eq.mp speaks).1 ▸ alive
        simp only [heard]
        split
        · exact reports_singleton rfl manned ticket
        split
        · exact reports_singleton rfl manned ticket
        · exact reports_singleton rfl manned ticket

theorem countP_eraseP_le (requests : List Request) (other : Nat) (ticket : Ticket) :
    (requests.eraseP (·.id == other)).countP (·.speaks ticket) ≤
      requests.countP (·.speaks ticket) :=
  eraseP_sublist.countP_le

theorem countP_eraseP_of_ne (requests : List Request) {other : Nat} (apart : ticket.id ≠ other) :
    (requests.eraseP (·.id == other)).countP (·.speaks ticket) =
      requests.countP (·.speaks ticket) := by
  rcases exists_or_eq_self_of_eraseP (fun request : Request => request.id == other) requests
    with same | ⟨erased, front, back, -, hit, split, rest⟩
  · rw [same]
  have silent : erased.speaks ticket = false := by
    rw [Request.speaks, beq_iff_eq.mp hit]
    simp [Ne.symm apart]
  rw [rest, split]
  simp [silent]

section Steps

variable {pool next : Pool} {acts : List Act} {label : Label}

theorem Frame.copies (frame : Frame pool next) (ticket : Ticket) :
    next.copies ticket + pool.pending.countP (·.speaks ticket) =
      pool.copies ticket + next.pending.countP (·.speaks ticket) := by
  rw [Pool.copies, Pool.copies, frame.workers, frame.completed, frame.ready]
  omega

theorem Asks.queued {index handler : Nat} {request : Request}
    (asks : Asks index handler request pool next)
    (pending : next.pending = pool.pending ++ [request]) (ticket : Ticket) :
    next.copies ticket = pool.copies ticket + if request.speaks ticket = true then 1 else 0 := by
  have copies := asks.frame.copies ticket
  rw [pending, countP_append, countP_singleton] at copies
  omega

theorem Asks.refused {index handler : Nat} {request : Request}
    (asks : Asks index handler request pool next) (pending : next.pending = pool.pending)
    (ticket : Ticket) :
    next.copies ticket +
        reports ticket [.eventHostError handler (some request.id) .serverError] =
      pool.copies ticket + if request.speaks ticket = true then 1 else 0 := by
  have copies := asks.frame.copies ticket
  rw [pending] at copies
  rw [reports_singleton rfl asks.manned]
  omega

/-- What a step does to the copies and the reports of a request: only a cancelled one is
lost, and only a new one is added. -/
structure Balance (ticket : Ticket) (pool next : Pool) (acts : List Act) : Prop where
  le : next.copies ticket + reports ticket acts ≤ pool.copies ticket + born ticket.id pool next
  eq : ticket.id ∉ next.dead → ticket.id ≠ pool.nextRequest →
    next.copies ticket + reports ticket acts = pool.copies ticket

/-- A step that gives out no number and loses nothing. -/
theorem balance_of_same (numbers : next.nextRequest = pool.nextRequest)
    (same : next.copies ticket + reports ticket acts = pool.copies ticket) :
    Balance ticket pool next acts :=
  ⟨by rw [born_of_same numbers]; exact Nat.le_of_eq same, fun _ _ => same⟩

/-- A step that gives out a number and a request with it. -/
theorem balance_of_asks {index handler : Nat} {request : Request}
    (asks : Asks index handler request pool next)
    (same : next.copies ticket + reports ticket acts =
      pool.copies ticket + if request.speaks ticket = true then 1 else 0) :
    Balance ticket pool next acts := by
  have number := asks.number
  have numbers := asks.numbers
  by_cases speaks : request.speaks ticket = true
  · have this := (speaks_iff_eq.mp speaks).1
    have one : born ticket.id pool next = 1 := if_pos ⟨by omega, by omega⟩
    rw [if_pos speaks] at same
    exact ⟨by omega, fun _ old => absurd (by omega) old⟩
  · rw [if_neg speaks] at same
    exact ⟨by omega, fun _ _ => same⟩

/-- The copies and the reports of a request balance in every step. -/
theorem Travel.balance (travel : Travel pool label next acts)
    (done : pool.loop = .draining → pool.ready = []) (ticket : Ticket) :
    Balance ticket pool next acts := by
  cases travel with
  | call _ frame pending _ numbers _ _ silent =>
    have copies := frame.copies ticket
    rw [pending] at copies
    exact balance_of_same numbers (by rw [silent ticket]; omega)
  | queue request _ asks pending _ => exact balance_of_asks asks (asks.queued pending ticket)
  | refuse request _ asks pending _ => exact balance_of_asks asks (asks.refused pending ticket)
  | forget _ frame _ pending _ numbers _ _ =>
    have copies := frame.copies ticket
    rw [pending] at copies
    exact balance_of_same numbers (by simp only [reports, countP_nil]; omega)
  | cancel index other frame _ pending dead numbers _ _ =>
    have copies := frame.copies ticket
    rw [pending] at copies
    by_cases apart : ticket.id = other
    · have fewer := countP_eraseP_le pool.pending other ticket
      refine ⟨?_, fun alive _ => absurd (dead ▸ apart ▸ mem_cons_self) alive⟩
      simp only [reports, countP_nil]
      omega
    · rw [countP_eraseP_of_ne _ apart] at copies
      exact balance_of_same numbers (by simp only [reports, countP_nil]; omega)
  | receive | stop => exact balance_of_same rfl rfl
  | drain turn =>
    refine balance_of_same rfl ?_
    simp only [Pool.copies, Pool.drain, reports, done turn, countP_nil]
    omega
  | @deliver request rest free taken =>
    have copies : pool.copies ticket = { pool with ready := rest }.copies ticket +
        if request.speaks ticket = true then 1 else 0 := by
      simp only [Pool.copies, taken, countP_cons]
      omega
    have told := reports_report pool request ticket
    by_cases lost : request.speaks ticket = true ∧ ticket.id ∈ pool.dead
    · rw [if_neg fun both => both.2 lost.2] at told
      refine ⟨?_, fun alive _ => absurd lost.2 alive⟩
      omega
    refine balance_of_same rfl ?_
    have whole : (request.speaks ticket = true ∧ ticket.id ∉ pool.dead) ↔
      request.speaks ticket = true :=
      ⟨fun both => both.1, fun speaks => ⟨speaks, fun dead => lost ⟨speaks, dead⟩⟩⟩
    simp only [whole] at told
    omega
  | around around =>
    refine balance_of_same around.numbers ?_
    simp only [Pool.copies, around.pending, around.workers.serves ticket, around.completed,
      around.ready]
    rfl
  | @take _ _ index old request mine idle found pending same =>
    have counted := countP_set_worker (.resolving request) ticket found
    rw [serves_of_not_carries idle] at counted
    have numbers : next.nextRequest = pool.nextRequest := by rw [same]
    refine balance_of_same numbers ?_
    have copies : next.copies ticket = next.pending.countP (·.speaks ticket) +
        (pool.workers.set index (.resolving request)).countP (·.serves ticket) +
        pool.completed.countP (·.speaks ticket) + pool.ready.countP (·.speaks ticket) := by
      rw [same]
      rfl
    rw [copies, Pool.copies, pending, countP_cons, reports, countP_nil]
    rw [serves_resolving, if_neg Bool.false_ne_true] at counted
    omega
  | @complete index request platform found =>
    have counted := countP_set_worker .notifying ticket found
    refine balance_of_same rfl ?_
    simp only [Pool.copies, Pool.complete, Pool.setWorker, countP_append,
      countP_singleton, speaks_resolve, reports, countP_nil]
    rw [serves_resolving, serves_notifying, if_neg Bool.false_ne_true] at counted
    omega
  | @notify index found =>
    have counted := countP_set_worker .awake ticket found
    refine balance_of_same rfl ?_
    simp only [Pool.copies, Pool.setWorker, reports, countP_nil]
    rw [serves_notifying, serves_awake] at counted
    omega

/-- A completed result has a wake-up on its way, and the drain starts with nothing left of
the one before. -/
structure Roused (pool : Pool) : Prop where
  woken : pool.completed ≠ [] → pool.notified = true ∨ pool.loop = .draining ∨
    ∃ index : Nat, pool.workers[index]? = some .notifying
  done : pool.loop = .draining → pool.ready = []
  stopped : pool.loop = .notifyAll ∨ pool.loop = .joining → pool.stopping = true

theorem Frame.roused (frame : Frame pool next) (roused : Roused pool)
    (loop : next.loop = .notifyWork ∨ next.loop = pool.loop) : Roused next := by
  have running : next.loop ≠ .draining ∧ ¬ (next.loop = .notifyAll ∨ next.loop = .joining) := by
    rcases loop with there | same
    · rw [there]
      exact ⟨nofun, by simp⟩
    · rw [same, frame.free]
      exact ⟨nofun, by simp⟩
  refine ⟨fun some' => ?_, fun turn => absurd turn running.1, fun turn => absurd turn running.2⟩
  rw [frame.notified, frame.workers]
  rw [frame.completed] at some'
  rcases roused.woken some' with notified | turn | notifying
  · exact .inl notified
  · rw [frame.free] at turn
    cases turn
  · exact .inr (.inr notifying)

theorem Around.roused (around : Around pool label next) (roused : Roused pool) : Roused next := by
  refine ⟨fun some' => ?_, fun turn => ?_, fun turn => ?_⟩
  · rw [around.completed] at some'
    rcases roused.woken some' with notified | turn | ⟨index, notifying⟩
    · exact .inl (around.notified.trans notified)
    · rcases around.loop with ⟨same, -⟩ | ⟨was, -⟩ | ⟨was, -⟩ | ⟨was, -⟩
      · exact .inr (.inl (same.trans turn))
      all_goals
        rw [turn] at was
        cases was
    · exact .inr (.inr ⟨index, around.workers.stays index _ rfl notifying⟩)
  · rw [around.ready]
    rcases around.loop with ⟨same, -⟩ | ⟨-, now⟩ | ⟨-, now⟩ | ⟨-, now⟩
    · exact roused.done (same.symm.trans turn)
    all_goals
      rw [turn] at now
      cases now
  · rw [around.stopping]
    rcases around.loop with ⟨same, -⟩ | ⟨-, now⟩ | ⟨-, now⟩ | ⟨was, -⟩
    · exact roused.stopped (same ▸ turn)
    · rw [now] at turn
      simp at turn
    · rw [now] at turn
      simp at turn
    · exact roused.stopped (.inl was)

theorem Travel.roused (travel : Travel pool label next acts) (roused : Roused pool) :
    Roused next := by
  cases travel with
  | call _ frame _ _ _ loop | forget _ frame _ _ _ _ loop | cancel _ _ frame _ _ _ _ loop =>
    exact frame.roused roused (.inr loop)
  | queue _ _ asks _ loop => exact asks.frame.roused roused (.inl loop)
  | refuse _ _ asks _ loop => exact asks.frame.roused roused (.inr loop)
  | receive _ done => exact ⟨fun _ => .inr (.inl rfl), fun _ => done, by simp⟩
  | drain => exact ⟨fun some' => absurd rfl some', by rintro ⟨⟩, by simp [Pool.drain]⟩
  | deliver free =>
    refine ⟨roused.woken, fun turn => ?_, roused.stopped⟩
    rw [free] at turn
    cases turn
  | stop free =>
    refine ⟨fun some' => ?_, by simp, fun _ => rfl⟩
    rcases roused.woken some' with notified | turn | notifying
    · exact .inl notified
    · rw [free] at turn
      cases turn
    · exact .inr (.inr notifying)
  | around around => exact around.roused roused
  | @take _ _ index old request mine idle found pending same =>
    have carried (place : Nat) (there : pool.workers[place]? = some .notifying) :
        next.workers[place]? = some .notifying := by
      have apart : index ≠ place := by
        rintro rfl
        rw [found] at there
        cases there
        cases idle
      rw [same]
      exact (getElem?_set_ne apart).trans there
    rw [same]
    refine ⟨fun some' => ?_, roused.done, roused.stopped⟩
    rcases roused.woken some' with notified | turn | ⟨place, there⟩
    · exact .inl notified
    · exact .inr (.inl turn)
    · exact .inr (.inr ⟨place, by rw [same] at carried; exact carried place there⟩)
  | @complete index request platform found =>
    obtain ⟨inside, -⟩ := List.getElem?_eq_some_iff.mp found
    exact ⟨fun _ => .inr (.inr ⟨index, getElem?_set_self inside⟩), roused.done,
      roused.stopped⟩
  | notify found => exact ⟨fun _ => .inl rfl, roused.done, roused.stopped⟩

end Steps

/-- The drain can rely on its wake-up in every run. -/
theorem run_roused (run : Run step allowed .fresh pool trace) : Roused pool := by
  have fresh : Roused .fresh :=
    ⟨fun some' => absurd rfl some', fun turn => absurd turn (by decide),
      fun turn => absurd turn (by decide)⟩
  refine run.invariant (fun pool _ => Roused pool) fresh ?_
  intro pool next trace acts label roused _ moved
  exact (step_travel moved).roused roused

/-- The numbers that have been given out are the only ones in use, each of them once. -/
structure Accounted (pool : Pool) (trace : List Act) : Prop where
  once : ∀ ticket, pool.copies ticket + reports ticket trace ≤ 1
  fresh : ∀ ticket, pool.nextRequest ≤ ticket.id → pool.copies ticket + reports ticket trace = 0
  dead : ∀ id ∈ pool.dead, id < pool.nextRequest
  held : ∀ (place id : Nat) (handler : Option Nat),
    pool.resolvers[place]? = some (some ⟨handler, some id⟩) → id < pool.nextRequest

section Steps

variable {pool next : Pool} {acts : List Act} {label : Label}

variable (travel : Travel pool label next acts)
include travel

theorem Travel.numbers :
    next.nextRequest = pool.nextRequest ∨
      ∃ index handler request, label.asker = some index ∧
        Asks index handler request pool next ∧ ∀ ticket,
          next.copies ticket + reports ticket acts =
            pool.copies ticket + if request.speaks ticket = true then 1 else 0 := by
  cases travel with
  | call _ _ _ _ numbers | forget _ _ _ _ _ numbers | cancel _ _ _ _ _ _ numbers =>
    exact .inl numbers
  | queue request asker asks pending => exact .inr ⟨_, _, _, asker, asks, asks.queued pending⟩
  | refuse request asker asks pending => exact .inr ⟨_, _, _, asker, asks, asks.refused pending⟩
  | receive | drain | deliver | stop | complete | notify => exact .inl rfl
  | around around => exact .inl around.numbers
  | take _ _ _ _ same =>
    refine .inl ?_
    rw [same]

theorem Travel.numbers_le : pool.nextRequest ≤ next.nextRequest := by
  rcases travel.numbers with same | ⟨_, _, _, -, asks, -⟩
  · exact Nat.le_of_eq same.symm
  · rw [asks.numbers]
    exact Nat.le_succ _

/-- Only the handle of a resolver that is destroyed makes a request dead. -/
theorem Travel.dead_cases :
    next.dead = pool.dead ∨ ∃ index handler id, label = .destroy index ∧
      pool.resolvers[index]? = some (some ⟨handler, some id⟩) ∧ next.dead = id :: pool.dead ∧
      next.resolvers = pool.resolvers.set index none := by
  cases travel with
  | call _ _ _ dead | forget _ _ _ _ dead => exact .inl dead
  | cancel index id _ found _ dead _ _ resolvers =>
    obtain ⟨handler, found⟩ := found
    exact .inr ⟨index, handler, id, rfl, found, dead, resolvers⟩
  | queue _ _ asks | refuse _ _ asks => exact .inl asks.dead
  | receive | drain | deliver | stop | complete | notify => exact .inl rfl
  | around around => exact .inl around.dead
  | take _ _ _ _ same =>
    refine .inl ?_
    rw [same]

/-- The ways in which the resolvers change. -/
theorem Travel.resolvers_cases :
    next.resolvers = pool.resolvers ∨
      (∃ handler, next.resolvers = pool.resolvers ++ [some ⟨handler, none⟩]) ∨
      (∃ index resolver, label = .destroy index ∧
        pool.resolvers[index]? = some (some resolver) ∧
        next.resolvers = pool.resolvers.set index none) ∨
      ∃ index handler request, label.asker = some index ∧
        Asks index handler request pool next := by
  cases travel with
  | call _ _ _ _ _ _ resolvers =>
    rcases resolvers with same | more
    · exact .inl same
    · exact .inr (.inl more)
  | forget index _ found _ _ _ _ resolvers | cancel index id _ found _ _ _ _ resolvers =>
    obtain ⟨handler, found⟩ := found
    exact .inr (.inr (.inl ⟨index, _, rfl, found, resolvers⟩))
  | queue request asker asks | refuse request asker asks =>
    exact .inr (.inr (.inr ⟨_, _, _, asker, asks⟩))
  | receive | drain | deliver | stop | complete | notify => exact .inl rfl
  | around around => exact .inl around.resolvers
  | take _ _ _ _ same =>
    refine .inl ?_
    rw [same]

theorem Travel.accounted (roused : Roused pool) (accounted : Accounted pool trace) :
    Accounted next (trace ++ acts) := by
  have grows := travel.numbers_le
  have kept (ticket : Ticket) (new : born ticket.id pool next = 0) :
      next.copies ticket + reports ticket (trace ++ acts) ≤
        pool.copies ticket + reports ticket trace := by
    have balance := (travel.balance roused.done ticket).le
    rw [reports_append]
    omega
  refine ⟨fun ticket => ?_, fun ticket later => ?_, fun id among => ?_,
    fun place id handler found => ?_⟩
  · by_cases new : born ticket.id pool next = 0
    · exact Nat.le_trans (kept ticket new) (accounted.once ticket)
    · have balance := (travel.balance roused.done ticket).le
      have number : ticket.id = pool.nextRequest ∧ pool.nextRequest < next.nextRequest := by
        by_contra old
        exact new (if_neg old)
      have unused := accounted.fresh ticket (Nat.le_of_eq number.1.symm)
      have one : born ticket.id pool next = 1 := if_pos number
      rw [reports_append]
      omega
  · have old : born ticket.id pool next = 0 := if_neg fun new => by omega
    have less := kept ticket old
    have unused := accounted.fresh ticket (by omega)
    omega
  · rcases travel.dead_cases with same | ⟨index, handler, other, -, found, dead, -⟩
    · rw [same] at among
      exact Nat.lt_of_lt_of_le (accounted.dead id among) grows
    · rw [dead] at among
      rcases mem_cons.mp among with rfl | there
      · exact Nat.lt_of_lt_of_le (accounted.held index id handler found) grows
      · exact Nat.lt_of_lt_of_le (accounted.dead id there) grows
  · rcases travel.resolvers_cases with same | ⟨_, more⟩ | ⟨index, _, -, -, gone⟩ |
      ⟨index, _, request, -, asks⟩
    · rw [same] at found
      exact Nat.lt_of_lt_of_le (accounted.held place id handler found) grows
    · rw [more, getElem?_append] at found
      split at found
      · exact Nat.lt_of_lt_of_le (accounted.held place id handler found) grows
      · rw [getElem?_singleton] at found
        split at found <;> cases found
    · rw [gone, getElem?_set] at found
      split at found
      · split at found <;> cases found
      · exact Nat.lt_of_lt_of_le (accounted.held place id handler found) grows
    · rw [asks.resolvers, getElem?_set] at found
      split at found
      · split at found
        · cases found
          rw [asks.numbers, asks.number]
          exact Nat.lt_succ_self _
        · cases found
      · exact Nat.lt_of_lt_of_le (accounted.held place id handler found) grows

end Steps

theorem run_accounted (run : Run step allowed .fresh pool trace) :
    Roused pool ∧ Accounted pool trace := by
  have fresh : Roused .fresh ∧ Accounted .fresh [] :=
    ⟨run_roused (.start : Run step allowed .fresh .fresh []), fun _ => Nat.zero_le _,
      fun _ _ => rfl, nofun, nofun⟩
  refine run.invariant (fun pool trace => Roused pool ∧ Accounted pool trace) fresh ?_
  intro pool next trace acts label holds _ moved
  have travel := step_travel moved
  exact ⟨travel.roused holds.1, travel.accounted holds.1 holds.2⟩

/-- The request will not be reported any more. -/
def Silent (ticket : Ticket) (pool : Pool) : Prop :=
  ticket.id < pool.nextRequest ∧ (ticket.id ∈ pool.dead ∨ pool.copies ticket = 0)

section Steps

variable {pool next : Pool} {acts : List Act} {label : Label}

theorem Travel.dead_subset (travel : Travel pool label next acts) : pool.dead ⊆ next.dead := by
  rcases travel.dead_cases with same | ⟨_, _, _, -, -, dead, -⟩
  · rw [same]
    exact List.Subset.refl _
  · rw [dead]
    exact subset_cons_self _ _

theorem Travel.reports_of_dead (travel : Travel pool label next acts)
    (number : ticket.id < pool.nextRequest) (dead : ticket.id ∈ pool.dead) :
    reports ticket acts = 0 := by
  cases travel with
  | call _ _ _ _ _ _ _ silent => exact silent ticket
  | refuse request _ asks =>
    rw [reports_singleton rfl asks.manned]
    refine if_neg fun speaks => Nat.ne_of_gt number ?_
    rw [← (speaks_iff_eq.mp speaks).1, asks.number]
  | @deliver request rest =>
    rw [reports_report]
    exact if_neg fun both => both.2 dead
  | queue | forget | cancel | receive | drain | stop | around | take | complete | notify => rfl

theorem Travel.silent (travel : Travel pool label next acts) (roused : Roused pool)
    (silent : Silent ticket pool) : reports ticket acts = 0 ∧ Silent ticket next := by
  obtain ⟨number, dead | gone⟩ := silent
  · exact ⟨travel.reports_of_dead number dead, Nat.lt_of_lt_of_le number travel.numbers_le,
      .inl (travel.dead_subset dead)⟩
  · have balance := (travel.balance roused.done ticket).le
    have old : born ticket.id pool next = 0 := born_of_lt number
    exact ⟨by omega, Nat.lt_of_lt_of_le number travel.numbers_le, .inr (by omega)⟩

end Steps

/-- What is silent stays silent. -/
theorem run_silent {origin : Pool} (roused : Roused origin) (silent : Silent ticket origin)
    (run : Run step allowed origin pool trace) :
    Roused pool ∧ Silent ticket pool ∧ reports ticket trace = 0 := by
  refine run.invariant
    (fun pool trace => Roused pool ∧ Silent ticket pool ∧ reports ticket trace = 0)
    ⟨roused, silent, rfl⟩ ?_
  rintro pool next trace acts label ⟨roused, silent, none'⟩ _ moved
  have travel := step_travel moved
  obtain ⟨told, later⟩ := travel.silent roused silent
  exact ⟨travel.roused roused, later, by rw [reports_append, none', told]⟩

/-- The request was started by this resolver, and only its destruction makes it dead. -/
structure Owned (index id : Nat) (pool : Pool) : Prop where
  number : id < pool.nextRequest
  only : ∀ (place : Nat) (handler : Option Nat),
    pool.resolvers[place]? = some (some ⟨handler, some id⟩) → place = index
  buried : id ∈ pool.dead → pool.resolvers[index]? = some none

section Steps

variable {pool next : Pool} {acts : List Act} {label : Label} {index id : Nat}

/-- A call that is accepted gets the next number, and its resolver keeps it; the request is
for the handler of the resolver and for no other. -/
theorem Travel.accepted (travel : Travel pool label next acts) (accounted : Accounted pool trace)
    (asker : label.asker = some index) (accepted : next.nextRequest = pool.nextRequest + 1) :
    ∃ handler, (∃ held, pool.resolvers[index]? = some (some ⟨some handler, held⟩)) ∧
      Owned index pool.nextRequest next ∧ pool.nextRequest ∉ next.dead ∧
      ∀ other, next.copies ⟨pool.nextRequest, other⟩ + reports ⟨pool.nextRequest, other⟩ acts =
        if other = handler then 1 else 0 := by
  rcases travel.numbers with same | ⟨place, handler, request, asker', asks, counted⟩
  · omega
  rw [asker] at asker'
  cases asker'
  have alive : pool.nextRequest ∉ next.dead := by
    rw [asks.dead]
    exact fun dead => Nat.lt_irrefl _ (accounted.dead _ dead)
  refine ⟨handler, asks.found,
    ⟨by omega, fun place other found => ?_, fun dead => absurd dead alive⟩, alive, fun other => ?_⟩
  · by_contra apart
    rw [asks.resolvers, getElem?_set_ne (Ne.symm apart)] at found
    exact Nat.lt_irrefl _ (accounted.held place _ other found)
  · have unused := accounted.fresh ⟨pool.nextRequest, other⟩ (Nat.le_refl _)
    have speaks : request.speaks ⟨pool.nextRequest, other⟩ = true ↔ other = handler := by
      rw [speaks_iff_eq, asks.number, asks.manned, Option.some_inj, and_iff_right rfl]
      exact eq_comm
    have balance := counted ⟨pool.nextRequest, other⟩
    simp only [speaks] at balance
    omega

theorem Travel.owned (travel : Travel pool label next acts) (owned : Owned index id pool) :
    Owned index id next := by
  have grows := travel.numbers_le
  have number := owned.number
  refine ⟨by omega, fun place handler found => ?_, fun dead => ?_⟩
  · rcases travel.resolvers_cases with same | ⟨_, more⟩ | ⟨_, _, -, -, gone⟩ |
      ⟨_, _, request, -, asks⟩
    · rw [same] at found
      exact owned.only place handler found
    · rw [more, getElem?_append] at found
      split at found
      · exact owned.only place handler found
      · rw [getElem?_singleton] at found
        split at found <;> cases found
    · rw [gone, getElem?_set] at found
      split at found
      · split at found <;> cases found
      · exact owned.only place handler found
    · rw [asks.resolvers, getElem?_set] at found
      split at found
      · split at found
        · cases found
          have new := asks.number
          omega
        · cases found
      · exact owned.only place handler found
  · rcases travel.dead_cases with same | ⟨place, handler, other, -, found, grown, gone⟩
    · rw [same] at dead
      have buried := owned.buried dead
      rcases travel.resolvers_cases with same | ⟨_, more⟩ | ⟨_, _, -, -, gone⟩ |
        ⟨place, _, request, -, asks⟩
      · rw [same]
        exact buried
      · rw [more]
        obtain ⟨inside, -⟩ := List.getElem?_eq_some_iff.mp buried
        exact (getElem?_append_left inside).trans buried
      · rw [gone, getElem?_set]
        obtain ⟨inside, -⟩ := List.getElem?_eq_some_iff.mp buried
        split
        · next same =>
            subst same
            rw [if_pos inside]
        · exact buried
      · obtain ⟨resolver, found⟩ := asks.found
        have apart : place ≠ index := by
          rintro rfl
          rw [buried] at found
          cases found
        rw [asks.resolvers, getElem?_set_ne apart]
        exact buried
    · rw [gone]
      obtain ⟨inside, -⟩ := List.getElem?_eq_some_iff.mp found
      rw [grown] at dead
      by_cases mine : place = index
      · subst mine
        exact getElem?_set_self inside
      rw [getElem?_set_ne mine]
      rcases mem_cons.mp dead with rfl | there
      · exact absurd (owned.only place handler found) mine
      · exact owned.buried there

end Steps

/-- Until its resolver is destroyed a request is on its way or has been reported. -/
theorem run_owned {origin : Pool} {front : List Act} {index : Nat} (roused : Roused origin)
    (owned : Owned index ticket.id origin)
    (one : origin.copies ticket + reports ticket front = 1)
    (run : Run step allowed origin pool trace) :
    Roused pool ∧ Owned index ticket.id pool ∧ (ticket.id ∈ pool.dead ∨
      pool.copies ticket + reports ticket (front ++ trace) = 1) := by
  refine run.invariant (fun pool trace => Roused pool ∧ Owned index ticket.id pool ∧
      (ticket.id ∈ pool.dead ∨ pool.copies ticket + reports ticket (front ++ trace) = 1))
      ⟨roused, owned, .inr ?_⟩ ?_
  · rw [append_nil]
    exact one
  · rintro pool next trace acts label ⟨roused, owned, kept⟩ _ moved
    have travel := step_travel moved
    refine ⟨travel.roused roused, travel.owned owned, ?_⟩
    by_cases dead : ticket.id ∈ next.dead
    · exact .inl dead
    have alive : ticket.id ∉ pool.dead := fun before => dead (travel.dead_subset before)
    have balance := (travel.balance roused.done ticket).eq dead (Nat.ne_of_lt owned.number)
    have kept := kept.resolve_left alive
    rw [← append_assoc, reports_append]
    exact .inr (by omega)

end SamuraiFormal.Dns
