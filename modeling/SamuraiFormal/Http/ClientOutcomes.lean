import SamuraiFormal.Http.ClientMoves

/-!
# One outcome for each request

Every call of `request()` is answered by exactly one `EventHttpResponse` or
`EventHttpError`, unless it is abandoned, and an outcome is never on account of another
request.  This holds along every calm run.  A run is not calm where `request()` is called
while a request is in flight, which ends the one in flight, and where a failed write
returns to `internal_send()` after the application has started another request in the
callback of that failure, which ends the new one.
-/

namespace SamuraiFormal.Http.Client

open Util
open Net
open Library.Traces
open List

/-- The act reports an outcome of the request. -/
def Act.reports (id : Nat) : Act → Bool
  | .response _ victim _ _ => victim == id
  | .error _ victim _ _ => victim == id
  | _ => false

def Act.abandons (id : Nat) : Act → Bool
  | .aborted victim => victim == id
  | _ => false

/-- How often an outcome of the request was reported. -/
def outcomes (id : Nat) (trace : List Act) : Nat := trace.countP (Act.reports id)

/-- How often the request was abandoned. -/
def abandonments (id : Nat) (trace : List Act) : Nat := trace.countP (Act.abandons id)

/-- What ends a request, or sends it on, is its own. -/
def Act.Own : Act → Prop
  | .response cause victim _ _ => cause = victim
  | .error cause victim _ _ => cause = victim
  | .redirected cause victim _ _ => cause = victim
  | _ => True

instance (act : Act) : Decidable act.Own :=
  match act with
  | .response _ _ _ _ => inferInstanceAs (Decidable (_ = _))
  | .error _ _ _ _ => inferInstanceAs (Decidable (_ = _))
  | .redirected _ _ _ _ => inferInstanceAs (Decidable (_ = _))
  | .requested _ _ _ => .isTrue trivial
  | .aborted _ => .isTrue trivial
  | .opened _ _ _ _ => .isTrue trivial
  | .fed _ _ => .isTrue trivial
  | .socket _ _ => .isTrue trivial

namespace System

variable {system : System}

/-- The request is held by the client, with its deadline set and a socket that is heard. -/
structure InFlight (system : System) (id : Nat) : Prop where
  current : system.current = id
  busy : system.client.busy = true
  unreported : system.client.reported = false
  deadline : system.client.deadline = true
  timed : system.timed = id
  connected : ∃ index connection, system.client.socket = some index ∧
    system.connections[index]? = some connection ∧ connection.owner = id ∧
    connection.socket.eventHandler = true

/-- The code that runs next learns that the connection of the request has closed or
failed. -/
inductive Closing (system : System) (id : Nat) : Prop where
  | disconnected (index : Nat) (rest : List Frame)
      (stack : system.stack = .socket index (.app .disconnected) :: rest)
  | error (index : Nat) (which : SocketError) (message : Message) (rest : List Frame)
      (stack : system.stack = .socket index (.app (.error which message)) :: rest)
  | endOfFile (data : Bytes) (ec : Option Errno) (rest : List Frame)
      (stack : system.stack = .client (.readDone id) :: rest)
      (result : system.result = .read .endOfFile data ec)
  | readFailed (data : Bytes) (ec : Option Errno) (rest : List Frame)
      (stack : system.stack = .client (.readDone id) :: rest)
      (result : system.result = .read .error data ec)
  | writeFailed (sent : Int) (ec : Option Errno) (rest : List Frame)
      (stack : system.stack = .client (.sendDone id) :: rest)
      (result : system.result = .count sent ec) (negative : sent < 0)

/-- The outcome of the request is reported, or the request is sent on by a redirect. -/
def Decides (id : Nat) (acts : List Act) : Prop :=
  outcomes id acts = 1 ∨ ∃ code location, .redirected id id code location ∈ acts

/-- Each request that was made has had exactly one outcome, or was abandoned and has had
none, or is in flight; and one in flight has its outcome, or is sent on, in the step in
which its deadline fires or its connection is found to have closed. -/
structure Settled (system : System) (trace : List Act) : Prop where
  once : ∀ id request options, .requested id request options ∈ trace →
    (outcomes id trace = 1 ∧ .aborted id ∉ trace) ∨
      (outcomes id trace = 0 ∧ .aborted id ∈ trace) ∨
      (outcomes id trace = 0 ∧ .aborted id ∉ trace ∧ system.InFlight id)
  own : ∀ act ∈ trace, act.Own
  deadline : ∀ id, system.InFlight id → system.yields = true →
    ∃ next acts, system.step .deadline = some (next, acts) ∧ outcomes id acts = 1
  closing : ∀ id answers, system.InFlight id → system.Closing id →
    ∃ next acts, system.step (.resume answers) = some (next, acts) ∧ Decides id acts

/-- The request for which a failed write is about to return. -/
def lateWriter (system : System) : Option Nat :=
  match system.stack, system.result with
  | .client (.sendDone id) :: _, .count sent _ => if sent < 0 then some id else none
  | _, _ => none

/-- A step that does not mix requests up: `request()` is called when none is in flight,
and a write that failed returns to a request that is still held, or when nothing is left
to report. -/
def Calm (system : System) : Label → Prop
  | .request _ => system.client.busy = false
  | .resume _ =>
    system.client.reported = true ∨ system.lateWriter = none ∨
      system.lateWriter = some system.current
  | _ => True

instance (system : System) (label : Label) : Decidable (system.Calm label) :=
  match label with
  | .request _ => inferInstanceAs (Decidable (_ = _))
  | .resume _ => inferInstanceAs (Decidable (_ ∨ _))
  | .back => .isTrue trivial
  | .abort => .isTrue trivial
  | .setOptions _ => .isTrue trivial
  | .setDefault _ => .isTrue trivial
  | .deadline => .isTrue trivial
  | .monitor _ _ => .isTrue trivial
  | .timeout _ => .isTrue trivial
  | .found _ _ _ _ => .isTrue trivial
  | .notFound _ _ => .isTrue trivial

/-! ## The ledger -/

end System

/-- The outcomes and abandonments that a request must have had: none while it is in
flight, one after that. -/
def View.due (view : View) (id : Nat) : Nat :=
  if view.busy = true ∧ id = view.current then 0 else if id < view.issued then 1 else 0

/-- How often a request was ended. -/
def tally (id : Nat) (trace : List Act) : Nat := outcomes id trace + abandonments id trace

theorem tally_append (id : Nat) (front back : List Act) :
    tally id (front ++ back) = tally id front + tally id back := by
  simp only [tally, outcomes, abandonments, countP_append]
  omega

theorem tally_of_quiet {acts : List Act} (quiet : ∀ act ∈ acts, act.isQuiet = true) (id : Nat) :
    tally id acts = 0 := by
  have silent : ∀ act ∈ acts, act.reports id = false ∧ act.abandons id = false := by
    intro act member
    have known := quiet act member
    cases act with
    | fed index data | socket index act => exact ⟨rfl, rfl⟩
    | _ => cases known
  simp only [tally, outcomes, abandonments, Nat.add_eq_zero_iff, countP_eq_zero]
  exact ⟨fun act member => by simp [(silent act member).1],
    fun act member => by simp [(silent act member).2]⟩

theorem tally_error (id cause victim : Nat) (why : Status) (message : Message) :
    tally id [.error cause victim why message] = if id = victim then 1 else 0 := by
  simp [tally, outcomes, abandonments, Act.reports, Act.abandons, countP_cons, @eq_comm Nat id]

theorem tally_response (id cause victim : Nat) (index : Option Nat) (answer : Response) :
    tally id [.response cause victim index answer] = if id = victim then 1 else 0 := by
  simp [tally, outcomes, abandonments, Act.reports, Act.abandons, countP_cons, @eq_comm Nat id]

theorem tally_aborted (id victim : Nat) :
    tally id [.aborted victim] = if id = victim then 1 else 0 := by
  simp [tally, outcomes, abandonments, Act.reports, Act.abandons, countP_cons, @eq_comm Nat id]

/-- The books: what was reported is what is due. -/
structure Ledger (view : View) (trace : List Act) : Prop where
  tally : ∀ id, tally id trace = view.due id
  current : view.busy = true → view.current < view.issued
  requested : ∀ id request options, .requested id request options ∈ trace → id < view.issued
  own : ∀ act ∈ trace, act.Own

theorem View.due_ended {view : View} (busy : view.busy = true)
    (current : view.current < view.issued) (id : Nat) :
    view.ended.due id = view.due id + if id = view.current then 1 else 0 := by
  unfold View.due View.ended
  by_cases same : id = view.current
  · subst same
    simp [busy, current]
  · simp [same]

namespace Ledger

variable {view next : View} {trace acts : List Act} {cause : Nat}

/-- Acts that neither end nor make a request. -/
theorem extend (ledger : Ledger view trace)
    (tally' : ∀ id, Client.tally id acts + view.due id = next.due id)
    (current : next.busy = true → next.current < next.issued)
    (issued : view.issued ≤ next.issued)
    (made : ∀ id request options, .requested id request options ∈ acts → id < next.issued)
    (own : ∀ act ∈ acts, act.Own) : Ledger next (trace ++ acts) where
  tally id := by
    rw [tally_append, ledger.tally id, ← tally' id]
    omega
  current := current
  requested id request options member := by
    rcases mem_append.mp member with earlier | now
    · exact (ledger.requested id request options earlier).trans_le issued
    · exact made id request options now
  own act member := by
    rcases mem_append.mp member with earlier | now
    · exact ledger.own act earlier
    · exact own act now

theorem own_of_quiet (quiet : ∀ act ∈ acts, act.isQuiet = true) : ∀ act ∈ acts, act.Own := by
  intro act member
  have known := quiet act member
  cases act with
  | fed index data => trivial
  | socket index act => trivial
  | _ => cases known

variable (ledger : Ledger view trace)
include ledger

theorem still (quiet : ∀ act ∈ acts, act.isQuiet = true) : Ledger view (trace ++ acts) := by
  refine ledger.extend ?_ ledger.current (Nat.le_refl _) ?_ (own_of_quiet quiet)
  · intro id
    rw [tally_of_quiet quiet, Nat.zero_add]
  · intro id request options member
    exact absurd (quiet _ member) nofun

/-- The request in hand ends on its own account. -/
theorem ends (busy : view.busy = true) {last : Act}
    (counts : ∀ id, Client.tally id [last] = if id = view.current then 1 else 0) (own : last.Own)
    (other : ∀ id request options, last ≠ .requested id request options) :
    Ledger view.ended (trace ++ [last]) := by
  refine ledger.extend ?_ nofun (Nat.le_refl _) ?_ (forall_mem_singleton.mpr own)
  · intro id
    rw [counts id, View.due_ended busy (ledger.current busy) id]
    omega
  · intro id request options member
    exact absurd (mem_singleton.mp member).symm (other id request options)

theorem turn (active : view.reported = false → view.busy = true)
    (mine : view.reported = false → cause = view.current) (turn : Turn cause view acts next) :
    Ledger next (trace ++ acts) := by
  cases turn with
  | still acts quiet => exact ledger.still quiet
  | failed front why message quiet unreported =>
    rw [← append_assoc]
    refine (ledger.still quiet).ends (active unreported) ?_ (mine unreported)
      (by intro _ _ _; exact nofun)
    intro id
    exact tally_error id _ _ why message
  | responded front index answer quiet unreported =>
    rw [← append_assoc]
    refine (ledger.still quiet).ends (active unreported) ?_ (mine unreported)
      (by intro _ _ _; exact nofun)
    intro id
    exact tally_response id _ _ index answer
  | redirected front back code location next quiet unreported fewer secure begins =>
    have busy := active unreported
    have own := mine unreported
    have sent : Ledger view (trace ++ front ++
        [.redirected cause view.current code location]) := by
      refine (ledger.still quiet).extend ?_ ledger.current (Nat.le_refl _) (by simp)
        (forall_mem_singleton.mpr own)
      intro id
      exact Nat.zero_add _
    rw [← append_assoc, append_cons]
    cases begins with
    | opened index kind =>
      refine sent.extend ?_ (fun _ => ledger.current busy) (Nat.le_refl _) (by simp)
        (forall_mem_singleton.mpr trivial)
      intro id
      refine (Nat.zero_add _).trans ?_
      simp [View.due, View.redirected, busy]
    | refused why message =>
      -- the request is sent on and refused: one report, for the same request
      have ended := sent.ends busy (fun id => tally_error id cause view.current why message) own
        (by intro _ _ _; exact nofun)
      exact ⟨ended.tally, nofun, ended.requested, ended.own⟩

/-- A new request begins: the books gain a line. -/
theorem begins (idle : view.busy = false) (request : Request)
    (begins : Begins view.issued { view with
      current := view.issued, issued := view.issued + 1, request := request
      redirectsFollowed := 0 } acts next) :
    Ledger next (trace ++ .requested view.issued request view.options :: acts) := by
  -- the new request is in hand, whether it is then opened or refused
  have made : Ledger { view with
      busy := true, current := view.issued, issued := view.issued + 1, request := request
      redirectsFollowed := 0 } (trace ++ [.requested view.issued request view.options]) := by
    refine ledger.extend ?_ (fun _ => Nat.lt_succ_self _) (Nat.le_succ _) ?_
      (forall_mem_singleton.mpr trivial)
    · intro id
      refine (Nat.zero_add _).trans ?_
      unfold View.due
      simp only [idle, Bool.false_eq_true, false_and, if_false, true_and]
      split_ifs <;> omega
    · intro id other options member
      cases mem_singleton.mp member
      exact Nat.lt_succ_self _
  rw [append_cons]
  cases begins with
  | opened index kind =>
    refine made.extend ?_ made.current (Nat.le_refl _) (by simp) (forall_mem_singleton.mpr trivial)
    intro id
    exact Nat.zero_add _
  | refused why message =>
    have ended := made.ends rfl (fun id => tally_error id _ _ why message) rfl
      (by intro _ _ _; exact nofun)
    exact ⟨ended.tally, nofun, ended.requested, ended.own⟩

theorem aborted :
    Ledger view.ended (trace ++ if view.busy then [.aborted view.current] else []) := by
  cases busy : view.busy with
  | true =>
    have ended := ledger.ends busy (fun id => tally_aborted id view.current) trivial
      (by intro _ _ _; exact nofun)
    simpa using ended
  | false =>
    rw [if_neg (by simp), append_nil]
    refine ⟨?_, nofun, ledger.requested, ledger.own⟩
    intro id
    rw [ledger.tally id]
    unfold View.due View.ended
    rw [busy]

end Ledger

namespace System

variable {system : System}

/-- In a calm step, an outcome is on account of the request in hand. -/
theorem mine_of_calm {label : Label} {cause : Nat} (calm : system.Calm label)
    (owns : cause = system.current ∨ system.LateWrite label cause)
    (unreported : system.client.reported = false) : cause = system.current := by
  rcases owns with mine | ⟨answers, rest, sent, ec, rfl, stack, result, negative⟩
  · exact mine
  have late : system.lateWriter = some cause := by
    simp only [lateWriter, stack, result, if_pos negative]
  rcases calm with reported | none | same
  · rw [reported] at unreported
    cases unreported
  · rw [late] at none
    cases none
  · rw [late] at same
    exact Option.some.inj same

theorem ledger_step (sound : system.Sound) {trace acts : List Act} {label : Label} {next : System}
    (ledger : Ledger system.view trace) (calm : system.Calm label)
    (moves : system.step label = some (next, acts)) : Ledger next.view (trace ++ acts) := by
  obtain ⟨_, turns⟩ := step_cases sound moves
  generalize next.view = after at turns
  cases turns with
  | code label cause active owns turn => exact ledger.turn active (mine_of_calm calm owns) turn
  | refused request why message busy =>
    rw [Calm, busy] at calm
    cases calm
  | begun request idle begins => exact ledger.begins idle request begins
  | aborted => exact ledger.aborted
  | setOptions options =>
    rw [append_nil]
    exact ⟨ledger.tally, ledger.current, ledger.requested, ledger.own⟩
  | setDefault proxy =>
    rw [append_nil]
    exact ledger

theorem Fresh.ledger (fresh : system.Fresh) : Ledger system.view [] := by
  have idle : system.view.busy = false := by
    rw [view, fresh.client]
  refine ⟨?_, ?_, by simp, by simp⟩
  · intro id
    have none : system.view.issued = 0 := fresh.issued
    simp [tally, outcomes, abandonments, View.due, none]
  · intro busy
    rw [idle] at busy
    cases busy

theorem run_ledger {origin : System} {trace : List Act} (fresh : origin.Fresh)
    (run : Run step Calm origin system trace) : system.Sound ∧ Ledger system.view trace := by
  refine run.invariant (fun system trace => system.Sound ∧ Ledger system.view trace)
    ⟨fresh.sound, fresh.ledger⟩ ?_
  intro system next trace acts label holds calm moves
  exact ⟨(step_cases holds.1 moves).1, ledger_step holds.1 holds.2 calm moves⟩

theorem inFlight_of_busy (sound : system.Sound) (busy : system.client.busy = true) :
    system.InFlight system.current := by
  obtain ⟨unreported, deadline, timed⟩ := sound.live busy
  obtain ⟨index, holds⟩ := Option.isSome_iff_exists.mp (sound.busy ▸ busy)
  obtain ⟨connection, place, owner, _, handler⟩ := sound.held index holds
  exact ⟨rfl, busy, unreported, deadline, timed, index, connection, holds, place, owner, handler⟩

theorem outcomes_fail {cause : Nat} (unreported : system.client.reported = false) (why : Status)
    (message : Message) : outcomes system.current (system.fail cause why message).2 = 1 := by
  simp [fail, unreported, outcomes, Act.reports]

theorem decides_complete (unreported : system.client.reported = false) :
    Decides system.current (system.complete system.current).2 := by
  unfold complete
  rw [if_neg (by simp [unreported])]
  split
  · rename_i code location _
    unfold followRedirect
    dsimp only
    split
    · exact .inl (outcomes_fail unreported _ _)
    split
    · exact .inl (outcomes_fail unreported _ _)
    split
    · exact .inl (outcomes_fail unreported _ _)
    · exact .inr ⟨code, location, mem_cons_self⟩
  · exact .inl (by simp [respond, outcomes, Act.reports])

theorem decides_finish (unreported : system.client.reported = false) (otherwise : Status → Status)
    (message : Status → String) :
    Decides system.current (system.finish system.current otherwise message).2 := by
  unfold finish
  dsimp only
  split
  · have finished : (system.withClient { system.client with
        parser := system.client.parser.finish.2 }).client.reported = false := unreported
    exact decides_complete finished
  have finished : (system.withClient { system.client with
      parser := system.client.parser.finish.2 }).client.reported = false := unreported
  exact .inl (outcomes_fail finished _ _)

theorem InFlight.fires {id : Nat} (flight : system.InFlight id) (yields : system.yields = true) :
    ∃ next acts, system.step .deadline = some (next, acts) ∧ outcomes id acts = 1 := by
  refine ⟨_, _, if_pos ⟨yields, flight.deadline⟩, ?_⟩
  have fired : (system.withClient { system.client with deadline := false }).client.reported =
      false := flight.unreported
  rw [← flight.current]
  exact outcomes_fail fired _ _

theorem InFlight.closes {id : Nat} (sound : system.Sound) (flight : system.InFlight id)
    (closing : system.Closing id) (answers : Socket.Answers) :
    ∃ next acts, system.step (.resume answers) = some (next, acts) ∧ Decides id acts := by
  obtain rfl := flight.current
  have unreported : system.pop.client.reported = false := flight.unreported
  have heard (index : Nat) (event : SocketEvent) (rest : List Frame)
      (stack : system.stack = .socket index (.app event) :: rest) :
      system.step (.resume answers) =
        some (system.pop.handle system.current event answers) := by
    obtain ⟨_, fits⟩ := sound.ready_pop stack (by intro _ _; exact nofun)
    obtain ⟨connection, place, owner, _⟩ := sound.held index fits
    simp only [step, resume, stack, place, Option.map_some, owner]
  cases closing with
  | disconnected index rest stack =>
    exact ⟨_, _, heard index _ rest stack, decides_finish unreported _ _⟩
  | error index which message rest stack =>
    exact ⟨_, _, heard index _ rest stack, .inl (outcomes_fail unreported _ _)⟩
  | endOfFile data ec rest stack result =>
    have ran : system.step (.resume answers) =
        some (system.pop.finish system.current id Status.toString) := by
      simp only [step, resume, stack, runClient, readDone, pop, result]
    exact ⟨_, _, ran, decides_finish unreported _ _⟩
  | readFailed data ec rest stack result =>
    have ran : system.step (.resume answers) =
        some (system.pop.fail system.current .disconnected (errorMessage ec)) := by
      simp only [step, resume, stack, runClient, readDone, pop, result]
    exact ⟨_, _, ran, .inl (outcomes_fail unreported _ _)⟩
  | writeFailed sent ec rest stack result negative =>
    have ran : system.step (.resume answers) =
        some (system.pop.fail system.current .disconnected (errorMessage ec)) := by
      simp only [step, resume, stack, runClient, sendDone, pop, result, if_pos negative]
    exact ⟨_, _, ran, .inl (outcomes_fail unreported _ _)⟩

theorem abandonments_pos {id : Nat} {trace : List Act} :
    0 < abandonments id trace ↔ .aborted id ∈ trace := by
  rw [abandonments, countP_pos_iff]
  constructor
  · rintro ⟨act, member, abandons⟩
    cases act with
    | aborted victim =>
      have same : victim = id := by simpa [Act.abandons] using abandons
      exact same ▸ member
    | _ => cases abandons
  · intro member
    exact ⟨_, member, by simp [Act.abandons]⟩

/-- In every state that a calm run reaches, each request has had its one outcome, or was
abandoned, or is in flight and will have it. -/
theorem calm_settles {origin : System} {trace : List Act} (fresh : origin.Fresh)
    (run : Run step Calm origin system trace) : system.Settled trace := by
  obtain ⟨sound, ledger⟩ := run_ledger fresh run
  refine ⟨?_, ledger.own, fun id flight yields => flight.fires yields,
    fun id answers flight closing => flight.closes sound closing answers⟩
  intro id request options member
  have issued := ledger.requested id request options member
  have count := ledger.tally id
  unfold tally at count
  have abandons : 0 < abandonments id trace ↔ _ := abandonments_pos
  by_cases held : system.view.busy = true ∧ id = system.view.current
  · rw [View.due, if_pos held] at count
    have flight := inFlight_of_busy sound held.1
    have same : id = system.current := held.2
    refine .inr (.inr ⟨by omega, ?_, same ▸ flight⟩)
    rw [← abandons]
    omega
  · rw [View.due, if_neg held, if_pos issued] at count
    by_cases gaveUp : .aborted id ∈ trace
    · have := abandons.mpr gaveUp
      exact .inr (.inl ⟨by omega, gaveUp⟩)
    · have : ¬ 0 < abandonments id trace := fun more => gaveUp (abandons.mp more)
      exact .inl ⟨by omega, gaveUp⟩

/-- Where a new client is after a list of labels. -/
def played (labels : List Label) : System × List Act :=
  (play step {} labels).getD ({}, [])

theorem run_played {allowed : System → Label → Prop}
    [∀ system label, Decidable (allowed system label)] {labels : List Label}
    (plays : (play (restrict step allowed) {} labels).isSome = true)
    (same : (play (restrict step allowed) {} labels).getD ({}, []) = played labels) :
    Run step allowed {} (played labels).1 (played labels).2 := by
  obtain ⟨last, result⟩ := Option.isSome_iff_exists.mp plays
  refine run_of_play labels ?_
  rw [result] at same ⊢
  exact congrArg some same

/-- Answers with which a connection is in progress. -/
def dialling : Socket.Answers := { connect := some .inProgress }

/-- The steps from `internal_start()` to the event loop, for an address that is known. -/
def connecting : List Label :=
  [.resume {}, .resume {}, .resume {}, .resume {}, .resume dialling, .resume {}]

def plainRequest : Request := { url := ⟨ascii "http://10.0.0.1/"⟩ }

def secureRequest : Request := { url := ⟨ascii "https://10.0.0.1/"⟩ }

/-- A request that is not answered in time. -/
def unanswered : List Label := .request plainRequest :: connecting ++ [.deadline]

theorem unanswered_settles : (played unanswered).1.Settled (played unanswered).2 ∧
    outcomes 0 (played unanswered).2 = 1 := by
  have run : Run step Calm {} (played unanswered).1 (played unanswered).2 :=
    run_played (by decide +kernel) (by decide +kernel)
  exact ⟨calm_settles ⟨rfl, rfl, rfl, rfl, rfl, rfl⟩ run, by decide +kernel⟩

/-- A second request while the first is in flight. -/
def overlapping : List Label := .request plainRequest :: connecting ++ [.request plainRequest]

/-- The TLS session is lost in the write of a request; the application starts another
request in the callback, and then the write returns. -/
def overtaken : List Label :=
  .request secureRequest :: connecting ++
    [.monitor 0 { write := true }, .resume {}, .resume {}, .resume {}, .resume {},
      .resume { tls := .error }, .resume {}, .resume {}, .resume {}, .request plainRequest] ++
    connecting ++ [.back, .resume {}, .resume {}]

/-- In both runs an outcome is reported for a request on account of another one. -/
theorem requests_end_others :
    (Run step (fun _ _ => True) {} (played overlapping).1 (played overlapping).2 ∧
      ¬ (played overlapping).1.Settled (played overlapping).2) ∧
    (Run step (fun _ _ => True) {} (played overtaken).1 (played overtaken).2 ∧
      ¬ (played overtaken).1.Settled (played overtaken).2) := by
  refine ⟨⟨run_played (by decide +kernel) (by decide +kernel), ?_⟩,
    ⟨run_played (by decide +kernel) (by decide +kernel), ?_⟩⟩
  · intro settled
    exact absurd settled.own (by decide +kernel)
  · intro settled
    exact absurd settled.own (by decide +kernel)

/-- The request in hand has the client to itself: its connection is the only one that is
heard, and it is in flight exactly as long as the client is busy and the deadline set. -/
structure Exclusive (system : System) : Prop where
  heard : ∀ (index : Nat) (connection : Connection),
    system.connections[index]? = some connection → connection.socket.eventHandler = true →
    system.client.socket = some index ∧ connection.owner = system.current ∧
      connection.request = system.client.request
  flight : system.client.busy = true ↔ system.InFlight system.current
  deadline : system.client.deadline = true ↔ system.client.busy = true

/-- Whatever the application and the network do, one request is served at a time. -/
theorem run_exclusive {allowed : System → Label → Prop} {origin : System} {trace : List Act}
    (fresh : origin.Fresh) (run : Run step allowed origin system trace) : system.Exclusive := by
  have sound : system.Sound := by
    refine run.invariant (fun system _ => system.Sound) fresh.sound ?_
    intro system next trace acts label sound _ moves
    exact (step_cases sound moves).1
  refine ⟨?_, ⟨inFlight_of_busy sound, fun flight => flight.busy⟩,
    ⟨sound.deadline, fun busy => (sound.live busy).2.1⟩⟩
  intro index connection found hears
  have holds := sound.heard index connection found hears
  obtain ⟨held, place, owner, request, -⟩ := sound.held index holds
  cases place.symm.trans found
  exact ⟨holds, owner, request⟩

theorem overtaken_exclusive : (played overtaken).1.Exclusive := by
  have run : Run step (fun _ _ => True) {} (played overtaken).1 (played overtaken).2 :=
    run_played (by decide +kernel) (by decide +kernel)
  exact run_exclusive ⟨rfl, rfl, rfl, rfl, rfl, rfl⟩ run

end System

end SamuraiFormal.Http.Client
