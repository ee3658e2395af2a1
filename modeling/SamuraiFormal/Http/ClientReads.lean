import SamuraiFormal.Http.ClientOutcomes
import SamuraiFormal.Http.ResponseSegments

/-!
# The bytes behind a response

A response that the client reports is what the parser makes of the bytes that were read on
the connection of that request, in order, each piece once.  Bytes on their way from `read()`
to the parser are `unfed`; everything else that the client does leaves the parser alone,
ends the request, or begins a new connection.
-/

namespace SamuraiFormal.Http.Client

open Util
open Net
open Library.Traces
open List

/-- The pieces that were handed to the parser, for a connection. -/
def fed (index : Nat) (trace : List Act) : List Bytes :=
  trace.filterMap fun
    | .fed place data => if place = index then some data else none
    | _ => none

/-- The pieces that were read on a connection. -/
def received (index : Nat) (trace : List Act) : List Bytes :=
  trace.filterMap fun
    | .socket place act => if place = index then act.received else none
    | _ => none

/-- The parser of a request after the pieces of its response. -/
def parsed (limits : Limits) (request : Request) (pieces : List Bytes) : Outcome :=
  ResponseParser.parsePieces
    ⟨.needMore, ResponseParser.fresh limits (request.method == .head), []⟩ pieces

/-- The connections in the order they were opened in, with the requests they were opened for. -/
def openings (trace : List Act) : List (Nat × Nat × Request) :=
  trace.filterMap fun
    | .opened id index request _ => some (id, index, request)
    | _ => none

/-- A response is read from the connection of its request; a redirect is the answer on the last
connection that was opened. -/
def Answered (front : List Act) : Act → Prop
  | .response _ victim place answer =>
    ∃ index request text limits, place = some index ∧
      .opened victim index request text ∈ front ∧
      answer = (parsed limits request (received index front)).parser.response
  | .redirected _ victim code location =>
    ∃ index request limits, (openings front).getLast? = some (victim, index, request) ∧
      System.Redirects (parsed limits request (received index front)).parser.response code location
  | _ => True

section Lists

variable {index : Nat} {front back acts : List Act}

theorem fed_append : fed index (front ++ back) = fed index front ++ fed index back :=
  filterMap_append

theorem received_append :
    received index (front ++ back) = received index front ++ received index back :=
  filterMap_append

theorem openings_append : openings (front ++ back) = openings front ++ openings back :=
  filterMap_append

/-- Acts that open no connection, read nothing, report no response and follow no redirect. -/
def Act.isMute : Act → Bool
  | .opened _ _ _ _ => false
  | .redirected _ _ _ _ => false
  | .fed _ _ => false
  | .response _ _ _ _ => false
  | .socket _ act => act.received.isNone
  | _ => true

theorem fed_mute (mute : ∀ act ∈ acts, act.isMute = true) : fed index acts = [] := by
  apply filterMap_eq_nil_iff.mpr
  intro act member
  have known := mute act member
  cases act with
  | fed place data => cases known
  | _ => rfl

theorem received_mute (mute : ∀ act ∈ acts, act.isMute = true) : received index acts = [] := by
  apply filterMap_eq_nil_iff.mpr
  intro act member
  have known := mute act member
  cases act with
  | socket place act =>
    have none := Option.isNone_iff_eq_none.mp known
    dsimp only
    rw [none, ite_self]
  | _ => rfl

theorem Answered.of_mute {act : Act} (mute : act.isMute = true) : Answered front act := by
  cases act with
  | response | redirected => cases mute
  | _ => trivial

theorem mute_of_received {acts : List Socket.Act} (none : ∀ act ∈ acts, act.received = none) :
    ∀ act ∈ acts.map (Act.socket index), act.isMute = true := by
  intro act member
  obtain ⟨inner, inside, rfl⟩ := mem_map.mp member
  exact Option.isNone_iff_eq_none.mpr (none inner inside)

end Lists

theorem parsed_snoc (limits : Limits) (request : Request) (pieces : List Bytes) (piece : Bytes) :
    parsed limits request (pieces ++ [piece]) =
      (parsed limits request pieces).parser.parse
        ((parsed limits request pieces).input ++ piece) := by
  simp [parsed, ResponseParser.parsePieces]

variable {effect : Effect} {index : Nat}

namespace System

/-- The request that each connection was opened for, with its number. -/
def roll (system : System) : List (Nat × Request) :=
  system.connections.map fun connection => (connection.owner, connection.request)

/-- The bytes that a read has returned and the parser has not seen. -/
def unfed (system : System) : List Bytes :=
  match system.stack with
  | .socket _ (.finish reply) :: .client (.readDone _) :: _ => reply.pieces
  | .client (.readDone _) :: _ => system.result.pieces
  | _ => []

/-- No read is under way. -/
def Unread (system : System) : Prop := ∀ id, .client (.readDone id) ∉ system.stack

variable {system next : System} {cause : Nat}

theorem unfed_of_unread (unread : system.Unread) : system.unfed = [] := by
  unfold unfed
  split
  · rename_i id _ stack
    exact absurd (by simp [stack]) (unread id)
  · rename_i id _ stack
    exact absurd (by simp [stack]) (unread id)
  · rfl

theorem Deep.unread (deep : system.Deep) : system.Unread := by
  intro id member
  exact absurd (deep _ member) nofun

theorem Unread.push (unread : system.Unread) {frames : List Frame}
    (other : ∀ id, .client (.readDone id) ∉ frames) : (system.push frames).Unread := by
  intro id member
  rcases mem_append.mp member with new | old
  · exact other id new
  · exact unread id old

theorem roll_setSocket (system : System) (index : Nat) (socket : Socket) :
    (system.setSocket index socket).roll = system.roll := by
  apply ext_getElem?
  intro place
  simp only [roll, setSocket, getElem?_map, getElem?_modify]
  split
  · rw [Option.map_eq_map, Option.map_map]
    rfl
  · rw [Option.map_eq_map, Option.map_map]
    rfl

theorem roll_teardown (system : System) : system.teardown.roll = system.roll := by
  unfold teardown
  split
  · rfl
  split
  · rfl
  · exact roll_setSocket system _ _

theorem roll_withClient (system : System) (client : Client) :
    (system.withClient client).roll = system.roll := rfl

theorem length_roll (system : System) : system.roll.length = system.connections.length :=
  length_map _

/-! ## What the client does to its parser -/

/-- The client lets its socket go, and with it the response it was reading. -/
inductive Ending (system : System) : List Act → System → Prop where
  | gone {acts : List Act} {next : System} (mute : ∀ act ∈ acts, act.isMute = true)
      (roll : next.roll = system.roll) (none : next.client.socket = none) :
      Ending system acts next
  | responded (front : List Act) (cause : Nat) {next : System}
      (mute : ∀ act ∈ front, act.isMute = true) (holds : system.client.socket ≠ none)
      (roll : next.roll = system.roll) (none : next.client.socket = none) :
      Ending system (front ++
        [.response cause system.current system.client.socket system.client.parser.response]) next
  | redirected (front : List Act) (cause : Nat) {code : Nat} {location : Bytes} {acts : List Act}
      {next : System} (mute : ∀ act ∈ front, act.isMute = true)
      (holds : system.client.socket ≠ none)
      (answer : Redirects system.client.parser.response code location)
      (rest : Ending system acts next) :
      Ending system (front ++ .redirected cause system.current code location :: acts) next
  | begun (front : List Act) (id : Nat) (request : Request) (text : Bytes) (limits : Limits)
      {next : System} (mute : ∀ act ∈ front, act.isMute = true)
      (roll : next.roll = system.roll ++ [(id, request)])
      (socket : next.client.socket = some system.roll.length)
      (parser : next.client.parser =
        ResponseParser.fresh limits (request.method == .head))
      (incoming : next.client.incoming = []) :
      Ending system (front ++ [.opened id system.roll.length request text]) next

/-- What a piece of the client's code does to the response it is reading. -/
inductive Reading (system : System) (acts : List Act) (next : System) : Prop where
  | still (mute : ∀ act ∈ acts, act.isMute = true) (roll : next.roll = system.roll)
      (socket : next.client.socket = system.client.socket)
      (parser : next.client.parser = system.client.parser)
      (incoming : next.client.incoming = system.client.incoming)
  | ends (ending : Ending system acts next)

/-- A piece of code after which the response is no longer read. -/
structure Ends (system : System) (effect : Effect) : Prop where
  ending : Ending system effect.2 effect.1
  unread : system.Unread → effect.1.Unread

/-- A piece of code that does not read. -/
structure Unreads (system : System) (effect : Effect) : Prop where
  reading : Reading system effect.2 effect.1
  unread : system.Unread → effect.1.Unread

theorem Ends.unreads (ends : Ends system effect) : Unreads system effect :=
  ⟨.ends ends.ending, ends.unread⟩

theorem Ending.after {front acts : List Act} (ending : Ending system acts next)
    (mute : ∀ act ∈ front, act.isMute = true) : Ending system (front ++ acts) next := by
  have both {more : List Act} (other : ∀ act ∈ more, act.isMute = true) :
      ∀ act ∈ front ++ more, act.isMute = true := forall_mem_append.mpr ⟨mute, other⟩
  cases ending with
  | gone other roll none => exact .gone (both other) roll none
  | responded more cause other holds roll none =>
    rw [← append_assoc]
    exact .responded _ cause (both other) holds roll none
  | redirected more cause other holds answer rest =>
    rw [← append_assoc]
    exact .redirected _ cause (both other) holds answer rest
  | begun more id request text limits other roll socket parser incoming =>
    rw [← append_assoc]
    exact .begun _ id request text limits (both other) roll socket parser incoming

/-- The members that the end of a request does not look at. -/
theorem Ending.of_same {inner : System} {acts : List Act} (ending : Ending inner acts next)
    (roll : inner.roll = system.roll) (current : inner.current = system.current)
    (socket : inner.client.socket = system.client.socket)
    (response : inner.client.parser.response = system.client.parser.response) :
    Ending system acts next := by
  induction ending with
  | gone mute same none => exact .gone mute (same.trans roll) none
  | redirected front cause mute holds answer _ ih =>
    rw [current]
    exact .redirected front cause mute (socket ▸ holds) (response ▸ answer) ih
  | responded front cause mute holds same none =>
    rw [current, socket, response]
    rw [socket] at holds
    exact .responded front cause mute holds (same.trans roll) none
  | begun front id request text limits mute same place fresh empty =>
    rw [roll] at same place ⊢
    exact .begun front id request text limits mute same place fresh empty

theorem Ends.of_same {inner : System} (ends : Ends inner effect) (roll : inner.roll = system.roll)
    (stack : inner.stack = system.stack) (current : inner.current = system.current)
    (socket : inner.client.socket = system.client.socket)
    (response : inner.client.parser.response = system.client.parser.response) :
    Ends system effect := by
  refine ⟨ends.ending.of_same roll current socket response, ?_⟩
  intro unread
  apply ends.unread
  intro id
  rw [stack]
  exact unread id

theorem Ends.quiet (released : system.client.socket = none) : Ends system system.quiet :=
  ⟨.gone (forall_mem_nil _) rfl released, id⟩

theorem teardown_unread (unread : system.Unread) : system.teardown.Unread := by
  intro id
  rw [teardown_stack]
  exact unread id

/-- A report: the client lets its socket go. -/
theorem report_releases (system : System) :
    let ended := ((system.withClient { system.client with reported := true }).teardown).push [.app]
    ended.roll = system.roll ∧ ended.client.socket = none ∧ (system.Unread → ended.Unread) := by
  intro ended
  refine ⟨roll_teardown _, ?_, ?_⟩
  · simp [ended, push, teardown_client]
  · intro unread
    apply Unread.push
    · exact teardown_unread unread
    · simp

theorem fail_ends (released : system.client.reported = true → system.client.socket = none)
    (cause : Nat) (why : Status) (message : Message) :
    Ends system (system.fail cause why message) := by
  unfold fail
  split
  · rename_i reported
    exact .quiet (released reported)
  · obtain ⟨roll, socket, unread⟩ := report_releases system
    exact ⟨.gone (by simp [Act.isMute]) roll socket, unread⟩

theorem openConnection_ends
    (fresh : system.client.parser = { limits := system.client.options.limits })
    (empty : system.client.incoming = []) : Ends system system.openConnection := by
  refine ⟨?_, ?_⟩
  · have head : system.openConnection.1.client.parser = ResponseParser.fresh
        system.client.options.limits (system.client.request.method == .head) := by
      unfold openConnection
      dsimp only
      rw [fresh]
      cases method : system.client.request.method with
      | head => rfl
      | get => rfl
      | post => rfl
    have roll : system.openConnection.1.roll =
        system.roll ++ [(system.current, system.client.request)] := by
      simp [openConnection, System.roll]
    have place : system.openConnection.1.client.socket = some system.roll.length := by
      simp [openConnection, System.roll]
    have begun : Ending system ([] ++ [.opened system.current system.roll.length
        system.client.request (system.client.request.text system.client.options)])
        system.openConnection.1 :=
      .begun [] system.current system.client.request _ system.client.options.limits
        (forall_mem_nil _) roll place head empty
    rw [length_roll] at begun
    exact begun
  · intro unread
    have pushed : (system.push [.client .connect]).Unread := unread.push (by simp)
    exact pushed

/-- `internal_start()` looks at no more of an earlier request than the connections. -/
theorem start_ends {other : System} (roll : system.roll = other.roll)
    (stack : system.stack = other.stack) (cause : Nat) : Ends other (system.start cause) := by
  have idle : system.restarted.client.socket = none := by
    simp [restarted, withClient, teardown_client]
  have inner : Ends system.restarted (system.start cause) := by
    rcases system.start_cases cause with ⟨why, message, same⟩ | ⟨_, _, same⟩
    · rw [same]
      exact fail_ends (fun _ => idle) cause why message
    · rw [same]
      exact openConnection_ends rfl rfl
  have same : system.restarted.roll = other.roll := (roll_teardown system).trans roll
  obtain ⟨ending, unread⟩ := inner
  refine ⟨?_, ?_⟩
  · generalize system.start cause = effect at ending
    obtain ⟨next, acts⟩ := effect
    cases ending with
    | gone mute kept none => exact .gone mute (kept.trans same) none
    | responded front cause mute holds kept none => exact absurd idle holds
    | redirected front cause mute holds answer rest => exact absurd idle holds
    | begun front id request text limits mute more socket parser incoming =>
      rw [same] at more socket ⊢
      exact .begun front id request text limits mute more socket parser incoming
  · intro before
    apply unread
    apply teardown_unread
    intro id
    rw [stack]
    exact before id

/-- A request that is not reported has a socket. -/
theorem Ready.holds (ready : system.Ready) (unreported : system.client.reported = false) :
    system.client.socket ≠ none := by
  rcases ready.settled unreported with busy | unused
  · rw [ready.busy] at busy
    exact Option.isSome_iff_ne_none.mp busy
  · exact absurd unused ready.used

theorem Core.released (core : system.Core) (reported : system.client.reported = true) :
    system.client.socket = none := by
  by_contra holds
  have busy : system.client.busy = true := by
    rw [core.busy]
    exact Option.isSome_iff_ne_none.mpr holds
  rw [(core.live busy).1] at reported
  cases reported

theorem Ready.fail_ends (ready : system.Ready) (cause : Nat) (why : Status) (message : Message) :
    Ends system (system.fail cause why message) :=
  System.fail_ends ready.released cause why message

theorem respond_ends (holds : system.client.socket ≠ none) (cause : Nat) :
    Ends system (system.respond cause) := by
  obtain ⟨roll, socket, unread⟩ := report_releases system
  exact ⟨.responded [] cause (forall_mem_nil _) holds roll socket, unread⟩

theorem Final.ends (final : Final cause system effect) (ready : system.Ready) :
    Ends system effect := by
  cases final with
  | failed why message => exact ready.fail_ends cause why message
  | responded unreported => exact respond_ends (ready.holds unreported) cause
  | redirected code location unreported answer _ _ =>
    obtain ⟨ending, unread⟩ : Ends system _ :=
      start_ends (roll_withClient system (system.redirecting code location).client) rfl cause
    exact ⟨.redirected [] cause (forall_mem_nil _) (ready.holds unreported) answer ending, unread⟩

theorem runSocket_unreads (system : System) (index : Nat) {outcome : Socket.Outcome}
    (none : ∀ act ∈ outcome.acts, act.received = none) :
    Unreads system (system.runSocket index outcome) := by
  refine ⟨.still (mute_of_received none) (roll_setSocket system _ _) rfl rfl rfl, ?_⟩
  intro unread id member
  rcases mem_append.mp member with new | old
  · simp at new
  · exact unread id old

theorem received_of_clear {acts : List Socket.Act}
    (clear : ∀ act ∈ acts, act.isTransfer = false) : ∀ act ∈ acts, act.received = none := by
  intro act member
  exact (Socket.Act.not_transfer (clear act member)).2

/-- The members that the connections and the response do not depend on. -/
theorem Tuned.same {inner : System} (tuned : Tuned system inner) :
    inner.roll = system.roll ∧ inner.stack = system.stack ∧
      inner.client.socket = system.client.socket := by
  cases tuned with
  | client client same =>
    rw [same]
    exact ⟨rfl, rfl, rfl⟩
  | socket client _ _ _ _ same =>
    rw [same]
    exact ⟨roll_setSocket system _ _, rfl, rfl⟩

theorem Code.unreads (code : Code cause system effect) (ready : system.Ready) :
    Unreads system effect := by
  have still {inner : System} {acts : List Act} (tuned : Tuned system inner)
      (same : inner.reading = system.reading) (mute : ∀ act ∈ acts, act.isMute = true)
      {next : System} (roll : next.roll = inner.roll) (client : next.client = inner.client) :
      Reading system acts next := by
    obtain ⟨roll', _, socket⟩ := tuned.same
    exact .still mute (roll.trans roll') (client ▸ socket) (client ▸ congrArg Prod.fst same)
      (client ▸ congrArg Prod.snd same)
  have unread {inner : System} (tuned : Tuned system inner) (unread : system.Unread) :
      inner.Unread := by
    intro id
    rw [tuned.same.2.1]
    exact unread id
  cases code with
  | still tuned same => exact ⟨still tuned same (forall_mem_nil _) rfl rfl, unread tuned⟩
  | waits tuned same task _ other =>
    refine ⟨still tuned same (forall_mem_nil _) rfl rfl, fun before => ?_⟩
    exact (unread tuned before).push (by simpa using fun id same => other id same.symm)
  | @writes inner index socket tuned same _ _ answers =>
    have none := Socket.writeReporting_received socket inner.client.outgoing answers
    refine ⟨still tuned same (mute_of_received none) (roll_setSocket inner _ _) rfl,
      fun before => ?_⟩
    have pushed : (inner.push [.client (.sendDone inner.current)]).Unread :=
      (unread tuned before).push (by simp)
    exact (runSocket_unreads _ index none).unread pushed
  | ends tuned response final =>
    obtain ⟨roll, stack, socket⟩ := tuned.same
    have current := congrArg View.current tuned.view
    exact ((final.ends (tuned.ready ready)).of_same roll stack current socket response).unreads

/-- The response that is being read, and the ones that were reported. -/
structure Reads (system : System) (unfed : List Bytes) (trace : List Act) : Prop where
  places : ∀ id index request text, .opened id index request text ∈ trace →
    system.roll[index]? = some (id, request)
  listed : ∀ id index request, system.roll[index]? = some (id, request) →
    ∃ text, .opened id index request text ∈ trace
  unused : ∀ index, system.roll.length ≤ index →
    fed index trace = [] ∧ received index trace = []
  held : ∀ index, system.client.socket = some index →
    ∃ id request limits, system.roll[index]? = some (id, request) ∧
      (openings trace).getLast? = some (id, index, request) ∧
      system.client.parser = (parsed limits request (fed index trace)).parser ∧
      system.client.incoming = (parsed limits request (fed index trace)).input ∧
      fed index trace ++ unfed = received index trace
  answers : Always Answered trace

variable {trace acts : List Act} {unfed : List Bytes} {data : Bytes}

/-- The list of connections names the request in hand. -/
theorem Core.roll_getElem? (core : system.Core) (holds : system.client.socket = some index) :
    system.roll[index]? = some (system.current, system.client.request) := by
  obtain ⟨connection, place, owner, request, _⟩ := core.held index holds
  rw [roll, getElem?_map, place, Option.map_some, owner, request]

namespace Reads

/-- Acts that open nothing, with the list of connections as it was. -/
theorem extend {more : List Bytes} (reads : Reads system unfed trace)
    (roll : next.roll = system.roll)
    (closed : ∀ id index request text, .opened id index request text ∉ acts)
    (idle : ∀ index, system.roll.length ≤ index → fed index acts = [] ∧ received index acts = [])
    (held : ∀ index, next.client.socket = some index →
      ∃ id request limits, system.roll[index]? = some (id, request) ∧
        (openings trace).getLast? = some (id, index, request) ∧
        next.client.parser = (parsed limits request (fed index (trace ++ acts))).parser ∧
        next.client.incoming = (parsed limits request (fed index (trace ++ acts))).input ∧
        fed index (trace ++ acts) ++ more = received index (trace ++ acts))
    (answers : Always Answered (trace ++ acts)) : Reads next more (trace ++ acts) := by
  have same : openings (trace ++ acts) = openings trace := by
    rw [openings_append, append_right_eq_self, openings, filterMap_eq_nil_iff]
    intro act now
    cases act with
    | opened id index request text => exact absurd now (closed id index request text)
    | _ => rfl
  refine ⟨?_, ?_, ?_, by rwa [roll, same], answers⟩
  · intro id index request text opened
    rw [roll]
    rcases mem_append.mp opened with earlier | now
    · exact reads.places id index request text earlier
    · exact absurd now (closed id index request text)
  · intro id index request place
    obtain ⟨text, opened⟩ := reads.listed id index request (roll ▸ place)
    exact ⟨text, mem_append_left _ opened⟩
  · intro index beyond
    rw [roll] at beyond
    obtain ⟨noneFed, noneReceived⟩ := reads.unused index beyond
    rw [fed_append, received_append, noneFed, noneReceived]
    exact idle index beyond

/-- Acts that neither open, read nor report, with the list of connections as it was. -/
theorem mute (reads : Reads system unfed trace) (mute : ∀ act ∈ acts, act.isMute = true)
    (roll : next.roll = system.roll)
    (held : next.client.socket = none ∨
      (next.client.socket = system.client.socket ∧ next.client.parser = system.client.parser ∧
        next.client.incoming = system.client.incoming)) : Reads next unfed (trace ++ acts) := by
  refine reads.extend roll ?_ ?_ ?_ (reads.answers.append ?_)
  · intro id index request text now
    exact absurd (mute _ now) nofun
  · exact fun index _ => ⟨fed_mute mute, received_mute mute⟩
  · intro index holds
    rcases held with gone | ⟨socket, parser, incoming⟩
    · rw [gone] at holds
      cases holds
    rw [fed_append, received_append, fed_mute mute, received_mute mute, append_nil,
      append_nil, parser, incoming]
    exact reads.held index (socket ▸ holds)
  · intro front act back split
    exact Answered.of_mute (mute act (by simp [split]))

section

variable (reads : Reads system [] trace)
include reads

/-- The response that was read is the answer to the request in hand. -/
theorem answer (core : system.Core) (holds : system.client.socket ≠ none) :
    ∃ index text limits, system.client.socket = some index ∧
      .opened system.current index system.client.request text ∈ trace ∧
      (openings trace).getLast? = some (system.current, index, system.client.request) ∧
      system.client.parser.response =
        (parsed limits system.client.request (received index trace)).parser.response := by
  obtain ⟨index, here⟩ := Option.ne_none_iff_exists'.mp holds
  obtain ⟨id, request, limits, place, last, parser, _, received'⟩ := reads.held index here
  have own := core.roll_getElem? here
  rw [place] at own
  cases own
  obtain ⟨text, opened⟩ := reads.listed _ index _ place
  refine ⟨index, text, limits, here, opened, last, ?_⟩
  rw [← received', append_nil, parser]

theorem response (core : system.Core) (cause : Nat) (holds : system.client.socket ≠ none)
    (roll : next.roll = system.roll) (none : next.client.socket = none) :
    Reads next [] (trace ++ [.response cause system.current system.client.socket
      system.client.parser.response]) := by
  obtain ⟨index, text, limits, here, opened, -, same⟩ := reads.answer core holds
  have answered : Answered trace (.response cause system.current system.client.socket
      system.client.parser.response) :=
    ⟨index, system.client.request, text, limits, here, opened, same⟩
  refine reads.extend roll (by simp) (fun index _ => ⟨rfl, rfl⟩) ?_
    (always_snoc.mpr ⟨reads.answers, answered⟩)
  intro index holds
  rw [none] at holds
  cases holds

theorem redirected (core : system.Core) (cause : Nat) (holds : system.client.socket ≠ none)
    {code : Nat} {location : Bytes}
    (answer : Redirects system.client.parser.response code location) :
    Reads system [] (trace ++ [.redirected cause system.current code location]) := by
  obtain ⟨index, -, limits, -, -, last, same⟩ := reads.answer core holds
  refine reads.extend rfl (by simp) (fun index _ => ⟨rfl, rfl⟩) ?_
    (always_snoc.mpr ⟨reads.answers, index, system.client.request, limits, last, same ▸ answer⟩)
  intro index here
  rw [fed_append, received_append]
  simpa [fed, received] using reads.held index here

theorem opened {id : Nat} {request : Request} {limits : Limits} (text : Bytes)
    (roll : next.roll = system.roll ++ [(id, request)])
    (socket : next.client.socket = some system.roll.length)
    (parser : next.client.parser = ResponseParser.fresh limits (request.method == .head))
    (incoming : next.client.incoming = []) :
    Reads next [] (trace ++ [.opened id system.roll.length request text]) := by
  have sameFed (index : Nat) :
      fed index (trace ++ [.opened id system.roll.length request text]) = fed index trace := by
    rw [fed_append]
    exact append_nil _
  have sameReceived (index : Nat) :
      received index (trace ++ [.opened id system.roll.length request text]) =
        received index trace := by
    rw [received_append]
    exact append_nil _
  have last : next.roll[system.roll.length]? = some (id, request) := by
    rw [roll, getElem?_concat_length]
  constructor
  · intro other index asked words opened
    rcases mem_append.mp opened with earlier | now
    · have place := reads.places other index asked words earlier
      have inside : index < system.roll.length := (List.getElem?_eq_some_iff.mp place).1
      rw [roll, getElem?_append_left inside]
      exact place
    · cases mem_singleton.mp now
      exact last
  · intro other index asked place
    rcases Nat.lt_or_ge index system.roll.length with inside | beyond
    · rw [roll, getElem?_append_left inside] at place
      obtain ⟨words, opened⟩ := reads.listed other index asked place
      exact ⟨words, mem_append_left _ opened⟩
    have bound : index < next.roll.length := (List.getElem?_eq_some_iff.mp place).1
    rw [roll, length_append, length_singleton] at bound
    have here : index = system.roll.length := by omega
    subst here
    rw [last] at place
    cases place
    exact ⟨text, mem_append_right _ (mem_singleton_self _)⟩
  · intro index beyond
    rw [sameFed, sameReceived]
    rw [roll, length_append] at beyond
    exact reads.unused index (Nat.le_of_add_right_le beyond)
  · intro index holds
    rw [socket] at holds
    cases holds
    obtain ⟨noneFed, noneReceived⟩ := reads.unused system.roll.length (Nat.le_refl _)
    refine ⟨id, request, limits, last, by simp [openings], ?_⟩
    rw [sameFed, sameReceived, noneFed, noneReceived, parser, incoming]
    exact ⟨rfl, rfl, rfl⟩
  · exact always_snoc.mpr ⟨reads.answers, trivial⟩

theorem ending (core : system.Core) (ending : Ending system acts next) :
    Reads next [] (trace ++ acts) := by
  induction ending generalizing trace with
  | gone mute roll none => exact reads.mute mute roll (.inl none)
  | responded front cause mute holds roll none =>
    have before : Reads system [] (trace ++ front) :=
      reads.mute mute rfl (.inr ⟨rfl, rfl, rfl⟩)
    have after := before.response core cause holds roll none
    rwa [append_assoc] at after
  | redirected front cause mute holds answer _ ih =>
    have before : Reads system [] (trace ++ front) :=
      reads.mute mute rfl (.inr ⟨rfl, rfl, rfl⟩)
    have after := ih (before.redirected core cause holds answer)
    simpa only [append_assoc, singleton_append] using after
  | begun front id request text limits mute roll socket parser incoming =>
    have before : Reads system [] (trace ++ front) :=
      reads.mute mute rfl (.inr ⟨rfl, rfl, rfl⟩)
    have after := before.opened text roll socket parser incoming
    rwa [append_assoc] at after

theorem reading (core : system.Core) (reading : Reading system acts next) :
    Reads next [] (trace ++ acts) := by
  cases reading with
  | still mute roll socket parser incoming =>
    exact reads.mute mute roll (.inr ⟨socket, parser, incoming⟩)
  | ends ending => exact reads.ending core ending

/-- A read on the connection of the request. -/
theorem read {pieces : List Bytes} {received' : List Socket.Act}
    (here : system.client.socket = some index)
    (got : received'.filterMap Socket.Act.received = pieces) (roll : next.roll = system.roll)
    (client : next.client = system.client) :
    Reads next pieces (trace ++ received'.map (.socket index)) := by
  have none (place : Nat) : fed place (received'.map (.socket index)) = [] := by
    apply filterMap_eq_nil_iff.mpr
    simp
  have mine : received index (received'.map (.socket index)) = pieces := by
    rw [received, filterMap_map, ← got]
    congr 1
    funext act
    exact if_pos rfl
  have others (place : Nat) (other : index ≠ place) :
      received place (received'.map (.socket index)) = [] := by
    apply filterMap_eq_nil_iff.mpr
    simp [other]
  refine reads.extend roll (by simp) ?_ ?_ (reads.answers.append ?_)
  · intro place beyond
    obtain ⟨id, request, _, found, _⟩ := reads.held index here
    have inside : index < system.roll.length := (List.getElem?_eq_some_iff.mp found).1
    exact ⟨none place, others place (by omega)⟩
  · intro place holds
    rw [client, here] at holds
    cases holds
    obtain ⟨id, request, limits, found, last, parser, incoming, same⟩ := reads.held index here
    rw [append_nil] at same
    refine ⟨id, request, limits, found, last, ?_⟩
    rw [fed_append, none, append_nil, received_append, mine, client, ← same]
    exact ⟨parser, incoming, rfl⟩
  · intro front act back split
    have member : act ∈ received'.map (.socket index) := by simp [split]
    obtain ⟨inner, _, rfl⟩ := mem_map.mp member
    trivial

end

/-- The parser takes the bytes of a read. -/
theorem feed (reads : Reads system [data] trace) (here : system.client.socket = some index) :
    Reads (system.withClient { system.client with
        parser := (system.client.parser.parse (system.client.incoming ++ data)).parser
        incoming := (system.client.parser.parse (system.client.incoming ++ data)).input })
      [] (trace ++ [.fed index data]) := by
  obtain ⟨id, request, limits, found, last, parser, incoming, gap⟩ := reads.held index here
  have inside : index < system.roll.length := (List.getElem?_eq_some_iff.mp found).1
  refine reads.extend (roll_withClient system _) (by simp) ?_ ?_
    (always_snoc.mpr ⟨reads.answers, trivial⟩)
  · intro place beyond
    have other : index ≠ place := by omega
    exact ⟨by simp [fed, other], rfl⟩
  · intro place holds
    have holds : system.client.socket = some place := holds
    rw [here] at holds
    cases holds
    have mine : fed index (trace ++ [.fed index data]) = fed index trace ++ [data] := by
      simp [fed]
    have same : received index (trace ++ [.fed index data]) = received index trace := by
      rw [received_append]
      exact append_nil _
    refine ⟨id, request, limits, found, last, ?_⟩
    rw [mine, same, parsed_snoc, ← parser, ← incoming, gap]
    exact ⟨rfl, rfl, append_nil _⟩

/-- A piece of code that does not read, while nothing is read. -/
theorem unreads (reads : Reads system [] trace) (core : system.Core) (unread : system.Unread)
    (unreads : Unreads system effect) : Reads effect.1 effect.1.unfed (trace ++ effect.2) := by
  rw [unfed_of_unread (unreads.unread unread)]
  exact reads.reading core unreads.reading

end Reads

/-- The stack does not count. -/
theorem Reads.popped (reads : Reads system unfed trace) : Reads system.pop unfed trace :=
  ⟨reads.places, reads.listed, reads.unused, reads.held, reads.answers⟩

/-- Under a frame that is not a read, nothing is read. -/
theorem unread_of_pop {first : Frame} {rest : List Frame} (stack : system.stack = first :: rest)
    (deep : system.pop.Deep) (other : ∀ id, first ≠ .client (.readDone id)) : system.Unread := by
  intro id member
  rw [stack] at member
  rcases mem_cons.mp member with same | below
  · exact other id same.symm
  have tail : .client (.readDone id) ∈ system.pop.stack := by
    rw [pop, stack]
    exact below
  exact deep.unread id tail

theorem Base.reads {inner : System} (base : Base system inner) (sound : system.Sound)
    (ready : inner.Ready) (reads : Reads system system.unfed trace) : Reads inner [] trace := by
  cases base with
  | @popped first rest stack read _ _ =>
    have none : system.unfed = [] := by
      by_cases reading : ∃ id, first = .client (.readDone id)
      · obtain ⟨id, rfl⟩ := reading
        rw [System.unfed, stack]
        exact read id rfl
      · exact unfed_of_unread (unread_of_pop stack ready.deep (not_exists.mp reading))
    exact (none ▸ reads).popped
  | free yields => rwa [unfed_of_unread (sound.deep_of_yields yields).unread] at reads

/-- Code that runs above the frame which was on top. -/
theorem Reads.above {first : Frame} {rest : List Frame} (reads : Reads system system.unfed trace)
    (stack : system.stack = first :: rest) (other : ∀ id, first ≠ .client (.readDone id))
    (ready : system.pop.Ready) (unreads : Unreads system.pop effect) :
    Reads effect.1 effect.1.unfed (trace ++ effect.2) := by
  rw [unfed_of_unread (unread_of_pop stack ready.deep other)] at reads
  exact reads.popped.unreads ready.toCore ready.deep.unread unreads

/-- Code that is entered from outside. -/
theorem Reads.entered (reads : Reads system system.unfed trace) (sound : system.Sound)
    (yields : system.yields = true) (unreads : Unreads system effect) :
    Reads effect.1 effect.1.unfed (trace ++ effect.2) := by
  have unread := (sound.deep_of_yields yields).unread
  rw [unfed_of_unread unread] at reads
  exact reads.unreads sound.toCore unread unreads

/-- The reply of a read is kept for the client, any other reply is nothing to it. -/
theorem Sound.unfed_returned {index : Nat} {reply : Socket.Reply} {rest : List Frame}
    (sound : system.Sound) (stack : system.stack = .socket index (.finish reply) :: rest) :
    ({ system.pop with result := reply } : System).unfed = system.unfed := by
  have shaped := sound.stack
  have tail : system.pop.stack = rest := by simp [pop, stack]
  rw [stack] at shaped
  cases shaped with
  | top _ _ _ deep =>
    have unread : ({ system.pop with result := reply } : System).Unread := by
      intro id member
      have below : .client (.readDone id) ∈ rest := tail ▸ member
      cases deep _ below
    have before : system.Unread := by
      intro id member
      rw [stack] at member
      rcases mem_cons.mp member with same | below
      · cases same
      · cases deep _ below
    rw [unfed_of_unread unread, unfed_of_unread before]
  | returning _ id _ below _ _ =>
    rw [System.unfed, System.unfed, stack]
    simp only [tail]

theorem request_unreads (sound : system.Sound) (request : Request) :
    Unreads system (system.request request) := by
  unfold System.request
  split
  · have released : ({ system with issued := system.issued + 1 } : System).client.reported =
        true → system.client.socket = none := sound.toCore.released
    have ends := fail_ends released system.issued .aborted (.text "a request is already in flight")
    have ending : Ending system _ _ := ends.ending.of_same rfl rfl rfl rfl
    exact ⟨.ends (ending.after (by simp [Act.isMute])), ends.unread⟩
  · have roll : ({ system with
        issued := system.issued + 1, current := system.issued
        client := { system.client with request := request, redirectsFollowed := 0 } } :
        System).roll = system.roll := rfl
    obtain ⟨ending, unread⟩ := start_ends roll rfl system.issued
    exact ⟨.ends (ending.after (by simp [Act.isMute])), unread⟩

theorem abort_unreads (system : System) : Unreads system system.abort := by
  refine ⟨.ends (.gone ?_ (roll_teardown _) ?_), fun unread => teardown_unread unread⟩
  · intro act member
    unfold System.abort at member
    split at member
    · rw [mem_singleton.mp member]
      rfl
    · cases member
  · simp [System.abort, teardown_client]

theorem deadline_unreads (sound : system.Sound) :
    Unreads system ((system.withClient { system.client with deadline := false }).fail system.timed
      .requestTimeout (.text "no response before the deadline")) := by
  have released : (system.withClient { system.client with deadline := false }).client.reported =
      true → system.client.socket = none := sound.toCore.released
  have ends := fail_ends released system.timed .requestTimeout
    (.text "no response before the deadline")
  have ending : Ending system _ _ := ends.ending.of_same rfl rfl rfl rfl
  exact ⟨.ends ending, ends.unread⟩

theorem step_reads (sound : system.Sound) (reads : Reads system system.unfed trace)
    {label : Label} (moves : system.step label = some effect) :
    Reads effect.1 effect.1.unfed (trace ++ effect.2) := by
  have under {inner : System} {effect : Effect} (base : Base system inner) (ready : inner.Ready)
      (unreads : Unreads inner effect) : Reads effect.1 effect.1.unfed (trace ++ effect.2) :=
    (base.reads sound ready reads).unreads ready.toCore ready.deep.unread unreads
  cases step_move sound moves with
  | code base ready _ code => exact under base ready (code.unreads ready)
  | connects stack ready =>
    exact reads.above stack (by simp) ready ((eventConnected_code _).unreads ready)
  | shakes stack ready _ _ =>
    exact reads.above stack (by simp) ready (runSocket_unreads _ _
      (received_of_clear (Socket.tlsSendHandshake_piece _ _).clear))
  | socket base ready _ tame =>
    exact under base ready (runSocket_unreads _ _ (received_of_clear tame.clear))
  | task base ready _ _ =>
    exact under base ready (runSocket_unreads _ _
      (received_of_clear (Socket.Task.run_piece _ _ _).2))
  | @reads answers index socket base ready here _ =>
    obtain ⟨reply, returns⟩ := Socket.readReporting_returns socket readChunk answers
    rw [System.unfed, runSocket_returning returns.tasks]
    exact (base.reads sound ready reads).read here returns.received (roll_setSocket _ _ _) rfl
  | @feeds answers index data effect rest stack ready here pieces code =>
    have held : (system.pop.feeding data).Ready := ready.withClient _ rfl
    rw [System.unfed, stack] at reads
    simp only [pieces] at reads
    have done := (reads.popped.feed here).unreads held.toCore held.deep.unread (code.unreads held)
    rw [append_assoc] at done
    exact done
  | @returns answers index reply rest stack =>
    have after : Reads { system.pop with result := reply } system.unfed
        (trace ++ [.socket index (.returned reply)]) :=
      reads.mute (by simp [Act.isMute, Socket.Act.received]) rfl (.inr ⟨rfl, rfl, rfl⟩)
    rw [← sound.unfed_returned stack] at after
    exact after
  | request request yields => exact reads.entered sound yields (request_unreads sound request)
  | abort yields => exact reads.entered sound yields (abort_unreads system)
  | setOptions options yields =>
    exact reads.entered sound yields
      ⟨.still (forall_mem_nil _) rfl rfl rfl rfl, fun unread => unread⟩
  | setDefault proxy yields =>
    exact reads.entered sound yields
      ⟨.still (forall_mem_nil _) rfl rfl rfl rfl, fun unread => unread⟩
  | deadline yields _ => exact reads.entered sound yields (deadline_unreads sound)

theorem Fresh.reads (fresh : system.Fresh) : Reads system [] [] := by
  have idle : system.client.socket = none := by
    rw [fresh.client]
  have empty : system.roll = [] := by
    rw [roll, fresh.connections]
    rfl
  constructor
  · simp
  · simp [empty]
  · intro index _
    exact ⟨rfl, rfl⟩
  · intro index holds
    rw [idle] at holds
    cases holds
  · exact always_nil _

/-- Along every run, responses are read from the connections of their requests. -/
theorem run_reads {allowed : System → Label → Prop} {origin : System} (fresh : origin.Fresh)
    (run : Run step allowed origin system trace) :
    system.Sound ∧ Reads system system.unfed trace := by
  refine run.invariant (fun system trace => system.Sound ∧ Reads system system.unfed trace)
    ⟨fresh.sound, ?_⟩ ?_
  · have empty : origin.unfed = [] := by
      rw [System.unfed, fresh.stack]
    rw [empty]
    exact fresh.reads
  · intro system next trace acts label holds _ moves
    exact ⟨(step_cases holds.1 moves).1, step_reads holds.1 holds.2 moves⟩

end System

end SamuraiFormal.Http.Client
