import SamuraiFormal.Http.Client
import SamuraiFormal.Net.SocketRuns

/-!
# What a step of the client can do

`Sound` is what holds in every state that a client reaches: the only socket with a handler
is that of the request in flight, and a function of the client that waits for its socket is
on top of the call stack.  `step_cases` says what a step does to the request that the
client holds, which is all that the properties of outcomes and of redirects look at.
-/

namespace SamuraiFormal.Http.Client

open Util
open Net
open List

/-- The members of the client that are about the request it holds. -/
structure View where
  busy : Bool
  reported : Bool
  current : Nat
  issued : Nat
  request : Request
  redirectsFollowed : Nat
  options : Options
  deriving DecidableEq

def System.view (system : System) : View where
  busy := system.client.busy
  reported := system.client.reported
  current := system.current
  issued := system.issued
  request := system.client.request
  redirectsFollowed := system.client.redirectsFollowed
  options := system.client.options

/-- The request is reported or given up. -/
def View.ended (view : View) : View := { view with busy := false, reported := true }

/-- Acts that are not about requests. -/
def Act.isQuiet : Act → Bool
  | .fed _ _ => true
  | .socket _ _ => true
  | _ => false

/-- `internal_start()`: the request is put on a socket, or it is refused. -/
inductive Begins (cause : Nat) (view : View) : List Act → View → Prop where
  | opened (index : Nat) (kind : view.request.isHttp = true ∨ view.request.isHttps = true) :
      Begins cause view
        [.opened view.current index view.request (view.request.text view.options)]
        { view with busy := true, reported := false }
  | refused (why : Status) (message : Message) :
      Begins cause view [.error cause view.current why message] view.ended

/-- The request that a redirect leads to, counted. -/
def View.redirected (view : View) (code : Nat) (location : Bytes) : View :=
  { view with
    request := view.request.redirected code (view.request.url.resolve location)
    redirectsFollowed := view.redirectsFollowed + 1 }

/-- What a piece of code that runs on account of a request does to the request in hand. -/
inductive Turn (cause : Nat) (view : View) : List Act → View → Prop where
  | still (acts : List Act) (quiet : ∀ act ∈ acts, act.isQuiet = true) : Turn cause view acts view
  | failed (front : List Act) (why : Status) (message : Message)
      (quiet : ∀ act ∈ front, act.isQuiet = true) (unreported : view.reported = false) :
      Turn cause view (front ++ [.error cause view.current why message]) view.ended
  | responded (front : List Act) (index : Option Nat) (answer : Response)
      (quiet : ∀ act ∈ front, act.isQuiet = true) (unreported : view.reported = false) :
      Turn cause view (front ++ [.response cause view.current index answer]) view.ended
  | redirected (front back : List Act) (code : Nat) (location : Bytes) (next : View)
      (quiet : ∀ act ∈ front, act.isQuiet = true) (unreported : view.reported = false)
      (fewer : view.redirectsFollowed < view.options.maxRedirects)
      (secure : view.request.isHttps = true →
        iequals (view.request.url.resolve location).getScheme (ascii "https") = true)
      (begins : Begins cause (view.redirected code location) back next) :
      Turn cause view (front ++ .redirected cause view.current code location :: back) next

variable {acts : List Act} {socket : Socket} {index : Nat}

theorem Turn.after {cause : Nat} {view next : View} {front : List Act}
    (turn : Turn cause view acts next) (quiet : ∀ act ∈ front, act.isQuiet = true) :
    Turn cause view (front ++ acts) next := by
  have both {more : List Act} (other : ∀ act ∈ more, act.isQuiet = true) :
      ∀ act ∈ front ++ more, act.isQuiet = true := forall_mem_append.mpr ⟨quiet, other⟩
  cases turn with
  | still acts other => exact .still _ (both other)
  | failed more why message other unreported =>
    rw [← append_assoc]
    exact .failed _ why message (both other) unreported
  | responded more index answer other unreported =>
    rw [← append_assoc]
    exact .responded _ index answer (both other) unreported
  | redirected more back code location next other unreported fewer secure begins =>
    rw [← append_assoc]
    exact .redirected _ back code location _ (both other) unreported fewer secure begins

/-- The event loop enters a socket. -/
def Label.enters : Label → Bool
  | .monitor _ _ => true
  | .timeout _ => true
  | .found _ _ _ _ => true
  | .notFound _ _ => true
  | _ => false

/-- A frame that can lie under others. -/
def Frame.isDeep : Frame → Bool
  | .socket _ (.app _) => false
  | .client (.sendDone _) => true
  | .client _ => false
  | _ => true

/-- A frame on top of the stack belongs to the request in flight. -/
def Top (socket : Option Nat) (current : Nat) : Frame → Prop
  | .socket index (.app _) => socket = some index
  | .client (.readMore id) => socket ≠ none ∧ id = current
  | .client (.readDone id) => socket ≠ none ∧ id = current
  | .client .connect => socket ≠ none
  | .client .handshake => socket ≠ none
  | _ => True

/-- The call stack: one frame may wait for the socket, on top or under its return. -/
inductive Shaped (socket : Option Nat) (current : Nat) : List Frame → Prop where
  | nil : Shaped socket current []
  | top (frame : Frame) (rest : List Frame) (fits : Top socket current frame)
      (deep : ∀ frame ∈ rest, frame.isDeep = true) : Shaped socket current (frame :: rest)
  | returning (index id : Nat) (reply : Socket.Reply) (rest : List Frame)
      (fits : socket ≠ none ∧ id = current) (deep : ∀ frame ∈ rest, frame.isDeep = true) :
      Shaped socket current
        (.socket index (.finish reply) :: .client (.readDone id) :: rest)

theorem Shaped.of_deep {socket : Option Nat} {current : Nat} {stack : List Frame}
    (deep : ∀ frame ∈ stack, frame.isDeep = true) : Shaped socket current stack := by
  cases stack with
  | nil => exact .nil
  | cons frame rest =>
    refine .top frame rest ?_ fun other member => deep other (mem_cons_of_mem _ member)
    have first := deep frame mem_cons_self
    cases frame with
    | socket index task =>
      cases task with
      | app event => cases first
      | _ => trivial
    | client task =>
      cases task with
      | sendDone id => trivial
      | _ => cases first
    | app => trivial

/-- Only the socket of the request in flight has a handler. -/
def System.Heard (system : System) : Prop :=
  ∀ (index : Nat) (connection : Connection), system.connections[index]? = some connection →
    connection.socket.eventHandler = true → system.client.socket = some index

/-- The members of the client, and its sockets. -/
structure System.Core (system : System) : Prop where
  heard : system.Heard
  busy : system.client.busy = system.client.socket.isSome
  live : system.client.busy = true → system.client.reported = false ∧
    system.client.deadline = true ∧ system.timed = system.current
  deadline : system.client.deadline = true → system.client.busy = true
  settled : system.client.reported = false → system.client.busy = true ∨ system.issued = 0
  held : ∀ index, system.client.socket = some index → ∃ connection,
    system.connections[index]? = some connection ∧ connection.owner = system.current ∧
      connection.request = system.client.request ∧ connection.socket.eventHandler = true
  secure : system.client.socket ≠ none → system.client.secure = system.client.request.isHttps

/-- The invariant of the client. -/
structure System.Sound (system : System) : Prop extends system.Core where
  stack : Shaped system.client.socket system.current system.stack
  unused : system.issued = 0 → system.stack = [] ∧ system.connections = []

/-- Every frame can lie under others. -/
def System.Deep (system : System) : Prop := ∀ frame ∈ system.stack, frame.isDeep = true

variable {next : System} {place : Nat} {effect : Effect} {outcome : Socket.Outcome} {label : Label}

namespace System

variable {system : System}

/-- The stack and the last reply do not count. -/
theorem Core.restack (core : system.Core) (stack : List Frame) (result : Socket.Reply) :
    ({ system with stack, result } : System).Core :=
  ⟨core.heard, core.busy, core.live, core.deadline, core.settled, core.held, core.secure⟩

theorem Core.sound (core : system.Core) (deep : system.Deep) (used : system.issued ≠ 0) :
    system.Sound :=
  ⟨core, .of_deep deep, fun none => absurd none used⟩

theorem getElem?_setSocket {connection : Connection}
    (found : (system.setSocket index socket).connections[place]? = some connection) :
    ∃ before, system.connections[place]? = some before ∧ connection.owner = before.owner ∧
      connection.request = before.request ∧
      ((place = index ∧ connection.socket = socket) ∨
        (place ≠ index ∧ connection.socket = before.socket)) := by
  simp only [setSocket, getElem?_modify] at found
  cases before : system.connections[place]? with
  | none => simp [before] at found
  | some old =>
    refine ⟨old, rfl, ?_⟩
    by_cases same : index = place
    · subst same
      simp only [before, Option.map_eq_map, Option.map_some, Option.some.injEq] at found
      subst found
      exact ⟨rfl, rfl, .inl ⟨rfl, rfl⟩⟩
    · simp only [before, if_neg same, Option.map_eq_map, Option.map_some,
        Option.some.injEq] at found
      subst found
      exact ⟨rfl, rfl, .inr ⟨fun other => same other.symm, rfl⟩⟩

theorem setSocket_getElem? (socket : Socket) {before : Connection}
    (found : system.connections[place]? = some before) :
    (system.setSocket index socket).connections[place]? =
      some (if place = index then { before with socket := socket } else before) := by
  simp only [setSocket, getElem?_modify, found, Option.map_eq_map, Option.map_some]
  by_cases same : index = place
  · rw [if_pos same, if_pos same.symm]
  · rw [if_neg same, if_neg (Ne.symm same)]

theorem socket?_eq_some (found : system.socket? index = some socket) :
    ∃ connection, system.connections[index]? = some connection ∧ connection.socket = socket := by
  simpa [socket?] using found

/-- A change of a socket that keeps its handler. -/
theorem Core.setSocket (core : system.Core) {before : Socket}
    (found : system.socket? index = some before)
    (same : socket.eventHandler = before.eventHandler) : (system.setSocket index socket).Core := by
  obtain ⟨old, place, rfl⟩ := socket?_eq_some found
  refine ⟨?_, core.busy, core.live, core.deadline, core.settled, ?_, core.secure⟩
  · intro other connection now handler
    obtain ⟨earlier, was, _, _, ⟨rfl, at'⟩ | ⟨_, at'⟩⟩ := getElem?_setSocket now
    · rw [place] at was
      cases was
      exact core.heard other old place (by rw [← same, ← at']; exact handler)
    · exact core.heard other earlier was (by rw [← at']; exact handler)
  · intro other holds
    obtain ⟨connection, was, owner, request, handler⟩ := core.held other holds
    refine ⟨_, setSocket_getElem? socket was, ?_⟩
    split
    · rename_i here
      subst here
      rw [place] at was
      cases was
      exact ⟨owner, request, same.trans handler⟩
    · exact ⟨owner, request, handler⟩

/-- What `internal_teardown()` does to the sockets. -/
theorem getElem?_teardown {connection : Connection}
    (found : system.teardown.connections[place]? = some connection) :
    ∃ before, system.connections[place]? = some before ∧ connection.owner = before.owner ∧
      connection.request = before.request ∧
      ((system.client.socket = some place ∧
          connection.socket = (before.socket.setEventHandler false).disableMonitor) ∨
        (system.client.socket ≠ some place ∧ connection.socket = before.socket)) := by
  unfold teardown at found
  split at found
  · rename_i none'
    exact ⟨connection, found, rfl, rfl, .inr ⟨by rw [none']; exact nofun, rfl⟩⟩
  rename_i index some'
  split at found
  · rename_i missing
    refine ⟨connection, found, rfl, rfl, .inr ⟨?_, rfl⟩⟩
    intro here
    rw [some'] at here
    cases here
    have present : system.connections[place]? = some connection := found
    simp [socket?, present] at missing
  · rename_i socket here
    obtain ⟨before, was, owner, request, ⟨rfl, at'⟩ | ⟨apart, at'⟩⟩ := getElem?_setSocket found
    · refine ⟨before, was, owner, request, .inl ⟨some', ?_⟩⟩
      rw [socket?, was] at here
      cases here
      exact at'
    · refine ⟨before, was, owner, request, .inr ⟨?_, at'⟩⟩
      rw [some']
      exact fun same => apart (Option.some.inj same).symm

/-- No socket has a handler. -/
def Deaf (system : System) : Prop :=
  ∀ (index : Nat) (connection : Connection), system.connections[index]? = some connection →
    connection.socket.eventHandler = false

theorem Heard.teardown (heard : system.Heard) : system.teardown.Deaf := by
  intro index connection found
  obtain ⟨before, was, _, _, ⟨_, at'⟩ | ⟨apart, at'⟩⟩ := getElem?_teardown found
  · rw [at']
    rfl
  · cases handler : connection.socket.eventHandler with
    | false => rfl
    | true => exact absurd (heard index before was (by rw [← at']; exact handler)) apart

section Teardown

variable (system)

theorem teardown_eq : ∃ connections, connections.length = system.connections.length ∧
    system.teardown = { system with
      client := { system.client with deadline := false, socket := none, busy := false }
      connections } := by
  unfold teardown
  split
  · exact ⟨_, rfl, rfl⟩
  split
  · exact ⟨_, rfl, rfl⟩
  · exact ⟨_, length_modify _ _ _, rfl⟩

@[simp] theorem teardown_stack : system.teardown.stack = system.stack := by
  obtain ⟨_, _, same⟩ := system.teardown_eq
  rw [same]

@[simp] theorem teardown_current : system.teardown.current = system.current := by
  obtain ⟨_, _, same⟩ := system.teardown_eq
  rw [same]

@[simp] theorem teardown_issued : system.teardown.issued = system.issued := by
  obtain ⟨_, _, same⟩ := system.teardown_eq
  rw [same]

theorem teardown_client : system.teardown.client =
    { system.client with deadline := false, socket := none, busy := false } := by
  obtain ⟨_, _, same⟩ := system.teardown_eq
  rw [same]

theorem teardown_length : system.teardown.connections.length = system.connections.length := by
  obtain ⟨_, length, same⟩ := system.teardown_eq
  rwa [same]

end Teardown

theorem heard_withClient {client : Client} (same : client.socket = system.client.socket)
    (heard : system.Heard) : (system.withClient client).Heard := by
  intro index connection found handler
  exact same.trans (heard index connection found handler)

/-- A client without a socket. -/
theorem core_of_idle (socket : system.client.socket = none) (busy : system.client.busy = false)
    (deadline : system.client.deadline = false)
    (reported : system.client.reported = true ∨ system.issued = 0)
    (deaf : system.Deaf) : system.Core where
  heard index connection found handler := by
    rw [deaf index connection found] at handler
    cases handler
  busy := by rw [busy, socket]; rfl
  live working := by rw [busy] at working; cases working
  deadline armed := by rw [deadline] at armed; cases armed
  settled unreported := by
    rcases reported with yes | unused
    · rw [yes] at unreported
      cases unreported
    · exact .inr unused
  held index holds := by rw [socket] at holds; cases holds
  secure some' := absurd socket some'

/-- A report or an abandonment: the client is idle. -/
theorem ended_core (heard : system.Heard) :
    ((system.withClient { system.client with reported := true }).teardown).Core := by
  refine core_of_idle ?_ ?_ ?_ (.inl ?_) (Heard.teardown ?_)
  · rw [teardown_client]
  · rw [teardown_client]
  · rw [teardown_client]
  · rw [teardown_client]
    rfl
  · exact heard_withClient rfl heard

theorem ended_view :
    ((system.withClient { system.client with reported := true }).teardown).view =
      system.view.ended := by
  simp [view, View.ended, teardown_client, withClient]

/-! ## Pieces of the client -/

/-- A piece of code leaves a sound system and turns the request in hand. -/
structure Lands (cause : Nat) (system : System) (effect : Effect) : Prop where
  sound : effect.1.Sound
  turn : Turn cause system.view effect.2 effect.1.view

variable {cause : Nat}

/-- The members that are not about the request in hand do not count. -/
theorem Lands.of_view {inner : System} (lands : Lands cause inner effect)
    (same : inner.view = system.view) : Lands cause system effect :=
  ⟨lands.sound, same ▸ lands.turn⟩

/-- What a piece of code starts from: its own frame is off the stack. -/
structure Ready (system : System) : Prop extends system.Core where
  deep : system.Deep
  used : system.issued ≠ 0

theorem Ready.sound (ready : system.Ready) : system.Sound :=
  ready.toCore.sound ready.deep ready.used

theorem Ready.quiet (ready : system.Ready) : Lands cause system system.quiet :=
  ⟨ready.sound, .still [] (forall_mem_nil _)⟩

/-- The members that the invariant does not look at. -/
theorem Ready.withClient (ready : system.Ready) (client : Client)
    (same : client = { system.client with
      outgoing := client.outgoing, incoming := client.incoming, parser := client.parser
      handshaking := client.handshaking }) : (system.withClient client).Ready := by
  obtain ⟨⟨heard, busy, live, deadline, settled, held, secure⟩, deep, used⟩ := ready
  rw [same]
  exact ⟨⟨heard, busy, live, deadline, settled, held, secure⟩, deep, used⟩

theorem fail_lands (heard : system.Heard) (deep : system.Deep) (used : system.issued ≠ 0)
    (core : system.client.reported = true → system.Core) (why : Status) (message : Message) :
    Lands cause system (system.fail cause why message) := by
  unfold fail
  split
  · rename_i reported
    exact ⟨(core reported).sound deep used, .still [] (forall_mem_nil _)⟩
  rename_i unreported
  have deep' : (((system.withClient { system.client with reported := true }).teardown).push
      [.app]).Deep := forall_mem_cons.mpr ⟨rfl, by rw [teardown_stack]; exact deep⟩
  refine ⟨⟨(ended_core heard).restack _ _, .of_deep deep', ?_⟩, ?_⟩
  · intro unused
    exact absurd (by simpa [push, System.withClient] using unused) used
  · have turned : Turn cause system.view ([] ++ [.error cause system.view.current why message])
        system.view.ended :=
      .failed [] why message (forall_mem_nil _) (Bool.eq_false_iff.mpr unreported)
    rw [← ended_view] at turned
    exact turned

theorem Ready.fail (ready : system.Ready) (why : Status) (message : Message) :
    Lands cause system (system.fail cause why message) :=
  fail_lands ready.heard ready.deep ready.used (fun _ => ready.toCore) why message

theorem restarted_view : system.restarted.view =
    { system.view with busy := false, reported := false } := by
  simp [restarted, view, withClient, teardown_client]

theorem restarted_deaf (heard : system.Heard) : system.restarted.Deaf := heard.teardown

theorem newSocket_spec (system : System) :
    system.newSocket.eventHandler = true ∧ system.newSocket.state = .disconnected := by
  unfold newSocket
  dsimp only
  split
  · exact ⟨rfl, rfl⟩
  unfold Socket.setProxy
  split <;> exact ⟨rfl, rfl⟩

theorem openConnection_core (deaf : system.Deaf) (unreported : system.client.reported = false) :
    system.openConnection.1.Core := by
  have last : system.openConnection.1.connections[system.connections.length]? =
      some ⟨system.newSocket, system.current, system.client.request⟩ := by
    simp [openConnection]
  refine ⟨?_, rfl, fun _ => ⟨unreported, rfl, rfl⟩, fun _ => rfl, fun _ => .inl rfl, ?_,
    fun _ => rfl⟩
  · intro index connection found handler
    by_cases below : index < system.connections.length
    · have before : system.connections[index]? = some connection := by
        simpa [openConnection, getElem?_append_left below] using found
      rw [deaf index connection before] at handler
      cases handler
    · by_cases here : index = system.connections.length
      · rw [here]
        rfl
      · have beyond : system.openConnection.1.connections.length ≤ index := by
          simp only [openConnection, length_append, length_singleton]
          omega
        rw [getElem?_eq_none beyond] at found
        cases found
  · intro index holds
    cases holds
    exact ⟨_, last, rfl, rfl, system.newSocket_spec.1⟩

/-- `internal_start()` refuses the request or opens a connection for it. -/
theorem start_cases (system : System) (cause : Nat) :
    (∃ why message, system.start cause = system.restarted.fail cause why message) ∨
      (system.client.request.isUsable = true ∧
        (system.client.request.isHttp = true ∨ system.client.request.isHttps = true) ∧
        system.start cause = system.restarted.openConnection) := by
  have request : system.restarted.client.request = system.client.request := by
    simp [restarted, withClient, teardown_client]
  unfold start
  dsimp only
  rw [request]
  split
  · exact .inl ⟨_, _, rfl⟩
  split
  · exact .inl ⟨_, _, rfl⟩
  rename_i usable kind
  refine .inr ⟨by simpa using usable, ?_, rfl⟩
  simpa only [Bool.and_eq_true, Bool.not_eq_true', not_and_or, Bool.not_eq_false] using kind

/-- `internal_start()` needs no more than that only the old socket is heard. -/
theorem start_begins (heard : system.Heard) (deep : system.Deep) (used : system.issued ≠ 0) :
    (system.start cause).1.Sound ∧
      Begins cause system.view (system.start cause).2 (system.start cause).1.view := by
  have deaf := restarted_deaf heard
  have unreported : system.restarted.client.reported = false := rfl
  have heard' : system.restarted.Heard := by
    intro index connection found handler
    rw [deaf index connection found] at handler
    cases handler
  have deep' : system.restarted.Deep := by
    intro frame member
    exact deep frame (by simpa [restarted, withClient] using member)
  have used' : system.restarted.issued ≠ 0 := by simpa [restarted, withClient] using used
  rcases system.start_cases cause with ⟨why, message, same⟩ | ⟨_, kind, same⟩
  · rw [same]
    have lands : Lands cause system.restarted (system.restarted.fail cause why message) :=
      fail_lands heard' deep' used' (by rw [unreported]; exact nofun) why message
    refine ⟨lands.sound, ?_⟩
    have acts : (system.restarted.fail cause why message).2 =
        [.error cause system.view.current why message] := by
      simp [System.fail, restarted, withClient, view]
    have after : (system.restarted.fail cause why message).1.view = system.view.ended := by
      have turned : (system.restarted.fail cause why message).1.view =
          system.restarted.view.ended := by
        rw [← ended_view]
        simp [System.fail, unreported, push, view]
      rw [turned, restarted_view]
      rfl
    rw [acts, after]
    exact .refused why message
  · rw [same]
    refine ⟨⟨openConnection_core deaf unreported, .top _ _ (by simp [openConnection, Top]) deep',
      fun unused => absurd unused used'⟩, ?_⟩
    have opened : Begins cause system.view _ _ :=
      .opened system.restarted.connections.length kind
    simpa [openConnection, restarted, withClient, teardown_client, view] using opened

/-- The request in hand is sent on. -/
def redirecting (system : System) (code : Nat) (location : Bytes) : System :=
  system.withClient { system.client with
    request := system.client.request.redirected code (system.client.request.url.resolve location)
    redirectsFollowed := system.client.redirectsFollowed + 1 }

/-- The code and the location of a redirect. -/
structure Redirects (answer : Response) (code : Nat) (location : Bytes) : Prop where
  status : answer.statusCode = code
  range : 300 ≤ code ∧ code ≤ 399
  given : answer.headers.get (ascii "Location") = some location
  named : location ≠ []

theorem redirects_of_redirect? {client : Client} {code : Nat} {location : Bytes}
    (found : redirect? client = some (code, location)) :
    Redirects client.parser.response code location := by
  rw [redirect?] at found
  split at found
  · cases found
  split at found
  · cases found
  case isFalse range =>
    split at found
    · cases found
    case h_2 given =>
      split at found
      · cases found
      case isFalse named =>
        cases found
        exact ⟨rfl, by omega, given, named⟩

/-- Code that reports the request in hand or sends it on, unless it has been reported. -/
inductive Final (cause : Nat) (system : System) : Effect → Prop where
  | failed (why : Status) (message : Message) : Final cause system (system.fail cause why message)
  | responded (unreported : system.client.reported = false) :
      Final cause system (system.respond cause)
  | redirected (code : Nat) (location : Bytes) (unreported : system.client.reported = false)
      (answer : Redirects system.client.parser.response code location)
      (fewer : system.client.redirectsFollowed < system.client.options.maxRedirects)
      (secure : system.client.request.isHttps = true →
        iequals (system.client.request.url.resolve location).getScheme (ascii "https") = true) :
      Final cause system (after ((system.redirecting code location).start cause)
        [.redirected cause system.current code location])

theorem complete_final (system : System) (cause : Nat) :
    Final cause system (system.complete cause) := by
  unfold complete
  split
  · rename_i reported
    have same : system.quiet = system.fail cause .ok (.text "") := (if_pos reported).symm
    rw [same]
    exact .failed _ _
  rename_i unreported
  have unreported := Bool.eq_false_iff.mpr unreported
  split
  case h_1 found =>
    unfold followRedirect
    dsimp only
    split
    · exact .failed _ _
    rename_i fewer
    split
    · exact .failed _ _
    split
    · exact .failed _ _
    rename_i secure
    refine .redirected _ _ unreported (redirects_of_redirect? found) (Nat.lt_of_not_le fewer) ?_
    intro https
    simpa [https] using secure
  case h_2 => exact .responded unreported

theorem Final.lands (ready : system.Ready) (final : Final cause system effect) :
    Lands cause system effect := by
  cases final with
  | failed why message => exact ready.fail why message
  | responded unreported =>
    -- up to the act, this is a failure
    have lands : Lands cause system (system.fail cause .ok (.text "")) := ready.fail _ _
    have same : (system.respond cause).1 = (system.fail cause .ok (.text "")).1 := by
      simp [System.fail, System.respond, unreported]
    refine ⟨same ▸ lands.sound, ?_⟩
    have turned : Turn cause system.view ([] ++ [.response cause system.view.current
        system.client.socket system.client.parser.response]) system.view.ended :=
      .responded [] _ _ (forall_mem_nil _) unreported
    rw [← ended_view] at turned
    exact turned
  | redirected code location unreported _ fewer secure =>
    have heard : (system.redirecting code location).Heard := heard_withClient rfl ready.heard
    obtain ⟨sound, begins⟩ := start_begins heard ready.deep ready.used
    exact ⟨sound, .redirected [] _ code location _ (forall_mem_nil _) unreported fewer secure
      begins⟩

theorem Piece.deep (piece : Socket.Piece socket outcome) :
    ∀ frame ∈ (outcome.tasks.tail.map (Frame.socket index)), frame.isDeep = true := by
  intro frame member
  obtain ⟨task, inside, rfl⟩ := mem_map.mp member
  have other := piece.tail task inside
  cases task with
  | app event => cases other
  | _ => rfl

theorem runSocket_sound (core : system.Core) (deep : system.Deep) (used : system.issued ≠ 0)
    (found : system.socket? index = some socket) (piece : Socket.Piece socket outcome) :
    (system.runSocket index outcome).1.Sound := by
  refine ⟨(core.setSocket found piece.handler).restack _ _, ?_, fun unused => absurd unused used⟩
  have rest : ∀ frame ∈ outcome.tasks.tail.map (Frame.socket index), frame.isDeep = true :=
    Piece.deep piece
  cases tasks : outcome.tasks with
  | nil =>
    refine .of_deep fun frame member => deep frame ?_
    simpa [runSocket, push, tasks, System.setSocket] using member
  | cons task others =>
    rw [tasks] at rest
    have stack : (system.runSocket index outcome).1.stack =
        .socket index task :: (others.map (Frame.socket index) ++ system.stack) := by
      simp [runSocket, push, tasks, System.setSocket]
    rw [stack]
    refine .top _ _ ?_ (forall_mem_append.mpr ⟨rest, deep⟩)
    cases task with
    | app event =>
      obtain ⟨handler, _⟩ := piece.head event (by rw [tasks]; rfl)
      obtain ⟨connection, place, rfl⟩ := socket?_eq_some found
      exact core.heard index connection place handler
    | _ => trivial

theorem runSocket_turn (index : Nat) (outcome : Socket.Outcome) :
    Turn cause system.view (system.runSocket index outcome).2
      (system.runSocket index outcome).1.view := by
  have quiet : ∀ act ∈ outcome.acts.map (Act.socket index), act.isQuiet = true := by
    intro act member
    obtain ⟨inner, _, rfl⟩ := mem_map.mp member
    rfl
  exact .still _ quiet

section

variable (ready : system.Ready)
include ready

theorem Ready.push (frame : Frame) (deep : frame.isDeep = true) : (system.push [frame]).Ready :=
  ⟨ready.toCore.restack _ _, forall_mem_cons.mpr ⟨deep, ready.deep⟩, ready.used⟩

theorem Ready.runSocket (found : system.socket? index = some socket)
    (piece : Socket.Piece socket outcome) : Lands cause system (system.runSocket index outcome) :=
  ⟨runSocket_sound ready.toCore ready.deep ready.used found piece, runSocket_turn index outcome⟩

/-- A frame of the client that waits for its socket, over a ready system. -/
theorem Ready.wait (frame : Frame) (fits : Top system.client.socket system.current frame) :
    Lands cause system (system.push [frame]).quiet :=
  ⟨⟨ready.toCore.restack _ _, .top _ _ fits ready.deep, fun unused => absurd unused ready.used⟩,
    .still [] (forall_mem_nil _)⟩

omit ready in
theorem runSocket_returning {id : Nat} {reply : Socket.Reply}
    (tasks : outcome.tasks = [.finish reply]) :
    ((system.push [.client (.readDone id)]).runSocket index outcome).1.stack =
      .socket index (.finish reply) :: .client (.readDone id) :: system.stack := by
  simp [System.runSocket, System.push, tasks, System.setSocket]

end

/-- The system that a piece of code goes on with: it has changed what it has to send, what it
has read, the mark of a handshake and perhaps its socket. -/
inductive Tuned (system : System) : System → Prop where
  | client (client : Client) (same : client = { system.client with
      outgoing := client.outgoing, incoming := client.incoming, parser := client.parser
      handshaking := client.handshaking }) : Tuned system (system.withClient client)
  | socket {index : Nat} {before socket : Socket} (client : Client)
      (found : system.socket? index = some before)
      (handler : socket.eventHandler = before.eventHandler) (state : socket.state = before.state)
      (tls : before.tls = true → socket.tls = true) (same : client = { system.client with
        outgoing := client.outgoing, handshaking := client.handshaking }) :
      Tuned system ((system.setSocket index socket).withClient client)

theorem Tuned.refl : Tuned system system := .client system.client rfl

variable {inner : System}

theorem Tuned.ready (tuned : Tuned system inner) (ready : system.Ready) : inner.Ready := by
  cases tuned with
  | client client same => exact ready.withClient client same
  | socket client found handler _ _ same =>
    have set : (system.setSocket _ _).Ready :=
      ⟨ready.toCore.setSocket found handler, ready.deep, ready.used⟩
    refine set.withClient client ?_
    rw [same]
    rfl

theorem Tuned.view (tuned : Tuned system inner) : inner.view = system.view := by
  cases tuned with
  | client client same | socket client _ _ _ _ same =>
    rw [same]
    rfl

/-- The response as far as it is read. -/
def reading (system : System) : ResponseParser × Bytes :=
  (system.client.parser, system.client.incoming)

/-- What a piece of the client's code comes to that runs on account of a request. -/
inductive Code (cause : Nat) (system : System) : Effect → Prop where
  | still {inner : System} (tuned : Tuned system inner) (same : inner.reading = system.reading) :
      Code cause system inner.quiet
  | waits {inner : System} (tuned : Tuned system inner) (same : inner.reading = system.reading)
      (task : Task) (fits : Top inner.client.socket inner.current (.client task))
      (unread : ∀ id, task ≠ .readDone id) : Code cause system (inner.push [.client task]).quiet
  | writes {inner : System} {index : Nat} {socket : Socket} (tuned : Tuned system inner)
      (same : inner.reading = system.reading) (here : inner.client.socket = some index)
      (found : inner.socket? index = some socket) (answers : Socket.Answers) :
      Code cause system ((inner.push [.client (.sendDone inner.current)]).runSocket index
        (socket.writeReporting inner.client.outgoing answers))
  | ends {inner : System} {effect : Effect} (tuned : Tuned system inner)
      (response : inner.client.parser.response = system.client.parser.response)
      (final : Final cause inner effect) : Code cause system effect

theorem Code.lands (code : Code cause system effect) (ready : system.Ready) :
    Lands cause system effect := by
  cases code with
  | still tuned _ => exact Lands.of_view (tuned.ready ready).quiet tuned.view
  | waits tuned _ task fits _ => exact Lands.of_view ((tuned.ready ready).wait _ fits) tuned.view
  | @writes inner _ _ tuned _ here found answers =>
    have pushed := (tuned.ready ready).push (.client (.sendDone inner.current)) rfl
    exact Lands.of_view (pushed.runSocket found (Socket.writeReporting_piece _ _ answers))
      tuned.view
  | ends tuned _ final => exact Lands.of_view (final.lands (tuned.ready ready)) tuned.view

theorem Code.failed (why : Status) (message : Message) :
    Code cause system (system.fail cause why message) :=
  .ends .refl rfl (.failed why message)

theorem send_code (tuned : Tuned system inner) (same : inner.reading = system.reading)
    (answers : Socket.Answers) : Code cause system (inner.send answers) := by
  unfold send
  split
  · exact .still tuned same
  split
  · exact .still tuned same
  split
  · exact .still tuned same
  · exact .writes tuned same ‹_› ‹_› answers

/-- The end of `internal_send()` reports nothing but a failed write. -/
theorem sendDone_code {id : Nat}
    (owns : ∀ sent ec, system.result = .count sent ec → sent < 0 → id = cause) :
    Code cause system (system.sendDone id) := by
  unfold sendDone
  split
  · rename_i sent ec result
    split
    · rename_i negative
      rw [owns sent ec result negative]
      exact .failed _ _
    have left : Tuned system (system.withClient { system.client with
      outgoing := system.client.outgoing.drop sent.toNat }) := .client _ rfl
    split
    · exact .still left rfl
    split
    · exact .still left rfl
    rename_i socket found
    exact .still (.socket { system.client with
      outgoing := system.client.outgoing.drop sent.toNat } found rfl rfl (fun tls => tls) rfl) rfl
  · exact .still .refl rfl

theorem finish_response (parser : ResponseParser) :
    parser.finish.2.response = parser.response := by
  unfold ResponseParser.finish
  split
  · rfl
  split
  · rfl
  split
  · rfl
  · rfl

theorem finish_code (otherwise : Status → Status) (message : Status → String) :
    Code cause system (system.finish cause otherwise message) := by
  have finished : Tuned system (system.withClient { system.client with
    parser := system.client.parser.finish.2 }) := .client _ rfl
  unfold finish
  dsimp only
  split
  · exact .ends finished (finish_response _) (complete_final _ cause)
  · exact .ends finished (finish_response _) (.failed _ _)

theorem eventConnected_code (answers : Socket.Answers) :
    Code cause system (system.eventConnected cause answers) := by
  unfold eventConnected
  split
  · exact send_code .refl rfl answers
  split
  · exact .failed _ _
  rename_i index socket found
  obtain ⟨place, holds, found⟩ := Option.bind_eq_some_iff.mp found
  obtain ⟨old, found, same⟩ := Option.map_eq_some_iff.mp found
  cases same
  have sets := socket.tlsInitialize_spec answers
  dsimp only
  split
  · exact .ends (.socket system.client found sets.handler sets.state sets.kept rfl) rfl
      (.failed _ _)
  · refine .waits (.socket { system.client with handshaking := true } found sets.handler sets.state
      sets.kept rfl) rfl .handshake ?_ (by simp)
    intro idle
    rw [show system.client.socket = none from idle] at holds
    cases holds

theorem handle_code (mine : cause = system.current) (event : SocketEvent)
    (answers : Socket.Answers) : Code cause system (system.handle cause event answers) := by
  unfold handle
  split
  · exact eventConnected_code answers
  · exact send_code (.client { system.client with handshaking := false } rfl) rfl answers
  · exact send_code .refl rfl answers
  · split
    · exact .still .refl rfl
    · exact .waits .refl rfl (.readMore cause) ⟨‹_›, mine⟩ (by simp)
  · exact finish_code _ _
  · exact .failed _ _
  · exact .still .refl rfl
  · exact .still .refl rfl
  · exact .still .refl rfl
  · exact .still .refl rfl

/-- The parser takes the bytes of a read. -/
def feeding (system : System) (data : Bytes) : System :=
  system.withClient { system.client with
    parser := (system.client.parser.parse (system.client.incoming ++ data)).parser
    incoming := (system.client.parser.parse (system.client.incoming ++ data)).input }

/-- Behind `read()` there are new bytes for the parser or none. -/
theorem readDone_cases (mine : cause = system.current) (holds : system.client.socket ≠ none) :
    (system.result.pieces = [] ∧ Code cause system (system.readDone cause)) ∨
      ∃ index data effect, system.client.socket = some index ∧ system.result.pieces = [data] ∧
        Code cause (system.feeding data) effect ∧
        system.readDone cause = after effect [.fed index data] := by
  unfold readDone
  split
  · rename_i result
    exact .inl ⟨by rw [result]; rfl, .failed _ _⟩
  · rename_i result
    exact .inl ⟨by rw [result]; rfl, finish_code _ _⟩
  · rename_i data _ index result here
    split
    · rename_i empty
      exact .inl ⟨by rw [result, Socket.Reply.pieces, if_pos empty], .still .refl rfl⟩
    rename_i some'
    refine .inr ⟨index, data, _, here, by rw [result, Socket.Reply.pieces, if_neg some'], ?_, rfl⟩
    split
    · exact .failed _ _
    · exact .ends .refl rfl (complete_final _ cause)
    · exact .waits .refl rfl (.readMore cause) ⟨holds, mine⟩ (by simp)
  · rename_i noData
    refine .inl ⟨?_, .still .refl rfl⟩
    obtain ⟨index, here⟩ := Option.ne_none_iff_exists'.mp holds
    cases result : system.result with
    | read status data ec =>
      cases status with
      | ok => exact absurd here (noData data ec index result)
      | _ => rfl
    | _ => rfl

/-! ## Steps -/

/-- A write that failed returns to `internal_send()`, which was entered for this request. -/
def LateWrite (system : System) (label : Label) (id : Nat) : Prop :=
  ∃ answers rest sent ec, label = .resume answers ∧
    system.stack = .client (.sendDone id) :: rest ∧ system.result = .count sent ec ∧ sent < 0

/-- What a step does to the request in hand. -/
inductive Turns (system : System) : Label → List Act → View → Prop where
  | code (label : Label) (cause : Nat) {acts : List Act} {next : View}
      (active : system.client.reported = false → system.client.busy = true)
      (owns : cause = system.current ∨ system.LateWrite label cause)
      (turn : Turn cause system.view acts next) : Turns system label acts next
  | refused (request : Request) (why : Status) (message : Message)
      (busy : system.client.busy = true) :
      Turns system (.request request)
        [.requested system.issued request system.client.options,
          .error system.issued system.current why message]
        { system.view.ended with issued := system.issued + 1 }
  | begun (request : Request) {acts : List Act} {next : View} (idle : system.client.busy = false)
      (begins : Begins system.issued { system.view with
        current := system.issued, issued := system.issued + 1, request := request
        redirectsFollowed := 0 } acts next) :
      Turns system (.request request)
        (.requested system.issued request system.client.options :: acts) next
  | aborted :
      Turns system .abort (if system.client.busy then [.aborted system.current] else [])
        system.view.ended
  | setOptions (options : Options) :
      Turns system (.setOptions options) [] { system.view with options := options }
  | setDefault (proxy : ProxySettings) : Turns system (.setDefault proxy) [] system.view

theorem Sound.deep_of_yields (sound : system.Sound) (yields : system.yields = true) :
    system.Deep := by
  have shaped := sound.stack
  unfold System.yields at yields
  intro frame member
  cases stack : system.stack with
  | nil =>
    rw [stack] at member
    cases member
  | cons first rest =>
    rw [stack] at shaped yields member
    cases first with
    | app =>
      rcases mem_cons.mp member with rfl | below
      · rfl
      · cases shaped with
        | top _ _ _ deep => exact deep frame below
    | socket index task | client task => cases yields

/-- Below the frame on top. -/
theorem Sound.popped {first : Frame} {rest : List Frame} (sound : system.Sound)
    (stack : system.stack = first :: rest) : system.pop.Core ∧ system.issued ≠ 0 := by
  refine ⟨sound.toCore.restack _ _, ?_⟩
  intro unused
  have empty := (sound.unused unused).1
  rw [stack] at empty
  cases empty

theorem Sound.ready_pop {first : Frame} {rest : List Frame} (sound : system.Sound)
    (stack : system.stack = first :: rest)
    (other : ∀ index reply, first ≠ .socket index (.finish reply)) :
    system.pop.Ready ∧ Top system.client.socket system.current first := by
  obtain ⟨core, used⟩ := sound.popped stack
  have shaped := sound.stack
  rw [stack] at shaped
  cases shaped with
  | top _ _ fits deep =>
    refine ⟨⟨core, ?_, used⟩, fits⟩
    intro frame member
    exact deep frame (by simpa [pop, stack] using member)
  | returning index id reply rest fits deep => exact absurd rfl (other index reply)

theorem Sound.active (sound : system.Sound) (used : system.issued ≠ 0) :
    system.client.reported = false → system.client.busy = true := by
  intro unreported
  rcases sound.settled unreported with busy | unused
  · exact busy
  · exact absurd unused used

/-- The system under a piece of code: the frame on top is taken off, or control was outside. -/
inductive Base (system : System) : System → Prop where
  | popped {first : Frame} {rest : List Frame} (stack : system.stack = first :: rest)
      (read : ∀ id, first = .client (.readDone id) → system.result.pieces = [])
      (event : ∀ index, first ≠ .socket index (.app .connected))
      (handshake : first ≠ .client .handshake) : Base system system.pop
  | free (yields : system.yields = true) : Base system system

theorem Base.view (base : Base system inner) : inner.view = system.view := by
  cases base with
  | popped => rfl
  | free => rfl

/-- What a step does: code of the client, a piece of one of its sockets, or a call. -/
inductive Move (system : System) : Label → Effect → Prop where
  | code {label : Label} {cause : Nat} {inner : System} {effect : Effect} (base : Base system inner)
      (ready : inner.Ready) (owns : cause = system.current ∨ system.LateWrite label cause)
      (code : Code cause inner effect) : Move system label effect
  | connects {answers : Socket.Answers} {index : Nat} {rest : List Frame}
      (stack : system.stack = .socket index (.app .connected) :: rest) (ready : system.pop.Ready) :
      Move system (.resume answers) (system.pop.eventConnected system.current answers)
  | shakes {answers : Socket.Answers} {index : Nat} {socket : Socket} {rest : List Frame}
      (stack : system.stack = .client .handshake :: rest) (ready : system.pop.Ready)
      (here : system.client.socket = some index) (found : system.socket? index = some socket) :
      Move system (.resume answers)
        (system.pop.runSocket index (socket.tlsSendHandshake answers))
  | socket {label : Label} {inner : System} {index : Nat} {socket : Socket}
      {outcome : Socket.Outcome} (base : Base system inner) (ready : inner.Ready)
      (found : inner.socket? index = some socket) (tame : Socket.Tame socket outcome) :
      Move system label (inner.runSocket index outcome)
  | task {answers : Socket.Answers} {index : Nat} {task : Socket.Task} {socket : Socket}
      {rest : List Frame} (base : Base system system.pop) (ready : system.pop.Ready)
      (stack : system.stack = .socket index task :: rest)
      (found : system.socket? index = some socket) :
      Move system (.resume answers) (system.pop.runSocket index (task.run socket answers))
  | reads {answers : Socket.Answers} {index : Nat} {socket : Socket}
      (base : Base system system.pop) (ready : system.pop.Ready)
      (here : system.client.socket = some index) (found : system.socket? index = some socket) :
      Move system (.resume answers)
        ((system.pop.push [.client (.readDone system.current)]).runSocket index
          (socket.readReporting readChunk answers))
  | feeds {answers : Socket.Answers} {index : Nat} {data : Bytes} {effect : Effect}
      {rest : List Frame} (stack : system.stack = .client (.readDone system.current) :: rest)
      (ready : system.pop.Ready) (here : system.client.socket = some index)
      (pieces : system.result.pieces = [data])
      (code : Code system.current (system.pop.feeding data) effect) :
      Move system (.resume answers) (after effect [.fed index data])
  | returns {answers : Socket.Answers} {index : Nat} {reply : Socket.Reply} {rest : List Frame}
      (stack : system.stack = .socket index (.finish reply) :: rest) :
      Move system (.resume answers)
        ({ system.pop with result := reply }, [.socket index (.returned reply)])
  | request (request : Request) (yields : system.yields = true) :
      Move system (.request request) (system.request request)
  | abort (yields : system.yields = true) : Move system .abort system.abort
  | setOptions (options : Options) (yields : system.yields = true) :
      Move system (.setOptions options)
        (system.withClient { system.client with options := options }).quiet
  | setDefault (proxy : ProxySettings) (yields : system.yields = true) :
      Move system (.setDefault proxy) { system with proxyDefault := proxy }.quiet
  | deadline (yields : system.yields = true) (armed : system.client.deadline = true) :
      Move system .deadline ((system.withClient { system.client with deadline := false }).fail
        system.timed .requestTimeout (.text "no response before the deadline"))

/-- The socket of the request in hand. -/
theorem Core.own (core : system.Core) (holds : system.client.socket ≠ none) :
    ∃ index socket, system.client.socket = some index ∧ system.socket? index = some socket := by
  obtain ⟨index, here⟩ := Option.ne_none_iff_exists'.mp holds
  obtain ⟨connection, place, _⟩ := core.held index here
  exact ⟨index, connection.socket, here, by rw [socket?, place, Option.map_some]⟩

theorem runClient_move (ready : system.pop.Ready) {task : Task} {rest : List Frame}
    {answers : Socket.Answers} (stack : system.stack = .client task :: rest)
    (fits : Top system.client.socket system.current (.client task)) :
    Move system (.resume answers) (system.pop.runClient task answers) := by
  have base (plain : ∀ id, task ≠ .readDone id) (other : task ≠ .handshake) :
      Base system system.pop :=
    .popped stack (by simp [plain]) (by simp) (by simp [other])
  cases task with
  | connect =>
    obtain ⟨index, socket, here, found⟩ := ready.own fits
    have called : system.pop.runClient .connect answers =
        system.pop.runSocket index (socket.connect answers) := by
      simp only [runClient, callSocket, here, found]
      rfl
    rw [called]
    exact .socket (base (by simp) (by simp)) ready found
      (@Socket.connect_keeps True socket answers).tame
  | handshake =>
    obtain ⟨index, socket, here, found⟩ := ready.own fits
    have called : system.pop.runClient .handshake answers =
        system.pop.runSocket index (socket.tlsSendHandshake answers) := by
      simp only [runClient, callSocket, here, found]
      rfl
    rw [called]
    exact .shakes stack ready here found
  | sendDone id =>
    by_cases failed : ∃ sent ec, system.result = .count sent ec ∧ sent < 0
    · obtain ⟨sent, ec, result, negative⟩ := failed
      exact .code (base (by simp) (by simp)) ready
        (.inr ⟨answers, rest, sent, ec, rfl, stack, result, negative⟩)
        (sendDone_code fun _ _ _ _ => rfl)
    · exact .code (base (by simp) (by simp)) ready (.inl rfl)
        (sendDone_code fun sent ec result negative => absurd ⟨sent, ec, result, negative⟩ failed)
  | readMore id =>
    obtain ⟨holds, rfl⟩ := fits
    obtain ⟨index, socket, here, found⟩ := ready.own holds
    have called : system.pop.runClient (.readMore system.current) answers =
        (system.pop.push [.client (.readDone system.current)]).runSocket index
          (socket.readReporting readChunk answers) := by
      simp only [runClient, readMore, here, found]
    rw [called]
    exact .reads (base (by simp) (by simp)) ready here found
  | readDone id =>
    obtain ⟨holds, rfl⟩ := fits
    have cases : _ ∨ _ := @readDone_cases system.pop system.current rfl holds
    rcases cases with ⟨none, code⟩ | ⟨index, data, effect, here, pieces, code, same⟩
    · exact .code (.popped stack (fun _ _ => none) (by simp) (by simp)) ready (.inl rfl) code
    · rw [runClient, same]
      exact .feeds stack ready here pieces code

theorem resume_move (sound : system.Sound) {answers : Socket.Answers}
    (moves : system.resume answers = some effect) : Move system (.resume answers) effect := by
  unfold resume at moves
  split at moves
  · cases moves
  · cases moves
  · rename_i task rest stack
    obtain ⟨ready, fits⟩ := sound.ready_pop stack (by simp)
    rw [← Option.some.inj moves]
    exact runClient_move ready stack fits
  · rename_i index event rest stack
    obtain ⟨ready, fits⟩ := sound.ready_pop stack (by simp)
    obtain ⟨connection, found, handled⟩ := Option.map_eq_some_iff.mp moves
    obtain ⟨_, place, owner, _⟩ := sound.held index fits
    rw [found] at place
    cases place
    rw [← handled, owner]
    by_cases first : event = .connected
    · subst first
      exact .connects stack ready
    · exact .code (.popped stack (by simp) (by simp [first]) (by simp)) ready (.inl rfl)
        (@handle_code system.pop _ rfl event answers)
  · rename_i index reply rest stack
    rw [← Option.some.inj moves]
    exact .returns stack
  · rename_i index task rest noApp noFinish stack
    obtain ⟨ready, _⟩ := sound.ready_pop stack (by
      intro place reply same
      cases same
      exact noFinish reply rfl)
    obtain ⟨socket, found, ran⟩ := Option.map_eq_some_iff.mp moves
    rw [← ran]
    refine .task (.popped stack (by simp) ?_ (by simp)) ready stack found
    intro place same
    cases same
    exact noApp .connected rfl

theorem enterSocket_tame {enter : Socket → Option Socket.Outcome}
    (tame : ∀ socket outcome, enter socket = some outcome → Socket.Tame socket outcome)
    (moves : system.enterSocket index enter = some effect) :
    ∃ index socket outcome, system.socket? index = some socket ∧ Socket.Tame socket outcome ∧
      effect = system.runSocket index outcome := by
  obtain ⟨outcome, entered, ran⟩ := Option.map_eq_some_iff.mp moves
  obtain ⟨socket, found, entered⟩ := Option.bind_eq_some_iff.mp entered
  exact ⟨index, socket, outcome, found, tame socket outcome entered, ran.symm⟩

/-- The piece of a socket that the event loop runs transfers nothing. -/
theorem enters_tame (enters : label.enters = true) (moves : system.step label = some effect) :
    system.yields = true ∧ ∃ index socket outcome, system.socket? index = some socket ∧
      Socket.Tame socket outcome ∧ effect = system.runSocket index outcome := by
  cases label with
  | monitor index trig =>
    rw [step] at moves
    split at moves
    · refine ⟨‹_›, enterSocket_tame ?_ moves⟩
      intro socket outcome entered
      cases entered
      exact Socket.tame_of_tasks (.refl socket) (by simp [Socket.Task.isApp]) (by simp)
    · cases moves
  | timeout index =>
    rw [step] at moves
    split at moves
    · refine ⟨‹_›, enterSocket_tame ?_ moves⟩
      intro socket outcome entered
      split at entered
      · cases entered
        exact (@Socket.eventTimeout_code ⟨True, True, True⟩ socket).tame
      · cases entered
    · cases moves
  | found index which ip answers =>
    rw [step] at moves
    split at moves
    · refine ⟨‹_›, enterSocket_tame ?_ moves⟩
      intro socket outcome entered
      obtain ⟨⟨host, name⟩, _, rfl⟩ := Option.map_eq_some_iff.mp entered
      exact (@Socket.addressFound_keeps True socket which host ip answers).tame.after
        (by simp [Socket.Act.isTransfer])
    · cases moves
  | notFound index which =>
    rw [step] at moves
    split at moves
    · refine ⟨‹_›, enterSocket_tame ?_ moves⟩
      intro socket outcome entered
      obtain ⟨⟨host, name⟩, _, rfl⟩ := Option.map_eq_some_iff.mp entered
      exact (@Socket.addressNotFound_keeps True socket which host).tame
    · cases moves
  | _ => cases enters

theorem Sound.used_of_found (sound : system.Sound) (found : system.socket? index = some socket) :
    system.issued ≠ 0 := by
  intro unused
  have none := (sound.unused unused).2
  simp [socket?, none] at found

theorem step_move (sound : system.Sound) (moves : system.step label = some effect) :
    Move system label effect := by
  cases label with
  | resume answers => exact resume_move sound moves
  | back =>
    rw [step] at moves
    split at moves
    · rename_i rest stack
      obtain ⟨ready, _⟩ := sound.ready_pop stack (by simp)
      rw [← Option.some.inj moves]
      exact .code (.popped stack (by simp) (by simp) (by simp)) ready (.inl rfl) (.still .refl rfl)
    · cases moves
  | request request =>
    obtain ⟨yields, same⟩ := Option.ite_none_right_eq_some.mp moves
    rw [← Option.some.inj same]
    exact .request request yields
  | abort =>
    obtain ⟨yields, same⟩ := Option.ite_none_right_eq_some.mp moves
    rw [← Option.some.inj same]
    exact .abort yields
  | setOptions options =>
    obtain ⟨yields, same⟩ := Option.ite_none_right_eq_some.mp moves
    rw [← Option.some.inj same]
    exact .setOptions options yields
  | setDefault proxy =>
    obtain ⟨yields, same⟩ := Option.ite_none_right_eq_some.mp moves
    rw [← Option.some.inj same]
    exact .setDefault proxy yields
  | deadline =>
    obtain ⟨⟨yields, armed⟩, same⟩ := Option.ite_none_right_eq_some.mp moves
    rw [← Option.some.inj same]
    exact .deadline yields armed
  | _ =>
    obtain ⟨yields, index, socket, outcome, found, tame, ran⟩ := enters_tame rfl moves
    rw [ran]
    exact .socket (.free yields)
      ⟨sound.toCore, sound.deep_of_yields yields, sound.used_of_found found⟩ found tame

theorem request_cases (sound : system.Sound) (yields : system.yields = true) (request : Request) :
    (system.request request).1.Sound ∧
      Turns system (.request request) (system.request request).2
        (system.request request).1.view := by
  have deep := sound.deep_of_yields yields
  unfold System.request
  split
  · rename_i busy
    obtain ⟨unreported, _, _⟩ := sound.live busy
    have heard : ({ system with issued := system.issued + 1 } : System).Heard := sound.heard
    have lands : Lands system.issued { system with issued := system.issued + 1 } _ :=
      fail_lands heard deep (Nat.succ_ne_zero _) (by rw [unreported]; exact nofun) .aborted
        (.text "a request is already in flight")
    refine ⟨lands.sound, ?_⟩
    have refused := Turns.refused request .aborted (.text "a request is already in flight") busy
    have after : (({ system with issued := system.issued + 1 } : System).fail system.issued
        .aborted (.text "a request is already in flight")).1.view =
        { system.view.ended with issued := system.issued + 1 } := by
      simp [System.fail, unreported, push, view, teardown_client, withClient, View.ended]
    have acts : (({ system with issued := system.issued + 1 } : System).fail system.issued
        .aborted (.text "a request is already in flight")).2 =
        [.error system.issued system.current .aborted
          (.text "a request is already in flight")] := by
      simp [System.fail, unreported]
    simp only [System.after, after, acts]
    exact refused
  · rename_i idle
    have heard : ({ system with
        issued := system.issued + 1, current := system.issued
        client := { system.client with request := request, redirectsFollowed := 0 } } :
        System).Heard := sound.heard
    obtain ⟨started, begins⟩ := start_begins heard deep (Nat.succ_ne_zero _)
    exact ⟨started, .begun request (Bool.eq_false_iff.mpr idle) begins⟩

theorem Move.turns (sound : system.Sound) (move : Move system label effect) :
    effect.1.Sound ∧ Turns system label effect.2 effect.1.view := by
  have lands {inner : System} {cause : Nat} {label : Label} {effect : Effect}
      (same : inner.view = system.view) (ready : inner.Ready)
      (owns : cause = system.current ∨ system.LateWrite label cause)
      (lands : Lands cause inner effect) :
      effect.1.Sound ∧ Turns system label effect.2 effect.1.view := by
    have used : system.issued ≠ 0 :=
      fun unused => ready.used ((congrArg View.issued same).trans unused)
    exact ⟨lands.sound, .code _ cause (sound.active used) owns (same ▸ lands.turn)⟩
  have popped : system.pop.view = system.view := rfl
  cases move with
  | code base ready owns code => exact lands base.view ready owns (code.lands ready)
  | connects stack ready =>
    exact lands popped ready (.inl rfl) ((eventConnected_code _).lands ready)
  | shakes stack ready here found =>
    exact lands popped ready (.inl rfl)
      (ready.runSocket found (Socket.tlsSendHandshake_piece _ _).toPiece)
  | socket base ready found tame =>
    exact lands base.view ready (.inl rfl) (ready.runSocket found tame.toPiece)
  | task base ready stack found =>
    exact lands popped ready (.inl rfl) (ready.runSocket found (Socket.Task.run_piece _ _ _).1)
  | @reads answers index socket base ready here found =>
    obtain ⟨reply, returns⟩ := Socket.readReporting_returns socket readChunk answers
    refine lands popped ready (.inl rfl)
      ⟨⟨(ready.toCore.setSocket found returns.handler).restack _ _, ?_,
      fun unused => absurd unused ready.used⟩, runSocket_turn index _⟩
    rw [runSocket_returning returns.tasks]
    refine .returning index _ reply _ ⟨?_, rfl⟩ ready.deep
    exact fun none => by simp [System.runSocket, System.push, System.setSocket, pop, here] at none
  | feeds stack ready here pieces code =>
    have inner := code.lands (ready.withClient _ rfl)
    exact lands popped ready (.inl rfl) ⟨inner.sound, inner.turn.after (by simp [Act.isQuiet])⟩
  | @returns answers index reply rest stack =>
    obtain ⟨core, used⟩ := sound.popped stack
    have shaped : Shaped system.client.socket system.current rest := by
      have whole := sound.stack
      rw [stack] at whole
      cases whole with
      | top _ _ _ deep => exact .of_deep deep
      | returning _ id _ below fits deep => exact .top _ below fits deep
    have tail : system.pop.stack = rest := by simp [pop, stack]
    exact ⟨⟨core.restack _ _, tail ▸ shaped, fun unused => absurd unused used⟩,
      .code _ system.current (sound.active used) (.inl rfl) (.still _ (by simp [Act.isQuiet]))⟩
  | request request yields => exact request_cases sound yields request
  | abort yields =>
    refine ⟨⟨ended_core sound.heard, .of_deep ?_, ?_⟩, ?_⟩
    · intro frame member
      exact sound.deep_of_yields yields frame
        (by simpa [System.abort, System.withClient] using member)
    · intro unused
      obtain ⟨empty, none⟩ := sound.unused (by simpa [System.abort, System.withClient] using unused)
      refine ⟨by simpa [System.abort, System.withClient] using empty, ?_⟩
      refine length_eq_zero_iff.mp ?_
      rw [System.abort, teardown_length]
      simpa [System.withClient] using none
    · have gaveUp : Turns system .abort _ _ := .aborted
      rw [← ended_view] at gaveUp
      exact gaveUp
  | setOptions options yields =>
    obtain ⟨⟨heard, busy, live, deadline, settled, held, secure⟩, stack, unused⟩ := sound
    exact ⟨⟨⟨heard, busy, live, deadline, settled, held, secure⟩, stack, unused⟩,
      .setOptions options⟩
  | setDefault proxy yields =>
    obtain ⟨⟨heard, busy, live, deadline, settled, held, secure⟩, stack, unused⟩ := sound
    exact ⟨⟨⟨heard, busy, live, deadline, settled, held, secure⟩, stack, unused⟩,
      .setDefault proxy⟩
  | deadline yields armed =>
    have busy := sound.deadline armed
    obtain ⟨unreported, _, timed⟩ := sound.live busy
    have used : system.issued ≠ 0 := by
      obtain ⟨index, socket, _, found⟩ := sound.toCore.own
        (Option.isSome_iff_ne_none.mp (sound.busy ▸ busy))
      exact sound.used_of_found found
    have heard : (system.withClient { system.client with deadline := false }).Heard :=
      heard_withClient rfl sound.heard
    have lands : Lands system.timed
        (system.withClient { system.client with deadline := false }) _ :=
      fail_lands heard (sound.deep_of_yields yields) used
        (by simp [System.withClient, unreported]) .requestTimeout
        (.text "no response before the deadline")
    exact ⟨lands.sound, .code _ system.timed (fun _ => busy) (.inl timed) lands.turn⟩

/-- What a step can do. -/
theorem step_cases (sound : system.Sound) (moves : system.step label = some (next, acts)) :
    next.Sound ∧ Turns system label acts next.view :=
  (step_move sound moves).turns sound

theorem Fresh.sound (fresh : system.Fresh) : system.Sound := by
  have client := fresh.client
  have deaf : system.Deaf := by
    intro index connection found
    rw [fresh.connections] at found
    cases found
  refine ⟨core_of_idle ?_ ?_ ?_ (.inr fresh.issued) deaf, ?_,
    fun _ => ⟨fresh.stack, fresh.connections⟩⟩
  · rw [client]
  · rw [client]
  · rw [client]
  · rw [fresh.stack]
    exact .nil

end System

end SamuraiFormal.Http.Client
