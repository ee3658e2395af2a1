import SamuraiFormal.Http.ClientReads
import SamuraiFormal.Net.SocketTls

/-!
# Requests over TLS

The socket of an `https` request is connected only until the client has heard of it: the
callback sets up a session and begins the handshake before anything else can happen.  From
then on the socket is either in the handshake, under TLS, or gone, unless a step of the
handshake answers `Closed`.  So no byte of the request goes over the plain descriptor, and
the response comes out of the session.
-/

namespace SamuraiFormal.Net.Socket

variable {socket : Socket} {answers : Answers}

/-- A step of the handshake, on a socket that can take one. -/
theorem tlsSendHandshake_state (able : socket.canHandshake = true)
    (answered : answers.tls ≠ .closed) :
    (socket.tlsSendHandshake answers).socket.state ≠ .connected := by
  have able : socket.tls = true ∧ (socket.state = .connected ∨ socket.state = .sslHandshake) := by
    simpa [canHandshake] using able
  rw [tlsSendHandshake, if_pos able]
  split
  · rintro ⟨⟩
  · rintro ⟨⟩
  · rintro ⟨⟩
  · exact absurd ‹_› answered
  · rintro ⟨⟩

theorem tlsSendHandshake_unable (unable : socket.canHandshake = false) :
    socket.tlsSendHandshake answers = { socket := socket } := by
  have unable : ¬ (socket.tls = true ∧
      (socket.state = .connected ∨ socket.state = .sslHandshake)) := by
    intro able
    have : socket.canHandshake = true := by simpa [canHandshake] using able
    rw [unable] at this
    cases this
  rw [tlsSendHandshake, if_neg unable]

/-- Without its handler a socket is what it was. -/
theorem silenced_same (socket : Socket) :
    (socket.setEventHandler false).disableMonitor.state = socket.state ∧
      (socket.setEventHandler false).disableMonitor.tls = socket.tls := by
  unfold setEventHandler
  split
  · exact ⟨rfl, rfl⟩
  · exact ⟨rfl, rfl⟩

end SamuraiFormal.Net.Socket

namespace SamuraiFormal.Http.Client

open Util
open Net
open Library.Traces
open List

/-- The pieces that came out of the TLS session of a connection. -/
def tlsReceived (index : Nat) (trace : List Act) : List Bytes :=
  trace.filterMap fun
    | .socket place (.tlsRecv _ data) => if place = index then some data else none
    | _ => none

/-- A response to an `https` request is read from the TLS session. -/
def ReadSecurely (front : List Act) : Act → Prop
  | .response _ victim place answer =>
    ∃ index request text, place = some index ∧ .opened victim index request text ∈ front ∧
      (request.isHttps = true → ∃ limits,
        answer = (parsed limits request (tlsReceived index front)).parser.response)
  | _ => True

/-- No byte of an `https` request or of its response passes in clear. -/
structure Confidential (trace : List Act) : Prop where
  sealed : ∀ id index request text act, .opened id index request text ∈ trace →
    request.isHttps = true → .socket index act ∈ trace → act.isPlain = false
  answers : Always ReadSecurely trace

variable {index : Nat} {socket : Socket} {effect : Effect} {answers : Socket.Answers}

namespace System

/-- The answer of the TLS session, in a step that takes a step of the handshake. -/
def handshakeStep (system : System) (label : Label) : Option TlsStatus :=
  match label, system.stack with
  | .resume answers, .client .handshake :: _ =>
    match system.client.socket.bind system.socket? with
    | none => none
    | some socket => if socket.canHandshake then some answers.tls else none
  | .resume answers, .socket index .resumeHandshake :: _ =>
    match system.socket? index with
    | none => none
    | some socket =>
      if socket.canHandshake ∧ socket.state = .sslHandshake then some answers.tls else none
  | _, _ => none

/-- No step of a handshake answers `Closed`. -/
def Unclosed (system : System) (label : Label) : Prop := system.handshakeStep label ≠ some .closed

instance (system : System) (label : Label) : Decidable (system.Unclosed label) :=
  inferInstanceAs (Decidable (_ ≠ _))

/-! ## The invariant -/

/-- What holds of the sockets of `https` requests.  A connected one that is still heard has
an excuse. -/
structure Sealed (system : System) (excused : Nat → Socket → Prop) (trace : List Act) : Prop where
  session : ∀ (index : Nat) (connection : Connection),
    system.connections[index]? = some connection →
    connection.request.isHttps = true → connection.socket.state ≠ .sslBye ∧
      (connection.socket.state = .sslHandshake ∨ connection.socket.state = .sslConnected →
        connection.socket.tls = true)
  hidden : ∀ (index : Nat) (connection : Connection), system.connections[index]? = some connection →
    connection.request.isHttps = true → connection.socket.eventHandler = true →
      connection.socket.state = .connected → excused index connection.socket
  known : ∀ index act, .socket index act ∈ trace → act.isPlain = true →
    index < system.connections.length
  clear : ∀ (index : Nat) (act : Socket.Act) (connection : Connection), .socket index act ∈ trace →
    system.connections[index]? = some connection → connection.request.isHttps = true →
      act.isPlain = false

/-- The client is about to hear of the connection, or to begin the handshake. -/
def Excuses (system : System) (index : Nat) (socket : Socket) : Prop :=
  system.stack.head? = some (.socket index (.app .connected)) ∨
    (system.stack.head? = some (.client .handshake) ∧ socket.tls = true)

/-- No excuse. -/
def Never (_ : Nat) (_ : Socket) : Prop := False

variable {system next : System} {trace : List Act} {cause : Nat}
  {excused wider : Nat → Socket → Prop}

/-- The connections are as they were, and the excuses are others. -/
theorem Sealed.excuse (sealed' : Sealed system excused trace)
    (same : next.connections = system.connections)
    (widens : ∀ (index : Nat) (connection : Connection),
      system.connections[index]? = some connection → connection.request.isHttps = true →
        connection.socket.eventHandler = true → connection.socket.state = .connected →
          excused index connection.socket → wider index connection.socket) :
    Sealed next wider trace := by
  obtain ⟨session, hidden, known, clear⟩ := sealed'
  rw [← same] at session hidden known clear widens
  exact ⟨session, fun index connection found https heard connected =>
    widens index connection found https heard connected
      (hidden index connection found https heard connected), known, clear⟩

theorem Sealed.mono (sealed' : Sealed system excused trace)
    (widens : ∀ index socket, excused index socket → wider index socket) :
    Sealed system wider trace :=
  sealed'.excuse rfl fun index connection _ _ _ _ => widens index connection.socket

theorem Sealed.same (sealed' : Sealed system excused trace)
    (same : next.connections = system.connections) : Sealed next excused trace :=
  sealed'.excuse same fun _ _ _ _ _ _ => id

theorem Sealed.never (sealed' : Sealed system Never trace) : Sealed system excused trace :=
  sealed'.mono fun _ _ never => never.elim

/-- The later connections are the earlier ones, perhaps without their handler, and new ones
that have done nothing. -/
structure Keeps (earlier later : List Connection) : Prop where
  grows : earlier.length ≤ later.length
  same : ∀ (index : Nat) (connection : Connection), later[index]? = some connection →
    (∃ before : Connection, earlier[index]? = some before ∧
      connection.request = before.request ∧ connection.socket.state = before.socket.state ∧
      (before.socket.tls = true → connection.socket.tls = true) ∧
      (connection.socket.eventHandler = true → before.socket.eventHandler = true)) ∨
    (earlier.length ≤ index ∧ connection.socket.state = .disconnected)

theorem Keeps.refl (connections : List Connection) : Keeps connections connections where
  grows := Nat.le_refl _
  same _ connection found := .inl ⟨connection, found, rfl, rfl, id, id⟩

theorem Keeps.trans {first second third : List Connection} (one : Keeps first second)
    (two : Keeps second third) : Keeps first third where
  grows := one.grows.trans two.grows
  same index connection found := by
    rcases two.same index connection found with
      ⟨between, place, request, state, tls, heard⟩ | ⟨beyond, idle⟩
    · rcases one.same index between place with
        ⟨before, was, request', state', tls', heard'⟩ | ⟨beyond, idle⟩
      · exact .inl ⟨before, was, request.trans request', state.trans state',
          fun session => tls (tls' session), fun on => heard' (heard on)⟩
      · exact .inr ⟨beyond, state.trans idle⟩
    · exact .inr ⟨one.grows.trans beyond, idle⟩

theorem teardown_keeps (system : System) :
    Keeps system.connections system.teardown.connections where
  grows := by rw [teardown_length]
  same index connection found := by
    obtain ⟨before, was, _, request, ⟨_, at'⟩ | ⟨_, at'⟩⟩ := getElem?_teardown found
    · obtain ⟨state, tls⟩ := before.socket.silenced_same
      refine .inl ⟨before, was, request, ?_, ?_, ?_⟩
      · rw [at', state]
      · intro session
        rw [at', tls]
        exact session
      · intro on
        rw [at'] at on
        cases on
    · rw [at']
      exact .inl ⟨before, was, request, rfl, id, id⟩

theorem setSocket_keeps {before : Socket} (found : system.socket? index = some before)
    (state : socket.state = before.state) (tls : before.tls = true → socket.tls = true)
    (heard : socket.eventHandler = true → before.eventHandler = true) :
    Keeps system.connections (system.setSocket index socket).connections where
  grows := by rw [setSocket, length_modify]
  same place connection now := by
    obtain ⟨old, was, _, request, ⟨rfl, at'⟩ | ⟨_, at'⟩⟩ := getElem?_setSocket now
    · obtain ⟨_, here, rfl⟩ := socket?_eq_some found
      rw [was] at here
      cases here
      rw [at']
      exact .inl ⟨_, was, request, state, tls, heard⟩
    · rw [at']
      exact .inl ⟨old, was, request, rfl, id, id⟩

theorem openConnection_keeps (system : System) :
    Keeps system.connections system.openConnection.1.connections where
  grows := by simp [openConnection]
  same index connection found := by
    rcases Nat.lt_or_ge index system.connections.length with inside | beyond
    · have before : system.connections[index]? = some connection := by
        simpa [openConnection, getElem?_append_left inside] using found
      exact .inl ⟨connection, before, rfl, rfl, id, id⟩
    refine .inr ⟨beyond, ?_⟩
    have last : (system.connections ++
        [⟨system.newSocket, system.current, system.client.request⟩])[index]? =
          some connection := found
    rw [getElem?_append_right beyond] at last
    obtain ⟨_, same⟩ := List.getElem?_eq_some_iff.mp last
    rw [getElem_singleton] at same
    rw [← same]
    exact system.newSocket_spec.2

/-- Code that runs no piece of a socket. -/
structure Settles (system : System) (effect : Effect) : Prop where
  keeps : Keeps system.connections effect.1.connections
  silent : ∀ index act, .socket index act ∉ effect.2

/-- The connections are all that counts. -/
theorem Settles.behind {middle : System} (settles : Settles middle effect)
    (keeps : Keeps system.connections middle.connections) : Settles system effect :=
  ⟨keeps.trans settles.keeps, settles.silent⟩

theorem Settles.quiet (system : System) : Settles system system.quiet :=
  ⟨.refl _, fun _ _ => not_mem_nil⟩

theorem Settles.after {front : List Act} (settles : Settles system effect)
    (silent : ∀ index act, .socket index act ∉ front) : Settles system (after effect front) := by
  refine ⟨settles.keeps, ?_⟩
  intro index act member
  rcases mem_append.mp member with first | second
  · exact silent index act first
  · exact settles.silent index act second

section

variable (system : System)

theorem fail_settles (cause : Nat) (why : Status) (message : Message) :
    Settles system (system.fail cause why message) := by
  unfold fail
  split
  · exact .quiet system
  · refine ⟨?_, by simp⟩
    exact teardown_keeps (system.withClient { system.client with reported := true })

theorem start_settles (cause : Nat) : Settles system (system.start cause) := by
  have fresh : Keeps system.connections system.restarted.connections := teardown_keeps system
  rcases system.start_cases cause with ⟨why, message, same⟩ | ⟨_, _, same⟩
  · rw [same]
    exact (fail_settles _ cause why message).behind fresh
  · rw [same]
    refine ⟨fresh.trans (openConnection_keeps _), ?_⟩
    simp [openConnection]

end

theorem Final.settles (final : Final cause system effect) : Settles system effect := by
  cases final with
  | failed why message => exact fail_settles system cause why message
  | responded _ =>
    refine ⟨?_, by simp [respond]⟩
    exact teardown_keeps (system.withClient { system.client with reported := true })
  | redirected code location _ _ _ =>
    have started : Settles system ((system.redirecting code location).start cause) :=
      (start_settles _ cause).behind (.refl _)
    exact started.after (by simp)

theorem Tuned.keeps {inner : System} (tuned : Tuned system inner) :
    Keeps system.connections inner.connections := by
  cases tuned with
  | client client _ => exact .refl _
  | socket client found handler state tls _ =>
    exact setSocket_keeps found state tls (by rw [handler]; exact id)

/-- Code of the client, after which a connected socket has an excuse. -/
theorem Sealed.settled (sealed' : Sealed system excused trace) (settles : Settles system effect)
    (hidden : ∀ (index : Nat) (connection : Connection),
      effect.1.connections[index]? = some connection → connection.request.isHttps = true →
        connection.socket.eventHandler = true → connection.socket.state = .connected →
          wider index connection.socket) : Sealed effect.1 wider (trace ++ effect.2) := by
  obtain ⟨keeps, silent⟩ := settles
  have earlier {index : Nat} {act : Socket.Act} (member : .socket index act ∈ trace ++ effect.2) :
      .socket index act ∈ trace := by
    rcases mem_append.mp member with was | now
    · exact was
    · exact absurd now (silent index act)
  refine ⟨?_, hidden, ?_, ?_⟩
  · intro index connection found https
    rcases keeps.same index connection found with
      ⟨before, was, request, state, tls, _⟩ | ⟨_, idle⟩
    · rw [request] at https
      obtain ⟨open', session⟩ := sealed'.session index before was https
      rw [state]
      exact ⟨open', fun secure => tls (session secure)⟩
    · rw [idle]
      exact ⟨nofun, by simp⟩
  · intro index act member plain
    exact (sealed'.known index act (earlier member) plain).trans_le keeps.grows
  · intro index act connection member found https
    rcases keeps.same index connection found with ⟨before, was, request, _⟩ | ⟨beyond, _⟩
    · rw [request] at https
      exact sealed'.clear index act before (earlier member) was https
    by_contra plain
    have inside := sealed'.known index act (earlier member) (Bool.not_eq_false _ ▸ plain)
    omega

theorem Sealed.settles (sealed' : Sealed system Never trace) (settles : Settles system effect) :
    Sealed effect.1 Never (trace ++ effect.2) := by
  apply sealed'.settled settles
  intro index connection found https heard connected
  rcases settles.keeps.same index connection found with
    ⟨before, was, request, state, _, on⟩ | ⟨_, idle⟩
  · rw [request] at https
    rw [state] at connected
    exact sealed'.hidden index before was https (on heard) connected
  · rw [idle] at connected
    cases connected

/-- A piece of a socket that keeps the promises of `Sealed` for that socket. -/
structure Obeys (excused : Nat → Socket → Prop) (index : Nat) (outcome : Socket.Outcome) :
    Prop where
  session : outcome.socket.state ≠ .sslBye ∧
    (outcome.socket.state = .sslHandshake ∨ outcome.socket.state = .sslConnected →
      outcome.socket.tls = true)
  hidden : outcome.socket.eventHandler = true → outcome.socket.state = .connected →
    excused index outcome.socket
  clear : ∀ act ∈ outcome.acts, act.isPlain = false

/-- A piece of one socket; the others are as they were. -/
theorem Sealed.runSocket {before : Nat → Socket → Prop} (sealed' : Sealed system before trace)
    {connection : Connection} {outcome : Socket.Outcome}
    (place : system.connections[index]? = some connection)
    (obeys : connection.request.isHttps = true → Obeys excused index outcome)
    (others : ∀ other socket, other ≠ index → before other socket → excused other socket) :
    Sealed (system.runSocket index outcome).1 excused
      (trace ++ (system.runSocket index outcome).2) := by
  have inside : index < system.connections.length := (List.getElem?_eq_some_iff.mp place).1
  have length : (system.runSocket index outcome).1.connections.length =
      system.connections.length := length_modify _ _ _
  have split {other : Nat} {now : Connection}
      (found : (system.runSocket index outcome).1.connections[other]? = some now) :
      (other = index ∧ now.request = connection.request ∧ now.socket = outcome.socket) ∨
        (other ≠ index ∧ ∃ was, system.connections[other]? = some was ∧
          now.request = was.request ∧ now.socket = was.socket) := by
    have changed : (system.setSocket index outcome.socket).connections[other]? = some now := found
    obtain ⟨was, earlier, _, request, ⟨rfl, at'⟩ | ⟨apart, at'⟩⟩ := getElem?_setSocket changed
    · rw [place] at earlier
      cases earlier
      exact .inl ⟨rfl, request, at'⟩
    · exact .inr ⟨apart, was, earlier, request, at'⟩
  constructor
  · intro other now found https
    rcases split found with ⟨_, request, at'⟩ | ⟨_, was, earlier, request, at'⟩
    · rw [request] at https
      rw [at']
      exact (obeys https).session
    rw [request] at https
    rw [at']
    exact sealed'.session other was earlier https
  · intro other now found https heard connected
    rcases split found with ⟨rfl, request, at'⟩ | ⟨apart, was, earlier, request, at'⟩
    · rw [request] at https
      rw [at'] at heard connected ⊢
      exact (obeys https).hidden heard connected
    rw [request] at https
    rw [at'] at heard connected ⊢
    exact others other _ apart (sealed'.hidden other was earlier https heard connected)
  · intro other act member plain
    rw [length]
    rcases mem_append.mp member with was | now
    · exact sealed'.known other act was plain
    obtain ⟨_, _, same⟩ := mem_map.mp now
    cases same
    exact inside
  · intro other act now member found https
    rcases split found with ⟨rfl, request, _⟩ | ⟨apart, was, earlier, request, _⟩
    · rw [request] at https
      rcases mem_append.mp member with was | done
      · exact sealed'.clear other act connection was place https
      obtain ⟨inner, member', same⟩ := mem_map.mp done
      injection same with _ same
      rw [← same]
      exact (obeys https).clear inner member'
    · rw [request] at https
      rcases mem_append.mp member with earlier' | done
      · exact sealed'.clear other act was earlier' earlier https
      obtain ⟨_, _, same⟩ := mem_map.mp done
      cases same
      exact absurd rfl apart

theorem plain_of_clear {acts : List Socket.Act} (clear : ∀ act ∈ acts, act.isTransfer = false) :
    ∀ act ∈ acts, act.isPlain = false := by
  intro act member
  exact (Socket.Act.not_transfer (clear act member)).1

/-- A piece that transfers nothing: if it connects the socket, the callback is next. -/
theorem Sealed.tame (sealed' : Sealed system Never trace) {outcome : Socket.Outcome}
    (found : system.socket? index = some socket) (tame : Socket.Tame socket outcome) :
    Sealed (system.runSocket index outcome).1 (system.runSocket index outcome).1.Excuses
      (trace ++ (system.runSocket index outcome).2) := by
  obtain ⟨connection, place, rfl⟩ := socket?_eq_some found
  refine sealed'.runSocket place ?_ fun _ _ _ never => never.elim
  intro https
  obtain ⟨open', session⟩ := sealed'.session index connection place https
  refine ⟨?_, ?_, plain_of_clear tame.clear⟩
  · rcases tame.becomes with same | unconnected | ⟨connected, _⟩
    · rw [same, tame.tls]
      exact ⟨open', session⟩
    · constructor
      · intro bye
        rw [bye] at unconnected
        cases unconnected
      · rintro (state | state)
        · rw [state] at unconnected
          cases unconnected
        · rw [state] at unconnected
          cases unconnected
    · rw [connected]
      exact ⟨nofun, by simp⟩
  · intro heard connected
    rw [tame.handler] at heard
    rcases tame.becomes with same | unconnected | ⟨_, tasks⟩
    · rw [same] at connected
      exact (sealed'.hidden index connection place https heard connected).elim
    · rw [connected] at unconnected
      cases unconnected
    · rw [if_pos heard] at tasks
      refine .inl ?_
      simp [System.runSocket, push, tasks]

/-- A step of the handshake that is not answered with `Closed`. -/
theorem Sealed.shakes {before : Nat → Socket → Prop} (sealed' : Sealed system before trace)
    (found : system.socket? index = some socket)
    (answered : socket.canHandshake = true → answers.tls ≠ .closed)
    (able : socket.eventHandler = true → socket.state = .connected → before index socket →
      socket.tls = true) (others : ∀ other socket, other ≠ index → ¬ before other socket) :
    Sealed (system.runSocket index (socket.tlsSendHandshake answers)).1 Never
      (trace ++ (system.runSocket index (socket.tlsSendHandshake answers)).2) := by
  obtain ⟨connection, place, rfl⟩ := socket?_eq_some found
  refine sealed'.runSocket place ?_ fun other socket apart was => others other socket apart was
  intro https
  obtain ⟨open', session⟩ := sealed'.session index connection place https
  have shakes := Socket.tlsSendHandshake_piece connection.socket answers
  cases can : connection.socket.canHandshake with
  | true =>
    have ready : connection.socket.tls = true := by
      simp only [Socket.canHandshake, Bool.and_eq_true] at can
      exact can.1
    refine ⟨⟨?_, ?_⟩, ?_, plain_of_clear shakes.clear⟩
    · rcases shakes.secure with other | same
      · exact other
      · rw [same]
        exact open'
    · intro _
      rw [shakes.tls]
      exact ready
    · intro _ connected
      exact absurd connected (Socket.tlsSendHandshake_state can (answered can))
  | false =>
    rw [Socket.tlsSendHandshake_unable can]
    refine ⟨⟨open', session⟩, ?_, by simp⟩
    intro heard connected
    have excuse := sealed'.hidden index connection place https heard connected
    have tls := able heard connected excuse
    have connected : connection.socket.state = .connected := connected
    simp [Socket.canHandshake, tls, connected] at can

section

variable (sealed' : Sealed system Never trace)
include sealed'

/-- A socket whose bytes cannot go over the plain descriptor. -/
theorem Sealed.secure {connection : Connection}
    (place : system.connections[index]? = some connection)
    (https : connection.request.isHttps = true) (heard : connection.socket.eventHandler = true) :
    connection.socket.isSecure = true ∨ connection.socket.transfers = false := by
  cases transfers : connection.socket.transfers with
  | false => exact .inr rfl
  | true =>
    have state : connection.socket.state = .connected ∨
        connection.socket.state = .sslConnected := by
      simpa [Socket.transfers] using transfers
    rcases state with connected | secure
    · exact (sealed'.hidden index connection place https heard connected).elim
    · have tls := (sealed'.session index connection place https).2 (.inr secure)
      exact .inl (by simp [Socket.isSecure, tls, secure])

theorem write_sealed (core : system.Core) (here : system.client.socket = some index)
    (found : system.socket? index = some socket) (data : Bytes) (answers : Socket.Answers) :
    Sealed (system.runSocket index (socket.writeReporting data answers)).1 Never
      (trace ++ (system.runSocket index (socket.writeReporting data answers)).2) := by
  obtain ⟨connection, place, rfl⟩ := socket?_eq_some found
  obtain ⟨_, held, _, _, heard⟩ := core.held index here
  rw [place] at held
  cases held
  refine sealed'.runSocket place ?_ fun _ _ _ never => never
  intro https
  obtain ⟨open', session⟩ := sealed'.session index connection place https
  rcases sealed'.secure place https heard with secure | idle
  · obtain ⟨clear, tls, state⟩ := Socket.writeReporting_secure secure data answers
    refine ⟨?_, ?_, clear⟩
    · rw [state, tls]
      exact ⟨open', session⟩
    · rw [state]
      intro _ connected
      exact sealed'.hidden index connection place https heard connected
  · have refused : connection.socket.writeReporting data answers =
        connection.socket.finished (.count (-1) (some .notConnected)) [] := by
      rw [Socket.writeReporting, if_pos (by simp [idle])]
    rw [refused]
    refine ⟨⟨open', session⟩, ?_, by simp [Socket.finished]⟩
    intro _ connected
    exact sealed'.hidden index connection place https heard connected

theorem read_sealed (core : system.Core) (here : system.client.socket = some index)
    (found : system.socket? index = some socket) (answers : Socket.Answers) :
    Sealed (system.runSocket index (socket.readReporting readChunk answers)).1 Never
      (trace ++ (system.runSocket index (socket.readReporting readChunk answers)).2) := by
  obtain ⟨connection, place, rfl⟩ := socket?_eq_some found
  obtain ⟨_, held, _, _, heard⟩ := core.held index here
  rw [place] at held
  cases held
  obtain ⟨reply, returns⟩ :=
    Socket.readReporting_returns connection.socket readChunk answers
  refine sealed'.runSocket place ?_ fun _ _ _ never => never
  intro https
  obtain ⟨open', session⟩ := sealed'.session index connection place https
  refine ⟨?_, ?_, returns.clear (sealed'.secure place https heard)⟩
  · rw [returns.state, returns.tls]
    exact ⟨open', session⟩
  · rw [returns.state]
    intro _ connected
    exact sealed'.hidden index connection place https heard connected

theorem Code.sealed (code : Code cause system effect) (ready : system.Ready) :
    Sealed effect.1 Never (trace ++ effect.2) := by
  cases code with
  | still tuned _ | waits tuned _ _ _ _ =>
    exact sealed'.settles ⟨tuned.keeps, fun _ _ => not_mem_nil⟩
  | @writes inner _ _ tuned _ here found answers =>
    have tuned' := sealed'.settles ((Settles.quiet inner).behind tuned.keeps)
    rw [System.quiet, append_nil] at tuned'
    have pushed : Sealed (inner.push [.client (.sendDone inner.current)]) Never trace :=
      tuned'.same rfl
    have core : (inner.push [.client (.sendDone inner.current)]).Core :=
      (tuned.ready ready).toCore.restack _ _
    exact write_sealed pushed core here found _ answers
  | ends tuned _ final => exact sealed'.settles (final.settles.behind tuned.keeps)

end

theorem fail_released (released : system.client.reported = true → system.client.socket = none)
    (why : Status) (message : Message) :
    (system.fail cause why message).1.client.socket = none := by
  unfold fail
  split
  · rename_i reported
    exact released reported
  · simp [push, teardown_client]

/-- Behind a failure no socket is heard. -/
theorem Ready.fail_sealed (ready : next.Ready) (sealed' : Sealed system excused trace)
    (keeps : Keeps system.connections next.connections) (why : Status) (message : Message) :
    Sealed (next.fail cause why message).1 wider (trace ++ (next.fail cause why message).2) := by
  apply sealed'.settled ((fail_settles next cause why message).behind keeps)
  intro index connection found _ heard _
  have lands : Lands cause next (next.fail cause why message) := ready.fail why message
  have here := lands.sound.heard index connection found heard
  rw [fail_released ready.released] at here
  cases here

/-- `EventConnected()`: the only place where the socket of an `https` request is connected. -/
theorem Ready.eventConnected_sealed (ready : system.Ready)
    (sealed' : Sealed system (fun index _ => system.client.socket = some index) trace)
    (answers : Socket.Answers) :
    Sealed (system.eventConnected cause answers).1 (system.eventConnected cause answers).1.Excuses
      (trace ++ (system.eventConnected cause answers).2) := by
  unfold System.eventConnected
  split
  · rename_i insecure
    have never : Sealed system Never trace := by
      refine sealed'.excuse rfl fun index connection found https heard connected here => ?_
      obtain ⟨_, held, _, request, _⟩ := ready.held index here
      rw [found] at held
      cases held
      have secure := ready.secure (by rw [here]; exact nofun)
      rw [request, ← secure] at https
      simp [https] at insecure
    exact (Code.sealed never (@send_code _ cause _ .refl rfl answers) ready).never
  split
  · exact ready.fail_sealed sealed' (.refl _) _ _
  rename_i index socket found
  obtain ⟨place, holds, found⟩ := Option.bind_eq_some_iff.mp found
  obtain ⟨old, found, same⟩ := Option.map_eq_some_iff.mp found
  cases same
  have sets := socket.tlsInitialize_spec answers
  dsimp only
  split
  · have begun : (system.setSocket index (socket.tlsInitialize answers).2).Ready :=
      ⟨ready.toCore.setSocket found sets.handler, ready.deep, ready.used⟩
    exact begun.fail_sealed sealed'
      (setSocket_keeps found sets.state sets.kept (by rw [sets.handler]; exact id)) _ _
  rename_i begun
  obtain ⟨connection, at', rfl⟩ := socket?_eq_some found
  have session : (connection.socket.tlsInitialize answers).2.tls = true :=
    sets.tls (by simpa using begun)
  have after : Sealed (system.runSocket index
      { socket := (connection.socket.tlsInitialize answers).2 }).1
      (fun _ socket => socket.tls = true) (trace ++ []) := by
    refine sealed'.runSocket at' ?_ ?_
    · intro https
      obtain ⟨open', _⟩ := sealed'.session index connection at' https
      exact ⟨⟨sets.state ▸ open', fun _ => session⟩, fun _ _ => session, by simp⟩
    · intro other _ apart here
      rw [holds] at here
      exact absurd (Option.some.inj here).symm apart
  exact after.excuse rfl fun _ _ _ _ _ _ tls => .inr ⟨rfl, tls⟩

/-- Under the frame on top, which is the only excuse. -/
theorem Sealed.under (sealed' : Sealed system system.Excuses trace) {first : Frame}
    {rest : List Frame} (stack : system.stack = first :: rest)
    (widens : ∀ (index : Nat) (connection : Connection),
      system.connections[index]? = some connection → connection.socket.eventHandler = true →
        (first = .socket index (.app .connected) ∨
          first = .client .handshake ∧ connection.socket.tls = true) →
        wider index connection.socket) : Sealed system.pop wider trace := by
  refine sealed'.excuse rfl fun index connection found _ heard _ excuse =>
    widens index connection found heard ?_
  unfold Excuses at excuse
  rwa [stack, head?_cons, Option.some.injEq, Option.some.injEq] at excuse

theorem Sealed.popped (sealed' : Sealed system system.Excuses trace) {first : Frame}
    {rest : List Frame} (stack : system.stack = first :: rest)
    (event : ∀ index, first ≠ .socket index (.app .connected))
    (handshake : first ≠ .client .handshake) : Sealed system.pop Never trace :=
  sealed'.under stack fun index _ _ _ excuse =>
    excuse.elim (event index) fun same => handshake same.1

theorem Sealed.yielded (sealed' : Sealed system system.Excuses trace)
    (yields : system.yields = true) : Sealed system Never trace := by
  refine sealed'.excuse rfl fun index connection _ _ _ _ excuse => ?_
  unfold System.yields at yields
  unfold Excuses at excuse
  split at yields
  · rename_i stack
    simp [stack] at excuse
  · rename_i stack
    simp [stack] at excuse
  · cases yields

theorem Base.sealed {inner : System} (base : Base system inner)
    (sealed' : Sealed system system.Excuses trace) : Sealed inner Never trace := by
  cases base with
  | popped stack _ event handshake => exact sealed'.popped stack event handshake
  | free yields => exact sealed'.yielded yields

theorem handshake_sealed (sealed' : Sealed system system.Excuses trace) {rest : List Frame}
    (stack : system.stack = .client .handshake :: rest) (ready : system.pop.Ready)
    (here : system.client.socket = some index) (found : system.socket? index = some socket)
    (unclosed : system.Unclosed (.resume answers)) :
    Sealed (system.pop.runSocket index (socket.tlsSendHandshake answers)).1 Never
      (trace ++ (system.pop.runSocket index (socket.tlsSendHandshake answers)).2) := by
  have below : Sealed system.pop
      (fun index socket => system.client.socket = some index ∧ socket.tls = true) trace :=
    sealed'.under stack fun other now found' heard excuse =>
      ⟨ready.heard other now found' heard, excuse.elim (by rintro ⟨⟩) And.right⟩
  apply below.shakes found
  · intro able closed
    apply unclosed
    simp only [handshakeStep, stack, here, Option.bind_some, found, able, if_true, closed]
  · intro _ _ before
    exact before.2
  · intro other _ apart before
    rw [here] at before
    exact apart (Option.some.inj before.1).symm

theorem task_sealed (sealed' : Sealed system.pop Never trace) {task : Socket.Task}
    {rest : List Frame} (stack : system.stack = .socket index task :: rest)
    (found : system.socket? index = some socket) (unclosed : system.Unclosed (.resume answers)) :
    Sealed (system.pop.runSocket index (task.run socket answers)).1
      (system.pop.runSocket index (task.run socket answers)).1.Excuses
      (trace ++ (system.pop.runSocket index (task.run socket answers)).2) := by
  rcases task.run_cases socket answers with
    tame | ⟨rfl, negotiates, shakes⟩ | ⟨rfl, leaves, bye⟩
  · exact sealed'.tame found tame
  · apply Sealed.never
    rw [shakes]
    apply sealed'.shakes found
    · intro able closed
      apply unclosed
      simp only [handshakeStep, stack, found, able, negotiates, and_self, if_true, closed]
    · intro _ _ before
      exact before.elim
    · intro _ _ _ before
      exact before
  · -- the client never says goodbye, so this is a plain connection
    obtain ⟨connection, place, rfl⟩ := socket?_eq_some found
    refine sealed'.runSocket place ?_ fun _ _ _ never => never.elim
    intro https
    exact absurd leaves (sealed'.session index connection place https).1

theorem step_sealed (sound : system.Sound) (sealed' : Sealed system system.Excuses trace)
    {label : Label} (unclosed : system.Unclosed label) (moves : system.step label = some effect) :
    Sealed effect.1 effect.1.Excuses (trace ++ effect.2) := by
  have yielding {effect : Effect} (yields : system.yields = true)
    (settles : Settles system effect) :
      Sealed effect.1 effect.1.Excuses (trace ++ effect.2) :=
    ((sealed'.yielded yields).settles settles).never
  cases step_move sound moves with
  | code base ready _ code => exact (code.sealed (base.sealed sealed') ready).never
  | connects stack ready =>
    have below : Sealed system.pop (fun index _ => system.client.socket = some index) trace :=
      sealed'.under stack fun other now found heard _ => ready.heard other now found heard
    exact ready.eventConnected_sealed below _
  | shakes stack ready here found =>
    exact (handshake_sealed sealed' stack ready here found unclosed).never
  | socket base _ found tame => exact (base.sealed sealed').tame found tame
  | task base _ stack found => exact task_sealed (base.sealed sealed') stack found unclosed
  | reads base ready here found =>
    have pushed : Sealed (system.pop.push [.client (.readDone system.current)]) Never trace :=
      (base.sealed sealed').same rfl
    exact (read_sealed pushed (ready.toCore.restack _ _) here found _).never
  | @feeds answers index data effect rest stack ready here _ code =>
    have held : (system.pop.feeding data).Ready := ready.withClient _ rfl
    have feeds : Settles system.pop (system.pop.feeding data, [.fed index data]) :=
      ⟨.refl _, by simp⟩
    have below := (sealed'.popped stack (by simp) (by simp)).settles feeds
    have done := code.sealed below held
    rw [append_assoc] at done
    exact done.never
  | @returns answers index reply rest stack =>
    have below := sealed'.popped stack (by simp) (by simp)
    apply Sealed.never
    refine ⟨below.session, below.hidden, ?_, ?_⟩
    · intro other act member plain
      rcases mem_append.mp member with was | now
      · exact below.known other act was plain
      · cases mem_singleton.mp now
        cases plain
    · intro other act connection member found https
      rcases mem_append.mp member with was | now
      · exact below.clear other act connection was found https
      · cases mem_singleton.mp now
        rfl
  | request request yields =>
    apply yielding yields
    unfold System.request
    split
    · refine Settles.after ((fail_settles _ _ _ _).behind (.refl _)) ?_
      simp
    · refine Settles.after ((start_settles _ _).behind (.refl _)) ?_
      simp
  | abort yields =>
    refine yielding yields
      ⟨teardown_keeps (system.withClient { system.client with reported := true }), ?_⟩
    intro index act member
    unfold System.abort at member
    split at member
    · cases mem_singleton.mp member
    · cases member
  | setOptions options yields => exact yielding yields ((Settles.quiet _).behind (.refl _))
  | setDefault proxy yields => exact yielding yields ((Settles.quiet _).behind (.refl _))
  | deadline yields _ => exact yielding yields ((fail_settles _ _ _ _).behind (.refl _))

theorem Fresh.sealed (fresh : system.Fresh) : Sealed system system.Excuses [] := by
  have empty {index : Nat} {connection : Connection}
      (found : system.connections[index]? = some connection) : False := by
    rw [fresh.connections] at found
    cases found
  constructor
  · intro index connection found
    exact (empty found).elim
  · intro index connection found
    exact (empty found).elim
  · simp
  · simp

theorem run_sealed {origin : System} (fresh : origin.Fresh)
    (run : Run step Unclosed origin system trace) :
    system.Sound ∧ Sealed system system.Excuses trace := by
  refine run.invariant (fun system trace => system.Sound ∧ Sealed system system.Excuses trace)
    ⟨fresh.sound, fresh.sealed⟩ ?_
  intro system next trace acts label holds unclosed moves
  exact ⟨(step_cases holds.1 moves).1, step_sealed holds.1 holds.2 unclosed moves⟩

/-- Where no plain bytes were received, all bytes came out of the session. -/
theorem received_eq_tlsReceived (clear : ∀ act, .socket index act ∈ trace → act.isPlain = false) :
    received index trace = tlsReceived index trace := by
  apply filterMap_congr
  intro act member
  cases act with
  | socket place inner =>
    by_cases here : place = index
    · subst here
      have known := clear inner member
      cases inner with
      | plainRecv sd data => cases known
      | tlsRecv sd data => rfl
      | _ => simp [Socket.Act.received]
    · cases inner <;> simp [here]
  | _ => rfl

theorem run_confidential {origin : System} (fresh : origin.Fresh)
    (run : Run step Unclosed origin system trace) : Confidential trace := by
  obtain ⟨_, sealed'⟩ := run_sealed fresh run
  obtain ⟨_, reads⟩ := run_reads fresh run
  have clear (id index : Nat) (request : Request) (text : Bytes) (act : Socket.Act)
      (opened : .opened id index request text ∈ trace) (https : request.isHttps = true)
      (member : .socket index act ∈ trace) : act.isPlain = false := by
    have place := reads.places id index request text opened
    rw [roll, getElem?_map] at place
    obtain ⟨connection, found, same⟩ := Option.map_eq_some_iff.mp place
    cases same
    exact sealed'.clear index act connection member found https
  refine ⟨clear, ?_⟩
  intro front act back split
  have answered := reads.answers front act back split
  cases act with
  | response cause victim place answer =>
    obtain ⟨index, request, text, limits, here, opened, same⟩ := answered
    refine ⟨index, request, text, here, opened, ?_⟩
    intro https
    refine ⟨limits, ?_⟩
    rw [same, received_eq_tlsReceived]
    intro act member
    apply clear victim index request text act _ https
    · rw [split]
      exact mem_append_left _ member
    · rw [split]
      exact mem_append_left _ opened
  | _ => trivial

/-- A handshake that was asked for and has not succeeded lets no plain byte through, for the
application of a socket and for the client. -/
theorem handshakes_guard {socket : Socket} {config : Socket.Config} {acts : List Socket.Act}
    (constructed : Socket.Constructed socket)
    (proper : Run Socket.step Socket.Proper ⟨socket, []⟩ config acts)
    {origin : System} (fresh : origin.Fresh) (run : Run step Unclosed origin system trace) :
    Always Socket.Discreet acts ∧ Confidential trace :=
  ⟨Socket.run_discreet constructed proper, run_confidential fresh run⟩

/-- A socket of an accepted connection after a list of labels. -/
def negotiated (labels : List Socket.Label) : Socket.Config × List Socket.Act :=
  (play Socket.step ⟨.accepted ⟨none, 0⟩, []⟩ labels).getD (⟨.accepted ⟨none, 0⟩, []⟩, [])

/-- The application asks for a handshake, which waits for the peer and then succeeds. -/
def negotiating : List Socket.Label :=
  [.call (.tlsInitialize true) {}, .resume {}, .call .tlsSendHandshake { tls := .wantRead },
    .monitor { read := true }, .resume {}, .resume {}]

def okay : Bytes := ascii "HTTP/1.1 200 OK\r\nContent-Length: 0\r\n\r\n"

/-- An `https` request that is answered. -/
def overTls : List Label :=
  .request secureRequest :: connecting ++ [.monitor 0 { write := true }] ++
    List.replicate 8 (.resume { tlsCount := 100 }) ++ [.monitor 0 { read := true }] ++
    List.replicate 5 (.resume { tlsData := okay })

theorem handshakes_guard_overTls :
    (Always Socket.Discreet (negotiated negotiating).2 ∧ Confidential (played overTls).2) ∧
      outcomes 0 (played overTls).2 = 1 := by
  have proper : Run Socket.step Socket.Proper ⟨.accepted ⟨none, 0⟩, []⟩
      (negotiated negotiating).1 (negotiated negotiating).2 :=
    run_of_play negotiating (by decide +kernel)
  have run : Run step Unclosed {} (played overTls).1 (played overTls).2 :=
    run_played (by decide +kernel) (by decide +kernel)
  exact ⟨handshakes_guard (.accepted ⟨none, 0⟩) proper ⟨rfl, rfl, rfl, rfl, rfl, rfl⟩ run,
    by decide +kernel⟩

/-- The peer closes in the handshake, and the application writes. -/
def closing : List Socket.Label :=
  [.call (.tlsInitialize true) {}, .resume {}, .call .tlsSendHandshake { tls := .closed },
    .call (.write [65]) {}]

/-- The handshake is asked for without a session, and the application writes. -/
def unready : List Socket.Label := [.call .tlsSendHandshake {}, .call (.write [65]) {}]

/-- The peer closes in the handshake of an `https` request. -/
def inClear : List Label :=
  .request secureRequest :: connecting ++ [.monitor 0 { write := true }] ++
    List.replicate 3 (.resume {}) ++ [.resume { tls := .closed }, .resume {}] ++
    [.monitor 0 { write := true }] ++ List.replicate 3 (.resume {})

/-- After a `Closed`, and after a call that has no effect, the plain descriptor is used: by
the application of a socket, and after a `Closed` by the client for the text of an `https`
request. -/
theorem closed_handshakes_expose :
    (Run Socket.step (fun _ _ => True) ⟨.accepted ⟨none, 0⟩, []⟩ (negotiated closing).1
        (negotiated closing).2 ∧ ¬ Always Socket.Discreet (negotiated closing).2) ∧
      (Run Socket.step (fun _ _ => True) ⟨.accepted ⟨none, 0⟩, []⟩ (negotiated unready).1
        (negotiated unready).2 ∧ ¬ Always Socket.Discreet (negotiated unready).2) ∧
      (Run step (fun _ _ => True) {} (played inClear).1 (played inClear).2 ∧
        ¬ Confidential (played inClear).2) := by
  refine ⟨⟨run_of_play closing (by decide +kernel), ?_⟩,
    ⟨run_of_play unready (by decide +kernel), ?_⟩,
    ⟨run_played (by decide +kernel) (by decide +kernel), ?_⟩⟩
  · intro discreet
    have split : (negotiated closing).2 =
        [.called (.tlsInitialize true) (some 0), .returned (.flag true),
          .called .tlsSendHandshake (some 0), .tlsStep (some 0) .closed,
          .called (.write [65]) (some 0)] ++ .plainSend 0 [65] :: [] := by
      decide +kernel
    have guarded := discreet _ _ _ split 0 ⟨by decide, by decide⟩
    exact guarded rfl
  · intro discreet
    have split : (negotiated unready).2 =
        [.called .tlsSendHandshake (some 0), .called (.write [65]) (some 0)] ++
          .plainSend 0 [65] :: [] := by
      decide +kernel
    have guarded := discreet _ _ _ split 0 ⟨by decide, by decide⟩
    exact guarded rfl
  · intro confidential
    have clear := confidential.sealed 0 0 secureRequest (secureRequest.text {})
      (.plainSend 0 (secureRequest.text {})) (by decide +kernel) (by decide +kernel)
      (by decide +kernel)
    cases clear

end System

end SamuraiFormal.Http.Client
