import SamuraiFormal.Net.SocketMoves

/-!
# What a piece of the socket leaves to its handler

A piece of the socket's code ends where it calls its handler, so a callback stands in
front of the tasks it leaves and nowhere else.  The pieces that neither transfer bytes nor
take a step of the TLS handshake also leave the session alone, move no application byte,
and reach the connected state only by saying so.
-/

namespace SamuraiFormal.Net.Socket

open Util
open List

def Task.isApp : Task → Bool
  | .app _ => true
  | _ => false

/-- Application bytes on the plain descriptor. -/
def Act.isPlain : Act → Bool
  | .plainSend _ _ => true
  | .plainRecv _ _ => true
  | _ => false

/-- Application bytes, plain or through the TLS session. -/
def Act.isTransfer : Act → Bool
  | .plainSend _ _ => true
  | .plainRecv _ _ => true
  | .tlsSend _ _ => true
  | .tlsRecv _ _ => true
  | _ => false

/-- The bytes that an act gives to the application. -/
def Act.received : Act → Option Bytes
  | .plainRecv _ data => some data
  | .tlsRecv _ data => some data
  | _ => none

/-- The bytes that a read returns with. -/
def Reply.pieces : Reply → List Bytes
  | .read .ok data _ => if data = [] then [] else [data]
  | _ => []

theorem Act.not_transfer {act : Act} (silent : act.isTransfer = false) :
    act.isPlain = false ∧ act.received = none := by
  cases act with
  | plainSend sd data | plainRecv sd data | tlsSend sd data | tlsRecv sd data => cases silent
  | _ => exact ⟨rfl, rfl⟩

/-- The states without an established connection. -/
def isUnconnected : SocketState → Bool
  | .connected => false
  | .sslHandshake => false
  | .sslConnected => false
  | .sslBye => false
  | _ => true

/-- The state in which the source calls the handler with this event. -/
def Fits : SocketEvent → SocketState → Prop
  | .connected, state => state = .connected
  | .dataAvailable, state => state = .connected ∨ state = .sslConnected
  | .canWrite, state => state = .connected ∨ state = .sslConnected
  | .tlsConnected, state => state = .sslConnected
  | _, _ => True

/-- A callback comes first, and only to a handler. -/
structure Piece (socket : Socket) (outcome : Outcome) : Prop where
  handler : outcome.socket.eventHandler = socket.eventHandler
  tail : ∀ task ∈ outcome.tasks.tail, task.isApp = false
  head : ∀ event, outcome.tasks.head? = some (.app event) →
    socket.eventHandler = true ∧ Fits event outcome.socket.state

/-- The connection is left as it was, given up, or reported. -/
def Becomes (socket : Socket) (outcome : Outcome) : Prop :=
  outcome.socket.state = socket.state ∨ isUnconnected outcome.socket.state = true ∨
    (outcome.socket.state = .connected ∧
      outcome.tasks = if socket.eventHandler then [.app .connected] else [])

/-- A piece that transfers nothing and does not touch the TLS session. -/
structure Tame (socket : Socket) (outcome : Outcome) : Prop extends Piece socket outcome where
  tls : outcome.socket.tls = socket.tls
  clear : ∀ act ∈ outcome.acts, act.isTransfer = false
  becomes : Becomes socket outcome

/-- A change in front of a piece that the handler and the session do not see. -/
structure Before (socket changed : Socket) : Prop where
  handler : changed.eventHandler = socket.eventHandler
  tls : changed.tls = socket.tls
  state : changed.state = socket.state ∨ isUnconnected changed.state = true

variable {socket changed : Socket} {outcome : Outcome} {acts : List Act} {rest : List Task}
  {event : SocketEvent}

theorem Before.refl (socket : Socket) : Before socket socket := ⟨rfl, rfl, .inl rfl⟩

theorem Before.close (before : Before socket changed) : Before socket changed.close := by
  unfold Socket.close
  split
  · exact before
  · exact ⟨before.handler, before.tls, before.state⟩

theorem Tame.before (tame : Tame changed outcome) (before : Before socket changed) :
    Tame socket outcome where
  handler := tame.handler.trans before.handler
  tail := tame.tail
  head event first := by
    have heard := tame.head event first
    exact ⟨before.handler ▸ heard.1, heard.2⟩
  tls := tame.tls.trans before.tls
  clear := tame.clear
  becomes := by
    rcases tame.becomes with same | unconnected | ⟨connected, tasks⟩
    · rcases before.state with kept | unconnected
      · exact .inl (same.trans kept)
      · exact .inr (.inl (same ▸ unconnected))
    · exact .inr (.inl unconnected)
    · exact .inr (.inr ⟨connected, before.handler ▸ tasks⟩)

theorem Piece.of_same (piece : Piece changed outcome)
    (handler : changed.eventHandler = socket.eventHandler) : Piece socket outcome where
  handler := piece.handler.trans handler
  tail := piece.tail
  head event first := handler ▸ piece.head event first

theorem Piece.after (piece : Piece socket outcome) (acts : List Act) :
    Piece socket (outcome.after acts) :=
  ⟨piece.handler, piece.tail, piece.head⟩

theorem Tame.after (tame : Tame socket outcome) (clear : ∀ act ∈ acts, act.isTransfer = false) :
    Tame socket (outcome.after acts) where
  toPiece := tame.toPiece.after acts
  tls := tame.tls
  clear act member := by
    rcases mem_append.mp member with front | back
    · exact clear act front
    · exact tame.clear act back
  becomes := tame.becomes

/-- Tasks without a callback. -/
theorem piece_of_tasks (handler : outcome.socket.eventHandler = socket.eventHandler)
    (tasks : ∀ task ∈ outcome.tasks, task.isApp = false) : Piece socket outcome where
  handler := handler
  tail task member := tasks task (mem_of_mem_tail member)
  head event first := absurd (tasks _ (mem_of_mem_head? first)) (by simp [Task.isApp])

theorem tame_of_tasks (before : Before socket outcome.socket)
    (tasks : ∀ task ∈ outcome.tasks, task.isApp = false)
    (clear : ∀ act ∈ outcome.acts, act.isTransfer = false) : Tame socket outcome where
  toPiece := piece_of_tasks before.handler tasks
  tls := before.tls
  clear := clear
  becomes := before.state.imp id .inl

theorem tame_stay (before : Before socket changed) : Tame socket { socket := changed } :=
  tame_of_tasks before (by simp) (by simp)

theorem callback_piece (socket : Socket) (fits : Fits event socket.state)
    (tasks : ∀ task ∈ rest, task.isApp = false) : Piece socket (socket.callback event rest) := by
  unfold callback
  cases heard : socket.eventHandler with
  | false =>
    exact piece_of_tasks rfl (by simpa using tasks)
  | true =>
    refine ⟨rfl, by simpa using tasks, ?_⟩
    intro other first
    simp only [if_true, head?_cons, Option.some.injEq, Task.app.injEq] at first
    subst first
    exact ⟨heard, fits⟩

theorem callback_tame (socket : Socket) (fits : Fits event socket.state)
    (tasks : ∀ task ∈ rest, task.isApp = false) : Tame socket (socket.callback event rest) where
  toPiece := callback_piece socket fits tasks
  tls := rfl
  clear := by simp [callback, Act.isTransfer]
  becomes := .inl rfl

theorem setHost_before (socket : Socket) (which : LookupTarget) (host : Host) :
    Before socket (socket.setHost which host) := by
  cases which <;> exact ⟨rfl, rfl, .inl rfl⟩

theorem isTransfer_of_traffic {act : Act} (traffic : IsTraffic act) : act.isTransfer = false := by
  rcases traffic with ⟨sd, data, rfl⟩ | ⟨sd, data, rfl⟩
  · rfl
  · rfl

theorem Tame.andThen (tame : Tame socket outcome)
    (unconnected : isUnconnected outcome.socket.state = true)
    (tasks : ∀ task ∈ rest, task.isApp = false) : Tame socket (outcome.andThen rest) where
  handler := tame.handler
  tail task member := by
    cases first : outcome.tasks with
    | nil =>
      refine tasks task (mem_of_mem_tail ?_)
      simpa [Outcome.andThen, first] using member
    | cons head others =>
      have member : task ∈ others ++ rest := by simpa [Outcome.andThen, first] using member
      rcases mem_append.mp member with earlier | later
      · exact tame.tail task (by simpa [first] using earlier)
      · exact tasks task later
  head event heads := by
    cases first : outcome.tasks with
    | nil =>
      have front : rest.head? = some (.app event) := by
        simpa [Outcome.andThen, first] using heads
      exact absurd (tasks _ (mem_of_mem_head? front)) (by simp [Task.isApp])
    | cons head others =>
      refine tame.head event ?_
      simpa [Outcome.andThen, first] using heads
  tls := tame.tls
  clear := tame.clear
  becomes := .inr (.inl unconnected)

/-- A step of the TLS handshake goes on, succeeds, gives up, or, on `Closed`, goes back to
the plain connection. -/
structure Shakes (socket : Socket) (answers : Answers) (outcome : Outcome) : Prop
    extends Piece socket outcome where
  tls : outcome.socket.tls = socket.tls
  clear : ∀ act ∈ outcome.acts, act.isTransfer = false
  state : outcome.socket.state = .connected → answers.tls = .closed ∨ outcome.socket = socket
  secure : outcome.socket.state ≠ .sslBye ∨ outcome.socket = socket

theorem finished_piece (handler : changed.eventHandler = socket.eventHandler) (reply : Reply)
    (acts : List Act) : Piece socket (changed.finished reply acts) :=
  piece_of_tasks handler (by simp [finished, Task.isApp])

/-- A reporting write under TLS keeps the session and the state; it is interrupted only
where the session is lost. -/
theorem writeReporting_piece (socket : Socket) (data : Bytes) (answers : Answers) :
    Piece socket (socket.writeReporting data answers) := by
  unfold writeReporting
  split
  · exact finished_piece rfl _ _
  split
  · rename_i ready secure
    have lost : Piece socket (socket.tlsLost .socketWrite "FIXME: SSL/TLS send error" (-1)) := by
      refine callback_piece socket ?_ (by simp [Task.isApp])
      trivial
    rw [write, if_neg ready, if_pos secure]
    split
    · exact finished_piece rfl _ _
    · exact piece_of_tasks rfl (by simp [finished, Task.isApp])
    · exact finished_piece rfl _ _
    · exact lost
    · exact lost
  · exact finished_piece rfl _ _

theorem writeReporting_secure (secure : socket.isSecure = true) (data : Bytes)
    (answers : Answers) :
    (∀ act ∈ (socket.writeReporting data answers).acts, act.isPlain = false) ∧
      (socket.writeReporting data answers).socket.tls = socket.tls ∧
      (socket.writeReporting data answers).socket.state = socket.state := by
  have ready : ¬ ¬ socket.transfers = true := by
    simp only [isSecure, Bool.and_eq_true] at secure
    simp [transfers, secure.2]
  rw [writeReporting, if_neg ready, if_pos secure, write, if_neg ready, if_pos secure]
  split
  · exact ⟨by simp [finished, Act.isPlain], rfl, rfl⟩
  · exact ⟨by simp [finished], rfl, rfl⟩
  · exact ⟨by simp [finished], rfl, rfl⟩
  · exact ⟨by simp [tlsLost, callback, Act.isPlain], rfl, rfl⟩
  · exact ⟨by simp [tlsLost, callback, Act.isPlain], rfl, rfl⟩

/-- A reporting write receives nothing. -/
theorem writeReporting_received (socket : Socket) (data : Bytes) (answers : Answers) :
    ∀ act ∈ (socket.writeReporting data answers).acts, act.received = none := by
  have plain : ∀ act ∈ socket.plainSent data, act.received = none := by
    unfold plainSent
    split
    · simp
    · simp [Act.received]
  unfold writeReporting
  split
  · simp [finished]
  split
  · rename_i ready secure
    rw [write, if_neg ready, if_pos secure]
    split
    · simp [finished, Act.received]
    · simp [finished]
    · simp [finished]
    · simp [tlsLost, callback, Act.received]
    · simp [tlsLost, callback, Act.received]
  · exact plain

/-- What `TLSInitialize()` does to a socket; a session that is to be used has been set up. -/
structure Sets (socket session : Socket) (started : Bool) : Prop where
  handler : session.eventHandler = socket.eventHandler
  state : session.state = socket.state
  kept : socket.tls = true → session.tls = true
  tls : started = true → session.tls = true

theorem tlsInitialize_spec (socket : Socket) (answers : Answers) :
    Sets socket (socket.tlsInitialize answers).2 (socket.tlsInitialize answers).1 := by
  unfold tlsInitialize
  split
  · exact ⟨rfl, rfl, id, nofun⟩
  split
  · exact ⟨rfl, rfl, id, nofun⟩
  · exact ⟨rfl, rfl, fun _ => rfl, fun _ => rfl⟩

/-- A reporting read returns without a callback, with the bytes it has received. -/
structure Returns (socket : Socket) (reply : Reply) (outcome : Outcome) : Prop where
  tasks : outcome.tasks = [.finish reply]
  handler : outcome.socket.eventHandler = socket.eventHandler
  tls : outcome.socket.tls = socket.tls
  state : outcome.socket.state = socket.state
  received : outcome.acts.filterMap Act.received = reply.pieces
  clear : socket.isSecure = true ∨ socket.transfers = false →
    ∀ act ∈ outcome.acts, act.isPlain = false

theorem readReporting_returns (socket : Socket) (length : Nat) (answers : Answers) :
    ∃ reply, Returns socket reply (socket.readReporting length answers) := by
  have silent {next : Socket} {reply : Reply} (handler : next.eventHandler = socket.eventHandler)
      (tls : next.tls = socket.tls) (state : next.state = socket.state)
      (empty : reply.pieces = []) : ∃ reply', Returns socket reply' (next.finished reply []) :=
    ⟨reply, rfl, handler, tls, state, empty.symm, by simp [finished]⟩
  unfold readReporting
  split
  · exact silent rfl rfl rfl rfl
  rename_i ready
  split
  · split
    · dsimp only
      split
      · exact silent rfl rfl rfl rfl
      rename_i some'
      refine ⟨_, rfl, rfl, rfl, rfl, ?_, by simp [finished, Act.isPlain]⟩
      simp [finished, Act.received, Reply.pieces, some']
    · exact silent rfl rfl rfl rfl
    · exact silent rfl rfl rfl rfl
    · exact silent rfl rfl rfl rfl
    · exact silent rfl rfl rfl rfl
  · rename_i insecure
    split
    · rename_i bytes got
      split
      · exact silent rfl rfl rfl rfl
      rename_i some'
      refine ⟨_, rfl, rfl, rfl, rfl, ?_, ?_⟩
      · -- bytes came, so there is a descriptor
        have place : ∃ sd, socket.sd = some sd := by
          cases at' : socket.sd with
          | none => simp [recv, at'] at got
          | some sd => exact ⟨sd, rfl⟩
        obtain ⟨sd, at'⟩ := place
        simp [finished, plainReceived, at', Act.received, Reply.pieces, some']
      · rintro (secure | idle)
        · exact absurd secure insecure
        · exact absurd (by simp [idle]) ready
    · split
      · exact silent rfl rfl rfl rfl
      · exact silent rfl rfl rfl rfl

/-- The bytes that the TLS session has taken. -/
def Act.accepted : Act → Bytes
  | .tlsSend _ data => data
  | _ => []

/-- Behind `total` bytes a write takes more from the front of the data.  It returns the number
of all, or -1 if there are none. -/
structure Writes (total : Nat) (data : Bytes) (outcome : Outcome) : Prop where
  front : outcome.acts.flatMap Act.accepted <+: data
  count : ∃ result : Int, outcome.tasks.getLast? = some (.finish (.count result none)) ∧
    (result = total + (outcome.acts.flatMap Act.accepted).length ∨
      result = -1 ∧ total = 0 ∧ outcome.acts.flatMap Act.accepted = [])

/-- Whatever the session answers, a vectored write reports exactly what went out. -/
theorem writeRecords_writes (socket : Socket) (total : Nat) (buffers : List Bytes)
    (records : List (TlsStatus × Nat)) :
    Writes total buffers.flatten (socket.writeRecords total buffers records) := by
  have stops (total : Nat) (next : Socket) (data : Bytes) :
      Writes total data (next.finished (.count total none) []) :=
    ⟨⟨data, rfl⟩, total, rfl, .inl rfl⟩
  have lost (total : Nat) (data : Bytes) : Writes total data (socket.tlsLost .socketWrite
      "FIXME: SSL/TLS send error" (if total = 0 then -1 else total)) := by
    refine ⟨⟨data, rfl⟩, if total = 0 then -1 else total, ?_, ?_⟩
    · simp only [tlsLost, callback]
      split <;> rfl
    · split
      · exact .inr ⟨rfl, ‹_›, rfl⟩
      · exact .inl rfl
  fun_induction writeRecords socket total buffers records with
  | case1 | case5 | case6 | case9 => exact stops ..
  | case2 total buffers records ih => exact ih
  | case3 total buffer buffers _ _ _ count short =>
    have taken : (buffer.take count).length = count := length_take_of_le (Nat.le_of_lt short)
    refine ⟨?_, _, rfl, .inl ?_⟩
    · have front := take_prefix count buffer
      simpa [finished, Act.accepted] using front.trans (prefix_append _ _)
    · simp [finished, Act.accepted, -length_take, taken]
  | case4 total buffer buffers _ _ some' count full ih =>
    obtain ⟨front, result, tasks, counts⟩ := ih
    have whole : buffer.take count = buffer := take_of_length_le (Nat.not_lt.mp full)
    refine ⟨?_, result, tasks, .inl ?_⟩
    · simpa [Outcome.after, Act.accepted, whole] using front
    have length : count = buffer.length := by omega
    rcases counts with counts | ⟨-, none', -⟩
    · simp [Outcome.after, Act.accepted, counts, length, Int.add_assoc]
    · exact (some' (eq_nil_of_length_eq_zero (by omega))).elim
  | case7 | case8 => exact lost ..

end SamuraiFormal.Net.Socket
