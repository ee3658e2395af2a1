import SamuraiFormal.Net.Socket
import SamuraiFormal.Net.Socks5Feed

/-!
# What a socket can do

The control of a socket, without its monitor, timer and application: a `Move` is a
transition that the source can make between two callbacks, with the acts that come with
it and the conditions under which the source makes it.  Every piece of the model is a
sequence of moves, so an invariant of the moves is an invariant of the socket.
-/

namespace SamuraiFormal.Net

open Util
open List

/-- Two handshakes for the same settings, command, peer and port. -/
structure SamePeer (first second : Socks5Handshake) : Prop where
  settings : second.settings = first.settings
  command : second.command = first.command
  target : second.target = first.target
  targetPort : second.targetPort = first.targetPort

namespace SamePeer

variable {first second third : Socks5Handshake}

theorem refl (handshake : Socks5Handshake) : SamePeer handshake handshake :=
  ⟨rfl, rfl, rfl, rfl⟩

theorem trans (one : SamePeer first second) (two : SamePeer second third) :
    SamePeer first third :=
  ⟨two.settings.trans one.settings, two.command.trans one.command, two.target.trans one.target,
    two.targetPort.trans one.targetPort⟩

end SamePeer

/-- The handshake asks the proxy of these settings for a connection to the peer. -/
structure Names (settings : ProxySettings) (peer : Bytes) (port : UInt16)
    (handshake : Socks5Handshake) : Prop where
  settings : handshake.settings = settings
  command : handshake.command = .connect
  target : handshake.target = peer
  targetPort : handshake.targetPort = port

theorem Names.of_samePeer {settings : ProxySettings} {peer : Bytes} {port : UInt16}
    {first second : Socks5Handshake} (names : Names settings peer port first)
    (same : SamePeer first second) : Names settings peer port second :=
  ⟨same.settings.trans names.settings, same.command.trans names.command,
    same.target.trans names.target, same.targetPort.trans names.targetPort⟩

theorem names_create {settings : ProxySettings} {peer : Bytes} {port : UInt16}
    (alive : (Socks5Handshake.create settings .connect peer port).status ≠ .failed) :
    Names settings peer port (Socks5Handshake.create settings .connect peer port) := by
  rcases Socks5Handshake.create_cases settings .connect peer port with
    ⟨_, failed, _⟩ | ⟨_, _, same⟩
  · exact absurd failed alive
  · rw [same]
    exact ⟨rfl, rfl, rfl, rfl⟩

namespace Socks5Handshake

open Socks5

variable (handshake : Socks5Handshake)

theorem consumeOutgoing_samePeer (count : Nat) :
    SamePeer handshake (handshake.consumeOutgoing count) := by
  unfold consumeOutgoing
  split
  · exact .refl _
  dsimp only
  split
  · exact ⟨rfl, rfl, rfl, rfl⟩
  · split <;> exact ⟨rfl, rfl, rfl, rfl⟩

theorem closed_samePeer : SamePeer handshake handshake.closed := by
  unfold closed
  split
  · exact .refl _
  · exact ⟨rfl, rfl, rfl, rfl⟩

theorem consumeStep_samePeer (data : Bytes) :
    SamePeer handshake (handshake.consumeStep data).2 := by
  unfold consumeStep
  split
  · unfold methodReply
    split
    · dsimp only
      split_ifs <;> exact ⟨rfl, rfl, rfl, rfl⟩
    · exact .refl _
  · unfold authReply
    split
    · split_ifs <;> exact ⟨rfl, rfl, rfl, rfl⟩
    · exact .refl _
  · unfold replyHead
    split
    · dsimp only
      split_ifs <;> exact ⟨rfl, rfl, rfl, rfl⟩
    · exact .refl _
  · unfold replyAddrLen
    split
    · split_ifs <;> exact ⟨rfl, rfl, rfl, rfl⟩
    · exact .refl _
  · unfold replyAddr
    split_ifs <;> exact ⟨rfl, rfl, rfl, rfl⟩
  · unfold replyPort
    split
    · dsimp only
      split_ifs <;> exact ⟨rfl, rfl, rfl, rfl⟩
    · exact .refl _

theorem feedLoop_samePeer (fuel : Nat) (data : Bytes) (consumed : Nat) :
    SamePeer handshake (feedLoop fuel handshake data consumed).1 := by
  induction fuel generalizing handshake data consumed with
  | zero => exact .refl _
  | succ fuel ih =>
    rw [feedLoop]
    split
    · dsimp only
      generalize (if data.length < handshake.need - handshake.input.length then data.length
        else handshake.need - handshake.input.length) = take
      split
      · exact ⟨rfl, rfl, rfl, rfl⟩
      have filled (bytes : Bytes) : SamePeer handshake (handshake.fill bytes) :=
        ⟨rfl, rfl, rfl, rfl⟩
      split
      · exact ((filled _).trans (consumeStep_samePeer _ _)).trans (ih _ _ _)
      · exact (filled _).trans (consumeStep_samePeer _ _)
    · exact .refl _

theorem feed_samePeer (data : Bytes) : SamePeer handshake (handshake.feed data).1 :=
  feedLoop_samePeer handshake _ _ _

end Socks5Handshake

namespace Socket

/-- Bytes between the socket and its proxy. -/
def IsTraffic (act : Act) : Prop :=
  (∃ sd data, act = .proxySend sd data) ∨ ∃ sd data, act = .proxyRecv sd data

theorem socks5Pump_spec (sd : Nat) (handshake : Socks5Handshake) (answers : List PumpAnswer) :
    SamePeer handshake (socks5Pump sd handshake answers).handshake ∧
      ∀ act ∈ (socks5Pump sd handshake answers).acts, IsTraffic act := by
  induction answers generalizing handshake with
  | nil => exact ⟨.refl _, forall_mem_nil _⟩
  | cons answer answers ih =>
    have after {next : Socks5Handshake} {act : Act} (same : SamePeer handshake next)
        (traffic : IsTraffic act) :
        SamePeer handshake ((socks5Pump sd next answers).after act).handshake ∧
          ∀ other ∈ ((socks5Pump sd next answers).after act).acts, IsTraffic other :=
      ⟨same.trans (ih next).1, forall_mem_cons.mpr ⟨traffic, (ih next).2⟩⟩
    unfold socks5Pump
    split
    · split
      · exact ⟨.refl _, forall_mem_nil _⟩
      · split <;> exact ⟨.refl _, forall_mem_nil _⟩
      · dsimp only
        split
        · exact ⟨handshake.consumeOutgoing_samePeer _,
            forall_mem_singleton.mpr (.inl ⟨_, _, rfl⟩)⟩
        · exact after (handshake.consumeOutgoing_samePeer _) (.inl ⟨_, _, rfl⟩)
    · split
      · exact ⟨handshake.closed_samePeer, forall_mem_nil _⟩
      · split
        · exact ⟨.refl _, forall_mem_nil _⟩
        · split <;> exact ⟨.refl _, forall_mem_nil _⟩
        · dsimp only
          split
          · exact ⟨handshake.closed_samePeer, forall_mem_nil _⟩
          · exact after (handshake.feed_samePeer _) (.inr ⟨_, _, rfl⟩)
    · exact ⟨.refl _, forall_mem_nil _⟩
    · exact ⟨.refl _, forall_mem_nil _⟩

theorem runPump_spec (socket : Socket) (handshake : Socks5Handshake) (answers : Answers) :
    SamePeer handshake (socket.runPump handshake answers).handshake ∧
      ∀ act ∈ (socket.runPump handshake answers).acts, IsTraffic act := by
  unfold runPump
  split
  · exact socks5Pump_spec _ _ _
  · exact ⟨.refl _, forall_mem_nil _⟩

section SetHost

variable (socket : Socket) (which : LookupTarget) (host : Host)

@[simp] theorem setHost_state : (socket.setHost which host).state = socket.state := by
  cases which <;> rfl

@[simp] theorem setHost_sd : (socket.setHost which host).sd = socket.sd := by
  cases which <;> rfl

@[simp] theorem setHost_opened : (socket.setHost which host).opened = socket.opened := by
  cases which <;> rfl

end SetHost

/-- The handshake that a proxied `connect()` builds. -/
def request (socket : Socket) : Socks5Handshake :=
  Socks5Handshake.create socket.proxy .connect socket.getPeerName socket.port

/-- Where a proxied `connect()` finds its proxy. -/
def proxyHost (socket : Socket) : Host :=
  socket.proxyAddress.getD { inet := InetAddress.ofString socket.proxy.host }

/-- The states in which `connect()` does something. -/
def Idle (socket : Socket) : Prop := socket.state = .disconnected ∨ socket.state = .hostFound

/-- What the piece of code at hand may do: leave a lookup of the peer behind, make it,
take a closed session for the answer of a handshake step. -/
structure Occasion where
  looks : Prop
  peer : Prop
  closed : Prop

variable (occasion : Occasion)

/-- An answer that reaches the socket: from the resolver, or at once if the address is
known. -/
inductive Answer (socket : Socket) (which : LookupTarget) : Host → List Act → Prop where
  | resolver (host : Host) (name : Bytes) (ip : IpAddress) (place : socket.host which = some host)
      (out : host.request = some name) (listens : host.dnsevent = true) :
      Answer socket which { inet := { host.inet with ip := some ip, resolveState := .resolved } }
        [.resolved name ip]
  | known (host : Host) (place : socket.host which = some host) (peer : which = .peer)
      (asks : occasion.peer) (known : host.inet.resolveState = .resolved) :
      Answer socket which { host with dnsevent := false } []

/-- `TLSsendHandshake()` takes a step. -/
def canHandshake (socket : Socket) : Bool :=
  socket.tls && (socket.state == .connected || socket.state == .sslHandshake)

/-- The state behind a step of the TLS handshake, before a failure is dealt with. -/
def afterStep : TlsStatus → SocketState
  | .ok => .sslConnected
  | .closed => .connected
  | _ => .sslHandshake

def afterBye : TlsStatus → SocketState
  | .ok => .connected
  | .closed => .connected
  | _ => .sslBye

/-- `::connect` to `addr` on a fresh descriptor. -/
def dialled (socket : Socket) : Socket :=
  { socket with sd := some socket.opened, opened := socket.opened + 1, state := .connecting }

/-- The answer to the lookup of the proxy sets `addr`. -/
inductive Answered (socket : Socket) : List Act → Socket → Prop where
  | intro (which : LookupTarget) (host : Host) (acts : List Act)
      (answer : Answer occasion socket which host acts) (mode : socket.lookupTarget = .proxy) :
      Answered socket acts { socket.setHost which host with
        addr := some ⟨host.inet.ip, socket.proxy.port⟩, lookupTarget := .peer }

/-- One transition of the control of a socket. -/
inductive Move (socket : Socket) : List Act → Socket → Prop where
  | frame (next : Socket) (same : next = { socket with
        monitor := next.monitor, autoConnectAfterLookup := next.autoConnectAfterLookup
        eventHandler := next.eventHandler, timer := next.timer
        reuseLocalPort := next.reuseLocalPort, localPort := next.localPort }) :
      Move socket [] next
  | event (event : SocketEvent) (other : event ≠ .connected)
      (ready : event = .dataAvailable → socket.transfers = true) :
      Move socket [.event event socket.sd socket.eventHandler] socket
  | returned (reply : Reply) : Move socket [.returned reply] socket
  | fail : Move socket [] { socket with state := .invalid }
  | hangUp (live : socket.state ≠ .invalid ∧ socket.state ≠ .disconnected) :
      Move socket [] { socket with state := .disconnected }
  | close : Move socket [] { socket with sd := none }
  | plainSend (sd : Nat) (data : Bytes) (place : socket.sd = some sd)
      (ready : socket.transfers = true) : Move socket [.plainSend sd data] socket
  | plainRecv (sd : Nat) (data : Bytes) (place : socket.sd = some sd)
      (ready : socket.transfers = true) : Move socket [.plainRecv sd data] socket
  | tlsSend (data : Bytes) (secure : socket.isSecure = true) :
      Move socket [.tlsSend socket.sd data] socket
  | tlsRecv (data : Bytes) (secure : socket.isSecure = true) :
      Move socket [.tlsRecv socket.sd data] socket
  | tlsStart : Move socket [] { socket with tls := true }
  | tlsStop : Move socket [] { socket with tls := false }
  | tlsStep (status : TlsStatus) (session : socket.tls = true)
      (ready : socket.state = .connected ∨ socket.state = .sslHandshake)
      (fits : status = .closed → occasion.closed) :
      Move socket [.tlsStep socket.sd status] { socket with state := afterStep status }
  | tlsBye (status : TlsStatus)
      (ready : socket.state = .sslConnected ∨ socket.state = .sslBye) :
      Move socket [.tlsBye socket.sd status] { socket with state := afterBye status }
  | askPeer (host : Host) (place : socket.address = some host) (asks : occasion.peer)
      (unknown : host.inet.resolveState ≠ .resolved) (named : cString host.inet.hostname ≠ []) :
      Move socket [.resolve (cString host.inet.hostname)] { socket with
        address := some { host with
          request := some (cString host.inet.hostname), dnsevent := true } }
  | lookupFailed (which : LookupTarget) (host : Host) (dnsevent : Bool)
      (place : socket.host which = some host)
      (unknown : host.request ≠ none ∨ host.inet.resolveState ≠ .resolved)
      (cause : which = .peer → host.request ≠ none ∨ occasion.peer) :
      Move socket [] { socket.setHost which
          { inet := { host.inet with resolveState := .resolveError }, dnsevent := dnsevent } with
        lookupTarget := .peer, state := .invalid }
  | unheard (which : LookupTarget) (host : Host) (name : Bytes) (ip : IpAddress)
      (place : socket.host which = some host) (out : host.request = some name)
      (deaf : host.dnsevent = false) :
      Move socket [.resolved name ip] (socket.setHost which
        { inet := { host.inet with ip := some ip, resolveState := .resolved } })
  | unheardFailure (which : LookupTarget) (host : Host) (name : Bytes)
      (place : socket.host which = some host) (out : host.request = some name)
      (deaf : host.dnsevent = false) :
      Move socket [] (socket.setHost which
        { inet := { host.inet with resolveState := .resolveError } })
  | clearDnsevent (which : LookupTarget) (host : Host) (place : socket.host which = some host) :
      Move socket [] (socket.setHost which { host with dnsevent := false })
  | found (which : LookupTarget) (host : Host) (acts : List Act)
      (answer : Answer occasion socket which host acts) (mode : socket.lookupTarget = .peer) :
      Move socket acts { socket.setHost which host with
        addr := some ⟨host.inet.ip, socket.port⟩, state := .hostFound }
  | answered (acts : List Act) (aimed : Socket) (answers : Answered occasion socket acts aimed) :
      Move socket acts aimed
  | dial (acts : List Act) (aimed : Socket) (answers : Answered occasion socket acts aimed)
      (target : SocketAddress) (place : aimed.addr = some target) :
      Move socket (acts ++ [.connect aimed.opened target aimed.inForce aimed.handshake])
        aimed.dialled
  | reopen : Move socket [] { socket with
      sd := some socket.opened, opened := socket.opened + 1, state := .invalid }
  | established (waits : socket.state = .connecting)
      (direct : ¬ (socket.isProxied = true ∧ socket.handshake.isSome = true)) :
      Move socket [.event .connected socket.sd socket.eventHandler]
        { socket with state := .connected }
  | tunnel (waits : socket.state = .connecting) (mode : socket.isProxied = true)
      (ready : socket.handshake.isSome = true) :
      Move socket [] { socket with state := .proxyHandshake }
  | pump (handshake next : Socks5Handshake) (traffic : List Act)
      (negotiates : socket.state = .proxyHandshake) (place : socket.handshake = some handshake)
      (same : SamePeer handshake next) (only : ∀ act ∈ traffic, IsTraffic act) :
      Move socket (.pump socket.sd socket.inForce handshake :: traffic)
        { socket with handshake := some next }
  | tunnelled (handshake : Socks5Handshake) (negotiates : socket.state = .proxyHandshake)
      (place : socket.handshake = some handshake) (done : handshake.status = .done) :
      Move socket
        [.tunnelled socket.sd handshake, .event .connected socket.sd socket.eventHandler]
        { socket with handshake := none, state := .connected }
  | proxyFailed (negotiates : socket.state = .proxyHandshake) :
      Move socket [] { socket with handshake := none, state := .invalid, sd := none }

/-- What `connect()` sets in front of `internal_connect_addr()`. -/
inductive Aim (socket : Socket) : Socket → Prop where
  | direct (mode : socket.isProxied = false) : Aim socket socket
  | proxied (mode : socket.isProxied = true) (alive : socket.request.status ≠ .failed)
      (known : socket.proxyHost.inet.resolveState = .resolved) (host : Host)
      (same : host.inet = socket.proxyHost.inet) (out : host.request = socket.proxyHost.request)
      (target : LookupTarget) (kept : target = socket.lookupTarget ∨ target = .peer) :
      Aim socket { socket with
        handshake := some socket.request, proxyAddress := some host, lookupTarget := target
        addr := some ⟨host.inet.ip, socket.proxy.port⟩ }

/-- How `connect()` begins. -/
inductive Begin (socket : Socket) : List Act → Socket → Prop where
  | refuse (mode : socket.isProxied = true) (idle : socket.Idle)
      (failed : socket.request.status = .failed) :
      Begin socket [] { socket with handshake := none, state := .invalid, sd := none }
  | prepare (mode : socket.isProxied = true) (idle : socket.Idle)
      (alive : socket.request.status ≠ .failed) :
      Begin socket [] { socket with
        handshake := some socket.request, proxyAddress := some socket.proxyHost
        lookupTarget := .proxy }
  | ask (mode : socket.isProxied = true) (idle : socket.Idle)
      (alive : socket.request.status ≠ .failed)
      (unknown : socket.proxyHost.inet.resolveState ≠ .resolved)
      (named : cString socket.proxyHost.inet.hostname ≠ []) :
      Begin socket [.resolve (cString socket.proxyHost.inet.hostname)] { socket with
        handshake := some socket.request, lookupTarget := .proxy
        proxyAddress := some { socket.proxyHost with
          request := some (cString socket.proxyHost.inet.hostname), dnsevent := true } }
  | aim (aimed : Socket) (idle : socket.Idle) (aims : Aim socket aimed) : Begin socket [] aimed
  | dial (aimed : Socket) (idle : socket.Idle) (aims : Aim socket aimed) (target : SocketAddress)
      (place : aimed.addr = some target) :
      Begin socket [.connect aimed.opened target aimed.inForce aimed.handshake] aimed.dialled

/-- Transitions one after the other. -/
inductive Moves : Socket → List Act → Socket → Prop where
  | nil (socket : Socket) : Moves socket [] socket
  | cons {first middle last : Socket} {acts more : List Act}
      (move : Move occasion first acts middle)
      (moves : Moves middle more last) : Moves first (acts ++ more) last

/-- The tasks that need no guard where they are left behind. -/
def isPlain : Task → Bool
  | .lookupPeer => false
  | .connectAfterLookup => false
  | _ => true

/-- A piece of code is a sequence of moves, and it leaves a lookup of the peer, or a
connect behind one, only where the source does. -/
structure Runs (socket : Socket) (outcome : Outcome) : Prop where
  moves : Moves occasion socket outcome.acts outcome.socket
  lookup : .lookupPeer ∈ outcome.tasks →
    outcome.socket.isProxied = false ∧ outcome.socket.state = .disconnected ∧ occasion.looks
  auto : .connectAfterLookup ∈ outcome.tasks → outcome.socket.state = .hostFound

variable {occasion : Occasion} {socket middle final : Socket} {acts more : List Act}
  {outcome : Outcome}

namespace Moves

theorem single (move : Move occasion socket acts middle) : Moves occasion socket acts middle := by
  have moves := Moves.cons move (.nil middle)
  rwa [append_nil] at moves

theorem trans (first : Moves occasion socket acts middle)
    (second : Moves occasion middle more final) : Moves occasion socket (acts ++ more) final := by
  induction first with
  | nil _ => exact second
  | cons move _ ih =>
    rw [append_assoc]
    exact .cons move (ih second)

theorem first (move : Move occasion socket [] middle) (moves : Moves occasion middle acts final) :
    Moves occasion socket acts final :=
  .cons move moves

theorem last (moves : Moves occasion socket acts middle) (move : Move occasion middle [] final) :
    Moves occasion socket acts final := by
  have both := moves.trans (.single move)
  rwa [append_nil] at both

/-- What every move keeps, with the trace in front of it, is kept by all of them. -/
theorem invariant {holds : Socket → List Act → Prop} {front : List Act}
    (keeps : ∀ {socket next trace acts}, holds socket trace → Move occasion socket acts next →
      holds next (trace ++ acts))
    (moves : Moves occasion socket acts final) (base : holds socket front) :
    holds final (front ++ acts) := by
  induction moves generalizing front with
  | nil _ => rwa [append_nil]
  | cons move _ ih =>
    rw [← append_assoc]
    exact ih (keeps base move)

end Moves

namespace Runs

theorem plain (moves : Moves occasion socket outcome.acts outcome.socket)
    (tasks : outcome.tasks.all isPlain = true) : Runs occasion socket outcome := by
  rw [all_eq_true] at tasks
  refine ⟨moves, ?_, ?_⟩
  · intro member
    exact absurd (tasks _ member) nofun
  · intro member
    exact absurd (tasks _ member) nofun

theorem stay (socket : Socket) : Runs occasion socket { socket := socket } :=
  .plain (.nil socket) rfl

theorem after (moves : Moves occasion socket acts middle) (runs : Runs occasion middle outcome) :
    Runs occasion socket (outcome.after acts) :=
  ⟨moves.trans runs.moves, runs.lookup, runs.auto⟩

theorem behind (moves : Moves occasion socket [] middle) (runs : Runs occasion middle outcome) :
    Runs occasion socket outcome :=
  ⟨moves.trans runs.moves, runs.lookup, runs.auto⟩

theorem first (move : Move occasion socket [] middle) (runs : Runs occasion middle outcome) :
    Runs occasion socket outcome :=
  .behind (.single move) runs

end Runs

end Socket

end SamuraiFormal.Net
