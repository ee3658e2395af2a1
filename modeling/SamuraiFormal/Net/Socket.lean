import SamuraiFormal.Library.Traces
import SamuraiFormal.Net.Socks5

/-!
# The socket

`Socket`: an outbound or accepted stream socket, driven by its application, the socket
monitor, the resolver and its connect timer.  Every callback hands control to the
application, which may call back into the socket, so the code is cut at the callbacks.
What is left of an interrupted function is a `Task` on a stack; the piece up to the next
callback runs in one step.  The answers of the system, of the TLS library and of the
resolver are arguments of a step.
-/

namespace SamuraiFormal.Net

open Util

/-! ## Data -/

inductive SocketState where
  | disconnected
  | hostLookup
  | hostFound
  | connecting
  | connected
  | disconnecting
  | listening
  | proxyHandshake
  | sslHandshake
  | sslConnected
  | sslBye
  | invalid
  deriving DecidableEq, Repr

/-- `TlsFactory::TlsStatus`. -/
inductive TlsStatus where
  | ok
  | wantWrite
  | wantRead
  | closed
  | error
  deriving DecidableEq, Repr

/-- The error numbers that the socket tells apart. -/
inductive Errno where
  | again
  | interrupted
  | inProgress
  | badDescriptor
  | notConnected
  | protocol
  | timedOut
  | connectionRefused
  | hostUnreachable
  | hostDown
  | netDown
  | netUnreachable
  | netReset
  | connectionReset
  | connectionAborted
  | notSupported
  | familyNotSupported
  | addressInUse
  | addressNotAvailable
  | other (code : Int)
  deriving DecidableEq, Repr

/-- `EAGAIN`, `EWOULDBLOCK` and `EINTR`. -/
def Errno.retry (errno : Errno) : Bool := errno == .again || errno == .interrupted

/-- The text of an error: one of the source's own, or the system's for a number. -/
inductive Message where
  | text (words : String)
  | strerror (errno : Errno)
  deriving DecidableEq, Repr

/-- `classify_socket_error()`. -/
def classifySocketError : Errno → SocketError × String
  | .timedOut => (.connectionTimeout, "Connection timed out")
  | .connectionRefused => (.connectionRefused, "Connection refused")
  | .hostUnreachable => (.hostUnreachable, "No route to host")
  | .hostDown => (.hostDown, "Host is down")
  | .netDown => (.netDown, "Network is down")
  | .netUnreachable => (.netUnreachable, "Network is unreachable")
  | .netReset => (.socketUnknown, "Network dropped connection because of reset")
  | .connectionReset => (.socketUnknown, "Connection reset by peer")
  | .connectionAborted => (.socketUnknown, "Software caused connection abort")
  | .notSupported => (.socketUnknown, "Operation not supported")
  | .familyNotSupported => (.socketUnknown, "Address family not supported")
  | .addressInUse => (.socketUnknown, "Address is in use")
  | .addressNotAvailable => (.socketUnknown, "Address is not available")
  | _ => (.socketUnknown, "Unknown socket error.")

/-- The callbacks of `SocketEventHandler`. -/
inductive SocketEvent where
  | hostLookup
  | hostFound
  | connecting
  | connected
  | disconnected
  | dataAvailable
  | canWrite
  | error (code : SocketError) (message : Message)
  | tlsConnected
  | tlsDisconnected
  deriving DecidableEq, Repr

/-- `SocketMonitor::Triggers`, as far as a socket looks at them. -/
structure Triggers where
  read : Bool := false
  write : Bool := false
  error : Bool := false
  close : Bool := false
  deriving DecidableEq, Repr

/-- An `InetAddress` with its lookup: the name its `resolver` was asked for while the
answer is out, and whether `dnsevent` is set. -/
structure Host where
  inet : InetAddress
  request : Option Bytes := none
  dnsevent : Bool := false
  deriving DecidableEq

/-- `InetSocketAddress`. -/
structure SocketAddress where
  ip : Option IpAddress
  port : UInt16
  deriving DecidableEq

/-- Whose name a lookup is for; also which of the two addresses is meant. -/
inductive LookupTarget where
  | peer
  | proxy
  deriving DecidableEq, Repr

/-- `Samurai::IO::ReadResult`. -/
inductive ReadResult where
  | ok
  | endOfFile
  | wouldBlock
  | error
  deriving DecidableEq, Repr

/-- The answer of `recv`; no bytes at all is the end of the stream. -/
inductive Received where
  | data (bytes : Bytes)
  | failed (errno : Errno)
  deriving DecidableEq

/-- The answer of `send`. -/
inductive Sent where
  | count (bytes : Nat)
  | failed (errno : Errno)
  deriving DecidableEq

/-- `Socket` with the fields of its base.  Descriptors are numbered in the order in which
the system hands them out, and `opened` is the number of the next one. -/
structure Socket where
  address : Option Host
  port : UInt16
  addr : Option SocketAddress := none
  state : SocketState := .disconnected
  sd : Option Nat := none
  opened : Nat := 0
  monitor : Option Triggers := none
  autoConnectAfterLookup : Bool := false
  eventHandler : Bool := true
  timer : Bool := false
  outbound : Bool := true
  lookupTarget : LookupTarget := .peer
  reuseLocalPort : Bool := false
  localPort : UInt16 := 0
  proxy : ProxySettings := {}
  proxyAddress : Option Host := none
  handshake : Option Socks5Handshake := none
  tls : Bool := false
  deriving DecidableEq

namespace Socket

/-- The public calls that touch the connection. -/
inductive Call where
  | lookup
  | connect
  | disconnect
  | close
  | setProxy (settings : ProxySettings)
  | setReuseLocalPort (port : UInt16)
  | setEventHandler (handler : Bool)
  | setMonitor (triggers : Triggers)
  | disableMonitor
  | toggleWriteNotifier (toggle : Bool)
  | write (data : Bytes)
  | writeReporting (data : Bytes)
  | writeBuffers (buffers : List Bytes)
  | read (length : Nat)
  | readReporting (length : Nat)
  | peek (length : Nat)
  | peekReporting (length : Nat)
  | tlsInitialize (server : Bool)
  | tlsDeinit
  | tlsSendHandshake
  | tlsSendGoodbye
  deriving DecidableEq

/-- What a call returns; a reporting call also sets an error code. -/
inductive Reply where
  | none
  | flag (value : Bool)
  | count (value : Int) (ec : Option Errno)
  | read (result : ReadResult) (data : Bytes) (ec : Option Errno)
  deriving DecidableEq

/-- What a socket does that others can see. -/
inductive Act where
  | called (call : Call) (sd : Option Nat)
  | returned (reply : Reply)
  | event (event : SocketEvent) (sd : Option Nat) (heard : Bool)
  | resolve (name : Bytes)
  | resolved (name : Bytes) (ip : IpAddress)
  | connect (sd : Nat) (target : SocketAddress) (settings : Option ProxySettings)
      (handshake : Option Socks5Handshake)
  | plainSend (sd : Nat) (data : Bytes)
  | plainRecv (sd : Nat) (data : Bytes)
  | tlsSend (sd : Option Nat) (data : Bytes)
  | tlsRecv (sd : Option Nat) (data : Bytes)
  | tlsStep (sd : Option Nat) (status : TlsStatus)
  | tlsBye (sd : Option Nat) (status : TlsStatus)
  | pump (sd : Option Nat) (settings : Option ProxySettings) (handshake : Socks5Handshake)
  | proxySend (sd : Nat) (data : Bytes)
  | proxyRecv (sd : Nat) (data : Bytes)
  | tunnelled (sd : Option Nat) (handshake : Socks5Handshake)
  deriving DecidableEq

/-- What is left of a function that was interrupted by a callback; `app` is the callback
itself. -/
inductive Task where
  | app (event : SocketEvent)
  | monitorRead (trig : Triggers)
  | monitorWrite (trig : Triggers)
  | monitorError (trig : Triggers)
  | resumeHandshake
  | resumeGoodbye
  | disableMonitor
  | close
  | lookupPeer
  | connectAfterLookup
  | clearDnsevent (which : LookupTarget)
  | transferFailed (code : SocketError) (message : String)
  | finish (reply : Reply)
  deriving DecidableEq

inductive PumpAnswer where
  | sent (answer : Sent)
  | received (answer : Received)
  deriving DecidableEq

/-- The answers of everything outside the socket during one step. -/
structure Answers where
  socket : Option Errno := .none
  nonBlocking : Option Errno := .none
  shareable : Bool := true
  bound : Bool := true
  connect : Option Errno := .none
  soError : Option Errno := .none
  received : Received := .failed .again
  sent : Sent := .failed .again
  pump : List PumpAnswer := []
  tls : TlsStatus := .ok
  tlsCount : Nat := 0
  tlsData : Bytes := []
  tlsBuffers : List (TlsStatus × Nat) := []
  asked : Bool := true
  deriving DecidableEq

/-- Where a piece of code leaves the socket, what is left to do and what it did. -/
structure Outcome where
  socket : Socket
  tasks : List Task := []
  acts : List Act := []
  deriving DecidableEq

def isProxied (socket : Socket) : Bool := socket.outbound && socket.proxy.enabled

/-- The settings in force, if the socket is proxied. -/
def inForce (socket : Socket) : Option ProxySettings :=
  if socket.isProxied then some socket.proxy else none

def getPeerName (socket : Socket) : Bytes :=
  match socket.address with
  | none => []
  | some host => if host.inet.hostname ≠ [] then host.inet.hostname else host.inet.getAddress

def host (socket : Socket) : LookupTarget → Option Host
  | .peer => socket.address
  | .proxy => socket.proxyAddress

def setHost (socket : Socket) (which : LookupTarget) (host : Host) : Socket :=
  match which with
  | .peer => { socket with address := some host }
  | .proxy => { socket with proxyAddress := some host }

/-- `if (eventHandler) eventHandler->Event…(this)`, with the code behind the callback. -/
def callback (socket : Socket) (event : SocketEvent) (rest : List Task) : Outcome :=
  { socket := socket
    tasks := if socket.eventHandler then .app event :: rest else rest
    acts := [.event event socket.sd socket.eventHandler] }

def Outcome.after (outcome : Outcome) (acts : List Act) : Outcome :=
  { outcome with acts := acts ++ outcome.acts }

def Outcome.andThen (outcome : Outcome) (rest : List Task) : Outcome :=
  { outcome with tasks := outcome.tasks ++ rest }

def setMonitor (socket : Socket) (triggers : Triggers) : Socket :=
  { socket with monitor := some triggers }

def disableMonitor (socket : Socket) : Socket := { socket with monitor := none }

def toggleWriteNotifier (socket : Socket) (toggle : Bool) : Socket :=
  socket.setMonitor { read := true, write := toggle }

def close (socket : Socket) : Socket :=
  match socket.sd with
  | none => socket
  | some _ => { socket.disableMonitor with sd := none }

/-- `recv` on the descriptor, of at most so many bytes. -/
def recv (socket : Socket) (length : Nat) (answer : Received) : Received :=
  match socket.sd, answer with
  | none, _ => .failed .badDescriptor
  | some _, .data bytes => .data (bytes.take length)
  | some _, .failed errno => .failed errno

/-- `send` on the descriptor. -/
def send (socket : Socket) (data : Bytes) (answer : Sent) : Sent :=
  match socket.sd, answer with
  | none, _ => .failed .badDescriptor
  | some _, .count bytes => .count (min bytes data.length)
  | some _, .failed errno => .failed errno

/-- Application bytes on the plain descriptor. -/
def plainSent (socket : Socket) (data : Bytes) : List Act :=
  match socket.sd with
  | none => []
  | some sd => [.plainSend sd data]

def plainReceived (socket : Socket) (data : Bytes) : List Act :=
  match socket.sd with
  | none => []
  | some sd => [.plainRecv sd data]

/-- What `socks5_pump()` leaves: the handshake, `want_write`, the error and its traffic. -/
structure Pumped where
  handshake : Socks5Handshake
  wantWrite : Bool := false
  ec : Option Errno := none
  acts : List Act := []

def Pumped.after (pumped : Pumped) (act : Act) : Pumped :=
  { pumped with acts := act :: pumped.acts }

/-- `socks5_pump()`, one answer of the system for each turn of its loop; when they have
run out the system asks to try again. -/
def socks5Pump (sd : Nat) (handshake : Socks5Handshake) : List PumpAnswer → Pumped
  | [] => { handshake := handshake, wantWrite := handshake.status == .needWrite }
  | answer :: answers =>
    match handshake.status with
    | .needWrite =>
      match answer with
      | .received _ => { handshake := handshake, wantWrite := true }
      | .sent (.failed errno) =>
        if errno.retry then { handshake := handshake, wantWrite := true }
        else { handshake := handshake, ec := some errno }
      | .sent (.count bytes) =>
        let sent := handshake.outgoing.take bytes
        let next := handshake.consumeOutgoing sent.length
        if next.status = .needWrite then
          { handshake := next, wantWrite := true, acts := [.proxySend sd sent] }
        else (socks5Pump sd next answers).after (.proxySend sd sent)
    | .needRead =>
      if handshake.wanted = 0 ∨ 256 < handshake.wanted then { handshake := handshake.closed }
      else
        match answer with
        | .sent _ => { handshake := handshake }
        | .received (.failed errno) =>
          if errno.retry then { handshake := handshake }
          else { handshake := handshake, ec := some errno }
        | .received (.data bytes) =>
          let got := bytes.take handshake.wanted
          if got = [] then { handshake := handshake.closed }
          else (socks5Pump sd (handshake.feed got).1 answers).after (.proxyRecv sd got)
    | .done => { handshake := handshake }
    | .failed => { handshake := handshake }

/-- The pump on the descriptor of the socket. -/
def runPump (socket : Socket) (handshake : Socks5Handshake) (answers : Answers) : Pumped :=
  match socket.sd with
  | some sd => socks5Pump sd handshake answers.pump
  | none => { handshake := handshake, ec := some .badDescriptor }

/-- `internal_error()`. -/
def internalError (socket : Socket) (errno : Errno) : Outcome :=
  let (code, message) := classifySocketError errno
  { socket with state := .invalid }.callback (.error code (.text message)) [.disableMonitor]

/-- `internal_closed()`. -/
def internalClosed (socket : Socket) : Outcome :=
  { socket with state := .disconnected }.callback .disconnected [.disableMonitor]

/-- `internal_timeout()`. -/
def internalTimeout (socket : Socket) : Outcome :=
  { socket with state := .disconnected }.close.callback
    (.error .connectionTimeout (.text "Connection timed out.")) []

/-- `internal_proxy_failed()`. -/
def internalProxyFailed (socket : Socket) : Outcome :=
  let (code, message) :=
    match socket.handshake with
    | some handshake => (handshake.error, handshake.errorMessage)
    | none => (SocketError.proxyProtocol, "Proxy handshake failed")
  { socket with handshake := none, state := .invalid }.close.callback
    (.error code (.text message)) []

/-- A failure while the connection is being set up. -/
def setupFailed (socket : Socket) (message : Message) : Outcome :=
  { socket with state := .invalid }.disableMonitor.callback (.error .socketUnknown message) []

/-- The end of the handshake: the connection is reported. -/
def reportConnected (socket : Socket) : Outcome :=
  { socket.toggleWriteNotifier false with state := .connected }.callback .connected []

/-- `internal_proxy_pump()`. -/
def internalProxyPump (socket : Socket) (answers : Answers) : Outcome :=
  match socket.handshake with
  | none => { socket := socket }
  | some handshake =>
    let pumped := socket.runPump handshake answers
    let acts := .pump socket.sd socket.inForce handshake :: pumped.acts
    let moved := { socket with handshake := some pumped.handshake }
    match pumped.ec with
    | some errno => (moved.internalError errno).after acts
    | none =>
      let toggled := moved.toggleWriteNotifier pumped.wantWrite
      match pumped.handshake.status with
      | .failed => toggled.internalProxyFailed.after acts
      | .done =>
        ({ toggled with handshake := none, timer := false }.reportConnected).after
          (acts ++ [Act.tunnelled socket.sd pumped.handshake])
      | _ => { socket := toggled, acts := acts }

/-- `SO_ERROR` of the descriptor, or the failure to get it. -/
def pendingError (socket : Socket) (answers : Answers) : Option Errno :=
  match socket.sd with
  | none => some .badDescriptor
  | some _ => answers.soError

/-- `internal_connected()`. -/
def internalConnected (socket : Socket) (answers : Answers) : Outcome :=
  match socket.pendingError answers with
  | some errno =>
    { socket with state := .disconnected }.close.callback
      (.error (classifySocketError errno).1 (.strerror errno)) []
  | none =>
    if socket.isProxied ∧ socket.handshake.isSome then
      { socket with state := .proxyHandshake }.internalProxyPump answers
    else socket.reportConnected

/-- `createDescriptor()` and the settings of the new descriptor; the reason if it fails. -/
def openDescriptor (socket : Socket) (answers : Answers) : Socket × Option Message :=
  match answers.socket with
  | some errno => ({ socket with sd := none }, some (.strerror errno))
  | none =>
    let fresh := { socket with sd := some socket.opened, opened := socket.opened + 1 }
    match answers.nonBlocking with
    | some errno => (fresh, some (.strerror errno))
    | none =>
      if fresh.reuseLocalPort ∧ !answers.shareable then
        (fresh, some (.text "the local port could not be made shareable"))
      else if fresh.reuseLocalPort ∧ fresh.localPort ≠ 0 ∧ !answers.bound then
        (fresh, some (.text "the local port asked for could not be bound"))
      else (fresh, none)

/-- `::connect` and what follows from its answer. -/
def startConnect (socket : Socket) (sd : Nat) (target : SocketAddress) (answers : Answers) :
    Outcome :=
  let armed := { socket.toggleWriteNotifier true with timer := true }
  let acts := [.connect sd target socket.inForce socket.handshake]
  match answers.connect with
  | some .inProgress => ({ armed with state := .connecting }.callback .connecting []).after acts
  | some errno => (armed.setupFailed (.strerror errno)).after acts
  | none => (armed.internalConnected answers).after acts

/-- `internal_connect_addr()`. -/
def internalConnectAddr (socket : Socket) (answers : Answers) : Outcome :=
  match socket.addr with
  | none => { socket := socket }
  | some target =>
    match socket.openDescriptor answers with
    | (failed, some message) => failed.setupFailed message
    | (ready, none) => ready.startConnect socket.opened target answers

/-- `Socket::EventHostFound()`. -/
def eventHostFound (socket : Socket) (resolved : InetAddress) (answers : Answers) : Outcome :=
  match socket.lookupTarget with
  | .proxy =>
    { socket with addr := some ⟨resolved.ip, socket.proxy.port⟩, lookupTarget := .peer
      }.internalConnectAddr answers
  | .peer =>
    { socket with addr := some ⟨resolved.ip, socket.port⟩, state := .hostFound }.callback
      .hostFound [.connectAfterLookup]

/-- `Socket::EventHostError()`. -/
def eventHostError (socket : Socket) : Outcome :=
  let message :=
    match socket.lookupTarget with
    | .proxy => "Proxy host not found."
    | .peer => "Host not found."
  { socket with lookupTarget := .peer, state := .invalid }.disableMonitor.callback
    (.error .hostNotFound (.text message)) []

/-- `InetAddress::EventHostFound()` with the resolver's answer. -/
def addressFound (socket : Socket) (which : LookupTarget) (host : Host) (ip : IpAddress)
    (answers : Answers) : Outcome :=
  let inet := { host.inet with ip := some ip, resolveState := .resolved }
  let told := socket.setHost which { inet := inet }
  if host.dnsevent then told.eventHostFound inet answers else { socket := told }

/-- `InetAddress::EventHostError()`. -/
def addressNotFound (socket : Socket) (which : LookupTarget) (host : Host) : Outcome :=
  let inet := { host.inet with resolveState := .resolveError }
  if host.dnsevent then
    (socket.setHost which { inet := inet, dnsevent := true }).eventHostError.andThen
      [.clearDnsevent which]
  else { socket := socket.setHost which { inet := inet } }

/-- `InetAddress::lookup()`. -/
def addressLookup (socket : Socket) (which : LookupTarget) (host : Host) (answers : Answers) :
    Outcome :=
  if host.inet.resolveState = .resolved then
    (socket.setHost which { host with dnsevent := false }).eventHostFound host.inet answers
  else
    let name := cString host.inet.hostname
    if name ≠ [] ∧ answers.asked then
      { socket := socket.setHost which { host with request := some name, dnsevent := true }
        acts := [.resolve name] }
    else socket.addressNotFound which { host with request := none, dnsevent := true }

/-- `Socket::lookup()`; the lookup itself is behind its callback. -/
def lookup (socket : Socket) : Outcome :=
  if socket.state ≠ .disconnected then { socket := socket }
  else if socket.isProxied then
    socket.callback
      (.error .hostNotFound (.text "A proxied socket does not resolve its peer")) []
  else if socket.address.isSome then socket.callback .hostLookup [.lookupPeer]
  else { socket := socket }

/-- `address->lookup(this)`. -/
def lookupPeer (socket : Socket) (answers : Answers) : Outcome :=
  match socket.address with
  | none => { socket := socket }
  | some host => socket.addressLookup .peer host answers

/-- `internal_connect_proxy()`. -/
def internalConnectProxy (socket : Socket) (answers : Answers) : Outcome :=
  let handshake :=
    Socks5Handshake.create socket.proxy .connect socket.getPeerName socket.port
  let asking := { socket with handshake := some handshake }
  if handshake.status = .failed then asking.internalProxyFailed
  else
    let host := socket.proxyAddress.getD { inet := InetAddress.ofString socket.proxy.host }
    let placed := { asking with proxyAddress := some host }
    if host.inet.isResolved then
      { placed with addr := some ⟨host.inet.ip, socket.proxy.port⟩ }.internalConnectAddr answers
    else { placed with lookupTarget := .proxy }.addressLookup .proxy host answers

/-- `connect()`. -/
def connect (socket : Socket) (answers : Answers) : Outcome :=
  if ¬ (socket.state = .disconnected ∨ socket.state = .hostFound) then { socket := socket }
  else if socket.isProxied then socket.internalConnectProxy answers
  else if socket.addr = none then { socket with autoConnectAfterLookup := true }.lookup
  else socket.internalConnectAddr answers

/-- `disconnect()`. -/
def disconnect (socket : Socket) : Outcome :=
  match socket.state with
  | .connecting | .proxyHandshake | .connected | .sslHandshake | .sslConnected | .sslBye =>
    { socket with state := .disconnected }.callback .disconnected [.close]
  | _ => { socket := socket.close }

/-- `EventTimeout()` of the connect timer. -/
def eventTimeout (socket : Socket) : Outcome :=
  if socket.state = .connecting ∨ socket.state = .proxyHandshake then
    { socket with timer := false }.internalTimeout
  else { socket := { socket with timer := false } }

def tlsInitialize (socket : Socket) (answers : Answers) : Bool × Socket :=
  if socket.tls then (false, socket)
  else if socket.state = .proxyHandshake then (false, socket)
  else (answers.tls == .ok, { socket with tls := true })

/-- A TLS failure during the handshake or the goodbye. -/
def tlsFailed (socket : Socket) : Outcome :=
  (socket.toggleWriteNotifier false).close.internalError (.other (-1))

/-- `TLSsendHandshake()`. -/
def tlsSendHandshake (socket : Socket) (answers : Answers) : Outcome :=
  if socket.tls ∧ (socket.state = .connected ∨ socket.state = .sslHandshake) then
    let step := { socket with state := .sslHandshake }
    let outcome : Outcome :=
      match answers.tls with
      | .ok =>
        { step.toggleWriteNotifier false with state := .sslConnected }.callback .tlsConnected []
      | .wantWrite => { socket := step.toggleWriteNotifier true }
      | .wantRead => { socket := step.toggleWriteNotifier false }
      | .closed => { socket := { step.toggleWriteNotifier false with state := .connected } }
      | .error => step.tlsFailed
    outcome.after [.tlsStep socket.sd answers.tls]
  else { socket := socket }

/-- `TLSsendGoodbye()`. -/
def tlsSendGoodbye (socket : Socket) (answers : Answers) : Outcome :=
  if socket.tls ∧ (socket.state = .sslConnected ∨ socket.state = .sslBye) then
    let step := { socket with state := .sslBye }
    let outcome : Outcome :=
      match answers.tls with
      | .ok =>
        { step.toggleWriteNotifier false with state := .connected }.callback .tlsDisconnected []
      | .wantWrite => { socket := step.toggleWriteNotifier true }
      | .wantRead => { socket := step.toggleWriteNotifier false }
      | .closed => { socket := { step.toggleWriteNotifier false with state := .connected } }
      | .error => step.tlsFailed
    outcome.after [.tlsBye socket.sd answers.tls]
  else { socket := socket }

/-- The states in which a transfer is allowed. -/
def transfers (socket : Socket) : Bool :=
  socket.state == .connected || socket.state == .sslConnected

/-- `state == SSLConnected && tls`. -/
def isSecure (socket : Socket) : Bool := socket.tls && socket.state == .sslConnected

def finished (socket : Socket) (reply : Reply) (acts : List Act) : Outcome :=
  { socket := socket, tasks := [.finish reply], acts := acts }

/-- A transfer outside a connection. -/
def notConnected (socket : Socket) (code : SocketError) : Outcome :=
  socket.callback (.error code (.text "Not connected")) [.finish (.count 0 none)]

/-- A TLS session that is lost in a transfer; the socket fails behind the callback. -/
def tlsLost (socket : Socket) (code : SocketError) (message : String) (result : Int) : Outcome :=
  socket.callback .tlsDisconnected [.transferFailed code message, .finish (.count result none)]

/-- A failed `send` or `recv` of a call that does not report it. -/
def plainFailed (socket : Socket) (errno : Errno) (code : SocketError) (result : Int) : Outcome :=
  if errno.retry then socket.finished (.count 0 none) []
  else
    { socket with state := .invalid }.disableMonitor.callback (.error code (.strerror errno))
      [.finish (.count result none)]

/-- `write(data, length)`. -/
def write (socket : Socket) (data : Bytes) (answers : Answers) : Outcome :=
  if ¬ socket.transfers then socket.notConnected .socketWrite
  else if socket.isSecure then
    match answers.tls with
    | .ok =>
      let count := min answers.tlsCount data.length
      socket.finished (.count count none) [.tlsSend socket.sd (data.take count)]
    | .wantWrite => (socket.toggleWriteNotifier true).finished (.count 0 none) []
    | .wantRead => socket.finished (.count 0 none) []
    | .closed => socket.tlsLost .socketWrite "FIXME: SSL/TLS send error" (-1)
    | .error => socket.tlsLost .socketWrite "FIXME: SSL/TLS send error" (-1)
  else
    let outcome :=
      match socket.send data answers.sent with
      | .count bytes => socket.finished (.count bytes none) []
      | .failed errno => socket.plainFailed errno .socketWrite (-1)
    outcome.after (socket.plainSent data)

/-- The end of a reporting write on the plain descriptor. -/
def plainWritten (socket : Socket) (data : Bytes) (answers : Answers) : Outcome :=
  let reply : Reply :=
    match socket.send data answers.sent with
    | .count bytes => .count bytes none
    | .failed errno => if errno.retry then .count 0 none else .count (-1) (some errno)
  socket.finished reply (socket.plainSent data)

/-- `write(data, length, ec)`. -/
def writeReporting (socket : Socket) (data : Bytes) (answers : Answers) : Outcome :=
  if ¬ socket.transfers then socket.finished (.count (-1) (some .notConnected)) []
  else if socket.isSecure then socket.write data answers
  else socket.plainWritten data answers

/-- The loop over the buffers of a vectored write under TLS, after `total` bytes. -/
def writeRecords (socket : Socket) (total : Nat) :
    List Bytes → List (TlsStatus × Nat) → Outcome
  | [], _ => socket.finished (.count total none) []
  | [] :: buffers, answers => writeRecords socket total buffers answers
  | buffer :: buffers, (.ok, accepted) :: answers =>
    let count := min accepted buffer.length
    if count < buffer.length then
      socket.finished (.count ↑(total + count) none) [.tlsSend socket.sd (buffer.take count)]
    else (writeRecords socket (total + count) buffers answers).after
      [.tlsSend socket.sd (buffer.take count)]
  | _ :: _, (.wantWrite, _) :: _ =>
    (socket.toggleWriteNotifier true).finished (.count total none) []
  | _ :: _, (.wantRead, _) :: _ => socket.finished (.count total none) []
  | _ :: _, (.closed, _) :: _ =>
    socket.tlsLost .socketWrite "FIXME: SSL/TLS send error" (if total = 0 then -1 else total)
  | _ :: _, (.error, _) :: _ =>
    socket.tlsLost .socketWrite "FIXME: SSL/TLS send error" (if total = 0 then -1 else total)
  | _ :: _, [] => socket.finished (.count total none) []

def maxIov : Nat := 64

/-- `write(buffers, ec)`. -/
def writeBuffers (socket : Socket) (buffers : List Bytes) (answers : Answers) : Outcome :=
  if ¬ socket.transfers then socket.finished (.count (-1) (some .notConnected)) []
  else if socket.isSecure then socket.writeRecords 0 buffers answers.tlsBuffers
  else
    let vector := (buffers.filter (· ≠ [])).take maxIov
    if vector = [] then socket.finished (.count 0 none) []
    else socket.plainWritten vector.flatten answers

/-- `read(data, length)`, and `peek()` but for the text and the result of a TLS failure. -/
def receive (socket : Socket) (length : Nat) (message : String) (failure : Int)
    (answers : Answers) : Outcome :=
  if ¬ socket.transfers then socket.notConnected .socketRead
  else if socket.isSecure then
    match answers.tls with
    | .ok =>
      let data := answers.tlsData.take length
      socket.finished (.count data.length none) [.tlsRecv socket.sd data]
    | .wantWrite => (socket.toggleWriteNotifier true).finished (.count 0 none) []
    | .wantRead => socket.finished (.count 0 none) []
    | .closed => socket.tlsLost .socketRead message failure
    | .error => socket.tlsLost .socketRead message failure
  else
    match socket.recv length answers.received with
    | .data bytes => socket.finished (.count bytes.length none) (socket.plainReceived bytes)
    | .failed errno => socket.plainFailed errno .socketRead 0

def read (socket : Socket) (length : Nat) (answers : Answers) : Outcome :=
  socket.receive length "FIXME: SSL/TLS read error" (-1) answers

def peek (socket : Socket) (length : Nat) (answers : Answers) : Outcome :=
  socket.receive length "SSL/TLS peek error" 0 answers

/-- `read(data, length, transferred, ec)`, and `peek()` of the same form. -/
def readReporting (socket : Socket) (length : Nat) (answers : Answers) : Outcome :=
  if ¬ socket.transfers then socket.finished (.read .error [] (some .notConnected)) []
  else if socket.isSecure then
    match answers.tls with
    | .ok =>
      let data := answers.tlsData.take length
      if data = [] then socket.finished (.read .endOfFile [] none) []
      else socket.finished (.read .ok data none) [.tlsRecv socket.sd data]
    | .wantWrite => (socket.toggleWriteNotifier true).finished (.read .wouldBlock [] none) []
    | .wantRead => socket.finished (.read .wouldBlock [] none) []
    | .closed => socket.finished (.read .endOfFile [] none) []
    | .error => socket.finished (.read .error [] (some .protocol)) []
  else
    match socket.recv length answers.received with
    | .data bytes =>
      if bytes = [] then socket.finished (.read .endOfFile [] none) []
      else socket.finished (.read .ok bytes none) (socket.plainReceived bytes)
    | .failed errno =>
      if errno.retry then socket.finished (.read .wouldBlock [] none) []
      else socket.finished (.read .error [] (some errno)) []

/-- `internal_canRead()` and `internal_canWrite()`, which differ in the event only. -/
def internalReady (socket : Socket) (event : SocketEvent) (answers : Answers) : Outcome :=
  if socket.state = .proxyHandshake then socket.internalProxyPump answers
  else if socket.transfers then socket.callback event [.resumeHandshake, .resumeGoodbye]
  else { socket := socket, tasks := [.resumeHandshake, .resumeGoodbye] }

/-- The `Read` part of `handleMonitorEvent()`. -/
def monitorRead (socket : Socket) (trig : Triggers) (answers : Answers) : Outcome :=
  if ¬ trig.read then { socket := socket }
  else
    match socket.state with
    | .connected =>
      match socket.recv 1 answers.received with
      | .data bytes =>
        if bytes = [] then socket.internalClosed
        else socket.internalReady .dataAvailable answers
      | .failed errno =>
        if errno = .again ∨ errno = .interrupted then { socket := socket }
        else socket.internalError errno
    | .proxyHandshake | .sslBye | .sslHandshake | .sslConnected =>
      socket.internalReady .dataAvailable answers
    | _ => { socket := socket }

/-- The `Write` part. -/
def monitorWrite (socket : Socket) (trig : Triggers) (answers : Answers) : Outcome :=
  if ¬ trig.write then { socket := socket }
  else
    match socket.state with
    | .connecting => socket.internalConnected answers
    | .proxyHandshake | .sslBye | .sslHandshake | .connected | .sslConnected =>
      socket.internalReady .canWrite answers
    | _ => { socket := socket }

/-- The `Error` and `Close` part. -/
def monitorError (socket : Socket) (trig : Triggers) (answers : Answers) : Outcome :=
  if ¬ (trig.error ∨ trig.close) then { socket := socket }
  else if socket.state = .invalid ∨ socket.state = .disconnected then { socket := socket }
  else if trig.error then socket.internalError (answers.soError.getD (.other 0))
  else socket.internalClosed

def setEventHandler (socket : Socket) (handler : Bool) : Socket :=
  let watched :=
    if !socket.eventHandler ∧ handler ∧ socket.sd.isSome then socket.setMonitor { read := true }
    else socket
  { watched with eventHandler := handler }

def setProxy (socket : Socket) (settings : ProxySettings) : Socket :=
  if socket.state ≠ .disconnected then socket else { socket with proxy := settings }

/-- The body of a call. -/
def Call.run (socket : Socket) (answers : Answers) : Call → Outcome
  | .lookup => socket.lookup
  | .connect => socket.connect answers
  | .disconnect => socket.disconnect
  | .close => { socket := socket.close }
  | .setProxy settings => { socket := socket.setProxy settings }
  | .setReuseLocalPort port =>
    { socket := { socket with reuseLocalPort := true, localPort := port } }
  | .setEventHandler handler => { socket := socket.setEventHandler handler }
  | .setMonitor triggers => { socket := socket.setMonitor triggers }
  | .disableMonitor => { socket := socket.disableMonitor }
  | .toggleWriteNotifier toggle => { socket := socket.toggleWriteNotifier toggle }
  | .write data => socket.write data answers
  | .writeReporting data => socket.writeReporting data answers
  | .writeBuffers buffers => socket.writeBuffers buffers answers
  | .read length => socket.read length answers
  | .readReporting length => socket.readReporting length answers
  | .peek length => socket.peek length answers
  | .peekReporting length => socket.readReporting length answers
  | .tlsInitialize _ =>
    let (started, next) := socket.tlsInitialize answers
    next.finished (.flag started) []
  | .tlsDeinit => { socket := { socket with tls := false } }
  | .tlsSendHandshake => socket.tlsSendHandshake answers
  | .tlsSendGoodbye => socket.tlsSendGoodbye answers

/-- The piece of an interrupted function that comes next. -/
def Task.run (socket : Socket) (answers : Answers) : Task → Outcome
  | .app _ => { socket := socket }
  | .monitorRead trig => socket.monitorRead trig answers
  | .monitorWrite trig => socket.monitorWrite trig answers
  | .monitorError trig => socket.monitorError trig answers
  | .resumeHandshake =>
    if socket.state = .sslHandshake then socket.tlsSendHandshake answers else { socket := socket }
  | .resumeGoodbye =>
    if socket.state = .sslBye then socket.tlsSendGoodbye answers else { socket := socket }
  | .disableMonitor => { socket := socket.disableMonitor }
  | .close => { socket := socket.close }
  | .lookupPeer => socket.lookupPeer answers
  | .connectAfterLookup =>
    if socket.autoConnectAfterLookup then socket.connect answers else { socket := socket }
  | .clearDnsevent which =>
    match socket.host which with
    | none => { socket := socket }
    | some host => { socket := socket.setHost which { host with dnsevent := false } }
  | .transferFailed code message =>
    { socket with state := .invalid }.disableMonitor.callback (.error code (.text message)) []
  | .finish reply => { socket := socket, acts := [.returned reply] }

/-- The socket and the functions that are on the call stack. -/
structure Config where
  socket : Socket
  stack : List Task := []
  deriving DecidableEq

/-- Control is with the event loop or with the application. -/
def yields : List Task → Bool
  | [] => true
  | .app _ :: _ => true
  | _ => false

inductive Label where
  | resume (answers : Answers)
  | back
  | call (call : Call) (answers : Answers)
  | monitor (trig : Triggers)
  | timeout
  | found (which : LookupTarget) (ip : IpAddress) (answers : Answers)
  | notFound (which : LookupTarget)
  deriving DecidableEq

def Outcome.on (outcome : Outcome) (stack : List Task) (acts : List Act) :
    Option (Config × List Act) :=
  some (⟨outcome.socket, outcome.tasks ++ stack⟩, acts ++ outcome.acts)

/-- The request of a lookup that is out. -/
def asked (socket : Socket) (which : LookupTarget) : Option (Host × Bytes) :=
  match socket.host which with
  | none => none
  | some host => host.request.map fun name => (host, name)

/-- One step: the code goes on, the callback returns, or the application or the event
loop enters the socket. -/
def step (config : Config) (label : Label) : Option (Config × List Act) :=
  match label, config.stack with
  | .back, .app _ :: rest => some (⟨config.socket, rest⟩, [])
  | .back, _ => none
  | .resume _, [] => none
  | .resume _, .app _ :: _ => none
  | .resume answers, task :: rest => (task.run config.socket answers).on rest []
  | .call call answers, stack =>
    if yields stack then
      (call.run config.socket answers).on stack [.called call config.socket.sd]
    else none
  | .monitor trig, stack =>
    if yields stack then
      some (⟨config.socket,
        [.monitorRead trig, .monitorWrite trig, .monitorError trig] ++ stack⟩, [])
    else none
  | .timeout, stack =>
    if yields stack ∧ config.socket.timer then config.socket.eventTimeout.on stack [] else none
  | .found which ip answers, stack =>
    match config.socket.asked which with
    | none => none
    | some (host, name) =>
      if yields stack then
        (config.socket.addressFound which host ip answers).on stack [.resolved name ip]
      else none
  | .notFound which, stack =>
    match config.socket.asked which with
    | none => none
    | some (host, _) =>
      if yields stack then (config.socket.addressNotFound which host).on stack [] else none

/-- `Socket(eh, address, port)`; the settings are the process default. -/
def ofName (eventHandler : Bool) (address : Bytes) (port : UInt16) (settings : ProxySettings) :
    Socket :=
  { address := some { inet := InetAddress.ofString address }
    port := port, eventHandler := eventHandler, proxy := settings }

/-- `Socket(eh, const InetAddress&, port)`. -/
def ofAddress (eventHandler : Bool) (address : InetAddress) (port : UInt16)
    (settings : ProxySettings) : Socket :=
  { address := some { inet := address }
    port := port, eventHandler := eventHandler, proxy := settings }

/-- `Socket(sd, addr)`, for an accepted connection. -/
def accepted (peer : SocketAddress) : Socket :=
  { address := none, port := 0, addr := some peer, state := .connected, sd := some 0, opened := 1
    eventHandler := false, outbound := false }

/-- A socket as its constructors make it. -/
inductive Constructed : Socket → Prop where
  | ofName (eventHandler : Bool) (address : Bytes) (port : UInt16) (settings : ProxySettings) :
      Constructed (.ofName eventHandler address port settings)
  | ofAddress (eventHandler : Bool) (address : InetAddress) (port : UInt16)
      (settings : ProxySettings) : Constructed (.ofAddress eventHandler address port settings)
  | accepted (peer : SocketAddress) : Constructed (.accepted peer)

end Socket

end SamuraiFormal.Net
