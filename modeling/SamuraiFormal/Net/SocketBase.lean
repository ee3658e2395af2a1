import SamuraiFormal.Net.Socket

/-!
# The base of a socket

`SocketBase` holds the descriptor of a socket and speaks to the socket monitor, which has a
registry of sockets by descriptor.  The socket does both through four functions of its
base.  `baseCalls` are the calls that a step of the socket makes, in their order, and a
`Watched` socket is one that runs beside its base.
-/

namespace SamuraiFormal.Net

open Util

/-- The descriptor of a socket and its flag `monitored`.  Around them: the descriptors it
was given that are still open, and those under which the monitor's registry has it. -/
structure SocketBase where
  sd : Option Nat := none
  monitored : Bool := false
  descriptors : List Nat := []
  registry : List Nat := []
  deriving DecidableEq

namespace SocketMonitor

/-- `SocketMonitor::add()`, which does nothing for a socket without a descriptor. -/
def add (base : SocketBase) : SocketBase :=
  match base.sd with
  | none => base
  | some sd => { base with registry := base.registry.insert sd }

/-- `SocketMonitor::remove()`, under the descriptor of the moment. -/
def remove (base : SocketBase) : SocketBase :=
  match base.sd with
  | none => base
  | some sd => { base with registry := base.registry.erase sd }

/-- `SocketMonitor::modify()`: the registry stays as it is. -/
def modify (base : SocketBase) : SocketBase := base

end SocketMonitor

namespace SocketBase

/-- `createDescriptor()`, with what `::socket` returns. -/
def createDescriptor (base : SocketBase) (sd : Option Nat) : SocketBase :=
  { base with sd := sd, descriptors := sd.toList ++ base.descriptors }

def setMonitor (base : SocketBase) : SocketBase :=
  if base.monitored then SocketMonitor.modify base
  else { SocketMonitor.add base with monitored := true }

def disableMonitor (base : SocketBase) : SocketBase :=
  if base.monitored then { SocketMonitor.remove base with monitored := false } else base

def close (base : SocketBase) : SocketBase :=
  match base.sd with
  | none => base
  | some sd =>
    { base.disableMonitor with sd := none, descriptors := base.descriptors.erase sd }

end SocketBase

/-- A call of the socket into its base. -/
inductive BaseCall where
  | createDescriptor (sd : Option Nat)
  | setMonitor
  | disableMonitor
  | close
  deriving DecidableEq

def BaseCall.run (base : SocketBase) : BaseCall → SocketBase
  | .createDescriptor sd => base.createDescriptor sd
  | .setMonitor => base.setMonitor
  | .disableMonitor => base.disableMonitor
  | .close => base.close

def BaseCall.isCreate : BaseCall → Bool
  | .createDescriptor _ => true
  | _ => false

def SocketBase.perform (base : SocketBase) (calls : List BaseCall) : SocketBase :=
  calls.foldl BaseCall.run base

/-- A descriptor is asked for among these calls. -/
def creates (calls : List BaseCall) : Bool := calls.any BaseCall.isCreate

namespace Socket

/-! ## The calls of the functions

One list for each function of the socket that calls its base, with the branches of the
function. -/

def internalProxyPumpCalls (socket : Socket) (answers : Answers) : List BaseCall :=
  match socket.handshake with
  | none => []
  | some handshake =>
    let pumped := socket.runPump handshake answers
    match pumped.ec with
    | some _ => []
    | none =>
      match pumped.handshake.status with
      | .failed => [.setMonitor, .close]
      | .done => [.setMonitor, .setMonitor]
      | _ => [.setMonitor]

def internalConnectedCalls (socket : Socket) (answers : Answers) : List BaseCall :=
  match socket.pendingError answers with
  | some _ => [.close]
  | none =>
    if socket.isProxied ∧ socket.handshake.isSome then
      { socket with state := .proxyHandshake }.internalProxyPumpCalls answers
    else [.setMonitor]

def startConnectCalls (socket : Socket) (answers : Answers) : List BaseCall :=
  let armed := { socket.toggleWriteNotifier true with timer := true }
  match answers.connect with
  | some .inProgress => [.setMonitor]
  | some _ => [.setMonitor, .disableMonitor]
  | none => .setMonitor :: armed.internalConnectedCalls answers

def internalConnectAddrCalls (socket : Socket) (answers : Answers) : List BaseCall :=
  match socket.addr with
  | none => []
  | some _ =>
    match socket.openDescriptor answers with
    | (failed, some _) => [.createDescriptor failed.sd, .disableMonitor]
    | (ready, none) => .createDescriptor ready.sd :: ready.startConnectCalls answers

def eventHostFoundCalls (socket : Socket) (resolved : InetAddress) (answers : Answers) :
    List BaseCall :=
  match socket.lookupTarget with
  | .proxy =>
    { socket with addr := some ⟨resolved.ip, socket.proxy.port⟩, lookupTarget := .peer
      }.internalConnectAddrCalls answers
  | .peer => []

def addressFoundCalls (socket : Socket) (which : LookupTarget) (host : Host) (ip : IpAddress)
    (answers : Answers) : List BaseCall :=
  let inet := { host.inet with ip := some ip, resolveState := .resolved }
  if host.dnsevent then (socket.setHost which { inet := inet }).eventHostFoundCalls inet answers
  else []

/-- `Socket::EventHostError()` is reached if the address listens. -/
def addressNotFoundCalls (host : Host) : List BaseCall :=
  if host.dnsevent then [.disableMonitor] else []

def addressLookupCalls (socket : Socket) (which : LookupTarget) (host : Host)
    (answers : Answers) : List BaseCall :=
  if host.inet.resolveState = .resolved then
    (socket.setHost which { host with dnsevent := false }).eventHostFoundCalls host.inet answers
  else if cString host.inet.hostname ≠ [] ∧ answers.asked then []
  else [.disableMonitor]

def lookupPeerCalls (socket : Socket) (answers : Answers) : List BaseCall :=
  match socket.address with
  | none => []
  | some host => socket.addressLookupCalls .peer host answers

def internalConnectProxyCalls (socket : Socket) (answers : Answers) : List BaseCall :=
  let handshake :=
    Socks5Handshake.create socket.proxy .connect socket.getPeerName socket.port
  if handshake.status = .failed then [.close]
  else
    let host := socket.proxyAddress.getD { inet := InetAddress.ofString socket.proxy.host }
    let placed := { socket with handshake := some handshake, proxyAddress := some host }
    if host.inet.isResolved then
      { placed with addr := some ⟨host.inet.ip, socket.proxy.port⟩
        }.internalConnectAddrCalls answers
    else { placed with lookupTarget := .proxy }.addressLookupCalls .proxy host answers

def connectCalls (socket : Socket) (answers : Answers) : List BaseCall :=
  if ¬ (socket.state = .disconnected ∨ socket.state = .hostFound) then []
  else if socket.isProxied then socket.internalConnectProxyCalls answers
  else if socket.addr = none then []
  else socket.internalConnectAddrCalls answers

/-- The states of a connection that is there or being made. -/
def isLive : SocketState → Bool
  | .connecting => true
  | .proxyHandshake => true
  | .connected => true
  | .sslHandshake => true
  | .sslConnected => true
  | .sslBye => true
  | _ => false

/-- `disconnect()` closes behind its callback, or at once if there is none to make. -/
def disconnectCalls (socket : Socket) : List BaseCall :=
  if isLive socket.state then [] else [.close]

def eventTimeoutCalls (socket : Socket) : List BaseCall :=
  if socket.state = .connecting ∨ socket.state = .proxyHandshake then [.close] else []

/-- A step of the TLS handshake or of the goodbye. -/
def tlsStepCalls : TlsStatus → List BaseCall
  | .error => [.setMonitor, .close]
  | _ => [.setMonitor]

def tlsSendHandshakeCalls (socket : Socket) (answers : Answers) : List BaseCall :=
  if socket.tls ∧ (socket.state = .connected ∨ socket.state = .sslHandshake) then
    tlsStepCalls answers.tls
  else []

def tlsSendGoodbyeCalls (socket : Socket) (answers : Answers) : List BaseCall :=
  if socket.tls ∧ (socket.state = .sslConnected ∨ socket.state = .sslBye) then
    tlsStepCalls answers.tls
  else []

/-- A transfer under TLS asks for the write notifier if the session wants to write. -/
def tlsTransferCalls : TlsStatus → List BaseCall
  | .wantWrite => [.setMonitor]
  | _ => []

def plainFailedCalls (errno : Errno) : List BaseCall :=
  if errno.retry then [] else [.disableMonitor]

def writeCalls (socket : Socket) (data : Bytes) (answers : Answers) : List BaseCall :=
  if ¬ socket.transfers then []
  else if socket.isSecure then tlsTransferCalls answers.tls
  else
    match socket.send data answers.sent with
    | .count _ => []
    | .failed errno => plainFailedCalls errno

def writeReportingCalls (socket : Socket) (data : Bytes) (answers : Answers) : List BaseCall :=
  if ¬ socket.transfers then []
  else if socket.isSecure then socket.writeCalls data answers
  else []

def writeRecordsCalls : List Bytes → List (TlsStatus × Nat) → List BaseCall
  | [], _ => []
  | [] :: buffers, answers => writeRecordsCalls buffers answers
  | buffer :: buffers, (.ok, accepted) :: answers =>
    if min accepted buffer.length < buffer.length then [] else writeRecordsCalls buffers answers
  | _ :: _, (.wantWrite, _) :: _ => [.setMonitor]
  | _ :: _, _ => []

def writeBuffersCalls (socket : Socket) (buffers : List Bytes) (answers : Answers) :
    List BaseCall :=
  if ¬ socket.transfers then []
  else if socket.isSecure then writeRecordsCalls buffers answers.tlsBuffers
  else []

def receiveCalls (socket : Socket) (length : Nat) (answers : Answers) : List BaseCall :=
  if ¬ socket.transfers then []
  else if socket.isSecure then tlsTransferCalls answers.tls
  else
    match socket.recv length answers.received with
    | .data _ => []
    | .failed errno => plainFailedCalls errno

def readReportingCalls (socket : Socket) (answers : Answers) : List BaseCall :=
  if ¬ socket.transfers then []
  else if socket.isSecure then tlsTransferCalls answers.tls
  else []

/-- Of `internal_canRead()` and `internal_canWrite()`. -/
def internalReadyCalls (socket : Socket) (answers : Answers) : List BaseCall :=
  if socket.state = .proxyHandshake then socket.internalProxyPumpCalls answers else []

def monitorReadCalls (socket : Socket) (trig : Triggers) (answers : Answers) : List BaseCall :=
  if ¬ trig.read then [] else socket.internalReadyCalls answers

def monitorWriteCalls (socket : Socket) (trig : Triggers) (answers : Answers) : List BaseCall :=
  if ¬ trig.write then []
  else if socket.state = .connecting then socket.internalConnectedCalls answers
  else socket.internalReadyCalls answers

def setEventHandlerCalls (socket : Socket) (handler : Bool) : List BaseCall :=
  if !socket.eventHandler ∧ handler ∧ socket.sd.isSome then [.setMonitor] else []

def Call.baseCalls (socket : Socket) (answers : Answers) : Call → List BaseCall
  | .lookup => []
  | .connect => socket.connectCalls answers
  | .disconnect => socket.disconnectCalls
  | .close => [.close]
  | .setProxy _ => []
  | .setReuseLocalPort _ => []
  | .setEventHandler handler => socket.setEventHandlerCalls handler
  | .setMonitor _ => [.setMonitor]
  | .disableMonitor => [.disableMonitor]
  | .toggleWriteNotifier _ => [.setMonitor]
  | .write data => socket.writeCalls data answers
  | .writeReporting data => socket.writeReportingCalls data answers
  | .writeBuffers buffers => socket.writeBuffersCalls buffers answers
  | .read length => socket.receiveCalls length answers
  | .readReporting _ => socket.readReportingCalls answers
  | .peek length => socket.receiveCalls length answers
  | .peekReporting _ => socket.readReportingCalls answers
  | .tlsInitialize _ => []
  | .tlsDeinit => []
  | .tlsSendHandshake => socket.tlsSendHandshakeCalls answers
  | .tlsSendGoodbye => socket.tlsSendGoodbyeCalls answers

def Task.baseCalls (socket : Socket) (answers : Answers) : Task → List BaseCall
  | .monitorRead trig => socket.monitorReadCalls trig answers
  | .monitorWrite trig => socket.monitorWriteCalls trig answers
  | .resumeHandshake =>
    if socket.state = .sslHandshake then socket.tlsSendHandshakeCalls answers else []
  | .resumeGoodbye => if socket.state = .sslBye then socket.tlsSendGoodbyeCalls answers else []
  | .disableMonitor => [.disableMonitor]
  | .close => [.close]
  | .lookupPeer => socket.lookupPeerCalls answers
  | .connectAfterLookup => if socket.autoConnectAfterLookup then socket.connectCalls answers else []
  | .transferFailed _ _ => [.disableMonitor]
  | _ => []

/-- The calls of a step into the base. -/
def baseCalls (config : Config) (label : Label) : List BaseCall :=
  match label, config.stack with
  | .resume answers, task :: _ => task.baseCalls config.socket answers
  | .call call answers, _ => call.baseCalls config.socket answers
  | .timeout, _ => config.socket.eventTimeoutCalls
  | .found which ip answers, _ =>
    match config.socket.asked which with
    | none => []
    | some (host, _) => config.socket.addressFoundCalls which host ip answers
  | .notFound which, _ =>
    match config.socket.asked which with
    | none => []
    | some (host, _) => addressNotFoundCalls host
  | _, _ => []

structure Watched where
  config : Config
  base : SocketBase
  deriving DecidableEq

def Watched.step (watched : Watched) (label : Label) : Option (Watched × List Act) :=
  match Socket.step watched.config label with
  | none => none
  | some (next, acts) =>
    some (⟨next, watched.base.perform (baseCalls watched.config label)⟩, acts)

/-- The base of an accepted socket holds the descriptor it was made from. -/
def acceptedBase : SocketBase := { sd := some 0, descriptors := [0] }

end Socket

end SamuraiFormal.Net
