import SamuraiFormal.Net.InetAddress

/-!
# The SOCKS5 handshake

`ProxySettings` and `Socks5Handshake`: bytes in, bytes out, no socket.  The
handshake is a value; each method returns the handshake it leaves.
-/

namespace SamuraiFormal.Net

open Util

inductive SocketError where
  | connectionTimeout
  | connectionRefused
  | hostUnreachable
  | hostDown
  | hostNotFound
  | netDown
  | netUnreachable
  | socketRead
  | socketWrite
  | socketAccept
  | proxyAuthFailed
  | proxyRefused
  | proxyProtocol
  | socketUnknown
  deriving DecidableEq, Repr

/-- `ProxySettings`; `enabled` is `kind != Kind::None`. -/
structure ProxySettings where
  enabled : Bool := false
  host : Bytes := []
  port : UInt16 := 0
  username : Bytes := []
  password : Bytes := []
  torExtensions : Bool := false
  allowPrivate : Bool := false
  deriving DecidableEq, Repr

namespace ProxySettings

/-- `ProxySettings(host, port)`: without a host or a port there is no proxy. -/
def create (host : Bytes) (port : UInt16) : ProxySettings :=
  if host = [] ∨ port = 0 then {} else { enabled := true, host := host, port := port }

def hasCredentials (settings : ProxySettings) : Bool :=
  settings.username != [] || settings.password != []

end ProxySettings

namespace Socks5

inductive Command where
  | connect
  | resolve
  | resolvePtr
  deriving DecidableEq, Repr

def Command.octet : Command → UInt8
  | .connect => 0x01
  | .resolve => 0xF0
  | .resolvePtr => 0xF1

inductive Status where
  | needWrite
  | needRead
  | done
  | failed
  deriving DecidableEq, Repr

inductive Step where
  | methodReply
  | authReply
  | replyHead
  | replyAddrLen
  | replyAddr
  | replyPort
  deriving DecidableEq, Repr

/-- `Socks5Handshake::Result`; the address is unset until a reply carries one. -/
structure Result where
  reply : UInt8 := 0
  address : Option IpAddress := none
  name : Bytes := []
  port : UInt16 := 0
  deriving DecidableEq

end Socks5

structure Socks5Handshake where
  settings : ProxySettings
  command : Socks5.Command
  target : Bytes
  targetPort : UInt16
  status : Socks5.Status := .needWrite
  step : Socks5.Step := .methodReply
  out : Bytes := []
  outSent : Nat := 0
  request : Bytes := []
  input : Bytes := []
  need : Nat := 0
  method : UInt8 := 0
  replyAtyp : UInt8 := 0
  result : Socks5.Result := {}
  error : SocketError := .socketUnknown
  errorMessage : String := ""
  deriving DecidableEq

/-- `htons`, as the two octets on the wire. -/
def portOctets (port : UInt16) : Bytes :=
  [UInt8.ofNat (port.toNat / 256), UInt8.ofNat (port.toNat % 256)]

/-- `ntohs` of two octets. -/
def portValue (high low : UInt8) : UInt16 := UInt16.ofNat (high.toNat * 256 + low.toNat)

namespace Socks5Handshake

open Socks5

def atypIPv4 : UInt8 := 0x01

def atypDomain : UInt8 := 0x03

def atypIPv6 : UInt8 := 0x04

/-- `classify_reply()`. -/
def classifyReply (reply : UInt8) : SocketError × String :=
  if reply = 0x01 then (.socketUnknown, "Proxy reported a general failure")
  else if reply = 0x02 then (.proxyRefused, "Proxy policy does not allow this connection")
  else if reply = 0x03 then (.netUnreachable, "Network is unreachable from the proxy")
  else if reply = 0x04 then (.hostUnreachable, "Host is unreachable from the proxy")
  else if reply = 0x05 then (.connectionRefused, "Connection refused")
  else if reply = 0x06 then (.connectionTimeout, "TTL expired")
  else if reply = 0x07 then (.proxyRefused, "Proxy does not support the requested command")
  else if reply = 0x08 then
    (.proxyRefused, "Proxy does not support the requested address type")
  else (.proxyRefused, "Proxy refused the request")

/-- `is_local_address()`. -/
def isLocalAddress (address : IpAddress) : Bool :=
  !address.isValid || address.isLoopback || address.isPrivate || address.isLinkLocal ||
    address.isMulticast

/-- `is_local_name()`. -/
def isLocalName (name : Bytes) : Bool :=
  if iequals name (ascii "localhost") then true
  else
    match rfind name 46 with
    | none => false
    | some dot =>
      iequals (name.drop dot) (ascii ".local") || iequals (name.drop dot) (ascii ".localhost")

def fail (handshake : Socks5Handshake) (code : SocketError) (message : String) :
    Socks5Handshake :=
  { handshake with
    status := .failed, error := code, errorMessage := message, out := [], outSent := 0, need := 0 }

def expect (handshake : Socks5Handshake) (next : Step) (bytes : Nat) : Socks5Handshake :=
  { handshake with step := next, need := bytes, input := [], status := .needRead }

def queue (handshake : Socks5Handshake) (bytes : Bytes) : Socks5Handshake :=
  { handshake with out := bytes, outSent := 0, status := .needWrite }

/-- The greeting: no authentication, and username/password if there is one to send. -/
def greeting (settings : ProxySettings) : Bytes :=
  if settings.hasCredentials then [0x05, 2, 0x00, 0x02] else [0x05, 1, 0x00]

/-- The credentials as RFC 1929 frames them. -/
def credentials (settings : ProxySettings) : Bytes :=
  [0x01, UInt8.ofNat settings.username.length] ++ settings.username ++
    [UInt8.ofNat settings.password.length] ++ settings.password

def encodeGreeting (handshake : Socks5Handshake) : Socks5Handshake :=
  handshake.queue (greeting handshake.settings)

def encodeAuth (handshake : Socks5Handshake) : Socks5Handshake :=
  handshake.queue (credentials handshake.settings)

/-- The address part of the request: its type octet and its octets. -/
def requestAddress (target : Bytes) : Option IpAddress → Bytes
  | some (.v4 octets) => atypIPv4 :: octets.val
  | some (.v6 octets) => atypIPv6 :: octets.val
  | none => [atypDomain, UInt8.ofNat target.length] ++ target

/-- `encodeRequest()`, with the bool it returns. -/
def encodeRequest (handshake : Socks5Handshake) : Bool × Socks5Handshake :=
  let address := (InetAddress.ofString handshake.target).ip
  if !handshake.settings.allowPrivate ∧ address.any isLocalAddress then
    (false, handshake.fail .proxyRefused
      "Refusing to ask a proxy for a peer on the local network")
  else if !handshake.settings.allowPrivate ∧ address = none ∧ isLocalName handshake.target then
    (false, handshake.fail .proxyRefused
      "Refusing to ask a proxy for a peer on the local network")
  else if address = none ∧ handshake.command = .resolvePtr then
    (false, handshake.fail .proxyProtocol "A reverse lookup needs an address, not a name")
  else
    (true, { handshake with
      request := [0x05, handshake.command.octet, 0x00] ++
        requestAddress handshake.target address ++ portOctets handshake.targetPort })

/-- The constructor. -/
def create (settings : ProxySettings) (command : Command) (target : Bytes) (port : UInt16) :
    Socks5Handshake :=
  let handshake : Socks5Handshake :=
    { settings := settings, command := command, target := target, targetPort := port }
  if target = [] then handshake.fail .proxyProtocol "No peer to ask the proxy for"
  else if 255 < target.length then
    handshake.fail .proxyProtocol "Peer name is too long for SOCKS5"
  else if 255 < settings.username.length ∨ 255 < settings.password.length then
    handshake.fail .proxyProtocol "Proxy credential is too long for SOCKS5"
  else
    match handshake.encodeRequest with
    | (false, refused) => refused
    | (true, encoded) => encoded.encodeGreeting

def outgoing (handshake : Socks5Handshake) : Bytes := handshake.out.drop handshake.outSent

/-- `consumeOutgoing()`, of no more bytes than `outgoing()` offers: the sum cannot wrap. -/
def consumeOutgoing (handshake : Socks5Handshake) (length : Nat) : Socks5Handshake :=
  if handshake.status ≠ .needWrite then handshake
  else
    let sent := min (handshake.outSent + length) handshake.out.length
    let moved := { handshake with outSent := sent }
    if sent < handshake.out.length then moved
    else
      match handshake.step with
      | .methodReply => moved.expect .methodReply 2
      | .authReply => moved.expect .authReply 2
      | _ => moved.expect .replyHead 4

def wanted (handshake : Socks5Handshake) : Nat :=
  if handshake.status ≠ .needRead then 0 else handshake.need - handshake.input.length

/-- The `MethodReply` case of `consumeStep()`. -/
def methodReply (handshake : Socks5Handshake) : Bytes → Bool × Socks5Handshake
  | version :: method :: _ =>
    if version ≠ 0x05 then
      (false, handshake.fail .proxyProtocol "Proxy is not a SOCKS5 proxy")
    else
      let chosen := { handshake with method := method }
      if method = 0xFF then
        (false, chosen.fail .proxyAuthFailed
          "Proxy accepts no authentication method we offered")
      else if method = 0x00 then
        (true, { chosen.queue chosen.request with step := .replyHead })
      else if method = 0x02 ∧ chosen.settings.hasCredentials then
        (true, { chosen.encodeAuth with step := .authReply })
      else
        (false, chosen.fail .proxyProtocol
          "Proxy chose an authentication method that was not offered")
  | _ => (false, handshake)

/-- The `AuthReply` case. -/
def authReply (handshake : Socks5Handshake) : Bytes → Bool × Socks5Handshake
  | version :: verdict :: _ =>
    if version ≠ 0x01 then
      (false, handshake.fail .proxyProtocol
        "Proxy answered the credentials with the wrong version")
    else if verdict ≠ 0x00 then
      (false, handshake.fail .proxyAuthFailed "Proxy rejected the credentials")
    else (true, { handshake.queue handshake.request with step := .replyHead })
  | _ => (false, handshake)

/-- The `ReplyHead` case; a failed request is still read to the end of its reply. -/
def replyHead (handshake : Socks5Handshake) : Bytes → Bool × Socks5Handshake
  | version :: reply :: _ :: atyp :: _ =>
    if version ≠ 0x05 then
      (false, handshake.fail .proxyProtocol "Proxy reply is not SOCKS5")
    else
      let known := { handshake with
        result := { handshake.result with reply := reply }, replyAtyp := atyp }
      if atyp = atypIPv4 then (true, known.expect .replyAddr 4)
      else if atyp = atypIPv6 then (true, known.expect .replyAddr 16)
      else if atyp = atypDomain then (true, known.expect .replyAddrLen 1)
      else (false, known.fail .proxyProtocol "Proxy reply has an unknown address type")
  | _ => (false, handshake)

/-- The `ReplyAddrLen` case. -/
def replyAddrLen (handshake : Socks5Handshake) : Bytes → Bool × Socks5Handshake
  | length :: _ =>
    if length = 0 then
      (false, handshake.fail .proxyProtocol "Proxy reply has an empty name")
    else (true, handshake.expect .replyAddr length.toNat)
  | [] => (false, handshake)

/-- The `ReplyAddr` case. -/
def replyAddr (handshake : Socks5Handshake) (data : Bytes) : Bool × Socks5Handshake :=
  if handshake.replyAtyp = atypIPv4 then
    if enough : 4 ≤ data.length then
      let address := IpAddress.v4 ⟨data.take 4, List.length_take_of_le enough⟩
      (true, { handshake with result := { handshake.result with address := some address } }.expect
        .replyPort 2)
    else (false, handshake)
  else if handshake.replyAtyp = atypIPv6 then
    if enough : 16 ≤ data.length then
      let address := IpAddress.v6 ⟨data.take 16, List.length_take_of_le enough⟩
      (true, { handshake with result := { handshake.result with address := some address } }.expect
        .replyPort 2)
    else (false, handshake)
  else
    (true, { handshake with result := { handshake.result with name := data } }.expect
      .replyPort 2)

/-- The `ReplyPort` case. -/
def replyPort (handshake : Socks5Handshake) : Bytes → Bool × Socks5Handshake
  | high :: low :: _ =>
    let ended : Socks5Handshake := { handshake with
      result := { handshake.result with port := portValue high low }, input := [], need := 0 }
    if ended.result.reply ≠ 0x00 then
      let (code, message) := classifyReply ended.result.reply
      (false, ended.fail code message)
    else (false, { ended with status := .done })
  | _ => (false, handshake)

/-- `consumeStep()`, with the bool it returns. -/
def consumeStep (handshake : Socks5Handshake) (data : Bytes) : Bool × Socks5Handshake :=
  match handshake.step with
  | .methodReply => handshake.methodReply data
  | .authReply => handshake.authReply data
  | .replyHead => handshake.replyHead data
  | .replyAddrLen => handshake.replyAddrLen data
  | .replyAddr => handshake.replyAddr data
  | .replyPort => handshake.replyPort data

/-- Bytes of a step accumulate in `in`. -/
def fill (handshake : Socks5Handshake) (bytes : Bytes) : Socks5Handshake :=
  { handshake with input := handshake.input ++ bytes }

/-- The `while` loop of `feed()` over the data not yet consumed. -/
def feedLoop : Nat → Socks5Handshake → Bytes → Nat → Socks5Handshake × Nat
  | 0, handshake, _, consumed => (handshake, consumed)
  | fuel + 1, handshake, data, consumed =>
    if handshake.status = .needRead ∧ 0 < data.length then
      let missing := handshake.need - handshake.input.length
      let take := if data.length < missing then data.length else missing
      let filled := handshake.fill (data.take take)
      if filled.input.length < filled.need then (filled, consumed + take)
      else
        let next := filled.consumeStep filled.input
        if next.1 then feedLoop fuel next.2 (data.drop take) (consumed + take)
        else (next.2, consumed + take)
    else (handshake, consumed)

/-- `feed()`: the handshake and how many bytes it consumed.  A pass of the loop takes at
least one byte, since fewer bytes are buffered than needed whenever the status is
`NeedRead`. -/
def feed (handshake : Socks5Handshake) (data : Bytes) : Socks5Handshake × Nat :=
  feedLoop data.length handshake data 0

/-- `closed()`: the proxy hung up. -/
def closed (handshake : Socks5Handshake) : Socks5Handshake :=
  if handshake.status = .done ∨ handshake.status = .failed then handshake
  else handshake.fail .proxyProtocol "Proxy closed the connection during the handshake"

end Socks5Handshake

end SamuraiFormal.Net
