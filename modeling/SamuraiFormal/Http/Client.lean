import SamuraiFormal.Http.Response
import SamuraiFormal.Net.Socket
import SamuraiFormal.Net.Url

/-!
# The HTTP client

`Client` together with the sockets it has opened.  The client is the event handler of its
sockets, and its application is called back in the middle of its functions, so there is
one call stack for all three.  A step runs the piece of code on top of the stack up to the
next call that can be interrupted; where control is with the event loop or with the
application, a step is an event or a call.  The socket that an old request used stays in
the list without a handler, as long as something holds it.

Requests are numbered in the order of the calls of `request()`.  The numbers are not part
of the program: they say, in the acts of a step, which request an outcome is for and which
one it came from.
-/

namespace SamuraiFormal.Http

open Util
open Net

inductive Method where
  | get
  | post
  | head
  deriving DecidableEq, Repr

def Method.toString : Method → Bytes
  | .get => ascii "GET"
  | .post => ascii "POST"
  | .head => ascii "HEAD"

def Status.toString : Status → String
  | .ok => "ok"
  | .invalidUrl => "not a usable URL"
  | .connectFailed => "could not connect"
  | .connectTimeout => "connection timed out"
  | .requestTimeout => "no response before the deadline"
  | .disconnected => "the peer closed early"
  | .malformedResponse => "malformed response"
  | .responseTooLarge => "response too large"
  | .tlsFailed => "the TLS handshake failed"
  | .tooManyRedirects => "too many redirects"
  | .insecureRedirect => "redirected from https to http"
  | .aborted => "abandoned"

/-- `Client::Options`, as far as the client looks at them. -/
structure Options where
  limits : Limits := {}
  userAgent : Bytes := []
  maxRedirects : Nat := 0
  proxy : Option ProxySettings := none
  deriving DecidableEq

/-- What is asked of a server: `current_method`, `current_url`, `current_extra` and
`current_body`. -/
structure Request where
  method : Method := .get
  url : Url := ⟨[]⟩
  extra : Headers := {}
  body : Bytes := []
  deriving DecidableEq

/-- `Client`.  Its socket is a position in the list of connections. -/
structure Client where
  options : Options := {}
  socket : Option Nat := none
  deadline : Bool := false
  outgoing : Bytes := []
  incoming : Bytes := []
  parser : ResponseParser := {}
  busy : Bool := false
  reported : Bool := false
  secure : Bool := false
  handshaking : Bool := false
  request : Request := {}
  redirectsFollowed : Nat := 0
  deriving DecidableEq

/-- A socket with the request it was opened for and the number of that request. -/
structure Connection where
  socket : Socket
  owner : Nat
  request : Request
  deriving DecidableEq

namespace Request

/-- `host_header()`. -/
def hostHeader (url : Url) : Bytes :=
  (if colon ∈ url.getHostname then 91 :: url.getHostname ++ [93] else url.getHostname) ++
  (if url.getEffectivePort ≠ 0 ∧ url.getEffectivePort ≠ Url.getDefaultPort url.getScheme then
    colon :: numberText 10 url.getEffectivePort.toNat
  else [])

/-- The fields that the client supplies. -/
def supplied (request : Request) (options : Options) : Headers :=
  let named := (Headers.set {} (ascii "Host") (hostHeader request.url)).set
    (ascii "Connection") (ascii "close")
  let agent :=
    if options.userAgent ≠ [] then named.set (ascii "User-Agent") options.userAgent else named
  if request.body ≠ [] ∨ request.method = .post then
    agent.set (ascii "Content-Length") (numberText 10 request.body.length)
  else agent

/-- The fields that are sent: what the caller named replaces what was supplied. -/
def headers (request : Request) (options : Options) : Headers :=
  request.extra.fields.foldl (fun headers field => headers.set field.1 field.2)
    (request.supplied options)

/-- The text of the request. -/
def text (request : Request) (options : Options) : Bytes :=
  request.method.toString ++ space :: request.url.getFile ++ ascii " HTTP/1.1\r\n" ++
    ((request.headers options).fields.flatMap fun field =>
      field.1 ++ ascii ": " ++ field.2 ++ ascii "\r\n") ++
    ascii "\r\n" ++ request.body

def isHttp (request : Request) : Bool := iequals request.url.getScheme (ascii "http")

def isHttps (request : Request) : Bool := iequals request.url.getScheme (ascii "https")

/-- The URL names a host and a port that can be connected to. -/
def isUsable (request : Request) : Bool :=
  request.url.isValid && request.url.getHostname != [] && request.url.getEffectivePort != 0

/-- The redirects that turn the request into a `GET`. -/
def changesMethod (request : Request) (code : Nat) : Bool :=
  code == 303 || ((code == 301 || code == 302) && request.method == .post)

/-- The request that a redirect leads to. -/
def redirected (request : Request) (code : Nat) (next : Url) : Request :=
  if request.changesMethod code then
    { method := .get, url := next, extra := (request.extra.remove (ascii "Content-Type")).1 }
  else { request with url := next }

end Request

namespace Client

/-! ## The system -/

/-- What is left of a function of the client: behind `internal_start()`, behind
`TLSInitialize()`, behind `write()` in `internal_send()`, and in the loop of
`internal_read()`, before and behind `read()`.  The number is that of the request that the
function was entered for. -/
inductive Task where
  | connect
  | handshake
  | sendDone (id : Nat)
  | readMore (id : Nat)
  | readDone (id : Nat)
  deriving DecidableEq

/-- A function on the call stack; `app` is a callback of the application. -/
inductive Frame where
  | socket (index : Nat) (task : Socket.Task)
  | client (task : Task)
  | app
  deriving DecidableEq

/-- What the client does that others can see.  An outcome or a redirect names the request
that caused it: the one whose call, socket, timer or interrupted function led to it.  The
victim is the one that the client holds at that point, which is the one that is ended or
sent on.  A response also names the connection it came from, and a call of `request()` the
options in force. -/
inductive Act where
  | requested (id : Nat) (request : Request) (options : Options)
  | aborted (id : Nat)
  | opened (id : Nat) (index : Nat) (request : Request) (text : Bytes)
  | redirected (cause victim : Nat) (code : Nat) (location : Bytes)
  | response (cause victim : Nat) (index : Option Nat) (answer : Response)
  | error (cause victim : Nat) (why : Status) (message : Message)
  | fed (index : Nat) (data : Bytes)
  | socket (index : Nat) (act : Socket.Act)
  deriving DecidableEq

/-- The client, its sockets, the call stack, the value that the last call of a socket
returned, and the process default of the proxy.  `current` is the number of the request
that the client holds, `timed` that of the one its deadline was set for, and `issued` the
number of the next one. -/
structure System where
  client : Client := {}
  connections : List Connection := []
  stack : List Frame := []
  result : Socket.Reply := .none
  proxyDefault : ProxySettings := {}
  current : Nat := 0
  timed : Nat := 0
  issued : Nat := 0
  deriving DecidableEq

/-- A piece of code: the system it leaves and the acts it comes with. -/
abbrev Effect : Type := System × List Act

namespace System

variable (system : System)

def quiet : Effect := (system, [])

def push (frames : List Frame) : System := { system with stack := frames ++ system.stack }

def withClient (client : Client) : System := { system with client := client }

/-- Change the socket of a connection. -/
def setSocket (index : Nat) (socket : Socket) : System :=
  { system with
    connections := system.connections.modify index fun connection =>
      { connection with socket := socket } }

def socket? (index : Nat) : Option Socket := system.connections[index]?.map Connection.socket

/-- A piece of code of a socket. -/
def runSocket (index : Nat) (outcome : Socket.Outcome) : Effect :=
  ((system.setSocket index outcome.socket).push (outcome.tasks.map (.socket index)),
    outcome.acts.map (.socket index))

/-- `internal_teardown()`. -/
def teardown : System :=
  let idle := { system.client with deadline := false, socket := none, busy := false }
  match system.client.socket with
  | none => system.withClient idle
  | some index =>
    match system.socket? index with
    | none => system.withClient idle
    | some socket =>
      (system.setSocket index (socket.setEventHandler false).disableMonitor).withClient idle

/-- `internal_fail()`, on account of a request. -/
def fail (cause : Nat) (why : Status) (message : Message) : Effect :=
  if system.client.reported then system.quiet
  else
    (((system.withClient { system.client with reported := true }).teardown).push [.app],
      [.error cause system.current why message])

/-- The message of an `std::error_code`. -/
def errorMessage (ec : Option Errno) : Message := .strerror (ec.getD (.other 0))

/-- The new socket of `internal_start()`, told of a proxy if the caller named one. -/
def newSocket : Socket :=
  let url := system.client.request.url
  let socket := Socket.ofName true url.getHostname url.getEffectivePort system.proxyDefault
  match system.client.options.proxy with
  | none => socket
  | some settings => socket.setProxy settings

/-- The members that `internal_start()` resets. -/
def restarted : System :=
  let torn := system.teardown
  torn.withClient { torn.client with
    parser := { limits := torn.client.options.limits }
    incoming := [], outgoing := []
    reported := false, secure := false, handshaking := false }

/-- The end of `internal_start()`, up to the `connect()` of the new socket. -/
def openConnection : Effect :=
  let client := system.client
  let text := client.request.text client.options
  let index := system.connections.length
  let parser := if client.request.method = .head then client.parser.expectNoBody else client.parser
  let client := { client with
    secure := client.request.isHttps, parser := parser, outgoing := text
    socket := some index, busy := true, deadline := true }
  ({ system with
      client := client
      timed := system.current
      connections := system.connections ++ [⟨system.newSocket, system.current, client.request⟩]
      stack := .client .connect :: system.stack },
    [.opened system.current index client.request text])

/-- `internal_start()`. -/
def start (cause : Nat) : Effect :=
  let fresh := system.restarted
  if !fresh.client.request.isUsable then
    fresh.fail cause .invalidUrl (.text "not a usable URL")
  else if !fresh.client.request.isHttp && !fresh.client.request.isHttps then
    fresh.fail cause .invalidUrl (.text "only http and https are supported")
  else fresh.openConnection

/-- Acts in front of those of a piece of code. -/
def after (effect : Effect) (acts : List Act) : Effect := (effect.1, acts ++ effect.2)

/-- `request()`. -/
def request (request : Request) : Effect :=
  let id := system.issued
  let counted := { system with issued := id + 1 }
  if system.client.busy then
    after (counted.fail id .aborted (.text "a request is already in flight"))
      [.requested id request system.client.options]
  else
    let held := { counted with
      current := id
      client := { system.client with request := request, redirectsFollowed := 0 } }
    after (held.start id) [.requested id request system.client.options]

/-- `abort()`; a request is abandoned if one is in flight. -/
def abort : Effect :=
  ((system.withClient { system.client with reported := true }).teardown,
    if system.client.busy then [.aborted system.current] else [])

/-- The code and the location of a response that `internal_follow_redirect()` takes for a
redirect. -/
def redirect? (client : Client) : Option (Nat × Bytes) :=
  let answer := client.parser.response
  if client.options.maxRedirects = 0 then none
  else if answer.statusCode < 300 ∨ 399 < answer.statusCode then none
  else
    match answer.headers.get (ascii "Location") with
    | none => none
    | some location => if location = [] then none else some (answer.statusCode, location)

/-- `internal_follow_redirect()`, once there is one to follow. -/
def followRedirect (cause code : Nat) (location : Bytes) : Effect :=
  let client := system.client
  let next := client.request.url.resolve location
  if client.options.maxRedirects ≤ client.redirectsFollowed then
    system.fail cause .tooManyRedirects (.text "too many redirects")
  else if !next.isValid || next.getHostname == [] then
    system.fail cause .invalidUrl
      (.text "the redirect named a URL that cannot be used")
  else if client.request.isHttps && !iequals next.getScheme (ascii "https") then
    system.fail cause .insecureRedirect (.text "redirected from https to http")
  else
    after ((system.withClient { client with
      request := client.request.redirected code next
      redirectsFollowed := client.redirectsFollowed + 1 }).start cause)
      [.redirected cause system.current code location]

/-- The report at the end of `internal_complete()`. -/
def respond (cause : Nat) : Effect :=
  (((system.withClient { system.client with reported := true }).teardown).push [.app],
    [.response cause system.current system.client.socket system.client.parser.response])

/-- `internal_complete()`. -/
def complete (cause : Nat) : Effect :=
  if system.client.reported then system.quiet
  else
    match redirect? system.client with
    | some (code, location) => system.followRedirect cause code location
    | none => system.respond cause

/-- The peer has closed: `parser.finish()` and what follows from it. -/
def finish (cause : Nat) (otherwise : Status → Status) (message : Status → String) : Effect :=
  let (result, parser) := system.client.parser.finish
  let finished := system.withClient { system.client with parser := parser }
  if result = .complete then finished.complete cause
  else finished.fail cause (otherwise parser.status) (.text (message parser.status))

/-- `internal_send()`, up to the return of `write()`. -/
def send (answers : Socket.Answers) : Effect :=
  match system.client.socket with
  | none => system.quiet
  | some index =>
    match system.socket? index with
    | none => system.quiet
    | some socket =>
      if system.client.outgoing = [] then system.quiet
      else
        (system.push [.client (.sendDone system.current)]).runSocket index
          (socket.writeReporting system.client.outgoing answers)

/-- The end of `internal_send()`, for the request whose bytes were written. -/
def sendDone (id : Nat) : Effect :=
  match system.result with
  | .count sent ec =>
    if sent < 0 then system.fail id .disconnected (errorMessage ec)
    else
      let outgoing := system.client.outgoing.drop sent.toNat
      let left := system.withClient { system.client with outgoing := outgoing }
      match system.client.socket with
      | none => left.quiet
      | some index =>
        match system.socket? index with
        | none => left.quiet
        | some socket =>
          (left.setSocket index (socket.toggleWriteNotifier (outgoing != []))).quiet
  | _ => system.quiet

def readChunk : Nat := 8192

/-- The loop of `internal_read()`, up to the return of `read()`. -/
def readMore (id : Nat) (answers : Socket.Answers) : Effect :=
  match system.client.socket with
  | none => system.quiet
  | some index =>
    match system.socket? index with
    | none => system.quiet
    | some socket =>
      (system.push [.client (.readDone id)]).runSocket index
        (socket.readReporting readChunk answers)

/-- New bytes go to the parser. -/
def feed (cause index : Nat) (data : Bytes) : Effect :=
  let outcome := system.client.parser.parse (system.client.incoming ++ data)
  let fed := system.withClient { system.client with
    parser := outcome.parser, incoming := outcome.input }
  after
    (match outcome.result with
    | .error =>
      fed.fail cause outcome.parser.status (.text outcome.parser.status.toString)
    | .complete => fed.complete cause
    | .needMore => (fed.push [.client (.readMore cause)]).quiet)
    [.fed index data]

/-- The body of the loop of `internal_read()`, behind `read()`. -/
def readDone (cause : Nat) : Effect :=
  match system.result, system.client.socket with
  | .read .error _ ec, _ => system.fail cause .disconnected (errorMessage ec)
  | .read .endOfFile _ _, _ => system.finish cause id Status.toString
  | .read .ok data _, some index =>
    if data = [] then system.quiet else system.feed cause index data
  | _, _ => system.quiet

/-- `EventConnected()`, up to the return of `TLSInitialize()`. -/
def eventConnected (cause : Nat) (answers : Socket.Answers) : Effect :=
  if !system.client.secure then system.send answers
  else
    match system.client.socket.bind fun index => (system.socket? index).map (index, ·) with
    | none =>
      system.fail cause .tlsFailed (.text "no socket to negotiate TLS on")
    | some (index, socket) =>
      let (started, session) := socket.tlsInitialize answers
      let begun := system.setSocket index session
      if !started then
        begun.fail cause .tlsFailed (.text "could not initialise TLS")
      else
        ((begun.withClient { begun.client with handshaking := true }).push
          [.client .handshake]).quiet

/-- The reason that `EventError()` reports. -/
def errorStatus (client : Client) (which : SocketError) : Status :=
  if which = .connectionTimeout then .connectTimeout
  else if client.handshaking then .tlsFailed
  else .connectFailed

/-- The callbacks of `SocketEventHandler` that the client overrides; the others do
nothing. -/
def handle (cause : Nat) (event : SocketEvent) (answers : Socket.Answers) : Effect :=
  match event with
  | .connected => system.eventConnected cause answers
  | .tlsConnected =>
    (system.withClient { system.client with handshaking := false }).send answers
  | .canWrite => system.send answers
  | .dataAvailable =>
    if system.client.socket = none then system.quiet
    else (system.push [.client (.readMore cause)]).quiet
  | .disconnected =>
    system.finish cause (fun status => if status = .ok then .disconnected else status)
      fun _ => "the peer closed early"
  | .error which message => system.fail cause (errorStatus system.client which) message
  | .hostLookup | .hostFound | .connecting | .tlsDisconnected => system.quiet

/-- A call of the socket at the end of a function of the client. -/
def callSocket (call : Socket.Call) (answers : Socket.Answers) : Effect :=
  match system.client.socket with
  | none => system.quiet
  | some index =>
    match system.socket? index with
    | none => system.quiet
    | some socket => system.runSocket index (call.run socket answers)

/-- The piece of the client that comes next. -/
def runClient (task : Task) (answers : Socket.Answers) : Effect :=
  match task with
  | .connect => system.callSocket .connect answers
  | .handshake => system.callSocket .tlsSendHandshake answers
  | .sendDone id => system.sendDone id
  | .readMore id => system.readMore id answers
  | .readDone id => system.readDone id

/-- Control is with the event loop or with the application. -/
def yields : Bool :=
  match system.stack with
  | [] => true
  | .app :: _ => true
  | _ => false

/-- Take a frame off the stack. -/
def pop : System := { system with stack := system.stack.tail }

end System

inductive Label where
  | resume (answers : Socket.Answers)
  | back
  | request (request : Request)
  | abort
  | setOptions (options : Options)
  | setDefault (proxy : ProxySettings)
  | deadline
  | monitor (index : Nat) (trig : Triggers)
  | timeout (index : Nat)
  | found (index : Nat) (which : LookupTarget) (ip : IpAddress) (answers : Socket.Answers)
  | notFound (index : Nat) (which : LookupTarget)
  deriving DecidableEq

namespace System

variable (system : System)

/-- The code goes on. -/
def resume (answers : Socket.Answers) : Option Effect :=
  match system.stack with
  | [] => none
  | .app :: _ => none
  | .client task :: _ => some (system.pop.runClient task answers)
  | .socket index (.app event) :: _ =>
    system.connections[index]?.map fun connection =>
      system.pop.handle connection.owner event answers
  | .socket index (.finish reply) :: _ =>
    some ({ system.pop with result := reply }, [.socket index (.returned reply)])
  | .socket index task :: _ =>
    (system.socket? index).map fun socket =>
      system.pop.runSocket index (task.run socket answers)

/-- The event loop enters a socket. -/
def enterSocket (index : Nat) (enter : Socket → Option Socket.Outcome) : Option Effect :=
  ((system.socket? index).bind enter).map (system.runSocket index)

/-- One step: the code goes on, the callback returns, or the application or the event loop
enters the client or one of its sockets. -/
def step (system : System) : Label → Option Effect
  | .resume answers => system.resume answers
  | .back =>
    match system.stack with
    | .app :: _ => some system.pop.quiet
    | _ => none
  | .request request => if system.yields then some (system.request request) else none
  | .abort => if system.yields then some system.abort else none
  | .setOptions options =>
    if system.yields then
      some (system.withClient { system.client with options := options }).quiet
    else none
  | .setDefault proxy =>
    if system.yields then some { system with proxyDefault := proxy }.quiet else none
  | .deadline =>
    if system.yields ∧ system.client.deadline then
      let fired := system.withClient { system.client with deadline := false }
      some (fired.fail system.timed .requestTimeout
        (.text "no response before the deadline"))
    else none
  | .monitor index trig =>
    if system.yields then
      system.enterSocket index fun socket => some {
        socket := socket
        tasks := [.monitorRead trig, .monitorWrite trig, .monitorError trig] }
    else none
  | .timeout index =>
    if system.yields then
      system.enterSocket index fun socket =>
        if socket.timer then some socket.eventTimeout else none
    else none
  | .found index which ip answers =>
    if system.yields then
      system.enterSocket index fun socket =>
        (socket.asked which).map fun (host, name) =>
          (socket.addressFound which host ip answers).after [.resolved name ip]
    else none
  | .notFound index which =>
    if system.yields then
      system.enterSocket index fun socket =>
        (socket.asked which).map fun (host, _) => socket.addressNotFound which host
    else none

/-- A client that has not been used. -/
structure Fresh (system : System) : Prop where
  client : system.client = { options := system.client.options }
  connections : system.connections = []
  stack : system.stack = []
  current : system.current = 0
  timed : system.timed = 0
  issued : system.issued = 0

end System

end Client

end SamuraiFormal.Http
