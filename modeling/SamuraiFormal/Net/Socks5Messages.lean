import SamuraiFormal.Net.Literals
import SamuraiFormal.Net.Socks5Fragments

/-!
# What the handshake sends

Whatever the proxy answers and however the user feeds the handshake, what goes out is
the greeting, then the credentials if the proxy asked for them, then the request if
the proxy agreed.  The decoders below read the messages as RFC 1928 and RFC 1929 frame
them; a decoded request names the peer the handshake was built for, unless a NUL byte
cuts a literal out of that peer's name.
-/

namespace SamuraiFormal.Net.Socks5

open Util
open Socks5Handshake
open Relation (ReflTransGen)
open List

def Exchange.calls (exchange : Exchange) (calls : List Call) : Exchange :=
  calls.foldl Exchange.call exchange

section Ordering

variable {settings : ProxySettings} {request : Bytes} {exchange : Exchange}

theorem Phase.emission (phase : Phase settings request exchange) :
    Emission settings request exchange.received exchange.emitted := by
  cases phase with
  | greets _ _ _ emitted => exact .inl (emitted ▸ take_prefix _ _)
  | method _ _ _ emitted => exact .inl (emitted ▸ List.prefix_rfl)
  | authorizes _ has _ received emitted =>
    refine .inr (.inl ⟨has, received ▸ List.prefix_rfl, emitted ▸ ?_⟩)
    rw [List.prefix_append_right_inj]
    exact take_prefix _ _
  | auth _ has _ received emitted =>
    exact .inr (.inl ⟨has, received ▸ List.prefix_append _ _, emitted ▸ List.prefix_rfl⟩)
  | requests _ replies sent negotiated _ received emitted =>
    refine .inr (.inr ⟨replies, sent, negotiated, received ▸ List.prefix_rfl, emitted ▸ ?_⟩)
    rw [List.prefix_append_right_inj]
    exact take_prefix _ _
  | reply _ replies sent _ negotiated _ received emitted
  | done replies sent _ negotiated _ _ _ received emitted
  | refused replies sent _ negotiated _ _ _ _ received emitted =>
    exact .inr (.inr ⟨replies, sent, negotiated, received ▸ List.prefix_append _ _,
      emitted ▸ List.prefix_rfl⟩)
  | failed _ emission => exact emission

/-- `closed()` ends the exchange where it is. -/
theorem Phase.closed (phase : Phase settings request exchange) :
    Phase settings request (exchange.call .closed) := by
  by_cases finished : exchange.handshake.status = .done ∨ exchange.handshake.status = .failed
  · have same : exchange.call .closed = exchange := by
      rw [Exchange.call, Socks5Handshake.closed, if_pos finished]
    rw [same]
    exact phase
  · have ended : exchange.handshake.closed = exchange.handshake.fail .proxyProtocol
        "Proxy closed the connection during the handshake" := by
      rw [Socks5Handshake.closed, if_neg finished]
    refine .failed ?_ phase.emission
    change Fails exchange.handshake.closed
    rw [ended]
    exact fails_protocol _ _

theorem closed_wellFormed {handshake : Socks5Handshake} (wellFormed : WellFormed handshake) :
    WellFormed handshake.closed := by
  unfold Socks5Handshake.closed
  split
  · exact wellFormed
  · exact wellFormed_fail _ _

/-- A call is a sequence of ticks, or the end. -/
theorem call_cases (wellFormed : WellFormed exchange.handshake) (call : Call) :
    ReflTransGen Tick exchange (exchange.call call) ∨ call = .closed := by
  have forget {stream : Bytes} {next : Exchange}
      (ticks : ReflTransGen (StreamTick stream) exchange next) :
      ReflTransGen Tick exchange next :=
    ReflTransGen.mono (fun _ _ tick => tick.1) _ _ ticks
  cases call with
  | feed data => exact .inl (forget (feed_ticks data wellFormed List.prefix_rfl))
  | consumeOutgoing length =>
    exact .inl (forget (call_consumeOutgoing_ticks wellFormed List.prefix_rfl length))
  | closed => exact .inr rfl

theorem call_wellFormed (wellFormed : WellFormed exchange.handshake) (call : Call) :
    WellFormed (exchange.call call).handshake := by
  rcases call_cases wellFormed call with ticks | rfl
  · generalize exchange.call call = next at ticks
    induction ticks with
    | refl => exact wellFormed
    | tail _ tick ih => exact tick.wellFormed ih
  · exact closed_wellFormed wellFormed

theorem Phase.call (phase : Phase settings request exchange)
    (wellFormed : WellFormed exchange.handshake) (call : Call) :
    Phase settings request (exchange.call call) := by
  rcases call_cases wellFormed call with ticks | rfl
  · exact phase.ticks ticks
  · exact phase.closed

theorem failed_call (failed : exchange.handshake.status = .failed)
    (wellFormed : WellFormed exchange.handshake) (call : Call) : exchange.call call = exchange := by
  rcases call_cases wellFormed call with ticks | rfl
  · exact failed_ticks failed ticks
  · rw [Exchange.call, Socks5Handshake.closed, if_pos (.inr failed)]

/-- The run lemma of the phases: every sequence of calls keeps to them. -/
theorem Phase.calls (calls : List Call) (phase : Phase settings request exchange)
    (wellFormed : WellFormed exchange.handshake) :
    Phase settings request (exchange.calls calls) := by
  induction calls generalizing exchange with
  | nil => exact phase
  | cons call calls ih =>
    exact ih (phase.call wellFormed call) (call_wellFormed wellFormed call)

theorem failed_calls (calls : List Call) (failed : exchange.handshake.status = .failed)
    (wellFormed : WellFormed exchange.handshake) : exchange.calls calls = exchange := by
  induction calls with
  | nil => rfl
  | cons call calls ih =>
    change (exchange.call call).calls calls = exchange
    rw [failed_call failed wellFormed, ih]

end Ordering

/-- The methods of a greeting. -/
def offeredMethods : Bytes → Option Bytes
  | version :: count :: methods =>
    if version = 0x05 ∧ methods.length = count.toNat then some methods else none
  | _ => none

/-- A length octet and as many bytes as it says. -/
def readString : Bytes → Option (Bytes × Bytes)
  | [] => none
  | length :: rest =>
    if length.toNat ≤ rest.length then some (rest.take length.toNat, rest.drop length.toNat)
    else none

/-- The username and the password of an RFC 1929 message. -/
def decodeAuth : Bytes → Option (Bytes × Bytes)
  | [] => none
  | version :: rest =>
    if version ≠ 0x01 then none
    else
      match readString rest with
      | none => none
      | some (username, more) =>
        match readString more with
        | some (password, []) => some (username, password)
        | _ => none

/-- What a request asks for: an address, or a name for the proxy to resolve. -/
inductive Destination where
  | address (ip : IpAddress)
  | name (text : Bytes)
  deriving DecidableEq

def readOctets (width : Nat) (bytes : Bytes) : Option (Octets width × Bytes) :=
  if enough : width ≤ bytes.length then
    some (⟨bytes.take width, length_take_of_le enough⟩, bytes.drop width)
  else none

def readDestination : Bytes → Option (Destination × Bytes)
  | [] => none
  | atyp :: rest =>
    if atyp = 0x01 then
      (readOctets 4 rest).map fun (octets, more) => (.address (.v4 octets), more)
    else if atyp = 0x04 then
      (readOctets 16 rest).map fun (octets, more) => (.address (.v6 octets), more)
    else if atyp = 0x03 then (readString rest).map fun (text, more) => (.name text, more)
    else none

def decodeCommand (octet : UInt8) : Option Command :=
  if octet = 0x01 then some .connect
  else if octet = 0xF0 then some .resolve
  else if octet = 0xF1 then some .resolvePtr
  else none

/-- The command, the destination and the port of an RFC 1928 request. -/
def decodeRequest : Bytes → Option (Command × Destination × UInt16)
  | version :: command :: reserved :: rest =>
    if version = 0x05 ∧ reserved = 0x00 then
      match decodeCommand command, readDestination rest with
      | some command, some (destination, [high, low]) =>
        some (command, destination, portValue high low)
      | _, _ => none
    else none
  | _ => none

theorem readString_append {text : Bytes} (short : text.length ≤ 255) (rest : Bytes) :
    readString (UInt8.ofNat text.length :: (text ++ rest)) = some (text, rest) := by
  have length : (UInt8.ofNat text.length).toNat = text.length := by
    exact Nat.mod_eq_of_lt (by omega)
  rw [readString, length, if_pos (by rw [length_append]; exact Nat.le_add_right _ _),
    take_left, drop_left]

theorem decodeAuth_credentials {settings : ProxySettings}
    (user : settings.username.length ≤ 255) (pass : settings.password.length ≤ 255) :
    decodeAuth (credentials settings) = some (settings.username, settings.password) := by
  have framed : credentials settings = 0x01 :: UInt8.ofNat settings.username.length ::
      (settings.username ++ UInt8.ofNat settings.password.length ::
        (settings.password ++ [])) := by
    simp [credentials]
  rw [framed, decodeAuth, if_neg (by decide), readString_append user]
  dsimp only
  rw [readString_append pass]

theorem decodeCommand_octet (command : Command) :
    decodeCommand command.octet = some command := by
  cases command <;> rfl

theorem portValue_portOctets (port : UInt16) :
    ∃ high low, portOctets port = [high, low] ∧ portValue high low = port := by
  refine ⟨_, _, rfl, ?_⟩
  have below := port.toNat_lt
  rw [portValue, UInt8.toNat_ofNat', UInt8.toNat_ofNat', Nat.mod_eq_of_lt (by omega),
    Nat.mod_eq_of_lt (by omega), Nat.div_add_mod', UInt16.ofNat_toNat]

theorem readOctets_append {width : Nat} (octets : Octets width) (rest : Bytes) :
    readOctets width (octets.val ++ rest) = some (octets, rest) := by
  obtain ⟨bytes, rfl⟩ := octets
  rw [readOctets]
  simp

/-- What the request of the handshake asks for. -/
def requested (target : Bytes) : Option IpAddress → Destination
  | some ip => .address ip
  | none => .name target

theorem readDestination_requestAddress {target : Bytes} (short : target.length ≤ 255)
    (ip : Option IpAddress) (rest : Bytes) :
    readDestination (requestAddress target ip ++ rest) = some (requested target ip, rest) := by
  cases ip with
  | none =>
    have framed : requestAddress target none ++ rest =
        atypDomain :: UInt8.ofNat target.length :: (target ++ rest) := by
      simp [requestAddress]
    rw [framed, readDestination, if_neg (by decide), if_neg (by decide),
      readString_append short]
    rfl
  | some ip =>
    cases ip with
    | v4 octets =>
      rw [requestAddress, cons_append, readDestination,
        readOctets_append]
      rfl
    | v6 octets =>
      rw [requestAddress, cons_append, readDestination, if_neg (by decide), readOctets_append]
      rfl

theorem decodeRequest_requestBytes (command : Command) {target : Bytes}
    (short : target.length ≤ 255) (port : UInt16) :
    decodeRequest (requestBytes command target port) =
      some (command, requested target (InetAddress.ofString target).ip, port) := by
  obtain ⟨high, low, octets, value⟩ := portValue_portOctets port
  have framed : requestBytes command target port = 0x05 :: command.octet :: 0x00 ::
      (requestAddress target (InetAddress.ofString target).ip ++ [high, low]) := by
    simp [requestBytes, octets]
  rw [framed, decodeRequest, if_pos ⟨rfl, rfl⟩, decodeCommand_octet,
    readDestination_requestAddress short]
  simp only [value]

section Conversation

variable (settings : ProxySettings) (command : Command) (target : Bytes) (port : UInt16)

/-- What the messages of a handshake have to be. -/
structure Speaks : Prop where
  ordered : ∀ calls : List Call,
    Emission settings (create settings command target port).request
      ((start settings command target port).calls calls).received
      ((start settings command target port).calls calls).emitted
  silent : (create settings command target port).status = .failed → ∀ calls : List Call,
    ((start settings command target port).calls calls).handshake.outgoing = [] ∧
      ((start settings command target port).calls calls).emitted = []
  offers : ∃ methods, offeredMethods (greeting settings) = some methods ∧
    (0x02 ∈ methods ↔ settings.hasCredentials = true)
  credentials : (create settings command target port).status ≠ .failed →
    decodeAuth (credentials settings) = some (settings.username, settings.password)
  request : (create settings command target port).status ≠ .failed →
    decodeRequest (create settings command target port).request =
      some (command, requested target (literal target), port)

/-- The part of the peer's name in front of a NUL byte is a literal. -/
def CutLiteral (target : Bytes) : Prop := 0 ∈ target ∧ literal (cString target) ≠ none

theorem greeting_offers : ∃ methods, offeredMethods (greeting settings) = some methods ∧
    (0x02 ∈ methods ↔ settings.hasCredentials = true) := by
  cases has : settings.hasCredentials with
  | true => exact ⟨[0x00, 0x02], by rw [greeting, if_pos has]; rfl, by decide⟩
  | false => exact ⟨[0x00], by rw [greeting, has]; rfl, by decide⟩

/-- A text with a NUL byte is no literal, whatever its C string is. -/
theorem literal_eq_none_of_nul {text : Bytes} (nul : 0 ∈ text) : literal text = none :=
  literal_eq_none nul (by unfold IsHex; decide)

theorem literal_cString_iff {text : Bytes} :
    literal (cString text) = literal text ↔ ¬ CutLiteral text := by
  by_cases nul : 0 ∈ text
  · rw [literal_eq_none_of_nul nul, CutLiteral, not_and_not_right]
    exact ⟨fun same _ => same, fun none' => none' nul⟩
  · rw [cString_eq_self nul]
    exact ⟨fun _ cut => nul cut.1, fun _ => rfl⟩

theorem requested_inj {left right : Option IpAddress} :
    requested target left = requested target right ↔ left = right := by
  cases left <;> cases right <;> simp [requested]

theorem failed_silent (failed : (create settings command target port).status = .failed)
    (calls : List Call) :
    ((start settings command target port).calls calls).handshake.outgoing = [] ∧
      ((start settings command target port).calls calls).emitted = [] := by
  have wellFormed := create_wellFormed settings command target port
  rw [failed_calls calls failed wellFormed]
  exact ⟨drop_eq_nil_iff.mpr (wellFormed.quiet (by rw [failed]; exact nofun)), rfl⟩

theorem calls_emission (calls : List Call) :
    Emission settings (create settings command target port).request
      ((start settings command target port).calls calls).received
      ((start settings command target port).calls calls).emitted := by
  have wellFormed := create_wellFormed settings command target port
  rcases create_cases settings command target port with ⟨_, failed, _⟩ | ⟨_, _, built⟩
  · rw [(failed_silent settings command target port failed calls).2]
    exact .inl nil_prefix
  have request : (create settings command target port).request =
      requestBytes command target port := by rw [built]
  rcases start_phase settings command target port with ⟨failed, _⟩ | phase
  · rw [start, built] at failed
    cases failed
  · rw [request]
    exact (phase.calls calls wellFormed).emission

/-- Against every proxy and for every use, the messages are what they have to be exactly
when the constructor refuses to send any or no literal is cut out of the peer's name. -/
theorem speaks_iff : Speaks settings command target port ↔
    (Withheld settings target ∨ Inexpressible settings command target ∨ ¬ CutLiteral target) := by
  rw [← or_assoc]
  rcases create_cases settings command target port with
    ⟨refused, failed, _⟩ | ⟨allowed, expressible, built⟩
  · refine ⟨fun _ => .inl refused, fun _ => ?_⟩
    exact ⟨calls_emission settings command target port,
      fun _ => failed_silent settings command target port failed, greeting_offers settings,
      fun alive => absurd failed alive, fun alive => absurd failed alive⟩
  · have alive : (create settings command target port).status ≠ .failed := by
      rw [built]
      exact nofun
    have bounds := expressible
    simp only [Inexpressible, not_or, Nat.not_lt] at bounds
    obtain ⟨some', short, user, pass, _⟩ := bounds
    have decoded : decodeRequest (create settings command target port).request =
        some (command, requested target (literal (cString target)), port) := by
      rw [built, ← ofString_ip some']
      exact decodeRequest_requestBytes command short port
    constructor
    · intro speaks
      refine .inr (literal_cString_iff.mp ?_)
      have same := decoded.symm.trans (speaks.request alive)
      simp only [Option.some.injEq, Prod.mk.injEq, true_and, and_true] at same
      exact (requested_inj target).mp same
    · rintro (refused | whole)
      · exact absurd refused (not_or.mpr ⟨allowed, expressible⟩)
      · refine ⟨calls_emission settings command target port, fun failed => absurd failed alive,
          greeting_offers settings, fun _ => decodeAuth_credentials user pass, fun _ => ?_⟩
        rw [decoded, literal_cString_iff.mpr whole]

end Conversation

/-- A name of four digits and dots, a NUL byte and more goes out as an address. -/
theorem not_speaks_cut : ¬ Speaks { enabled := true, host := ascii "proxy", port := 1080 }
    .connect (ascii "1.2.3.4" ++ 0 :: ascii "x") 80 := by
  intro speaks
  have request := speaks.request (by decide)
  revert request
  decide

end SamuraiFormal.Net.Socks5
