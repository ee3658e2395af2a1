import Mathlib.Logic.Relation
import SamuraiFormal.Net.Socks5Feed

/-!
# The phases of a SOCKS5 exchange

An exchange is a handshake with the bytes it has taken from the proxy and the bytes
of its own that were acknowledged.  It moves one byte at a time (`Tick`): a byte of
the proxy while the handshake reads, a byte of its own while it writes.  `Phase`
says for every point of the exchange what has been received and emitted; it holds
when the handshake is built and every tick keeps it.
-/

namespace SamuraiFormal.Net

open Util
open List

variable {handshake : Socks5Handshake} {width : Nat} {bytes rest : Bytes} {byte : UInt8}

namespace Socks5

open Socks5Handshake

structure Exchange where
  handshake : Socks5Handshake
  received : Bytes := []
  emitted : Bytes := []

/-- What the proxy has answered, and what was sent to get there, once the request may
go out. -/
def Negotiated (settings : ProxySettings) (replies sent : Bytes) : Prop :=
  (replies = [0x05, 0x00] ∧ sent = greeting settings) ∨
    (settings.hasCredentials = true ∧ replies = [0x05, 0x02, 0x01, 0x00] ∧
      sent = greeting settings ++ credentials settings)

/-- An address type, the length octets in front of its address and the address width. -/
inductive AddressForm : UInt8 → Bytes → Nat → Prop where
  | v4 : AddressForm atypIPv4 [] 4
  | v6 : AddressForm atypIPv6 [] 16
  | domain (length : UInt8) (some' : length ≠ 0) :
      AddressForm atypDomain [length] length.toNat

theorem AddressForm.stepWidth {atyp : UInt8} {octets : Bytes}
    (form : AddressForm atyp octets width) : StepWidth atyp width .replyAddr := by
  cases form with
  | v4 => exact .inl ⟨rfl, rfl⟩
  | v6 => exact .inr (.inl ⟨rfl, rfl⟩)
  | domain length some' =>
    exact .inr (.inr ⟨rfl, toNat_pos_of_ne_zero some', Nat.le_of_lt_succ length.toNat_lt⟩)

/-- A complete reply to the request with the given reply code. -/
def Reply (reply : UInt8) (bytes : Bytes) : Prop :=
  ∃ reserved atyp octets width address port,
    AddressForm atyp octets width ∧ address.length = width ∧ port.length = 2 ∧
      bytes = [0x05, reply, reserved, atyp] ++ octets ++ address ++ port

/-- What may have been emitted after the given replies. -/
def Emission (settings : ProxySettings) (request received emitted : Bytes) : Prop :=
  emitted <+: greeting settings ∨
    (settings.hasCredentials = true ∧ [0x05, 0x02] <+: received ∧
      emitted <+: greeting settings ++ credentials settings) ∨
    ∃ replies sent, Negotiated settings replies sent ∧ replies <+: received ∧
      emitted <+: sent ++ request

/-- The handshake waits for the bytes of a step. -/
structure Reading (handshake : Socks5Handshake) (current : Step) (width : Nat) : Prop where
  status : handshake.status = .needRead
  step : handshake.step = current
  need : handshake.need = width
  short : handshake.input.length < width

theorem reading_expect (handshake : Socks5Handshake) (current : Step) (positive : 0 < width) :
    Reading (handshake.expect current width) current width :=
  ⟨rfl, rfl, rfl, positive⟩

/-- The handshake has bytes of a message left to send. -/
structure Writing (handshake : Socks5Handshake) (current : Step) (message : Bytes) : Prop where
  status : handshake.status = .needWrite
  step : handshake.step = current
  out : handshake.out = message
  sent : handshake.outSent < message.length

/-- The parts of the reply to the request that have been read. -/
inductive ReplyStage (handshake : Socks5Handshake) : Bytes → Prop where
  | head (reading : Reading handshake .replyHead 4) : ReplyStage handshake handshake.input
  | length (reply reserved : UInt8) (reading : Reading handshake .replyAddrLen 1)
      (code : handshake.result.reply = reply) (domain : handshake.replyAtyp = atypDomain) :
      ReplyStage handshake ([0x05, reply, reserved, atypDomain] ++ handshake.input)
  | address (reply reserved atyp : UInt8) (octets : Bytes) (width : Nat)
      (form : AddressForm atyp octets width) (reading : Reading handshake .replyAddr width)
      (code : handshake.result.reply = reply) (type : handshake.replyAtyp = atyp) :
      ReplyStage handshake ([0x05, reply, reserved, atyp] ++ octets ++ handshake.input)
  | port (reply reserved atyp : UInt8) (octets address : Bytes) (width : Nat)
      (form : AddressForm atyp octets width) (whole : address.length = width)
      (reading : Reading handshake .replyPort 2) (code : handshake.result.reply = reply) :
      ReplyStage handshake
        ([0x05, reply, reserved, atyp] ++ octets ++ address ++ handshake.input)

theorem ReplyStage.status (stage : ReplyStage handshake bytes) : handshake.status = .needRead := by
  cases stage with
  | head reading | length _ _ reading | address _ _ _ _ _ _ reading
  | port _ _ _ _ _ _ _ _ reading => exact reading.status

/-- A handshake that still carries what it was built with. -/
structure Built (proxy : ProxySettings) (message : Bytes) (handshake : Socks5Handshake) :
    Prop where
  settings : handshake.settings = proxy
  request : handshake.request = message
  some' : message ≠ []

theorem Built.same {settings : ProxySettings} {request : Bytes} {next : Socks5Handshake}
    (built : Built settings request handshake) (sameSettings : next.settings = handshake.settings)
    (sameRequest : next.request = handshake.request) : Built settings request next :=
  ⟨sameSettings.trans built.settings, sameRequest.trans built.request, built.some'⟩

inductive Phase (settings : ProxySettings) (request : Bytes) (exchange : Exchange) : Prop where
  | greets (built : Built settings request exchange.handshake)
      (writing : Writing exchange.handshake .methodReply (greeting settings))
      (received : exchange.received = [])
      (emitted : exchange.emitted = (greeting settings).take exchange.handshake.outSent)
  | method (built : Built settings request exchange.handshake)
      (reading : Reading exchange.handshake .methodReply 2)
      (received : exchange.received = exchange.handshake.input)
      (emitted : exchange.emitted = greeting settings)
  | authorizes (built : Built settings request exchange.handshake)
      (has : settings.hasCredentials = true)
      (writing : Writing exchange.handshake .authReply (credentials settings))
      (received : exchange.received = [0x05, 0x02])
      (emitted : exchange.emitted =
        greeting settings ++ (credentials settings).take exchange.handshake.outSent)
  | auth (built : Built settings request exchange.handshake)
      (has : settings.hasCredentials = true)
      (reading : Reading exchange.handshake .authReply 2)
      (received : exchange.received = [0x05, 0x02] ++ exchange.handshake.input)
      (emitted : exchange.emitted = greeting settings ++ credentials settings)
  | requests (built : Built settings request exchange.handshake) (replies sent : Bytes)
      (negotiated : Negotiated settings replies sent)
      (writing : Writing exchange.handshake .replyHead request)
      (received : exchange.received = replies)
      (emitted : exchange.emitted = sent ++ request.take exchange.handshake.outSent)
  | reply (built : Built settings request exchange.handshake) (replies sent bytes : Bytes)
      (negotiated : Negotiated settings replies sent)
      (stage : ReplyStage exchange.handshake bytes)
      (received : exchange.received = replies ++ bytes)
      (emitted : exchange.emitted = sent ++ request)
  | done (replies sent bytes : Bytes) (negotiated : Negotiated settings replies sent)
      (status : exchange.handshake.status = .done)
      (whole : Reply 0 bytes) (code : exchange.handshake.result.reply = 0)
      (received : exchange.received = replies ++ bytes)
      (emitted : exchange.emitted = sent ++ request)
  | refused (replies sent bytes : Bytes) (negotiated : Negotiated settings replies sent)
      (status : exchange.handshake.status = .failed) (out : exchange.handshake.out = [])
      (whole : Reply exchange.handshake.result.reply bytes)
      (code : exchange.handshake.result.reply ≠ 0)
      (received : exchange.received = replies ++ bytes)
      (emitted : exchange.emitted = sent ++ request)
  | failed (fails : Fails exchange.handshake)
      (emission : Emission settings request exchange.received exchange.emitted)

section Sending

variable {handshake : Socks5Handshake} {current : Step} {message : Bytes}

theorem take_succ_of_drop {count : Nat} (next : bytes.drop count = byte :: rest) :
    bytes.take (count + 1) = bytes.take count ++ [byte] := by
  have found : bytes[count]? = some byte := by
    have head := congrArg List.head? next
    rwa [head?_drop] at head
  rw [take_add_one, found, Option.toList_some]

theorem Writing.outgoing (writing : Writing handshake current message) :
    handshake.outgoing = message.drop handshake.outSent := by
  rw [Socks5Handshake.outgoing, writing.out]

/-- The reply that follows a message. -/
def replyTo : Step → Step × Nat
  | .methodReply => (.methodReply, 2)
  | .authReply => (.authReply, 2)
  | _ => (.replyHead, 4)

/-- One byte of a message goes out: more is left, or its reply is awaited. -/
theorem Writing.give {settings : ProxySettings} {request : Bytes}
    (writing : Writing handshake current message) (built : Built settings request handshake)
    (pending : handshake.outgoing = byte :: rest) :
    Built settings request (handshake.consumeOutgoing 1) ∧
      ((Writing (handshake.consumeOutgoing 1) current message ∧
          message.take (handshake.consumeOutgoing 1).outSent =
            message.take handshake.outSent ++ [byte]) ∨
        (Reading (handshake.consumeOutgoing 1) (replyTo current).1 (replyTo current).2 ∧
          (handshake.consumeOutgoing 1).input = [] ∧
          message = message.take handshake.outSent ++ [byte])) := by
  have next := take_succ_of_drop (writing.outgoing ▸ pending)
  have below := writing.sent
  by_cases more : handshake.outSent + 1 < message.length
  · have consumed : handshake.consumeOutgoing 1 =
        { handshake with outSent := handshake.outSent + 1 } := by
      rw [consumeOutgoing, if_neg (not_not_intro writing.status)]
      rw [writing.out, Nat.min_eq_left (Nat.le_of_lt more), if_pos more]
    rw [consumed]
    exact ⟨built.same rfl rfl,
      .inl ⟨⟨writing.status, writing.step, writing.out, more⟩, next⟩⟩
  · have all : handshake.outSent + 1 = message.length := by omega
    have consumed : handshake.consumeOutgoing 1 =
        { handshake with outSent := message.length }.expect (replyTo current).1
          (replyTo current).2 := by
      rw [consumeOutgoing, if_neg (not_not_intro writing.status)]
      rw [writing.out, all, Nat.min_self, if_neg (Nat.lt_irrefl _), writing.step]
      cases current <;> rfl
    rw [all, take_length] at next
    rw [consumed]
    refine ⟨built.same rfl rfl, .inr ⟨⟨rfl, rfl, rfl, ?_⟩, rfl, next⟩⟩
    cases current <;> exact Nat.succ_pos _

end Sending

/-- One byte of a step comes in: more is awaited, or the step runs on all of them. -/
theorem Reading.absorb {current : Step} (reading : Reading handshake current width)
    (fits : StepWidth handshake.replyAtyp width current) (byte : UInt8) :
    (handshake.absorb byte = handshake.fill [byte] ∧
        Reading (handshake.fill [byte]) current width) ∨
      ∃ data run, handshake.input ++ [byte] = data ∧ data.length = width ∧
        handshake.absorb byte = run.2 ∧ Ran (handshake.fill [byte]) current data run := by
  have below := reading.short
  by_cases short : handshake.input.length + 1 < width
  · refine .inl ⟨absorb_short (by rw [reading.need]; exact short), reading.status, reading.step,
      reading.need, ?_⟩
    rw [fill_length]
    exact short
  · have complete : handshake.input.length + 1 = width := by omega
    have length : (handshake.input ++ [byte]).length = width := by
      rw [length_append]
      exact complete
    rw [← length, ← reading.step] at fits
    have ran := @consumeStep_ran (handshake.fill [byte]) _ fits
    rw [show (handshake.fill [byte]).step = current from reading.step] at ran
    exact .inr ⟨_, _, rfl, length, absorb_full (by rw [reading.need]; exact complete), ran⟩

inductive Tick : Exchange → Exchange → Prop where
  | take (exchange : Exchange) (byte : UInt8)
      (reads : exchange.handshake.status = .needRead) :
      Tick exchange
        ⟨exchange.handshake.absorb byte, exchange.received ++ [byte], exchange.emitted⟩
  | give (exchange : Exchange) (byte : UInt8) (rest : Bytes)
      (writes : exchange.handshake.status = .needWrite)
      (pending : exchange.handshake.outgoing = byte :: rest) :
      Tick exchange
        ⟨exchange.handshake.consumeOutgoing 1, exchange.received, exchange.emitted ++ [byte]⟩

section Preservation

variable {settings : ProxySettings} {request : Bytes} {exchange : Exchange}

theorem Phase.give (phase : Phase settings request exchange)
    (writes : exchange.handshake.status = .needWrite)
    (pending : exchange.handshake.outgoing = byte :: rest) :
    Phase settings request
      ⟨exchange.handshake.consumeOutgoing 1, exchange.received, exchange.emitted ++ [byte]⟩ := by
  cases phase with
  | greets built writing received emitted =>
    obtain ⟨built', ⟨writing', next⟩ | ⟨reading, fresh, whole⟩⟩ := writing.give built pending
    · exact .greets built' writing' received (by rw [emitted, next])
    · refine .method built' reading ?_ (by rw [emitted, ← whole])
      rw [received, fresh]
  | authorizes built has writing received emitted =>
    obtain ⟨built', ⟨writing', next⟩ | ⟨reading, fresh, whole⟩⟩ := writing.give built pending
    · exact .authorizes built' has writing' received
        (by rw [emitted, next, append_assoc])
    · refine .auth built' has reading ?_ (by rw [emitted, append_assoc, ← whole])
      rw [received, fresh]
      rfl
  | requests built replies sent negotiated writing received emitted =>
    obtain ⟨built', ⟨writing', next⟩ | ⟨reading, fresh, whole⟩⟩ := writing.give built pending
    · exact .requests built' replies sent negotiated writing' received
        (by rw [emitted, next, append_assoc])
    · refine .reply built' replies sent _ negotiated (.head reading) ?_
        (by rw [emitted, append_assoc, ← whole])
      rw [received, fresh, append_nil]
  | method _ reading | auth _ _ reading => exact absurd (reading.status.symm.trans writes) nofun
  | reply _ _ _ _ _ stage => exact absurd (stage.status.symm.trans writes) nofun
  | done _ _ _ _ status | refused _ _ _ _ status => exact absurd (status.symm.trans writes) nofun
  | failed fails => exact absurd (fails.status.symm.trans writes) nofun

/-- The bytes of a reply so far, with one more. -/
theorem ReplyStage.take {replies sent : Bytes} (stage : ReplyStage exchange.handshake bytes)
    (built : Built settings request exchange.handshake)
    (negotiated : Negotiated settings replies sent)
    (received : exchange.received = replies ++ bytes)
    (emitted : exchange.emitted = sent ++ request) :
    Phase settings request
      ⟨exchange.handshake.absorb byte, exchange.received ++ [byte], exchange.emitted⟩ := by
  have emission (more : Bytes) : Emission settings request (replies ++ more) exchange.emitted :=
    .inr (.inr ⟨replies, sent, negotiated, List.prefix_append _ _, emitted ▸ List.prefix_rfl⟩)
  rw [received, append_assoc]
  cases stage with
  | head reading =>
    rcases reading.absorb rfl byte with ⟨short, reading'⟩ | ⟨data, run, bytes, -, full, ran⟩
    · rw [short]
      exact .reply (built.same rfl rfl) replies sent _ negotiated (.head reading') rfl emitted
    rw [full, bytes]
    cases ran with
    | fails fails => exact .failed fails (emission _)
    | head reply reserved atyp leads =>
      refine .reply (built.same rfl rfl) replies sent _ negotiated ?_ rfl emitted
      rcases leads with ⟨v4, rfl, rfl⟩ | ⟨v6, rfl, rfl⟩ | ⟨domain, rfl, rfl⟩
      · exact .address reply reserved atyp [] 4 (v4 ▸ .v4) (reading_expect _ _ (by decide)) rfl rfl
      · exact .address reply reserved atyp [] 16 (v6 ▸ .v6) (reading_expect _ _ (by decide)) rfl rfl
      · subst domain
        exact .length reply reserved (reading_expect _ _ (by decide)) rfl rfl
  | length reply reserved reading code domain =>
    rcases reading.absorb ⟨domain, rfl⟩ byte with
      ⟨_, reading'⟩ | ⟨data, run, bytes, -, full, ran⟩
    · have := reading'.short
      rw [fill_length, length_singleton] at this
      omega
    rw [full, append_assoc, bytes]
    cases ran with
    | fails fails => exact .failed fails (emission _)
    | length length some' =>
      exact .reply (built.same rfl rfl) replies sent _ negotiated
        (.address reply reserved atypDomain [length] length.toNat (.domain length some')
          (reading_expect _ _ (toNat_pos_of_ne_zero some')) code domain) rfl emitted
  | address reply reserved atyp octets width form reading code type =>
    rcases reading.absorb (type ▸ form.stepWidth) byte with
      ⟨short, reading'⟩ | ⟨data, run, bytes, whole, full, ran⟩
    · rw [short, append_assoc]
      exact .reply (built.same rfl rfl) replies sent _ negotiated
        (.address reply reserved atyp octets width form reading' code type) rfl emitted
    rw [full, append_assoc, bytes]
    cases ran with
    | fails fails => exact .failed fails (emission _)
    | address result same =>
      rw [← append_nil (_ ++ data)]
      exact .reply (built.same rfl rfl) replies sent _ negotiated
        (.port reply reserved atyp octets data width form whole (reading_expect _ _ (by decide))
          (same.trans code)) rfl emitted
  | port reply reserved atyp octets address width form whole reading code =>
    rcases reading.absorb rfl byte with ⟨short, reading'⟩ | ⟨data, run, bytes, -, full, ran⟩
    · rw [short, append_assoc]
      exact .reply (built.same rfl rfl) replies sent _ negotiated
        (.port reply reserved atyp octets address width form whole reading' code) rfl emitted
    rw [full, append_assoc, bytes]
    subst code
    cases ran with
    | fails fails => exact .failed fails (emission _)
    | done high low zero =>
      exact .done replies sent _ negotiated rfl
        (zero ▸ ⟨reserved, atyp, octets, width, address, _, form, whole, rfl, rfl⟩) zero rfl emitted
    | refused high low other =>
      exact .refused replies sent _ negotiated rfl rfl
        ⟨reserved, atyp, octets, width, address, _, form, whole, rfl, rfl⟩ other rfl emitted

/-- A byte of the proxy, in whatever phase it arrives. -/
theorem Phase.take (phase : Phase settings request exchange)
    (reads : exchange.handshake.status = .needRead) (byte : UInt8) :
    Phase settings request
      ⟨exchange.handshake.absorb byte, exchange.received ++ [byte], exchange.emitted⟩ := by
  cases phase with
  | method built reading received emitted =>
    rcases reading.absorb rfl byte with ⟨short, reading'⟩ | ⟨data, run, bytes, -, full, ran⟩
    · rw [short]
      exact .method (built.same rfl rfl) reading' (by rw [received]; rfl) emitted
    rw [full, received, bytes]
    cases ran with
    | fails fails => exact .failed fails (.inl (emitted ▸ List.prefix_rfl))
    | chosen =>
      refine .requests (built.same rfl rfl) _ _ (.inl ⟨rfl, rfl⟩) ⟨rfl, rfl, built.request, ?_⟩
        rfl ?_
      · exact length_pos_of_ne_nil built.some'
      · rw [emitted]
        exact (append_nil _).symm
    | asked has =>
      have same : (exchange.handshake.fill [byte]).settings = settings := built.settings
      rw [same] at has ⊢
      refine .authorizes (built.same built.settings.symm rfl) has ⟨rfl, rfl, rfl, ?_⟩ rfl ?_
      · exact length_pos_of_ne_nil (credentials_ne_nil _)
      · rw [emitted]
        exact (append_nil _).symm
  | auth built has reading received emitted =>
    rcases reading.absorb rfl byte with ⟨short, reading'⟩ | ⟨data, run, bytes, -, full, ran⟩
    · rw [short]
      exact .auth (built.same rfl rfl) has reading' (by rw [received]; rfl) emitted
    rw [full, received, append_assoc, bytes]
    cases ran with
    | fails fails =>
      exact .failed fails (.inr (.inl ⟨has, List.prefix_append _ _, emitted ▸ List.prefix_rfl⟩))
    | accepted =>
      refine .requests (built.same rfl rfl) _ _ (.inr ⟨has, rfl, rfl⟩)
        ⟨rfl, rfl, built.request, ?_⟩ rfl ?_
      · exact length_pos_of_ne_nil built.some'
      · rw [emitted]
        exact (append_nil _).symm
  | reply built replies sent bytes negotiated stage received emitted =>
    exact stage.take built negotiated received emitted
  | greets _ writing | authorizes _ _ writing | requests _ _ _ _ writing =>
    exact absurd (writing.status.symm.trans reads) nofun
  | done _ _ _ _ status | refused _ _ _ _ status => exact absurd (status.symm.trans reads) nofun
  | failed fails => exact absurd (fails.status.symm.trans reads) nofun

theorem Phase.tick {next : Exchange} (phase : Phase settings request exchange)
    (tick : Tick exchange next) : Phase settings request next := by
  cases tick with
  | take byte reads => exact phase.take reads byte
  | give byte rest writes pending => exact phase.give writes pending

end Preservation

end Socks5

end SamuraiFormal.Net
