import SamuraiFormal.Net.Socks5

/-!
# Feeding the handshake byte by byte

`feed()` takes as many bytes as the current step misses and then runs the step.
`absorb` is the effect of a single byte, and `feed_eq_absorbAll` says that `feed()`
absorbs its data one byte after the other until it stops asking for more.  All of
this rests on `WellFormed`: fewer bytes are buffered than needed, and the number
needed is the one the step reads.
-/

namespace SamuraiFormal.Net

open Util
open List

variable {handshake : Socks5Handshake}

variable {bytes data : Bytes}

namespace Socks5Handshake

open Socks5

/-- The number of bytes a step asks for. -/
def StepWidth (atyp : UInt8) (need : Nat) : Step → Prop
  | .methodReply => need = 2
  | .authReply => need = 2
  | .replyHead => need = 4
  | .replyAddrLen => atyp = atypDomain ∧ need = 1
  | .replyAddr =>
    (atyp = atypIPv4 ∧ need = 4) ∨ (atyp = atypIPv6 ∧ need = 16) ∨
      (atyp = atypDomain ∧ 1 ≤ need ∧ need ≤ 255)
  | .replyPort => need = 2

structure WellFormed (handshake : Socks5Handshake) : Prop where
  reading : handshake.status = .needRead → handshake.input.length < handshake.need
  width : handshake.status = .needRead →
    StepWidth handshake.replyAtyp handshake.need handshake.step
  writing : handshake.status = .needWrite → handshake.outSent < handshake.out.length
  quiet : handshake.status ≠ .needWrite → handshake.out.length ≤ handshake.outSent
  request : handshake.status ≠ .failed → handshake.request ≠ []

theorem wellFormed_of_failed (failed : handshake.status = .failed) (out : handshake.out = []) :
    WellFormed handshake := by
  refine ⟨?_, ?_, ?_, fun _ => by rw [out]; exact Nat.zero_le _,
    fun other => absurd failed other⟩
  · rw [failed]
    exact nofun
  · rw [failed]
    exact nofun
  · rw [failed]
    exact nofun

theorem wellFormed_fail (code : SocketError) (message : String) :
    WellFormed (handshake.fail code message) :=
  wellFormed_of_failed rfl rfl

theorem wellFormed_expect {step : Step} {need : Nat}
    (width : StepWidth handshake.replyAtyp need step)
    (quiet : handshake.out.length ≤ handshake.outSent) (request : handshake.request ≠ [])
    (positive : 0 < need) : WellFormed (handshake.expect step need) :=
  ⟨fun _ => positive, fun _ => width, nofun, fun _ => quiet, fun _ => request⟩

theorem wellFormed_queue (step : Step) (some' : bytes ≠ []) (request : handshake.request ≠ []) :
    WellFormed { handshake.queue bytes with step := step } :=
  ⟨nofun, nofun, fun _ => length_pos_of_ne_nil some', fun other => absurd rfl other,
    fun _ => request⟩

theorem greeting_ne_nil (settings : ProxySettings) : greeting settings ≠ [] := by
  unfold greeting
  split <;> simp

theorem credentials_ne_nil (settings : ProxySettings) : credentials settings ≠ [] := by
  simp [credentials]

/-- The peer is one that the settings keep from a proxy. -/
def Withheld (settings : ProxySettings) (target : Bytes) : Prop :=
  settings.allowPrivate = false ∧
    ((InetAddress.ofString target).ip.any isLocalAddress = true ∨
      ((InetAddress.ofString target).ip = none ∧ isLocalName target = true))

/-- The request cannot be put into SOCKS5. -/
def Inexpressible (settings : ProxySettings) (command : Command) (target : Bytes) : Prop :=
  target = [] ∨ 255 < target.length ∨ 255 < settings.username.length ∨
    255 < settings.password.length ∨
    ((InetAddress.ofString target).ip = none ∧ command = .resolvePtr)

def requestBytes (command : Command) (target : Bytes) (port : UInt16) : Bytes :=
  [0x05, command.octet, 0x00] ++ requestAddress target (InetAddress.ofString target).ip ++
    portOctets port

theorem requestBytes_ne_nil (command : Command) (target : Bytes) (port : UInt16) :
    requestBytes command target port ≠ [] := by
  simp [requestBytes]

/-- A refused request leaves a failed handshake, an accepted one is encoded. -/
theorem encodeRequest_cases (handshake : Socks5Handshake) :
    ((Withheld handshake.settings handshake.target ∨
          Inexpressible handshake.settings handshake.command handshake.target) ∧
        ∃ code message, handshake.encodeRequest = (false, handshake.fail code message)) ∨
      (¬ Withheld handshake.settings handshake.target ∧
        ¬ ((InetAddress.ofString handshake.target).ip = none ∧ handshake.command = .resolvePtr) ∧
        handshake.encodeRequest = (true, { handshake with
          request := requestBytes handshake.command handshake.target handshake.targetPort })) := by
  unfold encodeRequest
  dsimp only
  split
  · next withheld =>
      refine .inl ⟨.inl ⟨by simpa using withheld.1, .inl withheld.2⟩, _, _, rfl⟩
  next noAddress =>
    split
    · next withheld =>
        exact .inl ⟨.inl ⟨by simpa using withheld.1, .inr withheld.2⟩, _, _, rfl⟩
    next noName =>
      have allowed : ¬ Withheld handshake.settings handshake.target := by
        rintro ⟨off, address | name⟩
        · exact noAddress ⟨by simp [off], address⟩
        · exact noName ⟨by simp [off], name⟩
      split
      · next reverse =>
          exact .inl ⟨.inr (.inr (.inr (.inr (.inr reverse)))), _, _, rfl⟩
      · next forward => exact .inr ⟨allowed, forward, rfl⟩

/-- The constructor fails, or queues the greeting in front of the encoded request. -/
theorem create_cases (settings : ProxySettings) (command : Command) (target : Bytes)
    (port : UInt16) :
    ((Withheld settings target ∨ Inexpressible settings command target) ∧
        (create settings command target port).status = .failed ∧
        (create settings command target port).out = [] ∧
        (create settings command target port).result.reply = 0) ∨
      (¬ Withheld settings target ∧ ¬ Inexpressible settings command target ∧
        create settings command target port =
          { settings := settings, command := command, target := target, targetPort := port,
            request := requestBytes command target port, out := greeting settings }) := by
  unfold create
  dsimp only
  split
  · next empty => exact .inl ⟨.inr (.inl empty), rfl, rfl, rfl⟩
  next some' =>
    split
    · next long => exact .inl ⟨.inr (.inr (.inl long)), rfl, rfl, rfl⟩
    next short =>
      split
      · next long =>
          refine .inl ⟨.inr (.inr (.inr ?_)), rfl, rfl, rfl⟩
          exact or_assoc.mp (.inl long)
      next credentials' =>
        rcases encodeRequest_cases
            { settings := settings, command := command, target := target, targetPort := port }
          with ⟨why, code, message, refused⟩ | ⟨allowed, forward, encoded⟩
        · rw [refused]
          exact .inl ⟨why, rfl, rfl, rfl⟩
        rw [encoded]
        refine .inr ⟨allowed, ?_, rfl⟩
        rintro (empty | long | user | pass | reverse)
        · exact some' empty
        · exact short long
        · exact credentials' (.inl user)
        · exact credentials' (.inr pass)
        · exact forward reverse

theorem create_wellFormed (settings : ProxySettings) (command : Command) (target : Bytes)
    (port : UInt16) : WellFormed (create settings command target port) := by
  rcases create_cases settings command target port with ⟨_, failed, out, _⟩ | ⟨_, _, same⟩
  · exact wellFormed_of_failed failed out
  rw [same]
  exact ⟨nofun, nofun, fun _ => length_pos_of_ne_nil (greeting_ne_nil settings),
    fun other => absurd rfl other, fun _ => requestBytes_ne_nil command target port⟩

/-! ## What a step can do -/

/-- A failure that is not the proxy's reply code. -/
structure Fails (handshake : Socks5Handshake) : Prop where
  status : handshake.status = .failed
  out : handshake.out = []
  error : handshake.error = .proxyProtocol ∨ handshake.error = .proxyAuthFailed

theorem fails_protocol (handshake : Socks5Handshake) (message : String) :
    Fails (handshake.fail .proxyProtocol message) :=
  ⟨rfl, rfl, .inl rfl⟩

theorem fails_auth (handshake : Socks5Handshake) (message : String) :
    Fails (handshake.fail .proxyAuthFailed message) :=
  ⟨rfl, rfl, .inr rfl⟩

theorem Fails.wellFormed (fails : Fails handshake) : WellFormed handshake :=
  wellFormed_of_failed fails.status fails.out

/-- Where the head of a reply leads for its address type. -/
def HeadNext (atyp : UInt8) (step : Step) (need : Nat) : Prop :=
  (atyp = atypIPv4 ∧ step = .replyAddr ∧ need = 4) ∨
    (atyp = atypIPv6 ∧ step = .replyAddr ∧ need = 16) ∨
    (atyp = atypDomain ∧ step = .replyAddrLen ∧ need = 1)

/-- What a step does with the bytes that it asked for. -/
inductive Ran (handshake : Socks5Handshake) : Step → Bytes → Bool × Socks5Handshake → Prop where
  | fails {step : Step} {data : Bytes} {next : Socks5Handshake} (fails : Fails next) :
      Ran handshake step data (false, next)
  | chosen : Ran handshake .methodReply [0x05, 0x00]
      (true, { { handshake with method := 0x00 }.queue handshake.request with step := .replyHead })
  | asked (has : handshake.settings.hasCredentials = true) :
      Ran handshake .methodReply [0x05, 0x02]
        (true, { { handshake with method := 0x02 }.queue (credentials handshake.settings) with
          step := .authReply })
  | accepted : Ran handshake .authReply [0x01, 0x00]
      (true, { handshake.queue handshake.request with step := .replyHead })
  | head (reply reserved atyp : UInt8) {step : Step} {need : Nat}
      (leads : HeadNext atyp step need) :
      Ran handshake .replyHead [0x05, reply, reserved, atyp]
        (true, { handshake with
          result := { handshake.result with reply := reply }
          replyAtyp := atyp }.expect step need)
  | length (length : UInt8) (some' : length ≠ 0) :
      Ran handshake .replyAddrLen [length] (true, handshake.expect .replyAddr length.toNat)
  | address {data : Bytes} (result : Result) (same : result.reply = handshake.result.reply) :
      Ran handshake .replyAddr data
        (true, { handshake with result := result }.expect .replyPort 2)
  | done (high low : UInt8) (zero : handshake.result.reply = 0) :
      Ran handshake .replyPort [high, low] (false, { handshake with
        result := { handshake.result with port := portValue high low }, input := [], need := 0
        status := .done })
  | refused (high low : UInt8) (other : handshake.result.reply ≠ 0) :
      Ran handshake .replyPort [high, low] (false, { handshake with
        result := { handshake.result with port := portValue high low }, input := [], need := 0
        }.fail (classifyReply handshake.result.reply).1 (classifyReply handshake.result.reply).2)

theorem consumeStep_ran (width : StepWidth handshake.replyAtyp data.length handshake.step) :
    Ran handshake handshake.step data (handshake.consumeStep data) := by
  unfold consumeStep
  cases step : handshake.step with
  | methodReply =>
    rw [step] at width
    match data, width with
    | [version, method], _ =>
      simp only [methodReply]
      split
      · exact .fails (fails_protocol _ _)
      next five =>
      obtain rfl := not_not.mp five
      split
      · exact .fails (fails_auth _ _)
      split
      · next zero =>
        subst zero
        exact .chosen
      split
      · next two =>
        obtain ⟨rfl, has⟩ := two
        exact .asked has
      · exact .fails (fails_protocol _ _)
  | authReply =>
    rw [step] at width
    match data, width with
    | [version, verdict], _ =>
      simp only [authReply]
      split
      · exact .fails (fails_protocol _ _)
      next one =>
      split
      · exact .fails (fails_auth _ _)
      next zero =>
      obtain rfl := not_not.mp one
      obtain rfl := not_not.mp zero
      exact .accepted
  | replyHead =>
    rw [step] at width
    match data, width with
    | [version, reply, reserved, atyp], _ =>
      simp only [replyHead]
      split
      · exact .fails (fails_protocol _ _)
      next five =>
      obtain rfl := not_not.mp five
      split
      · next v4 => exact .head reply reserved atyp (.inl ⟨v4, rfl, rfl⟩)
      split
      · next v6 => exact .head reply reserved atyp (.inr (.inl ⟨v6, rfl, rfl⟩))
      split
      · next domain => exact .head reply reserved atyp (.inr (.inr ⟨domain, rfl, rfl⟩))
      · exact .fails (fails_protocol _ _)
  | replyAddrLen =>
    rw [step] at width
    match data, width with
    | [length], _ =>
      simp only [replyAddrLen]
      split
      · exact .fails (fails_protocol _ _)
      · next some' => exact .length length some'
  | replyAddr =>
    rw [step] at width
    dsimp only [replyAddr]
    rcases width with ⟨v4, four⟩ | ⟨v6, sixteen⟩ | ⟨domain, _⟩
    · rw [if_pos v4, dif_pos four.ge]
      exact .address _ rfl
    · rw [if_neg (by rw [v6]; decide), if_pos v6, dif_pos sixteen.ge]
      exact .address _ rfl
    · rw [if_neg (by rw [domain]; decide), if_neg (by rw [domain]; decide)]
      exact .address _ rfl
  | replyPort =>
    rw [step] at width
    match data, width with
    | [high, low], _ =>
      simp only [replyPort]
      split
      · next other => exact .refused high low other
      · next zero => exact .done high low (not_not.mp zero)

theorem toNat_pos_of_ne_zero {length : UInt8} (some' : length ≠ 0) : 0 < length.toNat :=
  Nat.pos_of_ne_zero fun zero => some' (UInt8.toNat_inj.mp zero)

/-- A step that was given all its bytes ends the reading or leaves it well-formed. -/
theorem consumeStep_wellFormed (width : StepWidth handshake.replyAtyp data.length handshake.step)
    (quiet : handshake.out.length ≤ handshake.outSent) (request : handshake.request ≠ []) :
    WellFormed (handshake.consumeStep data).2 ∧
      ((handshake.consumeStep data).1 = false →
        (handshake.consumeStep data).2.status ≠ .needRead) := by
  have ran := consumeStep_ran width
  generalize handshake.step = step at width ran
  generalize handshake.consumeStep data = next at ran
  cases ran with
  | fails fails => exact ⟨fails.wellFormed, fun _ => by rw [fails.status]; exact nofun⟩
  | chosen | accepted => exact ⟨wellFormed_queue _ request request, nofun⟩
  | asked => exact ⟨wellFormed_queue _ (credentials_ne_nil _) request, nofun⟩
  | head reply reserved atyp leads =>
    rcases leads with ⟨v4, rfl, rfl⟩ | ⟨v6, rfl, rfl⟩ | ⟨domain, rfl, rfl⟩
    · exact ⟨wellFormed_expect (.inl ⟨v4, rfl⟩) quiet request (by decide), nofun⟩
    · exact ⟨wellFormed_expect (.inr (.inl ⟨v6, rfl⟩)) quiet request (by decide), nofun⟩
    · exact ⟨wellFormed_expect ⟨domain, rfl⟩ quiet request (by decide), nofun⟩
  | length length some' =>
    have positive := toNat_pos_of_ne_zero some'
    have bound : length.toNat ≤ 255 := Nat.le_of_lt_succ length.toNat_lt
    exact ⟨wellFormed_expect (.inr (.inr ⟨width.1, positive, bound⟩)) quiet request positive, nofun⟩
  | address => exact ⟨wellFormed_expect rfl quiet request (by decide), nofun⟩
  | done => exact ⟨⟨nofun, nofun, nofun, fun _ => quiet, fun _ => request⟩, fun _ => nofun⟩
  | refused => exact ⟨wellFormed_fail _ _, fun _ => nofun⟩

/-- The effect of one byte on a handshake that reads. -/
def absorb (handshake : Socks5Handshake) (byte : UInt8) : Socks5Handshake :=
  let filled := handshake.fill [byte]
  if filled.input.length < filled.need then filled else (filled.consumeStep filled.input).2

/-- Absorb bytes for as long as the handshake reads; how many were taken. -/
def absorbAll : Socks5Handshake → Bytes → Socks5Handshake × Nat
  | handshake, [] => (handshake, 0)
  | handshake, byte :: data =>
    if handshake.status = .needRead then
      ((absorbAll (handshake.absorb byte) data).1, (absorbAll (handshake.absorb byte) data).2 + 1)
    else (handshake, 0)

theorem fill_fill (handshake : Socks5Handshake) (front back : Bytes) :
    (handshake.fill front).fill back = handshake.fill (front ++ back) := by
  simp [fill]

theorem fill_length (handshake : Socks5Handshake) (bytes : Bytes) :
    (handshake.fill bytes).input.length = handshake.input.length + bytes.length :=
  length_append

/-- A step that is complete runs on exactly the bytes it needs. -/
theorem wellFormed_consumeStep (wellFormed : WellFormed handshake)
    (reads : handshake.status = .needRead)
    (complete : handshake.input.length + bytes.length = handshake.need) :
    WellFormed ((handshake.fill bytes).consumeStep (handshake.fill bytes).input).2 ∧
      (((handshake.fill bytes).consumeStep (handshake.fill bytes).input).1 = false →
        ((handshake.fill bytes).consumeStep (handshake.fill bytes).input).2.status ≠
          .needRead) := by
  refine consumeStep_wellFormed ?_ (wellFormed.quiet (by rw [reads]; exact nofun))
    (wellFormed.request (by rw [reads]; exact nofun))
  rw [fill_length, complete]
  exact wellFormed.width reads

theorem wellFormed_fill (wellFormed : WellFormed handshake)
    (short : handshake.input.length + bytes.length < handshake.need) :
    WellFormed (handshake.fill bytes) :=
  ⟨fun _ => by rw [fill_length]; exact short, wellFormed.width, wellFormed.writing,
    wellFormed.quiet, wellFormed.request⟩

theorem absorb_short {byte : UInt8} (short : handshake.input.length + 1 < handshake.need) :
    handshake.absorb byte = handshake.fill [byte] := by
  exact if_pos (by rw [fill_length]; exact short)

theorem absorb_full {byte : UInt8} (complete : handshake.input.length + 1 = handshake.need) :
    handshake.absorb byte =
      ((handshake.fill [byte]).consumeStep (handshake.fill [byte]).input).2 := by
  refine if_neg ?_
  rw [fill_length]
  exact Nat.not_lt.mpr (Nat.le_of_eq complete.symm)

theorem absorb_wellFormed (wellFormed : WellFormed handshake)
    (reads : handshake.status = .needRead) (byte : UInt8) : WellFormed (handshake.absorb byte) := by
  have below := wellFormed.reading reads
  by_cases short : handshake.input.length + 1 < handshake.need
  · rw [absorb_short short]
    exact wellFormed_fill wellFormed short
  have complete : handshake.input.length + 1 = handshake.need := by omega
  have exact' : handshake.input.length + [byte].length = handshake.need := complete
  rw [absorb_full complete]
  exact (wellFormed_consumeStep wellFormed reads exact').1

theorem absorbAll_short (reads : handshake.status = .needRead) (data : Bytes)
    (short : handshake.input.length + data.length < handshake.need) :
    absorbAll handshake data = (handshake.fill data, data.length) := by
  induction data generalizing handshake with
  | nil => simp [absorbAll, fill]
  | cons byte data ih =>
    rw [length_cons] at short
    have later := @ih (handshake.fill [byte]) reads (by
      rw [fill_length]
      exact (by omega : handshake.input.length + 1 + data.length < handshake.need))
    rw [absorbAll, if_pos reads, absorb_short (by omega), later, fill_fill]
    rfl

theorem absorbAll_full (reads : handshake.status = .needRead) {front : Bytes} (some' : front ≠ [])
    (complete : handshake.input.length + front.length = handshake.need) (rest : Bytes) :
    absorbAll handshake (front ++ rest) =
      ((absorbAll ((handshake.fill front).consumeStep (handshake.fill front).input).2 rest).1,
        (absorbAll ((handshake.fill front).consumeStep (handshake.fill front).input).2 rest).2 +
          front.length) := by
  induction front generalizing handshake with
  | nil => exact absurd rfl some'
  | cons byte front ih =>
    rw [cons_append, absorbAll, if_pos reads]
    by_cases last : front = []
    · subst last
      rw [absorb_full complete]
      rfl
    have positive := length_pos_of_ne_nil last
    rw [length_cons] at complete
    have later := @ih (handshake.fill [byte]) reads last (by
      rw [fill_length]
      exact (by omega : handshake.input.length + 1 + front.length = handshake.need))
    rw [absorb_short (by omega), later, fill_fill]
    rfl

theorem absorbAll_of_not_reading (stopped : handshake.status ≠ .needRead) (data : Bytes) :
    absorbAll handshake data = (handshake, 0) := by
  cases data with
  | nil => rfl
  | cons byte data => rw [absorbAll, if_neg stopped]

theorem feedLoop_short (fuel : Nat) (reads : handshake.status = .needRead) (some' : data ≠ [])
    (consumed : Nat) (short : handshake.input.length + data.length < handshake.need) :
    feedLoop (fuel + 1) handshake data consumed =
      (handshake.fill data, consumed + data.length) := by
  have missing : data.length < handshake.need - handshake.input.length := by omega
  have open' : (handshake.fill data).input.length < (handshake.fill data).need := by
    rw [fill_length]
    exact short
  rw [feedLoop, if_pos ⟨reads, length_pos_of_ne_nil some'⟩]
  dsimp only
  rw [if_pos missing, take_length, if_pos open']

/-- Data that completes the step: the step decides whether reading goes on. -/
theorem feedLoop_full (fuel : Nat) (reads : handshake.status = .needRead) {front : Bytes}
    (some' : front ≠ []) (complete : handshake.input.length + front.length = handshake.need)
    (rest : Bytes) (consumed : Nat) :
    feedLoop (fuel + 1) handshake (front ++ rest) consumed =
      if ((handshake.fill front).consumeStep (handshake.fill front).input).1 then
        feedLoop fuel ((handshake.fill front).consumeStep (handshake.fill front).input).2 rest
          (consumed + front.length)
      else (((handshake.fill front).consumeStep (handshake.fill front).input).2,
        consumed + front.length) := by
  have missing : handshake.need - handshake.input.length = front.length := by omega
  have enough : ¬ (front ++ rest).length < front.length := by
    rw [length_append]
    omega
  have closed' : ¬ (handshake.fill front).input.length < (handshake.fill front).need := by
    rw [fill_length]
    exact Nat.not_lt.mpr (Nat.le_of_eq complete.symm)
  rw [feedLoop, if_pos ⟨reads, length_pos_of_ne_nil (by simp [some'])⟩]
  dsimp only
  rw [missing, if_neg enough, take_left, drop_left, if_neg closed']

theorem feedLoop_eq_absorbAll (fuel : Nat) (wellFormed : WellFormed handshake) (data : Bytes)
    (consumed : Nat) (enough : data.length ≤ fuel) :
    feedLoop fuel handshake data consumed =
      ((absorbAll handshake data).1, consumed + (absorbAll handshake data).2) := by
  induction fuel generalizing handshake data consumed with
  | zero =>
    rw [eq_nil_of_length_eq_zero (Nat.le_zero.mp enough)]
    rfl
  | succ fuel ih =>
    by_cases reads : handshake.status = .needRead
    · have below := wellFormed.reading reads
      by_cases empty : data = []
      · simp [feedLoop, absorbAll, empty]
      by_cases short : handshake.input.length + data.length < handshake.need
      · rw [feedLoop_short fuel reads empty consumed short, absorbAll_short reads _ short]
      obtain ⟨front, rest, rfl, complete⟩ : ∃ front rest, data = front ++ rest ∧
          handshake.input.length + front.length = handshake.need := by
        refine ⟨data.take (handshake.need - handshake.input.length),
          data.drop (handshake.need - handshake.input.length),
          (take_append_drop _ _).symm, ?_⟩
        rw [length_take]
        omega
      have some' : front ≠ [] := ne_nil_of_length_pos (by omega)
      obtain ⟨wellFormed', stops⟩ := wellFormed_consumeStep wellFormed reads complete
      rw [feedLoop_full fuel reads some' complete, absorbAll_full reads some' complete]
      split
      · have positive := length_pos_of_ne_nil some'
        rw [length_append] at enough
        rw [ih wellFormed' rest _ (by omega)]
        simp only [Prod.mk.injEq, true_and]
        omega
      · next ended =>
          rw [absorbAll_of_not_reading (stops (Bool.eq_false_iff.mpr ended))]
          simp
    · rw [absorbAll_of_not_reading reads, feedLoop, if_neg fun both => reads both.1]
      simp

/-- `feed()` absorbs its data byte by byte. -/
theorem feed_eq_absorbAll (wellFormed : WellFormed handshake) (data : Bytes) :
    handshake.feed data = absorbAll handshake data := by
  rw [feed, feedLoop_eq_absorbAll _ wellFormed _ _ (Nat.le_refl _), Nat.zero_add]

end Socks5Handshake

end SamuraiFormal.Net
