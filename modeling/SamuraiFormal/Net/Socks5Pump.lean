import SamuraiFormal.Net.Socket
import SamuraiFormal.Net.Socks5Messages

/-!
# The pump of a handshake

`socks5_pump()` moves bytes between a handshake and its descriptor until the system makes
it wait.  Whatever the proxy sends, a handshake that reads wants between one byte and 255,
and each turn after which the loop goes on takes a transport call from a budget.
-/

namespace SamuraiFormal.Net.Socks5

open Util
open Socks5Handshake
open Socket (PumpAnswer socks5Pump)
open List

variable {handshake : Socks5Handshake} {data : Bytes}

/-- The transport calls that may follow once a step has its bytes. -/
def callsAfter : Step → Nat
  | .methodReply => 266
  | .authReply => 263
  | .replyHead => 258
  | .replyAddrLen => 257
  | .replyAddr => 2
  | .replyPort => 0

/-- The transport calls that may still be made. -/
def callsLeft (handshake : Socks5Handshake) : Nat :=
  match handshake.status with
  | .needWrite => 1 + (replyTo handshake.step).2 + callsAfter (replyTo handshake.step).1
  | .needRead => handshake.need - handshake.input.length + callsAfter handshake.step
  | .done => 0
  | .failed => 0

theorem width_bounds {atyp : UInt8} {need : Nat} {step : Step} (width : StepWidth atyp need step) :
    need ≤ 255 ∧ need + callsAfter step ≤ 269 := by
  cases step <;> simp only [StepWidth, callsAfter] at width ⊢ <;> omega

theorem callsLeft_le (wellFormed : WellFormed handshake) : callsLeft handshake ≤ 269 := by
  unfold callsLeft
  split
  · cases handshake.step <;> decide
  · next reads =>
    have bounds := width_bounds (wellFormed.width reads)
    omega
  · exact Nat.zero_le _
  · exact Nat.zero_le _

/-- A step that has its bytes leaves no more calls than may follow it. -/
theorem consumeStep_callsLeft (width : StepWidth handshake.replyAtyp data.length handshake.step) :
    callsLeft (handshake.consumeStep data).2 ≤ callsAfter handshake.step := by
  have ran := consumeStep_ran width
  generalize handshake.step = step at ran
  generalize handshake.consumeStep data = next at ran
  cases ran with
  | fails fails => simp [callsLeft, fails.status]
  | head _ _ _ leads =>
    rcases leads with ⟨_, rfl, rfl⟩ | ⟨_, rfl, rfl⟩ | ⟨_, rfl, rfl⟩ <;>
      exact Nat.le_of_ble_eq_true rfl
  | length length _ => exact Nat.add_le_add_right (Nat.le_of_lt_succ length.toNat_lt) 2
  | chosen | asked | accepted | address | done | refused => exact Nat.le_of_ble_eq_true rfl

theorem feed_callsLeft (wellFormed : WellFormed handshake) (reads : handshake.status = .needRead)
    (some' : data ≠ []) (fits : data.length ≤ handshake.wanted) :
    callsLeft (handshake.feed data).1 < callsLeft handshake := by
  have below := wellFormed.reading reads
  have positive := length_pos_of_ne_nil some'
  rw [wanted, if_neg (not_not_intro reads)] at fits
  rw [feed_eq_absorbAll wellFormed]
  by_cases short : handshake.input.length + data.length < handshake.need
  · rw [absorbAll_short reads data short]
    simp only [callsLeft, fill, reads, length_append]
    omega
  · have complete : handshake.input.length + data.length = handshake.need := by omega
    have whole := absorbAll_full reads some' complete []
    have width : StepWidth handshake.replyAtyp
      (handshake.fill data).input.length handshake.step := by
      rw [fill_length, complete]
      exact wellFormed.width reads
    have after := @consumeStep_callsLeft (handshake.fill data) _ width
    rw [append_nil] at whole
    rw [whole]
    simp only [callsLeft, reads]
    exact Nat.lt_of_le_of_lt after (Nat.lt_add_of_pos_left (by omega))

theorem consumeOutgoing_callsLeft {count : Nat} (writes : handshake.status = .needWrite)
    (away : (handshake.consumeOutgoing count).status ≠ .needWrite) :
    callsLeft (handshake.consumeOutgoing count) < callsLeft handshake := by
  rw [consumeOutgoing, if_neg (not_not_intro writes)] at away ⊢
  dsimp only at away ⊢
  split at away
  · exact absurd writes away
  rw [if_neg ‹_›]
  cases step : handshake.step <;> simp [callsLeft, writes, step, expect, replyTo]

/-- The pump has returned when it has made the calls that were left. -/
theorem socks5Pump_append (sd : Nat) (wellFormed : WellFormed handshake)
    (answers more : List PumpAnswer) (enough : callsLeft handshake ≤ answers.length) :
    socks5Pump sd handshake (answers ++ more) = socks5Pump sd handshake answers := by
  induction answers generalizing handshake with
  | nil =>
    unfold callsLeft at enough
    split at enough
    · simp at enough
    · next reads =>
      have below := wellFormed.reading reads
      rw [length_nil] at enough
      omega
    · next done => cases more <;> simp [socks5Pump, done]
    · next failed => cases more <;> simp [socks5Pump, failed]
  | cons answer answers ih =>
    rw [length_cons] at enough
    rw [cons_append]
    unfold socks5Pump
    split
    · next writes =>
      split
      · rfl
      · rfl
      · dsimp only
        split
        · rfl
        · next away =>
          have fewer := consumeOutgoing_callsLeft writes away
          rw [ih (consumeOutgoing_wellFormed wellFormed _) (by omega)]
    · next reads =>
      split
      · rfl
      · split
        · rfl
        · rfl
        · next bytes =>
          dsimp only
          split
          · rfl
          · next some' =>
            have fewer := feed_callsLeft wellFormed reads some' (by rw [length_take]; omega)
            have fed : WellFormed (handshake.feed (bytes.take handshake.wanted)).1 :=
              @call_wellFormed ⟨handshake, [], []⟩ wellFormed (.feed _)
            rw [ih fed (by omega)]
    · rfl
    · rfl

/-- What the grammar of the protocol bounds: the bytes that are wanted, of which the step
never has too few, and the transport calls of the pump. -/
structure Bounded (handshake : Socks5Handshake) : Prop where
  wanted : handshake.status = .needRead →
    StepWidth handshake.replyAtyp handshake.need handshake.step ∧
      1 ≤ handshake.wanted ∧ handshake.wanted ≤ 255
  runs : handshake.status = .needRead → ∀ data : Bytes, data.length = handshake.wanted →
    Ran (handshake.fill data) handshake.step (handshake.input ++ data)
      ((handshake.fill data).consumeStep (handshake.input ++ data))
  returns : ∀ (sd : Nat) (answers more : List PumpAnswer), 269 ≤ answers.length →
    socks5Pump sd handshake (answers ++ more) = socks5Pump sd handshake answers

/-- The bounds hold whatever the proxy has sent and however the handshake was called. -/
theorem calls_bounded (settings : ProxySettings) (command : Command) (target : Bytes)
    (port : UInt16) (calls : List Call) :
    Bounded ((start settings command target port).calls calls).handshake := by
  have wellFormed : WellFormed ((start settings command target port).calls calls).handshake := by
    refine foldlRecOn (motive := fun exchange : Exchange => WellFormed exchange.handshake) calls
      Exchange.call (create_wellFormed settings command target port) ?_
    intro exchange wellFormed call _
    exact call_wellFormed wellFormed call
  generalize ((start settings command target port).calls calls).handshake = handshake at wellFormed
  have wanted (reads : handshake.status = .needRead) :
      handshake.input.length + handshake.wanted = handshake.need ∧ 1 ≤ handshake.wanted := by
    have below := wellFormed.reading reads
    rw [Socks5Handshake.wanted, if_neg (not_not_intro reads)]
    omega
  refine ⟨fun reads => ?_, fun reads data complete => ?_, fun sd answers more enough => ?_⟩
  · have bounds := width_bounds (wellFormed.width reads)
    have sum := wanted reads
    exact ⟨wellFormed.width reads, sum.2, by omega⟩
  · refine @consumeStep_ran (handshake.fill data) _ ?_
    rw [length_append, complete, (wanted reads).1]
    exact wellFormed.width reads
  · exact socks5Pump_append sd wellFormed answers more ((callsLeft_le wellFormed).trans enough)

end SamuraiFormal.Net.Socks5
