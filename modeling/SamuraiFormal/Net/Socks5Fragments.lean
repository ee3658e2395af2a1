import SamuraiFormal.Net.Socks5Phases

/-!
# Fragmentation of the proxy's stream

However the stream of the proxy is cut into `feed()` calls and the outgoing bytes into
`consumeOutgoing()` calls, each call is a sequence of ticks along the stream.  At
most one tick is possible at any point, so all runs that have come to an end have
come to the same one.
-/

namespace SamuraiFormal.Net

open Util
open Relation (ReflTransGen)
open List

variable {handshake : Socks5Handshake} {exchange next : Exchange} {stream : Bytes}

namespace Socks5

open Socks5Handshake

/-- A tick that takes the next byte of the stream, if it takes one. -/
def StreamTick (stream : Bytes) (exchange next : Exchange) : Prop :=
  Tick exchange next ∧ next.received <+: stream

theorem consumeOutgoing_wellFormed (wellFormed : WellFormed handshake) (count : Nat) :
    WellFormed (handshake.consumeOutgoing count) := by
  by_cases writes : handshake.status = .needWrite
  · have request : handshake.request ≠ [] := wellFormed.request (by rw [writes]; exact nofun)
    rw [consumeOutgoing, if_neg (not_not_intro writes)]
    dsimp only
    split
    · next more =>
        exact ⟨wellFormed.reading, wellFormed.width, fun _ => more,
          fun other => absurd writes other, wellFormed.request⟩
    next all =>
      have quiet := Nat.not_lt.mp all
      split
      · exact wellFormed_expect rfl quiet request (by decide)
      · exact wellFormed_expect rfl quiet request (by decide)
      · exact wellFormed_expect rfl quiet request (by decide)
  · rw [consumeOutgoing, if_pos writes]
    exact wellFormed

theorem Tick.wellFormed (tick : Tick exchange next) (wellFormed : WellFormed exchange.handshake) :
    WellFormed next.handshake := by
  cases tick with
  | take byte reads => exact absorb_wellFormed wellFormed reads byte
  | give byte rest writes pending => exact consumeOutgoing_wellFormed wellFormed 1

/-- `feed()` of bytes that come next in the stream. -/
theorem feed_ticks (data : Bytes) (wellFormed : WellFormed exchange.handshake)
    (front : exchange.received ++ data <+: stream) :
    ReflTransGen (StreamTick stream) exchange
      ⟨(exchange.handshake.feed data).1,
        exchange.received ++ data.take (exchange.handshake.feed data).2, exchange.emitted⟩ := by
  rw [feed_eq_absorbAll wellFormed]
  induction data generalizing exchange with
  | nil =>
    rw [absorbAll, take_nil, append_nil]
  | cons byte data ih =>
    rw [absorbAll]
    split
    · next reads =>
        have front' : (exchange.received ++ [byte]) ++ data <+: stream := by
          rw [append_assoc]
          exact front
        have tick : StreamTick stream exchange
            ⟨exchange.handshake.absorb byte, exchange.received ++ [byte], exchange.emitted⟩ :=
          ⟨.take exchange byte reads, (List.prefix_append _ _).trans front'⟩
        have later := @ih
          ⟨exchange.handshake.absorb byte, exchange.received ++ [byte], exchange.emitted⟩
          (absorb_wellFormed wellFormed reads byte) front'
        simp only [append_assoc, singleton_append] at later
        simpa only [take_succ_cons] using later.head tick
    · rw [take_zero, append_nil]

theorem consumeOutgoing_zero (wellFormed : WellFormed handshake) :
    handshake.consumeOutgoing 0 = handshake := by
  by_cases writes : handshake.status = .needWrite
  · have below := wellFormed.writing writes
    rw [consumeOutgoing, if_neg (not_not_intro writes)]
    rw [Nat.add_zero, Nat.min_eq_left (Nat.le_of_lt below), if_pos below]
  · rw [consumeOutgoing, if_pos writes]

theorem consumeOutgoing_one (writes : handshake.status = .needWrite)
    (more : handshake.outSent + 1 < handshake.out.length) :
    handshake.consumeOutgoing 1 = { handshake with outSent := handshake.outSent + 1 } := by
  rw [consumeOutgoing, if_neg (not_not_intro writes)]
  rw [Nat.min_eq_left (Nat.le_of_lt more), if_pos more]

/-- Acknowledging bytes together is acknowledging the first and then the others. -/
theorem consumeOutgoing_succ (writes : handshake.status = .needWrite)
    (more : handshake.outSent + 1 < handshake.out.length) (count : Nat) :
    handshake.consumeOutgoing (count + 1) =
      (handshake.consumeOutgoing 1).consumeOutgoing count := by
  rw [consumeOutgoing_one writes more, consumeOutgoing, consumeOutgoing,
    if_neg (not_not_intro writes), if_neg (not_not_intro writes)]
  rw [Nat.add_right_comm, Nat.add_assoc]

/-- `consumeOutgoing()` of at most the bytes that are pending. -/
theorem acknowledge_ticks (count : Nat) (wellFormed : WellFormed exchange.handshake)
    (front : exchange.received <+: stream)
    (pending : exchange.handshake.outSent + count ≤ exchange.handshake.out.length) :
    ReflTransGen (StreamTick stream) exchange
      ⟨exchange.handshake.consumeOutgoing count, exchange.received,
        exchange.emitted ++ exchange.handshake.outgoing.take count⟩ := by
  induction count generalizing exchange with
  | zero =>
    rw [consumeOutgoing_zero wellFormed, take_zero, append_nil]
  | succ count ih =>
    have writes : exchange.handshake.status = .needWrite := by
      by_contra other
      have quiet := wellFormed.quiet other
      omega
    cases out : exchange.handshake.outgoing with
    | nil =>
      have none := drop_eq_nil_iff.mp out
      omega
    | cons byte rest =>
      have tick : StreamTick stream exchange ⟨exchange.handshake.consumeOutgoing 1,
          exchange.received, exchange.emitted ++ [byte]⟩ :=
        ⟨.give exchange byte rest writes out, front⟩
      by_cases more : exchange.handshake.outSent + 1 < exchange.handshake.out.length
      · have one := consumeOutgoing_one writes more
        have left : (exchange.handshake.consumeOutgoing 1).outgoing = rest := by
          rw [one, outgoing, ← drop_drop]
          exact congrArg (List.drop 1) out
        have later := @ih ⟨exchange.handshake.consumeOutgoing 1, exchange.received,
          exchange.emitted ++ [byte]⟩ (consumeOutgoing_wellFormed wellFormed 1) front
          (by rw [one]; dsimp only; omega)
        rw [← consumeOutgoing_succ writes more, left, append_assoc] at later
        exact later.head tick
      · have last : count = 0 := by omega
        subst last
        exact .single tick

theorem streamTick_rightUnique (stream : Bytes) : Relator.RightUnique (StreamTick stream) := by
  rintro exchange left right ⟨first, leftFront⟩ ⟨second, rightFront⟩
  cases first with
  | take byte reads =>
    cases second with
    | take other _ =>
      have same := List.prefix_of_prefix_length_le leftFront rightFront (by simp)
      have bytes := same.eq_of_length (by simp)
      cases append_cancel_left bytes
      rfl
    | give _ _ writes => exact absurd (reads.symm.trans writes) nofun
  | give byte rest writes pending =>
    cases second with
    | take _ reads => exact absurd (reads.symm.trans writes) nofun
    | give other rest' _ pending' =>
      cases pending.symm.trans pending'
      rfl

/-- The handshake is over, or waits for more than the whole stream. -/
def Settled (stream : Bytes) (exchange : Exchange) : Prop :=
  exchange.handshake.status = .done ∨ exchange.handshake.status = .failed ∨
    (exchange.handshake.status = .needRead ∧ exchange.received = stream)

theorem Settled.no_tick (settled : Settled stream exchange) :
    ¬ StreamTick stream exchange next := by
  rintro ⟨tick, front⟩
  cases tick with
  | take byte reads =>
    rcases settled with done | failed | ⟨_, all⟩
    · exact absurd (done.symm.trans reads) nofun
    · exact absurd (failed.symm.trans reads) nofun
    · have short := front.length_le
      rw [all, length_append, length_singleton] at short
      omega
  | give byte rest writes pending =>
    rcases settled with done | failed | ⟨reads, _⟩
    · exact absurd (done.symm.trans writes) nofun
    · exact absurd (failed.symm.trans writes) nofun
    · exact absurd (reads.symm.trans writes) nofun

/-- Where an exchange can go along the stream, no two ends differ. -/
theorem settled_unique {left right : Exchange}
    (toLeft : ReflTransGen (StreamTick stream) exchange left)
    (toRight : ReflTransGen (StreamTick stream) exchange right)
    (leftSettled : Settled stream left) (rightSettled : Settled stream right) : left = right := by
  rcases ReflTransGen.total_of_right_unique (streamTick_rightUnique stream) toLeft toRight with
    path | path
  · rcases path.cases_head with same | ⟨_, tick, _⟩
    · exact same
    · exact absurd tick leftSettled.no_tick
  rcases path.cases_head with same | ⟨_, tick, _⟩
  · exact same.symm
  · exact absurd tick rightSettled.no_tick

/-- What the user of a handshake can do with it. -/
inductive Call where
  | feed (data : Bytes)
  | consumeOutgoing (length : Nat)
  | closed

/-- A call, with the bytes it takes from the proxy and those it acknowledges: a number of
them, or all that there are. -/
def Exchange.call (exchange : Exchange) : Call → Exchange
  | .feed data =>
    ⟨(exchange.handshake.feed data).1,
      exchange.received ++ data.take (exchange.handshake.feed data).2, exchange.emitted⟩
  | .consumeOutgoing length =>
    let sent := exchange.handshake.outgoing.take length
    ⟨exchange.handshake.consumeOutgoing sent.length, exchange.received, exchange.emitted ++ sent⟩
  | .closed => { exchange with handshake := exchange.handshake.closed }

theorem call_consumeOutgoing_ticks (wellFormed : WellFormed exchange.handshake)
    (front : exchange.received <+: stream) (length : Nat) :
    ReflTransGen (StreamTick stream) exchange (exchange.call (.consumeOutgoing length)) := by
  by_cases writes : exchange.handshake.status = .needWrite
  · have below := wellFormed.writing writes
    rw [Exchange.call]
    rw [length_take, take_eq_take_min]
    refine acknowledge_ticks _ wellFormed front ?_
    rw [outgoing, length_drop]
    omega
  · have quiet : exchange.handshake.outgoing = [] :=
      drop_eq_nil_iff.mpr (wellFormed.quiet writes)
    have same : exchange.call (.consumeOutgoing length) = exchange := by
      rw [Exchange.call, consumeOutgoing, if_pos writes, quiet, take_nil, append_nil]
    rw [same]

/-- How a run goes on: a number of the stream's next bytes is offered, or of the outgoing
bytes acknowledged. -/
inductive Action where
  | feed (count : Nat)
  | acknowledge (count : Nat)

def Action.call (stream : Bytes) (exchange : Exchange) : Action → Call
  | .feed count => .feed ((stream.drop exchange.received.length).take count)
  | .acknowledge count => .consumeOutgoing count

/-- A run along the stream; what a call left of it is offered again. -/
def Exchange.along (stream : Bytes) (exchange : Exchange) (actions : List Action) : Exchange :=
  actions.foldl (fun current action => current.call (action.call stream current)) exchange

theorem along_append (stream : Bytes) (exchange : Exchange) (actions more : List Action) :
    exchange.along stream (actions ++ more) = (exchange.along stream actions).along stream more :=
  foldl_append

theorem prefix_append_take {front : Bytes} (isFront : front <+: stream) (count : Nat) :
    front ++ (stream.drop front.length).take count <+: stream := by
  obtain ⟨rest, rfl⟩ := isFront
  rw [drop_left]
  rw [List.prefix_append_right_inj]
  exact take_prefix count rest

theorem action_ticks (wellFormed : WellFormed exchange.handshake)
    (front : exchange.received <+: stream) (action : Action) :
    ReflTransGen (StreamTick stream) exchange (exchange.call (action.call stream exchange)) := by
  cases action with
  | feed count => exact feed_ticks _ wellFormed (prefix_append_take front count)
  | acknowledge count => exact call_consumeOutgoing_ticks wellFormed front count

/-- What holds at every point of a run along a stream. -/
structure Along (stream : Bytes) (exchange : Exchange) : Prop where
  wellFormed : WellFormed exchange.handshake
  front : exchange.received <+: stream

theorem Along.tick (along : Along stream exchange)
    (ticks : ReflTransGen (StreamTick stream) exchange next) : Along stream next := by
  induction ticks with
  | refl => exact along
  | tail _ tick ih => exact ⟨tick.1.wellFormed ih.wellFormed, tick.2⟩

theorem along_ticks (actions : List Action) (along : Along stream exchange) :
    ReflTransGen (StreamTick stream) exchange (exchange.along stream actions) := by
  induction actions generalizing exchange with
  | nil => exact .refl
  | cons action actions ih =>
    have first := action_ticks along.wellFormed along.front action
    exact first.trans (ih (along.tick first))

/-- Once everything pending is acknowledged a live handshake reads. -/
theorem consumeOutgoing_all (writes : handshake.status = .needWrite) :
    (handshake.consumeOutgoing (handshake.outgoing.take handshake.out.length).length).status =
      .needRead := by
  have all : handshake.out.length ≤
      handshake.outSent + (handshake.outgoing.take handshake.out.length).length := by
    rw [outgoing, length_take, length_drop]
    omega
  rw [consumeOutgoing, if_neg (not_not_intro writes)]
  rw [Nat.min_eq_right all, if_neg (Nat.lt_irrefl _)]
  split <;> rfl

/-- A handshake that reads takes at least the first byte it is offered. -/
theorem feed_taken_pos (wellFormed : WellFormed handshake) (reads : handshake.status = .needRead)
    {data : Bytes} (some' : data ≠ []) : 0 < (handshake.feed data).2 := by
  cases data with
  | nil => exact absurd rfl some'
  | cons byte data =>
    rw [feed_eq_absorbAll wellFormed, absorbAll, if_pos reads]
    exact Nat.succ_pos _

/-- Acknowledging everything brings a run to an end or to a point where it reads. -/
theorem acknowledge_settles (stream : Bytes) (exchange : Exchange) :
    Settled stream (exchange.along stream [.acknowledge exchange.handshake.out.length]) ∨
      (exchange.along stream [.acknowledge exchange.handshake.out.length]).handshake.status =
        .needRead := by
  cases status : exchange.handshake.status with
  | needWrite => exact .inr (consumeOutgoing_all status)
  | needRead =>
    refine .inr ?_
    change (exchange.handshake.consumeOutgoing _).status = _
    rw [consumeOutgoing, if_pos (status ▸ (by simp)), status]
  | done =>
    refine .inl (.inl ?_)
    change (exchange.handshake.consumeOutgoing _).status = _
    rw [consumeOutgoing, if_pos (status ▸ (by simp)), status]
  | failed =>
    refine .inl (.inr (.inl ?_))
    change (exchange.handshake.consumeOutgoing _).status = _
    rw [consumeOutgoing, if_pos (status ▸ (by simp)), status]

theorem exists_settled (along : Along stream exchange) :
    ∃ more, Settled stream (exchange.along stream more) := by
  induction left : stream.length - exchange.received.length using Nat.strong_induction_on
    generalizing exchange with
  | _ left' ih =>
    rcases acknowledge_settles stream exchange with settled | reads
    · exact ⟨_, settled⟩
    let current := exchange.along stream [.acknowledge exchange.handshake.out.length]
    have currentAlong : Along stream current := along.tick (along_ticks _ along)
    have same : current.received = exchange.received := rfl
    by_cases all : current.received = stream
    · exact ⟨_, .inr (.inr ⟨reads, all⟩)⟩
    let rest := (stream.drop current.received.length).take stream.length
    have short : current.received.length < stream.length := by
      refine Nat.lt_of_le_of_ne currentAlong.front.length_le fun equal => ?_
      exact all (currentAlong.front.eq_of_length equal)
    have some' : rest ≠ [] := by
      rw [← length_pos_iff, length_take, length_drop]
      omega
    let next := current.along stream [.feed stream.length]
    have taken := feed_taken_pos currentAlong.wellFormed reads some'
    have longer : next.received.length =
        current.received.length + (rest.take (current.handshake.feed rest).2).length :=
      length_append
    have some'' : 0 < (rest.take (current.handshake.feed rest).2).length := by
      rw [length_take]
      exact Nat.lt_min.mpr ⟨taken, length_pos_of_ne_nil some'⟩
    obtain ⟨more, settled⟩ := ih (stream.length - next.received.length)
      (by rw [← left, ← same]; omega)
      (currentAlong.tick (along_ticks _ currentAlong)) rfl
    refine ⟨[.acknowledge exchange.handshake.out.length] ++ ([.feed stream.length] ++ more), ?_⟩
    exact settled

/-! ## What a finished run has consumed -/

section Runs

variable (settings : ProxySettings) (command : Command) (target : Bytes) (port : UInt16)

/-- A handshake as it was built. -/
def start : Exchange := { handshake := create settings command target port }

theorem start_along (stream : Bytes) : Along stream (start settings command target port) :=
  ⟨create_wellFormed settings command target port, nil_prefix⟩

/-- The constructor failed, or left the greeting to be sent. -/
theorem start_phase :
    ((start settings command target port).handshake.status = .failed ∧
        (start settings command target port).handshake.out = [] ∧
        (start settings command target port).handshake.result.reply = 0) ∨
      Phase settings (requestBytes command target port) (start settings command target port) := by
  rcases create_cases settings command target port with ⟨_, failed⟩ | ⟨_, _, built⟩
  · exact .inl failed
  refine .inr ?_
  rw [start, built]
  exact .greets ⟨rfl, rfl, requestBytes_ne_nil command target port⟩
    ⟨rfl, rfl, rfl, length_pos_of_ne_nil (greeting_ne_nil settings)⟩ rfl rfl

variable {settings command target port}

theorem Phase.ticks {request : Bytes} (phase : Phase settings request exchange)
    (ticks : ReflTransGen Tick exchange next) : Phase settings request next := by
  induction ticks with
  | refl => exact phase
  | tail _ tick ih => exact ih.tick tick

/-- A handshake that has failed makes no more ticks. -/
theorem failed_ticks (failed : exchange.handshake.status = .failed)
    (ticks : ReflTransGen Tick exchange next) : next = exchange := by
  rcases ticks.cases_head with same | ⟨_, tick, _⟩
  · exact same.symm
  cases tick with
  | take _ reads => exact absurd (failed.symm.trans reads) nofun
  | give _ _ writes => exact absurd (failed.symm.trans writes) nofun

/-- The handshake ended with the reply to its request: in Done, or in Failed with the
error of a reply code other than zero. -/
def Replied (handshake : Socks5Handshake) : Prop :=
  handshake.status = .done ∨
    (handshake.status = .failed ∧ handshake.result.reply ≠ 0 ∧
      handshake.error = (classifyReply handshake.result.reply).1)

theorem classifyReply_error (reply : UInt8) :
    (classifyReply reply).1 ≠ .proxyProtocol ∧ (classifyReply reply).1 ≠ .proxyAuthFailed := by
  unfold classifyReply
  split_ifs <;> exact ⟨nofun, nofun⟩

/-- The bytes consumed by then are the replies up to the request and the reply to it. -/
theorem Phase.consumed {request : Bytes} (phase : Phase settings request exchange)
    (replied : Replied exchange.handshake) :
    ∃ replies sent bytes, Negotiated settings replies sent ∧
      Reply exchange.handshake.result.reply bytes ∧ exchange.received = replies ++ bytes := by
  have ended : exchange.handshake.status = .done ∨ exchange.handshake.status = .failed :=
    replied.imp_right And.left
  cases phase with
  | greets _ writing => simp [writing.status] at ended
  | method _ reading => simp [reading.status] at ended
  | authorizes _ _ writing => simp [writing.status] at ended
  | auth _ _ reading => simp [reading.status] at ended
  | requests _ _ _ _ writing => simp [writing.status] at ended
  | reply _ _ _ _ _ stage => simp [stage.status] at ended
  | done replies sent bytes negotiated _ whole code received =>
    exact ⟨replies, sent, bytes, negotiated, code ▸ whole, received⟩
  | refused replies sent bytes negotiated _ _ whole _ received =>
    exact ⟨replies, sent, bytes, negotiated, whole, received⟩
  | failed fails =>
    rcases replied with done | ⟨_, _, error⟩
    · exact absurd (fails.status.symm.trans done) nofun
    have other := classifyReply_error exchange.handshake.result.reply
    rcases fails.error with protocol | auth
    · exact absurd (error.symm.trans protocol) other.1
    · exact absurd (error.symm.trans auth) other.2

theorem ticks_consumed (ticks : ReflTransGen Tick (start settings command target port) exchange)
    (replied : Replied exchange.handshake) :
    ∃ replies sent bytes, Negotiated settings replies sent ∧
      Reply exchange.handshake.result.reply bytes ∧ exchange.received = replies ++ bytes := by
  rcases start_phase settings command target port with ⟨failed, _, code⟩ | phase
  · rw [failed_ticks failed ticks] at replied
    rcases replied with done | ⟨_, other, _⟩
    · exact absurd (failed.symm.trans done) nofun
    · exact absurd code other
  · exact (phase.ticks ticks).consumed replied

end Runs

/-- All fragmentations of a stream, and of the acknowledgements, that run to the end reach
one and the same exchange, every run can be brought to its end, and one that ends with
the reply to the request has consumed the replies up to there and nothing behind them. -/
theorem along_fragmentation (settings : ProxySettings) (command : Command) (target : Bytes)
    (port : UInt16) (stream : Bytes) :
    (∀ left right : List Action,
        Settled stream ((start settings command target port).along stream left) →
        Settled stream ((start settings command target port).along stream right) →
        (start settings command target port).along stream left =
          (start settings command target port).along stream right) ∧
      (∀ actions : List Action, ∃ more : List Action,
        Settled stream ((start settings command target port).along stream (actions ++ more))) ∧
      ∀ actions : List Action,
        ((start settings command target port).along stream actions).received <+: stream ∧
          (Replied ((start settings command target port).along stream actions).handshake →
            ∃ replies sent bytes, Negotiated settings replies sent ∧
              Reply ((start settings command target port).along stream
                actions).handshake.result.reply bytes ∧
              ((start settings command target port).along stream actions).received =
                replies ++ bytes) := by
  have origin := start_along settings command target port stream
  refine ⟨?_, ?_, ?_⟩
  · intro left right leftSettled rightSettled
    exact settled_unique (along_ticks left origin) (along_ticks right origin) leftSettled
      rightSettled
  · intro actions
    obtain ⟨more, settled⟩ := exists_settled (origin.tick (along_ticks actions origin))
    exact ⟨more, by rw [along_append]; exact settled⟩
  · intro actions
    have ticks := along_ticks actions origin
    exact ⟨(origin.tick ticks).front,
      ticks_consumed (ReflTransGen.mono (fun _ _ tick => tick.1) _ _ ticks)⟩

/-- A proxy that answers for 1.2.3.4 and goes on with a byte of the peer. -/
theorem along_fragmentation_connect :
    let settings : ProxySettings :=
      { enabled := true, host := ascii "proxy", port := 1080 }
    let stream : Bytes := [5, 0, 5, 0, 0, 1, 1, 2, 3, 4, 0, 80, 65]
    let exchange := start settings .connect (ascii "example.org") 80
    let whole := exchange.along stream
      [.acknowledge 3, .feed 13, .acknowledge 18, .feed 11]
    let pieces := exchange.along stream
      [.acknowledge 2, .feed 1, .acknowledge 9, .feed 1, .feed 9, .acknowledge 20,
        .feed 6, .feed 20]
    whole.handshake.status = .done ∧ whole = pieces ∧ whole.received = stream.take 12 := by
  refine ⟨by decide, ?_, by decide⟩
  exact (along_fragmentation _ _ _ _ _).1 _ _ (.inl (by decide)) (.inl (by decide))

end Socks5

end SamuraiFormal.Net
