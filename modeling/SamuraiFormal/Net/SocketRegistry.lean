import SamuraiFormal.Net.SocketRuns

/-!
# A live socket is registered under its one descriptor

The base agrees with the socket along every run.  It is tidy, and a live socket is
monitored, along every run in which the application disconnects before it connects again,
and does not connect from a callback behind which the socket is still torn down.
-/

namespace SamuraiFormal.Net.Socket

open Util Library.Traces
open SocketBase (Tidy)

variable {watched after origin state : Watched} {label : Label} {acts trace : List Act}

theorem Watched.step_eq_some (moves : watched.step label = some (after, acts)) :
    Socket.step watched.config label = some (after.config, acts) ∧
      after.base = watched.base.perform (baseCalls watched.config label) := by
  unfold Watched.step at moves
  cases step : Socket.step watched.config label with
  | none =>
    rw [step] at moves
    cases moves
  | some result =>
    rw [step] at moves
    cases moves
    exact ⟨rfl, rfl⟩

/-- A socket as its constructors make it, with its base. -/
inductive Starts : Watched → Prop where
  | ofName (eventHandler : Bool) (address : Bytes) (port : UInt16) (settings : ProxySettings) :
      Starts ⟨⟨.ofName eventHandler address port settings, []⟩, {}⟩
  | ofAddress (eventHandler : Bool) (address : InetAddress) (port : UInt16)
      (settings : ProxySettings) :
      Starts ⟨⟨.ofAddress eventHandler address port settings, []⟩, {}⟩
  | accepted (peer : SocketAddress) : Starts ⟨⟨.accepted peer, []⟩, acceptedBase⟩

theorem Starts.agrees (starts : Starts origin) : Agrees origin.base origin.config.socket := by
  cases starts <;> exact ⟨rfl, rfl⟩

/-- Along every run, whatever the application does, the base agrees with the socket. -/
theorem run_agrees (starts : Starts origin)
    (run : Run Watched.step (fun _ _ => True) origin state trace) :
    Agrees state.base state.config.socket := by
  refine run.invariant (fun state _ => Agrees state.base state.config.socket) starts.agrees ?_
  intro before next trace acts label agrees _ moves
  obtain ⟨moves, base⟩ := Watched.step_eq_some moves
  obtain ⟨outcome, rest, -, same, -, course, -⟩ := @step_code ⟨True, True, True⟩ _ _ _ _ moves
  rw [base, same]
  exact course.agrees agrees

/-- A live socket has an open descriptor and is registered under it, the flag says whether
it is registered under its descriptor, and no other descriptor is open or registered. -/
structure Registered (watched : Watched) : Prop where
  live : isLive watched.config.socket.state = true →
    ∃ sd, watched.config.socket.sd = some sd ∧ sd ∈ watched.base.descriptors ∧
      sd ∈ watched.base.registry
  monitored : watched.base.monitored = true ↔
    ∃ sd, watched.config.socket.sd = some sd ∧ sd ∈ watched.base.registry
  current : ∀ sd ∈ watched.base.registry, watched.config.socket.sd = some sd
  single : watched.base.descriptors.length ≤ 1

theorem Intact.registered (sound : Intact watched.base watched.config.socket) :
    Registered watched := by
  obtain ⟨agrees, tidy, live⟩ := sound
  have place (busy : watched.base.monitored = true) :
      ∃ sd, watched.config.socket.sd = some sd ∧ watched.base.registry = [sd] ∧
        watched.base.descriptors = [sd] := by
    obtain ⟨sd, held⟩ := Option.isSome_iff_exists.mp (tidy.held busy)
    refine ⟨sd, agrees.sd.symm.trans held, ?_, ?_⟩
    · rw [tidy.registry, if_pos busy, held]
      rfl
    · rw [tidy.descriptors, held]
      rfl
  have idle (off : watched.base.monitored ≠ true) : watched.base.registry = [] := by
    rw [tidy.registry, if_neg off]
  refine ⟨?_, ⟨?_, ?_⟩, ?_, ?_⟩
  · intro alive
    obtain ⟨sd, held, registry, descriptors⟩ := place (live alive)
    exact ⟨sd, held, by simp [descriptors], by simp [registry]⟩
  · intro busy
    obtain ⟨sd, held, registry, _⟩ := place busy
    exact ⟨sd, held, by simp [registry]⟩
  · rintro ⟨sd, _, member⟩
    by_contra off
    rw [idle off] at member
    cases member
  · intro sd member
    by_cases busy : watched.base.monitored = true
    · obtain ⟨held, same, registry, _⟩ := place busy
      rw [registry, List.mem_singleton] at member
      rw [member, same]
    · rw [idle busy] at member
      cases member
  · rw [tidy.descriptors]
    cases watched.base.sd <;> simp

/-- A new descriptor is asked for when there is none and nothing behind a callback is about
to tear the socket down, and the calls of the application are proper. -/
def Orderly (config : Config) (label : Label) : Prop :=
  (creates (baseCalls config label) = true →
      config.socket.sd = none ∧ config.stack.any Task.tearsDown = false) ∧
    proper config.socket label = true

instance (config : Config) (label : Label) : Decidable (Orderly config label) :=
  inferInstanceAs (Decidable ((_ → _ ∧ _) ∧ _))

/-- An intact socket that is not about to be torn down while it is live. -/
structure Settled (watched : Watched) : Prop where
  sound : Intact watched.base watched.config.socket
  clean : isLive watched.config.socket.state = true →
    watched.config.stack.any Task.tearsDown = false

theorem Settled.step (settled : Settled watched) (orderly : Orderly watched.config label)
    (moves : watched.step label = some (after, acts)) : Settled after := by
  obtain ⟨moves, base⟩ := Watched.step_eq_some moves
  obtain ⟨outcome, rest, suffix, same, -, course, -⟩ := @step_code ⟨True, True, True⟩ _ _ _ _ moves
  have tears : watched.config.stack.any Task.tearsDown = true →
      isLive watched.config.socket.state = false := by
    intro torn
    by_contra live
    rw [settled.clean (eq_true_of_ne_false live)] at torn
    cases torn
  refine ⟨?_, ?_⟩
  · rw [base, same]
    exact course.sound ⟨orderly.2, tears⟩ settled.sound fun new => (orderly.1 new).1
  · intro live
    rw [same] at live
    have below : watched.config.stack.any Task.tearsDown = false := by
      rcases course.origin live with before | new
      · exact settled.clean before
      · exact (orderly.1 new).2
    have left : rest.any Task.tearsDown = false := by
      rw [List.any_eq_false] at below
      exact List.any_eq_false.mpr fun task member => below task (suffix.subset member)
    rw [same]
    rw [List.any_append, course.clean live, left]
    rfl

/-- A socket for a connection of its own, or an accepted one that has been given its
handler. -/
inductive Prepared : Watched → Prop where
  | outbound {origin : Watched} (starts : Starts origin)
      (outbound : origin.config.socket.outbound = true) : Prepared origin
  | accepted {after : Watched} {acts : List Act} (peer : SocketAddress) (answers : Answers)
      (given : Watched.step ⟨⟨.accepted peer, []⟩, acceptedBase⟩
        (.call (.setEventHandler true) answers) = some (after, acts)) : Prepared after

theorem Prepared.settled (prepared : Prepared origin) : Settled origin := by
  cases prepared with
  | outbound starts outbound =>
    cases starts with
    | accepted peer => cases outbound
    | _ => exact ⟨⟨⟨rfl, rfl⟩, ⟨rfl, rfl, nofun⟩, nofun⟩, nofun⟩
  | accepted peer answers given =>
    cases given
    exact ⟨⟨⟨rfl, rfl⟩, ⟨rfl, rfl, fun _ => rfl⟩, fun _ => rfl⟩, fun _ => rfl⟩

/-- Along every orderly run the socket is registered as it should be, inside callbacks too. -/
theorem run_registered (prepared : Prepared origin)
    (run : Run Watched.step (fun watched label => Orderly watched.config label) origin state
      trace) : Registered state := by
  have settled : Settled state := by
    refine run.invariant (fun state _ => Settled state) prepared.settled ?_
    intro before next trace acts label settled orderly moves
    exact settled.step orderly moves
  exact settled.sound.registered

/-- A socket for the peer at `1.2.3.4`. -/
def caller : Watched := ⟨⟨.ofName true (ascii "1.2.3.4") 80 {}, []⟩, {}⟩

theorem caller_prepared : Prepared caller :=
  .outbound (.ofName true (ascii "1.2.3.4") 80 {}) rfl

/-- The connection is made and the peer closes it; the handler is in `EventDisconnected`. -/
def hungUp : List Label :=
  [.call .connect {}, .back, .resume {}, .back, .resume { connect := some .inProgress }, .back,
    .monitor { write := true }, .resume {}, .resume {}, .back, .resume {},
    .monitor { read := true }, .resume { received := .data [] }]

/-- `connect()` when the event loop has control again. -/
def connectLater : List Label :=
  [.back, .resume {}, .resume {}, .resume {}, .call .connect { connect := some .inProgress },
    .back]

/-- `connect()` from inside the callback. -/
def connectInside : List Label :=
  [.call .connect { connect := some .inProgress }, .back, .back, .resume {}, .resume {},
    .resume {}]

/-- After a connection that the peer has closed, `connect()` leaves the old descriptor open.
From inside `EventDisconnected` it also leaves a connecting socket that no monitor watches,
while the registry still has the old descriptor. -/
theorem not_registered_again :
    (∃ state trace, play Watched.step caller (hungUp ++ connectLater) = some (state, trace) ∧
      state.config.stack = [] ∧ state.base.descriptors = [1, 0] ∧ ¬ Registered state) ∧
    ∃ state trace, play Watched.step caller (hungUp ++ connectInside) = some (state, trace) ∧
      state.config.stack = [] ∧ state.config.socket.state = .connecting ∧
      state.config.socket.sd = some 1 ∧ state.base.monitored = false ∧
      state.base.registry = [0] ∧ ¬ Registered state := by
  refine ⟨⟨_, _, rfl, rfl, rfl, ?_⟩, _, _, rfl, rfl, rfl, rfl, rfl, rfl, ?_⟩
  · intro registered
    exact absurd registered.single (by decide)
  · intro registered
    exact absurd registered.single (by decide)

/-- `disconnect()` in between closes the old descriptor. -/
def connectAfresh : List Label :=
  [.back, .resume {}, .resume {}, .resume {}, .call .disconnect {},
    .call .connect { connect := some .inProgress }, .back]

theorem run_registered_afresh :
    ∃ state trace,
      play (restrict Watched.step fun watched label => Orderly watched.config label) caller
        (hungUp ++ connectAfresh) = some (state, trace) ∧
      state.config.socket.state = .connecting ∧ state.config.socket.sd = some 1 ∧
      Registered state :=
  ⟨_, _, rfl, rfl, rfl,
    run_registered caller_prepared (run_of_play (hungUp ++ connectAfresh) rfl)⟩

end SamuraiFormal.Net.Socket
