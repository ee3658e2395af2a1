import SamuraiFormal.Net.SocketModes

/-!
# A proxied socket stays behind its proxy

Runs of an outbound socket on which proxy settings are in force whenever it looks up or
connects.  Only the proxy's own host goes to the resolver; a connection is reported once
per `connect()`, with the handshake for the peer done; and nothing is transferred on a
descriptor before its connection is reported.
-/

namespace SamuraiFormal.Net.Socket

open Util
open Library.Traces
open List

/-- A `connect()` with no report of a connection behind it. -/
def Open (trace : List Act) : Prop :=
  ∃ front sd back, trace = front ++ .called .connect sd :: back ∧
    ∀ place heard, .event .connected place heard ∉ back

/-- The connection on the descriptor has been reported. -/
def Reported (sd : Nat) (trace : List Act) : Prop :=
  ∃ heard, .event .connected (some sd) heard ∈ trace

/-- The descriptor over which an act transfers application bytes, or takes a step of a
TLS session. -/
def uses : Act → Option Nat
  | .plainSend sd _ => some sd
  | .plainRecv sd _ => some sd
  | .tlsSend sd _ => sd
  | .tlsRecv sd _ => sd
  | .tlsStep sd _ => sd
  | .tlsBye sd _ => sd
  | _ => none

/-- What each act of a proxied socket keeps to. -/
structure Faithful (settings : ProxySettings) (peer : Bytes) (port : UInt16) (front : List Act)
    (act : Act) : Prop where
  resolve : ∀ name, act = .resolve name → name = cString settings.host
  report : ∀ sd heard, act = .event .connected sd heard → Open front ∧
    ∃ rest handshake, front = rest ++ [.tunnelled sd handshake] ∧ handshake.status = .done ∧
      Names settings peer port handshake
  transfer : ∀ sd, uses act = some sd → Reported sd front

/-- The application calls `lookup()` or `connect()`. -/
def asksForPeer : Label → Bool
  | .call .lookup _ => true
  | .call .connect _ => true
  | _ => false

/-- The settings are in force before the socket looks up or connects, and stay so. -/
def Tunnelling (settings : ProxySettings) (config : Config) (label : Label) : Prop :=
  (config.socket.state = .disconnected → chosen label = none ∨ chosen label = some settings) ∧
    (asksForPeer label = true → config.socket.proxy = settings)

instance (settings : ProxySettings) (config : Config) (label : Label) :
    Decidable (Tunnelling settings config label) :=
  inferInstanceAs (Decidable (_ ∧ _))

theorem Open.append {trace acts : List Act} (open' : Open trace)
    (none' : ∀ place heard, .event .connected place heard ∉ acts) : Open (trace ++ acts) := by
  obtain ⟨front, sd, back, rfl, unreported⟩ := open'
  refine ⟨front, sd, back ++ acts, by simp, ?_⟩
  intro place heard member
  rcases mem_append.mp member with earlier | now
  · exact unreported place heard earlier
  · exact none' place heard now

theorem Reported.append {sd : Nat} {trace acts : List Act} (reported : Reported sd trace) :
    Reported sd (trace ++ acts) := by
  obtain ⟨heard, member⟩ := reported
  exact ⟨heard, mem_append_left _ member⟩

/-! ## The invariant -/

/-- A report of the connection is to come. -/
def Waits (socket : Socket) : Prop := ¬ unasked socket.proxyAddress ∨ socket.Negotiates

/-- What holds of a proxied socket after a trace. -/
structure Tunnels (settings : ProxySettings) (peer : Bytes) (port : UInt16) (socket : Socket)
    (trace : List Act) : Prop where
  outbound : socket.outbound = true
  proxied : Proxied peer port socket
  early : socket.proxy ≠ settings → socket.proxyAddress = none ∧ socket.Rests
  asked : socket.Waits → Open trace
  reported : established socket.state = true → ∀ sd, socket.sd = some sd → Reported sd trace
  faithful : Always (Faithful settings peer port) trace

variable {settings : ProxySettings} {peer : Bytes} {port : UInt16} {socket next : Socket}
  {trace acts : List Act} {occasion : Occasion}

/-- An act of no interest here. -/
def isSilent : Act → Bool
  | .resolve _ => false
  | .event .connected _ _ => false
  | act => uses act = none

theorem faithful_of_silent {front : List Act} {act : Act} (silent : isSilent act = true) :
    Faithful settings peer port front act := by
  constructor
  · rintro name rfl
    cases silent
  · rintro sd heard rfl
    cases silent
  · intro sd place
    unfold isSilent at silent
    split at silent
    · cases silent
    · cases silent
    · rw [place] at silent
      cases silent

theorem unreported_of_silent (silent : acts.all isSilent = true) (place : Option Nat)
    (heard : Bool) : .event .connected place heard ∉ acts := by
  intro member
  exact absurd (all_eq_true.mp silent _ member) nofun

theorem always_of_silent (always : Always (Faithful settings peer port) trace)
    (silent : acts.all isSilent = true) : Always (Faithful settings peer port) (trace ++ acts) := by
  refine always.append ?_
  intro front act back split
  refine faithful_of_silent (all_eq_true.mp silent act ?_)
  simp [split]

theorem isSilent_event {event : SocketEvent} (other : event ≠ .connected) (sd : Option Nat)
    (heard : Bool) : isSilent (.event event sd heard) = true := by
  cases event with
  | connected => exact absurd rfl other
  | _ => rfl

theorem isSilent_of_isTraffic {act : Act} (traffic : IsTraffic act) : isSilent act = true := by
  rcases traffic with ⟨sd, data, rfl⟩ | ⟨sd, data, rfl⟩ <;> rfl

theorem Answered.silent (answered : Answered occasion socket acts next) :
    acts.all isSilent = true := by
  obtain ⟨_, _, _, answer, _⟩ := answered
  cases answer <;> rfl

namespace Tunnels

section

variable (tunnels : Tunnels settings peer port socket trace)
include tunnels

/-- The settings of the run are in force, once there is something to wait for. -/
theorem force (waits : socket.Waits) : socket.proxy = settings := by
  by_contra other
  obtain ⟨missing, rests⟩ := tunnels.early other
  rcases waits with out | negotiates
  · refine out ?_
    rw [missing]
    nofun
  · exact not_negotiates_of_rests rests negotiates

section

variable (same : SameSettings socket next)
include same

variable (proxied : Proxied peer port next)
include proxied

/-- Acts of no interest, while what is waited for stays. -/
theorem still (early : socket.proxyAddress = none → next.proxyAddress = none)
    (waits : unasked socket.proxyAddress → unasked next.proxyAddress)
    (moves : next.state = socket.state ∨ next.Rests)
    (keeps : established next.state = true → next.sd = none ∨ next.sd = socket.sd)
    (silent : acts.all isSilent = true) : Tunnels settings peer port next (trace ++ acts) := by
  refine ⟨same.outbound.trans tunnels.outbound, proxied, ?_, ?_, ?_,
    always_of_silent tunnels.faithful silent⟩
  · intro other
    rw [same.proxy] at other
    obtain ⟨missing, rests⟩ := tunnels.early other
    refine ⟨early missing, ?_⟩
    rcases moves with still | rests'
    · rwa [Rests, still]
    · exact rests'
  · intro waits'
    refine Open.append (tunnels.asked ?_) (unreported_of_silent silent)
    rcases waits' with out | negotiates
    · exact .inl fun idle => out (waits idle)
    rcases moves with still | rests
    · exact .inr (by rwa [Negotiates, still] at negotiates)
    · exact absurd negotiates (not_negotiates_of_rests rests)
  · intro live sd place
    have was : established socket.state = true := by
      rcases moves with still | rests
      · rwa [still] at live
      · exact absurd rests (not_rests_of_established live)
    rcases keeps live with shut | kept
    · rw [place] at shut
      cases shut
    · exact (tunnels.reported was sd (kept ▸ place)).append

/-- The lookup of the proxy has come to its end. -/
theorem settle {old host : Host} (place : socket.proxyAddress = some old)
    (idle : host.request = none) (moves : next.state = socket.state ∨ next.Rests)
    (keeps : established next.state = true → next.sd = none ∨ next.sd = socket.sd)
    (silent : acts.all isSilent = true) (held : next.proxyAddress = some host := by rfl) :
    Tunnels settings peer port next (trace ++ acts) := by
  refine tunnels.still same proxied ?_ ?_ moves keeps silent
  · intro missing
    rw [place] at missing
    cases missing
  · intro _ found here
    rw [held] at here
    cases here
    exact idle

/-- The socket is on an established connection before and after. -/
theorem use {act : Act} (live : established socket.state = true)
    (lives : established next.state = true) (keeps : next.sd = socket.sd)
    (place : ∀ sd, uses act = some sd → socket.sd = some sd) (named : ∀ name, act ≠ .resolve name)
    (other : ∀ sd heard, act ≠ .event .connected sd heard) :
    Tunnels settings peer port next (trace ++ [act]) := by
  have idle := proxied.unasked_of_not_rests (not_rests_of_established lives)
  refine ⟨same.outbound.trans tunnels.outbound, proxied, ?_, ?_, ?_,
    always_snoc.mpr ⟨tunnels.faithful, ?_, ?_, ?_⟩⟩
  · intro early
    rw [same.proxy] at early
    exact absurd (tunnels.early early).2 (not_rests_of_established live)
  · rintro (out | negotiates)
    · exact absurd idle out
    · exact absurd negotiates (not_negotiates_of_established lives)
  · intro _ sd here
    exact (tunnels.reported live sd (keeps ▸ here)).append
  · intro name same
    exact absurd same (named name)
  · intro sd heard same
    exact absurd same (other sd heard)
  · intro sd same
    exact tunnels.reported live sd (place sd same)

/-- What `connect()` has begun is still to be reported. -/
theorem await (force : socket.proxy = settings) (asked : Open trace)
    (out : ¬ established next.state = true) (silent : acts.all isSilent = true) :
    Tunnels settings peer port next (trace ++ acts) := by
  refine ⟨same.outbound.trans tunnels.outbound, proxied, ?_, ?_, fun live => absurd live out,
    always_of_silent tunnels.faithful silent⟩
  · intro other
    rw [same.proxy] at other
    exact absurd force other
  · intro _
    exact asked.append (unreported_of_silent silent)

/-- The socket is on its way before and after. -/
theorem proceed (waits : socket.Waits) (negotiates : next.Negotiates)
    (silent : acts.all isSilent = true) : Tunnels settings peer port next (trace ++ acts) :=
  tunnels.await same proxied (tunnels.force waits) (tunnels.asked waits)
    (fun live => not_negotiates_of_established live negotiates) silent

end

/-- The proxy has confirmed the peer. -/
theorem report {handshake : Socks5Handshake} (negotiates : socket.state = .proxyHandshake)
    (place : socket.handshake = some handshake) (done : handshake.status = .done)
    (same : SameSettings socket next) (proxied : Proxied peer port next)
    (state : next.state = .connected) (keeps : next.sd = socket.sd) :
    Tunnels settings peer port next
      (trace ++ [.tunnelled socket.sd handshake,
        .event .connected socket.sd socket.eventHandler]) := by
  have waits : socket.Waits := .inr (.inr negotiates)
  have live : established next.state = true := by
    rw [state]
    rfl
  have told : Always (Faithful settings peer port) (trace ++ [.tunnelled socket.sd handshake]) :=
    always_of_silent tunnels.faithful rfl
  have idle := proxied.unasked_of_not_rests (not_rests_of_established live)
  refine ⟨same.outbound.trans tunnels.outbound, proxied, ?_, ?_, ?_, ?_⟩
  · intro other
    rw [same.proxy] at other
    exact absurd (tunnels.force waits) other
  · rintro (out | negotiates)
    · exact absurd idle out
    · exact absurd negotiates (not_negotiates_of_established live)
  · intro _ sd here
    rw [keeps] at here
    exact ⟨socket.eventHandler, by simp [here]⟩
  · obtain ⟨held, here, names⟩ := tunnels.proxied.negotiates (.inr negotiates)
    rw [place] at here
    cases here
    rw [tunnels.force waits] at names
    rw [append_cons]
    refine always_snoc.mpr ⟨told, nofun, ?_, nofun⟩
    rintro _ _ ⟨⟩
    exact ⟨(tunnels.asked waits).append (unreported_of_silent rfl), trace, handshake, rfl, done,
      names⟩

end

/-- Every move that makes no use of the peer's address. -/
theorem move (enabled : settings.enabled = true) (direct : ¬ occasion.peer)
    (tunnels : Tunnels settings peer port socket trace) (move : Move occasion socket acts next) :
    Tunnels settings peer port next (trace ++ acts) := by
  have same := move.sameSettings
  have proxied := tunnels.proxied.move direct move
  cases move with
  | frame _ other =>
    refine tunnels.still same proxied ?_ ?_ ?_ ?_ rfl
    · rw [other]
      exact id
    · rw [other]
      exact id
    · exact .inl (by rw [other])
    · exact fun _ => .inr (by rw [other])
  | event event other _ =>
    refine tunnels.still same proxied id id (.inl rfl) (fun _ => .inr rfl) ?_
    rw [all_cons, isSilent_event other]
    rfl
  | returned reply => exact tunnels.still same proxied id id (.inl rfl) (fun _ => .inr rfl) rfl
  | fail => exact tunnels.still same proxied id id (.inr (.inr rfl)) (by simp) rfl
  | hangUp _ => exact tunnels.still same proxied id id (.inr (.inl rfl)) (by simp) rfl
  | close => exact tunnels.still same proxied id id (.inl rfl) (fun _ => .inl rfl) rfl
  | plainSend sd data place ready | plainRecv sd data place ready =>
    have live := established_of_transfers ready
    refine tunnels.use same proxied live live rfl ?_ (by simp) (by simp)
    rintro _ ⟨⟩
    exact place
  | tlsSend data secure | tlsRecv data secure =>
    have live := established_of_isSecure secure
    exact tunnels.use same proxied live live rfl (fun _ place => place) (by simp) (by simp)
  | tlsStart | tlsStop => exact tunnels.still same proxied id id (.inl rfl) (fun _ => .inr rfl) rfl
  | tlsStep status session ready fits =>
    have live : established socket.state = true := by
      rcases ready with state | state <;> rw [state] <;> rfl
    have lives : established (afterStep status) = true := by cases status <;> rfl
    exact tunnels.use same proxied live lives rfl (fun _ place => place) (by simp) (by simp)
  | tlsBye status ready =>
    have live : established socket.state = true := by
      rcases ready with state | state <;> rw [state] <;> rfl
    have lives : established (afterBye status) = true := by cases status <;> rfl
    exact tunnels.use same proxied live lives rfl (fun _ place => place) (by simp) (by simp)
  | askPeer _ _ asks _ _ => exact absurd asks direct
  | lookupFailed which host dnsevent place _ cause =>
    cases which with
    | peer =>
      rcases cause rfl with out | asks
      · exact absurd (tunnels.proxied.quiet host place) out
      · exact absurd asks direct
    | proxy => exact tunnels.settle same proxied place rfl (.inr (.inr rfl)) (by simp) rfl
  | unheard which host name ip place out deaf | unheardFailure which host name place out deaf =>
    cases which with
    | peer =>
      rw [tunnels.proxied.quiet host place] at out
      cases out
    | proxy => exact tunnels.settle same proxied place rfl (.inl rfl) (fun _ => .inr rfl) rfl
  | clearDnsevent which host place =>
    cases which with
    | peer => exact tunnels.still same proxied id id (.inl rfl) (fun _ => .inr rfl) rfl
    | proxy =>
      have here : socket.proxyAddress = some host := place
      refine tunnels.still same proxied ?_ ?_ (.inl rfl) (fun _ => .inr rfl) rfl
      · intro missing
        rw [here] at missing
        cases missing
      · rintro idle _ ⟨⟩
        exact idle host here
  | found which host _ answer mode =>
    obtain ⟨old, _, place, out, _⟩ := tunnels.proxied.answer direct answer
    rw [(tunnels.proxied.pending old place out).target] at mode
    cases mode
  | answered _ _ answered =>
    have silent := answered.silent
    obtain ⟨which, host, _, answer, mode⟩ := answered
    obtain ⟨old, rfl, place, out, name, idle⟩ := tunnels.proxied.answer direct answer
    exact tunnels.settle same proxied place idle (.inl rfl) (fun _ => .inr rfl) silent
  | dial _ _ answered target at' =>
    have silent := answered.silent
    obtain ⟨which, host, _, answer, mode⟩ := answered
    obtain ⟨old, rfl, place, out, name, idle⟩ := tunnels.proxied.answer direct answer
    have waits : socket.Waits := .inl fun idle => out (idle old place)
    refine tunnels.proceed same proxied waits (.inl rfl) ?_
    rw [all_append, silent]
    rfl
  | reopen => exact tunnels.still same proxied id id (.inr (.inr rfl)) (by rintro ⟨⟩) rfl
  | established waits mode =>
    obtain ⟨handshake, place, _⟩ := tunnels.proxied.negotiates (.inl waits)
    refine absurd ⟨?_, by rw [place]; rfl⟩ mode
    rw [isProxied, tunnels.outbound, tunnels.force (.inr (.inl waits)), enabled]
    rfl
  | tunnel waits _ _ =>
    exact tunnels.proceed same proxied (.inr (.inl waits)) (.inr rfl) rfl
  | pump handshake after traffic negotiates place _ only =>
    refine tunnels.proceed same proxied (.inr (.inr negotiates)) (.inr negotiates) ?_
    rw [all_cons, Bool.and_eq_true, all_eq_true]
    exact ⟨rfl, fun act member => isSilent_of_isTraffic (only act member)⟩
  | tunnelled handshake negotiates place done =>
    exact tunnels.report negotiates place done same proxied rfl rfl
  | proxyFailed negotiates => exact tunnels.still same proxied id id (.inr (.inr rfl)) (by simp) rfl

section

variable (tunnels : Tunnels settings peer port socket trace)
include tunnels

theorem isProxied (enabled : settings.enabled = true) (force : socket.proxy = settings) :
    socket.isProxied = true := by
  rw [Socket.isProxied, tunnels.outbound, force, enabled]
  rfl

theorem note {act : Act} (quiet : ∀ place heard, act ≠ .event .connected place heard)
    (faithful : Faithful settings peer port trace act) :
    Tunnels settings peer port socket (trace ++ [act]) := by
  refine ⟨tunnels.outbound, tunnels.proxied, tunnels.early, ?_, ?_,
    always_snoc.mpr ⟨tunnels.faithful, faithful⟩⟩
  · intro waits
    refine (tunnels.asked waits).append ?_
    intro place heard member
    exact quiet place heard (mem_singleton.mp member).symm
  · intro live sd place
    exact (tunnels.reported live sd place).append

end

/-- `connect()` on a socket whose settings are in force. -/
theorem begins (enabled : settings.enabled = true)
    (tunnels : Tunnels settings peer port socket trace) (force : socket.proxy = settings)
    (asked : Open trace) (begins : Begin socket acts next) :
    Tunnels settings peer port next (trace ++ acts) := by
  have same := begins.sameSettings
  have proxied := tunnels.proxied.begins (tunnels.isProxied enabled force) begins
  have out (idle : socket.Idle) : ¬ established socket.state = true :=
    fun live => not_rests_of_established live (tunnels.proxied.rests_of_idle idle)
  cases begins with
  | refuse | dial => exact tunnels.await same proxied force asked nofun rfl
  | prepare _ idle _ => exact tunnels.await same proxied force asked (out idle) rfl
  | ask _ idle _ _ _ =>
    have waiting : Tunnels settings peer port _ (trace ++ []) :=
      tunnels.await same proxied force asked (out idle) rfl
    rw [append_nil] at waiting
    refine waiting.note nofun ⟨?_, nofun, nofun⟩
    rintro _ ⟨⟩
    have named := proxied.proxyName _ rfl
    rw [force] at named
    exact congrArg cString named
  | aim _ idle aims =>
    refine tunnels.await same proxied force asked ?_ rfl
    cases aims <;> exact out idle

end Tunnels

theorem Constructed.tunnels {origin : Socket} (constructed : Constructed origin)
    (outbound : origin.outbound = true) :
    Tunnels settings origin.getPeerName origin.port origin [] := by
  have idle : unasked (none : Option Host) := nofun
  cases constructed with
  | accepted => cases outbound
  | _ =>
    refine ⟨rfl, ⟨rfl, rfl, ?_, nofun, nofun, ?_, nofun⟩, fun _ => ⟨rfl, .inl rfl⟩, ?_, nofun,
      always_nil _⟩
    · rintro host ⟨⟩
      rfl
    · rintro (state | state) <;> cases state
    · rintro (out | state | state)
      · exact absurd idle out
      · cases state
      · cases state

variable {config next : Config} {label : Label}

/-- Where the settings are in force, and which steps need them. -/
theorem force_of_looksUp (plain : config.stack.all isPlain = true)
    (fits : Tunnelling settings config label) (looks : looksUp config label = true) :
    config.socket.proxy = settings := by
  obtain ⟨socket, stack⟩ := config
  cases label with
  | call call answers =>
    cases call with
    | lookup | connect => exact fits.2 rfl
    | _ => cases looks
  | resume answers =>
    cases stack with
    | nil => cases looks
    | cons task rest =>
      cases task with
      | connectAfterLookup => cases plain
      | _ => cases looks
  | _ => cases looks

theorem call_of_connects (plain : config.stack.all isPlain = true)
    (connects : connects config label = true) : ∃ answers, label = .call .connect answers := by
  obtain ⟨socket, stack⟩ := config
  cases label with
  | call call answers =>
    cases call with
    | connect => exact ⟨answers, rfl⟩
    | _ => cases connects
  | resume answers =>
    cases stack with
    | nil => cases connects
    | cons task rest =>
      cases task with
      | connectAfterLookup => cases plain
      | _ => cases connects
  | _ => cases connects

theorem Tunnels.enter (tunnels : Tunnels settings peer port config.socket trace) (label : Label) :
    Tunnels settings peer port config.socket (trace ++ entry config label) := by
  cases label with
  | call call answers => exact tunnels.note nofun (faithful_of_silent rfl)
  | _ => simpa only [entry, append_nil] using tunnels

/-- `setProxy()` to the settings of the run. -/
theorem Tunnels.setProxy (tunnels : Tunnels settings peer port socket trace)
    {next : ProxySettings} (fits : socket.state = .disconnected → next = settings) :
    Tunnels settings peer port (socket.setProxy next) trace := by
  unfold Socket.setProxy
  split
  · exact tunnels
  rename_i state
  have chosen := fits (not_not.mp state)
  by_cases same : socket.proxy = settings
  · have unchanged : { socket with proxy := next } = socket := by rw [chosen, ← same]
    rwa [unchanged]
  obtain ⟨missing, rests⟩ := tunnels.early same
  have gone : unasked socket.proxyAddress ∧
      ∀ host ∈ socket.proxyAddress, host.inet.hostname = next.host := by
    rw [missing]
    exact ⟨nofun, nofun⟩
  exact ⟨tunnels.outbound, tunnels.proxied.setProxy rests gone.1 gone.2,
    fun other => absurd chosen other, tunnels.asked, tunnels.reported, tunnels.faithful⟩

theorem tunnels_step (enabled : settings.enabled = true)
    (tunnels : Tunnels settings peer port config.socket trace)
    (plain : config.stack.all isPlain = true) (fits : Tunnelling settings config label)
    (moves : step config label = some (next, acts)) :
    Tunnels settings peer port next.socket (trace ++ acts) ∧ next.stack.all isPlain = true := by
  have allows : Allows ⟨config.socket.proxy = settings, False, True⟩ config label := by
    refine ⟨force_of_looksUp plain fits, ?_, fun _ => trivial⟩
    obtain ⟨socket, stack⟩ := config
    intro asks
    cases label with
    | resume answers =>
      cases stack with
      | nil => cases asks
      | cons task rest =>
        cases task with
        | lookupPeer => cases plain
        | _ => cases asks
    | _ => cases asks
  rcases step_cases allows moves with
    ⟨next, answers, rfl, rfl, rfl⟩ | ⟨front, middle, outcome, rest, begins, runs, suffix, rfl, rfl⟩
  · refine ⟨?_, plain⟩
    have entered : Tunnels settings peer port config.socket
        (trace ++ [.called (.setProxy next) config.socket.sd]) :=
      tunnels.note nofun (faithful_of_silent rfl)
    exact entered.setProxy fun state => Option.some.inj ((fits.1 state).resolve_left nofun)
  · have entered := tunnels.enter label
    have begun : Tunnels settings peer port middle (trace ++ entry config label ++ front) := by
      rcases begins with ⟨rfl, rfl⟩ | ⟨connects, begins⟩
      · rwa [append_nil]
      · obtain ⟨answers, rfl⟩ := call_of_connects plain connects
        exact entered.begins enabled (fits.2 rfl) ⟨trace, config.socket.sd, [], rfl, nofun⟩ begins
    have moved := runs.moves.invariant (fun tunnels move => tunnels.move enabled id move) begun
    rw [append_assoc, append_assoc] at moved
    refine ⟨moved, ?_⟩
    -- Neither task of a lookup of the peer is left behind.
    rw [all_append, Bool.and_eq_true, all_eq_true]
    refine ⟨?_, ?_⟩
    · intro task member
      cases task with
      | lookupPeer =>
        obtain ⟨direct, _, force⟩ := runs.lookup member
        have same : SameSettings config.socket outcome.socket := by
          rcases begins with ⟨_, rfl⟩ | ⟨_, begins⟩
          · exact runs.moves.sameSettings
          · exact begins.sameSettings.trans runs.moves.sameSettings
        rw [same.isProxied, tunnels.isProxied enabled force] at direct
        cases direct
      | connectAfterLookup => exact absurd (runs.auto member) moved.proxied.unfound
      | _ => rfl
    · exact all_eq_true.mpr fun task member =>
        all_eq_true.mp plain task (suffix.subset member)

/-- Along every run of a proxied socket each act keeps to the proxy. -/
theorem run_faithful {origin : Socket} (enabled : settings.enabled = true)
    (constructed : Constructed origin) (outbound : origin.outbound = true)
    (run : Run step (Tunnelling settings) ⟨origin, []⟩ config trace) :
    Always (Faithful settings origin.getPeerName origin.port) trace := by
  have both : Tunnels settings origin.getPeerName origin.port config.socket trace ∧
      config.stack.all isPlain = true :=
    run.invariant
      (fun config trace => Tunnels settings origin.getPeerName origin.port config.socket trace ∧
        config.stack.all isPlain = true)
      ⟨constructed.tunnels outbound, rfl⟩
      (fun _ both fits moves => tunnels_step enabled both.1 both.2 fits moves)
  exact both.1.faithful

/-- A proxy at `1.2.3.4`. -/
def relay : ProxySettings :=
  { enabled := true, host := ascii "1.2.3.4", port := 1080 }

/-- The settings are set, and the proxy goes through with the handshake. -/
def relayRun : List Label :=
  [.call (.setProxy relay) {}, .call .connect { connect := some .inProgress }, .back,
    .monitor { write := true }, .resume {},
    .resume
      { pump :=
          [.sent (.count 3), .received (.data [5, 0]), .sent (.count 8),
            .received (.data [5, 0, 0, 1]), .received (.data [0, 0, 0, 0]),
            .received (.data [0, 0])] }]

theorem run_faithful_relay :
    ∃ config trace,
      play (restrict step (Tunnelling relay)) ⟨.ofName true (ascii "h") 80 {}, []⟩ relayRun =
        some (config, trace) ∧
      .event .connected (some 0) true ∈ trace ∧ Always (Faithful relay (ascii "h") 80) trace :=
  ⟨_, _, rfl, by decide,
    run_faithful rfl (.ofName true (ascii "h") 80 {}) rfl (run_of_play relayRun rfl)⟩

end SamuraiFormal.Net.Socket
