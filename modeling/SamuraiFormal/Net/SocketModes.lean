import SamuraiFormal.Net.SocketRuns

/-!
# The control of a proxied and of a direct socket

Two invariants of the moves, without the trace.  A proxied socket asks the resolver for
its proxy only, builds its handshake from the settings in force before anything is sent,
and keeps that handshake until the proxy has answered.  A direct socket has nothing out
for a proxy.
-/

namespace SamuraiFormal.Net.Socket

open Util

/-- No lookup is out. -/
def unasked (host : Option Host) : Prop := ∀ held ∈ host, held.request = none

instance (host : Option Host) : Decidable (unasked host) :=
  inferInstanceAs (Decidable (∀ held ∈ host, _))

/-- Not connected, and not on the way. -/
def Rests (socket : Socket) : Prop := socket.state = .disconnected ∨ socket.state = .invalid

/-- Between `::connect` and the end of the handshake. -/
def Negotiates (socket : Socket) : Prop :=
  socket.state = .connecting ∨ socket.state = .proxyHandshake

/-- The states behind a report of the connection. -/
def established : SocketState → Bool
  | .connected => true
  | .sslHandshake => true
  | .sslConnected => true
  | .sslBye => true
  | _ => false

/-- The lookup of the proxy is out. -/
structure Pending (socket : Socket) (host : Host) : Prop where
  target : socket.lookupTarget = .proxy
  unknown : host.inet.resolveState ≠ .resolved
  rests : socket.Rests
  handshake : socket.handshake = some socket.request
  alive : socket.request.status ≠ .failed

/-- A socket that reaches its peer through a proxy only. -/
structure Proxied (peer : Bytes) (port : UInt16) (socket : Socket) : Prop where
  name : socket.getPeerName = peer
  place : socket.port = port
  quiet : unasked socket.address
  proxyName : ∀ host ∈ socket.proxyAddress, host.inet.hostname = socket.proxy.host
  pending : ∀ host, socket.proxyAddress = some host → host.request ≠ none → Pending socket host
  negotiates : socket.Negotiates →
    ∃ handshake, socket.handshake = some handshake ∧ Names socket.proxy peer port handshake
  unfound : socket.state ≠ .hostFound

/-- A proxied socket in front of `::connect`. -/
structure Aimed (peer : Bytes) (port : UInt16) (socket : Socket) : Prop where
  proxied : Proxied peer port socket
  handshake : ∃ held, socket.handshake = some held ∧ Names socket.proxy peer port held
  idle : unasked socket.proxyAddress
  place : ∃ host, socket.proxyAddress = some host ∧ host.inet.resolveState = .resolved ∧
    socket.addr = some ⟨host.inet.ip, socket.proxy.port⟩

/-- A socket that has nothing to do with a proxy. -/
structure Direct (socket : Socket) : Prop where
  idle : unasked socket.proxyAddress
  target : socket.lookupTarget = .peer
  state : socket.state ≠ .proxyHandshake

variable {occasion : Occasion} {peer : Bytes} {port : UInt16} {socket next : Socket}
  {acts : List Act}

theorem not_negotiates_of_rests (rests : socket.Rests) : ¬ socket.Negotiates := by
  rintro (waits | waits) <;> rcases rests with state | state <;> rw [state] at waits <;> cases waits

theorem not_negotiates_of_established (live : established socket.state = true) :
    ¬ socket.Negotiates := by
  rintro (waits | waits) <;> rw [waits] at live <;> cases live

theorem not_rests_of_established (live : established socket.state = true) : ¬ socket.Rests := by
  rintro (rests | rests) <;> rw [rests] at live <;> cases live

theorem established_of_transfers (ready : socket.transfers = true) :
    established socket.state = true := by
  rw [transfers, Bool.or_eq_true] at ready
  rcases ready with state | state <;> rw [eq_of_beq state] <;> rfl

theorem established_of_isSecure (secure : socket.isSecure = true) :
    established socket.state = true := by
  rw [isSecure, Bool.and_eq_true] at secure
  rw [eq_of_beq secure.2]
  rfl

variable {host : Host} {which : LookupTarget}

namespace Proxied

section

variable (proxied : Proxied peer port socket)
include proxied

/-- No lookup of the proxy is out once the socket is on its way. -/
theorem unasked_of_not_rests (busy : ¬ socket.Rests) : unasked socket.proxyAddress := by
  intro host place
  by_contra out
  exact busy (proxied.pending host place out).rests

/-- A handshake that did not fail at once names the peer. -/
theorem names (alive : socket.request.status ≠ .failed) :
    Names socket.proxy peer port socket.request := by
  obtain ⟨settings, command, target, targetPort⟩ := names_create alive
  exact ⟨settings, command, target.trans proxied.name, targetPort.trans proxied.place⟩

/-- Changes of the state, the descriptor and the session only. -/
theorem keep {state : SocketState} {sd : Option Nat} {opened : Nat} {monitor : Option Triggers}
    {auto handler timer reuse tls : Bool} {localPort : UInt16}
    (moves : state = socket.state ∨ (state = .disconnected ∨ state = .invalid) ∨
      (established state = true ∧ ¬ socket.Rests)) :
    Proxied peer port
      { socket with
        state := state, sd := sd, opened := opened, monitor := monitor
        autoConnectAfterLookup := auto, eventHandler := handler, timer := timer
        reuseLocalPort := reuse, localPort := localPort, tls := tls } := by
  refine ⟨proxied.name, proxied.place, proxied.quiet, proxied.proxyName, ?_, ?_, ?_⟩
  · intro host place out
    obtain ⟨target, unknown, rests, handshake, alive⟩ := proxied.pending host place out
    refine ⟨target, unknown, ?_, handshake, alive⟩
    rcases moves with rfl | rests' | ⟨_, busy⟩
    · exact rests
    · exact rests'
    · exact absurd rests busy
  · intro waits
    rcases moves with rfl | (rfl | rfl) | ⟨live, _⟩
    · exact proxied.negotiates waits
    · rcases waits with waits | waits <;> cases waits
    · rcases waits with waits | waits <;> cases waits
    · rcases waits with rfl | rfl <;> cases live
  · rintro rfl
    rcases moves with same | (state | state) | ⟨live, _⟩
    · exact proxied.unfound same.symm
    · cases state
    · cases state
    · cases live

/-- The lookup of the proxy has come to its end. -/
theorem settle {old : Host} {addr : Option SocketAddress} {target : LookupTarget}
    {state : SocketState} (place : socket.proxyAddress = some old)
    (name : host.inet.hostname = old.inet.hostname) (idle : host.request = none)
    (moves : state = socket.state ∨ state = .invalid) :
    Proxied peer port
      { socket with
        proxyAddress := some host, addr := addr, lookupTarget := target, state := state } := by
  refine ⟨proxied.name, proxied.place, proxied.quiet, ?_, ?_, ?_, ?_⟩
  · rintro _ ⟨⟩
    exact name.trans (proxied.proxyName old place)
  · rintro _ ⟨⟩ out
    exact absurd idle out
  · intro waits
    rcases moves with rfl | rfl
    · exact proxied.negotiates waits
    · rcases waits with waits | waits <;> cases waits
  · rcases moves with rfl | rfl
    · exact proxied.unfound
    · nofun

/-- No answer reaches the socket but that of the proxy's own lookup. -/
theorem answer (direct : ¬ occasion.peer) (answer : Answer occasion socket which host acts) :
    ∃ old, which = .proxy ∧ socket.proxyAddress = some old ∧ old.request ≠ none ∧
      host.inet.hostname = old.inet.hostname ∧ host.request = none := by
  cases answer with
  | resolver old name ip place out listens =>
    cases which with
    | peer =>
      rw [proxied.quiet old place] at out
      cases out
    | proxy => exact ⟨old, rfl, place, by simp [out], rfl, rfl⟩
  | known old place same asks known => exact absurd asks direct

theorem deafen (place : socket.host which = some host) :
    Proxied peer port (socket.setHost which { host with dnsevent := false }) := by
  obtain ⟨name, port, quiet, proxyName, pending, negotiates, unfound⟩ := proxied
  cases which with
  | peer =>
    have here : socket.address = some host := place
    have same : (socket.setHost .peer { host with dnsevent := false }).getPeerName =
        socket.getPeerName := by
      rw [getPeerName, getPeerName, here]
      rfl
    refine ⟨same.trans name, port, ?_, proxyName, ?_, negotiates, unfound⟩
    · rintro _ ⟨⟩
      exact quiet host here
    · intro found held out
      obtain ⟨target, unknown, rests, handshake, alive⟩ := pending found held out
      have request : (socket.setHost .peer { host with dnsevent := false }).request =
          socket.request := by
        rw [Socket.request, same]
        rfl
      exact ⟨target, unknown, rests, by rw [request]; exact handshake, by rwa [request]⟩
  | proxy =>
    have here : socket.proxyAddress = some host := place
    refine ⟨name, port, quiet, ?_, ?_, negotiates, unfound⟩
    · rintro _ ⟨⟩
      exact proxyName host here
    · rintro _ ⟨⟩ out
      obtain ⟨target, unknown, rests, handshake, alive⟩ := pending host here out
      exact ⟨target, unknown, rests, handshake, alive⟩

/-- The handshake goes on, or is over. -/
theorem negotiate (waits : socket.Negotiates) {handshake : Option Socks5Handshake}
    {state : SocketState} {sd : Option Nat}
    (moves : state = .connected ∨ state = .invalid ∨
      ∃ held, state = .proxyHandshake ∧ handshake = some held ∧
        Names socket.proxy peer port held) :
    Proxied peer port { socket with handshake := handshake, state := state, sd := sd } := by
  have idle := proxied.unasked_of_not_rests fun rests => not_negotiates_of_rests rests waits
  refine ⟨proxied.name, proxied.place, proxied.quiet, proxied.proxyName, ?_, ?_, ?_⟩
  · intro host place out
    exact absurd (idle host place) out
  · intro still
    rcases moves with rfl | rfl | ⟨held, _, place, names⟩
    · rcases still with state | state <;> cases state
    · rcases still with state | state <;> cases state
    · exact ⟨held, place, names⟩
  · rcases moves with rfl | rfl | ⟨held, rfl, _⟩ <;> nofun

end

theorem answer_resolved (answer : Answer occasion socket which host acts) :
    host.inet.resolveState = .resolved := by
  cases answer with
  | resolver _ _ _ _ _ _ => rfl
  | known _ _ _ _ known => exact known

/-- The answer to the lookup of the proxy. -/
theorem answered (proxied : Proxied peer port socket) (direct : ¬ occasion.peer)
    (answered : Answered occasion socket acts next) : Aimed peer port next := by
  obtain ⟨which, host, _, answer, _⟩ := answered
  obtain ⟨old, rfl, place, out, name, idle⟩ := proxied.answer direct answer
  have pending := proxied.pending old place out
  refine ⟨proxied.settle place name idle (.inl rfl),
    ⟨socket.request, pending.handshake, proxied.names pending.alive⟩, ?_,
    host, rfl, answer_resolved answer, rfl⟩
  rintro _ ⟨⟩
  exact idle

/-- `::connect` is called for the proxy. -/
theorem launch (aimed : Aimed peer port socket) : Proxied peer port socket.dialled := by
  obtain ⟨proxied, handshake, idle, _⟩ := aimed
  refine ⟨proxied.name, proxied.place, proxied.quiet, proxied.proxyName, ?_, fun _ => handshake,
    nofun⟩
  intro host here out
  exact absurd (idle host here) out

/-- Every move that makes no use of the peer's address. -/
theorem move (direct : ¬ occasion.peer) (proxied : Proxied peer port socket)
    (move : Move occasion socket acts next) : Proxied peer port next := by
  cases move with
  | frame _ same =>
    rw [same]
    exact proxied.keep (.inl rfl)
  | fail => exact proxied.keep (.inr (.inl (.inr rfl)))
  | hangUp _ => exact proxied.keep (.inr (.inl (.inl rfl)))
  | close | tlsStart | tlsStop => exact proxied.keep (.inl rfl)
  | tlsStep status session ready fits | tlsBye status ready =>
    have live : established socket.state = true := by
      rcases ready with state | state <;> rw [state] <;> rfl
    exact proxied.keep
      (.inr (.inr ⟨by cases status <;> rfl, not_rests_of_established live⟩))
  | askPeer _ _ asks _ _ => exact absurd asks direct
  | lookupFailed which host dnsevent place _ cause =>
    cases which with
    | peer =>
      rcases cause rfl with out | asks
      · exact absurd (proxied.quiet host place) out
      · exact absurd asks direct
    | proxy => exact proxied.settle place rfl rfl (.inr rfl)
  | unheard which host name ip place out deaf | unheardFailure which host name place out deaf =>
    cases which with
    | peer =>
      rw [proxied.quiet host place] at out
      cases out
    | proxy => exact proxied.settle place rfl rfl (.inl rfl)
  | clearDnsevent which host place => exact proxied.deafen place
  | found which host _ answer mode =>
    obtain ⟨old, _, place, out, _⟩ := proxied.answer direct answer
    rw [(proxied.pending old place out).target] at mode
    cases mode
  | answered _ _ answered => exact (proxied.answered direct answered).proxied
  | dial _ _ answered _ _ => exact launch (proxied.answered direct answered)
  | reopen => exact proxied.keep (.inr (.inl (.inr rfl)))
  | established waits mode => exact proxied.negotiate (.inl waits) (.inl rfl)
  | tunnel waits _ _ =>
    obtain ⟨handshake, place, names⟩ := proxied.negotiates (.inl waits)
    exact proxied.negotiate (.inl waits) (.inr (.inr ⟨handshake, rfl, place, names⟩))
  | pump handshake after traffic negotiates place same only =>
    obtain ⟨held, here, names⟩ := proxied.negotiates (.inr negotiates)
    rw [place] at here
    cases here
    exact proxied.negotiate (.inr negotiates)
      (.inr (.inr ⟨after, negotiates, rfl, names.of_samePeer same⟩))
  | tunnelled handshake negotiates place done =>
    exact proxied.negotiate (.inr negotiates) (.inl rfl)
  | proxyFailed negotiates => exact proxied.negotiate (.inr negotiates) (.inr (.inl rfl))
  | _ => exact proxied

variable (proxied : Proxied peer port socket)
include proxied

/-- `internal_connect_proxy()` in front of its lookup or its `::connect`. -/
theorem arrange (rests : socket.Rests) {target : LookupTarget} {addr : Option SocketAddress}
    (alive : socket.request.status ≠ .failed)
    (name : host.inet.hostname = socket.proxyHost.inet.hostname)
    (out : host.request ≠ none → target = .proxy ∧ host.inet.resolveState ≠ .resolved) :
    Proxied peer port
      { socket with
        handshake := some socket.request, proxyAddress := some host, lookupTarget := target
        addr := addr } := by
  have proxyName : socket.proxyHost.inet.hostname = socket.proxy.host := by
    unfold proxyHost
    cases place : socket.proxyAddress with
    | some old => exact proxied.proxyName old place
    | none => exact InetAddress.ofString_hostname _
  refine ⟨proxied.name, proxied.place, proxied.quiet, ?_, ?_, ?_, proxied.unfound⟩
  · rintro _ ⟨⟩
    exact name.trans proxyName
  · rintro _ ⟨⟩ asks
    obtain ⟨target, unknown⟩ := out asks
    exact ⟨target, unknown, rests, rfl, alive⟩
  · intro waits
    exact absurd waits (not_negotiates_of_rests rests)

/-- A proxy address that is asked for is that of a lookup which is out. -/
theorem proxyHost_pending (out : socket.proxyHost.request ≠ none) :
    Pending socket socket.proxyHost := by
  unfold proxyHost at out ⊢
  cases place : socket.proxyAddress with
  | some host =>
    rw [place] at out
    exact proxied.pending host place out
  | none =>
    rw [place] at out
    exact absurd rfl out

/-- `connect()` sets the address of the proxy, and no lookup is out then. -/
theorem aim (mode : socket.isProxied = true) (rests : socket.Rests) (aims : Aim socket next) :
    Aimed peer port next := by
  cases aims with
  | direct other =>
    rw [mode] at other
    cases other
  | proxied _ alive known host same out target _ =>
    have idle : host.request = none := by
      by_contra asks
      exact (proxied.proxyHost_pending (out ▸ asks)).unknown known
    refine ⟨proxied.arrange rests alive (by rw [same]) fun asks => absurd idle asks,
      ⟨socket.request, rfl, proxied.names alive⟩, ?_, host, rfl, same ▸ known, rfl⟩
    rintro _ ⟨⟩
    exact idle

theorem rests_of_idle (idle : socket.Idle) : socket.Rests :=
  .inl (idle.resolve_right proxied.unfound)

/-- `connect()` on a proxied socket. -/
theorem begins (mode : socket.isProxied = true) (begins : Begin socket acts next) :
    Proxied peer port next := by
  cases begins with
  | refuse _ _ failed =>
    refine ⟨proxied.name, proxied.place, proxied.quiet, proxied.proxyName, ?_, ?_, nofun⟩
    · intro host place out
      exact absurd failed (proxied.pending host place out).alive
    · rintro (state | state) <;> cases state
  | prepare _ idle alive =>
    exact proxied.arrange (proxied.rests_of_idle idle) alive rfl fun out =>
      ⟨rfl, (proxied.proxyHost_pending out).unknown⟩
  | ask _ idle alive unknown _ =>
    exact proxied.arrange (proxied.rests_of_idle idle) alive rfl fun _ => ⟨rfl, unknown⟩
  | aim _ idle aims => exact (proxied.aim mode (proxied.rests_of_idle idle) aims).proxied
  | dial _ idle aims _ _ => exact launch (proxied.aim mode (proxied.rests_of_idle idle) aims)

/-- New settings, where nothing that is kept is stale for them. -/
theorem setProxy {settings : ProxySettings} (rests : socket.Rests)
    (idle : unasked socket.proxyAddress)
    (named : ∀ host ∈ socket.proxyAddress, host.inet.hostname = settings.host) :
    Proxied peer port { socket with proxy := settings } := by
  refine ⟨proxied.name, proxied.place, proxied.quiet, named, ?_, ?_, proxied.unfound⟩
  · intro host place out
    exact absurd (idle host place) out
  · intro waits
    exact absurd waits (not_negotiates_of_rests rests)

end Proxied

namespace Direct

theorem keep (direct : Direct socket) (host : next.proxyAddress = socket.proxyAddress)
    (target : next.lookupTarget = socket.lookupTarget)
    (state : next.state = socket.state ∨ next.state ≠ .proxyHandshake) : Direct next := by
  refine ⟨host ▸ direct.idle, target.trans direct.target, ?_⟩
  rcases state with same | other
  · rw [same]
    exact direct.state
  · exact other

/-- The host of the proxy is replaced by one that is not asked for. -/
theorem setHost (direct : Direct socket) (idle : which = .proxy → host.request = none) :
    Direct (socket.setHost which host) := by
  cases which with
  | peer => exact direct.keep rfl rfl (.inl rfl)
  | proxy =>
    refine ⟨?_, direct.target, direct.state⟩
    rintro _ ⟨⟩
    exact idle rfl

theorem not_answered (direct : Direct socket) : ¬ Answered occasion socket acts next := by
  rintro ⟨_, _, _, _, mode⟩
  rw [direct.target] at mode
  cases mode

theorem move (mode : socket.isProxied = false) (direct : Direct socket)
    (move : Move occasion socket acts next) : Direct next := by
  cases move with
  | frame _ same =>
    rw [same]
    exact direct.keep rfl rfl (.inl rfl)
  | fail | hangUp _ => exact direct.keep rfl rfl (.inr nofun)
  | tlsStep status session ready fits =>
    exact direct.keep rfl rfl (.inr (by cases status <;> nofun))
  | tlsBye status ready => exact direct.keep rfl rfl (.inr (by cases status <;> nofun))
  | lookupFailed which host dnsevent _ _ _ =>
    have set : Direct (socket.setHost which
        { inet := { host.inet with resolveState := .resolveError }, dnsevent := dnsevent }) :=
      direct.setHost fun _ => rfl
    exact ⟨set.idle, rfl, nofun⟩
  | unheard which _ _ _ _ _ _ | unheardFailure which _ _ _ _ _ => exact direct.setHost fun _ => rfl
  | clearDnsevent which host place =>
    refine direct.setHost ?_
    rintro rfl
    exact direct.idle host place
  | found which host _ answer _ =>
    have set : Direct (socket.setHost which host) := by
      refine direct.setHost ?_
      rintro rfl
      cases answer with
      | resolver _ _ _ _ _ _ => rfl
      | known _ _ peer _ _ => cases peer
    exact ⟨set.idle, set.target, nofun⟩
  | answered _ _ answered | dial _ _ answered _ _ => exact absurd answered direct.not_answered
  | reopen | established _ _ => exact direct.keep rfl rfl (.inr nofun)
  | tunnel _ proxied _ =>
    rw [mode] at proxied
    cases proxied
  | tunnelled _ negotiates _ _ | proxyFailed negotiates | pump _ _ _ negotiates _ _ _ =>
    exact absurd negotiates direct.state
  | _ => exact direct.keep rfl rfl (.inl rfl)

theorem begins (mode : socket.isProxied = false) (direct : Direct socket)
    (begins : Begin socket acts next) : Direct next := by
  have other {proxied : Prop} (same : socket.isProxied = true) : proxied := by
    rw [mode] at same
    cases same
  cases begins with
  | refuse proxied _ _ | prepare proxied _ _ | ask proxied _ _ _ _ => exact other proxied
  | aim _ _ aims =>
    cases aims with
    | direct _ => exact direct
    | proxied same _ _ _ _ _ _ _ => exact other same
  | dial _ _ aims _ _ =>
    cases aims with
    | direct _ => exact direct.keep rfl rfl (.inr nofun)
    | proxied same _ _ _ _ _ _ _ => exact other same

end Direct

end SamuraiFormal.Net.Socket
