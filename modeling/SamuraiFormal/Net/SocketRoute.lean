import SamuraiFormal.Net.SocketProxy

/-!
# Where a socket connects to

Each `::connect` goes to the right place for the settings in force: the proxy's address
and port with a handshake for the peer, or the peer's own address and port.  Three pieces
of state outlive the settings they were made from: the proxy's address, the socket's own
`addr` and the lookup that is out.  So this holds along every run in which the settings
are not changed while one of them is stale for the new settings.
-/

namespace SamuraiFormal.Net.Socket

open Util
open Library.Traces
open List

/-- An address of a host: the one it was made with, or one that the resolver gave for its
name. -/
def AddressOf (inet : InetAddress) (trace : List Act) (ip : Option IpAddress) : Prop :=
  (inet.resolveState = .resolved ∧ ip = inet.ip) ∨
    ∃ found, ip = some found ∧ .resolved (cString inet.hostname) found ∈ trace

/-- The place of the socket's own peer. -/
def OwnPlace (origin : Socket) (trace : List Act) (target : SocketAddress) : Prop :=
  match origin.address with
  | some host => AddressOf host.inet trace target.ip ∧ target.port = origin.port
  | none => origin.addr = some target

/-- The right place under the settings in force. -/
def RightPlace (origin : Socket) (front : List Act) (target : SocketAddress)
    (handshake : Option Socks5Handshake) : Option ProxySettings → Prop
  | some settings =>
    AddressOf (InetAddress.ofString settings.host) front target.ip ∧
      target.port = settings.port ∧
      ∃ held, handshake = some held ∧ Names settings origin.getPeerName origin.port held
  | none => OwnPlace origin front target

/-- Every descriptor is connected once and to the right place, and a handshake runs only
on a descriptor that was connected under the same settings. -/
structure Right (origin : Socket) (front : List Act) (act : Act) : Prop where
  connect : ∀ sd target settings handshake, act = .connect sd target settings handshake →
    RightPlace origin front target handshake settings ∧
      ∀ other before held, .connect sd other before held ∉ front
  pump : ∀ sd settings handshake, act = .pump sd settings handshake →
    ∃ chosen, settings = some chosen ∧ Names chosen origin.getPeerName origin.port handshake ∧
      ∀ place, sd = some place → ∃ target held, .connect place target (some chosen) held ∈ front

/-- Nothing that is kept is stale for the new settings. -/
def SafeSwitch (config : Config) (settings : ProxySettings) : Prop :=
  settings = config.socket.proxy ∨
    (config.socket.isProxied = false ∧
      ({ config.socket with proxy := settings } : Socket).isProxied = false) ∨
    (config.socket.lookupTarget = .peer ∧ unasked config.socket.address ∧
      unasked config.socket.proxyAddress ∧ .lookupPeer ∉ config.stack ∧
      (({ config.socket with proxy := settings } : Socket).isProxied = true →
        ∀ host ∈ config.socket.proxyAddress, host.inet.hostname = settings.host) ∧
      (({ config.socket with proxy := settings } : Socket).isProxied = false →
        config.socket.addr = none ∨ ∃ host ∈ config.socket.address,
          host.inet.resolveState = .resolved ∧
            config.socket.addr = some ⟨host.inet.ip, config.socket.port⟩))

/-- A step that does not change the settings, or changes them safely. -/
def Switches (config : Config) (label : Label) : Prop :=
  ∀ settings ∈ chosen label, config.socket.state = .disconnected → SafeSwitch config settings

instance (config : Config) (settings : ProxySettings) : Decidable (SafeSwitch config settings) :=
  inferInstanceAs (Decidable (_ ∨ _))

instance (config : Config) (label : Label) : Decidable (Switches config label) :=
  inferInstanceAs (Decidable (∀ settings ∈ chosen label, _))

/-- What is kept of a host. -/
structure HostOf (inet : InetAddress) (trace : List Act) (host : Host) : Prop where
  hostname : host.inet.hostname = inet.hostname
  address : host.inet.resolveState = .resolved → AddressOf inet trace host.inet.ip
  request : ∀ name, host.request = some name → name = cString inet.hostname ∧ name ≠ []
  nameless : inet.hostname = [] → host.inet.ip = inet.ip ∧
    (host.inet.resolveState = .resolved ↔ inet.resolveState = .resolved)

variable {origin socket next : Socket} {trace acts : List Act}

theorem AddressOf.append {inet : InetAddress} {ip : Option IpAddress}
    (address : AddressOf inet trace ip) : AddressOf inet (trace ++ acts) ip := by
  rcases address with known | ⟨found, same, member⟩
  · exact .inl known
  · exact .inr ⟨found, same, mem_append_left _ member⟩

namespace HostOf

variable {inet : InetAddress} {host : Host}

theorem append (hostOf : HostOf inet trace host) : HostOf inet (trace ++ acts) host :=
  ⟨hostOf.hostname, fun known => (hostOf.address known).append, hostOf.request, hostOf.nameless⟩

theorem fresh (inet : InetAddress) : HostOf inet trace { inet := inet } :=
  ⟨rfl, fun known => .inl ⟨known, rfl⟩, nofun, fun _ => ⟨rfl, Iff.rfl⟩⟩

variable (hostOf : HostOf inet trace host)
include hostOf

/-- The resolver has found an address. -/
theorem found {name : Bytes} (out : host.request = some name) (ip : IpAddress) :
    HostOf inet (trace ++ [.resolved name ip])
      { inet := { host.inet with ip := some ip, resolveState := .resolved } } := by
  obtain ⟨same, named⟩ := hostOf.request name out
  refine ⟨hostOf.hostname, fun _ => .inr ⟨ip, rfl, ?_⟩, nofun, ?_⟩
  · rw [same]
    exact mem_append_right _ (mem_singleton_self _)
  · intro nameless
    rw [nameless] at same
    exact absurd same named

/-- The lookup has failed. -/
theorem failed (unknown : host.request ≠ none ∨ host.inet.resolveState ≠ .resolved)
    (dnsevent : Bool) :
    HostOf inet trace
      { inet := { host.inet with resolveState := .resolveError }, dnsevent := dnsevent } := by
  refine ⟨hostOf.hostname, nofun, nofun, ?_⟩
  intro nameless
  obtain ⟨same, known⟩ := hostOf.nameless nameless
  refine ⟨same, nofun, fun made => ?_⟩
  rcases unknown with asked | unknown
  · obtain ⟨name, out⟩ := Option.ne_none_iff_exists'.mp asked
    obtain ⟨text, named⟩ := hostOf.request name out
    rw [nameless] at text
    exact absurd text named
  · exact absurd (known.mpr made) unknown

theorem deafen (dnsevent : Bool) : HostOf inet trace { host with dnsevent := dnsevent } :=
  ⟨hostOf.hostname, hostOf.address, hostOf.request, hostOf.nameless⟩

/-- The resolver is asked. -/
theorem ask (named : cString host.inet.hostname ≠ []) :
    HostOf inet trace
      { host with request := some (cString host.inet.hostname), dnsevent := true } := by
  refine ⟨hostOf.hostname, hostOf.address, ?_, hostOf.nameless⟩
  rintro _ ⟨⟩
  exact ⟨by rw [hostOf.hostname], named⟩

end HostOf

/-- The peer's host is that of the constructor; the proxy's is that of some settings. -/
structure Hosts (origin socket : Socket) (trace : List Act) : Prop where
  own : ∀ host, socket.address = some host →
    ∃ first, origin.address = some first ∧ HostOf first.inet trace host
  none' : socket.address = none → origin.address = none
  proxy : ∀ host, socket.proxyAddress = some host →
    HostOf (InetAddress.ofString host.inet.hostname) trace host

variable {host : Host} {occasion : Occasion} {target : SocketAddress}

namespace Hosts

/-- Moves that leave both hosts alone. -/
theorem keep (hosts : Hosts origin socket trace) (own : next.address = socket.address)
    (proxy : next.proxyAddress = socket.proxyAddress) : Hosts origin next (trace ++ acts) := by
  constructor
  · intro host place
    obtain ⟨first, here, hostOf⟩ := hosts.own host (own ▸ place)
    exact ⟨first, here, hostOf.append⟩
  · intro missing
    exact hosts.none' (own ▸ missing)
  · intro host place
    exact (hosts.proxy host (proxy ▸ place)).append

theorem congr (hosts : Hosts origin socket trace) (own : next.address = socket.address)
    (proxy : next.proxyAddress = socket.proxyAddress) : Hosts origin next trace := by
  have kept : Hosts origin next (trace ++ []) := hosts.keep own proxy
  rwa [append_nil] at kept

/-- One host is replaced by a later version of itself. -/
theorem setHost (hosts : Hosts origin socket trace) {which : LookupTarget} {old : Host}
    (place : socket.host which = some old)
    (keeps : ∀ inet, HostOf inet trace old → HostOf inet (trace ++ acts) host) :
    Hosts origin (socket.setHost which host) (trace ++ acts) := by
  cases which with
  | peer =>
    refine ⟨?_, nofun, fun other held => (hosts.proxy other held).append⟩
    rintro _ ⟨⟩
    obtain ⟨first, here, hostOf⟩ := hosts.own old place
    exact ⟨first, here, keeps _ hostOf⟩
  | proxy =>
    refine ⟨?_, hosts.none', ?_⟩
    · intro other held
      obtain ⟨first, here, hostOf⟩ := hosts.own other held
      exact ⟨first, here, hostOf.append⟩
    · rintro _ ⟨⟩
      have later := keeps _ (hosts.proxy old place)
      have same : host.inet.hostname = old.inet.hostname :=
        later.hostname.trans (InetAddress.ofString_hostname _)
      rwa [same]

end Hosts

/-- An answer is a later version of the host that it is for. -/
theorem Answer.later {which : LookupTarget} (answer : Answer occasion socket which host acts) :
    ∃ old, socket.host which = some old ∧
      ∀ inet, HostOf inet trace old → HostOf inet (trace ++ acts) host := by
  cases answer with
  | resolver old name ip place out _ => exact ⟨old, place, fun _ hostOf => hostOf.found out ip⟩
  | known old place _ _ _ => exact ⟨old, place, fun _ hostOf => (hostOf.deafen false).append⟩

section

variable (hosts : Hosts origin socket trace)
include hosts

theorem Hosts.answered (answered : Answered occasion socket acts next) :
    Hosts origin next (trace ++ acts) := by
  obtain ⟨which, host, _, answer, _⟩ := answered
  obtain ⟨old, place, keeps⟩ := answer.later
  exact (hosts.setHost place keeps).congr rfl rfl

theorem Hosts.move (move : Move occasion socket acts next) : Hosts origin next (trace ++ acts) := by
  cases move with
  | frame _ same =>
    rw [same]
    exact hosts.keep rfl rfl
  | askPeer host place _ _ named =>
    have held : socket.host .peer = some host := place
    exact hosts.setHost held fun _ hostOf => (hostOf.ask named).append
  | lookupFailed which host dnsevent place unknown _ =>
    have failed : Hosts origin _ (trace ++ []) :=
      hosts.setHost place fun _ hostOf => (hostOf.failed unknown dnsevent).append
    exact failed.congr rfl rfl
  | unheard which host name ip place out _ =>
    exact hosts.setHost place fun _ hostOf => hostOf.found out ip
  | unheardFailure which host name place out _ =>
    have asked : host.request ≠ none := by simp [out]
    exact hosts.setHost place fun _ hostOf => (hostOf.failed (.inl asked) false).append
  | clearDnsevent which host place =>
    exact hosts.setHost place fun _ hostOf => (hostOf.deafen false).append
  | found which host _ answer _ =>
    obtain ⟨old, place, keeps⟩ := answer.later
    exact (hosts.setHost place keeps).congr rfl rfl
  | answered _ _ answered => exact hosts.answered answered
  | dial _ _ answered _ _ =>
    rw [← append_assoc]
    exact (hosts.answered answered).keep rfl rfl
  | _ => exact hosts.keep rfl rfl

theorem Hosts.proxyHost :
    HostOf (InetAddress.ofString socket.proxyHost.inet.hostname) trace socket.proxyHost := by
  unfold Socket.proxyHost
  cases place : socket.proxyAddress with
  | some host => exact hosts.proxy host place
  | none =>
    have same := InetAddress.ofString_hostname socket.proxy.host
    rw [Option.getD_none, same]
    exact .fresh _

theorem Hosts.placeProxy (hostOf : HostOf (InetAddress.ofString host.inet.hostname) trace host)
    (own : next.address = socket.address) (proxy : next.proxyAddress = some host) :
    Hosts origin next (trace ++ acts) := by
  refine ⟨?_, fun missing => hosts.none' (own ▸ missing), ?_⟩
  · intro other held
    obtain ⟨first, here, hostOf⟩ := hosts.own other (own ▸ held)
    exact ⟨first, here, hostOf.append⟩
  · intro other held
    rw [proxy] at held
    cases held
    exact hostOf.append

theorem Hosts.aim (aims : Aim socket next) : Hosts origin next trace := by
  cases aims with
  | direct _ => exact hosts
  | proxied _ _ _ host same out _ _ =>
    have hostOf : HostOf (InetAddress.ofString host.inet.hostname) trace host := by
      obtain ⟨hostname, address, request, nameless⟩ := hosts.proxyHost
      rw [← same] at hostname address request nameless
      rw [← out] at request
      exact ⟨hostname, address, request, nameless⟩
    have placed : Hosts origin { socket with proxyAddress := some host } (trace ++ []) :=
      hosts.placeProxy hostOf rfl rfl
    rw [append_nil] at placed
    exact placed.congr rfl rfl

theorem Hosts.begins (begins : Begin socket acts next) : Hosts origin next (trace ++ acts) := by
  cases begins with
  | refuse _ _ _ => exact hosts.keep rfl rfl
  | prepare _ _ _ => exact hosts.placeProxy hosts.proxyHost rfl rfl
  | ask _ _ _ _ named => exact hosts.placeProxy (hosts.proxyHost.ask named) rfl rfl
  | aim _ _ aims | dial _ _ aims _ _ => exact (hosts.aim aims).keep rfl rfl

/-- The peer's name never changes. -/
theorem Hosts.getPeerName : socket.getPeerName = origin.getPeerName := by
  unfold Socket.getPeerName
  cases place : socket.address with
  | none => rw [hosts.none' place]
  | some host =>
    obtain ⟨first, here, hostOf⟩ := hosts.own host place
    rw [here]
    dsimp only
    rw [hostOf.hostname]
    split
    · rfl
    rename_i nameless
    have none' := not_not.mp nameless
    obtain ⟨same, known⟩ := hostOf.nameless none'
    simp only [InetAddress.getAddress, same, ne_eq, known, hostOf.hostname]

end

/-! ## The trail of the connections -/

/-- What the connections so far and the address that is set have to do with each other. -/
structure Trail (origin socket : Socket) (trace : List Act) : Prop where
  fresh : ∀ sd target settings handshake, .connect sd target settings handshake ∈ trace →
    sd < socket.opened
  own : socket.isProxied = false → ∀ target, socket.addr = some target →
    OwnPlace origin trace target
  link : socket.Negotiates → ∀ sd, socket.sd = some sd →
    ∃ target handshake, .connect sd target socket.inForce handshake ∈ trace
  right : Always (Right origin) trace

/-- The part of the socket that the invariant is about. -/
structure Sound (origin socket : Socket) (trace : List Act) : Prop where
  port : socket.port = origin.port
  hosts : Hosts origin socket trace
  direct : socket.isProxied = false → Direct socket
  proxied : socket.isProxied = true → Proxied origin.getPeerName origin.port socket

/-- Neither a connection nor a handshake. -/
def isIdleAct : Act → Bool
  | .connect _ _ _ _ => false
  | .pump _ _ _ => false
  | _ => true

theorem right_of_idle {front : List Act} {act : Act} (idle : isIdleAct act = true) :
    Right origin front act := by
  constructor
  · rintro sd target settings handshake rfl
    cases idle
  · rintro sd settings handshake rfl
    cases idle

theorem OwnPlace.append (own : OwnPlace origin trace target) :
    OwnPlace origin (trace ++ acts) target := by
  unfold OwnPlace at own ⊢
  split
  · rename_i host place
    rw [place] at own
    exact ⟨own.1.append, own.2⟩
  · rename_i missing
    rwa [missing] at own

theorem SameSettings.inForce (same : SameSettings socket next) : next.inForce = socket.inForce := by
  rw [Socket.inForce, Socket.inForce, same.isProxied, same.proxy]

namespace Trail

/-- Acts that neither connect nor negotiate. -/
theorem keep (trail : Trail origin socket trace) (same : SameSettings socket next)
    (idle : acts.all isIdleAct = true) (opened : socket.opened ≤ next.opened)
    (own : socket.isProxied = false → ∀ target, next.addr = some target →
      socket.addr = some target ∨ OwnPlace origin (trace ++ acts) target)
    (link : next.Negotiates → socket.Negotiates ∧ (next.sd = none ∨ next.sd = socket.sd)) :
    Trail origin next (trace ++ acts) := by
  constructor
  · intro sd target settings handshake member
    rcases mem_append.mp member with earlier | now
    · exact (trail.fresh sd target settings handshake earlier).trans_le opened
    · exact absurd (all_eq_true.mp idle _ now) nofun
  · intro mode target place
    rw [same.isProxied] at mode
    rcases own mode target place with was | now
    · exact (trail.own mode target was).append
    · exact now
  · intro waits sd place
    obtain ⟨was, kept⟩ := link waits
    rcases kept with shut | kept
    · rw [place] at shut
      cases shut
    obtain ⟨target, handshake, member⟩ := trail.link was sd (kept ▸ place)
    rw [same.inForce]
    exact ⟨target, handshake, mem_append_left _ member⟩
  · refine trail.right.append ?_
    intro front act back split
    exact right_of_idle (all_eq_true.mp idle act (by simp [split]))

/-- A fresh descriptor is connected to the place that is set. -/
theorem dial (trail : Trail origin socket trace)
    (right : RightPlace origin trace target socket.handshake socket.inForce) :
    Trail origin socket.dialled
      (trace ++ [.connect socket.opened target socket.inForce socket.handshake]) := by
  have connects : Right origin trace
      (.connect socket.opened target socket.inForce socket.handshake) := by
    constructor
    · intro sd other settings handshake same
      cases same
      refine ⟨right, ?_⟩
      intro other before held member
      exact lt_irrefl _ (trail.fresh _ other before held member)
    · intro sd settings handshake same
      cases same
  constructor
  · intro sd other settings handshake member
    rcases mem_append.mp member with earlier | now
    · exact (trail.fresh sd other settings handshake earlier).trans (Nat.lt_succ_self _)
    · cases mem_singleton.mp now
      exact Nat.lt_succ_self _
  · intro mode other set
    exact (trail.own mode other set).append
  · intro _ sd at'
    cases at'
    refine ⟨target, socket.handshake, ?_⟩
    rw [mem_append, mem_singleton]
    exact .inr rfl
  · exact always_snoc.mpr ⟨trail.right, connects⟩

/-- One act that is right, and no connection. -/
theorem note (trail : Trail origin socket trace) {act : Act} (right : Right origin trace act)
    (other : ∀ sd target settings handshake, act ≠ .connect sd target settings handshake) :
    Trail origin socket (trace ++ [act]) := by
  refine ⟨?_, fun mode target place => (trail.own mode target place).append, ?_,
    always_snoc.mpr ⟨trail.right, right⟩⟩
  · intro sd target settings handshake member
    rcases mem_append.mp member with earlier | now
    · exact trail.fresh sd target settings handshake earlier
    · exact absurd (mem_singleton.mp now).symm (other sd target settings handshake)
  · intro waits sd place
    obtain ⟨target, handshake, member⟩ := trail.link waits sd place
    exact ⟨target, handshake, mem_append_left _ member⟩

end Trail

/-- A proxied socket goes to its proxy. -/
theorem Aimed.rightPlace (aimed : Aimed origin.getPeerName origin.port socket)
    (mode : socket.isProxied = true) (hosts : Hosts origin socket trace)
    (set : socket.addr = some target) :
    RightPlace origin trace target socket.handshake socket.inForce := by
  obtain ⟨proxied, handshake, _, host, place, known, addr⟩ := aimed
  have address := (hosts.proxy host place).address known
  rw [proxied.proxyName host place] at address
  rw [addr] at set
  cases set
  rw [inForce, mode]
  exact ⟨address, rfl, handshake⟩

namespace Sound

variable {occasion : Occasion}

variable (sound : Sound origin socket trace)
include sound

theorem isProxied_of_negotiates (state : socket.state = .proxyHandshake) :
    socket.isProxied = true := by
  refine eq_true_of_ne_false fun mode => ?_
  exact (sound.direct mode).state state

theorem isProxied_of_answered (answered : Answered occasion socket acts next) :
    socket.isProxied = true := by
  refine eq_true_of_ne_false fun mode => ?_
  exact (sound.direct mode).not_answered answered

theorem move (direct : occasion.peer → socket.isProxied = false)
    (move : Move occasion socket acts next) : Sound origin next (trace ++ acts) := by
  have same := move.sameSettings
  refine ⟨same.port.trans sound.port, sound.hosts.move move, ?_, ?_⟩
  · intro mode
    rw [same.isProxied] at mode
    exact (sound.direct mode).move mode move
  · intro mode
    rw [same.isProxied] at mode
    refine (sound.proxied mode).move (fun asks => ?_) move
    rw [direct asks] at mode
    cases mode

theorem begins (begins : Begin socket acts next) : Sound origin next (trace ++ acts) := by
  have same := begins.sameSettings
  refine ⟨same.port.trans sound.port, sound.hosts.begins begins, ?_, ?_⟩
  · intro mode
    rw [same.isProxied] at mode
    exact (sound.direct mode).begins mode begins
  · intro mode
    rw [same.isProxied] at mode
    exact (sound.proxied mode).begins mode begins

/-- What a direct socket is told of its peer is an address of the peer. -/
theorem own_of_answer (mode : socket.isProxied = false) {which : LookupTarget}
    (answer : Answer occasion socket which host acts) :
    OwnPlace origin (trace ++ acts) ⟨host.inet.ip, socket.port⟩ := by
  have peer : which = .peer := by
    cases answer with
    | resolver old name ip place out _ =>
      cases which with
      | peer => rfl
      | proxy =>
        rw [(sound.direct mode).idle old place] at out
        cases out
    | known _ _ peer _ _ => exact peer
  have known : host.inet.resolveState = .resolved := by
    cases answer with
    | resolver _ _ _ _ _ _ => rfl
    | known _ _ _ _ known => exact known
  obtain ⟨old, place, later⟩ := answer.later
  subst peer
  obtain ⟨first, here, hostOf⟩ := sound.hosts.own old place
  unfold OwnPlace
  rw [here]
  exact ⟨(later _ hostOf).address known, sound.port⟩

/-- The handshake that runs is that of the connection. -/
theorem right_pump (trail : Trail origin socket trace) {handshake : Socks5Handshake}
    (negotiates : socket.state = .proxyHandshake) (place : socket.handshake = some handshake) :
    Right origin trace (.pump socket.sd socket.inForce handshake) := by
  have mode := sound.isProxied_of_negotiates negotiates
  constructor
  · intro sd target settings held same
    cases same
  · intro sd settings held same
    cases same
    obtain ⟨other, here, names⟩ := (sound.proxied mode).negotiates (.inr negotiates)
    rw [place] at here
    cases here
    have force : socket.inForce = some socket.proxy := by
      rw [inForce, mode]
      rfl
    refine ⟨socket.proxy, force, names, ?_⟩
    intro sd at'
    obtain ⟨target, held, member⟩ := trail.link (.inr negotiates) sd at'
    rw [force] at member
    exact ⟨target, held, member⟩

end Sound

theorem isIdleAct_of_isTraffic {act : Act} (traffic : IsTraffic act) : isIdleAct act = true := by
  rcases traffic with ⟨sd, data, rfl⟩ | ⟨sd, data, rfl⟩ <;> rfl

theorem Answered.idle (answered : Answered occasion socket acts next) :
    acts.all isIdleAct = true := by
  obtain ⟨_, _, _, answer, _⟩ := answered
  cases answer <;> rfl

namespace Trail

variable {occasion : Occasion}

variable (trail : Trail origin socket trace)
include trail

/-- As `keep`, when the address stays. -/
theorem calm (same : SameSettings socket next) (idle : acts.all isIdleAct = true)
    (opened : socket.opened ≤ next.opened) (addr : next.addr = socket.addr)
    (state : ¬ next.Negotiates ∨
      next.state = socket.state ∧ (next.sd = none ∨ next.sd = socket.sd)) :
    Trail origin next (trace ++ acts) := by
  refine trail.keep same idle opened (fun _ target place => .inl (addr ▸ place)) ?_
  intro waits
  rcases state with calm | ⟨still, kept⟩
  · exact absurd waits calm
  · exact ⟨by rwa [Negotiates, still] at waits, kept⟩

theorem answered (sound : Sound origin socket trace)
    (answered : Answered occasion socket acts next) : Trail origin next (trace ++ acts) := by
  have mode := sound.isProxied_of_answered answered
  obtain ⟨opened, sd, state⟩ := answered.still
  refine trail.keep answered.sameSettings answered.idle opened.ge ?_ ?_
  · intro other
    rw [mode] at other
    cases other
  · intro waits
    exact ⟨by rwa [Negotiates, state] at waits, .inr sd⟩

/-- The proxy's address has come, and the socket goes there. -/
theorem dialProxy (sound : Sound origin socket trace)
    (direct : occasion.peer → socket.isProxied = false)
    (answered : Answered occasion socket acts next) (place : next.addr = some target) :
    Trail origin next.dialled
      (trace ++ acts ++ [.connect next.opened target next.inForce next.handshake]) := by
  have mode := sound.isProxied_of_answered answered
  have asks : ¬ occasion.peer := fun asks => by
    rw [direct asks] at mode
    cases mode
  refine (trail.answered sound answered).dial ?_
  exact ((sound.proxied mode).answered asks answered).rightPlace
    (answered.sameSettings.isProxied.trans mode) (sound.hosts.answered answered) place

theorem move (sound : Sound origin socket trace)
    (direct : occasion.peer → socket.isProxied = false) (move : Move occasion socket acts next) :
    Trail origin next (trace ++ acts) := by
  have same := move.sameSettings
  have kept : socket.state = socket.state ∧ (socket.sd = none ∨ socket.sd = socket.sd) :=
    ⟨rfl, .inr rfl⟩
  cases move with
  | frame _ other =>
    refine trail.calm same rfl (by rw [other]) (by rw [other]) (.inr ⟨?_, .inr ?_⟩)
    · rw [other]
    · rw [other]
  | fail => exact trail.calm same rfl le_rfl rfl (.inl (not_negotiates_of_rests (.inr rfl)))
  | hangUp _ => exact trail.calm same rfl le_rfl rfl (.inl (not_negotiates_of_rests (.inl rfl)))
  | close => exact trail.calm same rfl le_rfl rfl (.inr ⟨rfl, .inl rfl⟩)
  | tlsStep status _ _ _ | tlsBye status _ =>
    refine trail.calm same rfl le_rfl rfl (.inl (not_negotiates_of_established ?_))
    cases status <;> rfl
  | lookupFailed which host _ _ _ _ =>
    refine trail.calm same rfl (by simp) ?_ (.inl (not_negotiates_of_rests (.inr rfl)))
    cases which <;> rfl
  | unheard which _ _ _ _ _ _ | unheardFailure which _ _ _ _ _ | clearDnsevent which _ _ =>
    cases which <;> exact trail.calm same rfl le_rfl rfl (.inr kept)
  | found which host _ answer _ =>
    have idle : acts.all isIdleAct = true := by cases answer <;> rfl
    refine trail.keep same idle (by simp) ?_ ?_
    · rintro mode _ ⟨⟩
      exact .inr (sound.own_of_answer mode answer)
    · rintro (state | state) <;> cases state
  | answered _ _ answered => exact trail.answered sound answered
  | dial _ _ answered target place =>
    rw [← append_assoc]
    exact trail.dialProxy sound direct answered place
  | reopen =>
    exact trail.calm same rfl (Nat.le_succ _) rfl (.inl (not_negotiates_of_rests (.inr rfl)))
  | established _ _ | tunnelled _ _ _ _ =>
    exact trail.calm same rfl le_rfl rfl (.inl (not_negotiates_of_established rfl))
  | tunnel waits _ _ =>
    exact trail.keep same rfl le_rfl (fun _ _ place => .inl place)
      fun _ => ⟨.inl waits, .inr rfl⟩
  | pump handshake after traffic negotiates place _ only =>
    rw [append_cons]
    have noted := trail.note (sound.right_pump trail negotiates place)
      (fun _ _ _ _ other => by cases other)
    refine noted.calm same ?_ le_rfl rfl (.inr kept)
    exact all_eq_true.mpr fun act member => isIdleAct_of_isTraffic (only act member)
  | proxyFailed _ =>
    exact trail.calm same rfl le_rfl rfl (.inl (not_negotiates_of_rests (.inr rfl)))
  | _ => exact trail.calm same rfl le_rfl rfl (.inr kept)

theorem aim (aims : Aim socket next) : Trail origin next trace := by
  cases aims with
  | direct _ => exact trail
  | proxied mode _ _ _ _ _ _ _ =>
    refine ⟨trail.fresh, ?_, trail.link, trail.right⟩
    intro other
    have direct : socket.isProxied = false := other
    rw [mode] at direct
    cases direct

theorem begins (sound : Sound origin socket trace) (begins : Begin socket acts next) :
    Trail origin next (trace ++ acts) := by
  have same := begins.sameSettings
  have kept : socket.state = socket.state ∧ (socket.sd = none ∨ socket.sd = socket.sd) :=
    ⟨rfl, .inr rfl⟩
  cases begins with
  | refuse _ _ _ =>
    exact trail.calm same rfl le_rfl rfl (.inl (not_negotiates_of_rests (.inr rfl)))
  | prepare _ _ _ | ask _ _ _ _ _ => exact trail.calm same rfl le_rfl rfl (.inr kept)
  | aim _ _ aims =>
    rw [append_nil]
    exact trail.aim aims
  | dial _ idle aims target place =>
    refine (trail.aim aims).dial ?_
    cases mode : socket.isProxied with
    | true =>
      have proxied := sound.proxied mode
      exact (proxied.aim mode (proxied.rests_of_idle idle) aims).rightPlace
        (same.isProxied.trans mode) (sound.hosts.aim aims) place
    | false =>
      cases aims with
      | direct _ =>
        rw [inForce, mode]
        exact trail.own mode target place
      | proxied other _ _ _ _ _ _ _ =>
        rw [mode] at other
        cases other

end Trail

/-- What holds of a configuration after a trace. -/
structure Routed (origin : Socket) (config : Config) (trace : List Act) : Prop where
  sound : Sound origin config.socket trace
  trail : Trail origin config.socket trace
  settled : config.socket.isProxied = true → .lookupPeer ∉ config.stack

variable {config after : Config} {label : Label}

theorem Sound.append (sound : Sound origin socket trace) : Sound origin socket (trace ++ acts) :=
  ⟨sound.port, sound.hosts.keep rfl rfl, sound.direct, sound.proxied⟩

/-- New settings, with nothing stale for them. -/
theorem Sound.setProxy {settings : ProxySettings} (sound : Sound origin config.socket trace)
    (safe : SafeSwitch config settings) (state : config.socket.state = .disconnected) :
    Sound origin { config.socket with proxy := settings } trace := by
  have rests : config.socket.Rests := .inl state
  rcases safe with same | ⟨direct, stays⟩ | ⟨target, quiet, idle, _, named, _⟩
  · have unchanged : { config.socket with proxy := settings } = config.socket := by rw [same]
    rwa [unchanged]
  · refine ⟨sound.port, sound.hosts.congr rfl rfl, ?_, ?_⟩
    · intro _
      exact (sound.direct direct).keep rfl rfl (.inl rfl)
    · intro mode
      rw [stays] at mode
      cases mode
  · refine ⟨sound.port, sound.hosts.congr rfl rfl, ?_, ?_⟩
    · intro _
      exact ⟨idle, target, by simp [state]⟩
    · intro mode
      refine ⟨sound.hosts.getPeerName, sound.port, quiet, named mode, ?_, ?_, by simp [state]⟩
      · intro host place out
        exact absurd (idle host place) out
      · intro waits
        exact absurd waits (not_negotiates_of_rests rests)

theorem Trail.setProxy {settings : ProxySettings} (trail : Trail origin config.socket trace)
    (sound : Sound origin config.socket trace) (safe : SafeSwitch config settings)
    (state : config.socket.state = .disconnected) :
    Trail origin { config.socket with proxy := settings } trace := by
  refine ⟨trail.fresh, ?_, ?_, trail.right⟩
  · intro mode target place
    rcases safe with same | ⟨direct, _⟩ | ⟨_, _, _, _, _, fresh⟩
    · rw [same] at mode
      exact trail.own mode target place
    · exact trail.own direct target place
    · have set : config.socket.addr = some target := place
      rcases fresh mode with missing | ⟨host, here, known, addr⟩
      · rw [set] at missing
        cases missing
      rw [set] at addr
      cases addr
      obtain ⟨first, made, hostOf⟩ := sound.hosts.own host here
      unfold OwnPlace
      rw [made]
      exact ⟨hostOf.address known, sound.port⟩
  · intro waits
    exact absurd waits (not_negotiates_of_rests (.inl state))

theorem Routed.setProxy {settings : ProxySettings} (routed : Routed origin config trace)
    (safe : config.socket.state = .disconnected → SafeSwitch config settings) :
    Routed origin ⟨config.socket.setProxy settings, config.stack⟩ trace := by
  unfold Socket.setProxy
  split
  · exact routed
  rename_i idle
  have state := not_not.mp idle
  have safe := safe state
  refine ⟨routed.sound.setProxy safe state, routed.trail.setProxy routed.sound safe state, ?_⟩
  intro mode
  rcases safe with same | ⟨_, stays⟩ | ⟨_, _, _, settled, _⟩
  · rw [same] at mode
    exact routed.settled mode
  · have direct : ({ config.socket with proxy := settings } : Socket).isProxied = true := mode
    rw [stays] at direct
    cases direct
  · exact settled

theorem Routed.enter (routed : Routed origin config trace) (label : Label) :
    Routed origin config (trace ++ entry config label) := by
  refine ⟨routed.sound.append, ?_, routed.settled⟩
  refine routed.trail.calm (.refl _) ?_ le_rfl rfl (.inr ⟨rfl, .inr rfl⟩)
  cases label <;> rfl

theorem Routed.step (routed : Routed origin config trace) (fits : Switches config label)
    (moves : step config label = some (after, acts)) : Routed origin after (trace ++ acts) := by
  have allows : Allows ⟨True, config.socket.isProxied = false, True⟩ config label := by
    refine ⟨fun _ => trivial, ?_, fun _ => trivial⟩
    intro asks
    refine eq_false_of_ne_true fun mode => routed.settled mode ?_
    obtain ⟨socket, stack⟩ := config
    cases label with
    | resume answers =>
      cases stack with
      | nil => cases asks
      | cons task rest =>
        cases task with
        | lookupPeer => exact mem_cons_self
        | _ => cases asks
    | _ => cases asks
  have entered := routed.enter label
  rcases step_cases allows moves with
    ⟨next, answers, rfl, rfl, rfl⟩ | ⟨front, middle, outcome, rest, begins, runs, suffix, rfl, rfl⟩
  · exact entered.setProxy (fits next rfl)
  have begun : SameSettings config.socket middle ∧
      Sound origin middle (trace ++ entry config label ++ front) ∧
      Trail origin middle (trace ++ entry config label ++ front) := by
    rcases begins with ⟨rfl, rfl⟩ | ⟨_, begins⟩
    · rw [append_nil]
      exact ⟨.refl _, entered.sound, entered.trail⟩
    · exact ⟨begins.sameSettings, entered.sound.begins begins,
        entered.trail.begins entered.sound begins⟩
  have moved : SameSettings config.socket outcome.socket ∧
      Sound origin outcome.socket (trace ++ entry config label ++ front ++ outcome.acts) ∧
      Trail origin outcome.socket (trace ++ entry config label ++ front ++ outcome.acts) := by
    refine @Moves.invariant _ _ _ _
      (fun socket trace => SameSettings config.socket socket ∧ Sound origin socket trace ∧
        Trail origin socket trace) _ ?_ runs.moves begun
    rintro socket next trace acts ⟨same, sound, trail⟩ move
    have direct (asks : config.socket.isProxied = false) : socket.isProxied = false :=
      same.isProxied.trans asks
    exact ⟨same.trans move.sameSettings, sound.move direct move, trail.move sound direct move⟩
  obtain ⟨same, sound, trail⟩ := moved
  rw [append_assoc, append_assoc] at sound trail
  refine ⟨sound, trail, ?_⟩
  intro mode member
  rcases mem_append.mp member with now | earlier
  · have proxied : outcome.socket.isProxied = true := mode
    rw [(runs.lookup now).1] at proxied
    cases proxied
  · exact routed.settled (same.isProxied.symm.trans mode) (suffix.subset earlier)

theorem Constructed.routed (constructed : Constructed origin) : Routed origin ⟨origin, []⟩ [] := by
  have hosts : Hosts origin origin [] := by
    refine ⟨?_, id, ?_⟩
    · intro host place
      refine ⟨host, place, ?_⟩
      cases constructed <;> cases place <;> exact .fresh _
    · cases constructed <;> nofun
  have idle : unasked origin.address ∧ unasked origin.proxyAddress := by
    cases constructed <;> refine ⟨?_, nofun⟩ <;> rintro _ ⟨⟩ <;> rfl
  have rests : ¬ origin.Negotiates := by
    cases constructed <;> rintro (state | state) <;> cases state
  have unconnected : ∀ sd target settings handshake,
      .connect sd target settings handshake ∈ ([] : List Act) → sd < origin.opened :=
    fun _ _ _ _ member => absurd member not_mem_nil
  refine ⟨⟨rfl, hosts, ?_, ?_⟩, ⟨unconnected, ?_, ?_, always_nil _⟩, fun _ => not_mem_nil⟩
  · intro _
    refine ⟨idle.2, ?_, ?_⟩
    · cases constructed <;> rfl
    · cases constructed <;> nofun
  · intro _
    refine ⟨rfl, rfl, idle.1, ?_, ?_, fun waits => absurd waits rests, ?_⟩
    · cases constructed <;> nofun
    · cases constructed <;> nofun
    · cases constructed <;> nofun
  · intro _ target place
    cases constructed with
    | accepted peer => exact place
    | _ => cases place
  · intro waits
    exact absurd waits rests

/-- Along every run whose changes of the settings are safe, each `::connect` goes to the
right place. -/
theorem run_right (constructed : Constructed origin)
    (run : Run step Switches ⟨origin, []⟩ config trace) : Always (Right origin) trace := by
  have routed : Routed origin config trace :=
    run.invariant (Routed origin) constructed.routed fun _ routed fits moves =>
      routed.step fits moves
  exact routed.trail.right

theorem run_right_relay :
    ∃ config trace,
      play (restrict step Switches) ⟨.ofName true (ascii "h") 80 {}, []⟩ relayRun =
        some (config, trace) ∧
      .event .connected (some 0) true ∈ trace ∧
        Always (Right (.ofName true (ascii "h") 80 {})) trace :=
  ⟨_, _, rfl, by decide, run_right (.ofName true (ascii "h") 80 {}) (run_of_play relayRun rfl)⟩

/-- Another proxy, at `5.6.7.8`. -/
def secondRelay : ProxySettings :=
  { enabled := true, host := [53, 46, 54, 46, 55, 46, 56], port := 1081 }

/-- A socket that changes its proxy between two connections. -/
def switchRun : List Label :=
  [.call .connect { connect := some .inProgress }, .back, .call .disconnect {}, .back, .resume {},
    .call (.setProxy secondRelay) {}, .call .connect { connect := some .inProgress }]

/-- The second connection goes to the first proxy, at the port of the second. -/
theorem not_right_switched :
    ∃ config trace, Run step (fun _ _ => True) ⟨.ofName true (ascii "h") 80 relay, []⟩
      config trace ∧
      ¬ Always (Right (.ofName true (ascii "h") 80 relay)) trace := by
  obtain ⟨config, trace, played, member, unresolved⟩ : ∃ config trace,
      play (restrict step fun _ _ => True) ⟨.ofName true (ascii "h") 80 relay, []⟩ switchRun =
        some (config, trace) ∧
      .connect 1 ⟨some (.v4 ⟨[1, 2, 3, 4], rfl⟩), 1081⟩ (some secondRelay)
        (some (Socks5Handshake.create secondRelay .connect (ascii "h") 80)) ∈ trace ∧
      (trace.all fun act => match act with | .resolved _ _ => false | _ => true) = true :=
    ⟨_, _, rfl, by decide, by decide⟩
  refine ⟨config, trace, run_of_play switchRun played, fun always => ?_⟩
  obtain ⟨front, part, right⟩ := always.of_mem member
  obtain ⟨address, _, _⟩ := (right.connect _ _ _ _ rfl).1
  rcases address with ⟨_, same⟩ | ⟨found, _, resolved⟩
  · exact absurd same (by decide)
  · exact absurd (all_eq_true.mp unresolved _ (part resolved)) nofun

end SamuraiFormal.Net.Socket
