import SamuraiFormal.Net.SocketRuns

/-!
# No plain byte behind a handshake

Once `TLSsendHandshake()` has been called on a descriptor, and until a step of the
handshake has answered `Ok`, the descriptor is guarded: no application byte goes over it
in clear and the application is told of none.  This holds along every run in which no
step of the handshake answers `Closed`, the answer on which the source goes back to the
plain connection, and in which the call is made where it has an effect.
-/

namespace SamuraiFormal.Net.Socket

open Library.Traces
open List

/-- The handshake was asked for on the descriptor, and has not succeeded. -/
def Guarded (sd : Nat) (trace : List Act) : Prop :=
  .called .tlsSendHandshake (some sd) ∈ trace ∧ .tlsStep (some sd) .ok ∉ trace

/-- Application bytes go over the plain descriptor, or the application is told of some. -/
def Exposes (sd : Nat) : Act → Prop
  | .plainSend place _ => place = sd
  | .plainRecv place _ => place = sd
  | .event .dataAvailable place _ => place = some sd
  | _ => False

/-- An act that exposes no guarded descriptor. -/
def Discreet (front : List Act) (act : Act) : Prop := ∀ sd, Guarded sd front → ¬ Exposes sd act

/-- The states of a connection over which application bytes can go without a further
answer of the TLS session. -/
def exposed : SocketState → Bool
  | .connecting => true
  | .proxyHandshake => true
  | .connected => true
  | .sslConnected => true
  | .sslBye => true
  | _ => false

/-- A step in which no handshake is answered with `Closed`, and in which
`TLSsendHandshake()` is not called before the connection stands or without a session. -/
def Proper (config : Config) (label : Label) : Prop :=
  handshakeStep config label ≠ some .closed ∧
    (entry config label = [.called .tlsSendHandshake config.socket.sd] →
      config.socket.state ≠ .connecting ∧ config.socket.state ≠ .proxyHandshake ∧
        (config.socket.state = .connected → config.socket.tls = true))

instance (config : Config) (label : Label) : Decidable (Proper config label) :=
  inferInstanceAs (Decidable (_ ∧ _))

theorem Guarded.before {sd : Nat} {trace acts : List Act} (guarded : Guarded sd (trace ++ acts))
    (uncalled : ∀ call place, .called call place ∉ acts) : Guarded sd trace := by
  obtain ⟨asked, open'⟩ := guarded
  rw [mem_append, not_or] at open'
  rcases mem_append.mp asked with earlier | now
  · exact ⟨earlier, open'.1⟩
  · exact absurd now (uncalled _ _)

/-- An act that is neither a call nor about plain bytes. -/
def isHarmless : Act → Bool
  | .called _ _ => false
  | .plainSend _ _ => false
  | .plainRecv _ _ => false
  | .event .dataAvailable _ _ => false
  | _ => true

/-- The part of a move that matters here. -/
structure Shields (socket : Socket) (acts : List Act) (next : Socket) : Prop where
  uncalled : ∀ call place, .called call place ∉ acts
  grows : socket.opened ≤ next.opened
  place : next.sd = none ∨
    (next.sd = some socket.opened ∧ socket.opened < next.opened ∧
      next.state ≠ .sslConnected ∧ next.state ≠ .sslBye) ∨
    (next.sd = socket.sd ∧
      (exposed next.state = true → exposed socket.state = true ∨ .tlsStep socket.sd .ok ∈ acts) ∧
      (next.state = .sslConnected ∨ next.state = .sslBye →
        socket.state = .sslConnected ∨ socket.state = .sslBye ∨ .tlsStep socket.sd .ok ∈ acts))
  hidden : ∀ act ∈ acts, ∀ sd, Exposes sd act → socket.sd = some sd ∧ exposed socket.state = true

variable {socket next : Socket} {acts : List Act}

theorem uncalled_of_harmless (harmless : acts.all isHarmless = true) (call : Call)
    (place : Option Nat) : .called call place ∉ acts := by
  intro member
  exact absurd (all_eq_true.mp harmless _ member) nofun

theorem not_exposes_of_harmless {act : Act} (harmless : isHarmless act = true) (sd : Nat) :
    ¬ Exposes sd act := by
  intro exposes
  unfold Exposes at exposes
  split at exposes
  · cases harmless
  · cases harmless
  · cases harmless
  · exact exposes

/-- Most moves: nothing about plain bytes, the descriptor stays or goes, and the state is
not one that the session has to allow. -/
theorem Shields.plain (harmless : acts.all isHarmless = true) (same : next.opened = socket.opened)
    (place : next.sd = none ∨ next.sd = socket.sd)
    (state : exposed next.state = false ∨ next.state = socket.state ∨
      (exposed socket.state = true ∧ next.state ≠ .sslConnected ∧ next.state ≠ .sslBye)) :
    Shields socket acts next := by
  refine ⟨uncalled_of_harmless harmless, same.ge, ?_, ?_⟩
  · rcases place with shut | kept
    · exact .inl shut
    · refine .inr (.inr ⟨kept, ?_, ?_⟩)
      · intro exposes
        rcases state with calm | still | ⟨was, _⟩
        · rw [calm] at exposes
          cases exposes
        · exact .inl (still ▸ exposes)
        · exact .inl was
      · rintro secure
        rcases state with calm | still | ⟨_, other⟩
        · rcases secure with state | state <;> rw [state] at calm <;> cases calm
        · rw [still] at secure
          exact secure.imp_right .inl
        · exact absurd secure (not_or.mpr other)
  · intro act member sd exposes
    exact absurd exposes (not_exposes_of_harmless (all_eq_true.mp harmless act member) sd)

/-- One act of a socket that stays as it is. -/
theorem Shields.act {act : Act} (uncalled : ∀ call place, act ≠ .called call place)
    (hidden : ∀ sd, Exposes sd act → socket.sd = some sd ∧ socket.transfers = true) :
    Shields socket [act] socket := by
  refine ⟨?_, le_rfl, .inr (.inr ⟨rfl, .inl, fun secure => secure.imp_right .inl⟩), ?_⟩
  · intro call place member
    exact uncalled call place (mem_singleton.mp member).symm
  · intro other member sd exposes
    rw [mem_singleton.mp member] at exposes
    obtain ⟨place, ready⟩ := hidden sd exposes
    refine ⟨place, ?_⟩
    rw [transfers, Bool.or_eq_true] at ready
    rcases ready with state | state <;> rw [eq_of_beq state] <;> rfl

variable {occasion : Occasion}

theorem Answer.harmless {which : LookupTarget} {host : Host}
    (answer : Answer occasion socket which host acts) : acts.all isHarmless = true := by
  cases answer <;> rfl

theorem Answered.harmless (answered : Answered occasion socket acts next) :
    acts.all isHarmless = true := by
  obtain ⟨_, _, _, answer, _⟩ := answered
  exact answer.harmless

theorem Shields.fresh (harmless : acts.all isHarmless = true)
    (place : next.sd = some socket.opened) (more : next.opened = socket.opened + 1)
    (other : next.state ≠ .sslConnected ∧ next.state ≠ .sslBye) : Shields socket acts next := by
  refine ⟨uncalled_of_harmless harmless, by omega, .inr (.inl ⟨place, by omega, other⟩), ?_⟩
  intro act member sd exposes
  exact absurd exposes (not_exposes_of_harmless (all_eq_true.mp harmless act member) sd)

theorem Shields.stepped {status : TlsStatus} (open' : status ≠ .closed) :
    Shields socket [.tlsStep socket.sd status] { socket with state := afterStep status } := by
  cases status with
  | ok =>
    have done : Act.tlsStep socket.sd .ok ∈ [Act.tlsStep socket.sd .ok] := mem_singleton_self _
    refine ⟨uncalled_of_harmless rfl, le_rfl, .inr (.inr ⟨rfl, ?_, ?_⟩), ?_⟩
    · intro _
      exact .inr done
    · intro _
      exact .inr (.inr done)
    · intro act member sd exposes
      rw [mem_singleton.mp member] at exposes
      exact exposes.elim
  | closed => exact absurd rfl open'
  | wantWrite | wantRead | error => exact .plain rfl rfl (.inr rfl) (.inl rfl)

theorem Shields.byed (status : TlsStatus)
    (ready : socket.state = .sslConnected ∨ socket.state = .sslBye) :
    Shields socket [.tlsBye socket.sd status] { socket with state := afterBye status } := by
  refine ⟨uncalled_of_harmless rfl, le_rfl, .inr (.inr ⟨rfl, ?_, ?_⟩), ?_⟩
  · intro _
    rcases ready with state | state <;> rw [state] <;> exact .inl rfl
  · intro _
    exact ready.imp_right .inl
  · intro act member sd exposes
    rw [mem_singleton.mp member] at exposes
    exact exposes.elim

theorem harmless_of_isTraffic {act : Act} (traffic : IsTraffic act) : isHarmless act = true := by
  rcases traffic with ⟨sd, data, rfl⟩ | ⟨sd, data, rfl⟩ <;> rfl

theorem Move.shields (open' : ¬ occasion.closed) (move : Move occasion socket acts next) :
    Shields socket acts next := by
  cases move with
  | frame _ same =>
    rw [same]
    exact .plain rfl rfl (.inr rfl) (.inr (.inl rfl))
  | event event _ ready =>
    refine .act nofun ?_
    intro sd exposes
    cases event with
    | dataAvailable => exact ⟨exposes, ready rfl⟩
    | _ => exact exposes.elim
  | returned reply => exact .plain rfl rfl (.inr rfl) (.inr (.inl rfl))
  | fail | hangUp _ => exact .plain rfl rfl (.inr rfl) (.inl rfl)
  | close => exact .plain rfl rfl (.inl rfl) (.inr (.inl rfl))
  | plainSend sd data place ready | plainRecv sd data place ready =>
    refine .act nofun ?_
    rintro _ rfl
    exact ⟨place, ready⟩
  | tlsSend _ _ | tlsRecv _ _ | tlsStart | tlsStop =>
    exact .plain rfl rfl (.inr rfl) (.inr (.inl rfl))
  | tlsStep status session ready fits => exact .stepped (fun closed => open' (fits closed))
  | tlsBye status ready => exact .byed status ready
  | askPeer _ _ _ _ _ => exact .plain rfl rfl (.inr rfl) (.inr (.inl rfl))
  | lookupFailed which _ _ _ _ _ => exact .plain rfl (by simp) (.inr (by simp)) (.inl rfl)
  | unheard which _ _ _ _ _ _ | unheardFailure which _ _ _ _ _ | clearDnsevent which _ _ =>
    exact .plain rfl (by simp) (.inr (by simp)) (.inr (.inl (by simp)))
  | found which _ _ answer _ =>
    exact .plain answer.harmless (by simp) (.inr (by simp)) (.inl rfl)
  | answered _ _ answered =>
    obtain ⟨opened, place, state⟩ := answered.still
    exact .plain answered.harmless opened (.inr place) (.inr (.inl state))
  | dial _ aimed answered _ _ =>
    obtain ⟨opened, _, _⟩ := answered.still
    refine .fresh ?_ (congrArg some opened) (congrArg (· + 1) opened) ⟨nofun, nofun⟩
    rw [all_append, answered.harmless]
    rfl
  | reopen => exact .fresh rfl rfl rfl ⟨nofun, nofun⟩
  | established waits _ | tunnel waits _ _ =>
    exact .plain rfl rfl (.inr rfl) (.inr (.inr ⟨by rw [waits]; rfl, nofun, nofun⟩))
  | pump _ _ traffic _ _ _ only =>
    refine .plain ?_ rfl (.inr rfl) (.inr (.inl rfl))
    rw [all_cons, Bool.and_eq_true, all_eq_true]
    exact ⟨rfl, fun act member => harmless_of_isTraffic (only act member)⟩
  | tunnelled _ negotiates _ _ =>
    exact .plain rfl rfl (.inr rfl) (.inr (.inr ⟨by rw [negotiates]; rfl, nofun, nofun⟩))
  | proxyFailed _ => exact .plain rfl rfl (.inl rfl) (.inl rfl)

theorem Begin.shields (begins : Begin socket acts next) : Shields socket acts next := by
  cases begins with
  | refuse _ _ _ => exact .plain rfl rfl (.inl rfl) (.inl rfl)
  | prepare _ _ _ | ask _ _ _ _ _ => exact .plain rfl rfl (.inr rfl) (.inr (.inl rfl))
  | aim _ _ aims =>
    obtain ⟨opened, place, state⟩ := aims.still
    exact .plain rfl opened (.inr place) (.inr (.inl state))
  | dial _ _ aims _ _ =>
    obtain ⟨opened, _, _⟩ := aims.still
    exact .fresh rfl (congrArg some opened) (congrArg (· + 1) opened) ⟨nofun, nofun⟩

/-- What holds of a socket after a trace. -/
structure Shielded (socket : Socket) (trace : List Act) : Prop where
  issued : ∀ sd, socket.sd = some sd → sd < socket.opened
  named : ∀ call sd, .called call (some sd) ∈ trace → sd < socket.opened
  hidden : ∀ sd, socket.sd = some sd → Guarded sd trace → exposed socket.state = false
  secured : ∀ sd, socket.sd = some sd → socket.state = .sslConnected ∨ socket.state = .sslBye →
    .tlsStep (some sd) .ok ∈ trace
  discreet : Always Discreet trace

variable {trace : List Act}

namespace Shielded

theorem move (shielded : Shielded socket trace) (shields : Shields socket acts next) :
    Shielded next (trace ++ acts) := by
  have before {sd : Nat} {front : List Act} (guarded : Guarded sd (trace ++ front))
      (part : ∀ act ∈ front, act ∈ acts) : Guarded sd trace :=
    guarded.before fun call place member => shields.uncalled call place (part _ member)
  constructor
  · intro sd place
    rcases shields.place with shut | ⟨fresh, more, _⟩ | ⟨kept, _⟩
    · rw [place] at shut
      cases shut
    · rw [place] at fresh
      cases fresh
      exact more
    · exact (shielded.issued sd (kept ▸ place)).trans_le shields.grows
  · intro call sd member
    rcases mem_append.mp member with earlier | now
    · exact (shielded.named call sd earlier).trans_le shields.grows
    · exact absurd now (shields.uncalled call (some sd))
  · intro sd place guarded
    have earlier := before guarded fun _ member => member
    rcases shields.place with shut | ⟨fresh, _⟩ | ⟨kept, state, _⟩
    · rw [place] at shut
      cases shut
    · rw [place] at fresh
      cases fresh
      exact absurd (shielded.named _ _ earlier.1) (lt_irrefl _)
    · rw [place] at kept
      refine eq_false_of_ne_true fun exposes => ?_
      rcases state exposes with was | done
      · rw [shielded.hidden sd kept.symm earlier] at was
        cases was
      · rw [← kept] at done
        exact guarded.2 (mem_append_right _ done)
  · intro sd place secure
    rcases shields.place with shut | ⟨_, _, one, two⟩ | ⟨kept, _, state⟩
    · rw [place] at shut
      cases shut
    · exact absurd secure (not_or.mpr ⟨one, two⟩)
    · rw [place] at kept
      rcases state secure with was | was | done
      · exact mem_append_left _ (shielded.secured sd kept.symm (.inl was))
      · exact mem_append_left _ (shielded.secured sd kept.symm (.inr was))
      · exact mem_append_right _ (kept ▸ done)
  · refine shielded.discreet.append ?_
    intro front act back split sd guarded exposes
    have member : act ∈ acts := by simp [split]
    obtain ⟨place, was⟩ := shields.hidden act member sd exposes
    have earlier := before guarded fun _ part => by simp [split, part]
    rw [shielded.hidden sd place earlier] at was
    cases was

theorem moves (open' : ¬ occasion.closed) (moves : Moves occasion socket acts next)
    (shielded : Shielded socket trace) : Shielded next (trace ++ acts) :=
  moves.invariant (fun shielded move => shielded.move (move.shields open')) shielded

/-- A call is recorded; if it is `TLSsendHandshake()`, the bytes of an exposed state are
already those of the session. -/
theorem enter (shielded : Shielded socket trace) (call : Call)
    (calm : call = .tlsSendHandshake → exposed socket.state = true →
      socket.state = .sslConnected ∨ socket.state = .sslBye) :
    Shielded socket (trace ++ [.called call socket.sd]) := by
  have discreet : Discreet trace (.called call socket.sd) := fun _ _ exposes => exposes
  refine ⟨shielded.issued, ?_, ?_, ?_, always_snoc.mpr ⟨shielded.discreet, discreet⟩⟩
  · intro other sd member
    rcases mem_append.mp member with earlier | now
    · exact shielded.named other sd earlier
    · injection mem_singleton.mp now with _ place
      exact shielded.issued sd place.symm
  · intro sd place guarded
    obtain ⟨asked, open'⟩ := guarded
    have unanswered : Act.tlsStep (some sd) .ok ∉ trace := fun done =>
      open' (mem_append_left _ done)
    rcases mem_append.mp asked with earlier | now
    · exact shielded.hidden sd place ⟨earlier, unanswered⟩
    injection mem_singleton.mp now with same _
    refine eq_false_of_ne_true fun exposes => ?_
    exact unanswered (shielded.secured sd place (calm same.symm exposes))
  · intro sd place secure
    exact mem_append_left _ (shielded.secured sd place secure)

/-- A call of `TLSsendHandshake()` that takes a step. -/
theorem handshake (shielded : Shielded socket trace) {status : TlsStatus}
    (open' : status ≠ .closed) :
    Shielded { socket with state := afterStep status }
      (trace ++ [.called .tlsSendHandshake socket.sd, .tlsStep socket.sd status]) := by
  have answered : status = .ok ∨ afterStep status = .sslHandshake := by
    cases status with
    | ok => exact .inl rfl
    | closed => exact absurd rfl open'
    | _ => exact .inr rfl
  refine ⟨shielded.issued, ?_, ?_, ?_, ?_⟩
  · intro call sd member
    rcases mem_append.mp member with earlier | now
    · exact shielded.named call sd earlier
    rcases mem_cons.mp now with same | later
    · injection same with _ place
      exact shielded.issued sd place.symm
    · cases mem_singleton.mp later
  · rintro sd place ⟨_, unanswered⟩
    rcases answered with rfl | waits
    · refine absurd ?_ unanswered
      have at' : socket.sd = some sd := place
      simp [at']
    rw [waits]
    rfl
  · intro sd place secure
    rcases answered with rfl | waits
    · have at' : socket.sd = some sd := place
      simp [at']
    rw [waits] at secure
    rcases secure with state | state <;> cases state
  · refine shielded.discreet.append ?_
    intro front act back split sd _ exposes
    have member : act ∈ [Act.called .tlsSendHandshake socket.sd, .tlsStep socket.sd status] := by
      simp [split]
    rcases mem_cons.mp member with rfl | later
    · exact exposes
    · rw [mem_singleton.mp later] at exposes
      exact exposes

theorem step {config next : Config} {label : Label} (shielded : Shielded config.socket trace)
    (proper : Proper config label) (moves : step config label = some (next, acts)) :
    Shielded next.socket (trace ++ acts) := by
  by_cases asks : ∃ answers, label = .call .tlsSendHandshake answers
  · obtain ⟨answers, rfl⟩ := asks
    rw [Socket.step] at moves
    split at moves
    · cases moves
      obtain ⟨early, negotiates, session⟩ := proper.2 rfl
      rcases @tlsSendHandshake_cases ⟨True, True, False⟩ config.socket answers with
        ⟨refused, same⟩ | ⟨able, outcome, same, runs, -⟩
      · rw [Call.run, same]
        refine shielded.enter _ fun _ exposes => ?_
        cases state : config.socket.state <;> simp_all [exposed, canHandshake]
      have open' : answers.tls ≠ .closed := by
        intro closed
        exact proper.1 (by simp [handshakeStep, able, closed])
      have after := Shielded.moves id runs.moves (shielded.handshake open')
      rw [Call.run, same]
      rwa [append_assoc] at after
    · cases moves
  · have allows : Allows ⟨True, True, False⟩ config label :=
      ⟨fun _ => trivial, fun _ => trivial, fun closed => proper.1 closed⟩
    have entered : Shielded config.socket (trace ++ entry config label) := by
      cases label with
      | call call answers =>
        refine shielded.enter call fun same => ?_
        exact absurd ⟨answers, by rw [same]⟩ asks
      | _ => simpa only [entry, append_nil] using shielded
    rcases step_cases allows moves with
      ⟨settings, answers, rfl, rfl, rfl⟩ |
        ⟨front, middle, outcome, rest, begins, runs, _, rfl, rfl⟩
    · have same : (config.socket.setProxy settings).sd = config.socket.sd ∧
          (config.socket.setProxy settings).opened = config.socket.opened ∧
          (config.socket.setProxy settings).state = config.socket.state := by
        unfold setProxy
        split <;> exact ⟨rfl, rfl, rfl⟩
      obtain ⟨issued, named, hidden, secured, discreet⟩ := entered
      exact ⟨by rwa [same.1, same.2.1], by rwa [same.2.1], by rwa [same.1, same.2.2],
        by rwa [same.1, same.2.2], discreet⟩
    · have begun : Shielded middle (trace ++ entry config label ++ front) := by
        rcases begins with ⟨rfl, rfl⟩ | ⟨_, begins⟩
        · rwa [append_nil]
        · exact entered.move begins.shields
      rw [← append_assoc, ← append_assoc]
      exact Shielded.moves id runs.moves begun

end Shielded

theorem Constructed.shielded {origin : Socket} (constructed : Constructed origin) :
    Shielded origin [] := by
  cases constructed with
  | accepted peer =>
    refine ⟨?_, nofun, nofun, ?_, always_nil _⟩
    · intro sd place
      cases place
      exact Nat.one_pos
    · intro sd _ secure
      rcases secure with state | state <;> cases state
  | _ => exact ⟨nofun, nofun, nofun, nofun, always_nil _⟩

/-- Along every run of proper steps no guarded descriptor is exposed. -/
theorem run_discreet {origin : Socket} {config : Config} (constructed : Constructed origin)
    (run : Run step Proper ⟨origin, []⟩ config trace) : Always Discreet trace := by
  have shielded : Shielded config.socket trace :=
    run.invariant (fun config trace => Shielded config.socket trace) constructed.shielded
      (fun _ shielded proper moves => shielded.step proper moves)
  exact shielded.discreet

end SamuraiFormal.Net.Socket
