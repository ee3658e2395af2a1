import SamuraiFormal.Net.SocketCourse
import SamuraiFormal.Net.SocketPieces

/-!
# The code of the socket moves as it may

Every function of the socket, every call and every task on its stack is a sequence of
moves; `connect()` begins a connection first.  `step_cases` says this of a step, and the
properties of whole runs are proved from it alone.  Along with it each function is shown to
keep its base in agreement, and to leave a callback in front of its tasks and nowhere else.
-/

namespace SamuraiFormal.Net.Socket

open Util
open List

variable {occasion : Occasion} {socket middle final : Socket} {acts more : List Act}
  {calls others : List BaseCall} {outcome : Outcome} {rest : List Task} {fits : Prop}

/-- A piece of code moves as it may and keeps to its base. -/
structure Does (occasion : Occasion) (calls : List BaseCall) (socket : Socket)
    (outcome : Outcome) : Prop where
  runs : Runs occasion socket outcome
  kept : Kept calls socket outcome

/-- It transfers nothing and leaves the session alone, too. -/
structure Code (occasion : Occasion) (calls : List BaseCall) (socket : Socket)
    (outcome : Outcome) : Prop extends Does occasion calls socket outcome where
  tame : Tame socket outcome

/-- Code that may ask for a descriptor. -/
structure Keeps (fits : Prop) (calls : List BaseCall) (socket : Socket) (outcome : Outcome) :
    Prop where
  tame : Tame socket outcome
  course : Course fits calls socket outcome

/-- What comes in front of a piece of code. -/
structure Change (occasion : Occasion) (calls : List BaseCall) (socket : Socket)
    (acts : List Act) (next : Socket) : Prop where
  moves : Moves occasion socket acts next
  follows : Follows calls socket next
  before : Before socket next
  clear : ∀ act ∈ acts, act.isTransfer = false

theorem Code.lead (change : Change occasion calls socket acts middle)
    (code : Code occasion others middle outcome) :
    Code occasion (calls ++ others) socket (outcome.after acts) where
  runs := .after change.moves code.runs
  kept := (code.kept.lead change.follows).after acts
  tame := (code.tame.before change.before).after change.clear

theorem Code.keeps (code : Code occasion calls socket outcome) : Keeps fits calls socket outcome :=
  ⟨code.tame, code.kept.course⟩

theorem Code.stay (socket : Socket) : Code occasion [] socket { socket := socket } :=
  ⟨⟨.stay _, kept_stay _⟩, tame_stay (.refl _)⟩

theorem Does.after (does : Does occasion calls socket outcome)
    (moves : Moves occasion socket acts socket) :
    Does occasion calls socket (outcome.after acts) :=
  ⟨.after moves does.runs, does.kept.after acts⟩

theorem Keeps.stay (socket : Socket) : Keeps fits [] socket { socket := socket } :=
  ⟨tame_stay (.refl socket), (kept_stay socket).course⟩

theorem Keeps.before (keeps : Keeps fits calls middle outcome) (before : Before socket middle)
    (sd : middle.sd = socket.sd) (monitor : middle.monitor = socket.monitor)
    (origin : isLive middle.state = true → isLive socket.state = true) :
    Keeps fits calls socket outcome :=
  ⟨keeps.tame.before before, keeps.course.before sd monitor origin⟩

theorem Keeps.setHost {which : LookupTarget} {host : Host}
    (keeps : Keeps fits calls (socket.setHost which host) outcome) :
    Keeps fits calls socket outcome :=
  ⟨keeps.tame.before (setHost_before socket which host), keeps.course.setHost⟩

/-- Tasks that may be left behind anywhere. -/
def Task.isIdle (task : Task) : Bool := isPlain task && !task.isApp

theorem callback_code (event : SocketEvent) (other : event ≠ .connected)
    (fits : Fits event socket.state) (idle : rest.all Task.isIdle = true)
    (clean : isLive socket.state = true → rest.any Task.tearsDown = false) :
    Code occasion [] socket (socket.callback event rest) := by
  simp only [Task.isIdle, all_eq_true, Bool.and_eq_true, Bool.not_eq_true'] at idle
  have ready : event = .dataAvailable → socket.transfers = true := by
    rintro rfl
    simpa [transfers, Fits] using fits
  refine ⟨⟨.plain (.single (.event event other ready)) ?_, .frame rfl rfl id,
    fun live => callback_clean _ _ (clean live)⟩,
    callback_tame socket fits fun task member => (idle task member).2⟩
  have plain : rest.all isPlain = true := all_eq_true.mpr fun task member => (idle task member).1
  unfold callback
  split <;> exact plain

theorem error_code {code : SocketError} {message : Message} (idle : rest.all Task.isIdle = true)
    (clean : isLive socket.state = true → rest.any Task.tearsDown = false) :
    Code occasion [] socket (socket.callback (.error code message) rest) :=
  callback_code _ nofun trivial idle clean

theorem close_moves (socket : Socket) : Moves occasion socket [] socket.close := by
  unfold close
  split
  · exact .nil _
  · exact .first .close (.single (.frame _ rfl))

namespace Change

theorem fail : Change occasion [] socket [] { socket with state := .invalid } :=
  ⟨.single .fail, .frame rfl rfl nofun, ⟨rfl, rfl, .inr rfl⟩, forall_mem_nil _⟩

theorem hangUp (live : socket.state ≠ .invalid ∧ socket.state ≠ .disconnected) :
    Change occasion [] socket [] { socket with state := .disconnected } :=
  ⟨.single (.hangUp live), .frame rfl rfl nofun, ⟨rfl, rfl, .inr rfl⟩, forall_mem_nil _⟩

theorem watch (socket : Socket) (live : isLive socket.state = true) (toggle : Bool) :
    Change occasion [.setMonitor] socket [] (socket.toggleWriteNotifier toggle) :=
  ⟨.single (.frame _ rfl), .watch live rfl rfl, ⟨rfl, rfl, .inl rfl⟩, forall_mem_nil _⟩

theorem unwatch (dead : isLive socket.state = false) :
    Change occasion [.disableMonitor] socket [] socket.disableMonitor :=
  ⟨.single (.frame _ rfl), .unwatch dead rfl rfl, ⟨rfl, rfl, .inl rfl⟩, forall_mem_nil _⟩

theorem close (dead : isLive socket.state = false) :
    Change occasion [.close] socket [] socket.close :=
  ⟨close_moves socket, .close (by rwa [close_state]) (close_sd socket) rfl,
    (Before.refl socket).close,
    forall_mem_nil _⟩

end Change

theorem internalError_code (socket : Socket) (errno : Errno) :
    Code occasion [] socket (socket.internalError errno) :=
  .lead .fail (error_code rfl nofun)

theorem internalClosed_code (live : socket.state ≠ .invalid ∧ socket.state ≠ .disconnected) :
    Code occasion [] socket socket.internalClosed :=
  .lead (.hangUp live) (callback_code .disconnected nofun trivial rfl nofun)

/-- The connection is closed before the failure is reported. -/
theorem closed_code {code : SocketError} {message : Message}
    (live : socket.state ≠ .invalid ∧ socket.state ≠ .disconnected) :
    Code occasion [.close] socket
      (({ socket with state := .disconnected } : Socket).close.callback (.error code message) []) :=
  .lead (.hangUp live) (.lead (.close rfl) (error_code rfl fun _ => rfl))

theorem setupFailed_code (socket : Socket) (message : Message) :
    Code occasion [.disableMonitor] socket (socket.setupFailed message) :=
  .lead .fail (.lead (.unwatch rfl) (error_code rfl nofun))

/-! ## How a connection is made -/

theorem internalProxyFailed_spec (socket : Socket) :
    Runs occasion { socket with handshake := none, state := .invalid, sd := none }
      socket.internalProxyFailed := by
  have closed : ({ socket with handshake := none, state := .invalid } : Socket).close =
      { socket with
        handshake := none, state := .invalid, sd := none
        monitor :=
          ({ socket with handshake := none, state := .invalid } : Socket).close.monitor } := by
    unfold close
    split
    · rename_i shut
      rw [shut]
    · rfl
  unfold internalProxyFailed
  rw [closed]
  exact .first (.frame _ rfl) (error_code rfl fun _ => rfl).runs

theorem internalProxyFailed_keeps (socket : Socket) :
    Tame socket socket.internalProxyFailed ∧ Kept [.close] socket socket.internalProxyFailed := by
  have closed : Code ⟨True, True, True⟩ [.close]
      { socket with handshake := none, state := .invalid } socket.internalProxyFailed :=
    .lead (.close rfl) (error_code rfl fun _ => rfl)
  exact ⟨closed.tame.before ⟨rfl, rfl, .inr rfl⟩, closed.kept.before rfl rfl nofun⟩

theorem internalProxyFailed_code (negotiates : socket.state = .proxyHandshake) :
    Code occasion [.close] socket socket.internalProxyFailed :=
  ⟨⟨.first (.proxyFailed negotiates) (internalProxyFailed_spec socket),
    (internalProxyFailed_keeps socket).2⟩, (internalProxyFailed_keeps socket).1⟩

theorem Outcome.after_append (outcome : Outcome) (acts more : List Act) :
    outcome.after (acts ++ more) = (outcome.after more).after acts := by
  simp only [Outcome.after, append_assoc]

theorem reportConnected_tame (socket : Socket) : Tame socket socket.reportConnected where
  toPiece := by
    refine Piece.of_same (callback_piece _ ?_ (forall_mem_nil _)) ?_
    · rfl
    · rfl
  tls := rfl
  clear := by simp [reportConnected, callback, Act.isTransfer]
  becomes := .inr (.inr ⟨rfl, rfl⟩)

theorem reportConnected_kept (live : isLive socket.state = true) :
    Kept [.setMonitor] socket socket.reportConnected :=
  ⟨.watch live rfl rfl, fun _ => callback_clean _ _ rfl⟩

theorem reportConnected_plain (socket : Socket) :
    socket.reportConnected.tasks.all isPlain = true := by
  dsimp only [reportConnected, callback]
  split <;> rfl

theorem reportConnected_runs {handshake : Socks5Handshake} (wantWrite : Bool)
    (negotiates : socket.state = .proxyHandshake) (place : socket.handshake = some handshake)
    (done : handshake.status = .done) :
    Runs occasion socket
      ((({ socket.toggleWriteNotifier wantWrite with
          handshake := none, timer := false } : Socket).reportConnected).after
        [.tunnelled socket.sd handshake]) := by
  have framed : Move occasion socket []
      ({ socket.toggleWriteNotifier false with timer := false } : Socket) := .frame _ rfl
  have reports := Moves.first framed (.single (.tunnelled handshake negotiates place done))
  exact .plain reports (reportConnected_plain _)

theorem internalProxyPump_code (negotiates : socket.state = .proxyHandshake) (answers : Answers) :
    Code occasion (socket.internalProxyPumpCalls answers) socket
      (socket.internalProxyPump answers) := by
  have live : isLive socket.state = true := by
    rw [negotiates]
    rfl
  unfold internalProxyPump internalProxyPumpCalls
  cases place : socket.handshake with
  | none => exact .stay socket
  | some handshake =>
    dsimp only
    obtain ⟨same, only⟩ := socket.runPump_spec handshake answers
    generalize socket.runPump handshake answers = pumped at same only
    have pumps : Change occasion [] socket
        (.pump socket.sd socket.inForce handshake :: pumped.acts)
        { socket with handshake := some pumped.handshake } := by
      refine ⟨.single (.pump handshake _ _ negotiates place same only), .frame rfl rfl id,
        ⟨rfl, rfl, .inl rfl⟩, forall_mem_cons.mpr ⟨rfl, ?_⟩⟩
      exact fun act member => isTransfer_of_traffic (only act member)
    have toggled := @Change.watch occasion { socket with handshake := some pumped.handshake } live
      pumped.wantWrite
    cases pumped.ec with
    | some errno => exact .lead pumps (internalError_code _ errno)
    | none =>
      cases status : pumped.handshake.status with
      | failed => exact .lead pumps (.lead toggled (internalProxyFailed_code negotiates))
      | done =>
        have reported := @reportConnected_kept
          { toggleWriteNotifier { socket with handshake := some pumped.handshake }
              pumped.wantWrite with handshake := none, timer := false } live
        refine ⟨⟨?_, (reported.lead (.watch live rfl rfl)).after _⟩,
          Tame.after (Tame.before (reportConnected_tame _) ?_) ?_⟩
        · rw [Outcome.after_append]
          exact .after pumps.moves (reportConnected_runs _ negotiates rfl status)
        · exact ⟨rfl, rfl, .inl rfl⟩
        · exact forall_mem_append.mpr ⟨pumps.clear, forall_mem_singleton.mpr rfl⟩
      | _ =>
        exact ⟨⟨.plain (pumps.moves.last (.frame _ rfl)) rfl, .watch live rfl rfl, fun _ => rfl⟩,
          tame_of_tasks ⟨rfl, rfl, .inl rfl⟩ (forall_mem_nil _) pumps.clear⟩

theorem internalConnected_code (waits : socket.state = .connecting) (answers : Answers) :
    Code occasion (socket.internalConnectedCalls answers) socket
      (socket.internalConnected answers) := by
  have live : isLive socket.state = true := by
    rw [waits]
    rfl
  unfold internalConnected internalConnectedCalls
  cases socket.pendingError answers with
  | some errno => exact closed_code (by simp [waits])
  | none =>
    dsimp only
    split
    · rename_i mode
      exact .lead ⟨.single (.tunnel waits mode.1 mode.2), .frame rfl rfl fun _ => live,
        ⟨rfl, rfl, .inr rfl⟩, forall_mem_nil _⟩ (internalProxyPump_code rfl answers)
    · rename_i mode
      have framed : Move occasion socket [] (socket.toggleWriteNotifier false) := .frame _ rfl
      have reports := Moves.first framed (.single (.established waits mode))
      exact ⟨⟨.plain reports (reportConnected_plain _), reportConnected_kept live⟩,
        reportConnected_tame socket⟩

/-- The socket with its fresh descriptor under the monitor. -/
def armed (socket : Socket) : Socket :=
  { socket.toggleWriteNotifier true with timer := true, state := .connecting }

theorem startConnect_code (socket : Socket) (sd : Nat) (target : SocketAddress)
    (answers : Answers) :
    ∃ rest outcome, socket.startConnectCalls answers = .setMonitor :: rest ∧
      socket.startConnect sd target answers =
        outcome.after [.connect sd target socket.inForce socket.handshake] ∧
      Code occasion rest socket.armed outcome := by
  unfold startConnect startConnectCalls
  cases answers.connect with
  | none => exact ⟨_, _, rfl, rfl, @internalConnected_code occasion socket.armed rfl answers⟩
  | some errno =>
    cases errno with
    | inProgress =>
      exact ⟨[], _, rfl, rfl, callback_code .connecting nofun trivial rfl fun _ => rfl⟩
    | _ => exact ⟨[.disableMonitor], _, rfl, rfl, setupFailed_code socket.armed _⟩

/-- A descriptor that cannot be had, or a fresh one. -/
theorem openDescriptor_cases (socket : Socket) (answers : Answers) :
    (∃ message, socket.openDescriptor answers = ({ socket with sd := none }, some message)) ∨
      ∃ failure, socket.openDescriptor answers =
        ({ socket with sd := some socket.opened, opened := socket.opened + 1 }, failure) := by
  unfold openDescriptor
  split
  · exact .inl ⟨_, rfl⟩
  dsimp only
  split
  · exact .inr ⟨_, rfl⟩
  split_ifs
  all_goals exact .inr ⟨_, rfl⟩

/-- The new descriptor is given up again. -/
theorem failed_course (sd : Option Nat) {failed : Socket} (place : failed.sd = sd)
    (idle : failed.monitor = none) (dead : isLive failed.state = false) {tasks : List Task}
    {acts : List Act} :
    Course fits [.createDescriptor sd, .disableMonitor] socket ⟨failed, tasks, acts⟩ := by
  have created {base : SocketBase} (agrees : Agrees base socket) :
      Agrees ((base.createDescriptor sd).disableMonitor) failed :=
    ⟨by rw [SocketBase.disableMonitor_sd, place]; rfl,
      by rw [SocketBase.disableMonitor_monitored, idle]; rfl⟩
  refine ⟨created, ?_, fun live => absurd live (by simp [dead]),
    fun live => absurd live (by simp [dead])⟩
  intro base _ sound free
  have tidy := sound.tidy.createDescriptor (sound.agrees.sd.trans (free rfl)) sd
  exact ⟨created sound.agrees, tidy.disableMonitor, fun live => absurd live (by simp [dead])⟩

/-- `internal_connect_addr()` does without a descriptor, or it goes to the address that is
set. -/
theorem internalConnectAddr_cases (socket : Socket) (answers : Answers) :
    Keeps fits (socket.internalConnectAddrCalls answers) socket
        (socket.internalConnectAddr answers) ∧
      (Runs occasion socket (socket.internalConnectAddr answers) ∨
        ∃ target outcome, socket.addr = some target ∧
          socket.internalConnectAddr answers =
            outcome.after [.connect socket.opened target socket.inForce socket.handshake] ∧
          Runs occasion socket.dialled outcome) := by
  unfold internalConnectAddr internalConnectAddrCalls
  cases place : socket.addr with
  | none => exact ⟨.stay socket, .inl (.stay _)⟩
  | some target =>
    rcases socket.openDescriptor_cases answers with ⟨message, opens⟩ | ⟨failure, opens⟩
    · rw [opens]
      have failed : Code occasion _ { socket with sd := none } _ := setupFailed_code _ message
      exact ⟨⟨failed.tame.before ⟨rfl, rfl, .inl rfl⟩, failed_course none rfl rfl rfl⟩,
        .inl (.first .close failed.runs)⟩
    rw [opens]
    cases failure with
    | some message =>
      have failed : Code occasion _ { socket with
          sd := some socket.opened, opened := socket.opened + 1, state := .invalid } _ :=
        setupFailed_code _ message
      exact ⟨⟨failed.tame.before ⟨rfl, rfl, .inr rfl⟩,
        failed_course (some socket.opened) rfl rfl rfl⟩,
        .inl (.first .reopen failed.runs)⟩
    | none =>
      obtain ⟨rest, outcome, same, acts, code⟩ := @startConnect_code occasion
        { socket with sd := some socket.opened, opened := socket.opened + 1 } socket.opened target
        answers
      have armed {base : SocketBase} (agrees : Agrees base socket) :
          Agrees (base.createDescriptor (some socket.opened)).setMonitor (Socket.armed
            { socket with sd := some socket.opened, opened := socket.opened + 1 }) :=
        ⟨SocketBase.setMonitor_sd _, SocketBase.setMonitor_monitored _⟩
      dsimp only
      rw [same, acts]
      refine ⟨⟨.after (code.tame.before ⟨rfl, rfl, .inr rfl⟩) (by simp [Act.isTransfer]), ?_⟩,
        .inr ⟨target, outcome, rfl, rfl, .first (.frame _ rfl) code.runs⟩⟩
      refine ⟨fun agrees => code.kept.follows.agrees (armed agrees), ?_, fun _ => .inr rfl,
        code.kept.clean⟩
      intro base _ sound free
      have tidy := sound.tidy.createDescriptor (sound.agrees.sd.trans (free rfl))
        (some socket.opened)
      exact code.kept.follows.sound
        ⟨armed sound.agrees, tidy.setMonitor rfl, fun _ => SocketBase.setMonitor_monitored _⟩

theorem answered_runs (answered : Answered occasion socket acts middle) (answers : Answers) :
    Runs occasion socket ((middle.internalConnectAddr answers).after acts) := by
  rcases (@internalConnectAddr_cases _ True middle answers).2 with
    runs | ⟨target, outcome, place, same, runs⟩
  · exact .after (.single (.answered acts middle answered)) runs
  · rw [same, ← Outcome.after_append]
    exact .after (.single (.dial acts middle answered target place)) runs

variable {which : LookupTarget} {host : Host}

/-- The answer to a lookup, on its way to the socket. -/
theorem eventHostFound_runs (answer : Answer occasion socket which host acts) (answers : Answers) :
    Runs occasion socket
      (((socket.setHost which host).eventHostFound host.inet answers).after acts) := by
  unfold eventHostFound
  cases mode : socket.lookupTarget with
  | proxy =>
    have runs := answered_runs (.intro which host acts answer mode) answers
    cases which <;> simpa only [setHost, mode] using runs
  | peer =>
    have found := Moves.single (Move.found which host acts answer mode)
    have heard : Runs occasion
        { socket.setHost which host with
          addr := some ⟨host.inet.ip, socket.port⟩, state := .hostFound }
        (({ socket.setHost which host with
          addr := some ⟨host.inet.ip, socket.port⟩, state := .hostFound } : Socket).callback
            .hostFound [.connectAfterLookup]) := by
      refine ⟨.single (.event .hostFound nofun nofun), ?_, fun _ => rfl⟩
      intro member
      dsimp only [callback] at member
      split at member <;> simp at member
    have runs := Runs.after found heard
    cases which <;> simpa only [setHost, mode] using runs

theorem eventHostFound_keeps (socket : Socket) (resolved : InetAddress) (answers : Answers) :
    Keeps fits (socket.eventHostFoundCalls resolved answers) socket
      (socket.eventHostFound resolved answers) := by
  unfold eventHostFound eventHostFoundCalls
  cases socket.lookupTarget with
  | proxy =>
    exact (@internalConnectAddr_cases ⟨True, True, True⟩ fits _ answers).1.before
      ⟨rfl, rfl, .inl rfl⟩ rfl rfl id
  | peer =>
    refine ⟨.before (callback_tame _ ?_ (by simp [Task.isApp])) ⟨rfl, rfl, .inr rfl⟩,
      Kept.course (.of_dead rfl (.frame rfl rfl nofun))⟩
    trivial

theorem addressFound_keeps (socket : Socket) (which : LookupTarget) (host : Host) (ip : IpAddress)
    (answers : Answers) :
    Keeps fits (socket.addressFoundCalls which host ip answers) socket
      (socket.addressFound which host ip answers) := by
  unfold addressFound addressFoundCalls
  split
  · exact (eventHostFound_keeps _ _ answers).setHost
  · exact (Keeps.stay _).setHost

theorem addressFound_runs {name : Bytes} (place : socket.host which = some host)
    (out : host.request = some name) (ip : IpAddress) (answers : Answers) :
    Runs occasion socket
      ((socket.addressFound which host ip answers).after [.resolved name ip]) := by
  unfold addressFound
  split
  · rename_i listens
    exact eventHostFound_runs (.resolver host name ip place out listens) answers
  · rename_i deaf
    exact .plain (.single (.unheard which host name ip place out (eq_false_of_ne_true deaf))) rfl

theorem lookupFailed_runs (place : socket.host which = some host)
    (unknown : host.request ≠ none ∨ host.inet.resolveState ≠ .resolved)
    (cause : which = .peer → host.request ≠ none ∨ occasion.peer) :
    Runs occasion socket
      ((socket.setHost which
        { inet := { host.inet with resolveState := .resolveError }, dnsevent := true
          }).eventHostError.andThen [.clearDnsevent which]) := by
  refine .plain ?_ ?_
  · exact .first (.lookupFailed which host true place unknown cause)
      (.first (.frame _ rfl) (.single (.event _ nofun nofun)))
  · dsimp only [eventHostError, callback]
    split <;> rfl

theorem lookupFailed_keeps (socket : Socket) (which : LookupTarget) (host : Host) :
    Keeps fits [.disableMonitor] socket
      ((socket.setHost which host).eventHostError.andThen [.clearDnsevent which]) := by
  have tame : Tame (socket.setHost which host) (socket.setHost which host).eventHostError := by
    refine .before (callback_tame _ ?_ (forall_mem_nil _)) ⟨rfl, rfl, .inr rfl⟩
    trivial
  have kept : Kept [.disableMonitor] (socket.setHost which host)
      ((socket.setHost which host).eventHostError.andThen [.clearDnsevent which]) :=
    .of_dead rfl (.unwatch rfl rfl rfl)
  exact (Keeps.mk (tame.andThen rfl (by simp [Task.isApp])) kept.course).setHost

theorem addressNotFound_keeps (socket : Socket) (which : LookupTarget) (host : Host) :
    Keeps fits (addressNotFoundCalls host) socket (socket.addressNotFound which host) := by
  unfold addressNotFound addressNotFoundCalls
  split
  · exact lookupFailed_keeps socket which _
  · exact (Keeps.stay _).setHost

theorem addressNotFound_runs {name : Bytes} (place : socket.host which = some host)
    (out : host.request = some name) :
    Runs occasion socket (socket.addressNotFound which host) := by
  unfold addressNotFound
  split
  · have asked : host.request ≠ none := by simp [out]
    exact lookupFailed_runs place (.inl asked) fun _ => .inl asked
  rename_i deaf
  exact .plain (.single (.unheardFailure which host name place out (eq_false_of_ne_true deaf)))
    rfl

theorem addressLookup_keeps (socket : Socket) (which : LookupTarget) (host : Host)
    (answers : Answers) :
    Keeps fits (socket.addressLookupCalls which host answers) socket
      (socket.addressLookup which host answers) := by
  unfold addressLookup addressLookupCalls
  dsimp only
  split_ifs
  · exact (eventHostFound_keeps _ _ answers).setHost
  · refine Keeps.setHost ⟨?_, Kept.course (kept_quiet rfl rfl id rfl)⟩
    exact tame_of_tasks (.refl _) (by simp) (by simp [Act.isTransfer])
  · exact lookupFailed_keeps socket which _

theorem lookup_code (looks : occasion.looks) (socket : Socket) :
    Code occasion [] socket socket.lookup := by
  unfold lookup
  split_ifs with busy mode known
  · exact .stay _
  · exact error_code rfl fun _ => rfl
  · refine ⟨⟨⟨.single (.event .hostLookup nofun nofun), ?_, ?_⟩, kept_callback socket _ rfl⟩,
      callback_tame socket trivial (by simp [Task.isApp])⟩
    · intro _
      exact ⟨eq_false_of_ne_true mode, not_not.mp busy, looks⟩
    · intro member
      dsimp only [callback] at member
      split at member <;> simp at member
  · exact .stay _

theorem lookupPeer_keeps (socket : Socket) (answers : Answers) :
    Keeps fits (socket.lookupPeerCalls answers) socket (socket.lookupPeer answers) := by
  unfold lookupPeer lookupPeerCalls
  cases socket.address with
  | none => exact .stay socket
  | some host => exact socket.addressLookup_keeps .peer host answers

theorem lookupPeer_runs (asks : occasion.peer) (socket : Socket) (answers : Answers) :
    Runs occasion socket (socket.lookupPeer answers) := by
  unfold lookupPeer
  cases place : socket.address with
  | none => exact .stay _
  | some host =>
    have held : socket.host .peer = some host := place
    unfold addressLookup
    dsimp only
    split_ifs with known named
    · exact eventHostFound_runs (.known host held rfl asks known) answers
    · exact .plain (.single (.askPeer host place asks known named.1)) rfl
    · have failed : Runs occasion socket _ := lookupFailed_runs held (.inr known) fun _ => .inr asks
      exact failed

/-- A piece of code that begins a connection, or none. -/
def Begins (occasion : Occasion) (socket : Socket) (outcome : Outcome) : Prop :=
  Runs occasion socket outcome ∨
    ∃ front middle rest, Begin socket front middle ∧ Runs occasion middle rest ∧
      outcome = rest.after front

theorem Begins.aim (idle : socket.Idle) (aims : Aim socket middle) (answers : Answers) :
    Begins occasion socket (middle.internalConnectAddr answers) := by
  rcases (@internalConnectAddr_cases _ True middle answers).2 with
    runs | ⟨target, outcome, place, same, runs⟩
  · exact .inr ⟨[], middle, _, .aim middle idle aims, runs, rfl⟩
  · exact .inr ⟨_, _, outcome, .dial middle idle aims target place, runs, same⟩

theorem internalConnectAddr_keeps (socket : Socket) (answers : Answers) :
    Keeps fits (socket.internalConnectAddrCalls answers) socket
      (socket.internalConnectAddr answers) :=
  (@internalConnectAddr_cases ⟨True, True, True⟩ fits socket answers).1

theorem internalConnectProxy_begins (mode : socket.isProxied = true) (idle : socket.Idle)
    (answers : Answers) :
    Begins occasion socket (socket.internalConnectProxy answers) ∧
      Keeps fits (socket.internalConnectProxyCalls answers) socket
        (socket.internalConnectProxy answers) := by
  unfold internalConnectProxy internalConnectProxyCalls
  dsimp only
  split
  · rename_i failed
    have reports : Runs occasion
        { socket with handshake := none, state := .invalid, sd := none } _ :=
      internalProxyFailed_spec { socket with handshake := some socket.request }
    obtain ⟨tame, kept⟩ := internalProxyFailed_keeps
      { socket with handshake := some socket.request }
    exact ⟨.inr ⟨[], _, _, .refuse mode idle failed, reports, rfl⟩,
      tame.before ⟨rfl, rfl, .inl rfl⟩, kept.course.before rfl rfl id⟩
  · rename_i alive
    split
    · rename_i known
      rw [InetAddress.isResolved, Bool.and_eq_true] at known
      refine ⟨.aim idle (.proxied mode alive (eq_of_beq known.2) socket.proxyHost rfl rfl
        socket.lookupTarget (.inl rfl)) answers, ?_⟩
      exact (internalConnectAddr_keeps _ answers).before ⟨rfl, rfl, .inl rfl⟩ rfl rfl id
    · refine ⟨?_, (addressLookup_keeps _ .proxy _ answers).before ⟨rfl, rfl, .inl rfl⟩ rfl rfl id⟩
      unfold addressLookup
      dsimp only
      split_ifs with known named
      · exact .aim idle
          (.proxied mode alive known { socket.proxyHost with dnsevent := false } rfl rfl .peer
            (.inr rfl)) answers
      · exact .inr ⟨_, _, _, .ask mode idle alive known named.1, .stay _, rfl⟩
      · have failed : Runs occasion
            { socket with
              handshake := some socket.request, proxyAddress := some socket.proxyHost
              lookupTarget := .proxy } _ :=
          lookupFailed_runs (show Socket.host _ .proxy = some socket.proxyHost from rfl)
            (.inr known) nofun
        exact .inr ⟨[], _, _, .prepare mode idle alive, failed, rfl⟩

theorem connect_begins (looks : occasion.looks) (socket : Socket) (answers : Answers) :
    Begins occasion socket (socket.connect answers) ∧
      Keeps fits (socket.connectCalls answers) socket (socket.connect answers) := by
  unfold connect connectCalls
  split
  · exact ⟨.inl (.stay _), .stay socket⟩
  rename_i idle
  have idle := not_not.mp idle
  split
  · rename_i mode
    exact internalConnectProxy_begins mode idle answers
  rename_i mode
  split
  · have code := lookup_code looks { socket with autoConnectAfterLookup := true }
    exact ⟨.inl (.first (.frame _ rfl) code.runs),
      code.keeps.before ⟨rfl, rfl, .inl rfl⟩ rfl rfl id⟩
  · exact ⟨.aim idle (.direct (eq_false_of_ne_true mode)) answers,
      internalConnectAddr_keeps socket answers⟩

theorem connect_keeps (socket : Socket) (answers : Answers) :
    Keeps fits (socket.connectCalls answers) socket (socket.connect answers) :=
  (@connect_begins ⟨True, True, True⟩ fits trivial socket answers).2

theorem disconnect_does (socket : Socket) :
    Does occasion socket.disconnectCalls socket socket.disconnect := by
  have closes (dead : isLive socket.state = false) :
      Does occasion [.close] socket { socket := socket.close } :=
    (Code.lead (.close dead) (.stay _)).toDoes
  have hangs (live : socket.state ≠ .invalid ∧ socket.state ≠ .disconnected) :
      Does occasion [] socket
        (({ socket with state := .disconnected } : Socket).callback .disconnected [.close]) :=
    (Code.lead (.hangUp live) (callback_code .disconnected nofun trivial rfl nofun)).toDoes
  unfold disconnect disconnectCalls
  cases state : socket.state with
  | connecting | proxyHandshake | connected | sslHandshake | sslConnected | sslBye =>
    exact hangs (by simp [state])
  | _ => exact closes (by rw [state]; rfl)

theorem eventTimeout_code (socket : Socket) :
    Code occasion socket.eventTimeoutCalls socket socket.eventTimeout := by
  have stops : Change occasion [] socket [] { socket with timer := false } :=
    ⟨.single (.frame _ rfl), .frame rfl rfl id, ⟨rfl, rfl, .inl rfl⟩, forall_mem_nil _⟩
  unfold eventTimeout eventTimeoutCalls
  split
  · rename_i waits
    have live : socket.state ≠ .invalid ∧ socket.state ≠ .disconnected := by
      rcases waits with state | state <;> simp [state]
    exact .lead stops (closed_code live)
  · exact .lead stops (.stay _)

theorem tlsFailed_code (live : isLive socket.state = true) :
    Code occasion [.setMonitor, .close] socket socket.tlsFailed := by
  have failed := @internalError_code occasion (socket.toggleWriteNotifier false).close (.other (-1))
  have toggled : Follows [.setMonitor] socket (socket.toggleWriteNotifier false) :=
    .watch live rfl rfl
  have closed : Follows [.close] (socket.toggleWriteNotifier false) socket.tlsFailed.socket :=
    .close rfl (close_sd _) rfl
  exact ⟨⟨.first (.frame _ rfl) (.behind (close_moves _) failed.runs),
    .of_dead rfl (toggled.trans closed)⟩, failed.tame.before (Before.close ⟨rfl, rfl, .inl rfl⟩)⟩

/-- A step of the handshake, and what follows from its answer. -/
theorem tlsSendHandshake_cases (socket : Socket) (answers : Answers) :
    (socket.canHandshake = false ∧ socket.tlsSendHandshake answers = { socket := socket }) ∨
      (socket.canHandshake = true ∧ ∃ outcome,
        socket.tlsSendHandshake answers = outcome.after [.tlsStep socket.sd answers.tls] ∧
        Runs occasion { socket with state := afterStep answers.tls } outcome ∧
        Kept (tlsStepCalls answers.tls) socket outcome ∧ Shakes socket answers outcome) := by
  unfold tlsSendHandshake
  split
  · rename_i ready
    have live : isLive socket.state = true := by
      rcases ready.2 with state | state <;> rw [state] <;> rfl
    refine .inr ⟨by simp [canHandshake, ready], _, rfl, ?_⟩
    cases answer : answers.tls with
    | ok =>
      have told := @callback_code occasion { socket with
        monitor := some { read := true }, state := .sslConnected } [] .tlsConnected nofun rfl rfl
        fun _ => rfl
      exact ⟨.first (.frame _ rfl) told.runs,
        ⟨.watch live rfl rfl, fun _ => callback_clean _ _ rfl⟩,
        told.tame.toPiece.of_same rfl, rfl, told.tame.clear, nofun, .inl nofun⟩
    | wantWrite | wantRead =>
      exact ⟨.plain (.single (.frame _ rfl)) rfl, ⟨.watch live rfl rfl, fun _ => rfl⟩,
        piece_of_tasks rfl (forall_mem_nil _), rfl, forall_mem_nil _, nofun, .inl nofun⟩
    | closed =>
      exact ⟨.plain (.single (.frame _ rfl)) rfl, ⟨.watch live rfl rfl, fun _ => rfl⟩,
        piece_of_tasks rfl (forall_mem_nil _), rfl, forall_mem_nil _, fun _ => .inl answer,
        .inl nofun⟩
    | error =>
      have failed := @tlsFailed_code occasion { socket with state := .sslHandshake } rfl
      exact ⟨failed.runs, failed.kept.before rfl rfl fun _ => live,
        failed.tame.toPiece.of_same rfl, failed.tame.tls, failed.tame.clear, nofun, .inl nofun⟩
  · rename_i refused
    exact .inl ⟨by simpa [canHandshake] using refused, rfl⟩

theorem canHandshake_iff : socket.canHandshake = true ↔
    socket.tls = true ∧ (socket.state = .connected ∨ socket.state = .sslHandshake) := by
  simp [canHandshake]

theorem tlsSendHandshake_does (answers : Answers)
    (fits : socket.canHandshake = true → answers.tls = .closed → occasion.closed) :
    Does occasion (socket.tlsSendHandshakeCalls answers) socket
      (socket.tlsSendHandshake answers) := by
  unfold tlsSendHandshakeCalls
  rcases @tlsSendHandshake_cases occasion socket answers with
    ⟨idle, same⟩ | ⟨ready, outcome, same, runs, kept, -⟩
  · rw [same, if_neg (canHandshake_iff.not.mp (by rw [idle]; exact nofun))]
    exact (Code.stay socket).toDoes
  have able := canHandshake_iff.mp ready
  rw [same, if_pos able]
  exact ⟨.after (.single (.tlsStep answers.tls able.1 able.2 (fits ready))) runs, kept.after _⟩

theorem tlsSendHandshake_piece (socket : Socket) (answers : Answers) :
    Shakes socket answers (socket.tlsSendHandshake answers) := by
  rcases @tlsSendHandshake_cases ⟨True, True, True⟩ socket answers with
    ⟨idle, same⟩ | ⟨ready, outcome, same, -, -, shakes⟩
  · rw [same]
    exact ⟨piece_of_tasks rfl (forall_mem_nil _), rfl, forall_mem_nil _, fun _ => .inr rfl,
      .inr rfl⟩
  · rw [same]
    exact ⟨shakes.toPiece.after _, shakes.tls, forall_mem_cons.mpr ⟨rfl, shakes.clear⟩,
      shakes.state,
      shakes.secure⟩

theorem tlsSendGoodbye_does (socket : Socket) (answers : Answers) :
    Does occasion (socket.tlsSendGoodbyeCalls answers) socket (socket.tlsSendGoodbye answers) ∧
      Piece socket (socket.tlsSendGoodbye answers) ∧
      ∀ act ∈ (socket.tlsSendGoodbye answers).acts, act.isTransfer = false := by
  unfold tlsSendGoodbye tlsSendGoodbyeCalls
  split
  · rename_i ready
    have live : isLive socket.state = true := by
      rcases ready.2 with state | state <;> rw [state] <;> rfl
    have steps : Moves occasion socket _ _ := .single (.tlsBye answers.tls ready.2)
    generalize answers.tls = status at steps
    cases status with
    | ok =>
      have told := @callback_code occasion { socket with
        monitor := some { read := true }, state := .connected } [] .tlsDisconnected
        nofun trivial rfl fun _ => rfl
      exact ⟨⟨.after steps (.first (.frame _ rfl) told.runs),
        .watch live rfl rfl, fun _ => callback_clean _ _ rfl⟩,
        (told.tame.toPiece.after _).of_same rfl, forall_mem_cons.mpr ⟨rfl, told.tame.clear⟩⟩
    | error =>
      have failed := @tlsFailed_code occasion { socket with state := .sslBye } rfl
      have kept : Kept _ socket _ := failed.kept.before rfl rfl fun _ => live
      exact ⟨⟨.after steps failed.runs, kept.after _⟩,
        (failed.tame.toPiece.after _).of_same rfl,
        forall_mem_cons.mpr ⟨rfl, failed.tame.clear⟩⟩
    | _ =>
      exact ⟨⟨.after steps (.plain (.single (.frame _ rfl)) rfl), .watch live rfl rfl,
        fun _ => rfl⟩,
        piece_of_tasks rfl (forall_mem_nil _), forall_mem_singleton.mpr rfl⟩
  · exact ⟨(Code.stay socket).toDoes, piece_of_tasks rfl (forall_mem_nil _), forall_mem_nil _⟩

theorem tlsInitialize_moves (socket : Socket) (answers : Answers) :
    Moves occasion socket [] (socket.tlsInitialize answers).2 := by
  unfold tlsInitialize
  split_ifs
  · exact .nil _
  · exact .nil _
  · exact .single .tlsStart

theorem finished_does (reply : Reply) (moves : Moves occasion socket acts socket) :
    Does occasion [] socket (socket.finished reply acts) :=
  ⟨.plain moves rfl, kept_quiet rfl rfl id rfl⟩

theorem stalled_does (ready : socket.transfers = true) (toggle : Bool) (reply : Reply) :
    Does occasion [.setMonitor] socket ((socket.toggleWriteNotifier toggle).finished reply []) :=
  ⟨.plain (.single (.frame _ rfl)) rfl, .watch (live_of_transfers ready) rfl rfl, fun _ => rfl⟩

section

variable (socket : Socket)

theorem tlsLost_does (code : SocketError) (message : String) (result : Int) :
    Does occasion [] socket (socket.tlsLost code message result) :=
  (callback_code .tlsDisconnected nofun trivial rfl fun _ => rfl).toDoes

theorem plainFailed_does (errno : Errno) (code : SocketError) (result : Int) :
    Does occasion (plainFailedCalls errno) socket (socket.plainFailed errno code result) := by
  unfold plainFailed plainFailedCalls
  split
  · exact finished_does _ (.nil _)
  · exact (Code.lead .fail (.lead (.unwatch rfl) (error_code rfl nofun))).toDoes

end

theorem plainSent_moves (ready : socket.transfers = true) (data : Bytes) :
    Moves occasion socket (socket.plainSent data) socket := by
  unfold plainSent
  split
  · exact .nil _
  · rename_i sd place
    exact .single (.plainSend sd data place ready)

theorem plainReceived_moves (ready : socket.transfers = true) (data : Bytes) :
    Moves occasion socket (socket.plainReceived data) socket := by
  unfold plainReceived
  split
  · exact .nil _
  · rename_i sd place
    exact .single (.plainRecv sd data place ready)

theorem write_does (socket : Socket) (data : Bytes) (answers : Answers) :
    Does occasion (socket.writeCalls data answers) socket (socket.write data answers) := by
  unfold write writeCalls
  split
  · exact (error_code rfl fun _ => rfl).toDoes
  rename_i ready
  have ready := not_not.mp ready
  split
  · rename_i secure
    cases answers.tls with
    | ok => exact finished_does _ (.single (.tlsSend _ secure))
    | wantWrite => exact stalled_does ready _ _
    | wantRead => exact finished_does _ (.nil _)
    | _ => exact socket.tlsLost_does _ _ _
  · dsimp only
    refine Does.after ?_ (plainSent_moves ready data)
    cases socket.send data answers.sent with
    | count bytes => exact finished_does _ (.nil _)
    | failed errno => exact socket.plainFailed_does errno _ _

theorem plainWritten_does (ready : socket.transfers = true) (data : Bytes) (answers : Answers) :
    Does occasion [] socket (socket.plainWritten data answers) :=
  finished_does _ (plainSent_moves ready data)

theorem writeReporting_does (socket : Socket) (data : Bytes) (answers : Answers) :
    Does occasion (socket.writeReportingCalls data answers) socket
      (socket.writeReporting data answers) := by
  unfold writeReporting writeReportingCalls
  split_ifs with ready
  · exact write_does _ _ _
  · exact plainWritten_does ready _ _
  · exact finished_does _ (.nil _)

theorem writeRecords_does (ready : socket.transfers = true) (secure : socket.isSecure = true)
    (total : Nat) (buffers : List Bytes) (records : List (TlsStatus × Nat)) :
    Does occasion (writeRecordsCalls buffers records) socket
      (socket.writeRecords total buffers records) := by
  fun_induction writeRecords socket total buffers records with
  | case1 => exact finished_does _ (.nil _)
  | case2 total buffers records ih => exact ih
  | case3 total buffer buffers _ accepted records count short =>
    rw [writeRecordsCalls, if_pos short]
    · exact finished_does _ (.single (.tlsSend _ secure))
    · assumption
  | case4 total buffer buffers _ accepted records count full ih =>
    rw [writeRecordsCalls, if_neg full]
    · exact ih.after (.single (.tlsSend _ secure))
    · assumption
  | case5 total buffer _ _ _ other =>
    rw [writeRecordsCalls]
    · exact stalled_does ready _ _
    · exact other
  | case6 total buffer _ _ _ other =>
    rw [writeRecordsCalls]
    · exact finished_does _ (.nil _)
    all_goals simp_all
  | case7 total buffer _ _ _ other | case8 total buffer _ _ _ other =>
    rw [writeRecordsCalls]
    · exact socket.tlsLost_does _ _ _
    all_goals simp_all
  | case9 total buffer _ other =>
    rw [writeRecordsCalls]
    · exact finished_does _ (.nil _)
    all_goals simp_all

section

variable (socket : Socket)

theorem writeBuffers_does (buffers : List Bytes) (answers : Answers) :
    Does occasion (socket.writeBuffersCalls buffers answers) socket
      (socket.writeBuffers buffers answers) := by
  unfold writeBuffers writeBuffersCalls
  dsimp only
  split_ifs with ready secure
  · exact writeRecords_does ready secure _ _ _
  · exact finished_does _ (.nil _)
  · exact plainWritten_does ready _ _
  · exact finished_does _ (.nil _)

theorem receive_does (length : Nat) (message : String) (failure : Int) (answers : Answers) :
    Does occasion (socket.receiveCalls length answers) socket
      (socket.receive length message failure answers) := by
  unfold receive receiveCalls
  split
  · exact (error_code rfl fun _ => rfl).toDoes
  rename_i ready
  have ready := not_not.mp ready
  split
  · rename_i secure
    cases answers.tls with
    | ok => exact finished_does _ (.single (.tlsRecv _ secure))
    | wantWrite => exact stalled_does ready _ _
    | wantRead => exact finished_does _ (.nil _)
    | _ => exact socket.tlsLost_does _ _ _
  · cases socket.recv length answers.received with
    | data bytes => exact finished_does _ (plainReceived_moves ready _)
    | failed errno => exact socket.plainFailed_does errno _ _

theorem readReporting_does (length : Nat) (answers : Answers) :
    Does occasion (socket.readReportingCalls answers) socket
      (socket.readReporting length answers) := by
  unfold readReporting readReportingCalls
  split
  · exact finished_does _ (.nil _)
  rename_i ready
  have ready := not_not.mp ready
  split
  · rename_i secure
    cases answers.tls with
    | ok =>
      dsimp only
      split
      · exact finished_does _ (.nil _)
      · exact finished_does _ (.single (.tlsRecv _ secure))
    | wantWrite => exact stalled_does ready _ _
    | _ => exact finished_does _ (.nil _)
  · split
    · split
      · exact finished_does _ (.nil _)
      · exact finished_does _ (plainReceived_moves ready _)
    · split
      · exact finished_does _ (.nil _)
      · exact finished_does _ (.nil _)

theorem internalReady_code (event : SocketEvent) (answers : Answers)
    (kind : event = .dataAvailable ∨ event = .canWrite) :
    Code occasion (socket.internalReadyCalls answers) socket
      (socket.internalReady event answers) := by
  unfold internalReady internalReadyCalls
  split_ifs with negotiates ready
  · exact internalProxyPump_code negotiates answers
  · have state : socket.state = .connected ∨ socket.state = .sslConnected := by
      simpa [transfers] using ready
    rcases kind with rfl | rfl
    · exact callback_code .dataAvailable (by simp) state rfl fun _ => rfl
    · exact callback_code .canWrite (by simp) state rfl fun _ => rfl
  · exact ⟨⟨.plain (.nil _) rfl, kept_quiet rfl rfl id rfl⟩,
      tame_of_tasks (.refl socket) (by simp [Task.isApp]) (forall_mem_nil _)⟩

theorem internalReadyCalls_other (other : socket.state ≠ .proxyHandshake) (answers : Answers) :
    socket.internalReadyCalls answers = [] :=
  if_neg other

theorem monitorRead_code (trig : Triggers) (answers : Answers) :
    Code occasion (socket.monitorReadCalls trig answers) socket
      (socket.monitorRead trig answers) := by
  unfold monitorRead monitorReadCalls
  split
  · exact .stay socket
  have ready := @internalReady_code occasion socket .dataAvailable answers (.inl rfl)
  split
  · rename_i state
    have none := socket.internalReadyCalls_other (by simp [state]) answers
    split
    · split
      · rw [none]
        exact internalClosed_code (by simp [state])
      · exact ready
    · rw [none]
      split
      · exact .stay socket
      · exact socket.internalError_code _
  any_goals exact ready
  rw [internalReadyCalls_other _ (by assumption)]
  exact .stay socket

theorem monitorWrite_code (trig : Triggers) (answers : Answers) :
    Code occasion (socket.monitorWriteCalls trig answers) socket
      (socket.monitorWrite trig answers) := by
  unfold monitorWrite monitorWriteCalls
  split
  · exact .stay socket
  have ready := @internalReady_code occasion socket .canWrite answers (.inr rfl)
  cases state : socket.state with
  | connecting => exact internalConnected_code state answers
  | proxyHandshake | sslBye | sslHandshake | connected | sslConnected => exact ready
  | _ =>
    simp only [socket.internalReadyCalls_other (by simp [state]) answers]
    exact .stay socket

theorem monitorError_code (trig : Triggers) (answers : Answers) :
    Code occasion [] socket (socket.monitorError trig answers) := by
  unfold monitorError
  split
  · exact .stay socket
  split
  · exact .stay socket
  rename_i live
  split
  · exact socket.internalError_code _
  · exact internalClosed_code (not_or.mp live)

end

/-! ## Steps -/

theorem setEventHandler_does (socket : Socket) (handler : Bool) :
    Moves occasion socket [] (socket.setEventHandler handler) ∧
      Course fits (socket.setEventHandlerCalls handler) socket
        { socket := socket.setEventHandler handler } := by
  unfold setEventHandler setEventHandlerCalls
  split
  · rename_i ready
    have watched := @watch_course socket fits { read := true } fun _ => ready.2.2
    exact ⟨.single (.frame _ rfl),
      fun agrees => ⟨(watched.agrees agrees).sd, (watched.agrees agrees).monitored⟩,
      fun right sound free =>
        have kept := watched.sound right sound free
        ⟨⟨kept.agrees.sd, kept.agrees.monitored⟩, kept.tidy, kept.watched⟩,
      watched.origin, fun _ => rfl⟩
  · exact ⟨.single (.frame _ rfl), Kept.course (kept_quiet rfl rfl id rfl)⟩

/-- Every call; `setProxy()` and `connect()` do more than move. -/
theorem Call.run_does (call : Call) (socket : Socket) (answers : Answers) :
    Course (call.proper socket = true) (call.baseCalls socket answers) socket
        (call.run socket answers) ∧
      ((∀ settings, call ≠ .setProxy settings) → call ≠ .connect →
        (call = .lookup → occasion.looks) →
        (call = .tlsSendHandshake → socket.canHandshake = true → answers.tls = .closed →
          occasion.closed) →
        Runs occasion socket (call.run socket answers)) := by
  have both {fits looks shakes apart late : Prop} {calls : List BaseCall} {outcome : Outcome}
      (does : Does occasion calls socket outcome) : Course fits calls socket outcome ∧
        (apart → late → looks → shakes → Runs occasion socket outcome) :=
    ⟨does.kept.course, fun _ _ _ _ => does.runs⟩
  have framed {next : Socket} {reply : List Task} (moves : Moves occasion socket [] next)
      (sd : next.sd = socket.sd) (monitor : next.monitor = socket.monitor)
      (state : next.state = socket.state) (plain : reply.all isPlain = true)
      (clean : reply.any Task.tearsDown = false) : Does occasion [] socket ⟨next, reply, []⟩ :=
    ⟨.plain moves plain, kept_quiet sd monitor (by rw [state]; exact id) clean⟩
  have frame {next : Socket} (same : next = { socket with
      monitor := next.monitor, autoConnectAfterLookup := next.autoConnectAfterLookup
      eventHandler := next.eventHandler, timer := next.timer
      reuseLocalPort := next.reuseLocalPort, localPort := next.localPort }) :
      Runs occasion socket { socket := next } := .plain (.single (.frame _ same)) rfl
  cases call with
  | lookup =>
    exact ⟨(@lookup_code ⟨True, True, True⟩ trivial socket).kept.course,
      fun _ _ looks _ => (lookup_code (looks rfl) socket).runs⟩
  | connect => exact ⟨(connect_keeps socket answers).course, fun _ late => absurd rfl late⟩
  | disconnect => exact both socket.disconnect_does
  | close =>
    exact ⟨close_course fun right => by simpa [Call.proper] using right,
      fun _ _ _ _ => .plain (close_moves _) rfl⟩
  | setProxy settings =>
    refine ⟨Kept.course ⟨.frame ?_ ?_ ?_, fun _ => rfl⟩, fun other => absurd rfl (other settings)⟩
    all_goals
      dsimp only [Call.run, Socket.setProxy]
      split
    · rfl
    · rfl
    · rfl
    · rfl
    · exact id
    · exact id
  | setReuseLocalPort port => exact both (framed (.single (.frame _ rfl)) rfl rfl rfl rfl rfl)
  | setEventHandler handler =>
    exact (setEventHandler_does socket handler).symm.imp_right fun moves _ _ _ _ => .plain moves rfl
  | setMonitor triggers | toggleWriteNotifier toggle =>
    exact ⟨watch_course id, fun _ _ _ _ => frame rfl⟩
  | disableMonitor =>
    exact ⟨unwatch_course fun right => by simpa [Call.proper] using right, fun _ _ _ _ => frame rfl⟩
  | write data => exact both (socket.write_does data answers)
  | writeReporting data => exact both (socket.writeReporting_does data answers)
  | writeBuffers buffers => exact both (socket.writeBuffers_does buffers answers)
  | read length | peek length => exact both (socket.receive_does length _ _ answers)
  | readReporting length | peekReporting length =>
    exact both (socket.readReporting_does length answers)
  | tlsInitialize server =>
    have still : (socket.tlsInitialize answers).2.sd = socket.sd ∧
        (socket.tlsInitialize answers).2.monitor = socket.monitor ∧
        (socket.tlsInitialize answers).2.state = socket.state := by
      unfold Socket.tlsInitialize
      split_ifs <;> exact ⟨rfl, rfl, rfl⟩
    exact both (framed (tlsInitialize_moves socket answers) still.1 still.2.1 still.2.2 rfl rfl)
  | tlsDeinit => exact both (framed (.single .tlsStop) rfl rfl rfl rfl rfl)
  | tlsSendHandshake =>
    exact ⟨(@tlsSendHandshake_does ⟨True, True, True⟩ socket answers
      fun _ _ => trivial).kept.course,
      fun _ _ _ fits => (tlsSendHandshake_does answers (fits rfl)).runs⟩
  | tlsSendGoodbye => exact both (socket.tlsSendGoodbye_does answers).1

/-- What a piece of an interrupted function does; only the TLS handshake and the goodbye
touch the session. -/
theorem Task.run_does (task : Task) (socket : Socket) (answers : Answers) :
    (Course (task.tearsDown = true → isLive socket.state = false) (task.baseCalls socket answers)
        socket (task.run socket answers) ∧
      (task ≠ .connectAfterLookup → (task = .lookupPeer → occasion.peer) →
        (task = .resumeHandshake → socket.canHandshake = true → answers.tls = .closed →
          occasion.closed) →
        Runs occasion socket (task.run socket answers))) ∧
      (Tame socket (task.run socket answers) ∨
        (task = .resumeHandshake ∧ socket.state = .sslHandshake ∧
          task.run socket answers = socket.tlsSendHandshake answers) ∨
        (task = .resumeGoodbye ∧ socket.state = .sslBye ∧
          task.run socket answers = socket.tlsSendGoodbye answers)) := by
  have all {fits late asks shakes special : Prop} {calls : List BaseCall} {outcome : Outcome}
      (code : Code occasion calls socket outcome) :
      (Course fits calls socket outcome ∧ (late → asks → shakes → Runs occasion socket outcome)) ∧
        (Tame socket outcome ∨ special) :=
    ⟨⟨code.kept.course, fun _ _ _ => code.runs⟩, .inl code.tame⟩
  cases task with
  | app event => exact all (.stay socket)
  | monitorRead trig => exact all (socket.monitorRead_code trig answers)
  | monitorWrite trig => exact all (socket.monitorWrite_code trig answers)
  | monitorError trig => exact all (socket.monitorError_code trig answers)
  | resumeHandshake =>
    rw [Task.run, Task.baseCalls]
    split
    · rename_i shakes
      exact ⟨⟨(@tlsSendHandshake_does ⟨True, True, True⟩ socket answers
          fun _ _ => trivial).kept.course,
        fun _ _ fits => (tlsSendHandshake_does answers (fits rfl)).runs⟩,
        .inr (.inl ⟨rfl, shakes, rfl⟩)⟩
    · exact all (.stay socket)
  | resumeGoodbye =>
    rw [Task.run, Task.baseCalls]
    split
    · rename_i leaves
      have does := (@tlsSendGoodbye_does occasion socket answers).1
      exact ⟨⟨does.kept.course, fun _ _ _ => does.runs⟩, .inr (.inr ⟨rfl, leaves, rfl⟩)⟩
    · exact all (.stay socket)
  | disableMonitor =>
    exact ⟨⟨unwatch_course fun right => right rfl,
      fun _ _ _ => .plain (.single (.frame _ rfl)) rfl⟩,
      .inl (tame_stay ⟨rfl, rfl, .inl rfl⟩)⟩
  | close =>
    exact ⟨⟨close_course fun right => right rfl, fun _ _ _ => .plain (close_moves _) rfl⟩,
      .inl (tame_stay (Before.close (.refl socket)))⟩
  | lookupPeer =>
    have keeps {fits : Prop} := @lookupPeer_keeps fits socket answers
    exact ⟨⟨keeps.course, fun _ asks _ => lookupPeer_runs (asks rfl) _ _⟩,
      .inl (@keeps True).tame⟩
  | connectAfterLookup =>
    rw [Task.run, Task.baseCalls]
    split
    · have keeps {fits : Prop} := @connect_keeps fits socket answers
      exact ⟨⟨keeps.course, fun late => absurd rfl late⟩, .inl (@keeps True).tame⟩
    · exact all (.stay socket)
  | clearDnsevent which =>
    rw [Task.run]
    split
    · exact all (.stay socket)
    · rename_i host place
      exact ⟨⟨(kept_stay _).course.setHost, fun _ _ _ => .plain
        (.single (.clearDnsevent which host place)) rfl⟩,
        .inl (tame_stay (setHost_before socket which _))⟩
  | transferFailed code message =>
    exact all (.lead .fail (.lead (.unwatch rfl) (error_code rfl nofun)))
  | finish reply =>
    exact all ⟨⟨.plain (.single (.returned reply)) rfl, kept_quiet rfl rfl id rfl⟩,
      tame_of_tasks (.refl socket) (forall_mem_nil _) (forall_mem_singleton.mpr rfl)⟩

/-- What a task other than a callback does. -/
theorem Task.run_cases (socket : Socket) (answers : Answers) (task : Task) :
    Tame socket (task.run socket answers) ∨
      (task = .resumeHandshake ∧ socket.state = .sslHandshake ∧
        task.run socket answers = socket.tlsSendHandshake answers) ∨
      (task = .resumeGoodbye ∧ socket.state = .sslBye ∧
        task.run socket answers = socket.tlsSendGoodbye answers) :=
  (@Task.run_does ⟨True, True, True⟩ task socket answers).2

/-- What is left of a function leaves its callback in front and transfers nothing. -/
theorem Task.run_piece (socket : Socket) (answers : Answers) (task : Task) :
    Piece socket (task.run socket answers) ∧
      ∀ act ∈ (task.run socket answers).acts, act.isTransfer = false := by
  rcases task.run_cases socket answers with tame | ⟨_, _, shakes⟩ | ⟨_, _, leaves⟩
  · exact ⟨tame.toPiece, tame.clear⟩
  · rw [shakes]
    have shakes := tlsSendHandshake_piece socket answers
    exact ⟨shakes.toPiece, shakes.clear⟩
  · rw [leaves]
    exact (@tlsSendGoodbye_does ⟨True, True, True⟩ socket answers).2

/-- The step performs a step of the TLS handshake, with this answer. -/
def handshakeStep (config : Config) (label : Label) : Option TlsStatus :=
  if config.socket.canHandshake then
    match label, config.stack with
    | .call .tlsSendHandshake answers, _ => some answers.tls
    | .resume answers, .resumeHandshake :: _ => some answers.tls
    | _, _ => none
  else none

/-- The step is a `connect()`. -/
def connects (config : Config) (label : Label) : Bool :=
  match label, config.stack with
  | .call .connect _, _ => true
  | .resume _, .connectAfterLookup :: _ => true
  | _, _ => false

/-- The step is a `lookup()`, or a `connect()` that may need one. -/
def looksUp (config : Config) (label : Label) : Bool :=
  match label with
  | .call .lookup _ => true
  | _ => connects config label

/-- The step is the lookup of the peer behind `EventHostLookup`. -/
def asksPeer (config : Config) (label : Label) : Bool :=
  match label, config.stack with
  | .resume _, .lookupPeer :: _ => true
  | _, _ => false

/-- The settings that a step sets. -/
def chosen : Label → Option ProxySettings
  | .call (.setProxy settings) _ => some settings
  | _ => none

/-- What a step may do. -/
def Allows (occasion : Occasion) (config : Config) (label : Label) : Prop :=
  (looksUp config label = true → occasion.looks) ∧
    (asksPeer config label = true → occasion.peer) ∧
    (handshakeStep config label = some .closed → occasion.closed)

/-- The act with which a step begins. -/
def entry (config : Config) : Label → List Act
  | .call call _ => [.called call config.socket.sd]
  | _ => []

theorem asked_eq_some {name : Bytes} (request : socket.asked which = some (host, name)) :
    socket.host which = some host ∧ host.request = some name := by
  unfold asked at request
  cases place : socket.host which with
  | none => simp [place] at request
  | some found =>
    simp only [place, Option.map_eq_some_iff] at request
    obtain ⟨_, out, rfl, rfl⟩ := request
    exact ⟨rfl, out⟩

/-- The label is a proper call, or none at all. -/
def proper (socket : Socket) : Label → Bool
  | .call call _ => call.proper socket
  | _ => true

theorem Course.after (course : Course fits calls socket outcome) (acts : List Act) :
    Course fits calls socket (outcome.after acts) :=
  ⟨course.agrees, course.sound, course.origin, course.clean⟩

/-- The code that a step runs, with what is left of the stack below it; but for `setProxy()`
and `connect()` it moves. -/
theorem step_code {config next : Config} {label : Label}
    (moves : step config label = some (next, acts)) :
    ∃ outcome rest, rest <:+ config.stack ∧ next = ⟨outcome.socket, outcome.tasks ++ rest⟩ ∧
      acts = entry config label ++ outcome.acts ∧
      Course
        (proper config.socket label = true ∧
          (config.stack.any Task.tearsDown = true → isLive config.socket.state = false))
        (baseCalls config label) config.socket outcome ∧
      (Allows occasion config label →
        (∀ settings answers, label ≠ .call (.setProxy settings) answers) →
        connects config label = false → Runs occasion config.socket outcome) := by
  obtain ⟨socket, stack⟩ := config
  cases label with
  | back =>
    cases stack with
    | nil => cases moves
    | cons task rest =>
      cases task <;> cases moves
      exact ⟨_, _, suffix_cons _ _, rfl, rfl, (kept_stay socket).course, fun _ _ _ => .stay _⟩
  | resume answers =>
    cases stack with
    | nil => cases moves
    | cons task rest =>
      obtain ⟨⟨course, runs⟩, -⟩ := @Task.run_does occasion task socket answers
      have both :
          next = ⟨(task.run socket answers).socket, (task.run socket answers).tasks ++ rest⟩ ∧
          acts = (task.run socket answers).acts := by
        cases task <;> cases moves <;> exact ⟨rfl, rfl⟩
      refine ⟨_, rest, suffix_cons _ _, both.1, both.2, ?_, fun allows _ late => runs ?_ ?_ ?_⟩
      · refine ⟨course.agrees, fun right => course.sound fun tears => right.2 ?_, course.origin,
          course.clean⟩
        rw [any_cons, tears, Bool.true_or]
      · rintro rfl
        cases late
      · rintro rfl
        exact allows.2.1 rfl
      · rintro rfl able closed
        exact allows.2.2 (by simp [handshakeStep, able, closed])
  | call call answers =>
    obtain ⟨course, runs⟩ := @Call.run_does occasion call socket answers
    rw [step] at moves
    split at moves
    · cases moves
      refine ⟨_, stack, suffix_refl _, rfl, rfl, ⟨course.agrees, fun right => course.sound right.1,
        course.origin, course.clean⟩, fun allows other late => runs ?_ ?_ ?_ ?_⟩
      · rintro settings rfl
        exact other settings answers rfl
      · rintro rfl
        cases late
      · rintro rfl
        exact allows.1 rfl
      · rintro rfl able closed
        exact allows.2.2 (by simp [handshakeStep, able, closed])
    · cases moves
  | monitor trig =>
    rw [step] at moves
    split at moves
    · cases moves
      exact ⟨⟨socket, [.monitorRead trig, .monitorWrite trig, .monitorError trig], []⟩, stack,
        suffix_refl _, rfl, rfl, Kept.course (kept_quiet rfl rfl id rfl),
        fun _ _ _ => .plain (.nil _) rfl⟩
    · cases moves
  | timeout =>
    rw [step] at moves
    split at moves
    · cases moves
      have code := @eventTimeout_code occasion socket
      exact ⟨_, stack, suffix_refl _, rfl, rfl, code.kept.course, fun _ _ _ => code.runs⟩
    · cases moves
  | found which ip answers =>
    rw [step] at moves
    rw [baseCalls]
    cases request : socket.asked which with
    | none => simp [request] at moves
    | some asked =>
      obtain ⟨place, out⟩ := asked_eq_some request
      simp only [request] at moves
      split at moves
      · cases moves
        exact ⟨(socket.addressFound which asked.1 ip answers).after [.resolved asked.2 ip], stack,
          suffix_refl _, rfl, rfl, (addressFound_keeps _ _ _ ip answers).course.after _,
          fun _ _ _ => addressFound_runs place out ip answers⟩
      · cases moves
  | notFound which =>
    rw [step] at moves
    rw [baseCalls]
    cases request : socket.asked which with
    | none => simp [request] at moves
    | some asked =>
      obtain ⟨place, out⟩ := asked_eq_some request
      simp only [request] at moves
      split at moves
      · cases moves
        exact ⟨_, stack, suffix_refl _, rfl, rfl, (addressNotFound_keeps _ _ _).course,
          fun _ _ _ => addressNotFound_runs place out⟩
      · cases moves

/-- A step is `setProxy()`, or a piece of code on top of what is left of the stack; only
`connect()` begins a connection. -/
theorem step_cases {config next : Config} {label : Label} (allows : Allows occasion config label)
    (moves : step config label = some (next, acts)) :
    (∃ settings answers, label = .call (.setProxy settings) answers ∧
        next = ⟨config.socket.setProxy settings, config.stack⟩ ∧
        acts = [.called (.setProxy settings) config.socket.sd]) ∨
      ∃ front middle outcome rest,
        (front = [] ∧ middle = config.socket ∨
          connects config label = true ∧ Begin config.socket front middle) ∧
        Runs occasion middle outcome ∧ rest <:+ config.stack ∧
        next = ⟨outcome.socket, outcome.tasks ++ rest⟩ ∧
        acts = entry config label ++ (front ++ outcome.acts) := by
  by_cases other : ∃ settings answers, label = .call (.setProxy settings) answers
  · obtain ⟨settings, answers, rfl⟩ := other
    rw [step] at moves
    split at moves
    · cases moves
      exact .inl ⟨settings, answers, rfl, rfl, rfl⟩
    · cases moves
  · refine .inr ?_
    cases late : connects config label with
    | false =>
      have apart : ∀ settings answers, label ≠ .call (.setProxy settings) answers :=
        fun settings answers same => other ⟨settings, answers, same⟩
      obtain ⟨outcome, rest, suffix, same, acts, -, runs⟩ := step_code moves
      exact ⟨[], _, outcome, rest, .inl ⟨rfl, rfl⟩, runs allows apart late, suffix, same, acts⟩
    | true =>
      have looks : occasion.looks := by
        refine allows.1 ?_
        unfold looksUp
        split
        · rfl
        · exact late
      -- The code of the step, whether it is called or comes behind `EventHostFound`.
      have runs : ∃ outcome rest, Begins occasion config.socket outcome ∧ rest <:+ config.stack ∧
          next = ⟨outcome.socket, outcome.tasks ++ rest⟩ ∧
          acts = entry config label ++ outcome.acts := by
        obtain ⟨socket, stack⟩ := config
        cases label with
        | call call answers =>
          cases call <;> cases late
          rw [step] at moves
          split at moves
          · cases moves
            exact ⟨_, stack, (@connect_begins _ True looks _ _).1, suffix_refl _, rfl, rfl⟩
          · cases moves
        | resume answers =>
          cases stack with
          | nil => cases late
          | cons task rest =>
            cases task <;> cases late
            cases moves
            refine ⟨_, rest, ?_, suffix_cons _ _, rfl, rfl⟩
            rw [Task.run]
            split
            · exact (@connect_begins _ True looks _ _).1
            · exact .inl (.stay _)
        | _ => cases late
      obtain ⟨outcome, rest, begins, suffix, same, trace⟩ := runs
      rcases begins with runs | ⟨front, middle, behind, begins, runs, rfl⟩
      · exact ⟨[], _, outcome, rest, .inl ⟨rfl, rfl⟩, runs, suffix, same, trace⟩
      · exact ⟨front, middle, behind, rest, .inr ⟨rfl, begins⟩, runs, suffix, same, trace⟩

/-- The settings, the port and the kind of the socket. -/
structure SameSettings (socket next : Socket) : Prop where
  proxy : next.proxy = socket.proxy
  port : next.port = socket.port
  outbound : next.outbound = socket.outbound

namespace SameSettings

theorem refl (socket : Socket) : SameSettings socket socket := ⟨rfl, rfl, rfl⟩

theorem trans (one : SameSettings socket middle) (two : SameSettings middle final) :
    SameSettings socket final :=
  ⟨two.proxy.trans one.proxy, two.port.trans one.port, two.outbound.trans one.outbound⟩

theorem isProxied (same : SameSettings socket middle) : middle.isProxied = socket.isProxied := by
  rw [Socket.isProxied, Socket.isProxied, same.proxy, same.outbound]

theorem setHost (socket : Socket) (which : LookupTarget) (host : Host) :
    SameSettings socket (socket.setHost which host) := by
  cases which <;> exact ⟨rfl, rfl, rfl⟩

end SameSettings

theorem Answered.sameSettings (answered : Answered occasion socket acts middle) :
    SameSettings socket middle := by
  cases answered with
  | intro which host _ _ _ =>
    have same := SameSettings.setHost socket which host
    exact ⟨same.proxy, same.port, same.outbound⟩

theorem Move.sameSettings (move : Move occasion socket acts middle) :
    SameSettings socket middle := by
  cases move with
  | frame _ same =>
    rw [same]
    exact ⟨rfl, rfl, rfl⟩
  | lookupFailed which host _ _ _ _ =>
    have same (host : Host) := SameSettings.setHost socket which host
    exact ⟨(same _).proxy, (same _).port, (same _).outbound⟩
  | unheard which _ _ _ _ _ _ | unheardFailure which _ _ _ _ _ | clearDnsevent which _ _ =>
    exact .setHost socket which _
  | found which host _ _ _ =>
    have same := SameSettings.setHost socket which host
    exact ⟨same.proxy, same.port, same.outbound⟩
  | answered _ _ answered => exact answered.sameSettings
  | dial _ _ answered _ _ =>
    have same := answered.sameSettings
    exact ⟨same.proxy, same.port, same.outbound⟩
  | _ => exact ⟨rfl, rfl, rfl⟩

theorem Moves.sameSettings (moves : Moves occasion socket acts middle) :
    SameSettings socket middle := by
  induction moves with
  | nil socket => exact .refl socket
  | cons move _ ih => exact move.sameSettings.trans ih

theorem Begin.sameSettings (begins : Begin socket acts middle) : SameSettings socket middle := by
  cases begins with
  | aim _ _ aims | dial _ _ aims _ _ => cases aims <;> exact ⟨rfl, rfl, rfl⟩
  | _ => exact ⟨rfl, rfl, rfl⟩

/-- Setting the address touches neither the descriptor nor the state. -/
theorem Answered.still (answered : Answered occasion socket acts middle) :
    middle.opened = socket.opened ∧ middle.sd = socket.sd ∧ middle.state = socket.state := by
  obtain ⟨which, host, _, _, _⟩ := answered
  exact ⟨setHost_opened _ _ _, setHost_sd _ _ _, setHost_state _ _ _⟩

theorem Aim.still (aims : Aim socket middle) :
    middle.opened = socket.opened ∧ middle.sd = socket.sd ∧ middle.state = socket.state := by
  cases aims <;> exact ⟨rfl, rfl, rfl⟩

end SamuraiFormal.Net.Socket
