import SamuraiFormal.Net.SocketBase
import SamuraiFormal.Net.SocketMoves

/-!
# What the socket does to its base

A base is tidy if what is open is the descriptor at hand, and the monitor has the socket
under that one exactly while the flag says so.  It stays tidy as long as a descriptor is
asked for only when there is none, and the monitor only when there is one.  Every function
of the socket keeps to the second rule by itself, and it keeps the base in agreement with
the socket whether or not the application keeps to the first.
-/

namespace SamuraiFormal.Net

open Util
open List

namespace SocketBase

structure Tidy (base : SocketBase) : Prop where
  descriptors : base.descriptors = base.sd.toList
  registry : base.registry = if base.monitored then base.sd.toList else []
  held : base.monitored = true → base.sd.isSome = true

variable {base : SocketBase}

section

variable (base : SocketBase)

theorem perform_append (calls more : List BaseCall) :
    base.perform (calls ++ more) = (base.perform calls).perform more :=
  foldl_append

@[simp] theorem setMonitor_sd : base.setMonitor.sd = base.sd := by
  unfold setMonitor SocketMonitor.modify SocketMonitor.add
  split
  · rfl
  · dsimp only
    split <;> rfl

@[simp] theorem setMonitor_monitored : base.setMonitor.monitored = true := by
  unfold setMonitor
  split
  · assumption
  · rfl

@[simp] theorem disableMonitor_sd : base.disableMonitor.sd = base.sd := by
  unfold disableMonitor SocketMonitor.remove
  split
  · dsimp only
    split <;> rfl
  · rfl

@[simp] theorem disableMonitor_monitored : base.disableMonitor.monitored = false := by
  unfold disableMonitor
  split
  · rfl
  · rename_i idle
    exact eq_false_of_ne_true idle

@[simp] theorem close_sd : base.close.sd = none := by
  unfold close
  split
  · assumption
  · rfl

theorem close_monitored :
    base.close.monitored = if base.sd.isSome then false else base.monitored := by
  unfold close
  split
  · rename_i shut
    simp [shut]
  · rename_i sd place
    simp [place]

end

theorem Tidy.createDescriptor (tidy : Tidy base) (free : base.sd = none) (sd : Option Nat) :
    Tidy (base.createDescriptor sd) := by
  have idle : base.monitored = false := by
    by_contra busy
    have held := tidy.held (eq_true_of_ne_false busy)
    rw [free] at held
    cases held
  have closed := tidy.descriptors
  have registry := tidy.registry
  rw [free] at closed
  refine ⟨?_, ?_, ?_⟩
  · simp [SocketBase.createDescriptor, closed]
  · simpa [SocketBase.createDescriptor, idle] using registry
  · intro busy
    rw [SocketBase.createDescriptor, idle] at busy
    cases busy

theorem Tidy.setMonitor (tidy : Tidy base) (held : base.sd.isSome = true) :
    Tidy base.setMonitor := by
  obtain ⟨sd, place⟩ := Option.isSome_iff_exists.mp held
  unfold SocketBase.setMonitor
  split
  · exact tidy
  rename_i idle
  have registry := tidy.registry
  rw [if_neg idle] at registry
  refine ⟨?_, ?_, ?_⟩
  · simpa [SocketMonitor.add, place] using tidy.descriptors
  · simp [SocketMonitor.add, place, registry]
  · intro _
    simp [SocketMonitor.add, place]

theorem Tidy.disableMonitor (tidy : Tidy base) : Tidy base.disableMonitor := by
  unfold SocketBase.disableMonitor
  split
  · rename_i busy
    obtain ⟨sd, place⟩ := Option.isSome_iff_exists.mp (tidy.held busy)
    have registry := tidy.registry
    refine ⟨?_, ?_, nofun⟩
    · simpa [SocketMonitor.remove, place] using tidy.descriptors
    · simp [SocketMonitor.remove, place, registry]
  · exact tidy

theorem Tidy.close (tidy : Tidy base) : Tidy base.close := by
  unfold SocketBase.close
  split
  · exact tidy
  rename_i sd place
  have idle := base.disableMonitor_monitored
  refine ⟨?_, ?_, ?_⟩
  · simp [tidy.descriptors, place]
  · simpa using tidy.disableMonitor.registry
  · intro busy
    rw [idle] at busy
    cases busy

end SocketBase

namespace Socket

open SocketBase (Tidy)

variable {base : SocketBase} {calls more : List BaseCall} {socket middle changed next : Socket}
  {outcome : Outcome} {fits : Prop}

/-- The base has the descriptor and the flag of the socket. -/
structure Agrees (base : SocketBase) (socket : Socket) : Prop where
  sd : base.sd = socket.sd
  monitored : base.monitored = socket.monitor.isSome

namespace Agrees

variable (agrees : Agrees base socket)
include agrees

theorem setMonitor (sd : next.sd = socket.sd) (set : next.monitor.isSome = true) :
    Agrees base.setMonitor next :=
  ⟨by rw [base.setMonitor_sd, agrees.sd, sd], by rw [base.setMonitor_monitored, set]⟩

theorem disableMonitor (sd : next.sd = socket.sd) (unset : next.monitor = none) :
    Agrees base.disableMonitor next :=
  ⟨by rw [base.disableMonitor_sd, agrees.sd, sd],
    by rw [base.disableMonitor_monitored, unset]; rfl⟩

theorem close (sd : next.sd = none) (monitor : next.monitor = socket.close.monitor) :
    Agrees base.close next := by
  refine ⟨by rw [base.close_sd, sd], ?_⟩
  rw [base.close_monitored, agrees.sd, agrees.monitored, monitor, Socket.close]
  cases socket.sd <;> rfl

end Agrees

@[simp] theorem close_sd (socket : Socket) : socket.close.sd = none := by
  unfold close
  split
  · assumption
  · rfl

@[simp] theorem close_state (socket : Socket) : socket.close.state = socket.state := by
  unfold close
  split <;> rfl

/-- The socket agrees with a tidy base, and a live one is monitored. -/
structure Intact (base : SocketBase) (socket : Socket) : Prop where
  agrees : Agrees base socket
  tidy : Tidy base
  watched : isLive socket.state = true → base.monitored = true

theorem Intact.held (sound : Intact base socket) (live : isLive socket.state = true) :
    base.sd.isSome = true :=
  sound.tidy.held (sound.watched live)

/-- These calls are made on the way from one socket to the next, without a new descriptor. -/
structure Follows (calls : List BaseCall) (socket next : Socket) : Prop where
  agrees {base : SocketBase} : Agrees base socket → Agrees (base.perform calls) next
  sound {base : SocketBase} : Intact base socket → Intact (base.perform calls) next
  origin : isLive next.state = true → isLive socket.state = true

namespace Follows

theorem trans (first : Follows calls socket middle) (second : Follows more middle next) :
    Follows (calls ++ more) socket next where
  agrees {base} agrees := by
    rw [base.perform_append]
    exact second.agrees (first.agrees agrees)
  sound {base} sound := by
    rw [base.perform_append]
    exact second.sound (first.sound sound)
  origin live := first.origin (second.origin live)

theorem frame (sd : next.sd = socket.sd) (monitor : next.monitor = socket.monitor)
    (origin : isLive next.state = true → isLive socket.state = true) :
    Follows [] socket next := by
  have same {base : SocketBase} (agrees : Agrees base socket) : Agrees base next :=
    ⟨agrees.sd.trans sd.symm, by rw [agrees.monitored, monitor]⟩
  exact ⟨same, fun sound => ⟨same sound.agrees, sound.tidy, sound.watched ∘ origin⟩, origin⟩

/-- A live socket has a descriptor to be monitored. -/
theorem watch (live : isLive socket.state = true) (sd : next.sd = socket.sd)
    (set : next.monitor.isSome = true) : Follows [.setMonitor] socket next where
  agrees agrees := agrees.setMonitor sd set
  sound {base} sound :=
    ⟨sound.agrees.setMonitor sd set, sound.tidy.setMonitor (sound.held live),
      fun _ => base.setMonitor_monitored⟩
  origin _ := live

theorem unwatch (dead : isLive next.state = false) (sd : next.sd = socket.sd)
    (unset : next.monitor = none) : Follows [.disableMonitor] socket next where
  agrees agrees := agrees.disableMonitor sd unset
  sound sound :=
    ⟨sound.agrees.disableMonitor sd unset, sound.tidy.disableMonitor,
      fun live => absurd live (by simp [dead])⟩
  origin live := absurd live (by simp [dead])

theorem close (dead : isLive next.state = false) (sd : next.sd = none)
    (monitor : next.monitor = socket.close.monitor) : Follows [.close] socket next where
  agrees agrees := agrees.close sd monitor
  sound sound :=
    ⟨sound.agrees.close sd monitor, sound.tidy.close, fun live => absurd live (by simp [dead])⟩
  origin live := absurd live (by simp [dead])

end Follows

/-- The tasks that take the socket from the monitor or close it. -/
def Task.tearsDown : Task → Bool
  | .disableMonitor => true
  | .close => true
  | _ => false

/-- A piece of code that makes these calls and no new descriptor; a socket it leaves live is
not about to be torn down. -/
structure Kept (calls : List BaseCall) (socket : Socket) (outcome : Outcome) : Prop where
  follows : Follows calls socket outcome.socket
  clean : isLive outcome.socket.state = true → outcome.tasks.any Task.tearsDown = false

/-- A piece of code that makes these calls, a new descriptor perhaps among them. -/
structure Course (fits : Prop) (calls : List BaseCall) (socket : Socket) (outcome : Outcome) :
    Prop where
  agrees {base : SocketBase} : Agrees base socket → Agrees (base.perform calls) outcome.socket
  sound {base : SocketBase} : fits → Intact base socket →
    (creates calls = true → socket.sd = none) → Intact (base.perform calls) outcome.socket
  origin : isLive outcome.socket.state = true →
    isLive socket.state = true ∨ creates calls = true
  clean : isLive outcome.socket.state = true → outcome.tasks.any Task.tearsDown = false

theorem Kept.course (kept : Kept calls socket outcome) : Course fits calls socket outcome where
  agrees := kept.follows.agrees
  sound _ sound _ := kept.follows.sound sound
  origin live := .inl (kept.follows.origin live)
  clean := kept.clean

/-- A change of other fields in front. -/
theorem Course.before (course : Course fits calls changed outcome) (sd : changed.sd = socket.sd)
    (monitor : changed.monitor = socket.monitor)
    (origin : isLive changed.state = true → isLive socket.state = true) :
    Course fits calls socket outcome := by
  have front : Follows [] socket changed := .frame sd monitor origin
  exact ⟨fun agrees => course.agrees (front.agrees agrees),
    fun right sound free => course.sound right (front.sound sound) fun new => sd.trans (free new),
    fun live => (course.origin live).imp_left origin, course.clean⟩

/-- More calls in front. -/
theorem Kept.lead (kept : Kept more middle outcome) (front : Follows calls socket middle) :
    Kept (calls ++ more) socket outcome :=
  ⟨front.trans kept.follows, kept.clean⟩

theorem Kept.after (kept : Kept calls socket outcome) (acts : List Act) :
    Kept calls socket (outcome.after acts) :=
  ⟨kept.follows, kept.clean⟩

theorem Kept.before (kept : Kept calls changed outcome)
    (sd : changed.sd = socket.sd) (monitor : changed.monitor = socket.monitor)
    (origin : isLive changed.state = true → isLive socket.state = true) :
    Kept calls socket outcome :=
  kept.lead (.frame sd monitor origin)

theorem Kept.of_dead (dead : isLive outcome.socket.state = false)
    (follows : Follows calls socket outcome.socket) : Kept calls socket outcome :=
  ⟨follows, fun live => absurd live (by simp [dead])⟩

theorem callback_clean (socket : Socket) (event : SocketEvent) {rest : List Task}
    (clean : rest.any Task.tearsDown = false) :
    (socket.callback event rest).tasks.any Task.tearsDown = false := by
  unfold callback
  split
  · exact clean
  · exact clean

/-- Nothing is called and the tasks are harmless. -/
theorem kept_quiet {tasks : List Task} {acts : List Act} (sd : next.sd = socket.sd)
    (monitor : next.monitor = socket.monitor)
    (origin : isLive next.state = true → isLive socket.state = true)
    (clean : tasks.any Task.tearsDown = false) : Kept [] socket ⟨next, tasks, acts⟩ :=
  ⟨.frame sd monitor origin, fun _ => clean⟩

theorem kept_stay (socket : Socket) : Kept [] socket { socket := socket } :=
  kept_quiet rfl rfl id rfl

/-- A callback of the socket as it stands. -/
theorem kept_callback (socket : Socket) (event : SocketEvent) {rest : List Task}
    (clean : rest.any Task.tearsDown = false) : Kept [] socket (socket.callback event rest) :=
  ⟨.frame rfl rfl id, fun _ => socket.callback_clean event clean⟩

@[simp] theorem setHost_monitor (socket : Socket) (which : LookupTarget) (host : Host) :
    (socket.setHost which host).monitor = socket.monitor := by
  cases which <;> rfl

/-- The answer is on its way to the socket through one of its addresses. -/
theorem Course.setHost {which : LookupTarget} {host : Host}
    (course : Course fits calls (socket.setHost which host) outcome) :
    Course fits calls socket outcome :=
  course.before (setHost_sd _ _ _) (setHost_monitor _ _ _) (by rw [setHost_state]; exact id)

theorem live_of_transfers (ready : socket.transfers = true) : isLive socket.state = true := by
  unfold transfers at ready
  cases state : socket.state <;> simp [state] at ready <;> rfl

/-- The application asks for the monitor with a descriptor at hand only, and takes a
descriptor that is in use neither from the monitor nor from the socket. -/
def Call.proper (socket : Socket) : Call → Bool
  | .setMonitor _ => socket.sd.isSome
  | .toggleWriteNotifier _ => socket.sd.isSome
  | .disableMonitor => !isLive socket.state
  | .close => !isLive socket.state
  | _ => true

theorem watch_course {triggers : Triggers} (held : fits → socket.sd.isSome = true) :
    Course fits [.setMonitor] socket { socket := socket.setMonitor triggers } where
  agrees agrees := agrees.setMonitor rfl rfl
  sound {base} right sound _ :=
    ⟨sound.agrees.setMonitor rfl rfl,
      sound.tidy.setMonitor (by rw [sound.agrees.sd]; exact held right),
      fun _ => base.setMonitor_monitored⟩
  origin live := .inl live
  clean _ := rfl

theorem unwatch_course (dead : fits → isLive socket.state = false) :
    Course fits [.disableMonitor] socket { socket := socket.disableMonitor } where
  agrees agrees := agrees.disableMonitor rfl rfl
  sound right sound _ := by
    have gone : Follows [.disableMonitor] socket socket.disableMonitor :=
      .unwatch (dead right) rfl rfl
    exact gone.sound sound
  origin live := .inl live
  clean _ := rfl

theorem close_course (dead : fits → isLive socket.state = false) :
    Course fits [.close] socket { socket := socket.close } where
  agrees agrees := agrees.close (close_sd socket) rfl
  sound right sound _ := by
    have closed : isLive socket.close.state = false := by
      rw [close_state]
      exact dead right
    exact (Follows.close closed (close_sd socket) rfl).sound sound
  origin live := .inl (by rwa [close_state] at live)
  clean _ := rfl

end Socket

end SamuraiFormal.Net
