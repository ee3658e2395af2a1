import SamuraiFormal.Io.Buffer
import SamuraiFormal.Library.Traces

/-!
# Runs of buffers

A program holds several buffers and calls their functions in any order.  Each call is
compared with what it would do to plain lists of bytes; memory may be refused at any call.
-/

namespace SamuraiFormal.Io

open Util
open Library.Traces
open List

/-- Bytes given by a pointer and a `size_t`. -/
structure Span where
  bytes : Bytes
  word : bytes.length < wordSize
  deriving DecidableEq, Repr

/-- A call that concerns one buffer only. -/
inductive Work where
  | append (data : Span)
  | appendChar (c : UInt8)
  | remove (count : UInt64)
  | reserve (n : UInt64)
  | clear
  | pop (len : UInt64)
  | popFrom (offset len : UInt64)
  | copyRange (offset stop : UInt64)
  | byteAt (offset : UInt64)
  deriving DecidableEq, Repr

/-- The calls; buffers are named by the order of their construction. -/
inductive Op where
  | construct (bufsize : UInt64)
  | copy (source : Nat)
  | move (source : Nat)
  | assign (target source : Nat)
  | moveAssign (target source : Nat)
  | appendBuffer (target source : Nat) (len : UInt64)
  | appendWhole (target source : Nat)
  | on (target : Nat) (work : Work)
  deriving DecidableEq, Repr

inductive Outcome where
  | done
  | thrown
  | answered (ok : Bool)
  | bytes (data : Bytes)
  | byte (c : UInt8)
  deriving DecidableEq, Repr

structure Event where
  op : Op
  granted : Bool
  outcome : Outcome
  deriving DecidableEq, Repr

/-- The buffers named exist, and a buffer is appended to another one. -/
def Op.Fits (count : Nat) : Op → Prop
  | .construct _ => True
  | .copy source | .move source => source < count
  | .assign target source | .moveAssign target source => target < count ∧ source < count
  | .appendBuffer target source _ | .appendWhole target source =>
    target < count ∧ source < count ∧ target ≠ source
  | .on target _ => target < count

instance (count : Nat) : (op : Op) → Decidable (op.Fits count)
  | .construct _ => inferInstanceAs (Decidable True)
  | .copy source | .move source => inferInstanceAs (Decidable (source < count))
  | .assign target source | .moveAssign target source =>
    inferInstanceAs (Decidable (target < count ∧ source < count))
  | .appendBuffer target source _ | .appendWhole target source =>
    inferInstanceAs (Decidable (target < count ∧ source < count ∧ target ≠ source))
  | .on target _ => inferInstanceAs (Decidable (target < count))

def Work.run (granted : Bool) (buffer : Buffer) : Work → Option (Outcome × Buffer)
  | .append data =>
    (buffer.append data.bytes granted).map fun (ok, after) => (.answered ok, after)
  | .appendChar c => (buffer.appendChar c granted).map fun (ok, after) => (.answered ok, after)
  | .remove count => some (.done, buffer.remove count.toNat)
  | .reserve n => (buffer.reserve n.toNat granted).map fun after => (.done, after)
  | .clear =>
    -- the vector may have to allocate, after a move for instance
    if buffer.buf.length < buffer.initialCapasity ∧ granted = false then some (.thrown, buffer)
    else some (.done, buffer.clear)
  | .pop len => some (.bytes (buffer.pop len.toNat), buffer)
  | .popFrom offset len => some (.bytes (buffer.popFrom offset.toNat len.toNat), buffer)
  | .copyRange offset stop => some (.bytes (buffer.copyRange offset.toNat stop.toNat), buffer)
  | .byteAt offset => some (.byte (buffer.byteAt offset.toNat), buffer)

/-- One call.  A vector that cannot be built throws, and what holds the buffers is as before. -/
def Op.run (granted : Bool) (system : List Buffer) : Op → Option (List Buffer × Outcome)
  | .construct bufsize =>
    if maxSize < bufsize.toNat ∨ granted = false then some (system, .thrown)
    else some (system ++ [Buffer.construct bufsize.toNat], .done)
  | .copy source =>
    system[source]?.map fun (buffer : Buffer) =>
      if granted then (system ++ [buffer], .done) else (system, .thrown)
  | .move source =>
    system[source]?.map fun (buffer : Buffer) =>
      (system.set source buffer.movedFrom ++ [buffer], .done)
  | .assign target source =>
    system[source]?.map fun (buffer : Buffer) =>
      if target = source then (system, .done)
      else if granted then (system.set target buffer, .done)
      else (system, .thrown)
  | .moveAssign target source =>
    system[source]?.map fun (buffer : Buffer) =>
      if target = source then (system, .done)
      else ((system.set target buffer).set source buffer.movedFrom, .done)
  | .appendBuffer target source len =>
    system[target]?.bind fun (buffer : Buffer) =>
      system[source]?.bind fun (other : Buffer) =>
        (buffer.appendBuffer other len.toNat granted).map fun (ok, after) =>
          (system.set target after, .answered ok)
  | .appendWhole target source =>
    system[target]?.bind fun (buffer : Buffer) =>
      system[source]?.bind fun (other : Buffer) =>
        (buffer.appendWhole other granted).map fun (ok, after) =>
          (system.set target after, .answered ok)
  | .on target work =>
    system[target]?.bind fun (buffer : Buffer) =>
      (work.run granted buffer).map fun (outcome, after) => (system.set target after, outcome)

/-- A call together with the answer of the allocator. -/
structure Call where
  op : Op
  granted : Bool
  deriving DecidableEq, Repr

def callStep (system : List Buffer) (call : Call) : Option (List Buffer × List Event) :=
  (call.op.run call.granted system).map fun (next, outcome) =>
    (next, [⟨call.op, call.granted, outcome⟩])

/-- The programs that name existing buffers. -/
def Proper (system : List Buffer) (call : Call) : Prop := call.op.Fits system.length

instance (system : List Buffer) (call : Call) : Decidable (Proper system call) :=
  inferInstanceAs (Decidable (call.op.Fits system.length))

/-- What a call may answer for a plain list of bytes, and the list it leaves. -/
inductive Work.Plain (granted : Bool) (list : Bytes) : Work → Outcome → Bytes → Prop where
  | appended (data : Span) : Plain granted list (.append data) (.answered true) (list ++ data.bytes)
  | dropped (data : Span) : Plain granted list (.append data) (.answered false) list
  | appendedChar (c : UInt8) : Plain granted list (.appendChar c) (.answered true) (list ++ [c])
  | droppedChar (c : UInt8) : Plain granted list (.appendChar c) (.answered false) list
  | removed (count : UInt64) :
      Plain granted list (.remove count) .done (list.drop (min count.toNat list.length))
  | reserved (n : UInt64) : Plain granted list (.reserve n) .done list
  | cleared : Plain granted list .clear .done []
  | uncleared (refused : granted = false) : Plain granted list .clear .thrown list
  | popped (len : UInt64) : Plain granted list (.pop len) (.bytes (list.take len.toNat)) list
  | poppedFrom (offset len : UInt64) :
      Plain granted list (.popFrom offset len)
        (.bytes ((list.drop offset.toNat).take len.toNat)) list
  | copied (offset stop : UInt64) (inside : offset.toNat ≤ stop.toNat ∧ stop.toNat ≤ list.length) :
      Plain granted list (.copyRange offset stop)
        (.bytes ((list.drop offset.toNat).take (stop.toNat - offset.toNat))) list
  | outside (offset stop : UInt64)
      (outside : ¬(offset.toNat ≤ stop.toNat ∧ stop.toNat ≤ list.length)) :
      Plain granted list (.copyRange offset stop) (.bytes []) list
  | read (offset : UInt64) :
      Plain granted list (.byteAt offset) (.byte (list[offset.toNat]?.getD 0)) list

/-- What a call may answer where every buffer is a plain list. -/
inductive Plain (lists : List Bytes) : Event → List Bytes → Prop where
  | constructed (bufsize : UInt64) (granted : Bool) :
      Plain lists ⟨.construct bufsize, granted, .done⟩ (lists ++ [[]])
  | unconstructed (bufsize : UInt64) (granted : Bool)
      (refused : maxSize < bufsize.toNat ∨ granted = false) :
      Plain lists ⟨.construct bufsize, granted, .thrown⟩ lists
  | copied {source : Nat} {list : Bytes} (granted : Bool) (there : lists[source]? = some list) :
      Plain lists ⟨.copy source, granted, .done⟩ (lists ++ [list])
  | uncopied (source : Nat) : Plain lists ⟨.copy source, false, .thrown⟩ lists
  | moved {source : Nat} {list : Bytes} (granted : Bool) (there : lists[source]? = some list) :
      Plain lists ⟨.move source, granted, .done⟩ (lists.set source [] ++ [list])
  | assigned {target source : Nat} {list : Bytes} (granted : Bool)
      (there : lists[source]? = some list) :
      Plain lists ⟨.assign target source, granted, .done⟩ (lists.set target list)
  | unassigned (target source : Nat) : Plain lists ⟨.assign target source, false, .thrown⟩ lists
  | moveAssigned {target source : Nat} {list : Bytes} (granted : Bool)
      (there : lists[source]? = some list) (distinct : target ≠ source) :
      Plain lists ⟨.moveAssign target source, granted, .done⟩
        ((lists.set target list).set source [])
  | moveAssignedSelf (target : Nat) (granted : Bool) :
      Plain lists ⟨.moveAssign target target, granted, .done⟩ lists
  | appended {target source : Nat} {list other : Bytes} (len : UInt64) (granted ok : Bool)
      (there : lists[target]? = some list) (given : lists[source]? = some other) :
      Plain lists ⟨.appendBuffer target source len, granted, .answered ok⟩
        (lists.set target (if ok then list ++ other.take len.toNat else list))
  | appendedWhole {target source : Nat} {list other : Bytes} (granted ok : Bool)
      (there : lists[target]? = some list) (given : lists[source]? = some other) :
      Plain lists ⟨.appendWhole target source, granted, .answered ok⟩
        (lists.set target (if ok then list ++ other else list))
  | worked {target : Nat} {list after : Bytes} {work : Work} {granted : Bool} {outcome : Outcome}
      (there : lists[target]? = some list) (plain : work.Plain granted list outcome after) :
      Plain lists ⟨.on target work, granted, outcome⟩ (lists.set target after)

/-- The runs of plain lists that start without any. -/
inductive PlainRun : List Event → List Bytes → Prop where
  | start : PlainRun [] []
  | step {trace : List Event} {lists next : List Bytes} {event : Event}
      (before : PlainRun trace lists) (plain : Plain lists event next) :
      PlainRun (trace ++ [event]) next

variable {system : List Buffer} {granted : Bool}

theorem Work.run_plain {buffer : Buffer} (valid : buffer.Valid) (granted : Bool) (work : Work) :
    ∃ outcome after, work.run granted buffer = some (outcome, after) ∧ after.Valid ∧
      work.Plain granted buffer.bytes outcome after.bytes := by
  cases work with
  | append data =>
    obtain ⟨ok, after, returns, kept, list⟩ := Buffer.append_appends valid data.word granted
    refine ⟨.answered ok, after, by rw [run, returns]; rfl, kept, ?_⟩
    rw [list]
    cases ok with
    | false => exact .dropped data
    | true => exact .appended data
  | appendChar c =>
    obtain ⟨ok, after, returns, kept, list⟩ := Buffer.appendChar_appends valid c granted
    refine ⟨.answered ok, after, by rw [run, returns]; rfl, kept, ?_⟩
    rw [list]
    cases ok with
    | false => exact .droppedChar c
    | true => exact .appendedChar c
  | remove count =>
    obtain ⟨kept, list⟩ := Buffer.remove_spec valid count.toNat
    refine ⟨.done, _, rfl, kept, ?_⟩
    have clamped : buffer.bytes.drop count.toNat =
        buffer.bytes.drop (min count.toNat buffer.bytes.length) := by
      rw [drop_eq_drop_min]
    rw [list, clamped]
    exact .removed count
  | reserve n =>
    obtain ⟨after, returns, same⟩ := Buffer.reserve_same valid n.toNat_lt granted
    refine ⟨.done, after, by rw [run, returns]; rfl, same.valid, ?_⟩
    rw [same.bytes]
    exact .reserved n
  | clear =>
    rw [run]
    split
    case isTrue refused => exact ⟨.thrown, buffer, rfl, valid, .uncleared refused.2⟩
    case isFalse =>
      refine ⟨.done, _, rfl, Buffer.clear_valid valid, ?_⟩
      exact .cleared
  | pop len =>
    refine ⟨_, buffer, rfl, valid, ?_⟩
    rw [Buffer.pop_eq valid]
    exact .popped len
  | popFrom offset len =>
    refine ⟨_, buffer, rfl, valid, ?_⟩
    rw [Buffer.popFrom_eq valid]
    exact .poppedFrom offset len
  | copyRange offset stop =>
    refine ⟨_, buffer, rfl, valid, ?_⟩
    rw [Buffer.copyRange_eq valid]
    split
    case isTrue inside => exact .copied offset stop inside
    case isFalse outside => exact .outside offset stop outside
  | byteAt offset =>
    refine ⟨_, buffer, rfl, valid, ?_⟩
    rw [Buffer.byteAt_eq valid]
    exact .read offset

def AllValid (system : List Buffer) : Prop := ∀ buffer ∈ system, buffer.Valid

theorem AllValid.set (all : AllValid system) {buffer : Buffer} (valid : buffer.Valid)
    (target : Nat) : AllValid (system.set target buffer) := by
  intro member among
  rcases mem_or_eq_of_mem_set among with there | rfl
  · exact all member there
  · exact valid

theorem AllValid.concat (all : AllValid system) {buffer : Buffer} (valid : buffer.Valid) :
    AllValid (system ++ [buffer]) := by
  intro member among
  rcases mem_append.mp among with there | last
  · exact all member there
  · rw [mem_singleton.mp last]
    exact valid

theorem AllValid.get (all : AllValid system) {index : Nat} (within : index < system.length) :
    ∃ buffer : Buffer, system[index]? = some buffer ∧ buffer.Valid ∧
      (system.map Buffer.bytes)[index]? = some buffer.bytes := by
  have there : system[index]? = some system[index] := getElem?_eq_getElem within
  refine ⟨system[index], there, all _ (getElem_mem within), ?_⟩
  rw [getElem?_map, there]
  rfl

theorem set_same {lists : List Bytes} {index : Nat} {list : Bytes}
    (there : lists[index]? = some list) : lists.set index list = lists := by
  obtain ⟨within, rfl⟩ := List.getElem?_eq_some_iff.mp there
  exact set_getElem_self within

/-- The operation is carried out as the plain lists allow. -/
def Carried (system : List Buffer) (op : Op) (granted : Bool) : Prop :=
  ∃ next outcome, op.run granted system = some (next, outcome) ∧ AllValid next ∧
    Plain (system.map Buffer.bytes) ⟨op, granted, outcome⟩ (next.map Buffer.bytes)

section Carried

variable (all : AllValid system) (granted : Bool) {target source : Nat}
include all

theorem carried_construct (bufsize : UInt64) : Carried system (.construct bufsize) granted := by
  rw [Carried, Op.run]
  split
  case isTrue refused => exact ⟨system, .thrown, rfl, all, .unconstructed bufsize granted refused⟩
  case isFalse fits =>
    have small : bufsize.toNat ≤ maxSize := Nat.le_of_not_lt fun large => fits (.inl large)
    refine ⟨_, .done, rfl, all.concat (Buffer.construct_valid small), ?_⟩
    rw [map_append, map_singleton]
    exact .constructed bufsize granted

theorem carried_copy (within : source < system.length) : Carried system (.copy source) granted := by
  obtain ⟨buffer, there, valid, list⟩ := all.get within
  rw [Carried, Op.run, there]
  cases granted with
  | false => exact ⟨system, .thrown, rfl, all, .uncopied source⟩
  | true =>
    refine ⟨_, .done, rfl, all.concat valid, ?_⟩
    rw [map_append]
    exact .copied true list

theorem carried_move (within : source < system.length) : Carried system (.move source) granted := by
  obtain ⟨buffer, there, valid, list⟩ := all.get within
  rw [Carried, Op.run, there]
  refine ⟨_, .done, rfl, (all.set (Buffer.movedFrom_valid valid) source).concat valid, ?_⟩
  rw [map_append, map_set]
  exact .moved granted list

theorem carried_assign (within : source < system.length) :
    Carried system (.assign target source) granted := by
  obtain ⟨buffer, there, valid, list⟩ := all.get within
  rw [Carried, Op.run, there]
  split
  case isTrue self =>
    subst self
    refine ⟨system, .done, rfl, all, ?_⟩
    have plain := @Plain.assigned _ target _ _ granted list
    rwa [set_same list] at plain
  case isFalse =>
    cases granted with
    | false => exact ⟨system, .thrown, rfl, all, .unassigned target source⟩
    | true =>
      refine ⟨_, .done, rfl, all.set valid target, ?_⟩
      rw [map_set]
      exact .assigned true list

theorem carried_moveAssign (within : source < system.length) :
    Carried system (.moveAssign target source) granted := by
  obtain ⟨buffer, there, valid, list⟩ := all.get within
  rw [Carried, Op.run, there]
  split
  case isTrue self =>
    subst self
    exact ⟨system, .done, rfl, all, .moveAssignedSelf target granted⟩
  case isFalse distinct =>
    refine ⟨_, .done, rfl, (all.set valid target).set (Buffer.movedFrom_valid valid) source, ?_⟩
    rw [map_set, map_set]
    exact .moveAssigned granted list distinct

theorem carried_appendBuffer (within : target < system.length) (given : source < system.length)
    (len : UInt64) : Carried system (.appendBuffer target source len) granted := by
  obtain ⟨buffer, there, valid, list⟩ := all.get within
  obtain ⟨other, given, otherValid, otherList⟩ := all.get given
  obtain ⟨ok, after, returns, kept, appended⟩ :=
    Buffer.appendBuffer_appends valid otherValid len.toNat granted
  refine ⟨system.set target after, .answered ok, ?_, all.set kept target, ?_⟩
  · rw [Op.run, there, given, Option.bind_some, Option.bind_some, returns]
    rfl
  · rw [map_set, appended]
    exact .appended len granted ok list otherList

theorem carried_appendWhole (within : target < system.length) (given : source < system.length) :
    Carried system (.appendWhole target source) granted := by
  obtain ⟨buffer, there, valid, list⟩ := all.get within
  obtain ⟨other, given, otherValid, otherList⟩ := all.get given
  obtain ⟨ok, after, returns, kept, appended⟩ :=
    Buffer.appendBuffer_appends valid otherValid other.bytes.length granted
  rw [← Buffer.appendWhole_eq otherValid] at returns
  refine ⟨system.set target after, .answered ok, ?_, all.set kept target, ?_⟩
  · rw [Op.run, there, given, Option.bind_some, Option.bind_some, returns]
    rfl
  · rw [map_set, appended, take_length]
    exact .appendedWhole granted ok list otherList

theorem carried_on (within : target < system.length) (work : Work) :
    Carried system (.on target work) granted := by
  obtain ⟨buffer, there, valid, list⟩ := all.get within
  obtain ⟨outcome, after, returns, kept, plain⟩ := work.run_plain valid granted
  refine ⟨system.set target after, outcome, ?_, all.set kept target, ?_⟩
  · rw [Op.run, there, Option.bind_some, returns]
    rfl
  · rw [map_set]
    exact .worked list plain

end Carried

/-- Every call on existing buffers is carried out as the plain lists allow. -/
theorem callStep_plain (all : AllValid system) {call : Call} (proper : Proper system call) :
    ∃ next outcome, callStep system call = some (next, [⟨call.op, call.granted, outcome⟩]) ∧
      AllValid next ∧
      Plain (system.map Buffer.bytes) ⟨call.op, call.granted, outcome⟩ (next.map Buffer.bytes) := by
  obtain ⟨op, granted⟩ := call
  have carried : Carried system op granted := by
    cases op with
    | construct bufsize => exact carried_construct all granted bufsize
    | copy source => exact carried_copy all granted proper
    | move source => exact carried_move all granted proper
    | assign target source => exact carried_assign all granted proper.2
    | moveAssign target source => exact carried_moveAssign all granted proper.2
    | appendBuffer target source len =>
      exact carried_appendBuffer all granted proper.1 proper.2.1 len
    | appendWhole target source => exact carried_appendWhole all granted proper.1 proper.2.1
    | on target work => exact carried_on all granted proper work
  obtain ⟨next, outcome, runs, rest⟩ := carried
  exact ⟨next, outcome, by rw [callStep, runs]; rfl, rest⟩

/-- Along every run the buffers behave as plain lists of bytes, and no call is stuck. -/
theorem buffers_refine_lists {system : List Buffer} {trace : List Event}
    (run : Run callStep Proper [] system trace) :
    (∀ buffer ∈ system, buffer.head ≤ buffer.len ∧ buffer.len ≤ buffer.buf.length) ∧
      PlainRun trace (system.map Buffer.bytes) ∧
      ∀ call, Proper system call → (callStep system call).isSome := by
  have kept : AllValid system ∧ PlainRun trace (system.map Buffer.bytes) := by
    apply run.invariant (fun system trace =>
      AllValid system ∧ PlainRun trace (system.map Buffer.bytes))
    · exact ⟨nofun, .start⟩
    · rintro state next trace acts call ⟨all, plain⟩ proper moves
      obtain ⟨next', outcome, carried, all', plain'⟩ := callStep_plain all proper
      rw [moves] at carried
      cases carried
      exact ⟨all', .step plain plain'⟩
  refine ⟨fun buffer among => ⟨(kept.1 buffer among).head, (kept.1 buffer among).len⟩, kept.2, ?_⟩
  intro call proper
  obtain ⟨next, outcome, carried, -⟩ := callStep_plain kept.1 proper
  rw [carried]
  rfl

/-- A buffer grows, is consumed in part, and is moved away; what is left cannot grow. -/
def sampleCalls : List Call :=
  [⟨.construct 2, true⟩, ⟨.on 0 (.append ⟨[97, 98, 99], by decide⟩), true⟩,
    ⟨.on 0 (.remove 1), true⟩, ⟨.move 0, true⟩, ⟨.on 0 (.appendChar 100), false⟩,
      ⟨.on 1 (.pop 9), true⟩]

def sampleOutcomes : List Outcome :=
  [.done, .answered true, .done, .done, .answered false, .bytes [98, 99]]

theorem sampleCalls_run :
    Run callStep Proper [] [⟨[], 0, 0, 2⟩, ⟨[97, 98, 99, 0], 1, 3, 2⟩]
      (List.zipWith (fun call outcome => ⟨call.op, call.granted, outcome⟩)
        sampleCalls sampleOutcomes) :=
  run_of_play sampleCalls (by decide)

theorem sampleCalls_plain :
    PlainRun (List.zipWith (fun call outcome => ⟨call.op, call.granted, outcome⟩)
      sampleCalls sampleOutcomes) [[], [98, 99]] :=
  (buffers_refine_lists sampleCalls_run).2.1

end SamuraiFormal.Io
