import Mathlib.Order.Bounds.Basic
import SamuraiFormal.Io.Buffer

/-!
# Searching a buffer

`find()` and `rfind()`.  Where the C library has `memmem()` and `memrchr()` the searches are
theirs; elsewhere they are loops of the buffer's own.  Both ways the answer is about the live
bytes alone, wherever the head is: the first place at or after the offset, or the last one.
-/

namespace SamuraiFormal.Io

open Util
open Library.Loops
open List

/-- `npos`. -/
def npos : Nat := sizeMax

/-- `memmem()`, as it is specified. -/
def memmem (haystack needle : Bytes) : Option Nat :=
  (List.range (haystack.length + 1)).find? fun i => needle.isPrefixOf (haystack.drop i)

namespace Buffer

/-- `&buf[head + offset]`, for `count` bytes. -/
def span (buffer : Buffer) (offset count : Nat) : Bytes :=
  (buffer.buf.drop (wordAdd buffer.head offset)).take count

/-- What a search of the C library says, in places of the live bytes. -/
def placeOf (offset : Nat) : Option Nat → Nat
  | none => npos
  | some pos => wordAdd offset pos

/-- `find()` of a character. -/
def findChar (buffer : Buffer) (achar : UInt8) (offset : Nat) : Nat :=
  if buffer.live ≤ offset then npos
  else placeOf offset (Util.find (buffer.span offset (wordSub buffer.live offset)) achar)

/-- `for (x = live; x-- > 0; )`. -/
def rfindLoop (buffer : Buffer) (achar : UInt8) : Nat → Nat
  | 0 => npos
  | x + 1 =>
    if buffer.buf[wordAdd buffer.head x]? = some achar then x else rfindLoop buffer achar x

/-- `rfind()`, without `SAMURAI_HAVE_GNU_MEMSEARCH`. -/
def rfind (buffer : Buffer) (achar : UInt8) : Nat :=
  if buffer.live = 0 then npos else buffer.rfindLoop achar buffer.live

/-- `rfind()`, with it; `memrchr()` is taken as it is specified. -/
def rfindGnu (buffer : Buffer) (achar : UInt8) : Nat :=
  if buffer.live = 0 then npos else placeOf 0 (Util.rfind (buffer.span 0 buffer.live) achar)

/-- One turn of the search for a text: the next place of its first character, and the rest
compared there. -/
def findTurn (buffer : Buffer) (str : Bytes) : Body Nat Nat := fun p =>
  let found := buffer.findChar (str.headD 0) p
  if found = npos then some (.inr npos)
  else if wordSub buffer.live found < str.length then some (.inr npos)
  else if buffer.span found str.length = str then some (.inr found)
  else some (.inl (wordAdd found 1))

/-- `find()` of a text, given without its NUL, up to where the two branches part. -/
def findWith (search : Option Nat) (buffer : Buffer) (str : Bytes) (offset : Nat) : Option Nat :=
  if str.length = 0 then some (if offset ≤ buffer.live then offset else npos)
  else if buffer.live ≤ offset then some npos
  else if wordSub buffer.live offset < str.length then some npos
  else search

/-- `find()` of a text, without `SAMURAI_HAVE_GNU_MEMSEARCH`. -/
def find (buffer : Buffer) (str : Bytes) (offset : Nat) : Option Nat :=
  findWith (loop (buffer.findTurn str) (buffer.live + 1) offset) buffer str offset

/-- `find()` of a text, with it. -/
def findGnu (buffer : Buffer) (str : Bytes) (offset : Nat) : Option Nat :=
  findWith (some (placeOf offset (memmem (buffer.span offset (wordSub buffer.live offset)) str)))
    buffer str offset

end Buffer

/-- The needle occurs in the text at a place. -/
def Occurs (needle text : Bytes) (pos : Nat) : Prop :=
  pos ≤ text.length ∧ needle <+: text.drop pos

/-- The places from an offset on. -/
def From (offset : Nat) (place : Nat → Prop) : Set Nat := {i | offset ≤ i ∧ place i}

/-- The first (or last) of some places, or `npos` where there are none. -/
def Answers (extreme : Set Nat → Nat → Prop) (places : Set Nat) (result : Nat) : Prop :=
  extreme places result ∨ (∀ i, i ∉ places) ∧ result = npos

section Places

variable {needle text : Bytes} {pos offset : Nat}

theorem Occurs.fits (occurs : Occurs needle text pos) : pos + needle.length ≤ text.length := by
  have short := occurs.2.length_le
  rw [length_drop] at short
  have inside := occurs.1
  omega

theorem Occurs.first {c : UInt8} {rest : Bytes} (occurs : Occurs (c :: rest) text pos) :
    text[pos]? = some c := by
  obtain ⟨back, same⟩ := occurs.2
  have here : (text.drop pos)[0]? = some c := by rw [← same]; rfl
  rwa [getElem?_drop] at here

theorem occurs_drop (inside : offset ≤ text.length) :
    Occurs needle (text.drop offset) pos ↔ Occurs needle text (offset + pos) := by
  rw [Occurs, Occurs, drop_drop, length_drop, Nat.le_sub_iff_add_le' inside]

/-- A search in the text from an offset on, in places of the whole text. -/
theorem isLeast_shift {place : Nat → Prop} :
    IsLeast {i | place (offset + i)} pos ↔ IsLeast (From offset place) (offset + pos) := by
  refine and_congr ⟨fun here => ⟨Nat.le_add_right _ _, here⟩, And.right⟩ ⟨?_, ?_⟩
  · rintro below i ⟨after, here⟩
    have least := below (a := i - offset) (by rwa [Set.mem_ofPred, Nat.add_sub_cancel' after])
    omega
  · intro below i here
    exact Nat.le_of_add_le_add_left (below ⟨Nat.le_add_right _ _, here⟩)

theorem memmem_eq_some :
    memmem text needle = some pos ↔ IsLeast {i | Occurs needle text i} pos := by
  simp only [memmem, List.find?_range_eq_some, mem_range, Nat.lt_succ_iff, Bool.not_eq_true',
    Bool.eq_false_iff, ne_eq, List.isPrefixOf_iff_prefix]
  constructor
  · rintro ⟨here, inside, before⟩
    refine ⟨⟨inside, here⟩, fun i there => ?_⟩
    by_contra earlier
    exact before i (by omega) there.2
  · rintro ⟨⟨inside, here⟩, least⟩
    refine ⟨here, inside, fun i earlier there => ?_⟩
    exact absurd (least ⟨by omega, there⟩) (by omega)

end Places

namespace Buffer

section Searches

variable {buffer : Buffer} (valid : buffer.Valid) (str : Bytes) (achar : UInt8) (offset : Nat)
include valid

theorem wordAdd_place {offset pos : Nat} (within : offset + pos ≤ buffer.bytes.length) :
    wordAdd offset pos = offset + pos := by
  have last := bytes_end valid
  exact wordAdd_eq (by omega)

theorem wordSub_live {offset : Nat} (within : offset ≤ buffer.bytes.length) :
    wordSub buffer.live offset = buffer.bytes.length - offset := by
  have last := bytes_end valid
  rw [live_eq valid, wordSub_eq within (by omega)]

theorem span_rest {offset : Nat} (within : offset ≤ buffer.bytes.length) :
    buffer.span offset (wordSub buffer.live offset) = buffer.bytes.drop offset := by
  rw [span, wordSub_live valid within, take_drop_offset valid (by omega),
    take_of_length_le (by rw [length_drop])]

theorem findChar_answers :
    Answers IsLeast (From offset (buffer.bytes[·]? = some achar))
      (buffer.findChar achar offset) := by
  rw [findChar]
  split
  case isTrue past =>
    rw [live_eq valid] at past
    refine .inr ⟨?_, rfl⟩
    rintro i ⟨after, here⟩
    rw [getElem?_eq_none (by omega)] at here
    cases here
  case isFalse inside =>
    rw [live_eq valid] at inside
    rw [span_rest valid (by omega)]
    cases found : Util.find (buffer.bytes.drop offset) achar with
    | none =>
      refine .inr ⟨?_, rfl⟩
      rintro i ⟨after, here⟩
      apply find_eq_none.mp found
      apply mem_of_getElem? (i := i - offset)
      rwa [getElem?_drop, Nat.add_sub_cancel' after]
    | some pos =>
      obtain ⟨short, here, before⟩ := findIdx?_eq_some_iff_getElem.mp found
      have within := length_drop ▸ short
      rw [placeOf, wordAdd_place valid (by omega)]
      refine .inl (isLeast_shift.mp ⟨?_, fun i there => ?_⟩)
      · rw [Set.mem_ofPred, ← getElem?_drop, getElem?_eq_getElem short, beq_iff_eq.mp here]
      · rw [Set.mem_ofPred, ← getElem?_drop] at there
        obtain ⟨_, same⟩ := List.getElem?_eq_some_iff.mp there
        by_contra earlier
        exact before i (by omega) (beq_iff_eq.mpr same)

theorem rfindLoop_answers {x : Nat} (within : x ≤ buffer.bytes.length) :
    Answers IsGreatest {i | i < x ∧ buffer.bytes[i]? = some achar} (buffer.rfindLoop achar x) := by
  induction x with
  | zero => exact .inr ⟨fun i here => Nat.not_lt_zero i here.1, rfl⟩
  | succ x ih =>
    rw [rfindLoop, getElem?_offset valid within]
    split
    case isTrue here => exact .inl ⟨⟨by omega, here⟩, fun i there => Nat.le_of_lt_succ there.1⟩
    case isFalse other =>
      have same i : i < x + 1 ∧ buffer.bytes[i]? = some achar ↔
          i < x ∧ buffer.bytes[i]? = some achar := by
        refine and_congr_left fun here => ?_
        have apart : i ≠ x := fun equal => other (equal ▸ here)
        omega
      simp only [same]
      exact ih (by omega)

theorem rfind_answers :
    Answers IsGreatest {i | buffer.bytes[i]? = some achar} (buffer.rfind achar) := by
  have looped := rfindLoop_answers valid achar (Nat.le_refl _)
  have inside i : i < buffer.bytes.length ∧ buffer.bytes[i]? = some achar ↔
      buffer.bytes[i]? = some achar :=
    and_iff_right_of_imp fun here => (List.getElem?_eq_some_iff.mp here).1
  simp only [inside] at looped
  rw [rfind, live_eq valid]
  split
  case isTrue none => rwa [none] at looped
  case isFalse => exact looped

/-- The invariant of the search: the places before `p` are no places of the text. -/
def Passed (buffer : Buffer) (str : Bytes) (offset p : Nat) : Prop :=
  offset ≤ p ∧ p ≤ buffer.bytes.length ∧
    ∀ i, offset ≤ i → i < p → ¬Occurs str buffer.bytes i

theorem findTurn_spec {c : UInt8} {rest : Bytes} {p : Nat}
    (passed : buffer.Passed (c :: rest) offset p) :
    ∃ step, buffer.findTurn (c :: rest) p = some step ∧
      step.elim
        (fun next => buffer.Passed (c :: rest) offset next ∧
          buffer.bytes.length - next < buffer.bytes.length - p)
        (Answers IsLeast (From offset (Occurs (c :: rest) buffer.bytes))) := by
  obtain ⟨after, -, before⟩ := passed
  have nowhere (none : ∀ i, p ≤ i → ¬Occurs (c :: rest) buffer.bytes i) :
      Answers IsLeast (From offset (Occurs (c :: rest) buffer.bytes)) npos := by
    refine .inr ⟨?_, rfl⟩
    rintro i ⟨late, there⟩
    exact (lt_or_ge i p).elim (before i late · there) (none i · there)
  rw [findTurn, headD_cons]
  rcases findChar_answers valid c p with ⟨⟨least, here⟩, below⟩ | ⟨empty, missing⟩
  case inr =>
    rw [missing]
    exact ⟨_, rfl, nowhere fun i late there => empty i ⟨late, there.first⟩⟩
  generalize buffer.findChar c p = found at least here below
  obtain ⟨short, -⟩ := List.getElem?_eq_some_iff.mp here
  have known : found ≠ npos := by
    have last := bytes_end valid
    rw [npos, sizeMax]
    omega
  -- a place of the text is one of its first character, so none is before the one found
  have apart i (late : offset ≤ i) (early : i < found) : ¬Occurs (c :: rest) buffer.bytes i := by
    intro there
    rcases lt_or_ge i p with sooner | later
    · exact before i late sooner there
    · exact absurd (below ⟨later, there.first⟩) (by omega)
  rw [if_neg known, wordSub_live valid short.le]
  split
  case isTrue cut =>
    refine ⟨_, rfl, nowhere fun i late there => ?_⟩
    have fits := there.fits
    have least := below ⟨late, there.first⟩
    omega
  case isFalse room =>
    have same : buffer.span found (c :: rest).length = c :: rest ↔
        Occurs (c :: rest) buffer.bytes found := by
      rw [span, take_drop_offset valid (by omega), Occurs, and_iff_right short.le,
        List.prefix_iff_eq_take, eq_comm]
    split
    case isTrue equal =>
      refine ⟨_, rfl, .inl ⟨⟨by omega, same.mp equal⟩, fun i there => ?_⟩⟩
      by_contra earlier
      exact apart i there.1 (by omega) there.2
    case isFalse differ =>
      rw [wordAdd_place valid (by omega)]
      refine ⟨_, rfl, ⟨by omega, by omega, fun i late early there => ?_⟩, by omega⟩
      rcases Nat.lt_succ_iff_lt_or_eq.mp early with sooner | rfl
      · exact apart i late sooner there
      · exact differ (same.mpr there)

theorem findLoop_answers (some' : str ≠ []) (inside : offset ≤ buffer.bytes.length) :
    ∃ result, loop (buffer.findTurn str) (buffer.live + 1) offset = some result ∧
      Answers IsLeast (From offset (Occurs str buffer.bytes)) result := by
  obtain ⟨c, rest, rfl⟩ := exists_cons_of_ne_nil some'
  refine loop_total (buffer.bytes.length - ·) (buffer.Passed (c :: rest) offset) _
    (fun p => findTurn_spec valid offset) ⟨Nat.le_refl _, inside, by omega⟩ ?_
  rw [live_eq valid]
  omega

theorem find_nil :
    buffer.find [] offset = some (if offset ≤ buffer.bytes.length then offset else npos) := by
  rw [find, findWith, if_pos length_nil, live_eq valid]

theorem find_answers :
    ∃ result, buffer.find str offset = some result ∧
      Answers IsLeast (From offset (Occurs str buffer.bytes)) result := by
  have nowhere (late : buffer.bytes.length < offset + str.length) :
      Answers IsLeast (From offset (Occurs str buffer.bytes)) npos := by
    refine .inr ⟨?_, rfl⟩
    rintro i ⟨after, there⟩
    have fits := there.fits
    omega
  by_cases empty : str = []
  · subst empty
    refine ⟨_, find_nil valid offset, ?_⟩
    split
    case isTrue inside =>
      exact .inl ⟨⟨Nat.le_refl _, inside, List.nil_prefix⟩, fun i there => there.1⟩
    case isFalse outside => exact nowhere (Nat.lt_of_not_le outside)
  have some' := length_pos_iff.mpr empty
  rw [find, findWith, if_neg (by omega)]
  by_cases past : buffer.live ≤ offset
  · rw [if_pos past]
    rw [live_eq valid] at past
    exact ⟨_, rfl, nowhere (by omega)⟩
  rw [if_neg past]
  rw [live_eq valid] at past
  rw [wordSub_live valid (by omega)]
  split
  case isTrue short => exact ⟨_, rfl, nowhere (by omega)⟩
  case isFalse => exact findLoop_answers valid str offset empty (by omega)

/-- The two branches of the search for a text agree. -/
theorem findGnu_eq : buffer.findGnu str offset = buffer.find str offset := by
  refine ite_congr rfl (fun _ => rfl) fun full => ite_congr rfl (fun _ => rfl) fun before =>
    ite_congr rfl (fun _ => rfl) fun _ => ?_
  have inside : offset ≤ buffer.bytes.length := Nat.le_of_not_le (live_eq valid ▸ before)
  obtain ⟨result, returns, answers⟩ :=
    findLoop_answers valid str offset (mt (congrArg length) full) inside
  rw [returns, span_rest valid inside]
  have places pos : memmem (buffer.bytes.drop offset) str = some pos ↔
      IsLeast (From offset (Occurs str buffer.bytes)) (offset + pos) := by
    rw [memmem_eq_some, ← isLeast_shift]
    simp only [occurs_drop inside]
  rcases answers with least | ⟨empty, rfl⟩
  · obtain ⟨pos, rfl⟩ := Nat.exists_eq_add_of_le least.1.1
    rw [(places pos).mpr least, placeOf, wordAdd_place valid least.1.2.1]
  · cases found : memmem (buffer.bytes.drop offset) str with
    | none => rfl
    | some pos => exact (empty _ ((places pos).mp found).1).elim

/-- The two branches of the search for the last character agree. -/
theorem rfindGnu_eq : buffer.rfindGnu achar = buffer.rfind achar := by
  by_cases empty : buffer.live = 0
  · rw [rfindGnu, rfind, if_pos empty, if_pos empty]
  have whole : buffer.span 0 buffer.live = buffer.bytes := by
    rw [span, live_eq valid, take_drop_offset valid (by omega), drop_zero, take_length]
  rw [rfindGnu, if_neg empty, whole]
  rcases rfind_answers valid achar with greatest | ⟨none, missing⟩
  · generalize buffer.rfind achar = pos at greatest
    obtain ⟨inside, same⟩ := List.getElem?_eq_some_iff.mp greatest.1
    have behind : achar ∉ buffer.bytes.drop (pos + 1) := by
      intro member
      obtain ⟨i, there⟩ := mem_iff_getElem?.mp member
      rw [getElem?_drop] at there
      have last := greatest.2 there
      omega
    have parts : buffer.bytes = buffer.bytes.take pos ++ achar :: buffer.bytes.drop (pos + 1) := by
      rw [← same, ← drop_eq_getElem_cons inside, take_append_drop]
    rw [parts, rfind_append_cons behind, length_take_of_le inside.le, placeOf,
      wordAdd_place valid (by omega), Nat.zero_add]
  · have absent : achar ∉ buffer.bytes := by
      intro member
      obtain ⟨i, here⟩ := mem_iff_getElem?.mp member
      exact none i here
    rw [missing, rfind_eq_none.mpr absent, placeOf]

end Searches

/-- Every search finds the first place at or after its offset, or the last one, in the live
bytes, and the loops do what the functions of the C library do. -/
theorem searches_answer {buffer : Buffer} (valid : buffer.Valid) (str : Bytes) (achar : UInt8)
    (offset : Nat) :
    (∃ result, buffer.find str offset = some result ∧ buffer.findGnu str offset = some result ∧
      Answers IsLeast (From offset (Occurs str buffer.bytes)) result) ∧
    buffer.find [] offset = some (if offset ≤ buffer.bytes.length then offset else npos) ∧
    Answers IsLeast (From offset (buffer.bytes[·]? = some achar)) (buffer.findChar achar offset) ∧
    Answers IsGreatest {i | buffer.bytes[i]? = some achar} (buffer.rfind achar) ∧
    buffer.rfindGnu achar = buffer.rfind achar := by
  obtain ⟨result, returns, answers⟩ := find_answers valid str offset
  refine ⟨⟨result, returns, ?_, answers⟩, find_nil valid offset,
    findChar_answers valid achar offset,
    rfind_answers valid achar, rfindGnu_eq valid achar⟩
  rw [findGnu_eq valid, returns]

/-- A buffer whose head has moved: what is in front of it is not searched. -/
theorem searches_answer_moved :
    let buffer : Buffer := { buf := ascii "abab", head := 1, len := 4, initialCapasity := 4 }
    buffer.Valid ∧ ∃ result, buffer.find (ascii "ab") 0 = some result ∧
      Answers IsLeast (From 0 (Occurs (ascii "ab") buffer.bytes)) result := by
  intro buffer
  have valid : buffer.Valid := ⟨by decide, by decide, by decide, by decide⟩
  obtain ⟨⟨result, returns, -, answers⟩, -⟩ := searches_answer valid (ascii "ab") 97 0
  exact ⟨valid, result, returns, answers⟩

end Buffer

end SamuraiFormal.Io
