import SamuraiFormal.Xml.Documents

/-!
# Documents that are written

The other direction of the parser: markup that is written with `xml_escape()` around every
text and every value is read back as what was written.  The statements about the parser's
functions are about a position from which the text goes on in a given way, with whatever
follows as a parameter, so that they can be put together.
-/

namespace SamuraiFormal.Xml

open Util
open Library.Loops
open List

/-- The characters that `xml_escape()` replaces. -/
def isSpecial (c : UInt8) : Bool :=
  c == ampersand || c == lessThan || c == greaterThan || c == quotationMark || c == apostrophe

variable {c stop : UInt8} {value name nsPrefix : Bytes}

theorem xmlEscapeChar_of_plain (plain : isSpecial c = false) : xmlEscapeChar c = [c] := by
  simp only [isSpecial, Bool.or_eq_false_iff, beq_eq_false_iff_ne] at plain
  obtain ⟨⟨⟨⟨amp, lt⟩, gt⟩, quot⟩, apos⟩ := plain
  rw [xmlEscapeChar, if_neg amp, if_neg lt, if_neg gt, if_neg quot, if_neg apos]

theorem xmlEscape_of_plain {text : Bytes} (plain : ∀ c ∈ text, isSpecial c = false) :
    xmlEscape text = text := by
  induction text with
  | nil => rfl
  | cons c text ih =>
    rw [xmlEscape, flatMap_cons, xmlEscapeChar_of_plain (plain c mem_cons_self)]
    rw [← xmlEscape, ih fun d among => plain d (mem_cons_of_mem c among)]
    rfl

/-- What is written for a special character is a reference to a predefined entity. -/
theorem xmlEscapeChar_of_special (special : isSpecial c = true) :
    ∃ b body, xmlEscapeChar c = ampersand :: b :: (body ++ [semicolon]) ∧
      semicolon ∉ ampersand :: b :: body ∧ (b :: body).length < 32 ∧
      b ≠ numberSign ∧ entity (b :: body) = some [c] := by
  simp only [isSpecial, Bool.or_eq_true, beq_iff_eq] at special
  rcases special with (((rfl | rfl) | rfl) | rfl) | rfl
  · exact ⟨97, ascii "mp", by decide, by decide, by decide, by decide, by decide⟩
  · exact ⟨108, ascii "t", by decide, by decide, by decide, by decide, by decide⟩
  · exact ⟨103, ascii "t", by decide, by decide, by decide, by decide, by decide⟩
  · exact ⟨113, ascii "uot", by decide, by decide, by decide, by decide, by decide⟩
  · exact ⟨97, ascii "pos", by decide, by decide, by decide, by decide, by decide⟩

namespace ValueItem

/-- The item may stand where these characters stop the text. -/
def Passes (stops : UInt8 → Bool) : ValueItem → Prop
  | .byte c => stops c = false
  | .reference body => semicolon ∉ body ∧ body.length < 32 ∧ (referenceValue body).isSome = true

end ValueItem

def writeValue (items : List ValueItem) : Bytes := items.flatMap ValueItem.write

def expandValue (items : List ValueItem) : Bytes := items.flatMap ValueItem.expand

/-- There is room for each item behind those in front of it. -/
def hasRoom (limits : Limits) (reported : Nat) : Nat → List ValueItem → Bool
  | _, [] => true
  | size, item :: items =>
    item.fits limits reported size && hasRoom limits reported (size + item.expand.length) items

/-! ## Reading piece by piece -/

/-- The bytes in front of the next reference. -/
theorem exists_run (items : List ValueItem) :
    ∃ (run : Bytes) (later : List ValueItem), items = run.map ValueItem.byte ++ later ∧
      (later = [] ∨ ∃ body others, later = .reference body :: others) := by
  induction items with
  | nil => exact ⟨[], [], rfl, .inl rfl⟩
  | cons item items ih =>
    cases item with
    | byte c =>
      obtain ⟨run, later, rfl, ends⟩ := ih
      exact ⟨c :: run, later, rfl, ends⟩
    | reference body => exact ⟨[], _, rfl, .inr ⟨body, items, rfl⟩⟩

theorem writeValue_append (front back : List ValueItem) :
    writeValue (front ++ back) = writeValue front ++ writeValue back := flatMap_append

theorem expandValue_append (front back : List ValueItem) :
    expandValue (front ++ back) = expandValue front ++ expandValue back := flatMap_append

theorem writeValue_bytes (run : Bytes) : writeValue (run.map ValueItem.byte) = run := by
  induction run with
  | nil => rfl
  | cons c run ih => exact congrArg (c :: ·) ih

theorem expandValue_bytes (run : Bytes) : expandValue (run.map ValueItem.byte) = run := by
  induction run with
  | nil => rfl
  | cons c run ih => exact congrArg (c :: ·) ih

theorem hasRoom_append (limits : Limits) (reported size : Nat) (front back : List ValueItem) :
    hasRoom limits reported size (front ++ back) = (hasRoom limits reported size front &&
      hasRoom limits reported (size + (expandValue front).length) back) := by
  induction front generalizing size with
  | nil => rfl
  | cons item front ih =>
    have length : (expandValue (item :: front)).length =
        item.expand.length + (expandValue front).length := by
      rw [expandValue, flatMap_cons, length_append]
      rfl
    rw [cons_append, hasRoom, hasRoom, ih, length, Nat.add_assoc, Bool.and_assoc]

/-- Items that are not numeric have room if all of them together do. -/
theorem hasRoom_iff (limits : Limits) (reported size : Nat) {items : List ValueItem}
    (named : ∀ item ∈ items, item.isNumeric = false) :
    hasRoom limits reported size items = true ↔
      items = [] ∨ reported + size + (expandValue items).length ≤ limits.maxTextLength := by
  induction items generalizing size with
  | nil => simp [hasRoom]
  | cons item items ih =>
    have length : (expandValue (item :: items)).length =
        item.expand.length + (expandValue items).length := by
      rw [expandValue, flatMap_cons, length_append]
      rfl
    have bare : items = [] → (expandValue items).length = 0 := by
      rintro rfl
      rfl
    rw [hasRoom, ValueItem.fits, named item mem_cons_self, if_neg Bool.false_ne_true,
      Bool.and_eq_true, decide_eq_true_iff,
      ih _ fun other among => named other (mem_cons_of_mem _ among),
      length]
    constructor
    · rintro ⟨first, none | rest⟩
      · have := bare none
        exact .inr (by omega)
      · exact .inr (by omega)
    · rintro (none | fits)
      · cases none
      · exact ⟨by omega, .inr (by omega)⟩

section Pieces

variable {text rest out : Bytes} {limits : Limits} {reported pos : Nat} {stops : UInt8 → Bool}

/-- A reference is expanded, up to its semicolon. -/
theorem appendPiece_reference (stops : UInt8 → Bool) {body : Bytes} (missing : semicolon ∉ body)
    (short : body.length < 32) (seen : At text pos (ampersand :: (body ++ semicolon :: rest))) :
    appendPiece text limits reported stops pos out =
      match expand limits reported out body with
      | .error error => .error (error, pos)
      | .ok whole => .ok (whole, pos + (body.length + 2)) := by
  have whole : At text pos ((ampersand :: body) ++ semicolon :: rest) := seen
  have absent : semicolon ∉ ampersand :: body := by
    rw [mem_cons, not_or]
    exact ⟨by decide, missing⟩
  have found : findFrom text semicolon pos = some (pos + (body.length + 1)) := by
    rw [findFrom, whole, find_append_cons absent, Nat.add_comm]
    rfl
  have inside : (text.drop (pos + 1)).take (pos + (body.length + 1) - pos - 1) = body := by
    have size : pos + (body.length + 1) - pos - 1 = body.length := by omega
    rw [seen.next, size, take_left]
  have bounded : ¬ 32 < pos + (body.length + 1) - pos := by omega
  rw [appendPiece, if_pos seen.here, appendReference, found]
  dsimp only
  rw [if_neg bounded, inside]
  cases expand limits reported out body with
  | error error => rfl
  | ok whole => rfl

/-- What stops a piece is a special character, and an ampersand does. -/
structure StopsAt (stops : UInt8 → Bool) (stop : UInt8) : Prop where
  special : ∀ c, stops c = true → isSpecial c = true
  reference : stops ampersand = true
  stopped : stops stop = true

theorem passes_of_plain (special : ∀ c, stops c = true → isSpecial c = true)
    (plain : isSpecial c = false) : stops c = false := by
  refine Bool.eq_false_iff.mpr fun stopped => ?_
  rw [special c stopped] at plain
  cases plain

/-- A run of bytes that do not stop it is one piece. -/
theorem appendPiece_run {run : Bytes} (passes : ∀ d ∈ c :: run, d ≠ ampersand ∧ stops d = false)
    (stopped : stops stop = true) (seen : At text pos ((c :: run) ++ stop :: rest)) :
    appendPiece text limits reported stops pos out =
      match appendText limits reported out (c :: run) with
      | .error error => .error (error, pos + (c :: run).length)
      | .ok whole => .ok (whole, pos + (c :: run).length) := by
  have start : text[pos]? ≠ some ampersand := by
    rw [At.here seen, ne_eq, Option.some.injEq]
    exact (passes c mem_cons_self).1
  have chunk : runOf text (fun c => !stops c) pos = c :: run := by
    apply At.runOf_eq seen
    · intro d among
      rw [(passes d among).2]
      rfl
    · intro d last
      rw [head?_cons, Option.some.injEq] at last
      rw [← last, stopped]
      rfl
  cases appended : appendText limits reported out (c :: run) with
  | error failure | ok whole => simp only [appendPiece, if_neg start, chunk, appended]

/-- A loop that takes text piece by piece. -/
def TakesPieces (text : Bytes) (limits : Limits) (reported : Nat) (stops : UInt8 → Bool)
    (body : Body (Nat × Bytes) (Scan Bytes)) : Prop :=
  ∀ pos out c, text[pos]? = some c → (c = ampersand ∨ stops c = false) →
    body (pos, out) =
      match appendPiece text limits reported stops pos out with
      | .error failure => some (.inr (.error failure))
      | .ok (out, pos) => some (.inl (pos, out))

/-- How such a loop ends: it reads what the items stand for if there is room, and stops for
want of it otherwise. -/
inductive PiecesEnd (limits : Limits) (reported pos : Nat) (out : Bytes)
    (body : Body (Nat × Bytes) (Scan Bytes)) (items : List ValueItem) : Prop where
  | reads (room : hasRoom limits reported out.length items = true)
      (reaches : Reaches body (pos, out)
        (pos + (writeValue items).length, out ++ expandValue items))
  | refuses (full : hasRoom limits reported out.length items = false) {last : Nat × Bytes}
      {stop : Nat} (reaches : Reaches body (pos, out) last)
      (ends : body last = some (.inr (.error (.sizeExceeded, stop))))

variable {body : Body (Nat × Bytes) (Scan Bytes)} {items : List ValueItem}

/-- What such a loop does with the items of one piece: it takes them if there is room. -/
def PieceTurn (limits : Limits) (reported pos : Nat) (out : Bytes)
    (body : Body (Nat × Bytes) (Scan Bytes)) (items : List ValueItem) : Prop :=
  (hasRoom limits reported out.length items = true ∧ body (pos, out) =
      some (.inl (pos + (writeValue items).length, out ++ expandValue items))) ∨
    (hasRoom limits reported out.length items = false ∧
      ∃ stop, body (pos, out) = some (.inr (.error (.sizeExceeded, stop))))

/-- One piece in front of the others: the loop stops at it for want of room, or goes on. -/
theorem PiecesEnd.piece {front back : List ValueItem}
    (turned : PieceTurn limits reported pos out body front)
    (later : PiecesEnd limits reported (pos + (writeValue front).length)
      (out ++ expandValue front) body back) :
    PiecesEnd limits reported pos out body (front ++ back) := by
  have room := hasRoom_append limits reported out.length front back
  rw [← length_append] at room
  rcases turned with ⟨fits, goes⟩ | ⟨full, stop, ends⟩
  · rw [fits, Bool.true_and] at room
    cases later with
    | reads fits reaches =>
      refine .reads (room.trans fits) (Relation.ReflTransGen.head goes ?_)
      rwa [expandValue_append, writeValue_append, ← append_assoc, length_append,
        ← Nat.add_assoc]
    | refuses full reaches ends =>
      exact .refuses (room.trans full) (Relation.ReflTransGen.head goes reaches) ends
  · refine .refuses ?_ .refl ends
    rw [room, full, Bool.false_and]

/-- The turn for a run of bytes. -/
theorem TakesPieces.run {run : Bytes} (takes : TakesPieces text limits reported stops body)
    (passes : ∀ d ∈ c :: run, d ≠ ampersand ∧ stops d = false) (stopped : stops stop = true)
    (seen : At text pos ((c :: run) ++ stop :: rest)) :
    PieceTurn limits reported pos out body ((c :: run).map .byte) := by
  have room := @hasRoom_iff limits reported out.length ((c :: run).map ValueItem.byte)
    (by simp [ValueItem.isNumeric])
  rw [expandValue_bytes] at room
  rw [PieceTurn, takes pos out c (At.here seen) (.inr (passes c mem_cons_self).2),
    appendPiece_run passes stopped seen, writeValue_bytes, expandValue_bytes, appendText]
  by_cases full : limits.maxTextLength < reported + out.length + (c :: run).length
  · rw [if_pos full]
    refine .inr ⟨?_, _, rfl⟩
    rw [Bool.eq_false_iff, ne_eq, room, not_or]
    exact ⟨by simp, Nat.not_le.mpr full⟩
  · rw [if_neg full]
    exact .inl ⟨room.mpr (.inr (Nat.not_lt.mp full)), rfl⟩

theorem length_writeValue_reference (reference : Bytes) :
    (writeValue [.reference reference]).length = reference.length + 2 := by
  simp [writeValue, ValueItem.write]

/-- The turn for a reference. -/
theorem TakesPieces.reference {reference : Bytes}
    (takes : TakesPieces text limits reported stops body)
    (valid : (ValueItem.reference reference).Passes stops)
    (seen : At text pos (ampersand :: (reference ++ semicolon :: rest))) :
    PieceTurn limits reported pos out body [.reference reference] := by
  obtain ⟨missing, short, known⟩ := valid
  obtain ⟨value, known⟩ := Option.isSome_iff_exists.mp known
  have expanded : expandValue [ValueItem.reference reference] = value := by
    simp [expandValue, ValueItem.expand, known]
  have room : hasRoom limits reported out.length [ValueItem.reference reference] =
      (ValueItem.reference reference).fits limits reported out.length := Bool.and_true _
  rw [PieceTurn, takes pos out ampersand seen.here (.inl rfl),
    appendPiece_reference _ missing short seen, length_writeValue_reference, expanded, room,
    expand_eq known]
  cases (ValueItem.reference reference).fits limits reported out.length with
  | true => exact .inl ⟨rfl, rfl⟩
  | false => exact .inr ⟨rfl, _, rfl⟩

theorem reaches_items (takes : TakesPieces text limits reported stops body)
    (reference : stops ampersand = true) (stopped : stops stop = true)
    (valid : ∀ item ∈ items, item.Passes stops)
    (seen : At text pos (writeValue items ++ stop :: rest)) :
    PiecesEnd limits reported pos out body items := by
  -- by induction on the number of items; a run of bytes is one piece
  induction size : items.length using Nat.strongRecOn generalizing items pos out with
  | ind length ih =>
    obtain ⟨run, later, rfl, ends⟩ := exists_run items
    have validLater : ∀ item ∈ later, item.Passes stops :=
      fun item among => valid item (mem_append_right _ among)
    rw [writeValue_append, writeValue_bytes, append_assoc] at seen
    cases run with
    | cons c run =>
      have passes : ∀ d ∈ c :: run, d ≠ ampersand ∧ stops d = false := by
        intro d among
        have plain := valid (.byte d) (mem_append_left _ (mem_map_of_mem among))
        refine ⟨?_, plain⟩
        rintro rfl
        exact absurd plain (by rw [ValueItem.Passes, reference]; decide)
      obtain ⟨last, behind, next, halts⟩ : ∃ last behind,
          writeValue later ++ stop :: rest = last :: behind ∧ stops last = true := by
        rcases ends with rfl | ⟨body, others, rfl⟩
        · exact ⟨stop, rest, rfl, stopped⟩
        · exact ⟨ampersand, _, rfl, reference⟩
      refine .piece (takes.run passes halts (next ▸ seen)) (ih later.length ?_ validLater ?_ rfl)
      · rw [← size, length_append, length_map, length_cons]
        omega
      · rw [writeValue_bytes]
        exact seen.skip
    | nil =>
      rcases ends with rfl | ⟨reference, others, rfl⟩
      · refine .reads rfl ?_
        rw [append_nil, show expandValue ([].map ValueItem.byte) = [] from rfl, append_nil]
        exact .refl
      have spelled : At text pos
          (ampersand :: (reference ++ semicolon :: (writeValue others ++ stop :: rest))) := by
        rw [At, seen]
        simp [writeValue, ValueItem.write]
      refine @PiecesEnd.piece out limits reported pos body [ValueItem.reference reference] others
        (takes.reference (validLater _ mem_cons_self) spelled) (ih others.length ?_ ?_ ?_ rfl)
      · rw [← size, map_nil, nil_append]
        exact Nat.lt_succ_self _
      · exact fun item among => validLater item (mem_cons_of_mem _ among)
      · rw [length_writeValue_reference]
        have behind := @At.skip text (ampersand :: (reference ++ [semicolon]))
          (writeValue others ++ stop :: rest) pos (by rw [At, spelled]; simp)
        rw [length_cons, length_append] at behind
        exact behind

/-- Escaped text is a list of items, none of them numeric. -/
theorem exists_items (value : Bytes) :
    ∃ items, writeValue items = xmlEscape value ∧ expandValue items = value ∧
      (∀ item ∈ items, item.isNumeric = false) ∧
      ∀ item ∈ items, ∀ stops : UInt8 → Bool, (∀ c, stops c = true → isSpecial c = true) →
        item.Passes stops := by
  induction value with
  | nil => exact ⟨[], rfl, rfl, nofun, nofun⟩
  | cons c value ih =>
    obtain ⟨items, written, expanded, named, passes⟩ := ih
    obtain ⟨item, same, stands, other, passes'⟩ : ∃ item : ValueItem,
        item.write = xmlEscapeChar c ∧ item.expand = [c] ∧ item.isNumeric = false ∧
          ∀ stops : UInt8 → Bool, (∀ c, stops c = true → isSpecial c = true) →
            item.Passes stops := by
      cases special : isSpecial c with
      | false =>
        exact ⟨.byte c, (xmlEscapeChar_of_plain special).symm, rfl, rfl,
          fun stops specials => passes_of_plain specials special⟩
      | true =>
        obtain ⟨b, body, written, missing, short, other, named⟩ :=
          xmlEscapeChar_of_special special
        have known : referenceValue (b :: body) = some [c] := by
          rw [referenceValue, if_neg other, named]
        refine ⟨.reference (b :: body), written.symm, ?_, ?_, fun _ _ => ⟨?_, short, ?_⟩⟩
        · rw [ValueItem.expand, known, Option.getD_some]
        · simpa [ValueItem.isNumeric] using other
        · exact fun among => missing (mem_cons_of_mem _ among)
        · rw [known, Option.isSome_some]
    refine ⟨item :: items, ?_, ?_, forall_mem_cons.mpr ⟨other, named⟩,
      forall_mem_cons.mpr ⟨passes', passes⟩⟩
    · rw [writeValue, flatMap_cons, ← writeValue, same, written]
      rfl
    · rw [expandValue, flatMap_cons, ← expandValue, stands, expanded]
      rfl

/-- Escaped text is read back if there is room for all of it, and refused otherwise. -/
theorem escaped_ends (out : Bytes) (takes : TakesPieces text limits reported stops body)
    (halts : StopsAt stops stop) (value : Bytes)
    (seen : At text pos (xmlEscape value ++ stop :: rest)) :
    ((value = [] ∨ reported + out.length + value.length ≤ limits.maxTextLength) ∧
      Reaches body (pos, out) (pos + (xmlEscape value).length, out ++ value)) ∨
    (limits.maxTextLength < reported + out.length + value.length ∧
      ∃ last place, Reaches body (pos, out) last ∧
        body last = some (.inr (.error (.sizeExceeded, place)))) := by
  obtain ⟨items, written, expanded, named, passes⟩ := exists_items value
  have room := hasRoom_iff limits reported out.length named
  rw [expanded] at room
  rw [← written] at seen ⊢
  cases reaches_items takes halts.reference halts.stopped
    (fun item among => passes item among stops halts.special) seen with
  | reads fits reaches =>
    rw [expanded] at reaches
    refine .inl ⟨(room.mp fits).imp_left ?_, reaches⟩
    rintro rfl
    exact expanded.symm
  | refuses full reaches ends =>
    rw [Bool.eq_false_iff, ne_eq, room, not_or] at full
    exact .inr ⟨Nat.not_le.mp full.2, _, _, reaches, ends⟩

theorem reaches_escaped (out : Bytes) (takes : TakesPieces text limits reported stops body)
    (halts : StopsAt stops stop) (value : Bytes)
    (seen : At text pos (xmlEscape value ++ stop :: rest))
    (fits : reported + out.length + value.length ≤ limits.maxTextLength) :
    Reaches body (pos, out) (pos + (xmlEscape value).length, out ++ value) := by
  rcases escaped_ends out takes halts value seen with ⟨-, reaches⟩ | ⟨long, -⟩
  · exact reaches
  · exact absurd fits (Nat.not_le.mpr long)

end Pieces

section Texts

variable {text rest : Bytes} {limits : Limits} {reported pos : Nat}

theorem stopsValue_stopsAt {quote : UInt8} (quoted : quote = quotationMark ∨ quote = apostrophe) :
    StopsAt (stopsValue quote) quote where
  special c stops := by
    simp only [stopsValue, Bool.or_eq_true, beq_iff_eq] at stops
    rcases stops with (rfl | rfl) | rfl
    · rcases quoted with rfl | rfl <;> rfl
    all_goals rfl
  reference := by simp [stopsValue]
  stopped := by simp [stopsValue]

theorem stopsText_stopsAt : StopsAt stopsText lessThan where
  special c stops := by
    simp only [stopsText, Bool.or_eq_true, beq_iff_eq] at stops
    rcases stops with rfl | rfl <;> rfl
  reference := rfl
  stopped := rfl

theorem valueTurn_takesPieces (text : Bytes) (limits : Limits) (reported : Nat) {quote : UInt8}
    (other : quote ≠ ampersand) :
    TakesPieces text limits reported (stopsValue quote)
      (valueTurn text limits reported quote) := by
  intro pos out c here goes
  have inside : c ≠ quote ∧ c ≠ lessThan := by
    rcases goes with rfl | passes
    · exact ⟨other.symm, by decide⟩
    · simp only [stopsValue, Bool.or_eq_false_iff, beq_eq_false_iff_ne] at passes
      exact ⟨passes.1.1, passes.2⟩
  rw [valueTurn, here]
  exact (if_neg inside.1).trans (if_neg inside.2)

theorem valueTurn_closes {quote : UInt8} (here : text[pos]? = some quote) (value : Bytes) :
    valueTurn text limits reported quote (pos, value) = some (.inr (.ok (value, pos + 1))) := by
  rw [valueTurn, here]
  exact if_pos rfl

theorem textTurn_takesPieces (text : Bytes) (limits : Limits) (reported : Nat) :
    TakesPieces text limits reported stopsText (textTurn text limits reported) := by
  intro pos out c here goes
  have inside : c ≠ lessThan := by
    rintro rfl
    rcases goes with same | passes
    · cases same
    · cases passes
  rw [textTurn, here]
  exact if_neg inside

/-- A quoted value is read back. -/
theorem parseValue_eq {quote : UInt8} (quoted : quote = quotationMark ∨ quote = apostrophe)
    (seen : At text pos (xmlEscape value ++ quote :: rest))
    (fits : reported + value.length ≤ limits.maxTextLength) :
    parseValue text limits reported quote pos =
      some (.ok (value, pos + (xmlEscape value).length + 1)) := by
  have other : quote ≠ ampersand := by rcases quoted with rfl | rfl <;> decide
  have behind := seen.skip
  have inside : pos ≤ text.length := by
    have := behind.lt_length
    omega
  obtain ⟨scan, returns, -⟩ := parseValue_keeps limits reported quote inside
  have reaches := reaches_escaped [] (valueTurn_takesPieces text limits reported other)
    (stopsValue_stopsAt quoted) value seen fits
  exact loop_of_reaches reaches (valueTurn_closes behind.here value) returns

/-- A quoted value that is too long for what has been reported is refused. -/
theorem parseValue_refused {quote : UInt8} (quoted : quote = quotationMark ∨ quote = apostrophe)
    (seen : At text pos (xmlEscape value ++ quote :: rest)) (some' : value ≠ [])
    (long : limits.maxTextLength < reported + value.length) :
    ∃ place, parseValue text limits reported quote pos = some (.error (.sizeExceeded, place)) := by
  have other : quote ≠ ampersand := by rcases quoted with rfl | rfl <;> decide
  have inside : pos ≤ text.length := by
    have := seen.skip.lt_length
    omega
  obtain ⟨scan, returns, -⟩ := parseValue_keeps limits reported quote inside
  rcases escaped_ends [] (valueTurn_takesPieces text limits reported other)
    (stopsValue_stopsAt quoted) value seen with ⟨none | fits, -⟩ | ⟨-, last, place, reaches, ends⟩
  · exact absurd none some'
  · exact absurd fits (Nat.not_le.mpr long)
  · exact ⟨place, loop_of_reaches reaches ends returns⟩

/-- Escaped text does not start with markup. -/
theorem escaped_head (some' : value ≠ []) (rest : Bytes) :
    ∃ c later, xmlEscape value ++ rest = c :: later ∧ c ≠ lessThan := by
  obtain ⟨d, later, rfl⟩ := exists_cons_of_ne_nil some'
  rw [xmlEscape, flatMap_cons]
  cases special : isSpecial d with
  | false =>
    rw [xmlEscapeChar_of_plain special]
    refine ⟨d, _, rfl, ?_⟩
    rintro rfl
    cases special
  | true =>
    obtain ⟨b, tail, written, -⟩ := xmlEscapeChar_of_special special
    rw [written]
    exact ⟨ampersand, _, rfl, by decide⟩

/-- Character data is read back, up to the markup behind it. -/
theorem gatherText_eq (seen : At text pos (xmlEscape value ++ lessThan :: rest))
    (some' : value ≠ []) (fits : reported + value.length ≤ limits.maxTextLength) :
    gatherText text limits reported pos =
      some (.ok (value, pos + (xmlEscape value).length)) := by
  have behind := seen.skip
  obtain ⟨c, later, head, data⟩ := escaped_head some' (lessThan :: rest)
  have here : text[pos]? = some c := by
    rw [head] at seen
    exact seen.here
  obtain ⟨scan, returns, -⟩ := gatherText_keeps limits reported here data
  have reaches := reaches_escaped [] (textTurn_takesPieces text limits reported)
    stopsText_stopsAt value seen fits
  apply loop_of_reaches reaches _ returns
  rw [textTurn, behind.here]
  dsimp only
  rw [if_pos rfl, nil_append]

end Texts

/-- A name without a colon, by the rule of the parser. -/
def isName : Bytes → Bool
  | [] => false
  | c :: rest => isNameStart c && rest.all isNameChar

theorem isName_cons (valid : isName name = true) :
    ∃ c rest, name = c :: rest ∧ isNameStart c = true := by
  cases name with
  | nil => cases valid
  | cons c rest =>
    rw [isName, Bool.and_eq_true] at valid
    exact ⟨c, rest, rfl, valid.1⟩

theorem isNameChar_of_isName (valid : isName name = true) : ∀ c ∈ name, isNameChar c = true := by
  cases name with
  | nil => nofun
  | cons first rest =>
    rw [isName, Bool.and_eq_true, all_eq_true] at valid
    intro c among
    rcases mem_cons.mp among with rfl | later
    · rw [isNameChar, valid.1]
      rfl
    · exact valid.2 c later

theorem colon_not_mem (valid : isName name = true) : colon ∉ name := by
  intro among
  have char := isNameChar_of_isName valid colon among
  cases char

/-- A prefix is a name, or there is none. -/
def isPrefix (nsPrefix : Bytes) : Bool := nsPrefix.isEmpty || isName nsPrefix

theorem splitName_qualified (prefixed : isPrefix nsPrefix = true) (named : isName name = true) :
    splitName (qualified nsPrefix name) = some (nsPrefix, name) := by
  cases nsPrefix with
  | nil =>
    exact splitName_of_plain (colon_not_mem named)
  | cons p front =>
    have valid : isName (p :: front) = true := prefixed
    obtain ⟨c, rest, rfl, starts⟩ := isName_cons named
    exact splitName_of_colon (colon_not_mem valid) (colon_not_mem named) starts

/-- A qualified name starts like a name and has nothing but the characters of one. -/
theorem qualified_cons (prefixed : isPrefix nsPrefix = true) (named : isName name = true) :
    ∃ c rest, qualified nsPrefix name = c :: rest ∧ isNameStart c = true ∧
      ∀ d ∈ c :: rest, (isNameChar d || d == colon) = true := by
  cases nsPrefix with
  | nil =>
    obtain ⟨c, rest, rfl, starts⟩ := isName_cons named
    refine ⟨c, rest, by rw [qualified, if_pos rfl], starts, ?_⟩
    intro d among
    rw [isNameChar_of_isName named d among, Bool.true_or]
  | cons p front =>
    have valid : isName (p :: front) = true := prefixed
    have starts : isNameStart p = true := by
      rw [isName, Bool.and_eq_true] at valid
      exact valid.1
    refine ⟨p, front ++ colon :: name, by rw [qualified]; rfl,
      starts, ?_⟩
    intro d among
    rw [← cons_append] at among
    rcases mem_append.mp among with inPrefix | other
    · rw [isNameChar_of_isName valid d inPrefix, Bool.true_or]
    rcases mem_cons.mp other with rfl | inName
    · exact Bool.or_true _
    · rw [isNameChar_of_isName named d inName, Bool.true_or]

section Names

variable {text rest : Bytes} {limits : Limits} {pos : Nat}

theorem parseName_eq {d : UInt8} (prefixed : isPrefix nsPrefix = true)
    (named : isName name = true) (short : (qualified nsPrefix name).length ≤ limits.maxNameLength)
    (seen : At text pos (qualified nsPrefix name ++ d :: rest))
    (stops : (isNameChar d || d == colon) = false) :
    parseName text limits pos =
      .ok ((nsPrefix, name), pos + (qualified nsPrefix name).length) := by
  obtain ⟨c, later, whole, starts, chars⟩ := qualified_cons prefixed named
  have here : text[pos]? = some c := by
    rw [whole] at seen
    exact seen.here
  have full : runOf text (fun c => isNameChar c || c == colon) pos = qualified nsPrefix name := by
    apply seen.runOf_eq
    · rw [whole]
      exact chars
    · intro e first
      rw [head?_cons, Option.some.injEq] at first
      rw [← first, stops]
  rw [parseName, here]
  dsimp only
  rw [starts, full, splitName_qualified prefixed named]
  simp only [Bool.not_true, Bool.false_eq_true, if_false]
  rw [if_neg (Nat.not_lt.mpr short)]

end Names

structure Attribute where
  nsPrefix : Bytes
  name : Bytes
  value : Bytes

namespace Attribute

def write (entry : Attribute) : Bytes :=
  space :: (qualified entry.nsPrefix entry.name ++
    equalsSign :: quotationMark :: (xmlEscape entry.value ++ [quotationMark]))

/-- The attribute as the parser hands it over. -/
def entry (written : Attribute) : Bytes × Bytes :=
  (qualified written.nsPrefix written.name, written.value)

/-- The attribute can be read where so much text has been reported. -/
structure Fits (limits : Limits) (reported : Nat) (written : Attribute) : Prop where
  prefixed : isPrefix written.nsPrefix = true
  named : isName written.name = true
  short : (qualified written.nsPrefix written.name).length ≤ limits.maxNameLength
  value : reported + written.value.length ≤ limits.maxTextLength

end Attribute

section Attributes

variable {text rest : Bytes} {limits : Limits} {reported pos : Nat}

theorem isNameStart_facts (starts : isNameStart c = true) :
    isSpace c = false ∧ c ≠ greaterThan ∧ c ≠ 33 ∧ c ≠ 63 ∧ c ≠ 47 := by
  refine ⟨?_, ?_, ?_, ?_, ?_⟩
  · cases blank : isSpace c with
    | false => rfl
    | true =>
      simp only [isSpace, Bool.or_eq_true, beq_iff_eq] at blank
      rcases blank with ((rfl | rfl) | rfl) | rfl <;> cases starts
  all_goals
    rintro rfl
    cases starts

/-- The name of an attribute and the opening quote, with a value behind them. -/
theorem parseAttribute_eq {quote : UInt8}
    (quoted : quote = quotationMark ∨ quote = apostrophe) (prefixed : isPrefix nsPrefix = true)
    (named : isName name = true) (short : (qualified nsPrefix name).length ≤ limits.maxNameLength)
    (seen : At text pos (qualified nsPrefix name ++ equalsSign :: quote :: rest)) :
    parseAttribute text limits reported pos =
      match parseValue text limits reported quote
          (pos + (qualified nsPrefix name).length + 2) with
      | none => none
      | some (.error failure) => some (.error failure)
      | some (.ok (value, stop)) => some (.ok ((qualified nsPrefix name, value), stop)) := by
  have behind := seen.skip
  have opened : openValue text (pos + (qualified nsPrefix name).length) =
      .ok (quote, pos + (qualified nsPrefix name).length + 2) := by
    rw [openValue, behind.skipSpace_eq rfl]
    rw [behind.here]
    dsimp only
    rw [behind.next.skipSpace_eq (by rcases quoted with rfl | rfl <;> rfl), behind.next.here]
    rcases quoted with rfl | rfl <;> rfl
  have parsed := parseName_eq prefixed named short seen rfl
  rcases value : parseValue text limits reported quote
    (pos + (qualified nsPrefix name).length + 2) with _ | failure | ⟨value, stop⟩
  all_goals simp only [parseAttribute, parsed, opened, value]

/-- A name starts neither the end of a tag nor blanks. -/
theorem attributeTurn_of_nameStart {attributes : Attributes} {c : UInt8}
    (here : text[skipSpace text pos]? = some c) (starts : isNameStart c = true) :
    attributeTurn text limits reported (pos, attributes) =
      match parseAttribute text limits reported (skipSpace text pos) with
      | none => none
      | some (.error failure) => some (.inr (.error failure))
      | some (.ok (entry, stop)) =>
        if limits.maxAttributes ≤ attributes.length then
          some (.inr (.error (.sizeExceeded, stop)))
        else some (.inl (stop, attributes ++ [entry])) := by
  obtain ⟨-, notEnd, -, -, notSlash⟩ := isNameStart_facts starts
  have tag : lookingAt text (skipSpace text pos) (ascii "/>") = false := by
    rw [lookingAt, drop_of_getElem? here, beq_eq_false_iff_ne]
    intro same
    injection same with first _
    exact notSlash first
  rcases read : parseAttribute text limits reported (skipSpace text pos) with
    _ | failure | ⟨entry, stop⟩
  all_goals simp only [attributeTurn, here, if_neg notEnd, tag, if_neg Bool.false_ne_true, read]

/-- A blank and the name behind it, where an attribute is expected. -/
theorem attributeTurn_eq {attributes : Attributes} (prefixed : isPrefix nsPrefix = true)
    (named : isName name = true) (seen : At text pos (space :: (qualified nsPrefix name ++ rest))) :
    attributeTurn text limits reported (pos, attributes) =
      match parseAttribute text limits reported (pos + 1) with
      | none => none
      | some (.error failure) => some (.inr (.error failure))
      | some (.ok (entry, stop)) =>
        if limits.maxAttributes ≤ attributes.length then
          some (.inr (.error (.sizeExceeded, stop)))
        else some (.inl (stop, attributes ++ [entry])) := by
  obtain ⟨c, later, whole, starts, -⟩ := qualified_cons prefixed named
  have solid := (isNameStart_facts starts).1
  have behind : At text (pos + 1) (c :: (later ++ rest)) := by
    have after := seen.next
    rwa [whole] at after
  have skipped : skipSpace text pos = pos + 1 := by
    have blank : runOf text isSpace pos = [space] := by
      have front : At text pos ([space] ++ c :: (later ++ rest)) := by
        rw [At, seen, whole]
        rfl
      apply front.runOf_eq
      · intro d among
        rw [mem_singleton.mp among]
        rfl
      · intro d first
        rw [head?_cons, Option.some.injEq] at first
        rwa [← first]
    rw [skipSpace, blank]
    rfl
  have turned := @attributeTurn_of_nameStart text limits reported pos attributes c
    (by rw [skipped]; exact behind.here) starts
  rwa [skipped] at turned

theorem attributeTurn_reads {written : Attribute} {attributes : Attributes}
    (fits : written.Fits limits reported) (room : attributes.length < limits.maxAttributes)
    (seen : At text pos (written.write ++ rest)) :
    attributeTurn text limits reported (pos, attributes) =
      some (.inl (pos + written.write.length, attributes ++ [written.entry])) := by
  have spelled : At text pos (space :: (qualified written.nsPrefix written.name ++
      equalsSign :: quotationMark :: (xmlEscape written.value ++ quotationMark :: rest))) := by
    rw [At, seen, Attribute.write]
    simp
  have value : At text (pos + 1 + (qualified written.nsPrefix written.name).length + 2)
      (xmlEscape written.value ++ quotationMark :: rest) :=
    spelled.next.skip.next.next
  have size : pos + written.write.length = pos + 1 +
      (qualified written.nsPrefix written.name).length + 2 +
        (xmlEscape written.value).length + 1 := by
    rw [Attribute.write]
    simp only [length_cons, length_append, length_nil]
    omega
  rw [attributeTurn_eq fits.prefixed fits.named spelled,
    parseAttribute_eq (.inl rfl) fits.prefixed fits.named fits.short spelled.next,
    parseValue_eq (.inl rfl) value fits.value, size]
  dsimp only
  rw [if_neg (Nat.not_le.mpr room)]
  rfl

theorem reaches_attributes {written : List Attribute} (attributes : Attributes)
    (fits : ∀ entry ∈ written, entry.Fits limits reported)
    (room : attributes.length + written.length ≤ limits.maxAttributes)
    (seen : At text pos (written.flatMap Attribute.write ++ rest)) :
    Reaches (attributeTurn text limits reported) (pos, attributes)
      (pos + (written.flatMap Attribute.write).length,
        attributes ++ written.map Attribute.entry) := by
  induction written generalizing pos attributes with
  | nil =>
    rw [map_nil, append_nil]
    exact .refl
  | cons entry written ih =>
    rw [flatMap_cons, append_assoc] at seen
    rw [length_cons] at room
    have first := attributeTurn_reads (fits entry mem_cons_self)
      (by omega : attributes.length < limits.maxAttributes) seen
    have others := ih (attributes ++ [entry.entry])
      (fun other among => fits other (mem_cons_of_mem _ among))
      (by
        rw [length_append, length_singleton]
        omega : (attributes ++ [entry.entry]).length + written.length ≤ limits.maxAttributes)
      seen.skip
    rw [append_assoc, Nat.add_assoc, ← length_append] at others
    exact Relation.ReflTransGen.head first others

/-- The attributes of a start tag are read back. -/
theorem parseAttributes_eq {written : List Attribute}
    (fits : ∀ entry ∈ written, entry.Fits limits reported)
    (room : written.length ≤ limits.maxAttributes)
    (seen : At text pos (written.flatMap Attribute.write ++ greaterThan :: rest)) :
    parseAttributes text limits reported pos =
      some (.ok ((written.map Attribute.entry, false),
        pos + (written.flatMap Attribute.write).length + 1)) := by
  have behind := seen.skip
  have inside : pos ≤ text.length := by
    have := behind.lt_length
    omega
  obtain ⟨scan, returns, -⟩ := parseAttributes_keeps limits reported inside
  have reaches := reaches_attributes [] fits (by simpa using room) seen
  apply loop_of_reaches reaches _ returns
  rw [attributeTurn, behind.skipSpace_eq rfl, behind.here]
  dsimp only
  rw [if_pos rfl, nil_append]

end Attributes

end SamuraiFormal.Xml
