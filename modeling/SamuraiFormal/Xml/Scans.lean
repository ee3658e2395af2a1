import SamuraiFormal.Xml.Pieces

/-!
# What the scans do

Every scan of the parser returns, stops inside the text, and moves on when it succeeds.  What
a successful scan has read is said by one relation for each function, and everything else
about it, the limits it keeps to included, is read off that relation.  The relations of the
loops come from one turn of the loop.
-/

namespace SamuraiFormal.Xml

open Util
open Library.Loops
open List

variable {text : Bytes} {limits : Limits} {pos stop : Nat}

variable {c : UInt8} {reported : Nat}

/-- A token that is seen lies in the text. -/
theorem lookingAt_le {token : Bytes} (seen : lookingAt text pos token = true)
    (some' : token ≠ []) : pos + token.length ≤ text.length := by
  rw [lookingAt, beq_iff_eq] at seen
  have size := congrArg List.length seen
  rw [length_take, length_drop] at size
  have : 0 < token.length := length_pos_iff.mpr some'
  omega

theorem skipSpace_le (inside : pos ≤ text.length) :
    pos ≤ skipSpace text pos ∧ skipSpace text pos ≤ text.length :=
  ⟨Nat.le_add_right _ _, runOf_le isSpace inside⟩

variable {α : Type} {post : α → Nat → Prop} {scan : Scan α}

theorem Scan.Keeps.mono {first first' : Nat} {post' : α → Nat → Prop}
    (keeps : scan.Keeps text first post) (before : first' ≤ first)
    (implies : ∀ value stop, post value stop → post' value stop) :
    scan.Keeps text first' post' := by
  cases scan with
  | error failure => exact keeps
  | ok read => exact ⟨Nat.le_trans before keeps.1, keeps.2.1, implies _ _ keeps.2.2⟩

/-- What a scan that has succeeded has read. -/
theorem Scan.Keeps.read {first : Nat} {value : α} (keeps : scan.Keeps text first post)
    (succeeds : scan = .ok (value, stop)) :
    first ≤ stop ∧ stop ≤ text.length ∧ post value stop := by
  rwa [succeeds] at keeps

/-- One turn of a loop over the text: it moves on with a good state, or ends with a scan
that keeps to the text. -/
inductive Advances {σ : Type} (text : Bytes) (good : Nat → σ → Prop) (post : α → Nat → Prop)
    (pos : Nat) : Option ((Nat × σ) ⊕ Scan α) → Prop where
  | goes {next : Nat} {state : σ} (on : pos < next) (inside : next ≤ text.length)
      (kept : good next state) : Advances text good post pos (some (.inl (next, state)))
  | ends {scan : Scan α} (keeps : scan.Keeps text pos post) :
      Advances text good post pos (some (.inr scan))

theorem loop_keeps {σ : Type} {body : Body (Nat × σ) (Scan α)} (good : Nat → σ → Prop)
    {state : σ} {turns : Nat}
    (turn : ∀ here state, here ≤ text.length → good here state →
      Advances text good post here (body (here, state)))
    (inside : pos ≤ text.length) (first : good pos state) (time : text.length - pos < turns) :
    ∃ scan, loop body turns (pos, state) = some scan ∧ scan.Keeps text pos post := by
  refine loop_total (fun state => text.length - state.1)
    (fun state => state.1 ≤ text.length ∧ pos ≤ state.1 ∧ good state.1 state.2) _ ?_
    ⟨inside, Nat.le_refl _, first⟩ time
  rintro ⟨here, state⟩ ⟨below, above, fine⟩
  have advances := turn here state below fine
  generalize body (here, state) = step at advances
  cases advances with
  | goes on within kept =>
    exact ⟨_, rfl, ⟨within, above.trans on.le, kept⟩, by dsimp only at on ⊢; omega⟩
  | ends keeps => exact ⟨_, rfl, keeps.mono above fun _ _ => id⟩

theorem splitName_of_plain {full : Bytes} (plain : colon ∉ full) :
    splitName full = some ([], full) := by
  have none' : splitOnce full colon = none := by
    rw [splitOnce, find_eq_none.mpr plain, Option.map_none]
  rw [splitName, none']

theorem splitOnce_append {front back : Bytes} (plain : colon ∉ front) :
    splitOnce (front ++ colon :: back) colon = some (front, back) := by
  have whole : front ++ colon :: back = (front ++ [colon]) ++ back := by simp
  rw [splitOnce, find_append_cons plain, Option.map_some, take_left, whole,
    drop_left' (by simp)]

theorem splitName_of_colon {p : UInt8} {front back : Bytes} (plain : colon ∉ p :: front)
    (single : colon ∉ c :: back) (starts : isNameStart c = true) :
    splitName ((p :: front) ++ colon :: c :: back) = some (p :: front, c :: back) := by
  rw [splitName, splitOnce_append plain]
  dsimp only
  rw [find_eq_none.mpr single, starts]
  rfl

/-- A name has no colon, or one with a name on either side. -/
theorem splitName_cases {full : Bytes} {parts : Bytes × Bytes}
    (split : splitName full = some parts) :
    colon ∉ full ∨ ∃ p front c back, full = (p :: front) ++ colon :: c :: back ∧
      colon ∉ p :: front ∧ colon ∉ c :: back ∧ isNameStart c = true := by
  by_cases colons : colon ∈ full
  · refine .inr ?_
    obtain ⟨front, back, rfl, plain⟩ := eq_append_cons_of_mem colons
    rw [splitName, splitOnce_append plain] at split
    cases back with
    | nil => cases split
    | cons c back =>
      cases front with
      | nil => cases split
      | cons p front =>
        dsimp only at split
        split at split
        · cases split
        case isFalse single =>
          split at split
          · cases split
          case isFalse starts =>
            refine ⟨p, front, c, back, rfl, plain, ?_, by simpa using starts⟩
            rw [← find_eq_none]
            simpa using single
  · exact .inl colons

theorem qualified_of_splitName {full nsPrefix name : Bytes}
    (split : splitName full = some (nsPrefix, name)) : qualified nsPrefix name = full := by
  rcases splitName_cases split with plain | ⟨p, front, c, back, rfl, plain, single, starts⟩
  · rw [splitName_of_plain plain] at split
    cases split
    rw [qualified, if_pos rfl]
  rw [splitName_of_colon plain single starts] at split
  cases split
  rw [qualified, if_neg (cons_ne_nil _ _)]

/-- The bytes of a name with its colon. -/
def isNameByte (c : UInt8) : Bool := isNameChar c || c == colon

/-- A name that has been read. -/
structure NameRead (text : Bytes) (limits : Limits) (pos : Nat) (parts : Bytes × Bytes)
    (stop : Nat) : Prop where
  starts : ∃ c, text[pos]? = some c ∧ isNameStart c = true
  stop : stop = pos + (runOf text isNameByte pos).length
  short : (runOf text isNameByte pos).length ≤ limits.maxNameLength
  split : splitName (runOf text isNameByte pos) = some parts

theorem NameRead.length_le {parts : Bytes × Bytes} (read : NameRead text limits pos parts stop) :
    (qualified parts.1 parts.2).length ≤ limits.maxNameLength := by
  rw [qualified_of_splitName read.split]
  exact read.short

theorem parseName_keeps (limits : Limits) (inside : pos ≤ text.length) :
    (parseName text limits pos).Keeps text (pos + 1) (NameRead text limits pos) := by
  unfold parseName
  split
  case h_1 => exact ⟨nofun, inside⟩
  case h_2 c here =>
    split
    case isTrue => exact ⟨nofun, inside⟩
    case isFalse first =>
      have starts : isNameStart c = true := by simpa using first
      have stop := runOf_le isNameByte inside
      have some' : 0 < (runOf text isNameByte pos).length :=
        runOf_pos _ here (by simp [isNameByte, isNameChar, starts])
      dsimp only
      split
      case isTrue => exact ⟨nofun, stop⟩
      case isFalse fits =>
        split
        case h_1 => exact ⟨nofun, stop⟩
        case h_2 parts split =>
          exact ⟨Nat.add_le_add_left some' pos, stop, ⟨c, here, starts⟩, rfl, Nat.not_lt.mp fits,
            split⟩

/-! ## Values and attributes -/

/-- The pieces from a position on, as far as they have been taken. -/
inductive Pieces (text : Bytes) (limits : Limits) (reported : Nat) (stops : UInt8 → Bool)
    (first : Nat) : Nat → Bytes → Prop where
  | start : Pieces text limits reported stops first first []
  | next {here stop : Nat} {out whole : Bytes} {c : UInt8}
      (before : Pieces text limits reported stops first here out)
      (found : text[here]? = some c) (goes : c = ampersand ∨ stops c = false)
      (on : here < stop) (inside : stop ≤ text.length)
      (piece : Piece text limits reported stops here out whole stop) :
      Pieces text limits reported stops first stop whole

theorem Pieces.length_le {stops : UInt8 → Bool} {first : Nat} {out : Bytes}
    (pieces : Pieces text limits reported stops first pos out) :
    out.length ≤ limits.maxTextLength := by
  cases pieces with
  | start => exact Nat.zero_le _
  | next _ _ _ _ _ piece => exact piece.length_le

/-- A loop takes one more piece, or fails with it. -/
theorem Pieces.advances {stops : UInt8 → Bool} {first : Nat} {out : Bytes}
    {post : Bytes → Nat → Prop} (pieces : Pieces text limits reported stops first pos out)
    (found : text[pos]? = some c) (goes : c = ampersand ∨ stops c = false) :
    Advances text (Pieces text limits reported stops first) post pos
      (match appendPiece text limits reported stops pos out with
        | .error failure => some (.inr (.error failure))
        | .ok (out, pos) => some (.inl (pos, out))) := by
  have keeps := appendPiece_keeps limits reported out stops found goes
  split
  case h_1 failed =>
    rw [failed] at keeps
    exact .ends keeps
  case h_2 read =>
    obtain ⟨on, inside, piece⟩ := keeps.read read
    exact .goes on inside (.next pieces found goes on inside piece)

/-- A value that has been read, up to its quote. -/
inductive ValueRead (text : Bytes) (limits : Limits) (reported : Nat) (quote : UInt8)
    (pos : Nat) : Bytes → Nat → Prop where
  | mk {last : Nat} {value : Bytes}
      (pieces : Pieces text limits reported (stopsValue quote) pos last value)
      (closes : text[last]? = some quote) :
      ValueRead text limits reported quote pos value (last + 1)

theorem parseValue_keeps (limits : Limits) (reported : Nat) (quote : UInt8)
    (inside : pos ≤ text.length) :
    ∃ scan, parseValue text limits reported quote pos = some scan ∧
      scan.Keeps text pos (ValueRead text limits reported quote pos) := by
  apply loop_keeps (Pieces text limits reported (stopsValue quote) pos) _ inside .start (by omega)
  intro here value below pieces
  unfold valueTurn
  dsimp only
  split
  case h_1 => exact .ends ⟨nofun, below⟩
  case h_2 c found =>
    have within := lt_length_of_getElem? found
    split
    case isTrue isQuote =>
      rw [isQuote] at found
      exact .ends ⟨Nat.le_succ _, within, pieces, found⟩
    case isFalse notQuote =>
      split
      · exact .ends ⟨nofun, below⟩
      case isFalse notMark =>
        refine pieces.advances found (or_iff_not_imp_left.mpr fun other => ?_)
        simp [stopsValue, notQuote, notMark, other]

theorem ValueRead.length_le {quote : UInt8} {value : Bytes}
    (read : ValueRead text limits reported quote pos value stop) :
    value.length ≤ limits.maxTextLength := by
  cases read with
  | mk pieces => exact pieces.length_le

/-- The equals sign and the quote in front of a value have been read. -/
structure ValueOpened (text : Bytes) (pos : Nat) (quote : UInt8) (stop : Nat) : Prop where
  equals : text[skipSpace text pos]? = some equalsSign
  here : text[skipSpace text (skipSpace text pos + 1)]? = some quote
  quoted : quote = quotationMark ∨ quote = apostrophe
  stop : stop = skipSpace text (skipSpace text pos + 1) + 1

theorem openValue_keeps (inside : pos ≤ text.length) :
    (openValue text pos).Keeps text (pos + 1) (ValueOpened text pos) := by
  have skipped := skipSpace_le inside
  unfold openValue
  dsimp only
  split
  case h_1 => exact ⟨nofun, skipped.2⟩
  case h_2 found =>
    have below : skipSpace text pos + 1 ≤ text.length := lt_length_of_getElem? found
    have again := skipSpace_le below
    split
    · exact ⟨nofun, skipped.2⟩
    case isFalse equals =>
      split
      case h_1 => exact ⟨nofun, again.2⟩
      case h_2 found' =>
        have below' := lt_length_of_getElem? found'
        split
        · exact ⟨nofun, again.2⟩
        case isFalse quoted =>
          rw [not_not.mp equals] at found
          exact ⟨by omega, below', found, found', by tauto, rfl⟩

/-- An attribute that has been read. -/
inductive AttributeRead (text : Bytes) (limits : Limits) (reported pos : Nat) :
    Bytes × Bytes → Nat → Prop where
  | mk {parts : Bytes × Bytes} {value : Bytes} {quote : UInt8} {named opened stop : Nat}
      (name : NameRead text limits pos parts named) (opens : ValueOpened text named quote opened)
      (valued : ValueRead text limits reported quote opened value stop) :
      AttributeRead text limits reported pos (qualified parts.1 parts.2, value) stop

/-- The limits on one attribute. -/
structure AttributeFits (limits : Limits) (entry : Bytes × Bytes) : Prop where
  name : entry.1.length ≤ limits.maxNameLength
  value : entry.2.length ≤ limits.maxTextLength

theorem parseAttribute_keeps (limits : Limits) (reported : Nat) (inside : pos ≤ text.length) :
    ∃ scan, parseAttribute text limits reported pos = some scan ∧
      scan.Keeps text (pos + 1) fun entry stop =>
        AttributeRead text limits reported pos entry stop ∧ AttributeFits limits entry := by
  have named := parseName_keeps limits inside
  unfold parseAttribute
  split
  case h_1 failed =>
    rw [failed] at named
    exact ⟨_, rfl, named⟩
  case h_2 name =>
    obtain ⟨on, within, read⟩ := named.read name
    have opened := openValue_keeps within
    split
    case h_1 failed =>
      rw [failed] at opened
      exact ⟨_, rfl, opened⟩
    case h_2 quote pos' opens =>
      obtain ⟨on', within', opens⟩ := opened.read opens
      obtain ⟨scan, returns, keeps⟩ := parseValue_keeps limits reported quote within'
      rw [returns]
      cases scan with
      | error failure => exact ⟨_, rfl, keeps⟩
      | ok value =>
        obtain ⟨on'', within'', valued⟩ := keeps
        exact ⟨_, rfl, by omega, within'', ⟨read, opens, valued⟩, read.length_le,
          valued.length_le⟩

/-- The attributes from a position on, as far as they have been read. -/
inductive AttributesRead (text : Bytes) (limits : Limits) (reported first : Nat) :
    Nat → Attributes → Prop where
  | start : AttributesRead text limits reported first first []
  | next {here stop : Nat} {attributes : Attributes} {entry : Bytes × Bytes}
      (before : AttributesRead text limits reported first here attributes)
      (read : AttributeRead text limits reported (skipSpace text here) entry stop)
      (fits : AttributeFits limits entry) (room : attributes.length < limits.maxAttributes) :
      AttributesRead text limits reported first stop (attributes ++ [entry])

/-- The limits on the attributes of an element. -/
structure AttributesFit (limits : Limits) (attributes : Attributes) : Prop where
  count : attributes.length ≤ limits.maxAttributes
  each : ∀ entry ∈ attributes, AttributeFits limits entry

theorem AttributesRead.fit {first : Nat} {attributes : Attributes}
    (read : AttributesRead text limits reported first pos attributes) :
    AttributesFit limits attributes := by
  induction read with
  | start => exact ⟨Nat.zero_le _, fun _ among => absurd among not_mem_nil⟩
  | next _ _ fits room ih =>
    refine ⟨?_, forall_mem_append.mpr ⟨ih.each, forall_mem_singleton.mpr fits⟩⟩
    rw [length_append]
    exact room

/-- The end of a start tag, behind its attributes, and whether it is an empty element's. -/
inductive TagRead (text : Bytes) (limits : Limits) (reported first : Nat) :
    Attributes × Bool → Nat → Prop where
  | bracket {last : Nat} {attributes : Attributes}
      (read : AttributesRead text limits reported first last attributes)
      (closes : text[skipSpace text last]? = some greaterThan) :
      TagRead text limits reported first (attributes, false) (skipSpace text last + 1)
  | slash {last : Nat} {attributes : Attributes}
      (read : AttributesRead text limits reported first last attributes)
      (closes : lookingAt text (skipSpace text last) (ascii "/>") = true) :
      TagRead text limits reported first (attributes, true) (skipSpace text last + 2)

theorem TagRead.fit {first : Nat} {result : Attributes × Bool}
    (read : TagRead text limits reported first result stop) : AttributesFit limits result.1 := by
  cases read with
  | bracket read | slash read => exact read.fit

theorem parseAttributes_keeps (limits : Limits) (reported : Nat) (inside : pos ≤ text.length) :
    ∃ scan, parseAttributes text limits reported pos = some scan ∧
      scan.Keeps text pos (TagRead text limits reported pos) := by
  apply loop_keeps (AttributesRead text limits reported pos) _ inside .start (by omega)
  intro here attributes below read
  have skipped := skipSpace_le below
  unfold attributeTurn
  dsimp only
  split
  case h_1 => exact .ends ⟨nofun, skipped.2⟩
  case h_2 c found =>
    have within := lt_length_of_getElem? found
    split
    case isTrue bracket =>
      rw [bracket] at found
      exact .ends ⟨by omega, within, .bracket read found⟩
    case isFalse =>
      split
      case isTrue seen =>
        have whole := lookingAt_le seen (by decide)
        exact .ends ⟨by omega, whole, .slash read seen⟩
      case isFalse =>
        obtain ⟨scan, returns, keeps⟩ := parseAttribute_keeps limits reported skipped.2
        rw [returns]
        cases scan with
        | error failure => exact .ends keeps
        | ok entry =>
          obtain ⟨on, within', attributed, fits⟩ := keeps
          dsimp only
          split
          case isTrue => exact .ends ⟨nofun, within'⟩
          case isFalse room =>
            exact .goes (by omega) within' (.next read attributed fits (Nat.not_le.mp room))

/-! ## Between the tags -/

/-- What is skipped: a comment, an instruction, or nothing where neither stands. -/
inductive MiscRead (text : Bytes) (pos : Nat) : Bool → Nat → Prop where
  | comment {place : Nat} (seen : lookingAt text pos (ascii "<!--") = true)
      (found : findTextFrom (ascii "-->") text (pos + 4) = some place)
      (plain : ¬ (findText (ascii "--")
        ((text.drop (pos + 4)).take (place - (pos + 4)))).isSome = true) :
      MiscRead text pos true (place + 3)
  | instruction {place : Nat} (other : lookingAt text pos (ascii "<!--") = false)
      (seen : lookingAt text pos (ascii "<?") = true)
      (found : findTextFrom (ascii "?>") text (pos + 2) = some place) :
      MiscRead text pos true (place + 2)
  | nothing (comment : lookingAt text pos (ascii "<!--") = false)
      (instruction : lookingAt text pos (ascii "<?") = false)
      (declaration : lookingAt text pos (ascii "<!") = false) :
      MiscRead text pos false pos

theorem skipMisc_keeps (inside : pos ≤ text.length) :
    (skipMisc text pos).Keeps text pos fun skipped stop =>
      MiscRead text pos skipped stop ∧ (skipped = true → pos < stop) := by
  unfold skipMisc
  split
  case isTrue seen =>
    have whole : pos + 4 ≤ text.length := lookingAt_le seen (by decide)
    split
    case h_1 => exact ⟨nofun, whole⟩
    case h_2 stop found =>
      have here := le_length_of_findTextFrom whole found
      have size : (ascii "-->").length = 3 := rfl
      split
      · exact ⟨nofun, whole⟩
      case isFalse plain => exact ⟨by omega, by omega, .comment seen found plain, by omega⟩
  case isFalse comment =>
    split
    case isTrue seen =>
      have whole : pos + 2 ≤ text.length := lookingAt_le seen (by decide)
      split
      case h_1 => exact ⟨nofun, whole⟩
      case h_2 stop found =>
        have here := le_length_of_findTextFrom whole found
        have size : (ascii "?>").length = 2 := rfl
        exact ⟨by omega, by omega, .instruction (eq_false_of_ne_true comment) seen found,
          by omega⟩
    case isFalse instruction =>
      split
      · exact ⟨nofun, inside⟩
      case isFalse declaration =>
        exact ⟨Nat.le_refl _, inside, .nothing (eq_false_of_ne_true comment)
          (eq_false_of_ne_true instruction) (eq_false_of_ne_true declaration), nofun⟩

/-- Character data that has been read, up to markup or the end of the text. -/
structure TextRead (text : Bytes) (limits : Limits) (reported pos : Nat) (out : Bytes)
    (stop : Nat) : Prop where
  pieces : Pieces text limits reported stopsText pos stop out
  ended : text[stop]? = none ∨ text[stop]? = some lessThan

theorem gatherText_keeps (limits : Limits) (reported : Nat) (here : text[pos]? = some c)
    (data : c ≠ lessThan) :
    ∃ scan, gatherText text limits reported pos = some scan ∧
      scan.Keeps text (pos + 1) (TextRead text limits reported pos) := by
  have inside := lt_length_of_getElem? here
  have looped : ∃ scan, gatherText text limits reported pos = some scan ∧
      scan.Keeps text pos (TextRead text limits reported pos) := by
    apply loop_keeps (Pieces text limits reported stopsText pos) _ inside.le .start (by omega)
    intro here out below pieces
    unfold textTurn
    dsimp only
    split
    case h_1 ended => exact .ends ⟨Nat.le_refl _, below, pieces, .inl ended⟩
    case h_2 c found =>
      split
      case isTrue mark =>
        rw [mark] at found
        exact .ends ⟨Nat.le_refl _, below, pieces, .inr found⟩
      case isFalse other =>
        refine pieces.advances found (or_iff_not_imp_left.mpr fun another => ?_)
        simp [stopsText, other, another]
  obtain ⟨scan, returns, keeps⟩ := looped
  refine ⟨scan, returns, ?_⟩
  cases scan with
  | error failure => exact keeps
  | ok read =>
    obtain ⟨on, within, read⟩ := keeps
    refine ⟨Nat.lt_of_le_of_ne on fun same => ?_, within, read⟩
    -- the text does not end where it starts
    have ended := read.ended
    rw [← same, here] at ended
    rcases ended with none | mark
    · cases none
    · exact data (Option.some.inj mark)

/-- A section that has been read. -/
structure CdataRead (text : Bytes) (limits : Limits) (reported pos : Nat) (out : Bytes)
    (stop : Nat) : Prop where
  ended : ∃ place, findTextFrom (ascii "]]>") text (pos + 9) = some place ∧ stop = place + 3 ∧
    out = (text.drop (pos + 9)).take (place - (pos + 9))
  fits : reported + out.length ≤ limits.maxTextLength

theorem gatherCdata_keeps (limits : Limits) (reported : Nat)
    (seen : lookingAt text pos (ascii "<![CDATA[") = true) :
    (gatherCdata text limits reported pos).Keeps text (pos + 1)
      (CdataRead text limits reported pos) := by
  have whole : pos + 9 ≤ text.length := lookingAt_le seen (by decide)
  unfold gatherCdata
  split
  case h_1 => exact ⟨nofun, whole⟩
  case h_2 stop found =>
    have within := le_length_of_findTextFrom whole found
    have size : (ascii "]]>").length = 3 := rfl
    rw [appendText_eq]
    split
    case h_1 refused =>
      split at refused
      · cases refused
      · cases refused
        exact ⟨nofun, whole⟩
    case h_2 taken =>
      split at taken
      case isTrue fits =>
        cases taken
        exact ⟨by omega, by omega, ⟨stop, found, rfl, rfl⟩, of_decide_eq_true fits⟩
      case isFalse => cases taken

end SamuraiFormal.Xml
