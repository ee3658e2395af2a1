import SamuraiFormal.Xml.EndTags
import SamuraiFormal.Xml.Lexer

/-!
# The tokens that the parser passes

What a scan of the parser has read is what the lexer has passed: the parser is between two
tokens whenever it is between two turns, and what a turn adds to the character data of the
open elements is what the tokens of its bytes stand for.
-/

namespace SamuraiFormal.Xml

open Util
open List

variable {text : Bytes} {limits : Limits} {reported pos stop : Nat} {mode : Mode}
  {closing : Bool} {tokens : List Token} {c quote : UInt8}

/-! ## Tags -/

/-- Inside a tag, but not behind a slash. -/
def InTag (text : Bytes) (pos : Nat) (closing : Bool) (tokens : List Token) : Prop :=
  ∃ last, Lexed text pos (.tag closing last) tokens ∧ last ≠ 47

theorem InTag.blanks (inTag : InTag text pos closing tokens) {count : Nat}
    (within : count ≤ (runOf text isSpace pos).length) :
    InTag text (pos + count) closing tokens := by
  induction count with
  | zero => exact inTag
  | succ count ih =>
    obtain ⟨last, lexed, -⟩ := ih (by omega)
    obtain ⟨c, here, blank⟩ := runOf_getElem? within
    simp only [isSpace, Bool.or_eq_true, beq_iff_eq] at blank
    refine ⟨c, lexed.silent here ?_, ?_⟩
    · rcases blank with ((rfl | rfl) | rfl) | rfl <;> rfl
    · rcases blank with ((rfl | rfl) | rfl) | rfl <;> decide

theorem InTag.skip (inTag : InTag text pos closing tokens) :
    InTag text (skipSpace text pos) closing tokens :=
  inTag.blanks (Nat.le_refl _)

/-- A name leaves the lexer in its tag. -/
theorem NameRead.inTag {parts : Bytes × Bytes} (read : NameRead text limits pos parts stop)
    (lexed : Lexed text pos mode tokens)
    (enters : ∀ c, isNameByte c = true → mode.step c = (.tag closing c, [])) :
    InTag text stop closing tokens := by
  obtain ⟨⟨first, here, starts⟩, rfl, -, -⟩ := read
  have some' : 0 < (runOf text isNameByte pos).length :=
    runOf_pos _ here (by simp [isNameByte, isNameChar, starts])
  obtain ⟨count, size⟩ : ∃ count, (runOf text isNameByte pos).length = count + 1 :=
    ⟨_, (Nat.succ_pred_eq_of_pos some').symm⟩
  obtain ⟨c, named, after⟩ := lexed.name enters (by omega : count < _)
  rw [size, ← Nat.add_assoc]
  refine ⟨c, after, ?_⟩
  rintro rfl
  cases named

theorem ValueOpened.lexed (opened : ValueOpened text pos quote stop)
    (inTag : InTag text pos closing tokens) : Lexed text stop (.quoted closing quote) tokens := by
  obtain ⟨equals, here, quoted, rfl⟩ := opened
  obtain ⟨_, before, -⟩ := inTag.skip
  have behind : InTag text (skipSpace text pos + 1) closing tokens :=
    ⟨equalsSign, before.silent equals rfl, by decide⟩
  obtain ⟨_, lexed, -⟩ := behind.skip
  refine lexed.silent here ?_
  rcases quoted with rfl | rfl <;> rfl

theorem notMem_of_digitsValue {hex : Bool} {value number : Nat} {digits : Bytes}
    (other : digitValue hex c = none) (known : digitsValue hex value digits = some number) :
    c ∉ digits := by
  induction digits generalizing value with
  | nil => exact not_mem_nil
  | cons digit rest ih =>
    rw [digitsValue] at known
    split at known
    · cases known
    case h_2 d read =>
      generalize value * (if hex then 16 else 10) + d = next at known
      dsimp only at known
      split at known
      · cases known
      · refine not_mem_cons_of_ne_of_not_mem ?_ (ih known)
        rintro rfl
        rw [other] at read
        cases read

theorem quote_notMem_numeric {digits value : Bytes}
    (quoted : quote = quotationMark ∨ quote = apostrophe)
    (known : numericValue digits = some value) : quote ∉ digits := by
  simp only [numericValue] at known
  generalize hex : (digits.head? == some 120 || digits.head? == some 88) = base at known
  generalize used : (if base = true then digits.tail else digits) = rest at known
  split at known
  · cases known
  split at known
  · cases known
  case h_2 read =>
    have other : digitValue base quote = none := by
      rcases quoted with rfl | rfl <;> cases base <;> rfl
    have missing := notMem_of_digitsValue other read
    rw [← used] at missing
    cases base with
    | false => exact missing
    | true =>
      cases digits with
      | nil => exact not_mem_nil
      | cons x digits =>
        refine not_mem_cons_of_ne_of_not_mem ?_ missing
        simp only [head?_cons, Bool.or_eq_true, beq_iff_eq, Option.some.injEq] at hex
        rcases quoted with rfl | rfl <;> rcases hex with rfl | rfl <;> decide

theorem quote_notMem_entity {body value : Bytes}
    (quoted : quote = quotationMark ∨ quote = apostrophe)
    (known : entity body = some value) : quote ∉ body := by
  rw [entity] at known
  split_ifs at known
  all_goals
    subst body
    rcases quoted with rfl | rfl <;> decide

/-- What stands for a character has no quote in it. -/
theorem quote_notMem_reference {body value : Bytes}
    (quoted : quote = quotationMark ∨ quote = apostrophe)
    (known : referenceValue body = some value) : quote ∉ body := by
  cases body with
  | nil => exact not_mem_nil
  | cons first rest =>
    rw [referenceValue] at known
    by_cases numeric : first = numberSign
    · rw [if_pos numeric] at known
      refine not_mem_cons_of_ne_of_not_mem ?_ (quote_notMem_numeric quoted known)
      rw [numeric]
      rcases quoted with rfl | rfl <;> decide
    · rw [if_neg numeric] at known
      exact quote_notMem_entity quoted known

/-- The bytes of a piece of a value are not its quote. -/
theorem Piece.unquoted {out whole : Bytes}
    (piece : Piece text limits reported (stopsValue quote) pos out whole stop)
    (quoted : quote = quotationMark ∨ quote = apostrophe) :
    ∃ count, stop = pos + count ∧ ∀ c ∈ (text.drop pos).take count, c ≠ quote := by
  cases piece with
  | run =>
    refine ⟨_, rfl, fun c among => ?_⟩
    have passes := runOf_passes (Nat.le_refl _) c among
    rintro rfl
    simp [stopsValue] at passes
  | @reference body value back seen _ _ known =>
    refine ⟨_, rfl, ?_⟩
    have bytes : (text.drop pos).take (body.length + 2) = ampersand :: (body ++ [semicolon]) := by
      rw [seen, show ampersand :: (body ++ semicolon :: back) =
        (ampersand :: (body ++ [semicolon])) ++ back by simp]
      exact take_left' (by simp)
    have outside : ampersand ≠ quote ∧ semicolon ≠ quote := by
      rcases quoted with rfl | rfl <;> decide
    rw [bytes, forall_mem_cons, forall_mem_append, forall_mem_singleton]
    refine ⟨outside.1, fun c among => ?_, outside.2⟩
    rintro rfl
    exact quote_notMem_reference quoted known among

theorem Pieces.quoted {first : Nat} {value : Bytes}
    (pieces : Pieces text limits reported (stopsValue quote) first pos value)
    (quoted : quote = quotationMark ∨ quote = apostrophe)
    (lexed : Lexed text first (.quoted closing quote) tokens) :
    Lexed text pos (.quoted closing quote) tokens := by
  induction pieces with
  | start => exact lexed
  | next _ _ _ _ inside piece ih =>
    obtain ⟨count, rfl, unquoted⟩ := piece.unquoted quoted
    exact ih.run inside fun c among => if_neg (unquoted c among)

theorem ValueRead.inTag {value : Bytes} (read : ValueRead text limits reported quote pos value stop)
    (quoted : quote = quotationMark ∨ quote = apostrophe)
    (lexed : Lexed text pos (.quoted closing quote) tokens) : InTag text stop closing tokens := by
  cases read with
  | mk pieces closes =>
    refine ⟨quote, (pieces.quoted quoted lexed).silent closes (if_pos rfl), ?_⟩
    rcases quoted with rfl | rfl <;> decide

theorem AttributeRead.inTag {entry : Bytes × Bytes}
    (read : AttributeRead text limits reported pos entry stop)
    (inTag : InTag text pos closing tokens) : InTag text stop closing tokens := by
  cases read with
  | mk name opens valued =>
    obtain ⟨last, lexed, -⟩ := inTag
    have behind := name.inTag lexed fun c => Mode.step_tag_of_nameByte last
    exact valued.inTag opens.quoted (opens.lexed behind)

theorem AttributesRead.inTag {first : Nat} {attributes : Attributes}
    (read : AttributesRead text limits reported first pos attributes)
    (inTag : InTag text first closing tokens) : InTag text pos closing tokens := by
  induction read with
  | start => exact inTag
  | next _ read _ _ ih => exact read.inTag ih.skip

/-- The end of a start tag is one token. -/
theorem TagRead.lexed {first : Nat} {result : Attributes × Bool}
    (read : TagRead text limits reported first result stop)
    (inTag : InTag text first false tokens) :
    Lexed text stop .data (tokens ++ [if result.2 then .emptyTag else .startTag]) := by
  cases read with
  | bracket read closes =>
    obtain ⟨byte, lexed, notSlash⟩ := (read.inTag inTag).skip
    have after := lexed.step closes
    rwa [Mode.step, if_pos rfl, Mode.tagToken, if_neg Bool.false_ne_true, if_neg notSlash] at after
  | slash read closes =>
    obtain ⟨byte, lexed, -⟩ := (read.inTag inTag).skip
    exact lexed.read (At.of_lookingAt closes)

/-- An end tag is one token. -/
theorem endTag_lexed {name : QName} (lexed : Lexed text pos .data tokens)
    (tag : readEndTag text limits pos = some (name, stop)) :
    Lexed text stop .data (tokens ++ [.endTag]) := by
  obtain ⟨seen, named, read, closes, rfl⟩ := readEndTag_eq_some tag
  have opened : Lexed text (pos + 2) (.tag true 47) tokens := lexed.literal seen (by decide)
  obtain ⟨-, -, name⟩ := (parseName_keeps limits opened.inside).read read
  obtain ⟨last, behind, -⟩ := (name.inTag opened fun c => Mode.step_tag_of_nameByte 47).skip
  exact behind.step closes

/-! ## Character data -/

/-- Character data that has been taken where so much was reported: its tokens, and what they
stand for. -/
inductive Gathered (limits : Limits) (reported : Nat) : List Token → Bytes → Prop where
  | nothing : Gathered limits reported [] []
  | run {tokens : List Token} {out : Bytes} (before : Gathered limits reported tokens out)
      (run : Bytes) (fits : reported + (out ++ run).length ≤ limits.maxTextLength) :
      Gathered limits reported (tokens ++ replicate run.length (.plain 1)) (out ++ run)
  | reference {tokens : List Token} {out body value : Bytes}
      (before : Gathered limits reported tokens out) (known : referenceValue body = some value)
      (fits : (ValueItem.reference body).fits limits reported out.length = true) :
      Gathered limits reported (tokens ++ [.reference body]) (out ++ value)
  | cdata (out : Bytes) (fits : reported + out.length ≤ limits.maxTextLength) :
      Gathered limits reported [.plain out.length] out

theorem Pieces.lexed {first : Nat} {out : Bytes}
    (pieces : Pieces text limits reported stopsText first pos out)
    (lexed : Lexed text first .data tokens) :
    ∃ more, Lexed text pos .data (tokens ++ more) ∧ Gathered limits reported more out := by
  induction pieces with
  | start => exact ⟨[], by rwa [append_nil], .nothing⟩
  | next _ _ _ _ _ piece ih =>
    obtain ⟨more, sofar, gathered⟩ := ih
    cases piece with
    | run _ fits =>
      have after := sofar.plain
      rw [append_assoc] at after
      refine ⟨_, after, gathered.run _ ?_⟩
      rwa [length_append, ← Nat.add_assoc]
    | reference seen missing _ known fits =>
      have after := sofar.reference missing seen
      rw [append_assoc] at after
      exact ⟨_, after, gathered.reference known fits⟩

theorem CdataRead.lexed {out : Bytes} (read : CdataRead text limits reported pos out stop)
    (seen : lookingAt text pos (ascii "<![CDATA[") = true)
    (lexed : Lexed text pos .data tokens) :
    ∃ more, Lexed text stop .data (tokens ++ more) ∧ Gathered limits reported more out := by
  obtain ⟨⟨place, found, rfl, rfl⟩, fits⟩ := read
  have opened : Lexed text (pos + 9) (.inside (ascii "]]>") []) tokens :=
    lexed.literal seen (by decide)
  have within := le_length_of_findTextFrom opened.inside found
  have size : ((text.drop (pos + 9)).take (place - (pos + 9))).length = place - (pos + 9) :=
    length_take_of_le (by rw [length_drop]; omega)
  have taken := Gathered.cdata _ fits
  rw [size] at taken
  exact ⟨_, opened.inside_ends (by decide) found, taken⟩

/-- What is skipped is no token. -/
theorem skipped_lexed {place : Nat} {opening token : Bytes} (lexed : Lexed text pos .data tokens)
    (seen : lookingAt text pos opening = true)
    (opens : Mode.data.read opening = (.inside token [], []))
    (found : findTextFrom token text (pos + opening.length) = some place)
    (some' : token ≠ []) (other : token ≠ ascii "]]>") :
    Lexed text (place + token.length) .data tokens := by
  have closed := (lexed.literal seen opens).inside_ends some' found
  rwa [if_neg other, append_nil] at closed

theorem MiscRead.lexed (read : MiscRead text pos true stop) (lexed : Lexed text pos .data tokens) :
    Lexed text stop .data tokens := by
  cases read with
  | comment seen found => exact skipped_lexed lexed seen (by decide) found (by decide) (by decide)
  | instruction _ seen found =>
    exact skipped_lexed lexed seen (by decide) found (by decide) (by decide)

/-! ## Turns -/

namespace XmlParser

variable {parser next : XmlParser (List Event)}

/-- How much character data each open element has, the innermost one first. -/
def counts (parser : XmlParser (List Event)) : List Nat := parser.stack.map Open.textLength

/-- What tokens do to the character data of the open elements. -/
inductive Counted (limits : Limits) : List Nat → List Token → List Nat → Prop where
  | skips (counts : List Nat) : Counted limits counts [] counts
  | blank : Counted limits [] [.plain 1] []
  | gathers {reported : Nat} {tokens : List Token} {out : Bytes}
      (gathered : Gathered limits reported tokens out) (rest : List Nat) :
      Counted limits (reported :: rest) tokens ((reported + out.length) :: rest)
  | opens (counts : List Nat) : Counted limits counts [.startTag] (0 :: counts)
  | empties (counts : List Nat) : Counted limits counts [.emptyTag] counts
  | closes (top : Nat) (rest : List Nat) : Counted limits (top :: rest) [.endTag] rest

/-- What is gathered counts for the innermost element. -/
theorem DataRead.lexed {chunk : Bytes} (read : DataRead text limits parser chunk pos)
    (within : parser.stack ≠ []) (lexed : Lexed text parser.pos .data tokens) :
    ∃ more, Lexed text pos .data (tokens ++ more) ∧
      Counted limits parser.counts more (parser.gathered pos chunk).counts := by
  obtain ⟨more, after, gathered⟩ : ∃ more, Lexed text pos .data (tokens ++ more) ∧
      Gathered limits parser.reported more chunk := by
    cases read with
    | text _ _ read => exact read.pieces.lexed lexed
    | cdata seen read => exact read.lexed seen lexed
  refine ⟨more, after, ?_⟩
  obtain ⟨top, rest, spelled⟩ := exists_cons_of_ne_nil within
  rw [reported, spelled] at gathered
  rw [counts, counts, XmlParser.gathered, spelled]
  exact .gathers gathered _

theorem StartTag.lexed {name : QName} {attributes : Attributes} {empty : Bool}
    (tag : StartTag text limits parser name attributes empty pos)
    (lexed : Lexed text parser.pos .data tokens) :
    Lexed text pos .data (tokens ++ [if empty then .emptyTag else .startTag]) := by
  obtain ⟨starts, named, name, read⟩ := tag
  have marked : Lexed text (parser.pos + 1) .mark tokens := lexed.silent starts.here rfl
  exact read.lexed (name.inTag marked fun c => Mode.step_mark_of_nameByte)

/-- The parser is between two tokens behind a turn if it is before it, and the tokens that it
passes count for the open elements. -/
theorem Turn.lexed (turned : Turn text limits parser (.inl next))
    (lexed : Lexed text parser.pos .data tokens) :
    ∃ more, Lexed text next.pos .data (tokens ++ more) ∧
      Counted limits parser.counts more next.counts := by
  cases turned with
  | skips _ _ skipped =>
    cases skipped with
    | @blank c outside here blank same =>
      have plain : Mode.data.step c = (.data, [.plain 1]) := by
        simp only [isSpace, Bool.or_eq_true, beq_iff_eq] at blank
        rcases blank with ((rfl | rfl) | rfl) | rfl <;> rfl
      have after := lexed.step here
      rw [plain, ← same] at after
      refine ⟨_, after, ?_⟩
      rw [counts, counts, outside]
      exact .blank
    | misc _ _ read => exact ⟨[], by rw [append_nil]; exact read.lexed lexed, .skips _⟩
    | empty within read =>
      obtain ⟨more, after, counted⟩ := read.lexed within lexed
      refine ⟨more, after, ?_⟩
      obtain ⟨top, rest, spelled⟩ := exists_cons_of_ne_nil within
      rw [counts, counts, gathered, spelled] at counted
      rw [counts, counts, spelled]
      exact counted
  | gathers _ _ within _ read => exact read.lexed within lexed
  | opens _ _ _ tag => exact ⟨_, tag.lexed lexed, .opens _⟩
  | empties _ _ _ tag => exact ⟨_, tag.lexed lexed, .empties _⟩
  | closes _ _ stack tag =>
    refine ⟨_, endTag_lexed lexed tag, ?_⟩
    rw [counts, counts, closed, stack]
    exact .closes _ _

/-- The bytes of a byte order mark are in front of every element. -/
theorem start_lexed (text : Bytes) :
    ∃ size, Lexed text (start text ([] : List Event)).pos .data (replicate size (.plain 1)) := by
  rw [start]
  by_cases marked : text.take 3 = [0xef, 0xbb, 0xbf]
  · have long : 3 ≤ text.length := by
      have size := congrArg length marked
      rw [length_take] at size
      simp only [length_cons, length_nil] at size
      omega
    simp only [if_pos marked]
    refine ⟨3, long, ?_⟩
    rw [marked]
    decide
  · simp only [if_neg marked]
    exact ⟨0, Lexed.start text⟩

end XmlParser

end SamuraiFormal.Xml
