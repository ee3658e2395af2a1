import SamuraiFormal.Xml.Scans

/-!
# The tokens of a document

A document read byte by byte, with nothing known of it but the bytes in front: where the next
byte stands, and which pieces of character data and which tags have ended.  What is asked of a
text in these terms is asked of the text itself, whatever the parser makes of it.
-/

namespace SamuraiFormal.Xml

open Util
open List

/-- The pieces of character data and the tags.  A piece that is not a reference counts by its
size. -/
inductive Token where
  | plain (size : Nat)
  | reference (body : Bytes)
  | startTag
  | emptyTag
  | endTag
  deriving DecidableEq, Repr

/-- Where a byte stands: in character data, behind an ampersand, behind a `<`, in what opens a
comment or a section, inside something that ends with a token, in a tag or in a value. -/
inductive Mode where
  | data
  | reference (body : Bytes)
  | mark
  | declaration (seen : Bytes)
  | inside (token seen : Bytes)
  | tag (closing : Bool) (last : UInt8)
  | quoted (closing : Bool) (quote : UInt8)
  deriving DecidableEq, Repr

namespace Mode

/-- The token that a bracket ends. -/
def tagToken (closing : Bool) (last : UInt8) : Token :=
  if closing then .endTag else if last = 47 then .emptyTag else .startTag

def step : Mode → UInt8 → Mode × List Token
  | .data, c =>
    if c = lessThan then (.mark, [])
    else if c = ampersand then (.reference [], [])
    else (.data, [.plain 1])
  | .reference body, c =>
    if c = semicolon then (.data, [.reference body]) else (.reference (body ++ [c]), [])
  | .mark, c =>
    if c = 33 then (.declaration [], [])
    else if c = 63 then (.inside (ascii "?>") [], [])
    else (.tag (c == 47) c, [])
  | .declaration seen, c =>
    if seen ++ [c] = ascii "--" then (.inside (ascii "-->") [], [])
    else if seen ++ [c] = ascii "[CDATA[" then (.inside (ascii "]]>") [], [])
    else (.declaration (seen ++ [c]), [])
  | .inside token seen, c =>
    if token.isSuffixOf (seen ++ [c]) then
      -- a comment or an instruction is no character data
      (.data, if token = ascii "]]>" then [.plain (seen.length - 2)] else [])
    else (.inside token (seen ++ [c]), [])
  | .tag closing last, c =>
    if c = greaterThan then (.data, [tagToken closing last])
    else if c = quotationMark ∨ c = apostrophe then (.quoted closing c, [])
    else (.tag closing c, [])
  | .quoted closing quote, c =>
    if c = quote then (.tag closing c, []) else (.quoted closing quote, [])

def read : Mode → Bytes → Mode × List Token
  | mode, [] => (mode, [])
  | mode, c :: rest =>
    match read (mode.step c).1 rest with
    | (last, tokens) => (last, (mode.step c).2 ++ tokens)

variable {mode : Mode} {bytes : Bytes} {c : UInt8} {closing : Bool}

theorem read_append (mode : Mode) (front back : Bytes) :
    mode.read (front ++ back) = (((mode.read front).1.read back).1,
      (mode.read front).2 ++ ((mode.read front).1.read back).2) := by
  induction front generalizing mode with
  | nil => rfl
  | cons c front ih =>
    rw [cons_append, read, ih, read, append_assoc]

/-- Bytes that leave the mode as it is. -/
theorem read_of_stays (stays : ∀ c ∈ bytes, mode.step c = (mode, [])) :
    mode.read bytes = (mode, []) := by
  induction bytes with
  | nil => rfl
  | cons c bytes ih =>
    rw [read, stays c mem_cons_self, ih fun d among => stays d (mem_cons_of_mem c among)]
    rfl

theorem read_plain (plain : ∀ c ∈ bytes, stopsText c = false) :
    Mode.data.read bytes = (.data, replicate bytes.length (.plain 1)) := by
  induction bytes with
  | nil => rfl
  | cons c bytes ih =>
    have other : c ≠ lessThan ∧ c ≠ ampersand := by
      simpa [stopsText] using plain c mem_cons_self
    rw [read, step, if_neg other.1, if_neg other.2,
      ih fun d among => plain d (mem_cons_of_mem c among)]
    rfl

theorem read_reference (seen : Bytes) (missing : semicolon ∉ bytes) :
    (Mode.reference seen).read bytes = (.reference (seen ++ bytes), []) := by
  induction bytes generalizing seen with
  | nil => rw [read, append_nil]
  | cons c bytes ih =>
    rw [mem_cons, not_or] at missing
    rw [read, step, if_neg (Ne.symm missing.1), ih _ missing.2, append_assoc]
    rfl

/-- A token that has not ended is not among the bytes. -/
theorem read_inside {token : Bytes} (missing : ¬ token <:+: bytes) :
    (Mode.inside token []).read bytes = (.inside token bytes, []) := by
  induction bytes using reverseRecOn with
  | nil => rfl
  | append_singleton bytes c ih =>
    have earlier : ¬ token <:+: bytes :=
      fun among => missing (among.trans (infix_append' [] bytes [c]))
    have open' : ¬ token.isSuffixOf (bytes ++ [c]) = true := by
      rw [isSuffixOf_iff_suffix]
      exact fun last => missing last.isInfix
    rw [read_append, ih earlier, read, step, if_neg open']
    rfl

/-- What a tag has in its names. -/
theorem step_tag_of_nameByte (last : UInt8) (named : isNameByte c = true) :
    (Mode.tag closing last).step c = (.tag closing c, []) := by
  have other : c ≠ greaterThan ∧ ¬ (c = quotationMark ∨ c = apostrophe) := by
    refine ⟨?_, ?_⟩
    · rintro rfl
      cases named
    · rintro (rfl | rfl) <;> cases named
  rw [step, if_neg other.1, if_neg other.2]

theorem step_mark_of_nameByte (named : isNameByte c = true) :
    Mode.mark.step c = (.tag false c, []) := by
  have other : c ≠ 33 ∧ c ≠ 63 ∧ c ≠ 47 := by
    refine ⟨?_, ?_, ?_⟩
    all_goals
      rintro rfl
      cases named
  rw [step, if_neg other.1, if_neg other.2.1, beq_eq_false_iff_ne.mpr other.2.2]

end Mode

def lex (bytes : Bytes) : Mode × List Token := Mode.data.read bytes

/-- What the reading of a text has come to at a position. -/
structure Lexed (text : Bytes) (pos : Nat) (mode : Mode) (tokens : List Token) : Prop where
  inside : pos ≤ text.length
  lexed : lex (text.take pos) = (mode, tokens)

variable {text front back : Bytes} {pos count : Nat} {mode : Mode} {tokens : List Token}
  {c : UInt8} {closing : Bool} {test : UInt8 → Bool}

/-- The bytes of a run pass its test. -/
theorem runOf_getElem? (below : count < (runOf text test pos).length) :
    ∃ c, text[pos + count]? = some c ∧ test c = true := by
  obtain ⟨rest, whole⟩ := takeWhile_prefix test (l := text.drop pos)
  refine ⟨(runOf text test pos).get ⟨count, below⟩, ?_, mem_takeWhile_imp (get_mem _ _)⟩
  rw [← getElem?_drop, ← whole, ← runOf, getElem?_append_left below]
  exact getElem?_eq_getElem below

theorem runOf_passes (within : count ≤ (runOf text test pos).length) :
    ∀ c ∈ (text.drop pos).take count, test c = true := by
  obtain ⟨rest, whole⟩ := takeWhile_prefix test (l := text.drop pos)
  rw [← whole, ← runOf, take_append_of_le_length within]
  exact fun c among => mem_takeWhile_imp (mem_of_mem_take among)

namespace Lexed

theorem start (text : Bytes) : Lexed text 0 .data [] := ⟨Nat.zero_le _, rfl⟩

theorem take (lexed : Lexed text pos mode tokens) (inside : pos + count ≤ text.length) :
    Lexed text (pos + count) (mode.read ((text.drop pos).take count)).1
      (tokens ++ (mode.read ((text.drop pos).take count)).2) where
  inside := inside
  lexed := by
    rw [take_add, lex, Mode.read_append, ← lex, lexed.lexed]

theorem read (lexed : Lexed text pos mode tokens) (seen : At text pos (front ++ back)) :
    Lexed text (pos + front.length) (mode.read front).1 (tokens ++ (mode.read front).2) := by
  have inside : pos + front.length ≤ text.length := by
    have size := congrArg length seen
    have := lexed.inside
    rw [length_drop, length_append] at size
    omega
  have taken := lexed.take inside
  rwa [seen, take_left] at taken

theorem step (lexed : Lexed text pos mode tokens) (here : text[pos]? = some c) :
    Lexed text (pos + 1) (mode.step c).1 (tokens ++ (mode.step c).2) := by
  have seen : At text pos ([c] ++ text.drop (pos + 1)) := drop_of_getElem? here
  have next := lexed.read seen
  rw [Mode.read, Mode.read] at next
  dsimp only at next
  rwa [append_nil] at next

/-- A byte that ends nothing. -/
theorem silent {next : Mode} (lexed : Lexed text pos mode tokens) (here : text[pos]? = some c)
    (steps : mode.step c = (next, [])) : Lexed text (pos + 1) next tokens := by
  have after := lexed.step here
  rwa [steps, append_nil] at after

/-- A run of bytes that leave the mode as it is. -/
theorem run (lexed : Lexed text pos mode tokens) (inside : pos + count ≤ text.length)
    (stays : ∀ c ∈ (text.drop pos).take count, mode.step c = (mode, [])) :
    Lexed text (pos + count) mode tokens := by
  have taken := lexed.take inside
  rwa [Mode.read_of_stays stays, append_nil] at taken

/-- The bytes of a name, which leave the lexer in a tag behind the last of them. -/
theorem name (lexed : Lexed text pos mode tokens)
    (enters : ∀ c, isNameByte c = true → mode.step c = (.tag closing c, []))
    (within : count < (runOf text isNameByte pos).length) :
    ∃ c, isNameByte c = true ∧ Lexed text (pos + count + 1) (.tag closing c) tokens := by
  induction count with
  | zero =>
    obtain ⟨c, here, named⟩ := runOf_getElem? within
    exact ⟨c, named, lexed.silent here (enters c named)⟩
  | succ count ih =>
    obtain ⟨last, -, before⟩ := ih (by omega)
    obtain ⟨c, here, named⟩ := runOf_getElem? within
    exact ⟨c, named, before.silent here (Mode.step_tag_of_nameByte last named)⟩

/-- What ends with a token is inside up to the end of the token. -/
theorem inside_ends {token : Bytes} {place : Nat} (some' : token ≠ [])
    (lexed : Lexed text pos (.inside token []) tokens)
    (found : findTextFrom token text pos = some place) :
    Lexed text (place + token.length) .data
      (tokens ++ if token = ascii "]]>" then [.plain (place - pos)] else []) := by
  have positive : 0 < token.length := length_pos_iff.mpr some'
  have within := le_length_of_findTextFrom lexed.inside found
  obtain ⟨size, foundHere, rfl⟩ := Option.map_eq_some_iff.mp found
  obtain ⟨last, lengthEq⟩ : ∃ last, size + token.length = last + 1 :=
    ⟨size + token.length - 1, by omega⟩
  have before : Lexed text (pos + last) (.inside token ((text.drop pos).take last)) tokens := by
    have missing : ¬ token <:+: (text.drop pos).take last :=
      not_infix_of_findText foundHere (by omega)
    have here := lexed.take (by omega : pos + last ≤ text.length)
    rwa [Mode.read_inside missing, append_nil] at here
  have below : last < (text.drop pos).length := by
    rw [length_drop]
    omega
  have here : text[pos + last]? = some ((text.drop pos).get ⟨last, below⟩) := by
    rw [← getElem?_drop]
    exact getElem?_eq_getElem below
  have closes : token.isSuffixOf ((text.drop pos).take last ++
      [(text.drop pos).get ⟨last, below⟩]) = true := by
    obtain ⟨⟨rest, spelled⟩, -⟩ := findText_spec foundHere
    have whole : (text.drop pos).take last ++ [(text.drop pos).get ⟨last, below⟩] =
        (text.drop pos).take size ++ token := by
      have taken : (text.drop pos).take (last + 1) = (text.drop pos).take size ++ token := by
        rw [← lengthEq, take_add, ← spelled, take_left]
      rw [← taken, take_add_one, getElem?_eq_getElem below]
      rfl
    rw [isSuffixOf_iff_suffix, whole]
    exact suffix_append _ _
  have after := before.step here
  have count : ((text.drop pos).take last).length = last := length_take_of_le below.le
  rw [Mode.step, if_pos closes, count] at after
  rw [show size + pos + token.length = pos + last + 1 by omega, Nat.add_sub_cancel]
  by_cases section' : token = ascii "]]>"
  · rw [if_pos section'] at after ⊢
    have three : token.length = 3 := by rw [section']; rfl
    rwa [show last - 2 = size by omega] at after
  · rwa [if_neg section'] at after ⊢

theorem literal {token : Bytes} {next : Mode} (lexed : Lexed text pos mode tokens)
    (seen : lookingAt text pos token = true) (reads : mode.read token = (next, [])) :
    Lexed text (pos + token.length) next tokens := by
  have after := lexed.read (At.of_lookingAt seen)
  rwa [reads, append_nil] at after

/-- A run of character data. -/
theorem plain (lexed : Lexed text pos .data tokens) :
    Lexed text (pos + (runOf text (fun c => !stopsText c) pos).length) .data (tokens ++
      replicate (runOf text (fun c => !stopsText c) pos).length (.plain 1)) := by
  have inside := runOf_le (fun c => !stopsText c) lexed.inside
  have bytes : ((text.drop pos).take (runOf text (fun c => !stopsText c) pos).length).length =
      (runOf text (fun c => !stopsText c) pos).length :=
    length_take_of_le (by rw [length_drop]; omega)
  have here := lexed.take inside
  rwa [Mode.read_plain fun c among => by simpa using runOf_passes (Nat.le_refl _) c among, bytes]
    at here

/-- A reference in character data. -/
theorem reference {body : Bytes} (lexed : Lexed text pos .data tokens) (missing : semicolon ∉ body)
    (seen : At text pos (ampersand :: (body ++ semicolon :: back))) :
    Lexed text (pos + (body.length + 2)) .data (tokens ++ [.reference body]) := by
  have opened : Lexed text (pos + 1) (.reference []) tokens := lexed.silent seen.here rfl
  have before := opened.read seen.next
  rw [Mode.read_reference _ missing, append_nil] at before
  have after := before.step (seen.next.skip).here
  rwa [Mode.step, if_pos rfl, show pos + 1 + body.length + 1 = pos + (body.length + 2) by omega]
    at after

end Lexed

end SamuraiFormal.Xml
