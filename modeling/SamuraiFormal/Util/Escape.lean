import SamuraiFormal.Util.Text

/-!
# Characters in markup

`xml_escape()` and `append_utf8()`, and the search for a string in a string that the
parser of markup uses.
-/

namespace SamuraiFormal.Util

open List

abbrev quotationMark : UInt8 := 34

abbrev ampersand : UInt8 := 38

abbrev apostrophe : UInt8 := 39

abbrev lessThan : UInt8 := 60

abbrev greaterThan : UInt8 := 62

/-- What `xml_escape()` writes for one character. -/
def xmlEscapeChar (c : UInt8) : Bytes :=
  if c = ampersand then ascii "&amp;"
  else if c = lessThan then ascii "&lt;"
  else if c = greaterThan then ascii "&gt;"
  else if c = quotationMark then ascii "&quot;"
  else if c = apostrophe then ascii "&apos;"
  else [c]

def xmlEscape (text : Bytes) : Bytes := text.flatMap xmlEscapeChar

/-- `append_utf8()`: the string with the character appended, or nothing where it refuses
the code point. -/
def appendUtf8 (codepoint : Nat) (out : Bytes) : Option Bytes :=
  if 0x10ffff < codepoint then none
  else if 0xd800 ≤ codepoint ∧ codepoint ≤ 0xdfff then none
  else if codepoint < 0x80 then some (out ++ [UInt8.ofNat codepoint])
  else if codepoint < 0x800 then
    some (out ++ [UInt8.ofNat (0xc0 ||| codepoint >>> 6),
      UInt8.ofNat (0x80 ||| codepoint &&& 0x3f)])
  else if codepoint < 0x10000 then
    some (out ++ [UInt8.ofNat (0xe0 ||| codepoint >>> 12),
      UInt8.ofNat (0x80 ||| codepoint >>> 6 &&& 0x3f),
      UInt8.ofNat (0x80 ||| codepoint &&& 0x3f)])
  else
    some (out ++ [UInt8.ofNat (0xf0 ||| codepoint >>> 18),
      UInt8.ofNat (0x80 ||| codepoint >>> 12 &&& 0x3f),
      UInt8.ofNat (0x80 ||| codepoint >>> 6 &&& 0x3f),
      UInt8.ofNat (0x80 ||| codepoint &&& 0x3f)])

/-- A character takes at most four bytes. -/
theorem length_of_appendUtf8 {codepoint : Nat} {out whole : Bytes}
    (appended : appendUtf8 codepoint out = some whole) : whole.length ≤ out.length + 4 := by
  unfold appendUtf8 at appended
  split at appended
  · cases appended
  split at appended
  · cases appended
  split at appended
  · cases appended
    simp
  split at appended
  · cases appended
    simp
  split at appended <;>
  · cases appended
    simp

example : appendUtf8 0x20ac [] = some [0xe2, 0x82, 0xac] := by decide

/-- `text.find(token)`. -/
def findText (token : Bytes) : Bytes → Option Nat
  | [] => if token = [] then some 0 else none
  | c :: rest => if token.isPrefixOf (c :: rest) then some 0 else (findText token rest).map (· + 1)

/-- `text.find(token, offset)`. -/
def findTextFrom (token text : Bytes) (offset : Nat) : Option Nat :=
  (findText token (text.drop offset)).map (· + offset)

/-- What is found stands where it is found, and nowhere in front of that place. -/
theorem findText_spec {token text : Bytes} {pos : Nat} (found : findText token text = some pos) :
    token <+: text.drop pos ∧ ∀ before < pos, ¬ token <+: text.drop before := by
  induction text generalizing pos with
  | nil =>
    rw [findText] at found
    split at found
    case isTrue empty =>
      cases found
      exact ⟨by rw [empty]; exact nil_prefix, fun _ below => absurd below (Nat.not_lt_zero _)⟩
    case isFalse => cases found
  | cons c rest ih =>
    rw [findText] at found
    split at found
    case isTrue front =>
      cases found
      rw [List.isPrefixOf_iff_prefix] at front
      exact ⟨front, fun _ below => absurd below (Nat.not_lt_zero _)⟩
    case isFalse other =>
      rw [List.isPrefixOf_iff_prefix] at other
      obtain ⟨later, foundLater, rfl⟩ := Option.map_eq_some_iff.mp found
      obtain ⟨here, nowhere⟩ := ih foundLater
      refine ⟨here, fun before below => ?_⟩
      cases before with
      | zero => exact other
      | succ before => exact nowhere before (by omega)

/-- What is found lies in the text. -/
theorem le_length_of_findText {token text : Bytes} {pos : Nat}
    (found : findText token text = some pos) : pos + token.length ≤ text.length := by
  obtain ⟨here, nowhere⟩ := findText_spec found
  have size := here.length_le
  rw [length_drop] at size
  by_contra outside
  have empty : token = [] := eq_nil_of_length_eq_zero (by omega)
  refine nowhere 0 ?_ (by rw [empty]; exact nil_prefix)
  rw [empty, length_nil] at outside
  omega

theorem le_length_of_findTextFrom {token text : Bytes} {offset pos : Nat}
    (inside : offset ≤ text.length) (found : findTextFrom token text offset = some pos) :
    offset ≤ pos ∧ pos + token.length ≤ text.length := by
  obtain ⟨later, foundLater, rfl⟩ := Option.map_eq_some_iff.mp found
  have below := le_length_of_findText foundLater
  rw [length_drop] at below
  omega

/-- What ends in front of the end of the first occurrence does not hold the token. -/
theorem not_infix_of_findText {token text : Bytes} {pos count : Nat}
    (found : findText token text = some pos) (short : count < pos + token.length) :
    ¬ token <:+: text.take count := by
  rintro ⟨front, back, whole⟩
  have size := congrArg length whole
  rw [length_append, length_append, length_take] at size
  refine (findText_spec found).2 front.length (by omega) ⟨back ++ text.drop count, ?_⟩
  nth_rewrite 2 [← take_append_drop count text]
  rw [← whole, append_assoc, append_assoc, drop_left]

end SamuraiFormal.Util
