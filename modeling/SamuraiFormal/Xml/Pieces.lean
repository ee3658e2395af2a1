import SamuraiFormal.Xml.Parser

/-!
# Pieces of text

Character data and attribute values are read piece by piece: a reference, or all bytes up to
the next one that stops the text.  What a piece is and what it stands for is said of the text
that goes on from a position, with whatever follows as a parameter, so that what is said of
pieces can be put together.
-/

namespace SamuraiFormal.Xml

open Util
open List

variable {text : Bytes} {limits : Limits} {pos : Nat}

variable {c : UInt8} {reported : Nat} {out whole : Bytes}

theorem lt_length_of_getElem? (here : text[pos]? = some c) : pos < text.length :=
  (List.getElem?_eq_some_iff.mp here).choose

theorem drop_of_getElem? (here : text[pos]? = some c) :
    text.drop pos = c :: text.drop (pos + 1) := by
  obtain ⟨below, rfl⟩ := List.getElem?_eq_some_iff.mp here
  exact drop_eq_getElem_cons below

theorem runOf_le (test : UInt8 → Bool) (inside : pos ≤ text.length) :
    pos + (runOf text test pos).length ≤ text.length := by
  have front := takeWhile_prefix test (l := text.drop pos)
  have size := front.length_le
  rw [length_drop] at size
  rw [runOf]
  omega

/-- A run starts with the byte at its position. -/
theorem runOf_pos (test : UInt8 → Bool) (here : text[pos]? = some c) (passes : test c = true) :
    0 < (runOf text test pos).length := by
  rw [runOf, drop_of_getElem? here, takeWhile_cons_of_pos passes]
  exact Nat.succ_pos _

/-- How the text goes on from a position. -/
def At (text : Bytes) (pos : Nat) (rest : Bytes) : Prop := text.drop pos = rest

namespace At

variable {text front back rest : Bytes} {pos : Nat} {c : UInt8}

theorem of_append (parts : text = front ++ back) : At text front.length back := by
  rw [parts]
  exact drop_left

theorem here (seen : At text pos (c :: rest)) : text[pos]? = some c := by
  rw [← head?_drop, seen, head?_cons]

theorem ended (seen : At text pos []) : text[pos]? = none := by
  rw [← head?_drop, seen, head?_nil]

theorem skip (seen : At text pos (front ++ back)) : At text (pos + front.length) back := by
  rw [At, ← drop_drop, seen, drop_left]

theorem next (seen : At text pos (c :: rest)) : At text (pos + 1) rest := by
  have single : At text pos ([c] ++ rest) := seen
  exact single.skip

theorem lt_length (seen : At text pos (c :: rest)) : pos < text.length :=
  lt_length_of_getElem? seen.here

theorem lookingAt_eq (seen : At text pos rest) (token : Bytes) :
    lookingAt text pos token = (rest.take token.length == token) := by
  rw [lookingAt, seen]

theorem of_lookingAt {token : Bytes} (seen : lookingAt text pos token = true) :
    At text pos (token ++ (text.drop pos).drop token.length) := by
  rw [lookingAt, beq_iff_eq] at seen
  rw [At]
  conv_lhs => rw [← take_append_drop token.length (text.drop pos), seen]

/-- A token is not seen where the second byte is another one. -/
theorem lookingAt_second {first other d : UInt8} (seen : At text pos (first :: c :: rest))
    (different : c ≠ d) (token : Bytes) : lookingAt text pos (other :: d :: token) = false := by
  rw [seen.lookingAt_eq, beq_eq_false_iff_ne]
  intro same
  injection same with _ same
  injection same with second _
  exact different second

/-- A run ends where a byte fails the test. -/
theorem runOf_eq {test : UInt8 → Bool} (seen : At text pos (front ++ back))
    (passes : ∀ c ∈ front, test c = true) (stops : ∀ c, back.head? = some c → test c = false) :
    runOf text test pos = front := by
  rw [runOf, seen, takeWhile_append_of_pos passes]
  cases back with
  | nil => rw [takeWhile_nil, append_nil]
  | cons d back =>
    have fails := stops d rfl
    rw [takeWhile_cons_of_neg (by rw [fails]; exact Bool.false_ne_true), append_nil]

theorem skipSpace_eq (seen : At text pos (c :: rest)) (solid : isSpace c = false) :
    skipSpace text pos = pos := by
  have none : runOf text isSpace pos = [] := by
    have whole : At text pos ([] ++ c :: rest) := seen
    apply whole.runOf_eq (fun _ among => absurd among not_mem_nil)
    intro d first
    rw [head?_cons, Option.some.injEq] at first
    rwa [← first]
  rw [skipSpace, none, length_nil, Nat.add_zero]

end At

/-- A scan that fails stops inside the text, with an error; one that succeeds gets at least
as far as `first`, stays inside, and reads something with the property. -/
def Scan.Keeps {α : Type} (text : Bytes) (first : Nat) (post : α → Nat → Prop) : Scan α → Prop
  | .error (error, stop) => error ≠ .ok ∧ stop ≤ text.length
  | .ok (value, stop) => first ≤ stop ∧ stop ≤ text.length ∧ post value stop

/-! ## References -/

/-- The character of a numeric reference, from what follows the number sign. -/
def numericValue (digits : Bytes) : Option Bytes :=
  let hex := digits.head? == some 120 || digits.head? == some 88
  let digits := if hex then digits.tail else digits
  if digits = [] then none
  else
    match digitsValue hex 0 digits with
    | none => none
    | some value => if value = 0 then none else appendUtf8 value []

/-- What a reference stands for, from what is between the ampersand and the semicolon. -/
def referenceValue : Bytes → Option Bytes
  | [] => none
  | c :: rest => if c = numberSign then numericValue rest else entity (c :: rest)

inductive ValueItem where
  | byte (c : UInt8)
  | reference (body : Bytes)
  deriving DecidableEq, Repr

namespace ValueItem

def write : ValueItem → Bytes
  | .byte c => [c]
  | .reference body => ampersand :: (body ++ [semicolon])

def expand : ValueItem → Bytes
  | .byte c => [c]
  | .reference body => (referenceValue body).getD []

def isNumeric : ValueItem → Bool
  | .byte _ => false
  | .reference body => body.head? == some numberSign

/-- There is room for the item behind so many bytes of the value: a numeric reference wants
four free bytes, and anything else is counted together with what has been reported. -/
def fits (limits : Limits) (reported size : Nat) (item : ValueItem) : Bool :=
  if item.isNumeric then decide (size + 4 ≤ limits.maxTextLength)
  else decide (reported + size + item.expand.length ≤ limits.maxTextLength)

end ValueItem

theorem appendText_eq (limits : Limits) (reported : Nat) (out chunk : Bytes) :
    appendText limits reported out chunk =
      if decide (reported + out.length + chunk.length ≤ limits.maxTextLength) then
        .ok (out ++ chunk)
      else .error .sizeExceeded := by
  rw [appendText, ← ite_not]
  simp only [Nat.not_lt, decide_eq_true_iff]

theorem appendUtf8_eq (codepoint : Nat) (out : Bytes) :
    appendUtf8 codepoint out = (appendUtf8 codepoint []).map (out ++ ·) := by
  unfold appendUtf8
  repeat' split
  all_goals rfl

/-- What becomes of a reference: what it stands for is appended if there is room for it, and
it is refused if it stands for nothing. -/
def Expands (value : Option Bytes) (fits : Bool) (out : Bytes) (outcome : Except XmlError Bytes) :
    Prop :=
  match value with
  | none => ∃ error, outcome = .error error ∧ error ≠ .ok
  | some value => outcome = if fits then .ok (out ++ value) else .error .sizeExceeded

theorem appendNumeric_expands (limits : Limits) (digits out : Bytes) :
    Expands (numericValue digits) (decide (out.length + 4 ≤ limits.maxTextLength)) out
      (appendNumeric limits digits out) := by
  simp only [numericValue, appendNumeric]
  generalize (digits.head? == some 120 || digits.head? == some 88) = hex
  generalize (if hex = true then digits.tail else digits) = used
  by_cases bare : used = []
  · rw [if_pos bare, if_pos bare]
    exact ⟨_, rfl, by simp⟩
  rw [if_neg bare, if_neg bare]
  cases digitsValue hex 0 used with
  | none => exact ⟨_, rfl, by simp⟩
  | some codepoint =>
    dsimp only
    by_cases zero : codepoint = 0
    · rw [if_pos zero, if_pos zero]
      exact ⟨_, rfl, by simp⟩
    rw [if_neg zero, if_neg zero, appendUtf8_eq codepoint out]
    by_cases full : limits.maxTextLength < out.length + 4
    · rw [if_pos full, decide_eq_false (Nat.not_le.mpr full)]
      cases appendUtf8 codepoint [] with
      | none => exact ⟨_, rfl, by simp⟩
      | some value => exact rfl
    · rw [if_neg full, decide_eq_true (Nat.not_lt.mp full)]
      cases appendUtf8 codepoint [] with
      | none => exact ⟨_, rfl, by simp⟩
      | some value => exact rfl

theorem expand_expands (limits : Limits) (reported : Nat) (out body : Bytes) :
    Expands (referenceValue body) ((ValueItem.reference body).fits limits reported out.length) out
      (expand limits reported out body) := by
  cases body with
  | nil => exact ⟨_, rfl, nofun⟩
  | cons c rest =>
    rw [ValueItem.fits, ValueItem.isNumeric, ValueItem.expand, head?_cons, referenceValue, expand]
    by_cases numeric : c = numberSign
    · rw [if_pos numeric, if_pos numeric, numeric]
      exact appendNumeric_expands limits rest out
    · rw [if_neg numeric, if_neg numeric, if_neg (by simpa using numeric)]
      cases entity (c :: rest) with
      | none => exact ⟨_, rfl, nofun⟩
      | some value => exact appendText_eq limits reported out value

/-- A reference that stands for something is refused only for want of room. -/
theorem expand_eq {body value : Bytes} (known : referenceValue body = some value)
    (limits : Limits) (reported : Nat) (out : Bytes) :
    expand limits reported out body =
      if (ValueItem.reference body).fits limits reported out.length then .ok (out ++ value)
      else .error .sizeExceeded := by
  have expands := expand_expands limits reported out body
  rwa [known] at expands

theorem length_of_numericValue {digits value : Bytes} (known : numericValue digits = some value) :
    value.length ≤ 4 := by
  simp only [numericValue] at known
  generalize (digits.head? == some 120 || digits.head? == some 88) = hex at known
  generalize (if hex = true then digits.tail else digits) = used at known
  split at known
  · cases known
  split at known
  · cases known
  split at known
  · cases known
  · exact length_of_appendUtf8 known

/-- What fits does not exceed the limit by itself. -/
theorem length_le_of_fits {body value : Bytes} (known : referenceValue body = some value)
    (fits : (ValueItem.reference body).fits limits reported out.length = true) :
    (out ++ value).length ≤ limits.maxTextLength := by
  have stands : (ValueItem.reference body).expand = value := by
    rw [ValueItem.expand, known, Option.getD_some]
  rw [ValueItem.fits, stands] at fits
  rw [length_append]
  split at fits
  case isTrue numeric =>
    have short : value.length ≤ 4 := by
      cases body with
      | nil => cases known
      | cons c rest =>
        rw [referenceValue, if_pos (by simpa [ValueItem.isNumeric] using numeric)] at known
        exact length_of_numericValue known
    have := of_decide_eq_true fits
    omega
  case isFalse =>
    have := of_decide_eq_true fits
    omega

/-! ## Pieces -/

/-- A piece that has been taken: a run of bytes that do not stop the text, or a reference. -/
inductive Piece (text : Bytes) (limits : Limits) (reported : Nat) (stops : UInt8 → Bool)
    (pos : Nat) (out : Bytes) : Bytes → Nat → Prop where
  | run (other : text[pos]? ≠ some ampersand)
      (fits : reported + out.length + (runOf text (fun c => !stops c) pos).length ≤
        limits.maxTextLength) :
      Piece text limits reported stops pos out (out ++ runOf text (fun c => !stops c) pos)
        (pos + (runOf text (fun c => !stops c) pos).length)
  | reference {body value back : Bytes}
      (seen : At text pos (ampersand :: (body ++ semicolon :: back))) (missing : semicolon ∉ body)
      (short : body.length < 32) (known : referenceValue body = some value)
      (fits : (ValueItem.reference body).fits limits reported out.length = true) :
      Piece text limits reported stops pos out (out ++ value) (pos + (body.length + 2))

theorem Piece.length_le {stops : UInt8 → Bool} {stop : Nat}
    (piece : Piece text limits reported stops pos out whole stop) :
    whole.length ≤ limits.maxTextLength := by
  cases piece with
  | run _ fits =>
    rw [length_append]
    omega
  | reference _ _ _ known fits => exact length_le_of_fits known fits

/-- A reference is between the ampersand at its position and the next semicolon. -/
theorem split_of_semicolon {semi : Nat} (here : text[pos]? = some ampersand)
    (found : findFrom text semicolon pos = some semi) :
    ∃ body back, At text pos (ampersand :: (body ++ semicolon :: back)) ∧
      semicolon ∉ body ∧ semi = pos + (body.length + 1) := by
  have among : semicolon ∈ text.drop pos := by
    by_contra missing
    rw [findFrom, find_eq_none.mpr missing] at found
    cases found
  rw [drop_of_getElem? here] at among
  obtain ⟨body, back, parts, missing⟩ :=
    eq_append_cons_of_mem ((mem_cons.mp among).resolve_left (by decide))
  have whole : text.drop pos = (ampersand :: body) ++ semicolon :: back := by
    rw [drop_of_getElem? here, parts]
    rfl
  have absent : semicolon ∉ ampersand :: body := not_mem_cons_of_ne_of_not_mem (by decide) missing
  rw [findFrom, whole, find_append_cons absent] at found
  cases found
  exact ⟨body, back, whole, missing, Nat.add_comm _ _⟩

theorem appendReference_keeps (limits : Limits) (reported : Nat) (out : Bytes)
    (stops : UInt8 → Bool) (here : text[pos]? = some ampersand) :
    (appendReference text limits reported pos out).Keeps text (pos + 1)
      (Piece text limits reported stops pos out) := by
  have inside := lt_length_of_getElem? here
  unfold appendReference
  split
  case h_1 => exact ⟨nofun, inside.le⟩
  case h_2 semi found =>
    obtain ⟨body, back, seen, missing, rfl⟩ := split_of_semicolon here found
    split
    · exact ⟨nofun, inside.le⟩
    case isFalse short =>
      have read : (text.drop (pos + 1)).take (pos + (body.length + 1) - pos - 1) = body := by
        have size : pos + (body.length + 1) - pos - 1 = body.length := by omega
        rw [seen.next, size, take_left]
      rw [read]
      cases known : referenceValue body with
      | none =>
        have expands := expand_expands limits reported out body
        rw [known] at expands
        obtain ⟨error, refused, wrong⟩ := expands
        rw [refused]
        exact ⟨wrong, inside.le⟩
      | some value =>
        have behind := (@At.skip text body _ _ seen.next).lt_length
        rw [expand_eq known]
        by_cases fits : (ValueItem.reference body).fits limits reported out.length = true
        · rw [if_pos fits]
          exact ⟨by omega, by omega, .reference seen missing (by omega) known fits⟩
        · rw [if_neg fits]
          exact ⟨nofun, inside.le⟩

/-- What a piece that starts with a reference or with a byte that does not stop it reads. -/
theorem appendPiece_keeps (limits : Limits) (reported : Nat) (out : Bytes) (stops : UInt8 → Bool)
    (here : text[pos]? = some c) (goes : c = ampersand ∨ stops c = false) :
    (appendPiece text limits reported stops pos out).Keeps text (pos + 1)
      (Piece text limits reported stops pos out) := by
  unfold appendPiece
  split
  case isTrue reference => exact appendReference_keeps limits reported out stops reference
  case isFalse other =>
    have passes : stops c = false := by
      rcases goes with rfl | passes
      · exact absurd here other
      · exact passes
    have stop := runOf_le (fun c => !stops c) (lt_length_of_getElem? here).le
    have some' := runOf_pos (fun c => !stops c) here (by rw [passes]; rfl)
    dsimp only
    rw [appendText_eq]
    split
    case h_1 refused =>
      split at refused
      · cases refused
      · cases refused
        exact ⟨nofun, stop⟩
    case h_2 appended =>
      split at appended
      case isTrue fits =>
        cases appended
        exact ⟨by omega, stop, .run other (of_decide_eq_true fits)⟩
      case isFalse => cases appended

end SamuraiFormal.Xml
