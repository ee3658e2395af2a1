import Mathlib.Algebra.Group.Nat.Defs
import Mathlib.Data.List.DropRight

/-!
# Byte strings

The helpers of `Samurai::Util` on which the parsers rest.  A `std::string`, a
`std::string_view` and the live bytes of a `Buffer` are all lists of bytes here;
an index that may be `npos` is an `Option`.
-/

namespace SamuraiFormal.Util

open List

abbrev Bytes : Type := List UInt8

/-- A condition on the bytes of a text is decided along the text, not over every byte. -/
instance (priority := 2000) decidableForallMem (p : UInt8 → Prop) [DecidablePred p]
    (text : Bytes) : Decidable (∀ c ∈ text, p c) :=
  List.decidableBAll p text

/-- The bytes of an ASCII literal of the source. -/
def ascii (text : String) : Bytes := text.toList.map Char.toUInt8

def lineFeed : UInt8 := 10

def carriageReturn : UInt8 := 13

def space : UInt8 := 32

def find (text : Bytes) (c : UInt8) : Option Nat := text.findIdx? (· == c)

def findFrom (text : Bytes) (c : UInt8) (offset : Nat) : Option Nat :=
  (find (text.drop offset) c).map (· + offset)

def rfind (text : Bytes) (c : UInt8) : Option Nat :=
  (find text.reverse c).map fun position => text.length - 1 - position

def splitOnce (text : Bytes) (sep : UInt8) : Option (Bytes × Bytes) :=
  (find text sep).map fun pos => (text.take pos, text.drop (pos + 1))

variable {c : UInt8}

/-- What is found in the front of a text is found in the whole text. -/
theorem find_append_of_some {front : Bytes} {pos : Nat} (found : find front c = some pos)
    (back : Bytes) : find (front ++ back) c = some pos := by
  simp only [find] at found ⊢
  rw [findIdx?_append, found, Option.some_or]

theorem lt_length_of_find {text : Bytes} {pos : Nat} (found : find text c = some pos) :
    pos < text.length := by
  obtain ⟨below, _⟩ := findIdx?_eq_some_iff_getElem.mp found
  exact below

/-- A byte missing from the front can only be found past it. -/
theorem length_le_of_find_append {front back : Bytes} {pos : Nat} (missing : find front c = none)
    (found : find (front ++ back) c = some pos) : front.length ≤ pos := by
  simp only [find] at missing found
  rw [findIdx?_append, missing] at found
  obtain ⟨later, _, rfl⟩ := Option.map_eq_some_iff.mp found
  exact Nat.le_add_left _ _

theorem find_eq_none {text : Bytes} : find text c = none ↔ c ∉ text := by
  rw [find, findIdx?_eq_none_iff]
  constructor
  · intro missing member
    simpa using missing c member
  · intro missing other member
    rw [beq_eq_false_iff_ne]
    rintro rfl
    exact missing member

/-- A byte that the front lacks is found right behind it. -/
theorem find_append_cons {front back : Bytes} (missing : c ∉ front) :
    find (front ++ c :: back) c = some front.length := by
  have none := find_eq_none.mpr missing
  rw [find] at none ⊢
  rw [findIdx?_append, none]
  simp [findIdx?_cons]

theorem rfind_eq_none {text : Bytes} : rfind text c = none ↔ c ∉ text := by
  rw [rfind, Option.map_eq_none_iff, find_eq_none, mem_reverse]

/-- The last occurrence is the one that no other follows. -/
theorem rfind_append_cons {body back : Bytes} (last : c ∉ back) :
    rfind (body ++ c :: back) c = some body.length := by
  have position : find (back.reverse ++ c :: body.reverse) c = some back.length := by
    rw [find_append_cons (by rwa [mem_reverse]), length_reverse]
  rw [rfind, reverse_append, reverse_cons, append_assoc, singleton_append,
    position]
  simp only [Option.map_some, length_append, length_cons, Option.some.injEq]
  omega

def isSpace (c : UInt8) : Bool := c == 32 || c == 9 || c == 13 || c == 10

def trim (text : Bytes) : Bytes := (text.dropWhile isSpace).rdropWhile isSpace

theorem trim_trim (text : Bytes) : trim (trim text) = trim text := by
  have front : (trim text).dropWhile isSpace = trim text := by
    cases trimmed : trim text with
    | nil => rfl
    | cons c rest =>
      -- what is left starts as the text without the blanks in front of it
      obtain ⟨back, whole⟩ := rdropWhile_prefix isSpace (text.dropWhile isSpace)
      rw [← trim, trimmed, cons_append] at whole
      have solid := head?_dropWhile_not isSpace text
      rw [← whole] at solid
      exact dropWhile_cons_of_neg (by simpa using solid)
  rw [trim, front]
  exact rdropWhile_idempotent isSpace _

def asciiLower (c : UInt8) : UInt8 := if 65 ≤ c ∧ c ≤ 90 then c - 65 + 97 else c

def iequals (a b : Bytes) : Bool :=
  a.length == b.length && (a.zip b).all fun (x, y) => asciiLower x == asciiLower y

theorem iequals_iff {a b : Bytes} :
    iequals a b = true ↔ a.map asciiLower = b.map asciiLower := by
  induction a generalizing b with
  | nil => cases b <;> simp [iequals]
  | cons x a ih =>
    cases b with
    | nil => simp [iequals]
    | cons y b =>
      rw [map_cons, map_cons, cons_eq_cons, ← ih]
      simp only [iequals, length_cons, zip_cons_cons, all_cons,
        Bool.and_eq_true, beq_iff_eq, Nat.add_right_cancel_iff]
      exact and_left_comm

theorem iequals_comm (a b : Bytes) : iequals a b = iequals b a := by
  rw [Bool.eq_iff_iff, iequals_iff, iequals_iff, eq_comm]

def istartsWith (text front : Bytes) : Bool :=
  if text.length < front.length then false else iequals (text.take front.length) front

def isDigit (c : UInt8) : Bool := 48 ≤ c && c ≤ 57

/-- `hex_value()`: the value of one hexadecimal digit. -/
def hexValue (c : UInt8) : Option Nat :=
  if 48 ≤ c ∧ c ≤ 57 then some (c.toNat - 48)
  else if 97 ≤ c ∧ c ≤ 102 then some (c.toNat - 97 + 10)
  else if 65 ≤ c ∧ c ≤ 70 then some (c.toNat - 65 + 10)
  else none

end SamuraiFormal.Util
