import Mathlib.Algebra.Group.Int.Defs
import SamuraiFormal.Util.Text

/-!
# Numbers

The conversions of `Samurai::Util::Convert`.  A C string ends where its list of bytes ends; a
byte 0 within the list stops a conversion like any other character that is no digit.
-/

namespace SamuraiFormal.Util

/-- `samurai_skip_ws_sign()`: what follows white space and a sign, and whether it was a
minus. -/
def skipWsSign (value : Bytes) : Bytes × Bool :=
  match value.dropWhile fun c => c == 32 || (9 ≤ c && c ≤ 13) with
  | 45 :: rest => (rest, true)
  | 43 :: rest => (rest, false)
  | rest => (rest, false)

/-- The loop of `to_int64()`; overflow saturates. -/
def toInt64Loop (limit : Nat) : Nat → Bytes → Nat
  | value, [] => value
  | value, c :: rest =>
    if !isDigit c then value
    else if (limit - (c.toNat - 48)) / 10 < value then limit
    else toInt64Loop limit (value * 10 + (c.toNat - 48)) rest

/-- `to_int64()`. -/
def toInt64 (value : Bytes) : Int :=
  let (digits, negative) := skipWsSign value
  if negative then -(toInt64Loop (2 ^ 63) 0 digits : Int)
  else (toInt64Loop (2 ^ 63 - 1) 0 digits : Int)

/-- `to_int32()`. -/
def toInt32 (value : Bytes) : Int :=
  if 2147483647 < toInt64 value then 2147483647
  else if toInt64 value < -2147483648 then -2147483648
  else toInt64 value

/-- `to_uint64()`. -/
def toUInt64 (value : Bytes) : Nat :=
  let (digits, negative) := skipWsSign value
  if negative then 0 else toInt64Loop (2 ^ 64 - 1) 0 digits

/-- `to_uint16()`: digits only, and 0 for everything else. -/
def toUInt16 (text : Bytes) : UInt16 :=
  if text = [] then 0
  else if !text.all isDigit then 0
  else
    let value := toInt64 text
    if value < 0 ∨ 65535 < value then 0 else UInt16.ofNat value.toNat

example : toUInt16 (ascii "08080") = 8080 := by decide

example : toUInt16 (ascii "65536") = 0 := by decide

/-- The number that digits stand for, after the value of the digits in front of them. -/
def decimalFrom (value : Nat) (digits : Bytes) : Nat :=
  digits.foldl (fun value c => value * 10 + (c.toNat - 48)) value

def isWhite (c : UInt8) : Bool := c == 32 || (9 ≤ c && c ≤ 13)

/-- A text starts with white space, a sign and digits, each of them as long as it can be. -/
structure Numeral (text blanks sign digits rest : Bytes) : Prop where
  whole : text = blanks ++ (sign ++ (digits ++ rest))
  white : ∀ c ∈ blanks, isWhite c = true
  sign : sign = [] ∧ (∀ c ∈ (digits ++ rest).head?, isWhite c = false ∧ c ≠ 43 ∧ c ≠ 45) ∨
    sign = [43] ∨ sign = [45]
  digits : ∀ c ∈ digits, isDigit c = true
  longest : ∀ c ∈ rest.head?, isDigit c = false

/-- What a sign and digits stand for. -/
def signed (sign digits : Bytes) : Int :=
  if sign = [45] then -(decimalFrom 0 digits : Int) else decimalFrom 0 digits

def clamp (low high value : Int) : Int := max low (min high value)

/-- Every result on the way of the loop. -/
def toInt64Results (limit : Nat) : Nat → Bytes → List Nat
  | value, [] => [value]
  | value, c :: rest =>
    if !isDigit c then [value]
    else if (limit - (c.toNat - 48)) / 10 < value then [value, c.toNat - 48, limit]
    else value :: (c.toNat - 48) :: value * 10 ::
      toInt64Results limit (value * 10 + (c.toNat - 48)) rest

variable {c : UInt8} {text : Bytes} {limit value : Nat}

theorem isDigit_iff : isDigit c = true ↔ 48 ≤ c.toNat ∧ c.toNat ≤ 57 := by
  rw [isDigit, Bool.and_eq_true, decide_eq_true_iff, decide_eq_true_iff]
  rfl

theorem le_decimalFrom (value : Nat) (digits : Bytes) : value ≤ decimalFrom value digits := by
  induction digits generalizing value with
  | nil => exact Nat.le_refl _
  | cons c rest ih =>
    have later := ih (value * 10 + (c.toNat - 48))
    rw [decimalFrom, List.foldl_cons, ← decimalFrom]
    omega

/-- The loop keeps the value of the digits that it has read, cut off at the limit. -/
theorem toInt64Loop_eq (nine : 9 ≤ limit) (fits : value ≤ limit) (text : Bytes) :
    toInt64Loop limit value text = min limit (decimalFrom value (text.takeWhile isDigit)) := by
  induction text generalizing value with
  | nil => exact (Nat.min_eq_right fits).symm
  | cons c rest ih =>
    rw [toInt64Loop]
    cases decimal : isDigit c with
    | false =>
      rw [List.takeWhile_cons_of_neg (by simp [decimal])]
      exact (Nat.min_eq_right fits).symm
    | true =>
      have small := isDigit_iff.mp decimal
      rw [List.takeWhile_cons_of_pos decimal, if_neg (by decide), decimalFrom, List.foldl_cons,
        ← decimalFrom]
      split
      · have more := le_decimalFrom (value * 10 + (c.toNat - 48)) (rest.takeWhile isDigit)
        exact (Nat.min_eq_left (by omega)).symm
      · exact ih (by omega)

/-- The last of the results is what the loop returns. -/
theorem toInt64Results_getLast (limit value : Nat) (text : Bytes) :
    (toInt64Results limit value text).getLast? = some (toInt64Loop limit value text) := by
  induction text generalizing value with
  | nil => rfl
  | cons c rest ih =>
    rw [toInt64Results, toInt64Loop]
    split
    · rfl
    split
    · rfl
    · simp [List.getLast?_cons, ih]

theorem toInt64Results_le (nine : 9 ≤ limit) (fits : value ≤ limit) (text : Bytes) :
    ∀ result ∈ toInt64Results limit value text, result ≤ limit := by
  induction text generalizing value with
  | nil => simpa [toInt64Results] using fits
  | cons c rest ih =>
    rw [toInt64Results]
    split
    · simpa using fits
    case isFalse decimal =>
      have small := isDigit_iff.mp (by simpa using decimal)
      have digit : c.toNat - 48 ≤ limit := by omega
      split <;> simp only [List.forall_mem_cons]
      · exact ⟨fits, digit, Nat.le_refl _, List.forall_mem_nil _⟩
      · exact ⟨fits, digit, by omega, ih (by omega)⟩

theorem skipWsSign_numeral (text : Bytes) :
    ∃ blanks sign, (skipWsSign text).2 = decide (sign = [45]) ∧
      Numeral text blanks sign ((skipWsSign text).1.takeWhile isDigit)
        ((skipWsSign text).1.dropWhile isDigit) := by
  have whole : text = text.takeWhile isWhite ++ text.dropWhile isWhite :=
    List.takeWhile_append_dropWhile.symm
  have white : ∀ c ∈ text.takeWhile isWhite, isWhite c = true := fun c => List.mem_takeWhile_imp
  have solid := List.head?_dropWhile_not isWhite text
  have longest (rest : Bytes) : ∀ c ∈ (rest.dropWhile isDigit).head?, isDigit c = false := by
    intro c first
    have stops := List.head?_dropWhile_not isDigit rest
    rw [first] at stops
    simpa using stops
  have digits (rest : Bytes) : ∀ c ∈ rest.takeWhile isDigit, isDigit c = true :=
    fun c => List.mem_takeWhile_imp
  have skips : skipWsSign text = match text.dropWhile isWhite with
    | 45 :: rest => (rest, true)
    | 43 :: rest => (rest, false)
    | rest => (rest, false) := rfl
  rw [skips]
  split
  case h_1 rest minus =>
    refine ⟨_, [45], rfl, ?_, white, .inr (.inr rfl), digits rest, longest rest⟩
    rw [List.takeWhile_append_dropWhile, List.singleton_append, ← minus]
    exact whole
  case h_2 rest plus =>
    refine ⟨_, [43], rfl, ?_, white, .inr (.inl rfl), digits rest, longest rest⟩
    rw [List.takeWhile_append_dropWhile, List.singleton_append, ← plus]
    exact whole
  case h_3 rest noMinus noPlus =>
    refine ⟨_, [], rfl, ?_, white, .inl ⟨rfl, ?_⟩, digits _, longest _⟩
    · rw [List.takeWhile_append_dropWhile]
      exact whole
    · rw [List.takeWhile_append_dropWhile]
      intro c first
      obtain ⟨more, starts⟩ := List.head?_eq_some_iff.mp first
      rw [first] at solid
      refine ⟨by simpa using solid, ?_, ?_⟩
      · rintro rfl
        exact noPlus more starts
      · rintro rfl
        exact noMinus more starts

/-- Digits alone are what is read. -/
theorem skipWsSign_digits (decimal : ∀ c ∈ text, isDigit c = true) :
    skipWsSign text = (text, false) := by
  cases text with
  | nil => rfl
  | cons c rest =>
    have low := (isDigit_iff.mp (decimal c List.mem_cons_self)).1
    have solid : ¬(c == 32 || (decide (9 ≤ c) && decide (c ≤ 13))) = true := by
      rw [Bool.or_eq_true, beq_iff_eq, Bool.and_eq_true, decide_eq_true_iff, decide_eq_true_iff]
      rintro (rfl | ⟨-, high⟩)
      · exact absurd low (by decide)
      · have bound : c.toNat ≤ 13 := UInt8.le_iff_toNat_le.mp high
        omega
    rw [skipWsSign, List.dropWhile_cons, if_neg solid]
    split
    case h_1 minus =>
      cases minus
      exact absurd low (by decide)
    case h_2 plus =>
      cases plus
      exact absurd low (by decide)
    case h_3 => rfl

theorem toUInt16_eq (text : Bytes) :
    toUInt16 text =
      if text ≠ [] ∧ (∀ c ∈ text, isDigit c = true) ∧ decimalFrom 0 text ≤ 65535 then
        UInt16.ofNat (decimalFrom 0 text)
      else 0 := by
  rw [toUInt16]
  split
  case isTrue empty => rw [if_neg fun all => all.1 empty]
  case isFalse some' =>
  split
  case isTrue other =>
    rw [if_neg]
    rintro ⟨-, decimal, -⟩
    simp [List.all_eq_true.mpr decimal] at other
  case isFalse decimal =>
  replace decimal : ∀ c ∈ text, isDigit c = true := by simpa using decimal
  have read : toInt64 text = min (2 ^ 63 - 1) (decimalFrom 0 text) := by
    have all : text.takeWhile isDigit = text := List.takeWhile_eq_self_iff.mpr decimal
    have loop := @toInt64Loop_eq (2 ^ 63 - 1) 0 (by decide) (by decide) text
    rw [toInt64, skipWsSign_digits decimal]
    dsimp only
    rw [loop, all, if_neg (by decide)]
  by_cases small : decimalFrom 0 text ≤ 65535
  · rw [if_neg (by omega), if_pos ⟨some', decimal, small⟩]
    congr 1
    omega
  · rw [if_pos (by omega), if_neg fun all => small all.2.2]

/-- The conversions give the number that the text starts with, as far as it fits, and no
result on the way leaves its type. -/
theorem conversions (text : Bytes) :
    (∃ blanks sign digits rest, Numeral text blanks sign digits rest ∧
      toInt64 text = clamp (-2 ^ 63) (2 ^ 63 - 1) (signed sign digits) ∧
      toInt32 text = clamp (-2 ^ 31) (2 ^ 31 - 1) (signed sign digits) ∧
      (toUInt64 text : Int) = clamp 0 (2 ^ 64 - 1) (signed sign digits)) ∧
    (toUInt16 text =
      if text ≠ [] ∧ (∀ c ∈ text, isDigit c = true) ∧ decimalFrom 0 text ≤ 65535 then
        UInt16.ofNat (decimalFrom 0 text)
      else 0) ∧
    ∀ limit ∈ [2 ^ 63 - 1, 2 ^ 63, 2 ^ 64 - 1],
      (toInt64Results limit 0 (skipWsSign text).1).getLast? =
          some (toInt64Loop limit 0 (skipWsSign text).1) ∧
        ∀ result ∈ toInt64Results limit 0 (skipWsSign text).1, result ≤ limit := by
  refine ⟨?_, toUInt16_eq text, fun limit among => ⟨toInt64Results_getLast _ _ _, ?_⟩⟩
  · obtain ⟨blanks, sign, negative, numeral⟩ := skipWsSign_numeral text
    have loop (limit : Nat) (nine : 9 ≤ limit) :=
      toInt64Loop_eq nine (Nat.zero_le limit) (skipWsSign text).1
    have whole : toInt64 text = clamp (-2 ^ 63) (2 ^ 63 - 1)
        (signed sign ((skipWsSign text).1.takeWhile isDigit)) := by
      rw [toInt64, signed, clamp]
      simp only [negative, loop _ (show 9 ≤ 2 ^ 63 by decide),
        loop _ (show 9 ≤ 2 ^ 63 - 1 by decide), decide_eq_true_iff]
      split <;> omega
    refine ⟨blanks, sign, _, _, numeral, whole, ?_, ?_⟩
    · rw [toInt32, whole]
      simp only [clamp]
      split_ifs <;> omega
    · rw [toUInt64, signed, clamp]
      simp only [negative, loop _ (show 9 ≤ 2 ^ 64 - 1 by decide), decide_eq_true_iff]
      split <;> omega
  · have nine : 9 ≤ limit := by
      revert limit
      decide
    exact toInt64Results_le nine (Nat.zero_le _) _

end SamuraiFormal.Util
