import SamuraiFormal.Http.Response

/-!
# The numbers of a response

`parse_size()` and `parse_chunk_size()` read digits into a `size_t` and give up before the
next digit could take them past it.  They leave room for the largest digit there is, which
costs nothing in base 16; in base 10 the last six numbers that fit are refused with it.
-/

namespace SamuraiFormal.Http.Encoding

open Util
open List

/-- The number that digits stand for, after the value of the digits in front of them. -/
def digitsValue (base : Nat) (digit : UInt8 → Option Nat) : Nat → Bytes → Option Nat
  | value, [] => some value
  | value, c :: rest =>
    match digit c with
    | none => none
    | some d => digitsValue base digit (value * base + d) rest

def decimalValue (c : UInt8) : Option Nat := if isDigit c then some (c.toNat - 48) else none

/-- Decimal digits, with leading zeros or without. -/
def IsDecimal (text : Bytes) (value : Nat) : Prop :=
  text ≠ [] ∧ digitsValue 10 decimalValue 0 text = some value

/-- Hexadecimal digits in either case, with leading zeros or without. -/
def IsHexadecimal (text : Bytes) (value : Nat) : Prop :=
  text ≠ [] ∧ digitsValue 16 hexValue 0 text = some value

variable {base top value final : Nat} {digit : UInt8 → Option Nat} {text : Bytes}

theorem le_of_digitsValue (positive : 0 < base)
    (read : digitsValue base digit value text = some final) : value ≤ final := by
  induction text generalizing value with
  | nil => exact Nat.le_of_eq (Option.some.inj read)
  | cons c rest ih =>
    rw [digitsValue] at read
    split at read
    · cases read
    have later := ih read
    have grown : value * 1 ≤ value * base := Nat.mul_le_mul_left value positive
    omega

theorem mem_of_digitsValue (read : digitsValue base digit value text = some final) :
    ∀ c ∈ text, digit c ≠ none := by
  induction text generalizing value with
  | nil => exact forall_mem_nil _
  | cons c rest ih =>
    rw [digitsValue] at read
    split at read
    · cases read
    next d known => exact forall_mem_cons.mpr ⟨by simp [known], ih read⟩

/-- What every turn of a loop over digits does: it gives up on a byte that is no digit and
on a value beyond `top`, whatever the digit is, and then leaves the argument `out` alone. -/
structure ReadsDigits (base top : Nat) (digit : UInt8 → Option Nat) (out : Nat)
    (loop : Nat → Bytes → Bool × Nat) : Prop where
  positive : 0 < base
  small : ∀ c d, digit c = some d → d < base
  ends : ∀ value, loop value [] = (true, value)
  turn : ∀ value c rest, loop value (c :: rest) =
    match digit c with
    | none => (false, out)
    | some d => if top < value then (false, out) else loop (value * base + d) rest

namespace ReadsDigits

variable {out : Nat} {loop : Nat → Bytes → Bool × Nat} (reads : ReadsDigits base top digit out loop)
include reads

/-- The loop reads exactly the numbers up to the one that `top` and the largest digit make. -/
theorem eq_true_iff (fits : value ≤ top * base + (base - 1)) :
    loop value text = (true, final) ↔
      digitsValue base digit value text = some final ∧ final ≤ top * base + (base - 1) := by
  induction text generalizing value with
  | nil =>
    rw [reads.ends, digitsValue]
    simp only [Prod.mk.injEq, true_and, Option.some.injEq]
    refine (and_iff_left_of_imp fun same => ?_).symm
    exact same ▸ fits
  | cons c rest ih =>
    rw [reads.turn, digitsValue]
    cases known : digit c with
    | none => simp
    | some d =>
      have least := reads.small c d known
      dsimp only
      split
      case isTrue past =>
        refine ⟨by simp, ?_⟩
        rintro ⟨read, bound⟩
        have more := le_of_digitsValue reads.positive read
        have grown : (top + 1) * base ≤ value * base := Nat.mul_le_mul_right base past
        rw [Nat.add_one_mul] at grown
        omega
      case isFalse within =>
        have grown : value * base ≤ top * base :=
          Nat.mul_le_mul_right base (Nat.le_of_not_lt within)
        exact ih (by omega)

theorem out_of_false (refused : (loop value text).1 = false) : loop value text = (false, out) := by
  induction text generalizing value with
  | nil =>
    rw [reads.ends] at refused
    cases refused
  | cons c rest ih =>
    rw [reads.turn] at refused ⊢
    cases known : digit c with
    | none => rfl
    | some d =>
      rw [known] at refused
      dsimp only at refused ⊢
      split
      case isTrue => rfl
      case isFalse within =>
        rw [if_neg within] at refused
        exact ih refused

end ReadsDigits

theorem hexValue_lt {c : UInt8} {d : Nat} (known : hexValue c = some d) : d < 16 := by
  unfold hexValue at known
  simp only [UInt8.le_iff_toNat_le] at known
  split_ifs at known with low lower upper
  all_goals
    cases known
  · have high : c.toNat ≤ 57 := low.2
    omega
  · have high : c.toNat ≤ 102 := lower.2
    omega
  · have high : c.toNat ≤ 70 := upper.2
    omega

theorem decimalValue_lt {c : UInt8} {d : Nat} (known : decimalValue c = some d) : d < 10 := by
  unfold decimalValue isDigit at known
  split at known
  case isTrue decimal =>
    cases known
    rw [Bool.and_eq_true, decide_eq_true_iff, decide_eq_true_iff] at decimal
    have high : c.toNat ≤ 57 := UInt8.le_iff_toNat_le.mp decimal.2
    omega
  case isFalse => cases known

variable {out : Nat}

theorem parseSizeLoop_reads (out : Nat) :
    ReadsDigits 10 ((sizeMax - 9) / 10) decimalValue out (Number.parseSizeLoop out) where
  positive := by decide
  small _ _ := decimalValue_lt
  ends _ := rfl
  turn value c rest := by
    rw [Number.parseSizeLoop, decimalValue]
    cases isDigit c <;> rfl

theorem parseChunkSizeLoop_reads (out : Nat) :
    ReadsDigits 16 ((sizeMax - 15) / 16) hexValue out (Number.parseChunkSizeLoop out) where
  positive := by decide
  small _ _ := hexValue_lt
  ends _ := rfl
  turn _ _ _ := rfl

theorem parseSize_iff :
    Number.parseSize text out = (true, value) ↔ IsDecimal text value ∧ value ≤ sizeMax - 6 := by
  rw [Number.parseSize, IsDecimal]
  split
  case isTrue empty => simp [empty]
  case isFalse some' =>
    rw [and_iff_right some']
    exact (parseSizeLoop_reads out).eq_true_iff (by decide)

theorem parseSize_of_false (refused : (Number.parseSize text out).1 = false) :
    Number.parseSize text out = (false, out) := by
  unfold Number.parseSize at refused ⊢
  split
  case isTrue => rfl
  case isFalse some' =>
    rw [if_neg some'] at refused
    exact (parseSizeLoop_reads out).out_of_false refused

theorem parseSize_of_isDecimal (out : Nat) (small : value < 2 ^ 63)
    (decimal : IsDecimal text value) :
    Number.parseSize text out = (true, value) := by
  refine parseSize_iff.mpr ⟨decimal, ?_⟩
  rw [sizeMax]
  omega

/-- The part of a chunk line that its size is read from. -/
def sizeText (text : Bytes) : Bytes := trim (text.takeWhile (· != 59))

theorem parseChunkSize_eq : Number.parseChunkSize text out =
    if sizeText text = [] then (false, out)
    else Number.parseChunkSizeLoop out 0 (sizeText text) := by
  rw [Number.parseChunkSize, sizeText, List.takeWhile_eq_take_findIdx_not]
  simp only [bne, Bool.not_not]
  cases found : find text 59 with
  | none => rw [take_of_length_le (List.findIdx_eq_length.mpr (findIdx?_eq_none_iff.mp found)).ge]
  | some semi => rw [(findIdx?_eq_some_iff_findIdx_eq.mp found).2]

theorem parseChunkSize_iff :
    Number.parseChunkSize text out = (true, value) ↔
      IsHexadecimal (sizeText text) value ∧ value ≤ sizeMax := by
  rw [parseChunkSize_eq, IsHexadecimal]
  split
  case isTrue empty => simp [empty]
  case isFalse some' =>
    rw [and_iff_right some']
    exact (parseChunkSizeLoop_reads out).eq_true_iff (by decide)

theorem parseChunkSize_of_false (refused : (Number.parseChunkSize text out).1 = false) :
    Number.parseChunkSize text out = (false, out) := by
  rw [parseChunkSize_eq] at refused ⊢
  split
  case isTrue => rfl
  case isFalse some' =>
    rw [if_neg some'] at refused
    exact (parseChunkSizeLoop_reads out).out_of_false refused

/-- The call succeeds exactly where the text stands for a number that fits, with that
number, and leaves its argument alone otherwise. -/
structure Parses (call : Nat → Bool × Nat) (number : Nat → Prop) : Prop where
  succeeds : ∀ value, number value → value ≤ sizeMax → ∀ out, call out = (true, value)
  fails : (∀ value, number value → sizeMax < value) → ∀ out, call out = (false, out)

theorem parses_of_iff {call : Nat → Bool × Nat} {number : Nat → Prop}
    (exactly : ∀ out value, call out = (true, value) ↔ number value ∧ value ≤ sizeMax)
    (leaves : ∀ out, (call out).1 = false → call out = (false, out)) : Parses call number where
  succeeds value is fits out := (exactly out value).mpr ⟨is, fits⟩
  fails none out := by
    refine leaves out (Bool.eq_false_iff.mpr fun read => ?_)
    obtain ⟨is, fits⟩ := (exactly out (call out).2).mp (Prod.ext read rfl)
    exact absurd (none _ is) (Nat.not_lt.mpr fits)

/-- Chunk sizes are read as they should be, and sizes are exactly if the text is not one of
the last six numbers that fit. -/
theorem sizes_parse (text : Bytes) :
    Parses (Number.parseSize text) (IsDecimal text) ∧
        Parses (Number.parseChunkSize text) (IsHexadecimal (sizeText text)) ↔
      ∀ value, IsDecimal text value → value ≤ sizeMax → value ≤ sizeMax - 6 := by
  have chunkSize : Parses (Number.parseChunkSize text) (IsHexadecimal (sizeText text)) :=
    parses_of_iff (fun _ _ => parseChunkSize_iff) fun _ => parseChunkSize_of_false
  rw [and_iff_left chunkSize]
  constructor
  · intro parses value is fits
    have read := parses.succeeds value is fits 0
    exact (parseSize_iff.mp read).2
  · intro below
    refine parses_of_iff (fun out value => ?_) fun _ => parseSize_of_false
    refine parseSize_iff.trans (and_congr_right fun is => ?_)
    exact ⟨fun small => Nat.le_trans small (Nat.sub_le _ _), below value is⟩

theorem sizes_parse_last :
    Parses (Number.parseSize (ascii "18446744073709551609"))
        (IsDecimal (ascii "18446744073709551609")) ∧
      Parses (Number.parseChunkSize (ascii "18446744073709551609"))
        (IsHexadecimal (sizeText (ascii "18446744073709551609"))) := by
  refine (sizes_parse _).mpr fun value is _ => ?_
  cases is.2
  decide

/-- The largest `size_t` is refused. -/
theorem parseSize_refuses_last :
    IsDecimal (ascii "18446744073709551615") sizeMax ∧
      Number.parseSize (ascii "18446744073709551615") 0 = (false, 0) :=
  ⟨⟨by decide, rfl⟩, rfl⟩

end SamuraiFormal.Http.Encoding
