import SamuraiFormal.Util.Text

/-!
# Percent coding

`percent_encode()` writes a byte as itself or as a triplet, and `percent_decode()` reads a
text of plain characters and triplets.  It takes every such text, and no other.
-/

namespace SamuraiFormal.Util

def isUnreserved (c : UInt8) : Bool :=
  65 ≤ c && c ≤ 90 || 97 ≤ c && c ≤ 122 || isDigit c || c == 45 || c == 46 || c == 95 || c == 126

/-- `digits`. -/
def hexDigit (value : Nat) : UInt8 := (ascii "0123456789ABCDEF").getD value 0

/-- What `percent_encode()` writes for one byte. -/
def percentEncodeChar (c : UInt8) : Bytes :=
  if isUnreserved c then [c] else [37, hexDigit (c.toNat >>> 4), hexDigit (c.toNat &&& 0x0f)]

def percentEncode (text : Bytes) : Bytes := text.flatMap percentEncodeChar

/-- `percent_decode()`: what was decoded, and whether all of the text was. -/
def percentDecode : Bytes → Bytes × Bool
  | [] => ([], true)
  | 37 :: high :: low :: rest =>
    match hexValue high, hexValue low with
    | some hi, some lo =>
      let (decoded, fine) := percentDecode rest
      (UInt8.ofNat (hi * 16 + lo) :: decoded, fine)
    | _, _ => ([], false)
  | c :: rest =>
    if c = 37 then ([], false)
    else
      let (decoded, fine) := percentDecode rest
      (c :: decoded, fine)

example : percentDecode (ascii "eth%30") = (ascii "eth0", true) := by decide

/-- A text of certain plain characters and of triplets, with the bytes it stands for. -/
inductive Codes (plain : UInt8 → Prop) : Bytes → Bytes → Prop where
  | nil : Codes plain [] []
  | plain {c : UInt8} {text bytes : Bytes} (is : plain c) (rest : Codes plain text bytes) :
      Codes plain (c :: text) (c :: bytes)
  | triplet {high low : UInt8} {hi lo : Nat} {text bytes : Bytes} (first : hexValue high = some hi)
      (second : hexValue low = some lo) (rest : Codes plain text bytes) :
      Codes plain (37 :: high :: low :: text) (UInt8.ofNat (hi * 16 + lo) :: bytes)

/-- Behind plain characters and complete triplets comes a percent sign that two hexadecimal
digits do not follow. -/
inductive Breaks : Bytes → Prop where
  | here {text : Bytes} (incomplete : ∀ high low rest, text = high :: low :: rest →
      hexValue high = none ∨ hexValue low = none) : Breaks (37 :: text)
  | plain {c : UInt8} {text : Bytes} (other : c ≠ 37) (rest : Breaks text) : Breaks (c :: text)
  | triplet {high low : UInt8} {hi lo : Nat} {text : Bytes} (first : hexValue high = some hi)
      (second : hexValue low = some lo) (rest : Breaks text) : Breaks (37 :: high :: low :: text)

variable {text bytes : Bytes}

theorem hexValue_hexDigit {value : Nat} (small : value < 16) :
    hexValue (hexDigit value) = some value := by
  have each : ∀ value < 16, hexValue (hexDigit value) = some value := by decide
  exact each value small

theorem percentEncode_codes (text : Bytes) :
    Codes (isUnreserved · = true) (percentEncode text) text := by
  induction text with
  | nil => exact .nil
  | cons c rest ih =>
    rw [percentEncode, List.flatMap_cons, percentEncodeChar]
    split
    case isTrue is => exact .plain is ih
    case isFalse =>
      have size : c.toNat < 256 := c.toNat_lt
      have high : c.toNat >>> 4 = c.toNat / 16 := Nat.shiftRight_eq_div_pow _ _
      have low : c.toNat &&& 0x0f = c.toNat % 16 := Nat.and_two_pow_sub_one_eq_mod _ 4
      have whole : c.toNat / 16 * 16 + c.toNat % 16 = c.toNat := Nat.div_add_mod' _ _
      rw [high, low]
      have triplet := Codes.triplet (hexValue_hexDigit (by omega : c.toNat / 16 < 16))
        (hexValue_hexDigit (Nat.mod_lt c.toNat (by decide : 16 > 0))) ih
      rwa [whole, UInt8.ofNat_toNat] at triplet

theorem Codes.mono {plain plain' : UInt8 → Prop} (more : ∀ c, plain c → plain' c)
    (codes : Codes plain text bytes) : Codes plain' text bytes := by
  induction codes with
  | nil => exact .nil
  | plain is _ ih => exact .plain (more _ is) ih
  | triplet first second _ ih => exact .triplet first second ih

theorem percentDecode_cons {c : UInt8} (other : c ≠ 37) (text : Bytes) :
    percentDecode (c :: text) = (c :: (percentDecode text).1, (percentDecode text).2) := by
  rw [percentDecode, if_neg other]
  exact fun _ _ _ same => absurd same other

theorem percentDecode_of_codes (codes : Codes (· ≠ 37) text bytes) :
    percentDecode text = (bytes, true) := by
  induction codes with
  | nil => rfl
  | plain other _ ih => rw [percentDecode_cons other, ih]
  | triplet first second _ ih => simp [percentDecode, first, second, ih]

theorem percentDecode_of_breaks (breaks : Breaks text) : (percentDecode text).2 = false := by
  induction breaks with
  | here incomplete =>
    rw [percentDecode.eq_def]
    split
    case h_2 same =>
      cases same
      rcases incomplete _ _ _ rfl with bad | bad
      · rw [bad]
      · rw [bad]
        split <;> simp_all
    all_goals simp_all
  | plain other _ ih => rw [percentDecode_cons other, ih]
  | triplet first second _ ih => simp [percentDecode, first, second, ih]

theorem codes_or_breaks (text : Bytes) : (∃ bytes, Codes (· ≠ 37) text bytes) ∨ Breaks text := by
  fun_induction percentDecode text with
  | case1 => exact .inl ⟨_, .nil⟩
  | case2 high low rest hi lo second first _ _ _ ih =>
    exact ih.imp (fun ⟨_, codes⟩ => ⟨_, .triplet first second codes⟩) (.triplet first second)
  | case3 high low rest incomplete =>
    refine .inr (.here ?_)
    rintro _ _ _ ⟨⟩
    cases first : hexValue high with
    | none => exact .inl rfl
    | some hi =>
      cases second : hexValue low with
      | none => exact .inr rfl
      | some lo => exact (incomplete hi lo first second).elim
  | case4 text short =>
    exact .inr (.here fun high low rest same => (short high low rest rfl same).elim)
  | case5 c text _ other _ _ _ ih =>
    exact ih.imp (fun ⟨_, codes⟩ => ⟨_, .plain other codes⟩) (.plain other)

/-- Encoded bytes are unreserved characters and triplets and are read back; a text is read
as what it stands for, and refused exactly where it breaks off. -/
theorem percent_coding (text : Bytes) :
    Codes (isUnreserved · = true) (percentEncode text) text ∧
      percentDecode (percentEncode text) = (text, true) ∧
      ((percentDecode text).2 = false ↔ Breaks text) ∧
      ∀ bytes, percentDecode text = (bytes, true) ↔ Codes (· ≠ 37) text bytes := by
  have encoded := percentEncode_codes text
  refine ⟨encoded, percentDecode_of_codes ?_, ⟨fun refused => ?_, percentDecode_of_breaks⟩,
    fun bytes => ⟨fun read => ?_, percentDecode_of_codes⟩⟩
  · refine encoded.mono fun c is => ?_
    rintro rfl
    cases is
  · rcases codes_or_breaks text with ⟨bytes, codes⟩ | breaks
    · rw [percentDecode_of_codes codes] at refused
      cases refused
    · exact breaks
  · rcases codes_or_breaks text with ⟨other, codes⟩ | breaks
    · rw [percentDecode_of_codes codes] at read
      cases read
      exact codes
    · have refused := percentDecode_of_breaks breaks
      rw [read] at refused
      cases refused

end SamuraiFormal.Util
