import Mathlib.Data.List.Forall2
import SamuraiFormal.Net.InetAddress

/-!
# Literals

`literal` reads an address in its standard text form.  The constructor of
`InetAddress` puts two checks of its own in front of `inet_pton`; both hold for every
text that `inet_pton` accepts, so an `InetAddress` is numeric exactly when its C string
is a literal.  A literal is made of digits, dots, colons and brackets only.
-/

namespace SamuraiFormal.Net

open Util
open List

/-- The address that a text spells, with or without brackets around it. -/
def literal (text : Bytes) : Option IpAddress :=
  match inetPton4 (unbracket text) with
  | some octets => some (.v4 octets)
  | none => (inetPton6 (unbracket text)).map .v6

theorem forall₂_of_mapM {α β : Type} {f : α → Option β} {inputs : List α} {outputs : List β}
    (mapped : inputs.mapM f = some outputs) :
    List.Forall₂ (fun input output => f input = some output) inputs outputs := by
  induction inputs generalizing outputs with
  | nil =>
    cases mapped
    exact .nil
  | cons input inputs ih =>
    simp only [mapM_cons, Option.bind_eq_bind, Option.bind_eq_some_iff] at mapped
    obtain ⟨output, head, rest, tail, same⟩ := mapped
    cases same
    exact .cons head (ih tail)

variable {c : UInt8} {text bytes : Bytes} {atEnd : Bool}

theorem isDigit_of_decimalDigit {digit : Nat} (read : decimalDigit c = some digit) :
    isDigit c = true ∧ digit = c.toNat - 48 := by
  unfold decimalDigit at read
  split at read
  · next yes => exact ⟨yes, (Option.some.inj read).symm⟩
  · cases read

/-- The text of one octet: one to three digits, a zero only in front of nothing. -/
inductive OctetText : Bytes → Prop where
  | one (a : UInt8) (digits : isDigit a = true) : OctetText [a]
  | two (a b : UInt8) (digits : isDigit a = true ∧ isDigit b = true) (lead : a ≠ 48) :
      OctetText [a, b]
  | three (a b c : UInt8) (digits : isDigit a = true ∧ isDigit b = true ∧ isDigit c = true)
      (lead : a ≠ 48) : OctetText [a, b, c]

theorem octetText_of_decimalOctet {octet : UInt8} (read : decimalOctet text = some octet) :
    OctetText text := by
  unfold decimalOctet at read
  split at read
  · cases read
  next digits mapped =>
    split at read
    · cases read
    next good =>
      simp only [not_or] at good
      obtain ⟨some', short, lead, _⟩ := good
      have each := forall₂_of_mapM mapped
      cases each with
      | nil => exact absurd rfl some'
      | @cons a _ _ _ first more =>
        obtain ⟨digit, value⟩ := isDigit_of_decimalDigit first
        cases more with
        | nil => exact .one _ digit
        | cons second more =>
          have nonzero : a ≠ 48 := by
            intro zero
            subst zero
            exact lead ⟨congrArg some value, nofun⟩
          obtain ⟨digit₂, _⟩ := isDigit_of_decimalDigit second
          cases more with
          | nil => exact .two _ _ ⟨digit, digit₂⟩ nonzero
          | cons third more =>
            obtain ⟨digit₃, _⟩ := isDigit_of_decimalDigit third
            cases more with
            | nil => exact .three _ _ _ ⟨digit, digit₂, digit₃⟩ nonzero
            | cons _ _ =>
              simp only [length_cons] at short
              omega

theorem OctetText.isDigit (octet : OctetText text) : ∀ c ∈ text, isDigit c = true := by
  cases octet with
  | one a digits | two a b digits | three a b c digits => simpa using digits

/-- A dotted quad is four octets with dots between them. -/
theorem inetPton4_text {octets : Octets 4} (read : inetPton4 text = some octets) :
    ∃ p q r s, OctetText p ∧ OctetText q ∧ OctetText r ∧ OctetText s ∧
      text = p ++ 46 :: (q ++ 46 :: (r ++ 46 :: s)) := by
  unfold inetPton4 at read
  split at read
  · next a b c d mapped =>
      have joined : [46].intercalate (text.splitOn 46) = text := intercalate_splitOn 46
      generalize text.splitOn 46 = pieces at mapped joined
      have each := forall₂_of_mapM mapped
      rcases each with _ | ⟨first, _ | ⟨second, _ | ⟨third, _ | ⟨fourth, _ | _⟩⟩⟩⟩
      refine ⟨_, _, _, _, octetText_of_decimalOctet first, octetText_of_decimalOctet second,
        octetText_of_decimalOctet third, octetText_of_decimalOctet fourth, ?_⟩
      simpa using joined.symm
  · cases read

theorem canonicalLoop_digit {previous : UInt8} (digit : isDigit c = true) {digits : Nat}
    (short : digits < 3) (lead : digits ≠ 1 ∨ previous ≠ 48) (octets : Nat) (rest : Bytes) :
    canonicalLoop digits octets previous (c :: rest) =
      canonicalLoop (digits + 1) octets c rest := by
  simp only [isDigit, Bool.and_eq_true, decide_eq_true_eq] at digit
  have noDot : c ≠ 46 := by
    rintro rfl
    exact absurd digit.1 (by decide)
  have inRange : ¬ (c < 48 ∨ 57 < c) := by
    rintro (low | high)
    · exact absurd digit.1 (UInt8.not_le.mpr low)
    · exact absurd digit.2 (UInt8.not_le.mpr high)
  have noLead : ¬ (digits = 1 ∧ previous = 48) := fun both =>
    lead.elim (absurd both.1) (absurd both.2)
  rw [canonicalLoop, if_neg noDot, if_neg inRange, if_neg noLead, if_neg (by omega)]

/-- The loop passes over the text of an octet. -/
theorem OctetText.canonicalLoop (octet : OctetText text) (octets : Nat) (previous : UInt8)
    (rest : Bytes) :
    ∃ digits last, 0 < digits ∧
      Net.canonicalLoop 0 octets previous (text ++ rest) =
        Net.canonicalLoop digits octets last rest := by
  cases octet with
  | one a digits =>
    refine ⟨1, a, Nat.one_pos, ?_⟩
    exact canonicalLoop_digit digits (by decide) (.inl (by decide)) octets rest
  | two a b digits lead =>
    refine ⟨2, b, Nat.two_pos, ?_⟩
    rw [cons_append, canonicalLoop_digit digits.1 (by decide) (.inl (by decide)),
      cons_append, canonicalLoop_digit digits.2 (by decide) (.inr lead), nil_append]
  | three a b c digits lead =>
    refine ⟨3, c, Nat.succ_pos _, ?_⟩
    rw [cons_append, canonicalLoop_digit digits.1 (by decide) (.inl (by decide)),
      cons_append, canonicalLoop_digit digits.2.1 (by decide) (.inr lead),
      cons_append, canonicalLoop_digit digits.2.2 (by decide) (.inl (by decide)), nil_append]

/-- The loop passes over an octet and the dot behind it. -/
theorem OctetText.canonicalLoop_dot (octet : OctetText text) (octets : Nat) (previous : UInt8)
    (rest : Bytes) :
    Net.canonicalLoop 0 octets previous (text ++ 46 :: rest) =
      Net.canonicalLoop 0 (octets + 1) 46 rest := by
  obtain ⟨digits, last, positive, passed⟩ := octet.canonicalLoop octets previous (46 :: rest)
  rw [passed, Net.canonicalLoop, if_pos rfl, if_neg (Nat.ne_of_gt positive)]

theorem isCanonicalDottedQuad_of_inetPton4 {octets : Octets 4}
    (read : inetPton4 text = some octets) : isCanonicalDottedQuad text = true := by
  obtain ⟨p, q, r, s, first, second, third, fourth, rfl⟩ := inetPton4_text read
  obtain ⟨digits, last, positive, passed⟩ := fourth.canonicalLoop 4 46 []
  rw [append_nil] at passed
  rw [isCanonicalDottedQuad, first.canonicalLoop_dot, second.canonicalLoop_dot,
    third.canonicalLoop_dot, passed, canonicalLoop]
  simpa using positive

/-- A byte of a hexadecimal group. -/
def IsHex (c : UInt8) : Prop := hexValue c ≠ none

theorem isHex_of_isDigit (digit : isDigit c = true) : IsHex c := by
  simp only [isDigit, Bool.and_eq_true, decide_eq_true_eq] at digit
  rw [IsHex, hexValue, if_pos digit]
  exact nofun

theorem hexGroup_isHex (read : hexGroup text = some bytes) : ∀ c ∈ text, IsHex c := by
  unfold hexGroup at read
  split at read
  · cases read
  next digits mapped =>
    have each := forall₂_of_mapM mapped
    clear read mapped
    intro c member
    induction each with
    | nil => cases member
    | cons head _ ih =>
      rcases mem_cons.mp member with rfl | member
      · rw [IsHex, head]
        exact nofun
      · exact ih member

/-- An IPv6 text is groups and colons, with a last part that may be a dotted quad at the
end of the address. -/
def GroupsText (atEnd : Bool) (text : Bytes) : Prop :=
  ∃ front last, text = front ++ last ∧ (front = [] ∨ ∃ body, front = body ++ [58]) ∧
    (∀ c ∈ front, IsHex c ∨ c = 58) ∧
    ((∀ c ∈ last, IsHex c) ∨ (atEnd = true ∧ ∃ octets, inetPton4 last = some octets))

theorem lastGroup_text (read : lastGroup atEnd text = some bytes) : GroupsText atEnd text := by
  refine ⟨[], text, rfl, .inl rfl, nofun, ?_⟩
  unfold lastGroup at read
  split at read
  · next found => exact .inl (hexGroup_isHex found)
  split at read
  · next yes =>
      obtain ⟨octets, found, _⟩ := Option.map_eq_some_iff.mp read
      exact .inr ⟨yes, octets, found⟩
  · cases read

/-- Groups in front of a text. -/
theorem GroupsText.cons {front : Bytes} (later : GroupsText atEnd text)
    (hex : ∀ c ∈ front, IsHex c ∨ c = 58) : GroupsText atEnd (front ++ 58 :: text) := by
  obtain ⟨before, last, rfl, colon, bytes, shape⟩ := later
  refine ⟨front ++ 58 :: before, last, by simp, .inr ?_, ?_, shape⟩
  · rcases colon with rfl | ⟨body, rfl⟩
    · exact ⟨front, rfl⟩
    · exact ⟨front ++ 58 :: body, by simp⟩
  · intro c member
    rcases mem_append.mp member with first | second
    · exact hex c first
    rcases mem_cons.mp second with rfl | second
    · exact .inr rfl
    · exact bytes c second

theorem groups_text {pieces : List Bytes} (read : groups atEnd pieces = some bytes) :
    GroupsText atEnd ([58].intercalate pieces) := by
  induction pieces generalizing bytes with
  | nil => exact ⟨[], [], rfl, .inl rfl, nofun, .inl nofun⟩
  | cons group rest ih =>
    cases rest with
    | nil =>
      simpa using lastGroup_text read
    | cons next rest =>
      rw [groups] at read
      split at read
      · next found more =>
          exact (ih more).cons fun c member => .inl (hexGroup_isHex found c member)
      · cases read

theorem side_text (read : side atEnd text = some bytes) : GroupsText atEnd text := by
  unfold side at read
  split at read
  · next none' =>
      subst none'
      exact ⟨[], [], rfl, .inl rfl, nofun, .inl nofun⟩
  · have text' := groups_text read
    rwa [intercalate_splitOn] at text'

theorem splitGap_text {front back : Bytes} (cut : splitGap text = some (front, back)) :
    text = front ++ 58 :: 58 :: back := by
  fun_induction splitGap text generalizing front with
  | case1 => cases cut
  | case2 rest =>
    cases cut
    rfl
  | case3 c rest _ ih =>
    obtain ⟨⟨front', back'⟩, later, same⟩ := Option.map_eq_some_iff.mp cut
    cases same
    rw [ih later, cons_append]

theorem inetPton6_text {octets : Octets 16} (read : inetPton6 text = some octets) :
    GroupsText true text := by
  unfold inetPton6 at read
  split at read
  · obtain ⟨bytes, found, _⟩ := Option.bind_eq_some_iff.mp read
    have text' := groups_text found
    rwa [intercalate_splitOn] at text'
  next front back cut =>
    rw [splitGap_text cut]
    split at read
    · next left right =>
        obtain ⟨before, last, rfl, _, bytes, hex | ⟨never, _⟩⟩ := side_text left
        · have inner : GroupsText true ([] ++ 58 :: back) := (side_text right).cons nofun
          refine inner.cons fun c member => ?_
          rcases mem_append.mp member with first | second
          · exact bytes c first
          · exact .inl (hex c second)
        · cases never
    · cases read

theorem not_isHex_dot : ¬ IsHex 46 := by
  unfold IsHex
  decide

theorem inetPton4_bytes {octets : Octets 4} (read : inetPton4 text = some octets) :
    ∀ c ∈ text, isDigit c = true ∨ c = 46 := by
  obtain ⟨p, q, r, s, first, second, third, fourth, rfl⟩ := inetPton4_text read
  intro c member
  simp only [mem_append, mem_cons] at member
  rcases member with digit | dot | digit | dot | digit | dot | digit
  · exact .inl (first.isDigit c digit)
  · exact .inr dot
  · exact .inl (second.isDigit c digit)
  · exact .inr dot
  · exact .inl (third.isDigit c digit)
  · exact .inr dot
  · exact .inl (fourth.isDigit c digit)

theorem hasCanonicalEmbeddedIPv4_of_inetPton6 {octets : Octets 16}
    (read : inetPton6 text = some octets) : hasCanonicalEmbeddedIPv4 text = true := by
  unfold hasCanonicalEmbeddedIPv4
  split
  · rfl
  next dotted =>
    have member : (46 : UInt8) ∈ text := by
      by_contra missing
      exact dotted (find_eq_none.mpr missing)
    obtain ⟨front, last, rfl, colon, bytes, hex | ⟨_, octets, quad⟩⟩ := inetPton6_text read
    · rcases mem_append.mp member with first | second
      · exact ((bytes _ first).elim not_isHex_dot (by decide)).elim
      · exact absurd (hex _ second) not_isHex_dot
    · have noColon : (58 : UInt8) ∉ last := fun inside =>
        absurd (inetPton4_bytes quad _ inside) (by decide)
      rcases colon with rfl | ⟨body, rfl⟩
      · rw [nil_append, rfind_eq_none.mpr noColon]
        exact isCanonicalDottedQuad_of_inetPton4 quad
      rw [append_assoc, singleton_append, rfind_append_cons noColon]
      dsimp only
      rw [← drop_drop, drop_left]
      exact isCanonicalDottedQuad_of_inetPton4 quad

theorem stringToAddress4_eq (text : Bytes) :
    stringToAddress4 text = inetPton4 (unbracket text) := by
  unfold stringToAddress4
  split
  · next none' =>
      subst none'
      rfl
  split
  · next bad =>
      cases read : inetPton4 (unbracket text) with
      | none => rfl
      | some octets => simp [isCanonicalDottedQuad_of_inetPton4 read] at bad
  · rfl

theorem stringToAddress6_eq (text : Bytes) :
    stringToAddress6 text = inetPton6 (unbracket text) := by
  unfold stringToAddress6
  split
  · next none' =>
      subst none'
      rfl
  split
  · next bad =>
      cases read : inetPton6 (unbracket text) with
      | none => rfl
      | some octets => simp [hasCanonicalEmbeddedIPv4_of_inetPton6 read] at bad
  · rfl

/-- The address of a string is the literal that its C string spells. -/
theorem ofString_ip (some' : text ≠ []) :
    (InetAddress.ofString text).ip = literal (cString text) := by
  rw [InetAddress.ofString, if_neg some', stringToAddress4_eq, stringToAddress6_eq, literal]
  cases inetPton4 (unbracket (cString text)) with
  | some octets => rfl
  | none => cases inetPton6 (unbracket (cString text)) <;> rfl

theorem mem_unbracket (member : c ∈ text) : c ∈ unbracket text ∨ c = 91 ∨ c = 93 := by
  unfold unbracket
  split
  · next brackets =>
      obtain ⟨long, first, last⟩ := brackets
      obtain ⟨rest, rfl⟩ := head?_eq_some_iff.mp first
      obtain ⟨body, ends⟩ := getLast?_eq_some_iff.mp last
      cases body with
      | nil => simp [cons_eq_cons.mp ends] at long
      | cons head inner =>
        obtain ⟨rfl, rfl⟩ := cons_eq_cons.mp ends
        simpa [or_left_comm] using member
  · exact .inl member

/-- A literal is made of hexadecimal digits, dots, colons and brackets. -/
theorem literal_bytes {address : IpAddress} (read : literal text = some address) :
    ∀ c ∈ text, IsHex c ∨ c = 46 ∨ c = 58 ∨ c = 91 ∨ c = 93 := by
  have inside : ∀ c ∈ unbracket text, IsHex c ∨ c = 46 ∨ c = 58 := by
    unfold literal at read
    split at read
    · next octets quad =>
        intro c member
        exact (inetPton4_bytes quad c member).imp isHex_of_isDigit .inl
    obtain ⟨octets, found, _⟩ := Option.map_eq_some_iff.mp read
    obtain ⟨front, last, text', _, bytes, shape⟩ := inetPton6_text found
    rw [text']
    intro c member
    rcases mem_append.mp member with first | second
    · exact (bytes c first).imp_right .inr
    rcases shape with hex | ⟨_, octets, quad⟩
    · exact .inl (hex c second)
    · exact (inetPton4_bytes quad c second).imp isHex_of_isDigit .inl
  intro c member
  rcases mem_unbracket member with body | bracket
  · rcases inside c body with hex | dot | colon
    · exact .inl hex
    · exact .inr (.inl dot)
    · exact .inr (.inr (.inl colon))
  · exact .inr (.inr (.inr bracket))

/-- A text with any other byte in it is not a literal. -/
theorem literal_eq_none (member : c ∈ text)
    (other : ¬ (IsHex c ∨ c = 46 ∨ c = 58 ∨ c = 91 ∨ c = 93)) : literal text = none := by
  cases read : literal text with
  | none => rfl
  | some address => exact absurd (literal_bytes read c member) other

theorem cString_eq_self (noNul : (0 : UInt8) ∉ text) : cString text = text := by
  rw [cString, takeWhile_eq_self_iff]
  intro c member
  rw [bne_iff_ne]
  rintro rfl
  exact noNul member

end SamuraiFormal.Net
