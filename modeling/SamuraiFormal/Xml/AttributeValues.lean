import SamuraiFormal.Xml.Writing

/-!
# The length of an attribute value

A value as it is written is a list of bytes and references, which stands for the bytes they
expand to.  `append_text()` holds the value against `maxTextLength` together with the
character data of the innermost open element, which is the parent of the element whose start
tag is being read, and `append_reference()` wants four free bytes for a numeric reference
whatever it expands to.  Just where neither makes a difference, a value is taken if and only
if its expansion is within the limit.
-/

namespace SamuraiFormal.Xml

open Util
open Library.Loops

instance (stops : UInt8 → Bool) (item : ValueItem) : Decidable (item.Passes stops) :=
  match item with
  | .byte _ => inferInstanceAs (Decidable (_ = _))
  | .reference _ => inferInstanceAs (Decidable (_ ∧ _))

section Reading

variable {text rest : Bytes} {limits : Limits} {reported pos : Nat} {quote : UInt8}

/-- A value is read if there is room for each of its items, and refused otherwise. -/
theorem parseValue_items (other : quote ≠ ampersand) {items : List ValueItem}
    (valid : ∀ item ∈ items, item.Passes (stopsValue quote))
    (seen : At text pos (writeValue items ++ quote :: rest)) :
    (hasRoom limits reported 0 items = true ∧
      parseValue text limits reported quote pos =
        some (.ok (expandValue items, pos + (writeValue items).length + 1)) ∧
      (expandValue items).length ≤ limits.maxTextLength) ∨
    (hasRoom limits reported 0 items = false ∧
      ∃ stop, parseValue text limits reported quote pos =
        some (.error (.sizeExceeded, stop))) := by
  have inside : pos ≤ text.length := by
    have := seen.skip.lt_length
    omega
  obtain ⟨scan, returns, keeps⟩ := parseValue_keeps limits reported quote inside
  have stops (c : UInt8) (stop : c = quote ∨ c = ampersand) : stopsValue quote c = true := by
    rcases stop with rfl | rfl <;> simp [stopsValue]
  have ended : PiecesEnd limits reported pos [] (valueTurn text limits reported quote) items :=
    reaches_items (valueTurn_takesPieces text limits reported other) (stops _ (.inr rfl))
      (stops _ (.inl rfl)) valid seen
  cases ended with
  | reads room reaches =>
    have read := loop_of_reaches reaches (valueTurn_closes seen.skip.here _) returns
    refine .inl ⟨room, read, ?_⟩
    rw [parseValue, read, Option.some.injEq] at returns
    rw [← returns] at keeps
    exact keeps.2.2.length_le
  | refuses full reaches ends =>
    exact .inr ⟨full, _, loop_of_reaches reaches ends returns⟩

end Reading

/-- An attribute is taken exactly if what its value stands for is within the limit, just where
that is too long anyway or where there is room for each item behind those in front of it.  An
attribute that is not taken is refused for its size. -/
theorem attribute_accepted_iff {σ : Type} (parser : XmlParser σ) {text rest : Bytes}
    {limits : Limits} {pos start first : Nat} {attributes : Attributes}
    {nsPrefix name : Bytes} {quote : UInt8} {items : List ValueItem}
    (named : parseName text limits (skipSpace text pos) = .ok ((nsPrefix, name), start))
    (opened : openValue text start = .ok (quote, first))
    (valid : ∀ item ∈ items, item.Passes (stopsValue quote))
    (seen : At text first (writeValue items ++ quote :: rest))
    (few : attributes.length < limits.maxAttributes) :
    ((attributeTurn text limits parser.reported (pos, attributes) =
        some (.inl (first + (writeValue items).length + 1,
          attributes ++ [(qualified nsPrefix name, expandValue items)])) ↔
      (expandValue items).length ≤ limits.maxTextLength) ↔
        limits.maxTextLength < (expandValue items).length ∨
          hasRoom limits parser.reported 0 items = true) ∧
    (attributeTurn text limits parser.reported (pos, attributes) =
        some (.inl (first + (writeValue items).length + 1,
          attributes ++ [(qualified nsPrefix name, expandValue items)])) ∨
      ∃ stop, attributeTurn text limits parser.reported (pos, attributes) =
        some (.inr (.error (.sizeExceeded, stop)))) := by
  have inside : skipSpace text pos ≤ text.length := by
    by_contra outside
    rw [parseName, List.getElem?_eq_none (Nat.not_le.mp outside).le] at named
    cases named
  obtain ⟨-, within, nameRead⟩ := (parseName_keeps limits inside).read named
  obtain ⟨c, here, starts⟩ := nameRead.starts
  have other : quote ≠ ampersand := by
    rcases ((openValue_keeps within).read opened).2.2.quoted with rfl | rfl <;> decide
  rw [attributeTurn_of_nameStart here starts]
  rcases @parseValue_items text rest limits parser.reported first quote other items valid seen with
    ⟨room, read, fits⟩ | ⟨full, stop, refused⟩
  · have scanned : parseAttribute text limits parser.reported (skipSpace text pos) =
        some (.ok ((qualified nsPrefix name, expandValue items),
          first + (writeValue items).length + 1)) := by
      simp only [parseAttribute, named, opened, read]
    rw [scanned]
    dsimp only
    rw [if_neg (Nat.not_le.mpr few)]
    exact ⟨⟨fun _ => .inr room, fun _ => ⟨fun _ => fits, fun _ => rfl⟩⟩, .inl rfl⟩
  · have scanned : parseAttribute text limits parser.reported (skipSpace text pos) =
        some (.error (.sizeExceeded, stop)) := by
      simp only [parseAttribute, named, opened, refused]
    rw [scanned, full]
    refine ⟨?_, .inr ⟨stop, rfl⟩⟩
    simp only [Option.some.injEq, reduceCtorEq, false_iff, Bool.false_eq_true, or_false, Nat.not_le]

/-- A byte and a numeric reference, in a start tag inside of an element with four bytes of
text, with room for five. -/
theorem attribute_accepted_iff_reference :
    attributeTurn (ascii "<a b='x&#65;'>") { maxTextLength := 5 } 4 (2, []) =
        some (.inl (13, [(ascii "b", ascii "xA")])) ↔ (ascii "xA").length ≤ 5 :=
  (@attribute_accepted_iff Unit
    { stack := [⟨[], ascii "p", 4⟩], sink := () } (ascii "<a b='x&#65;'>") (ascii ">")
    { maxTextLength := 5 } 2 4 6 [] [] (ascii "b") apostrophe
    [.byte 120, .reference (ascii "#65")]
    rfl rfl (by decide) (by unfold At; decide) (by decide)).1.mpr (by decide)

/-- A value of two bytes is refused where the element around it has four bytes of text, with
room for five, and one of a single byte where its reference is numeric, with room for
three. -/
theorem attribute_refused_by_text :
    (XmlReader.parse (ascii "<a><b c='xy'/></a>") { maxTextLength := 5 }).map
        XmlReading.error = some .ok ∧
    (XmlReader.parse (ascii "<a>wxyz<b c='xy'/></a>") { maxTextLength := 5 }).map
        XmlReading.error = some .sizeExceeded ∧
    (XmlReader.parse (ascii "<b c='A'/>") { maxTextLength := 3 }).map
        XmlReading.error = some .ok ∧
    (XmlReader.parse (ascii "<b c='&#65;'/>") { maxTextLength := 3 }).map
        XmlReading.error = some .sizeExceeded := by
  refine ⟨?_, ?_, ?_, ?_⟩
  · decide +kernel
  · decide +kernel
  · decide +kernel
  · decide +kernel

end SamuraiFormal.Xml
