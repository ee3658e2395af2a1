import SamuraiFormal.Xml.Writing

/-!
# End tags and the elements they close

`parse_end_tag()` compares the local name of an end tag with that of the innermost open
element, as names are matched everywhere in this parser.  The prefixes are not compared, so
the end of `a:b` may be written `c:b`.  Every end of an accepted document carries the local
name of the start that it closes, and an end tag with another one ends the parse with
`Mismatch`.
-/

namespace SamuraiFormal.Xml

open Util
open Library.Loops

/-- The local names of the elements that are open after an event, the innermost one first;
an end has to carry the name of the innermost element. -/
def Event.nest (opened : List Bytes) : Event → Option (List Bytes)
  | .startElement _ name _ => some (name :: opened)
  | .endElement _ name =>
    match opened with
    | [] => none
    | top :: rest => if top = name then some rest else none
  | .characters _ => some opened
  | .startDocument => some opened
  | .endDocument => some opened

def nests (events : List Event) : Option (List Bytes) := events.foldlM Event.nest []

theorem nests_snoc (events : List Event) (event : Event) :
    nests (events ++ [event]) = (nests events).bind event.nest := by
  rw [nests, List.foldlM_append]
  congr 1
  funext opened
  rw [List.foldlM_cons]
  cases event.nest opened <;> rfl

theorem nests_document (events : List Event) :
    nests (.startDocument :: (events ++ [.endDocument])) = nests events := by
  have inner : nests (.startDocument :: (events ++ [.endDocument])) =
      nests (events ++ [.endDocument]) := rfl
  rw [inner, nests_snoc]
  cases nests events <;> rfl

variable {parser : XmlParser (List Event)}

variable {nsPrefix name : Bytes} {stop : Nat}

namespace XmlParser

variable {σ : Type} {sink : Sink σ} {text : Bytes} {limits : Limits}

def openNames (parser : XmlParser σ) : List Bytes := parser.stack.map Open.name

/-- An end tag is neither a section nor a comment. -/
theorem turn_of_slash {parser : XmlParser σ}
    (seen : lookingAt text parser.pos (ascii "</") = true) :
    turn sink text limits parser = some (proceed (parseEndTag sink text limits parser)) := by
  have spelled : At text parser.pos (lessThan :: 47 :: (text.drop parser.pos).drop 2) :=
    At.of_lookingAt seen
  have misc : skipMisc text parser.pos = .ok (false, parser.pos) := by
    rw [skipMisc, show ascii "<!--" = 60 :: 33 :: ascii "--" from rfl,
      spelled.lookingAt_second (by decide), show ascii "<?" = 60 :: 63 :: [] from rfl,
      spelled.lookingAt_second (by decide), show ascii "<!" = 60 :: 33 :: [] from rfl,
      spelled.lookingAt_second (by decide)]
    rfl
  rw [turn, spelled.here]
  dsimp only
  rw [if_neg (not_not.mpr rfl), markupTurn,
    show ascii "<![CDATA[" = 60 :: 33 :: ascii "[CDATA[" from rfl,
    spelled.lookingAt_second (by decide), if_neg Bool.false_ne_true, misc]
  rw [if_pos seen]

/-- A complete end tag is held against the element that is open. -/
theorem parseEndTag_of_readEndTag (sink : Sink σ) {parser : XmlParser σ}
    (tag : readEndTag text limits parser.pos = some ((nsPrefix, name), stop)) :
    lookingAt text parser.pos (ascii "</") = true ∧
      parseEndTag sink text limits parser =
        closeElement sink { parser with pos := stop } nsPrefix name := by
  unfold readEndTag at tag
  split at tag
  case isFalse => cases tag
  case isTrue seen =>
    refine ⟨seen, ?_⟩
    split at tag
    case h_1 => cases tag
    case h_2 read =>
      split at tag
      case isFalse => cases tag
      case isTrue ends =>
        cases tag
        rw [parseEndTag, read]
        dsimp only
        rw [ends]
        dsimp only
        rw [if_neg (not_not.mpr rfl)]

/-- The events so far nest, and what they leave open is the parser's stack. -/
def Nested (parser : XmlParser (List Event)) : Prop := nests parser.sink = some parser.openNames

theorem Nested.turn {next : XmlParser (List Event)} (nested : Nested parser)
    (turned : Turn text limits parser (.inl next)) : Nested next := by
  cases turned with
  | skips => exact nested
  | gathers =>
    rw [Nested, gathered, nests_snoc, nested, Option.bind_some, openNames]
    cases stack : parser.stack with
    | nil => rfl
    | cons top rest => rfl
  | opens =>
    rw [Nested, opened, nests_snoc, nested]
    rfl
  | empties =>
    rw [Nested, closed, opened, nests_snoc, nests_snoc, nested, Option.bind_some,
      Event.nest, Option.bind_some, Event.nest, if_pos rfl]
    rfl
  | @closes pos nsPrefix top rest on inside stack tag =>
    have names :
        parser.openNames = top.name :: (parser.closed pos nsPrefix top.name).openNames := by
      rw [openNames, openNames, closed, stack]
      rfl
    rw [Nested, names] at nested
    rw [Nested, closed, nests_snoc, nested, Option.bind_some, Event.nest, if_pos rfl]
    rfl

theorem nested_of_reaches
    (reaches : Reaches (XmlParser.turn handlerSink text limits) (start text []) parser) :
    parser.pos ≤ text.length ∧ Nested parser := by
  induction reaches with
  | refl => exact ⟨start_inside text [], rfl⟩
  | tail before goes ih =>
    have turned := turn_cases ih.1 goes
    exact ⟨turned.inside.2, ih.2.turn turned⟩

/-- A complete end tag that does not name the open element ends the parse. -/
theorem turn_mismatch (tag : readEndTag text limits parser.pos = some ((nsPrefix, name), stop))
    (other : parser.openNames.head? ≠ some name) :
    XmlParser.turn handlerSink text limits parser =
      some (.inr (.mismatch, { parser with pos := stop })) := by
  obtain ⟨seen, closing⟩ := parseEndTag_of_readEndTag handlerSink tag
  rw [turn_of_slash seen, closing, closeElement]
  cases stack : parser.stack with
  | nil => simp [proceed]
  | cons top rest =>
    have different : top.name ≠ name := by
      rintro rfl
      simp [openNames, stack] at other
    simp [different, proceed]

end XmlParser

/-- The ends of an accepted document carry the local names of the starts they close, and an
end tag that does not name the element that is open is refused as a mismatch. -/
theorem XmlReader.end_tags_match (text : Bytes) (limits : Limits) :
    ∃ reading, XmlReader.parse text limits = some reading ∧
      (reading.error = .ok → nests reading.events = some []) ∧
      ∀ parser nsPrefix name stop, text.length ≤ limits.maxDocumentSize →
        Reaches (XmlParser.turn handlerSink text limits) (XmlParser.start text []) parser →
        readEndTag text limits parser.pos = some ((nsPrefix, name), stop) →
        parser.openNames.head? ≠ some name →
        reading.error = .mismatch ∧ reading.errorOffset = stop := by
  obtain ⟨error, last, returns, -⟩ := XmlParser.run_folds text limits
  rw [XmlReader.parse_eq, returns]
  have looped (fits : ¬ limits.maxDocumentSize < text.length) :
      loop (XmlParser.turn handlerSink text limits) (text.length + 1)
        (XmlParser.start text []) = some (error, last) := by
    rw [XmlParser.run, if_neg fits] at returns
    exact returns
  refine ⟨_, rfl, ?_, ?_⟩
  · rintro rfl
    have fits : ¬ limits.maxDocumentSize < text.length := by
      intro large
      rw [XmlParser.run, if_pos large] at returns
      cases returns
    obtain ⟨parser, reaches, ends⟩ := loop_last (looped fits)
    obtain ⟨inside, nested⟩ := XmlParser.nested_of_reaches reaches
    cases XmlParser.turn_cases inside ends with
    | accepts past closed had =>
      simp only [if_true]
      rw [nests_document, nested, XmlParser.openNames, closed]
      rfl
    | refuses failed => exact absurd rfl failed
  · intro parser nsPrefix name stop small reaches tag other
    have fits := Nat.not_lt.mpr small
    have result := loop_of_reaches reaches (XmlParser.turn_mismatch tag other) (looped fits)
    rw [looped fits] at result
    cases result
    exact ⟨rfl, rfl⟩

/-- The end tag of another prefix is accepted, and reported as it is written. -/
theorem XmlReader.end_tag_of_another_prefix :
    ∃ reading, XmlReader.parse (ascii "<a:b></c:b>") {} = some reading ∧ reading.error = .ok ∧
      reading.events = [.startDocument, .startElement (ascii "a") (ascii "b") [],
        .endElement (ascii "c") (ascii "b"), .endDocument] := by
  have outcome : (XmlReader.parse (ascii "<a:b></c:b>") {}).map
      (fun reading => (reading.error, reading.events)) =
        some (.ok, [.startDocument, .startElement (ascii "a") (ascii "b") [],
          .endElement (ascii "c") (ascii "b"), .endDocument]) := by
    decide +kernel
  obtain ⟨reading, parsed, same⟩ := Option.map_eq_some_iff.mp outcome
  injection same with ok events
  exact ⟨reading, parsed, ok, events⟩

end SamuraiFormal.Xml
