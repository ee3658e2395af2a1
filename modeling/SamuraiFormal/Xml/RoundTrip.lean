import SamuraiFormal.Xml.EndTags

/-!
# Writing and parsing a tree

A tree that is written out and keeps to the limits is parsed as itself.  The tree is kept as
it is written: text and children in turn, so that the text that an element has got in front
of each child is known.  That matters because the parser holds the values of a child's
attributes against the text reported for the element around it.
-/

namespace SamuraiFormal.Xml

open Util
open Library.Loops
open List

mutual

inductive Node where
  | element (nsPrefix name : Bytes) (attributes : List Attribute) (content : Content)

/-- Text, or text, a child and what follows it. -/
inductive Content where
  | last (text : Bytes)
  | more (text : Bytes) (child : Node) (rest : Content)

end

def startTag (nsPrefix name : Bytes) (attributes : List Attribute) : Bytes :=
  lessThan :: (qualified nsPrefix name ++ (attributes.flatMap Attribute.write ++ [greaterThan]))

def endTag (nsPrefix name : Bytes) : Bytes :=
  lessThan :: 47 :: (qualified nsPrefix name ++ [greaterThan])

/-- The event of a run of character data, if there is any. -/
def charactersOf (text : Bytes) : List Event := if text = [] then [] else [.characters text]

mutual

def Node.write : Node → Bytes
  | .element nsPrefix name attributes content =>
    startTag nsPrefix name attributes ++ (content.write ++ endTag nsPrefix name)

def Content.write : Content → Bytes
  | .last text => xmlEscape text
  | .more text child rest => xmlEscape text ++ (child.write ++ rest.write)

end

mutual

def Node.events : Node → List Event
  | .element nsPrefix name attributes content =>
    .startElement nsPrefix name (attributes.map Attribute.entry) ::
      (content.events ++ [.endElement nsPrefix name])

def Content.events : Content → List Event
  | .last text => charactersOf text
  | .more text child rest => charactersOf text ++ (child.events ++ rest.events)

end

mutual

def Node.size : Node → Nat
  | .element _ _ _ content => content.size + 1

def Content.size : Content → Nat
  | .last _ => 0
  | .more _ child rest => child.size + rest.size

end

def Content.text : Content → Bytes
  | .last text => text
  | .more text _ rest => text ++ rest.text

mutual

/-- The element that is written. -/
def Node.tree : Node → XmlElement
  | .element nsPrefix name attributes content =>
    { nsPrefix
      name
      attributes := attributes.map Attribute.entry
      text := content.text
      children := content.children }

def Content.children : Content → List XmlElement
  | .last _ => []
  | .more _ child rest => child.tree :: rest.children

end

/-- The limits on a start tag, inside so many elements and behind so much text. -/
structure TagFits (limits : Limits) (depth reported : Nat) (nsPrefix name : Bytes)
    (attributes : List Attribute) : Prop where
  prefixed : isPrefix nsPrefix = true
  named : isName name = true
  short : (qualified nsPrefix name).length ≤ limits.maxNameLength
  depth : depth < limits.maxDepth
  room : attributes.length ≤ limits.maxAttributes
  attributes : ∀ entry ∈ attributes, entry.Fits limits reported

mutual

/-- A node keeps to the limits, inside so many elements and behind so much text. -/
def Node.Fits (limits : Limits) : Nat → Nat → Node → Prop
  | depth, reported, .element nsPrefix name attributes content =>
    TagFits limits depth reported nsPrefix name attributes ∧
      content.Fits limits (depth + 1) 0

def Content.Fits (limits : Limits) : Nat → Nat → Content → Prop
  | _, reported, .last text => reported + text.length ≤ limits.maxTextLength
  | depth, reported, .more text child rest =>
    reported + text.length ≤ limits.maxTextLength ∧
      child.Fits limits depth (reported + text.length) ∧
      rest.Fits limits depth (reported + text.length)

end

variable {nsPrefix name : Bytes} {outer : List Open}

variable {top : Open} {value : Bytes}

namespace XmlParser

variable {text rest : Bytes} {limits : Limits} {parser : XmlParser (List Event)}

/-- A start tag that may be opened is read up to its attributes. -/
theorem turn_tag (limits : Limits) {d : UInt8} (prefixed : isPrefix nsPrefix = true)
    (named : isName name = true) (short : (qualified nsPrefix name).length ≤ limits.maxNameLength)
    (few : parser.elements + 1 ≤ limits.maxElements)
    (depth : parser.stack.length < limits.maxDepth)
    (single : parser.stack = [] → parser.hadRoot = false)
    (seen : At text parser.pos (lessThan :: (qualified nsPrefix name ++ d :: rest)))
    (stops : (isNameChar d || d == colon) = false) :
    turn handlerSink text limits parser =
      match parseAttributes text limits parser.reported
          (parser.pos + 1 + (qualified nsPrefix name).length) with
      | none => none
      | some (.error (error, pos)) =>
        some (proceed (error, { parser with pos, elements := parser.elements + 1 }))
      | some (.ok ((attributes, empty), pos)) =>
        some (proceed (openElement handlerSink
          { parser with pos, elements := parser.elements + 1 }
          nsPrefix name attributes empty)) := by
  obtain ⟨c, later, whole, starts, -⟩ := qualified_cons prefixed named
  obtain ⟨-, -, bang, question, slash⟩ := isNameStart_facts starts
  have start : At text parser.pos (lessThan :: c :: (later ++ d :: rest)) := by
    rw [At, seen, whole]
    rfl
  have misc : skipMisc text parser.pos = .ok (false, parser.pos) := by
    rw [skipMisc, show ascii "<!--" = 60 :: 33 :: ascii "--" from rfl,
      start.lookingAt_second bang, show ascii "<?" = 60 :: 63 :: [] from rfl,
      start.lookingAt_second question, show ascii "<!" = 60 :: 33 :: [] from rfl,
      start.lookingAt_second bang]
    rfl
  have long : ¬ text.length ≤ parser.pos + 1 := by
    have := start.next.lt_length
    omega
  have second : ¬ (parser.stack = [] ∧ parser.hadRoot = true) := by
    rintro ⟨none, had⟩
    rw [single none] at had
    cases had
  have tag : turn handlerSink text limits parser =
      (parseElement handlerSink text limits parser).map proceed := by
    rw [turn, start.here]
    dsimp only
    rw [if_neg (not_not.mpr rfl), markupTurn,
      show ascii "<![CDATA[" = 60 :: 33 :: ascii "[CDATA[" from rfl, start.lookingAt_second bang,
      if_neg Bool.false_ne_true, misc, show ascii "</" = 60 :: 47 :: [] from rfl,
      start.lookingAt_second slash]
    rw [if_neg Bool.false_ne_true, if_neg long]
  have parsed := parseName_eq prefixed named short seen.next stops
  have reported : reported { parser with
      pos := parser.pos + 1, elements := parser.elements + 1 } = parser.reported := rfl
  rcases read : parseAttributes text limits parser.reported
    (parser.pos + 1 + (qualified nsPrefix name).length) with
    _ | ⟨error, stop⟩ | ⟨⟨attributes, empty⟩, stop⟩
  all_goals simp only [tag, parseElement, if_neg (Nat.not_lt.mpr few),
    if_neg (Nat.not_le.mpr depth), if_neg second, parsed, reported, read, Option.map_none,
    Option.map_some]

theorem attributes_head (attributes : List Attribute) (rest : Bytes) :
    ∃ d later, attributes.flatMap Attribute.write ++ greaterThan :: rest = d :: later ∧
      (isNameChar d || d == colon) = false := by
  cases attributes with
  | nil => exact ⟨greaterThan, rest, rfl, rfl⟩
  | cons entry attributes => exact ⟨space, _, rfl, rfl⟩

theorem turn_startTag {attributes : List Attribute}
    (fits : TagFits limits parser.stack.length parser.reported nsPrefix name attributes)
    (few : parser.elements + 1 ≤ limits.maxElements)
    (single : parser.stack = [] → parser.hadRoot = false)
    (seen : At text parser.pos (startTag nsPrefix name attributes ++ rest)) :
    turn handlerSink text limits parser =
      some (.inl (parser.opened (parser.pos + (startTag nsPrefix name attributes).length)
        nsPrefix name (attributes.map Attribute.entry))) := by
  have spelled : At text parser.pos (lessThan :: (qualified nsPrefix name ++
      (attributes.flatMap Attribute.write ++ greaterThan :: rest))) := by
    rw [At, seen, startTag]
    simp
  obtain ⟨d, later, head, stops⟩ := attributes_head attributes rest
  have named : At text parser.pos (lessThan :: (qualified nsPrefix name ++ d :: later)) := by
    rw [← head]
    exact spelled
  have size : parser.pos + 1 + (qualified nsPrefix name).length +
      (attributes.flatMap Attribute.write).length + 1 =
        parser.pos + (startTag nsPrefix name attributes).length := by
    rw [startTag]
    simp only [length_cons, length_append, length_nil]
    omega
  rw [turn_tag limits fits.prefixed fits.named fits.short few fits.depth single named stops,
    parseAttributes_eq fits.attributes fits.room spelled.next.skip, size]
  rfl

theorem turn_endTag (prefixed : isPrefix nsPrefix = true) (named : isName name = true)
    (short : (qualified nsPrefix name).length ≤ limits.maxNameLength)
    (stack : parser.stack = top :: outer) (same : top.name = name)
    (seen : At text parser.pos (endTag nsPrefix name ++ rest)) :
    turn handlerSink text limits parser =
      some (.inl (parser.closed (parser.pos + (endTag nsPrefix name).length) nsPrefix name)) := by
  have spelled : At text parser.pos (lessThan :: 47 :: (qualified nsPrefix name ++
      greaterThan :: rest)) := by
    rw [At, seen, endTag]
    simp
  have ends : lookingAt text parser.pos (ascii "</") = true := by
    rw [spelled.lookingAt_eq]
    rfl
  have behind : At text (parser.pos + 2 + (qualified nsPrefix name).length)
      (greaterThan :: rest) := spelled.next.next.skip
  have size : parser.pos + 2 + (qualified nsPrefix name).length + 1 =
      parser.pos + (endTag nsPrefix name).length := by
    rw [endTag]
    simp only [length_cons, length_append, length_nil]
    omega
  have tag : parseEndTag handlerSink text limits parser =
      (.ok, parser.closed (parser.pos + (endTag nsPrefix name).length) nsPrefix name) := by
    rw [parseEndTag, parseName_eq prefixed named short spelled.next.next rfl]
    dsimp only
    rw [behind.skipSpace_eq rfl, behind.here]
    dsimp only
    rw [size, closeElement]
    simp only [stack, closed, same, ne_eq]
    rfl
  rw [turn_of_slash ends, tag, proceed_ok]

theorem turn_text (stack : parser.stack = top :: outer) (some' : value ≠ [])
    (fits : parser.reported + value.length ≤ limits.maxTextLength)
    (seen : At text parser.pos (xmlEscape value ++ lessThan :: rest)) :
    turn handlerSink text limits parser =
      some (.inl (parser.gathered (parser.pos + (xmlEscape value).length) value)) := by
  obtain ⟨c, later, head, data⟩ := escaped_head some' (lessThan :: rest)
  have here : text[parser.pos]? = some c := by
    rw [head] at seen
    exact seen.here
  have within : parser.stack ≠ [] := by
    rw [stack]
    exact cons_ne_nil _ _
  obtain ⟨b, value, rfl⟩ := exists_cons_of_ne_nil some'
  rw [turn, here]
  dsimp only
  rw [if_pos data, dataTurn, if_neg within, parseText, gatherText_eq seen some' fits]
  rfl

/-! ## Whole trees -/

/-- The parser behind a piece of an element's content: so many bytes and elements further,
with so much more text for the element that is open. -/
def behind (parser : XmlParser (List Event)) (length count added : Nat) (events : List Event) :
    XmlParser (List Event) where
  pos := parser.pos + length
  elements := parser.elements + count
  hadRoot := parser.hadRoot || parser.stack.isEmpty
  stack := parser.stack.modifyHead fun top => { top with textLength := top.textLength + added }
  sink := parser.sink ++ events

theorem behind_behind (parser : XmlParser (List Event)) (length count added : Nat)
    (events : List Event) (length' count' added' : Nat) (events' : List Event) :
    (parser.behind length count added events).behind length' count' added' events' =
      parser.behind (length + length') (count + count') (added + added') (events ++ events') := by
  cases stack : parser.stack with
  | nil | cons top outer => simp [behind, stack, Nat.add_assoc]

theorem behind_text (stack : parser.stack = top :: outer) (length added : Nat)
    (events : List Event) :
    parser.behind length 0 added events =
      { parser with
        pos := parser.pos + length
        stack := { top with textLength := top.textLength + added } :: outer
        sink := parser.sink ++ events } := by
  simp [behind, stack]

/-- Character data between markup is read in one turn, or there is none. -/
theorem reaches_text (stack : parser.stack = top :: outer)
    (fits : top.textLength + value.length ≤ limits.maxTextLength)
    (seen : At text parser.pos (xmlEscape value ++ lessThan :: rest)) :
    Reaches (turn handlerSink text limits) parser
      (parser.behind (xmlEscape value).length 0 value.length (charactersOf value)) := by
  rw [behind_text stack]
  by_cases empty : value = []
  · have same : ({ parser with
        pos := parser.pos + (xmlEscape value).length
        stack := { top with textLength := top.textLength + value.length } :: outer
        sink := parser.sink ++ charactersOf value } : XmlParser (List Event)) = parser := by
      rw [empty, charactersOf, if_pos rfl, append_nil, length_nil, Nat.add_zero,
        show (xmlEscape []).length = 0 from rfl, Nat.add_zero, ← stack]
    rw [same]
    exact .refl
  · apply Relation.ReflTransGen.single
    have reported : parser.reported = top.textLength := by
      rw [XmlParser.reported, stack]
    rw [turn_text stack empty (by rwa [reported]) seen, gathered, stack, charactersOf,
      if_neg empty]
    rfl

/-- A start tag and the text behind it, up to the next markup. -/
theorem reaches_opening (limits : Limits) (parser : XmlParser (List Event))
    {attributes : List Attribute}
    (fits : TagFits limits parser.stack.length parser.reported nsPrefix name attributes)
    (few : parser.elements + 1 ≤ limits.maxElements)
    (single : parser.stack = [] → parser.hadRoot = false)
    (short : value.length ≤ limits.maxTextLength) (markup : rest.head? = some lessThan)
    (seen : At text parser.pos (startTag nsPrefix name attributes ++ (xmlEscape value ++ rest))) :
    ∃ next, Reaches (turn handlerSink text limits) parser next ∧
      At text next.pos rest ∧ next.elements = parser.elements + 1 ∧
      next.stack = { nsPrefix, name, textLength := value.length } :: parser.stack := by
  obtain ⟨later, rfl⟩ := head?_eq_some_iff.mp markup
  have first := turn_startTag fits few single seen
  let inner := parser.opened (parser.pos + (startTag nsPrefix name attributes).length)
    nsPrefix name (attributes.map Attribute.entry)
  have stack : inner.stack = { nsPrefix, name } :: parser.stack := rfl
  have second := reaches_text stack (by rwa [Nat.zero_add]) seen.skip
  rw [behind_text stack] at second
  refine ⟨_, Relation.ReflTransGen.head first second, seen.skip.skip, rfl, ?_⟩
  rw [Nat.zero_add]

/-- The parser behind a whole element is the one in front of it, with the element's events. -/
theorem closed_behind {attributes : Attributes} (opening length count added closing : Nat)
    (events : List Event) :
    (((parser.opened (parser.pos + opening) nsPrefix name attributes).behind length count added
      events).closed (parser.pos + opening + length + closing) nsPrefix name) =
      parser.behind (opening + (length + closing)) (count + 1) 0
        (.startElement nsPrefix name attributes :: (events ++ [.endElement nsPrefix name])) := by
  cases stack : parser.stack with
  | nil | cons top outer =>
    simp [closed, behind, opened, stack, Nat.add_assoc, Nat.add_comm 1 count]

end XmlParser

open XmlParser

/-- What a start tag starts with. -/
theorem Node.write_cons (node : Node) : ∃ later, node.write = lessThan :: later := by
  cases node with
  | element nsPrefix name attributes content =>
    exact ⟨_, rfl⟩

mutual

/-- An element that is written is read back as its events. -/
theorem Node.reaches {text rest : Bytes} {limits : Limits} (node : Node)
    (parser : XmlParser (List Event))
    (fits : node.Fits limits parser.stack.length parser.reported)
    (few : parser.elements + node.size ≤ limits.maxElements)
    (single : parser.stack = [] → parser.hadRoot = false)
    (seen : At text parser.pos (node.write ++ rest)) :
    Reaches (turn handlerSink text limits) parser
      (parser.behind node.write.length node.size 0 node.events) := by
  cases node with
  | element nsPrefix name attributes content =>
    rw [Node.Fits] at fits
    obtain ⟨tag, inside⟩ := fits
    rw [Node.size] at few
    rw [Node.write, append_assoc] at seen
    have first := turn_startTag tag (by omega) single seen
    have open' : At text (parser.pos + (startTag nsPrefix name attributes).length)
        (content.write ++ lessThan ::
          (47 :: (qualified nsPrefix name ++ [greaterThan]) ++ rest)) := by
      have after := seen.skip
      rw [append_assoc] at after
      exact after
    let inner := parser.opened (parser.pos + (startTag nsPrefix name attributes).length)
      nsPrefix name (attributes.map Attribute.entry)
    have stack : inner.stack = { nsPrefix, name } :: parser.stack := rfl
    have counted : inner.elements + content.size ≤ limits.maxElements := by
      have one : inner.elements = parser.elements + 1 := rfl
      omega
    have second := Content.reaches content stack inside counted open'
    have third : turn handlerSink text limits (inner.behind content.write.length content.size
        content.text.length content.events) = some (.inl ((inner.behind content.write.length
          content.size content.text.length content.events).closed
            (parser.pos + (startTag nsPrefix name attributes).length + content.write.length +
              (endTag nsPrefix name).length) nsPrefix name)) :=
      turn_endTag tag.prefixed tag.named tag.short rfl rfl open'.skip
    have size : (startTag nsPrefix name attributes ++ (content.write ++
        endTag nsPrefix name)).length = (startTag nsPrefix name attributes).length +
          (content.write.length + (endTag nsPrefix name).length) := by
      rw [length_append, length_append]
    rw [closed_behind] at third
    rw [Node.write, Node.size, Node.events, size]
    exact Relation.ReflTransGen.head first (second.tail third)

theorem Content.reaches {text rest : Bytes} {limits : Limits} (content : Content)
    {parser : XmlParser (List Event)} {top : Open} {outer : List Open}
    (stack : parser.stack = top :: outer)
    (fits : content.Fits limits (outer.length + 1) top.textLength)
    (few : parser.elements + content.size ≤ limits.maxElements)
    (seen : At text parser.pos (content.write ++ lessThan :: rest)) :
    Reaches (turn handlerSink text limits) parser
      (parser.behind content.write.length content.size content.text.length content.events) := by
  cases content with
  | last value =>
    rw [Content.Fits] at fits
    rw [Content.write] at seen ⊢
    exact reaches_text stack fits seen
  | more value child others =>
    rw [Content.Fits] at fits
    obtain ⟨short, childFits, othersFit⟩ := fits
    rw [Content.size] at few
    rw [Content.write, append_assoc, append_assoc] at seen
    have texted : At text parser.pos (xmlEscape value ++ lessThan :: (child.write ++
        (others.write ++ lessThan :: rest)).tail) := by
      obtain ⟨later, starts⟩ := child.write_cons
      rw [starts] at seen ⊢
      exact seen
    have first := reaches_text stack short texted
    let next := parser.behind (xmlEscape value).length 0 value.length (charactersOf value)
    have nextStack : next.stack =
        { top with textLength := top.textLength + value.length } :: outer := by
      rw [show next = _ from behind_text stack _ _ _]
    have depth : next.stack.length = outer.length + 1 := by
      rw [nextStack, length_cons]
    have reported : next.reported = top.textLength + value.length := by
      rw [XmlParser.reported, nextStack]
    have inside : next.stack = [] → next.hadRoot = false := by
      rw [nextStack]
      exact fun none => absurd none (cons_ne_nil _ _)
    have second := child.reaches next (by rwa [depth, reported])
      (by rw [show next.elements = parser.elements from rfl]; omega) inside seen.skip
    let last := next.behind child.write.length child.size 0 child.events
    have lastStack : last.stack =
        { top with textLength := top.textLength + value.length } :: outer := by
      rw [show last.stack = next.stack.modifyHead _ from rfl, nextStack]
      rfl
    have third := others.reaches lastStack othersFit
      (by
        rw [show last.elements = parser.elements + child.size from rfl]
        omega)
      seen.skip.skip
    have chain := first.trans (second.trans third)
    have place : last.behind others.write.length others.size others.text.length others.events =
        parser.behind (xmlEscape value ++ (child.write ++ others.write)).length
          (child.size + others.size) (value ++ others.text).length
          (charactersOf value ++ (child.events ++ others.events)) := by
      rw [show last = parser.behind _ _ _ _ from behind_behind parser _ _ _ _ _ _ _ _,
        behind_behind, Nat.zero_add, Nat.add_zero, ← length_append, ← length_append,
        ← length_append, append_assoc, append_assoc]
    rw [place] at chain
    rw [Content.write, Content.size, Content.text, Content.events]
    exact chain

end

/-- Character data is added to the element that is open. -/
theorem fold_charactersOf (text : Bytes) (top : XmlElement) (frames : List XmlElement) :
    (charactersOf text).foldlM Assembly.take { frames := top :: frames } =
      some { frames := top.addText text :: frames } := by
  rw [charactersOf]
  split
  case isTrue empty =>
    cases top
    rw [empty, XmlElement.addText, append_nil]
    rfl
  case isFalse => rfl

mutual

theorem Node.fold (node : Node) (frames : List XmlElement) :
    node.events.foldlM Assembly.take { frames } = some (Follows.ended node.tree frames) := by
  cases node with
  | element nsPrefix name attributes content =>
    have inside := content.fold
      { nsPrefix, name, attributes := attributes.map Attribute.entry } frames
    rw [Node.events, foldlM_cons]
    change ((content.events ++ [Event.endElement nsPrefix name]).foldlM Assembly.take
      { frames := { nsPrefix, name, attributes := attributes.map Attribute.entry } :: frames }) = _
    rw [foldlM_append, inside, Node.tree]
    cases frames with
    | nil | cons parent outer => simp [Assembly.take, Follows.ended]

theorem Content.fold (content : Content) (top : XmlElement) (frames : List XmlElement) :
    content.events.foldlM Assembly.take { frames := top :: frames } =
      some { frames :=
        { top with
          text := top.text ++ content.text
          children := top.children ++ content.children } :: frames } := by
  cases content with
  | last text =>
    rw [Content.events, fold_charactersOf, Content.text, Content.children, append_nil]
    rfl
  | more text child rest =>
    have inside := child.fold (top.addText text :: frames)
    have others := rest.fold ((top.addText text).append child.tree) frames
    rw [Content.events, foldlM_append, fold_charactersOf, Option.bind_eq_bind,
      Option.bind_some, foldlM_append, inside, Option.bind_eq_bind, Option.bind_some]
    rw [Follows.ended, others, Content.text, Content.children, XmlElement.append,
      XmlElement.addText, append_assoc, append_assoc]
    rfl

end

/-- White space behind the root is skipped byte by byte. -/
theorem reaches_blank {text : Bytes} (limits : Limits) (parser : XmlParser (List Event))
    {blank rest : Bytes} (spaces : ∀ c ∈ blank, isSpace c = true) (outside : parser.stack = [])
    (seen : At text parser.pos (blank ++ rest)) :
    Reaches (turn handlerSink text limits) parser
      { parser with pos := parser.pos + blank.length } := by
  induction blank generalizing parser with
  | nil => exact .refl
  | cons c blank ih =>
    have space := spaces c mem_cons_self
    have data : c ≠ lessThan := by
      rintro rfl
      cases space
    have first : turn handlerSink text limits parser =
        some (.inl { parser with pos := parser.pos + 1 }) := by
      rw [turn, seen.here]
      dsimp only
      rw [if_pos data, dataTurn, if_pos outside, space]
      rfl
    have others := ih { parser with pos := parser.pos + 1 }
      (fun d among => spaces d (mem_cons_of_mem c among)) outside seen.next
    rw [length_cons, Nat.add_comm blank.length, ← Nat.add_assoc]
    exact Relation.ReflTransGen.head first others

/-- A document that is read to its end behind its root. -/
theorem parse_of_reaches {text : Bytes} {limits : Limits} {last : XmlParser (List Event)}
    {tree : XmlElement} (small : text.length ≤ limits.maxDocumentSize)
    (reaches : Reaches (turn handlerSink text limits) (start text []) last)
    (ended : At text last.pos []) (outside : last.stack = []) (rooted : last.hadRoot = true)
    (folded : Assembly.fold last.sink = some { root := some tree }) :
    XmlDocument.parse text limits =
      some { root := some tree, error := .ok, errorOffset := last.pos } := by
  have finished : turn handlerSink text limits last = some (.inr (.ok, last)) := by
    rw [turn, ended.ended, finish, rooted, if_neg (not_not.mpr outside)]
    rfl
  obtain ⟨error, other, returns, -⟩ := run_folds text limits
  rw [run, if_neg (Nat.not_lt.mpr small)] at returns
  have result := loop_of_reaches reaches finished returns
  rw [XmlDocument.parse_eq, run, if_neg (Nat.not_lt.mpr small), result, Option.map_some]
  dsimp only
  rw [Assembly.tree_fold folded]
  rfl

/-- A tree that is written with white space behind it is parsed as itself, wherever the
parser gets to its root. -/
theorem Node.parse_eq {limits : Limits} {node : Node} {front blank : Bytes}
    (small : (front ++ (node.write ++ blank)).length ≤ limits.maxDocumentSize)
    (prolog : Reaches (turn handlerSink (front ++ (node.write ++ blank)) limits)
      (start (front ++ (node.write ++ blank)) []) { pos := front.length, sink := [] })
    (fits : node.Fits limits 0 0) (few : node.size ≤ limits.maxElements)
    (spaces : ∀ c ∈ blank, isSpace c = true) :
    ∃ offset, XmlDocument.parse (front ++ (node.write ++ blank)) limits =
      some { root := some node.tree, error := .ok, errorOffset := offset } := by
  let text := front ++ (node.write ++ blank)
  have seen : At text front.length (node.write ++ blank) := drop_left
  let begin : XmlParser (List Event) := { pos := front.length, sink := [] }
  have whole := node.reaches begin fits (by simpa [begin] using few)
    (fun _ => rfl) seen
  let done := begin.behind node.write.length node.size 0 node.events
  have outside : done.stack = [] := rfl
  have behindRoot : At text done.pos (blank ++ []) := by
    rw [append_nil]
    exact seen.skip
  have trailing := reaches_blank limits done spaces outside behindRoot
  exact ⟨_, parse_of_reaches small (prolog.trans (whole.trans trailing)) behindRoot.skip rfl rfl
    (node.fold [])⟩

/-- `<a>`, the escaped bytes and `</a>`. -/
def textDocument (value : Bytes) : Bytes := ascii "<a>" ++ xmlEscape value ++ ascii "</a>"

/-- An empty element with the escaped bytes as the value of its one attribute. -/
def attributeDocument (quote : UInt8) (value : Bytes) : Bytes :=
  ascii "<a b=" ++ quote :: (xmlEscape value ++ quote :: ascii "/>")

/-- The limits have room for a document with one element, so many attributes, and a value. -/
structure Limits.Admits (limits : Limits) (attributes : Nat) (value document : Bytes) : Prop where
  document : document.length ≤ limits.maxDocumentSize
  depth : 1 ≤ limits.maxDepth
  elements : 1 ≤ limits.maxElements
  names : 1 ≤ limits.maxNameLength
  attributes : attributes ≤ limits.maxAttributes
  value : value.length ≤ limits.maxTextLength

theorem parse_textDocument {limits : Limits} {value : Bytes}
    (admits : limits.Admits 0 value (textDocument value)) :
    ∃ offset, XmlDocument.parse (textDocument value) limits =
      some { root := some { name := ascii "a", text := value }, error := .ok
             errorOffset := offset } := by
  let node : Node := .element [] (ascii "a") [] (.last value)
  have written : textDocument value = [] ++ (node.write ++ []) := by
    rw [append_nil, textDocument]
    rfl
  have fits : node.Fits limits 0 0 := by
    refine ⟨⟨rfl, rfl, admits.names, admits.depth, Nat.zero_le _, nofun⟩, ?_⟩
    rw [Content.Fits, Nat.zero_add]
    exact admits.value
  have small := admits.document
  rw [written] at small ⊢
  exact Node.parse_eq small .refl fits admits.elements nofun

theorem parseAttributes_attributeDocument {limits : Limits} {quote : UInt8} {value : Bytes}
    (quoted : quote = quotationMark ∨ quote = apostrophe)
    (admits : limits.Admits 1 value (attributeDocument quote value)) :
    parseAttributes (attributeDocument quote value) limits 0 2 =
      some (.ok (([(ascii "b", value)], true), (attributeDocument quote value).length)) := by
  let text := attributeDocument quote value
  have seen : At text 2 (space :: (qualified [] (ascii "b") ++ equalsSign :: quote ::
    (xmlEscape value ++ quote :: ascii "/>"))) := rfl
  have inside : At text 6 (xmlEscape value ++ quote :: ascii "/>") := rfl
  have closing := inside.skip.next
  have size : 6 + (xmlEscape value).length + 1 + 2 = text.length := by
    simp [text, attributeDocument, ascii]
    omega
  have short : (qualified [] (ascii "b")).length ≤ limits.maxNameLength := admits.names
  have first : attributeTurn text limits 0 (2, []) =
      some (.inl (6 + (xmlEscape value).length + 1, [(ascii "b", value)])) := by
    rw [attributeTurn_eq rfl rfl seen, parseAttribute_eq quoted rfl rfl short seen.next,
      show 2 + 1 + (qualified [] (ascii "b")).length + 2 = 6 from rfl,
      parseValue_eq quoted inside (by rw [Nat.zero_add]; exact admits.value)]
    exact if_neg (Nat.not_le.mpr admits.attributes)
  have second : attributeTurn text limits 0
      (6 + (xmlEscape value).length + 1, [(ascii "b", value)]) =
        some (.inr (.ok (([(ascii "b", value)], true), text.length))) := by
    rw [attributeTurn, closing.skipSpace_eq rfl, closing.here, closing.lookingAt_eq, size]
    rfl
  obtain ⟨scan, returns, -⟩ := parseAttributes_keeps limits 0 (by omega : 2 ≤ text.length)
  exact loop_of_reaches (Relation.ReflTransGen.single first) second returns

theorem parse_attributeDocument {limits : Limits} {quote : UInt8} {value : Bytes}
    (quoted : quote = quotationMark ∨ quote = apostrophe)
    (admits : limits.Admits 1 value (attributeDocument quote value)) :
    XmlDocument.parse (attributeDocument quote value) limits =
      some { root := some { name := ascii "a", attributes := [(ascii "b", value)] }, error := .ok
             errorOffset := (attributeDocument quote value).length } := by
  let text := attributeDocument quote value
  let last : XmlParser (List Event) :=
    { pos := text.length, elements := 1, hadRoot := true
      sink := [.startElement [] (ascii "a") [(ascii "b", value)], .endElement [] (ascii "a")] }
  have seen : At text 0 (lessThan :: (qualified [] (ascii "a") ++ space ::
    (ascii "b=" ++ quote :: (xmlEscape value ++ quote :: ascii "/>")))) := rfl
  have short : (qualified [] (ascii "a")).length ≤ limits.maxNameLength := admits.names
  have tag : turn handlerSink text limits (start text []) = some (.inl last) := by
    have depth : (start text ([] : List Event)).stack.length < limits.maxDepth := admits.depth
    have read : parseAttributes text limits (start text ([] : List Event)).reported
        ((start text ([] : List Event)).pos + 1 + (qualified [] (ascii "a")).length) = _ :=
      parseAttributes_attributeDocument quoted admits
    rw [turn_tag limits rfl rfl short admits.elements depth (fun _ => rfl) seen rfl, read]
    rfl
  exact parse_of_reaches admits.document (Relation.ReflTransGen.single tag) drop_length
    rfl rfl rfl

/-- What `xml_escape()` has written is read back, as text and as a value between either kind of
quotes. -/
theorem xmlEscape_round_trip (value : Bytes) (limits : Limits) :
    (limits.Admits 0 value (textDocument value) →
      ∃ offset, XmlDocument.parse (textDocument value) limits =
        some { root := some { name := ascii "a", text := value }, error := .ok
               errorOffset := offset }) ∧
    ∀ quote, quote = quotationMark ∨ quote = apostrophe →
      limits.Admits 1 value (attributeDocument quote value) →
        ∃ offset, XmlDocument.parse (attributeDocument quote value) limits =
          some { root := some { name := ascii "a", attributes := [(ascii "b", value)] }
                 error := .ok, errorOffset := offset } :=
  ⟨parse_textDocument, fun _ quoted admits => ⟨_, parse_attributeDocument quoted admits⟩⟩

/-- All characters that are escaped, between a zero byte and a line feed. -/
theorem xmlEscape_round_trip_special :
    ∃ offset, XmlDocument.parse (attributeDocument apostrophe (0 :: ascii "&<>\"'" ++ [10])) {} =
      some { root := some { name := ascii "a"
                            attributes := [(ascii "b", 0 :: ascii "&<>\"'" ++ [10])] }
             error := .ok, errorOffset := offset } :=
  (xmlEscape_round_trip _ {}).2 apostrophe (.inr rfl)
    ⟨by decide, by decide, by decide, by decide, by decide, by decide⟩

end SamuraiFormal.Xml
