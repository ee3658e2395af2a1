import SamuraiFormal.Xml.Scans

/-!
# What one turn of the parser does

A turn of the main loop that goes on moves the parser inside the text and does one of five
things: it skips, reports character data, opens an element, opens and closes an empty one,
or closes one.  A turn that ends the parse accepts the document or refuses it.  Whatever is
said of whole parses is proved of these cases.
-/

namespace SamuraiFormal.Xml

open Util
open Library.Loops

/-- A prefix and a local name. -/
abbrev QName : Type := Bytes × Bytes

/-- A complete end tag, with the position behind it. -/
def readEndTag (text : Bytes) (limits : Limits) (pos : Nat) : Option (QName × Nat) :=
  if lookingAt text pos (ascii "</") then
    match parseName text limits (pos + 2) with
    | .error _ => none
    | .ok (name, stop) =>
      if text[skipSpace text stop]? = some greaterThan then
        some (name, skipSpace text stop + 1)
      else none
  else none

theorem readEndTag_eq_some {text : Bytes} {limits : Limits} {pos stop : Nat} {name : QName}
    (tag : readEndTag text limits pos = some (name, stop)) :
    lookingAt text pos (ascii "</") = true ∧ ∃ named,
      parseName text limits (pos + 2) = .ok (name, named) ∧
      text[skipSpace text named]? = some greaterThan ∧ stop = skipSpace text named + 1 := by
  unfold readEndTag at tag
  split at tag
  case isTrue seen =>
    split at tag
    · cases tag
    case h_2 read =>
      split at tag
      case isTrue ends =>
        cases tag
        exact ⟨seen, _, read, ends, rfl⟩
      · cases tag
  · cases tag

/-- Where a start tag is expected: at a mark that opens nothing else. -/
structure StartsTag (text : Bytes) (pos : Nat) : Prop where
  here : text[pos]? = some lessThan
  notCdata : lookingAt text pos (ascii "<![CDATA[") = false
  notMisc : MiscRead text pos false pos
  notEnd : lookingAt text pos (ascii "</") = false

namespace XmlParser

/-- The parser behind a start tag. -/
def opened (parser : XmlParser (List Event)) (pos : Nat) (nsPrefix name : Bytes)
    (attributes : Attributes) : XmlParser (List Event) where
  pos := pos
  elements := parser.elements + 1
  hadRoot := parser.hadRoot || parser.stack.isEmpty
  stack := { nsPrefix, name } :: parser.stack
  sink := parser.sink ++ [.startElement nsPrefix name attributes]

/-- The parser behind an end tag. -/
def closed (parser : XmlParser (List Event)) (pos : Nat) (nsPrefix name : Bytes) :
    XmlParser (List Event) :=
  { parser with
    pos
    stack := parser.stack.tail
    sink := parser.sink ++ [.endElement nsPrefix name] }

/-- The parser behind character data of the element that is open. -/
def gathered (parser : XmlParser (List Event)) (pos : Nat) (chunk : Bytes) :
    XmlParser (List Event) :=
  { parser with
    pos
    stack := parser.stack.modifyHead fun top =>
      { top with textLength := top.textLength + chunk.length }
    sink := parser.sink ++ [.characters chunk] }

/-- What is checked before an element is opened. -/
structure Begins (limits : Limits) (parser : XmlParser (List Event)) (nsPrefix name : Bytes)
    (attributes : Attributes) : Prop where
  elements : parser.elements + 1 ≤ limits.maxElements
  depth : parser.stack.length < limits.maxDepth
  single : parser.stack = [] → parser.hadRoot = false
  name : (qualified nsPrefix name).length ≤ limits.maxNameLength
  attributes : AttributesFit limits attributes

/-- A start tag that has been read. -/
structure StartTag (text : Bytes) (limits : Limits) (parser : XmlParser (List Event))
    (name : QName) (attributes : Attributes) (empty : Bool) (pos : Nat) : Prop where
  starts : StartsTag text parser.pos
  read : ∃ named, NameRead text limits (parser.pos + 1) name named ∧
    TagRead text limits parser.reported named (attributes, empty) pos

/-- Character data that has been read: text, or a section. -/
inductive DataRead (text : Bytes) (limits : Limits) (parser : XmlParser (List Event))
    (chunk : Bytes) (pos : Nat) : Prop where
  | text {c : UInt8} (here : text[parser.pos]? = some c) (data : c ≠ lessThan)
      (read : TextRead text limits parser.reported parser.pos chunk pos)
  | cdata (seen : lookingAt text parser.pos (ascii "<![CDATA[") = true)
      (read : CdataRead text limits parser.reported parser.pos chunk pos)

/-- What says nothing: a blank outside of the root, a comment or an instruction, and a section
without a byte. -/
inductive Skips (text : Bytes) (limits : Limits) (parser : XmlParser (List Event)) (pos : Nat) :
    Prop where
  | blank {c : UInt8} (outside : parser.stack = []) (here : text[parser.pos]? = some c)
      (blank : isSpace c = true) (next : pos = parser.pos + 1)
  | misc (here : text[parser.pos]? = some lessThan)
      (notCdata : lookingAt text parser.pos (ascii "<![CDATA[") = false)
      (read : MiscRead text parser.pos true pos)
  | empty (within : parser.stack ≠ []) (read : DataRead text limits parser [] pos)

inductive Turn (text : Bytes) (limits : Limits) (parser : XmlParser (List Event)) :
    XmlParser (List Event) ⊕ (XmlError × XmlParser (List Event)) → Prop where
  | skips {pos : Nat} (on : parser.pos < pos) (inside : pos ≤ text.length)
      (skipped : Skips text limits parser pos) :
      Turn text limits parser (.inl { parser with pos })
  | gathers {pos : Nat} {chunk : Bytes} (on : parser.pos < pos) (inside : pos ≤ text.length)
      (within : parser.stack ≠ []) (some' : chunk ≠ [])
      (read : DataRead text limits parser chunk pos) :
      Turn text limits parser (.inl (parser.gathered pos chunk))
  | opens {pos : Nat} {nsPrefix name : Bytes} {attributes : Attributes}
      (on : parser.pos < pos) (inside : pos ≤ text.length)
      (begins : Begins limits parser nsPrefix name attributes)
      (tag : StartTag text limits parser (nsPrefix, name) attributes false pos) :
      Turn text limits parser (.inl (parser.opened pos nsPrefix name attributes))
  | empties {pos : Nat} {nsPrefix name : Bytes} {attributes : Attributes}
      (on : parser.pos < pos) (inside : pos ≤ text.length)
      (begins : Begins limits parser nsPrefix name attributes)
      (tag : StartTag text limits parser (nsPrefix, name) attributes true pos) :
      Turn text limits parser
        (.inl ((parser.opened pos nsPrefix name attributes).closed pos nsPrefix name))
  | closes {pos : Nat} {nsPrefix : Bytes} {top : Open} {rest : List Open}
      (on : parser.pos < pos) (inside : pos ≤ text.length) (stack : parser.stack = top :: rest)
      (tag : readEndTag text limits parser.pos = some ((nsPrefix, top.name), pos)) :
      Turn text limits parser (.inl (parser.closed pos nsPrefix top.name))
  | accepts (past : text.length ≤ parser.pos) (closed : parser.stack = [])
      (had : parser.hadRoot = true) : Turn text limits parser (.inr (.ok, parser))
  | refuses {error : XmlError} {last : XmlParser (List Event)} (failed : error ≠ .ok)
      (inside : last.pos ≤ text.length) (silent : last.sink = parser.sink) :
      Turn text limits parser (.inr (error, last))

variable {text : Bytes} {limits : Limits} {parser : XmlParser (List Event)}

theorem proceed_ok {σ : Type} (next : XmlParser σ) : proceed (.ok, next) = .inl next := rfl

theorem proceed_error {σ : Type} {error : XmlError} {last : XmlParser σ} (failed : error ≠ .ok) :
    proceed (error, last) = .inr (error, last) := by
  rw [proceed, if_neg failed]

/-- A call that moves inside the text and fails without a word ends the parse. -/
theorem turn_refuses {error : XmlError} {last : XmlParser (List Event)} (failed : error ≠ .ok)
    (inside : last.pos ≤ text.length) (silent : last.sink = parser.sink) :
    Turn text limits parser (proceed (error, last)) := by
  rw [proceed_error failed]
  exact .refuses failed inside silent

/-- Character data is passed over if it is empty, and reported otherwise. -/
theorem emit_turn {pos : Nat} {chunk : Bytes} (on : parser.pos < pos)
    (inside : pos ≤ text.length) (within : parser.stack ≠ [])
    (read : DataRead text limits parser chunk pos) :
    Turn text limits parser (proceed (emit handlerSink { parser with pos } chunk)) := by
  cases chunk with
  | nil => exact .skips on inside (.empty within read)
  | cons c chunk => exact .gathers on inside within (List.cons_ne_nil _ _) read

theorem parseText_turn (limits : Limits) {c : UInt8} (here : text[parser.pos]? = some c)
    (data : c ≠ lessThan) (within : parser.stack ≠ []) :
    ∃ result, parseText handlerSink text limits parser = some result ∧
      Turn text limits parser (proceed result) := by
  obtain ⟨scan, returns, keeps⟩ := gatherText_keeps limits parser.reported here data
  rw [parseText, returns]
  cases scan with
  | error failure => exact ⟨_, rfl, turn_refuses keeps.1 keeps.2 rfl⟩
  | ok read =>
    obtain ⟨out, stop⟩ := read
    exact ⟨_, rfl, emit_turn keeps.1 keeps.2.1 within (.text here data keeps.2.2)⟩

/-- The end of a section is passed after its data has been taken. -/
theorem parseCdata_eq {pos : Nat} {chunk : Bytes}
    (read : gatherCdata text limits parser.reported parser.pos = .ok (chunk, pos)) :
    parseCdata handlerSink text limits parser = emit handlerSink { parser with pos } chunk := by
  rw [parseCdata, read]
  cases chunk with
  | nil | cons c chunk => rfl

theorem parseCdata_turn (seen : lookingAt text parser.pos (ascii "<![CDATA[") = true)
    (within : parser.stack ≠ []) :
    Turn text limits parser (proceed (parseCdata handlerSink text limits parser)) := by
  have keeps := gatherCdata_keeps limits parser.reported seen
  cases read : gatherCdata text limits parser.reported parser.pos with
  | error failure =>
    rw [parseCdata, read]
    rw [read] at keeps
    exact turn_refuses keeps.1 keeps.2 rfl
  | ok taken =>
    obtain ⟨on, inside, taken⟩ := keeps.read read
    rw [parseCdata_eq read]
    exact emit_turn on inside within (.cdata seen taken)

theorem parseElement_turn (limits : Limits) (starts : StartsTag text parser.pos)
    (room : parser.pos + 1 ≤ text.length) :
    ∃ result, parseElement handlerSink text limits parser = some result ∧
      Turn text limits parser (proceed result) := by
  rw [parseElement]
  dsimp only
  split
  · exact ⟨_, rfl, turn_refuses nofun room rfl⟩
  split
  · exact ⟨_, rfl, turn_refuses nofun room rfl⟩
  split
  · exact ⟨_, rfl, turn_refuses nofun room rfl⟩
  case isFalse.isFalse.isFalse few shallow single =>
    have named := parseName_keeps limits room
    split
    case h_1 failed =>
      rw [failed] at named
      exact ⟨_, rfl, turn_refuses named.1 named.2 rfl⟩
    case h_2 nsPrefix name pos found =>
      obtain ⟨on, inside, named⟩ := named.read found
      obtain ⟨scan, returns, keeps⟩ := parseAttributes_keeps limits
        (reported { parser with pos := parser.pos + 1, elements := parser.elements + 1 }) inside
      rw [returns]
      cases scan with
      | error failure => exact ⟨_, rfl, turn_refuses keeps.1 keeps.2 rfl⟩
      | ok attributed =>
        obtain ⟨⟨attributes, empty⟩, stop⟩ := attributed
        obtain ⟨on', inside', tag⟩ := keeps
        have begins : Begins limits parser nsPrefix name attributes := by
          refine ⟨by omega, by omega, fun none => ?_, named.length_le, tag.fit⟩
          simpa [none] using single
        have onward : parser.pos < stop := by omega
        refine ⟨_, rfl, ?_⟩
        cases empty with
        | false => exact .opens onward inside' begins ⟨starts, pos, named, tag⟩
        | true => exact .empties onward inside' begins ⟨starts, pos, named, tag⟩

theorem parseEndTag_turn (seen : lookingAt text parser.pos (ascii "</") = true) :
    Turn text limits parser (proceed (parseEndTag handlerSink text limits parser)) := by
  have room : parser.pos + 2 ≤ text.length := lookingAt_le seen (by decide)
  have named := parseName_keeps limits room
  rw [parseEndTag]
  split
  case h_1 failed =>
    rw [failed] at named
    exact turn_refuses named.1 named.2 rfl
  case h_2 nsPrefix name pos read =>
    obtain ⟨on, inside, -⟩ := named.read read
    have skipped := skipSpace_le inside
    dsimp only
    split
    case h_1 => exact turn_refuses nofun skipped.2 rfl
    case h_2 found =>
      have below := lt_length_of_getElem? found
      split
      · exact turn_refuses nofun skipped.2 rfl
      case isFalse bracket =>
        rw [closeElement]
        split
        case h_1 => exact turn_refuses nofun below rfl
        case h_2 top rest stack =>
          split
          · exact turn_refuses nofun below rfl
          case isFalse same =>
            obtain rfl := not_not.mp same
            rw [not_not.mp bracket] at found
            have tag : readEndTag text limits parser.pos =
                some ((nsPrefix, top.name), skipSpace text pos + 1) := by
              rw [readEndTag, if_pos seen, read]
              exact if_pos found
            have after : parser.closed (skipSpace text pos + 1) nsPrefix top.name =
                { parser with
                  pos := skipSpace text pos + 1
                  stack := rest
                  sink := parser.sink ++ [.endElement nsPrefix top.name] } := by
              rw [closed, show parser.stack = top :: rest from stack]
              rfl
            have turn : Turn text limits parser
                (.inl (parser.closed (skipSpace text pos + 1) nsPrefix top.name)) :=
              .closes (by omega) below stack tag
            rw [after] at turn
            exact turn

theorem finish_turn (inside : parser.pos ≤ text.length) (past : text.length ≤ parser.pos) :
    Turn text limits parser (.inr (parser.finish, parser)) := by
  rw [finish]
  split
  · exact .refuses nofun inside rfl
  split
  · exact .refuses nofun inside rfl
  case isFalse.isFalse empty had =>
    exact .accepts past (not_not.mp empty) (by simpa using had)

theorem dataTurn_spec {c : UInt8} (here : text[parser.pos]? = some c) (data : c ≠ lessThan) :
    ∃ step, dataTurn handlerSink text limits parser c = some step ∧
      Turn text limits parser step := by
  have below := lt_length_of_getElem? here
  rw [dataTurn]
  split
  case isTrue outside =>
    split
    · exact ⟨_, rfl, .refuses nofun below.le rfl⟩
    case isFalse blank =>
      exact ⟨_, rfl, .skips (Nat.lt_succ_self _) below
        (.blank outside here (by simpa using blank) rfl)⟩
  case isFalse within =>
    obtain ⟨result, returns, turn⟩ := parseText_turn limits here data within
    rw [returns]
    exact ⟨_, rfl, turn⟩

theorem markupTurn_spec (here : text[parser.pos]? = some lessThan) :
    ∃ step, markupTurn handlerSink text limits parser = some step ∧
      Turn text limits parser step := by
  have inside := (lt_length_of_getElem? here).le
  rw [markupTurn]
  split
  case isTrue seen =>
    split
    · exact ⟨_, rfl, .refuses nofun inside rfl⟩
    case isFalse within => exact ⟨_, rfl, parseCdata_turn seen within⟩
  case isFalse notCdata =>
    have skipped := skipMisc_keeps inside
    split
    case h_1 failed =>
      rw [failed] at skipped
      exact ⟨_, rfl, .refuses skipped.1 skipped.2 rfl⟩
    case h_2 read =>
      obtain ⟨-, within, misc, on⟩ := skipped.read read
      exact ⟨_, rfl, .skips (on rfl) within (.misc here (eq_false_of_ne_true notCdata) misc)⟩
    case h_3 stop read =>
      obtain ⟨-, -, notMisc, -⟩ := skipped.read read
      split
      case isTrue seen => exact ⟨_, rfl, parseEndTag_turn seen⟩
      case isFalse notEnd =>
        split
        case isTrue => exact ⟨_, rfl, .refuses nofun inside rfl⟩
        case isFalse more =>
          cases notMisc with
          | nothing comment instruction declaration =>
            obtain ⟨result, returns, turn⟩ := parseElement_turn limits
              ⟨here, eq_false_of_ne_true notCdata, .nothing comment instruction declaration,
                eq_false_of_ne_true notEnd⟩ (by omega : parser.pos + 1 ≤ text.length)
            rw [returns]
            exact ⟨_, rfl, turn⟩

/-- Every turn inside the text does one of the things that a turn can do. -/
theorem turn_spec (limits : Limits) (inside : parser.pos ≤ text.length) :
    ∃ step, turn handlerSink text limits parser = some step ∧ Turn text limits parser step := by
  rw [turn]
  split
  case h_1 ended => exact ⟨_, rfl, finish_turn inside (List.getElem?_eq_none_iff.mp ended)⟩
  case h_2 c here =>
    split
    case isTrue data => exact dataTurn_spec here data
    case isFalse mark =>
      rw [not_not.mp mark] at here
      exact markupTurn_spec here

/-- The inversion of a turn that has been made. -/
theorem turn_cases {step : XmlParser (List Event) ⊕ (XmlError × XmlParser (List Event))}
    (inside : parser.pos ≤ text.length)
    (turned : turn handlerSink text limits parser = some step) : Turn text limits parser step := by
  obtain ⟨step', returns, cases⟩ := turn_spec limits inside
  rw [turned] at returns
  rwa [Option.some.inj returns]

end XmlParser

end SamuraiFormal.Xml
