import SamuraiFormal.Library.Loops
import SamuraiFormal.Util.Escape
import SamuraiFormal.Xml.Element

/-!
# The XML parser

`XmlParser` and its two users, `XmlDocument` and `XmlReader`.  The parser hands what it
finds to a sink: one sink assembles the tree, the other calls a handler, whose calls are
recorded as events.

The loops that the parser runs are given one turn more than the text has bytes.  A loop
that is still running then has no result, and neither has the parse.  Positions are kept
where an error leaves them, since that is the offset that is reported.
-/

namespace SamuraiFormal.Xml

open Util
open Library.Loops

inductive XmlError where
  | ok
  | truncated
  | syntaxError
  | mismatch
  | depthExceeded
  | sizeExceeded
  | unsupported
  deriving DecidableEq, Repr

/-- `XmlDocument::Limits`. -/
structure Limits where
  maxDocumentSize : Nat := 256 * 1024
  maxDepth : Nat := 32
  maxElements : Nat := 8192
  maxAttributes : Nat := 32
  maxTextLength : Nat := 64 * 1024
  maxNameLength : Nat := 256
  deriving DecidableEq, Repr

/-- `XmlSink`: what the parser hands each piece of the document to. -/
structure Sink (σ : Type) where
  openElement : σ → Bytes → Bytes → Attributes → XmlError × σ
  closeElement : σ → Bytes → Bytes → XmlError × σ
  characters : σ → Bytes → XmlError × σ

/-- `XmlTreeSink`.  The stack holds the innermost pointer first. -/
structure TreeSink where
  document : Option XmlElement := none
  stack : List XmlElement.Pointer := []

namespace TreeSink

def openElement (state : TreeSink) (nsPrefix name : Bytes) (attributes : Attributes) :
    XmlError × TreeSink :=
  let element : XmlElement := { nsPrefix, name, attributes }
  match state.stack, state.document with
  | [], _ => (.ok, { document := some element, stack := [[]] })
  -- an open element is part of a document
  | _ :: _, none => (.ok, state)
  | top :: rest, some document =>
    (.ok, { document := some (document.update (·.append element) top)
            stack := (top ++ [document.childCount top]) :: top :: rest })

def closeElement (state : TreeSink) (_ _ : Bytes) : XmlError × TreeSink :=
  (.ok, { state with stack := state.stack.tail })

def characters (state : TreeSink) (chunk : Bytes) : XmlError × TreeSink :=
  match state.stack with
  -- there is no text outside of an element
  | [] => (.ok, state)
  | top :: _ =>
    (.ok, { state with document := state.document.map (XmlElement.update (·.addText chunk) top) })

end TreeSink

def treeSink : Sink TreeSink where
  openElement := TreeSink.openElement
  closeElement := TreeSink.closeElement
  characters := TreeSink.characters

/-- The calls of an `XmlContentHandler`. -/
inductive Event where
  | startDocument
  | endDocument
  | startElement (nsPrefix name : Bytes) (attributes : Attributes)
  | endElement (nsPrefix name : Bytes)
  | characters (text : Bytes)
  deriving DecidableEq, Repr

/-- `XmlHandlerSink`: the calls that the handler has got. -/
def handlerSink : Sink (List Event) where
  openElement events nsPrefix name attributes :=
    (.ok, events ++ [.startElement nsPrefix name attributes])
  closeElement events nsPrefix name := (.ok, events ++ [.endElement nsPrefix name])
  characters events chunk := (.ok, events ++ [.characters chunk])

abbrev colon : UInt8 := 58

abbrev semicolon : UInt8 := 59

abbrev equalsSign : UInt8 := 61

abbrev numberSign : UInt8 := 35

def isNameStart (c : UInt8) : Bool :=
  (65 ≤ c && c ≤ 90) || (97 ≤ c && c ≤ 122) || c == 95 || 128 ≤ c

def isNameChar (c : UInt8) : Bool :=
  isNameStart c || (48 ≤ c && c ≤ 57) || c == 45 || c == 46

/-- How a scan went: what was read and where it ended, or the error and where it stopped. -/
abbrev Scan (α : Type) : Type := Except (XmlError × Nat) (α × Nat)

section Scanning

variable (text : Bytes) (limits : Limits)

def lookingAt (pos : Nat) (token : Bytes) : Bool := (text.drop pos).take token.length == token

/-- The bytes from a position on, as far as they satisfy the test. -/
def runOf (test : UInt8 → Bool) (pos : Nat) : Bytes := (text.drop pos).takeWhile test

def skipSpace (pos : Nat) : Nat := pos + (runOf text isSpace pos).length

/-- The prefix and the name, split at the first colon. -/
def splitName (full : Bytes) : Option (Bytes × Bytes) :=
  match splitOnce full colon with
  | none => some ([], full)
  | some (_, []) => none
  | some ([], _ :: _) => none
  | some (p :: nsPrefix, c :: name) =>
    if (find (c :: name) colon).isSome then none
    else if !isNameStart c then none
    else some (p :: nsPrefix, c :: name)

def parseName (pos : Nat) : Scan (Bytes × Bytes) :=
  match text[pos]? with
  | none => .error (.syntaxError, pos)
  | some c =>
    if !isNameStart c then .error (.syntaxError, pos)
    else
      let full := runOf text (fun c => isNameChar c || c == colon) pos
      if limits.maxNameLength < full.length then .error (.sizeExceeded, pos + full.length)
      else
        match splitName full with
        | none => .error (.syntaxError, pos + full.length)
        | some parts => .ok (parts, pos + full.length)

/-- A name with its prefix as it was written. -/
def qualified (nsPrefix name : Bytes) : Bytes :=
  if nsPrefix = [] then name else nsPrefix ++ colon :: name

/-- `append_text()`, where `reported` is what the element that is open has got before. -/
def appendText (reported : Nat) (out chunk : Bytes) : Except XmlError Bytes :=
  if limits.maxTextLength < reported + out.length + chunk.length then .error .sizeExceeded
  else .ok (out ++ chunk)

def digitValue (hex : Bool) (c : UInt8) : Option Nat :=
  if 48 ≤ c ∧ c ≤ 57 then some (c.toNat - 48)
  else if hex ∧ 97 ≤ c ∧ c ≤ 102 then some (c.toNat - 97 + 10)
  else if hex ∧ 65 ≤ c ∧ c ≤ 70 then some (c.toNat - 65 + 10)
  else none

/-- The loop over the digits of a numeric reference. -/
def digitsValue (hex : Bool) : Nat → Bytes → Option Nat
  | value, [] => some value
  | value, digit :: rest =>
    match digitValue hex digit with
    | none => none
    | some d =>
      let value := value * (if hex then 16 else 10) + d
      if 0x10ffff < value then none else digitsValue hex value rest

/-- The character of a numeric reference, from what follows the number sign. -/
def appendNumeric (digits out : Bytes) : Except XmlError Bytes :=
  let hex := digits.head? == some 120 || digits.head? == some 88
  let digits := if hex then digits.tail else digits
  if digits = [] then .error .syntaxError
  else
    match digitsValue hex 0 digits with
    | none => .error .syntaxError
    | some value =>
      if value = 0 then .error .syntaxError
      else if limits.maxTextLength < out.length + 4 then .error .sizeExceeded
      else
        match appendUtf8 value out with
        | none => .error .syntaxError
        | some whole => .ok whole

/-- The five predefined entities. -/
def entity (body : Bytes) : Option Bytes :=
  if body = ascii "amp" then some [ampersand]
  else if body = ascii "lt" then some [lessThan]
  else if body = ascii "gt" then some [greaterThan]
  else if body = ascii "quot" then some [quotationMark]
  else if body = ascii "apos" then some [apostrophe]
  else none

/-- What a reference adds, from what stands between the ampersand and the semicolon. -/
def expand (reported : Nat) (out : Bytes) : Bytes → Except XmlError Bytes
  | [] => .error .syntaxError
  | c :: rest =>
    if c = numberSign then appendNumeric limits rest out
    else
      match entity (c :: rest) with
      | none => .error .syntaxError
      | some replacement => appendText limits reported out replacement

def appendReference (reported pos : Nat) (out : Bytes) : Scan Bytes :=
  match findFrom text semicolon pos with
  | none => .error (.truncated, pos)
  | some semi =>
    if 32 < semi - pos then .error (.syntaxError, pos)
    else
      match expand limits reported out ((text.drop (pos + 1)).take (semi - pos - 1)) with
      | .error error => .error (error, pos)
      | .ok whole => .ok (whole, semi + 1)

/-- One piece of text or of a value: a reference, or all bytes up to the next one that
stops it. -/
def appendPiece (reported : Nat) (stops : UInt8 → Bool) (pos : Nat) (out : Bytes) : Scan Bytes :=
  if text[pos]? = some ampersand then appendReference text limits reported pos out
  else
    let chunk := runOf text (fun c => !stops c) pos
    match appendText limits reported out chunk with
    | .error error => .error (error, pos + chunk.length)
    | .ok whole => .ok (whole, pos + chunk.length)

def stopsValue (quote c : UInt8) : Bool := c == quote || c == ampersand || c == lessThan

def valueTurn (reported : Nat) (quote : UInt8) : Body (Nat × Bytes) (Scan Bytes) :=
  fun (pos, value) =>
    match text[pos]? with
    | none => some (.inr (.error (.truncated, pos)))
    | some c =>
      if c = quote then some (.inr (.ok (value, pos + 1)))
      else if c = lessThan then some (.inr (.error (.syntaxError, pos)))
      else
        match appendPiece text limits reported (stopsValue quote) pos value with
        | .error failure => some (.inr (.error failure))
        | .ok (value, pos) => some (.inl (pos, value))

def parseValue (reported : Nat) (quote : UInt8) (pos : Nat) : Option (Scan Bytes) :=
  loop (valueTurn text limits reported quote) (text.length + 1) (pos, [])

/-- The equals sign and the quote in front of a value. -/
def openValue (pos : Nat) : Scan UInt8 :=
  let pos := skipSpace text pos
  match text[pos]? with
  | none => .error (.truncated, pos)
  | some c =>
    if c ≠ equalsSign then .error (.syntaxError, pos)
    else
      let pos := skipSpace text (pos + 1)
      match text[pos]? with
      | none => .error (.truncated, pos)
      | some quote =>
        if quote ≠ quotationMark ∧ quote ≠ apostrophe then .error (.syntaxError, pos)
        else .ok (quote, pos + 1)

def parseAttribute (reported pos : Nat) : Option (Scan (Bytes × Bytes)) :=
  match parseName text limits pos with
  | .error failure => some (.error failure)
  | .ok ((nsPrefix, name), pos) =>
    match openValue text pos with
    | .error failure => some (.error failure)
    | .ok (quote, pos) =>
      match parseValue text limits reported quote pos with
      | none => none
      | some (.error failure) => some (.error failure)
      | some (.ok (value, pos)) => some (.ok ((qualified nsPrefix name, value), pos))

def attributeTurn (reported : Nat) : Body (Nat × Attributes) (Scan (Attributes × Bool)) :=
  fun (pos, attributes) =>
    let pos := skipSpace text pos
    match text[pos]? with
    | none => some (.inr (.error (.truncated, pos)))
    | some c =>
      if c = greaterThan then some (.inr (.ok ((attributes, false), pos + 1)))
      else if lookingAt text pos (ascii "/>") then
        some (.inr (.ok ((attributes, true), pos + 2)))
      else
        match parseAttribute text limits reported pos with
        | none => none
        | some (.error failure) => some (.inr (.error failure))
        | some (.ok (entry, pos)) =>
          if limits.maxAttributes ≤ attributes.length then
            some (.inr (.error (.sizeExceeded, pos)))
          else some (.inl (pos, attributes ++ [entry]))

/-- The attributes and the end of a start tag, and whether it is an empty element's. -/
def parseAttributes (reported pos : Nat) : Option (Scan (Attributes × Bool)) :=
  loop (attributeTurn text limits reported) (text.length + 1) (pos, [])

/-- Skips a comment or a processing instruction, and says whether there was one. -/
def skipMisc (pos : Nat) : Scan Bool :=
  if lookingAt text pos (ascii "<!--") then
    match findTextFrom (ascii "-->") text (pos + 4) with
    | none => .error (.truncated, pos + 4)
    | some stop =>
      if (findText (ascii "--") ((text.drop (pos + 4)).take (stop - (pos + 4)))).isSome then
        .error (.syntaxError, pos + 4)
      else .ok (true, stop + 3)
  else if lookingAt text pos (ascii "<?") then
    match findTextFrom (ascii "?>") text (pos + 2) with
    | none => .error (.truncated, pos + 2)
    | some stop => .ok (true, stop + 2)
  else if lookingAt text pos (ascii "<!") then .error (.unsupported, pos)
  else .ok (false, pos)

def stopsText (c : UInt8) : Bool := c == lessThan || c == ampersand

def textTurn (reported : Nat) : Body (Nat × Bytes) (Scan Bytes) :=
  fun (pos, out) =>
    match text[pos]? with
    | none => some (.inr (.ok (out, pos)))
    | some c =>
      if c = lessThan then some (.inr (.ok (out, pos)))
      else
        match appendPiece text limits reported stopsText pos out with
        | .error failure => some (.inr (.error failure))
        | .ok (out, pos) => some (.inl (pos, out))

/-- The loop of `parse_text()`. -/
def gatherText (reported pos : Nat) : Option (Scan Bytes) :=
  loop (textTurn text limits reported) (text.length + 1) (pos, [])

/-- What `parse_cdata()` reads. -/
def gatherCdata (reported pos : Nat) : Scan Bytes :=
  match findTextFrom (ascii "]]>") text (pos + 9) with
  | none => .error (.truncated, pos + 9)
  | some stop =>
    match appendText limits reported [] ((text.drop (pos + 9)).take (stop - (pos + 9))) with
    | .error error => .error (error, pos + 9)
    | .ok out => .ok (out, stop + 3)

end Scanning

/-! ## The parser -/

/-- `XmlParser::Open`. -/
structure Open where
  nsPrefix : Bytes
  name : Bytes
  textLength : Nat := 0
  deriving DecidableEq, Repr

/-- The parser's members.  The stack holds the innermost element first. -/
structure XmlParser (σ : Type) where
  pos : Nat := 0
  elements : Nat := 0
  hadRoot : Bool := false
  stack : List Open := []
  sink : σ

namespace XmlParser

variable {σ : Type} (sink : Sink σ) (text : Bytes) (limits : Limits)

/-- What has been reported for the element that is open. -/
def reported (parser : XmlParser σ) : Nat :=
  match parser.stack with
  | [] => 0
  | top :: _ => top.textLength

def emit (parser : XmlParser σ) (chunk : Bytes) : XmlError × XmlParser σ :=
  if chunk = [] then (.ok, parser)
  else
    let (error, state) := sink.characters parser.sink chunk
    (error, { parser with
      stack := parser.stack.modifyHead fun top =>
        { top with textLength := top.textLength + chunk.length }
      sink := state })

/-- Character data goes to the sink once all of it has been read. -/
def parseText (parser : XmlParser σ) : Option (XmlError × XmlParser σ) :=
  match gatherText text limits parser.reported parser.pos with
  | none => none
  | some (.error (error, pos)) => some (error, { parser with pos })
  | some (.ok (out, pos)) => some (emit sink { parser with pos } out)

/-- The end of the section is passed after the sink has taken the data. -/
def parseCdata (parser : XmlParser σ) : XmlError × XmlParser σ :=
  match gatherCdata text limits parser.reported parser.pos with
  | .error (error, pos) => (error, { parser with pos })
  | .ok (out, stop) =>
    let (sent, parser) := emit sink { parser with pos := parser.pos + 9 } out
    if sent ≠ .ok then (sent, parser) else (.ok, { parser with pos := stop })

/-- The end of `parse_element()`: an empty element is a start and an end. -/
def openElement (parser : XmlParser σ) (nsPrefix name : Bytes) (attributes : Attributes)
    (empty : Bool) : XmlError × XmlParser σ :=
  let (opened, state) := sink.openElement parser.sink nsPrefix name attributes
  let parser := { parser with
    hadRoot := parser.hadRoot || parser.stack.isEmpty
    stack := { nsPrefix, name } :: parser.stack
    sink := state }
  if opened ≠ .ok then (opened, parser)
  else if empty then
    let (closed, state) := sink.closeElement parser.sink nsPrefix name
    let parser := { parser with sink := state }
    if closed ≠ .ok then (closed, parser)
    else (.ok, { parser with stack := parser.stack.tail })
  else (.ok, parser)

def parseElement (parser : XmlParser σ) : Option (XmlError × XmlParser σ) :=
  let parser := { parser with pos := parser.pos + 1, elements := parser.elements + 1 }
  if limits.maxElements < parser.elements then some (.sizeExceeded, parser)
  else if limits.maxDepth ≤ parser.stack.length then some (.depthExceeded, parser)
  else if parser.stack = [] ∧ parser.hadRoot then some (.syntaxError, parser)
  else
    match parseName text limits parser.pos with
    | .error (error, pos) => some (error, { parser with pos })
    | .ok ((nsPrefix, name), pos) =>
      match parseAttributes text limits parser.reported pos with
      | none => none
      | some (.error (error, pos)) => some (error, { parser with pos })
      | some (.ok ((attributes, empty), pos)) =>
        some (openElement sink { parser with pos } nsPrefix name attributes empty)

def closeElement (parser : XmlParser σ) (nsPrefix name : Bytes) : XmlError × XmlParser σ :=
  match parser.stack with
  | [] => (.mismatch, parser)
  | top :: rest =>
    if top.name ≠ name then (.mismatch, parser)
    else
      let (closed, state) := sink.closeElement parser.sink nsPrefix name
      if closed ≠ .ok then (closed, { parser with sink := state })
      else (.ok, { parser with stack := rest, sink := state })

def parseEndTag (parser : XmlParser σ) : XmlError × XmlParser σ :=
  match parseName text limits (parser.pos + 2) with
  | .error (error, pos) => (error, { parser with pos })
  | .ok ((nsPrefix, name), pos) =>
    let pos := skipSpace text pos
    match text[pos]? with
    | none => (.truncated, { parser with pos })
    | some c =>
      if c ≠ greaterThan then (.syntaxError, { parser with pos })
      else closeElement sink { parser with pos := pos + 1 } nsPrefix name

/-- `if (status != XmlError::Ok) return status;`, and `continue` otherwise. -/
def proceed : XmlError × XmlParser σ → XmlParser σ ⊕ (XmlError × XmlParser σ)
  | (error, parser) => if error = .ok then .inl parser else .inr (error, parser)

/-- What is said of a document whose last byte has been read. -/
def finish (parser : XmlParser σ) : XmlError :=
  if parser.stack ≠ [] then .truncated
  else if !parser.hadRoot then .truncated
  else .ok

/-- A turn on a byte that is not the start of markup. -/
def dataTurn (parser : XmlParser σ) (c : UInt8) :
    Option (XmlParser σ ⊕ (XmlError × XmlParser σ)) :=
  if parser.stack = [] then
    if !isSpace c then some (.inr (.syntaxError, parser))
    else some (.inl { parser with pos := parser.pos + 1 })
  else (parseText sink text limits parser).map proceed

/-- A turn on the start of markup. -/
def markupTurn (parser : XmlParser σ) : Option (XmlParser σ ⊕ (XmlError × XmlParser σ)) :=
  if lookingAt text parser.pos (ascii "<![CDATA[") then
    if parser.stack = [] then some (.inr (.syntaxError, parser))
    else some (proceed (parseCdata sink text limits parser))
  else
    match skipMisc text parser.pos with
    | .error (error, pos) => some (.inr (error, { parser with pos }))
    | .ok (true, pos) => some (.inl { parser with pos })
    | .ok (false, _) =>
      if lookingAt text parser.pos (ascii "</") then
        some (proceed (parseEndTag sink text limits parser))
      else if text.length ≤ parser.pos + 1 then some (.inr (.truncated, parser))
      else (parseElement sink text limits parser).map proceed

def turn : Body (XmlParser σ) (XmlError × XmlParser σ) :=
  fun parser =>
    match text[parser.pos]? with
    | none => some (.inr (parser.finish, parser))
    | some c =>
      if c ≠ lessThan then dataTurn sink text limits parser c
      else markupTurn sink text limits parser

/-- The parser in front of the document, past a byte order mark. -/
def start (state : σ) : XmlParser σ :=
  { pos := if text.take 3 = [0xef, 0xbb, 0xbf] then 3 else 0, sink := state }

def run (state : σ) : Option (XmlError × XmlParser σ) :=
  if limits.maxDocumentSize < text.length then some (.sizeExceeded, { sink := state })
  else loop (turn sink text limits) (text.length + 1) (start text state)

end XmlParser

structure XmlDocument where
  root : Option XmlElement := none
  error : XmlError := .ok
  errorOffset : Nat := 0

/-- The document after `parse()`, which drops whatever it held. -/
def XmlDocument.parse (text : Bytes) (limits : Limits) : Option XmlDocument :=
  (XmlParser.run treeSink text limits {}).map fun (error, parser) =>
    { root := if error ≠ .ok then none else parser.sink.document
      error
      errorOffset := parser.pos }

/-- What a caller of `XmlReader::parse()` gets: the result, the offset and the calls of its
handler. -/
structure XmlReading where
  error : XmlError
  errorOffset : Nat
  events : List Event
  deriving DecidableEq, Repr

def XmlReader.parse (text : Bytes) (limits : Limits) : Option XmlReading :=
  (XmlParser.run handlerSink text limits [.startDocument]).map fun (error, parser) =>
    { error
      errorOffset := parser.pos
      events := if error = .ok then parser.sink ++ [.endDocument] else parser.sink }

example : (XmlReader.parse (ascii "<a:b c='&#x41;'>x&amp;<!-- -->y<d/></b>") {}).map
    (fun reading => (reading.error, reading.events)) =
      some (.ok, [.startDocument,
        .startElement (ascii "a") (ascii "b") [(ascii "c", ascii "A")],
        .characters (ascii "x&"), .characters (ascii "y"),
        .startElement [] (ascii "d") [], .endElement [] (ascii "d"),
        .endElement [] (ascii "b"), .endDocument]) := by
  decide +kernel

end SamuraiFormal.Xml
