import Mathlib.Algebra.GroupWithZero.Nat
import SamuraiFormal.Http.Numbers
import SamuraiFormal.Http.ResponseSegments

/-!
# Reading back an encoded response

A response is written as HTTP/1.1: a status line, header fields with the framing field
somewhere among them, and a body of known length or in chunks.  Parsing the encoding,
with any bytes behind it, returns the response and leaves those bytes.  Each piece of the
encoding is read back by one lemma, which also counts the bytes of its lines.
-/

namespace SamuraiFormal.Http

open Util
open List

namespace Encoding

def crlf : Bytes := [carriageReturn, lineFeed]

def line (text : Bytes) : Bytes := text ++ crlf

/-- A text that stays on one line. -/
def OneLine (text : Bytes) : Prop := carriageReturn ∉ text ∧ lineFeed ∉ text

instance (text : Bytes) : Decidable (OneLine text) := inferInstanceAs (Decidable (_ ∧ _))

/-- A header field that can be written down. -/
structure IsField (field : Bytes × Bytes) : Prop where
  named : field.1 ≠ []
  name : OneLine field.1
  colon : (58 : UInt8) ∉ field.1
  trimmed : trim field.1 = field.1
  value : OneLine field.2

def isContentLength (name : Bytes) : Bool := iequals name (ascii "Content-Length")

def isTransferEncoding (name : Bytes) : Bool := iequals name (ascii "Transfer-Encoding")

/-- A field that says nothing about the body. -/
structure IsPlainField (field : Bytes × Bytes) : Prop extends IsField field where
  length : isContentLength field.1 = false
  coding : isTransferEncoding field.1 = false

def fieldLine (field : Bytes × Bytes) : Bytes := field.1 ++ 58 :: field.2

def encodeFields (fields : List (Bytes × Bytes)) : Bytes :=
  fields.flatMap fun field => line (fieldLine field)

/-- The line in front of a chunk: its size, blanks, and extensions if there are any. -/
structure SizeLine where
  digits : Bytes
  blanks : Bytes
  extensions : Option Bytes

def SizeLine.text (header : SizeLine) : Bytes :=
  header.digits ++ header.blanks ++ header.extensions.elim [] fun text => 59 :: text

structure SizeLine.Announces (header : SizeLine) (size : Nat) : Prop where
  digits : IsHexadecimal header.digits size
  blanks : ∀ c ∈ header.blanks, c = space ∨ c = 9
  extensions : ∀ text, header.extensions = some text → OneLine text

structure Chunk where
  header : SizeLine
  data : Bytes

def Chunk.encode (chunk : Chunk) : Bytes := line chunk.header.text ++ (chunk.data ++ crlf)

/-- A body with the field that frames it. -/
inductive Payload where
  | length (field : Bytes × Bytes) (body : Bytes)
  | chunked (field : Bytes × Bytes) (chunks : List Chunk) (last : SizeLine)
      (trailers : List Bytes)

namespace Payload

def field : Payload → Bytes × Bytes
  | .length field _ => field
  | .chunked field _ _ _ => field

def body : Payload → Bytes
  | .length _ body => body
  | .chunked _ chunks _ _ => chunks.flatMap Chunk.data

def encode : Payload → Bytes
  | .length _ body => body
  | .chunked _ chunks last trailers =>
    chunks.flatMap Chunk.encode ++ (line last.text ++ (trailers.flatMap line ++ crlf))

/-- The bytes of the lines between and behind the chunks. -/
def lines : Payload → Nat
  | .length _ _ => 0
  | .chunked _ chunks last trailers =>
    (chunks.map fun chunk => (line chunk.header.text).length + crlf.length).sum +
      (line last.text).length + (trailers.flatMap line).length + crlf.length

/-- The framing field fits the body, and each chunk its line and the limit. -/
inductive Valid (limits : Limits) : Payload → Prop where
  | length {field : Bytes × Bytes} {body : Bytes} (isField : IsField field)
      (named : isContentLength field.1 = true) (value : IsDecimal (trim field.2) body.length) :
      Valid limits (.length field body)
  | chunked {field : Bytes × Bytes} {chunks : List Chunk} {last : SizeLine}
      {trailers : List Bytes} (isField : IsField field)
      (named : isTransferEncoding field.1 = true)
      (value : iequals (trim field.2) (ascii "chunked") = true)
      (each : ∀ chunk ∈ chunks, chunk.data ≠ [] ∧ chunk.header.Announces chunk.data.length ∧
        chunk.data.length ≤ limits.maxChunkSize)
      (ends : last.Announces 0) (behind : ∀ trailer ∈ trailers, trailer ≠ [] ∧ OneLine trailer) :
      Valid limits (.chunked field chunks last trailers)

theorem Valid.isField {limits : Limits} {payload : Payload} (valid : payload.Valid limits) :
    IsField payload.field := by
  cases valid with
  | length isField _ _ | chunked isField _ _ _ _ _ => exact isField

end Payload

def digit (value : Nat) : UInt8 := UInt8.ofNat (48 + value % 10)

def statusText (code : Nat) (reason : Bytes) : Bytes :=
  ascii "HTTP/1.1 " ++ [digit (code / 100), digit (code / 10), digit code] ++ space :: reason

structure Message where
  code : Nat
  reason : Bytes
  before : List (Bytes × Bytes)
  payload : Payload
  after : List (Bytes × Bytes)

namespace Message

def fields (message : Message) : List (Bytes × Bytes) :=
  message.before ++ message.payload.field :: message.after

def encode (message : Message) : Bytes :=
  line (statusText message.code message.reason) ++
    (encodeFields message.fields ++ (crlf ++ message.payload.encode))

/-- The bytes of all lines. -/
def lines (message : Message) : Nat :=
  (line (statusText message.code message.reason)).length + (encodeFields message.fields).length +
    crlf.length + message.payload.lines

/-- The response that is written: the reason and the values lose the blanks around them. -/
def response (message : Message) : Response where
  statusCode := message.code
  reason := trim message.reason
  headers := ⟨message.fields.map fun field => (field.1, trim field.2)⟩
  body := message.payload.body

/-- A response that has a body and fits into the limits. -/
structure Valid (limits : Limits) (message : Message) : Prop where
  code : 200 ≤ message.code ∧ message.code ≤ 599 ∧ message.code ≠ 204 ∧ message.code ≠ 304
  reason : OneLine message.reason
  plain : ∀ field ∈ message.before ++ message.after, IsPlainField field
  payload : message.payload.Valid limits
  short : message.payload.body.length < 2 ^ 63
  body : message.payload.body.length ≤ limits.maxBody
  count : message.fields.length ≤ limits.maxHeaderCount
  block : message.lines ≤ limits.maxHeaderBlock
  addressable : limits.maxHeaderBlock < 2 ^ 64

end Message

variable {value final : Nat} {text : Bytes} {field : Bytes × Bytes}

/-- No hexadecimal digit is a blank, a line end or the start of an extension. -/
theorem hexValue_of_not_digit {c : UInt8} (other : c ∈ ([9, 10, 13, 32, 59] : Bytes)) :
    hexValue c = none := by
  simp only [mem_cons, not_mem_nil, or_false] at other
  rcases other with rfl | rfl | rfl | rfl | rfl <;> rfl

theorem trim_append_blanks {front blanks : Bytes} (solid : ∀ c ∈ front, isSpace c = false)
    (blank : ∀ c ∈ blanks, isSpace c = true) : trim (front ++ blanks) = front := by
  have drops : List.rdropWhile isSpace (front ++ blanks) = front := by
    rw [List.rdropWhile, reverse_append, dropWhile_append_of_pos]
    · cases reversed : front.reverse with
      | nil => simpa using reversed
      | cons c rest =>
        have member : c ∈ front := mem_reverse.mp (by simp [reversed])
        rw [dropWhile_cons_of_neg (by simp [solid c member]), ← reversed,
          reverse_reverse]
    · intro c member
      exact blank c (mem_reverse.mp member)
  cases front with
  | nil => simp [trim, dropWhile_eq_nil_iff.mpr blank]
  | cons c rest =>
    rw [trim, cons_append, dropWhile_cons_of_neg (by simp [solid c])]
    exact drops

theorem not_isSpace_of_trim {c : UInt8} {rest : Bytes} (trimmed : trim (c :: rest) = c :: rest) :
    isSpace c = false := by
  by_contra blank
  rw [trim, dropWhile_cons_of_pos (by simpa using blank)] at trimmed
  have front := rdropWhile_prefix isSpace (rest.dropWhile isSpace)
  have shorter := front.length_le
  have shorter' := (dropWhile_suffix isSpace (l := rest)).length_le
  rw [trimmed, length_cons] at shorter
  omega

theorem parseChunkSize_of_announces {header : SizeLine} {size : Nat} (small : size < 2 ^ 63)
    (announces : header.Announces size) :
    Number.parseChunkSize header.text 0 = (true, size) := by
  have digits := mem_of_digitsValue announces.digits.2
  have solid : ∀ c ∈ header.digits, isSpace c = false ∧ c ≠ 59 := by
    intro c member
    have known := digits c member
    by_cases other : c ∈ ([9, 10, 13, 32, 59] : Bytes)
    · exact absurd (hexValue_of_not_digit other) known
    · simp only [mem_cons, not_or] at other
      simp [isSpace, other]
  have blank : ∀ c ∈ header.blanks, isSpace c = true := by
    intro c member
    rcases announces.blanks c member with rfl | rfl <;> decide
  have noSemi : (59 : UInt8) ∉ header.digits ++ header.blanks := by
    intro member
    rcases mem_append.mp member with inDigits | inBlanks
    · exact (solid _ inDigits).2 rfl
    · exact absurd (blank _ inBlanks) (by decide)
  have trimmed : trim (header.digits ++ header.blanks) = header.digits :=
    trim_append_blanks (fun c member => (solid c member).1) blank
  have part : header.text.takeWhile (· != 59) = header.digits ++ header.blanks := by
    rw [SizeLine.text, takeWhile_append_of_pos]
    · cases header.extensions <;> simp
    · intro c member
      rw [bne_iff_ne]
      rintro rfl
      exact noSemi member
  refine parseChunkSize_iff.mpr ⟨?_, ?_⟩
  · rw [sizeText, part, trimmed]
    exact announces.digits
  · rw [sizeMax]
    omega

theorem decimalValue_digit (value : Nat) : decimalValue (digit value) = some (value % 10) := by
  have each : ∀ d < 10, decimalValue (UInt8.ofNat (48 + d)) = some d := by decide
  exact each _ (Nat.mod_lt _ (by decide))

theorem digit_ne_space (value : Nat) : digit value ≠ space := by
  have each : ∀ d < 10, UInt8.ofNat (48 + d) ≠ space := by decide
  exact each _ (Nat.mod_lt _ (by decide))

theorem oneLine_statusText {code : Nat} {reason : Bytes} (plain : OneLine reason) :
    lineFeed ∉ statusText code reason := by
  have each : ∀ d < 10, lineFeed ≠ UInt8.ofNat (48 + d) := by decide
  have other (value : Nat) : lineFeed ≠ digit value := each _ (Nat.mod_lt _ (by decide))
  have front : lineFeed ∉ ascii "HTTP/1.1 " := by decide
  simp [statusText, front, other, plain.2, show lineFeed ≠ space by decide]

theorem isDecimal_code {code : Nat} (three : code < 1000) :
    IsDecimal [digit (code / 100), digit (code / 10), digit code] code := by
  refine ⟨cons_ne_nil _ _, ?_⟩
  simp only [digitsValue, decimalValue_digit, Option.some.injEq]
  omega

theorem readStatusLine_statusText {code : Nat} (low : 100 ≤ code) (high : code ≤ 599)
    (reason : Bytes) :
    ResponseParser.readStatusLine (statusText code reason) = some (code, some (trim reason)) := by
  have digits := isDecimal_code (show code < 1000 by omega)
  have parsed := parseSize_of_isDecimal 0 (show code < 2 ^ 63 by omega) digits
  have text : statusText code reason = ascii "HTTP/1.1" ++
      (space :: ([digit (code / 100), digit (code / 10), digit code] ++ space :: reason)) := rfl
  have noSpace : space ∉ [digit (code / 100), digit (code / 10), digit code] := by
    simp [(digit_ne_space _).symm]
  have first : find (statusText code reason) space = some 8 := by
    rw [text]
    exact find_append_cons (by decide)
  have second : findFrom (statusText code reason) space 9 = some 12 := by
    have tail : (statusText code reason).drop 9 =
        [digit (code / 100), digit (code / 10), digit code] ++ space :: reason := by
      rfl
    rw [findFrom, tail, find_append_cons noSpace]
    rfl
  have blanks : ((statusText code reason).drop 8).takeWhile (· == space) = [space] := by
    rw [text]
    simp [ascii, digit_ne_space]
  have starts : istartsWith (statusText code reason) (ascii "HTTP/") = true := by
    rfl
  have version : ((statusText code reason).drop 5).take 3 = ascii "1.1" := by
    rfl
  have between : ((statusText code reason).drop 9).take 3 =
      [digit (code / 100), digit (code / 10), digit code] := by
    rfl
  have behind : (statusText code reason).drop 13 = reason := by
    rfl
  have range : ¬ (code < 100 ∨ 599 < code) := by omega
  simp [ResponseParser.readStatusLine, starts, first, version, blanks, second, between, parsed,
    range, behind]

theorem readHeaderLine_fieldLine (isField : IsField field) :
    ResponseParser.readHeaderLine (fieldLine field) = some (field.1, trim field.2) := by
  have noBlank : ¬ ((fieldLine field).head? = some space ∨ (fieldLine field).head? = some 9) := by
    cases name : field.1 with
    | nil => exact absurd name isField.named
    | cons c rest =>
      have solid := not_isSpace_of_trim (name ▸ isField.trimmed)
      rw [fieldLine, name, cons_append]
      rintro (isBlank | isTab)
      · exact absurd (Option.some.inj isBlank ▸ solid) (by decide)
      · exact absurd (Option.some.inj isTab ▸ solid) (by decide)
  have cut : splitOnce (fieldLine field) 58 = some field := by
    simp [splitOnce, fieldLine, find_append_cons isField.colon]
  rw [ResponseParser.readHeaderLine, if_neg noBlank, cut]
  simp [isField.named, isField.trimmed]

end Encoding

namespace ResponseParser

open Encoding

variable {limits : Limits} {message : Message} {parser : ResponseParser} {text : Bytes}
  {field : Bytes × Bytes} {trailers : List Bytes}

/-- Count the bytes of lines. -/
def counted (parser : ResponseParser) (bytes : Nat) : ResponseParser :=
  { parser with headerBytes := parser.headerBytes + bytes }

theorem counted_counted (parser : ResponseParser) (first second : Nat) :
    (parser.counted first).counted second = parser.counted (first + second) := by
  simp [counted, Nat.add_assoc]

/-- There is room for lines of so many bytes. -/
structure Room (parser : ResponseParser) (bytes : Nat) : Prop where
  fits : parser.headerBytes + bytes ≤ parser.limits.maxHeaderBlock
  addressable : parser.limits.maxHeaderBlock < 2 ^ 64

theorem Room.counted {first second : Nat} (room : Room parser (first + second)) :
    Room (parser.counted first) second :=
  ⟨by simpa [ResponseParser.counted, Nat.add_assoc] using room.fits, room.addressable⟩

theorem Room.mono {less more : Nat} (room : Room parser more) (le : less ≤ more) :
    Room parser less :=
  ⟨(Nat.add_le_add_left le _).trans room.fits, room.addressable⟩

theorem line_append (plain : lineFeed ∉ text) (rest : Bytes) :
    line text ++ rest = (text ++ [carriageReturn]) ++ lineFeed :: rest ∧
      lineFeed ∉ text ++ [carriageReturn] := by
  simp [line, crlf, plain, show lineFeed ≠ carriageReturn by decide]

theorem takeLine_line (plain : lineFeed ∉ text) (room : Room parser (line text).length)
    (rest : Bytes) :
    takeLine parser (line text ++ rest) =
      .taken text false (parser.counted (line text).length) rest := by
  obtain ⟨shape, noFeed⟩ := line_append plain rest
  have found : find (line text ++ rest) lineFeed = some (text.length + 1) := by
    rw [shape, find_append_cons noFeed]
    simp
  have before : (line text ++ rest)[text.length]? = some carriageReturn := by
    simp [line, crlf]
  have long : (line text).length = text.length + 2 := by simp [line, crlf]
  have fits := room.fits
  have addressable := room.addressable
  have short : ¬ parser.limits.maxHeaderBlock < text.length + 1 := by omega
  have wraps : (parser.headerBytes + (text.length + 1 + 1)) % 2 ^ 64 =
      parser.headerBytes + (line text).length := by
    rw [Nat.mod_eq_of_lt (by omega), long]
  have front : (line text ++ rest).take text.length = text := by simp [line]
  have back : (line text ++ rest).drop (text.length + 1 + 1) = rest := by
    rw [← long]
    exact drop_left
  simp only [takeLine, found, if_neg short, Nat.add_sub_cancel, before, Nat.succ_pos, true_and,
    if_true, wraps, front, back, counted]
  simpa using fits

theorem takeLines_line (handle : Bytes → ResponseParser → Verdict ⊕ ResponseParser)
    (plain : lineFeed ∉ text) (room : Room parser (line text).length) (rest : Bytes) :
    takeLines handle parser (line text ++ rest) =
      match handle text (parser.counted (line text).length) with
      | .inl verdict => verdict.leaving rest
      | .inr parser => takeLines handle parser rest := by
  rw [takeLines_eq, takeLine_line plain room rest]
  rfl

/-- Add fields as they are stored: with their values trimmed. -/
def withFields (parser : ResponseParser) (fields : List (Bytes × Bytes)) : ResponseParser :=
  { parser with response := { parser.response with
      headers := ⟨parser.response.headers.fields ++
        fields.map fun field => (field.1, trim field.2)⟩ } }

theorem withFields_nil (parser : ResponseParser) : parser.withFields [] = parser := by
  simp [withFields]

theorem lineFeed_not_mem_fieldLine (isField : IsField field) : lineFeed ∉ fieldLine field := by
  simp [fieldLine, isField.name.2, isField.value.2, show lineFeed ≠ 58 by decide]

theorem headerLine_fieldLine (isField : IsField field)
    (free : parser.response.headers.fields.length < parser.limits.maxHeaderCount) :
    headerLine (fieldLine field) parser = .inr (parser.withFields [field]) := by
  have solid : fieldLine field ≠ [] := by simp [fieldLine]
  have below : ¬ parser.limits.maxHeaderCount ≤ parser.response.headers.size :=
    Nat.not_le.mpr free
  rw [headerLine, if_neg solid, readHeaderLine_fieldLine isField]
  simp only [if_neg below]
  rfl

theorem parseHeaderBlock_fields {fields : List (Bytes × Bytes)}
    (each : ∀ field ∈ fields, IsField field)
    (room : Room parser ((encodeFields fields).length + crlf.length))
    (count : parser.response.headers.fields.length + fields.length ≤ parser.limits.maxHeaderCount)
    (rest : Bytes) :
    parseHeaderBlock parser (encodeFields fields ++ (crlf ++ rest)) =
      (chooseBodyFraming ((parser.withFields fields).counted
        ((encodeFields fields).length + crlf.length))).leaving rest := by
  -- by induction on the fields, for the parser that the fields in front have left
  induction fields generalizing parser with
  | nil =>
    have blank : Room parser (line []).length := room.mono (by simp [line])
    rw [withFields_nil]
    exact takeLines_line headerLine not_mem_nil blank rest
  | cons field fields ih =>
    have isField := each field mem_cons_self
    have lengths : (encodeFields (field :: fields)).length + crlf.length =
        (line (fieldLine field)).length + ((encodeFields fields).length + crlf.length) := by
      simp [encodeFields, Nat.add_assoc]
    rw [length_cons] at count
    rw [lengths] at room ⊢
    have first := takeLines_line headerLine (lineFeed_not_mem_fieldLine isField)
      (room.mono (Nat.le_add_right _ _)) (encodeFields fields ++ (crlf ++ rest))
    rw [headerLine_fieldLine isField (by simp only [counted]; omega)] at first
    have free : Room ((parser.counted (line (fieldLine field)).length).withFields [field])
        ((encodeFields fields).length + crlf.length) :=
      ⟨room.counted.fits, room.addressable⟩
    have others := ih (fun other member => each other (mem_cons_of_mem _ member)) free
      (by simp [withFields, counted]; omega)
    have input : encodeFields (field :: fields) ++ (crlf ++ rest) =
        line (fieldLine field) ++ (encodeFields fields ++ (crlf ++ rest)) := by
      simp [encodeFields]
    rw [input]
    refine first.trans (others.trans ?_)
    simp [withFields, counted, Nat.add_assoc]

theorem agreedLength_append (seen : Option Bytes) (front back : List (Bytes × Bytes))
    (other : ∀ field ∈ front, isContentLength field.1 = false) :
    agreedLength seen (front ++ back) = agreedLength seen back := by
  induction front with
  | nil => rfl
  | cons field front ih =>
    have first : iequals field.1 (ascii "Content-Length") = false :=
      other field mem_cons_self
    rw [cons_append, agreedLength, if_pos (by rw [first]; rfl)]
    exact ih fun field member => other field (mem_cons_of_mem _ member)

/-- Among fields of other names, the one of this name is the one that is read. -/
theorem get_of_fields {headers : Headers} {before after : List (Bytes × Bytes)} {name : Bytes}
    (fields : headers.fields = before ++ field :: after)
    (other : ∀ field ∈ before, iequals field.1 name = false) (named : iequals field.1 name = true) :
    headers.get name = some field.2 := by
  have missing : before.find? (fun field => iequals field.1 name) = none := by
    rw [find?_eq_none]
    intro field member
    simp [other field member]
  simp [Headers.get, fields, missing, named]

theorem get_eq_none {fields : List (Bytes × Bytes)} {name : Bytes}
    (other : ∀ field ∈ fields, iequals field.1 name = false) :
    Headers.get ⟨fields⟩ name = none := by
  rw [Headers.get, Option.map_eq_none_iff, find?_eq_none]
  intro field member
  simp [other field member]

/-- A status that lets a body follow. -/
structure MayHaveBody (parser : ResponseParser) : Prop where
  body : parser.noBody = false
  success : 200 ≤ parser.response.statusCode
  content : parser.response.statusCode ≠ 204
  modified : parser.response.statusCode ≠ 304

theorem MayHaveBody.not_complete (may : MayHaveBody parser) :
    ¬ (parser.noBody = true ∨
      (100 ≤ parser.response.statusCode ∧ parser.response.statusCode < 200) ∨
      parser.response.statusCode = 204 ∨ parser.response.statusCode = 304) := by
  have success := may.success
  have content := may.content
  have modified := may.modified
  rw [may.body]
  simp only [Bool.false_eq_true, false_or]
  omega

theorem chooseBodyFraming_chunked (may : MayHaveBody parser) {coding : Bytes}
    (got : parser.response.headers.get (ascii "Transfer-Encoding") = some coding)
    (chunked : iequals (trim coding) (ascii "chunked") = true) :
    chooseBodyFraming parser = enter parser .bodyChunkSize := by
  simp only [chooseBodyFraming, if_neg may.not_complete, got, if_pos chunked]

theorem chooseBodyFraming_length (may : MayHaveBody parser) {before after : List (Bytes × Bytes)}
    {length : Nat} (fields : parser.response.headers.fields = before ++ field :: after)
    (plain : ∀ other ∈ before ++ after, isContentLength other.1 = false)
    (coding : parser.response.headers.get (ascii "Transfer-Encoding") = none)
    (named : isContentLength field.1 = true)
    (value : Number.parseSize (trim field.2) 0 = (true, length))
    (fits : length ≤ parser.limits.maxBody) :
    chooseBodyFraming parser =
      if length = 0 then complete { parser with bodyRemaining := length }
      else enter { parser with bodyRemaining := length } .bodyLength := by
  have got : parser.response.headers.get (ascii "Content-Length") = some field.2 :=
    get_of_fields fields (fun other member => plain other (mem_append_left _ member)) named
  have agreed : agreedLength none parser.response.headers.fields = some (some field.2) := by
    have isLength : iequals field.1 (ascii "Content-Length") = true := named
    have rest := agreedLength_append (some field.2) after []
      fun other member => plain other (mem_append_right _ member)
    rw [append_nil] at rest
    rw [fields, agreedLength_append none before _
      fun other member => plain other (mem_append_left _ member)]
    simp only [agreedLength, isLength, Bool.not_true, Bool.false_eq_true, if_false,
      Option.any_none, rest]
  have has : parser.response.headers.has (ascii "Content-Length") = true := by
    rw [Headers.has, got]
    rfl
  simp only [chooseBodyFraming, if_neg may.not_complete, coding, chooseLength, has, if_true,
    agreed, Option.getD_some, value, if_neg (Nat.not_lt.mpr fits)]

theorem parse_next {parser' : ResponseParser} {input rest : Bytes} (fine : parser.status = .ok)
    (passed : pass parser input = ⟨.needMore, parser', rest⟩) :
    parse parser input = parse parser' rest := by
  have next := parse_pass fine (by rw [passed])
  rwa [passed] at next

theorem parse_complete {parser' : ResponseParser} {input rest : Bytes}
    (fine : parser.status = .ok) (passed : pass parser input = ⟨.complete, parser', rest⟩) :
    parse parser input = ⟨.complete, parser', rest⟩ := by
  rw [parse_last fine (.inl (by rw [passed]; exact nofun)), passed]

/-- The parser completes this response and leaves these bytes. -/
structure Delivers (outcome : Outcome) (response : Response) (rest : Bytes) : Prop where
  complete : outcome.result = .complete
  response : outcome.parser.response = response
  rest : outcome.input = rest

theorem takeBody_exact {remaining : ResponseParser → Nat}
    {store : ResponseParser → Nat → ResponseParser} (counter : IsCounter remaining store)
    (finish : ResponseParser → Verdict) {body : Bytes} (solid : body ≠ [])
    (wanted : remaining parser = body.length) (rest : Bytes) :
    takeBody remaining store finish parser (body ++ rest) =
      (finish (store (withBody parser body) 0)).leaving rest := by
  have some' : body ++ rest ≠ [] := by simp [solid]
  have enough : remaining parser ≤ (body ++ rest).length := by simp [wanted]
  rw [takeBody_long counter some' enough, wanted, take_left, drop_left]

theorem delivers_length (fine : parser.status = .ok) (state : parser.state = .bodyLength)
    {body : Bytes} (solid : body ≠ []) (wanted : parser.bodyRemaining = body.length)
    (rest : Bytes) :
    Delivers (parse parser (body ++ rest)) (parser.withBody body).response rest := by
  have passed : pass parser (body ++ rest) =
      (complete (setBodyRemaining (withBody parser body) 0)).leaving rest := by
    simp only [pass, state]
    exact takeBody_exact bodyRemaining_isCounter complete solid wanted rest
  rw [parse_complete fine passed]
  exact ⟨rfl, rfl, rfl⟩

theorem parseTrailers_lines (each : ∀ trailer ∈ trailers, trailer ≠ [] ∧ OneLine trailer)
    (room : Room parser ((trailers.flatMap line).length + crlf.length)) (rest : Bytes) :
    parseTrailers parser (trailers.flatMap line ++ (crlf ++ rest)) =
      (complete (parser.counted ((trailers.flatMap line).length + crlf.length))).leaving rest := by
  induction trailers generalizing parser with
  | nil =>
    have blank : Room parser (line []).length := room.mono (by simp [line])
    have last := takeLines_line
      (fun line parser => if line = [] then .inl (complete parser) else .inr parser)
      not_mem_nil blank rest
    simpa [parseTrailers, line] using last
  | cons trailer trailers ih =>
    obtain ⟨solid, plain⟩ := each trailer mem_cons_self
    have lengths : ((trailer :: trailers).flatMap line).length + crlf.length =
        (line trailer).length + ((trailers.flatMap line).length + crlf.length) := by
      simp [Nat.add_assoc]
    rw [lengths] at room ⊢
    have first := takeLines_line
      (fun line parser => if line = [] then .inl (complete parser) else .inr parser)
      plain.2 (room.mono (Nat.le_add_right _ _)) (trailers.flatMap line ++ (crlf ++ rest))
    rw [if_neg solid] at first
    have others := ih (fun other member => each other (mem_cons_of_mem _ member))
      room.counted
    rw [counted_counted] at others
    rw [flatMap_cons, append_assoc]
    exact first.trans others

/-- The body of the encoding holds no line feed in its size lines. -/
theorem lineFeed_not_mem_sizeLine {header : SizeLine} {size : Nat}
    (announces : header.Announces size) : lineFeed ∉ header.text := by
  have digits := mem_of_digitsValue announces.digits.2
  intro member
  rcases mem_append.mp member with front | extension
  · rcases mem_append.mp front with inDigits | inBlanks
    · exact digits _ inDigits (by decide)
    · rcases announces.blanks _ inBlanks with isBlank | isTab
      · exact absurd isBlank (by decide)
      · exact absurd isTab (by decide)
  · cases some' : header.extensions with
    | none => simp [some'] at extension
    | some text =>
      have plain := (announces.extensions text some').2
      simp [some', plain, show lineFeed ≠ 59 by decide] at extension

theorem pass_sizeLine (state : parser.state = .bodyChunkSize) {header : SizeLine} {size : Nat}
    (announces : header.Announces size) (small : size ≤ parser.limits.maxChunkSize)
    (short : parser.response.body.length + size < 2 ^ 63)
    (fits : parser.response.body.length + size ≤ parser.limits.maxBody)
    (room : Room parser (line header.text).length) (rest : Bytes) :
    pass parser (line header.text ++ rest) =
      (if size = 0 then enter (parser.counted (line header.text).length) .bodyTrailers
        else enter { parser.counted (line header.text).length with chunkRemaining := size }
          .bodyChunkData).leaving rest := by
  have read := parseChunkSize_of_announces (by omega) announces
  have wraps : (parser.response.body.length + size) % 2 ^ 64 =
      parser.response.body.length + size := Nat.mod_eq_of_lt (by omega)
  simp only [pass, state]
  refine (takeLines_line (fun line parser => .inl (chunkSizeLine line parser))
    (lineFeed_not_mem_sizeLine announces) room rest).trans ?_
  simp only [chunkSizeLine, read, counted, wraps, if_neg (Nat.not_lt.mpr small),
    if_neg (Nat.not_lt.mpr fits)]

theorem parse_chunkData (fine : parser.status = .ok) (state : parser.state = .bodyChunkData)
    {data : Bytes} (solid : data ≠ []) (wanted : parser.chunkRemaining = data.length)
    (rest : Bytes) :
    parse parser (data ++ rest) =
      parse { parser.withBody data with chunkRemaining := 0, state := .bodyChunkCrlf } rest := by
  apply parse_next fine
  simp only [pass, state]
  exact takeBody_exact chunkRemaining_isCounter (fun parser => enter parser .bodyChunkCrlf) solid
    wanted rest

theorem parse_chunkCrlf (fine : parser.status = .ok) (state : parser.state = .bodyChunkCrlf)
    (room : Room parser crlf.length) (rest : Bytes) :
    parse parser (crlf ++ rest) =
      parse { parser.counted crlf.length with state := .bodyChunkSize } rest := by
  apply parse_next fine
  simp only [pass, state]
  exact takeLines_line (fun line parser => .inl
    (if line ≠ [] then fail parser .malformedResponse else enter parser .bodyChunkSize))
    not_mem_nil room rest

/-- The bytes of the two lines around the data of a chunk. -/
def chunkLines (chunk : Chunk) : Nat := (line chunk.header.text).length + crlf.length

/-- The parser behind a chunk. -/
def pastChunk (parser : ResponseParser) (chunk : Chunk) : ResponseParser :=
  { (parser.counted (chunkLines chunk)).withBody chunk.data with
    state := .bodyChunkSize
    chunkRemaining := 0 }

theorem parse_chunk (fine : parser.status = .ok) (state : parser.state = .bodyChunkSize)
    {chunk : Chunk} (solid : chunk.data ≠ [])
    (announces : chunk.header.Announces chunk.data.length)
    (small : chunk.data.length ≤ parser.limits.maxChunkSize)
    (short : parser.response.body.length + chunk.data.length < 2 ^ 63)
    (fits : parser.response.body.length + chunk.data.length ≤ parser.limits.maxBody)
    (room : Room parser (chunkLines chunk)) (rest : Bytes) :
    parse parser (chunk.encode ++ rest) = parse (parser.pastChunk chunk) rest := by
  have positive : chunk.data.length ≠ 0 := by simpa using solid
  have input : chunk.encode ++ rest =
      line chunk.header.text ++ (chunk.data ++ (crlf ++ rest)) := by
    simp [Chunk.encode]
  have sized := pass_sizeLine state announces small short fits
    (room.mono (Nat.le_add_right _ _)) (chunk.data ++ (crlf ++ rest))
  rw [if_neg positive] at sized
  rw [input]
  refine (parse_next fine sized).trans ?_
  refine (parse_chunkData ?_ rfl solid rfl _).trans ?_
  · exact fine
  refine (parse_chunkCrlf ?_ rfl ?_ rest).trans ?_
  · exact fine
  · exact ⟨room.counted.fits, room.addressable⟩
  · simp [enter, pastChunk, chunkLines, counted, withBody, Nat.add_assoc]

theorem parse_trailers (fine : parser.status = .ok) (state : parser.state = .bodyTrailers)
    (each : ∀ trailer ∈ trailers, trailer ≠ [] ∧ OneLine trailer)
    (room : Room parser ((trailers.flatMap line).length + crlf.length)) (rest : Bytes) :
    parse parser (trailers.flatMap line ++ (crlf ++ rest)) =
      (complete (parser.counted ((trailers.flatMap line).length + crlf.length))).leaving rest := by
  apply parse_complete fine
  simp only [pass, state]
  exact parseTrailers_lines each room rest

theorem delivers_chunks {chunks : List Chunk} {last : SizeLine}
    (each : ∀ chunk ∈ chunks, chunk.data ≠ [] ∧ chunk.header.Announces chunk.data.length ∧
      chunk.data.length ≤ limits.maxChunkSize) (ends : last.Announces 0)
    (behind : ∀ trailer ∈ trailers, trailer ≠ [] ∧ OneLine trailer)
    (bounds : parser.limits = limits) (fine : parser.status = .ok)
    (state : parser.state = .bodyChunkSize)
    (short : (parser.response.body ++ chunks.flatMap Chunk.data).length < 2 ^ 63)
    (fits : (parser.response.body ++ chunks.flatMap Chunk.data).length ≤ limits.maxBody)
    (room : Room parser ((chunks.map chunkLines).sum + (line last.text).length +
      (trailers.flatMap line).length + crlf.length)) (rest : Bytes) :
    Delivers (parse parser (chunks.flatMap Chunk.encode ++
        (line last.text ++ (trailers.flatMap line ++ (crlf ++ rest)))))
      (parser.withBody (chunks.flatMap Chunk.data)).response rest := by
  -- by induction on the chunks, for the body that the chunks in front have left
  induction chunks generalizing parser with
  | nil =>
    simp only [flatMap_nil, append_nil, nil_append, map_nil,
      sum_nil, Nat.zero_add, Nat.add_assoc] at short fits room ⊢
    have sized := pass_sizeLine state ends (Nat.zero_le _) short (bounds ▸ fits)
      (room.mono (Nat.le_add_right _ _)) (trailers.flatMap line ++ (crlf ++ rest))
    have trailing : Room { parser.counted (line last.text).length with state := .bodyTrailers }
        ((trailers.flatMap line).length + crlf.length) :=
      ⟨room.counted.fits, room.addressable⟩
    have done := (parse_next fine sized).trans (parse_trailers (by exact fine) rfl behind
      trailing rest)
    rw [done, withBody_nil]
    exact ⟨rfl, rfl, rfl⟩
  | cons chunk chunks ih =>
    obtain ⟨solid, announces, small⟩ := each chunk mem_cons_self
    simp only [flatMap_cons, length_append] at short fits
    have lines : ((chunk :: chunks).map chunkLines).sum + (line last.text).length +
        (trailers.flatMap line).length + crlf.length = chunkLines chunk +
        ((chunks.map chunkLines).sum + (line last.text).length +
          (trailers.flatMap line).length + crlf.length) := by
      simp only [map_cons, sum_cons]
      omega
    rw [lines] at room
    have first := parse_chunk fine state solid announces (bounds ▸ small) (by omega)
      (by rw [bounds]; omega) (room.mono (Nat.le_add_right _ _))
    have others : Delivers (parse (parser.pastChunk chunk) _) _ rest :=
      ih (fun other member => each other (mem_cons_of_mem _ member)) bounds fine rfl
        (by simp only [pastChunk, withBody, counted, length_append]; omega)
        (by simp only [pastChunk, withBody, counted, length_append]; omega)
        ⟨room.counted.fits, room.addressable⟩
    rw [flatMap_cons, append_assoc, first]
    refine ⟨others.complete, others.response.trans ?_, others.rest⟩
    simp [pastChunk, withBody, counted]

/-! ## The round trip -/

theorem isField_of_valid (valid : message.Valid limits) :
    ∀ field ∈ message.fields, IsField field := by
  intro field member
  rcases mem_append.mp member with before | framing
  · exact (valid.plain field (mem_append_left _ before)).toIsField
  rcases mem_cons.mp framing with rfl | after
  · exact valid.payload.isField
  · exact (valid.plain field (mem_append_right _ after)).toIsField

/-- The bytes of the status line and the header block. -/
def headLines (message : Message) : Nat :=
  (line (statusText message.code message.reason)).length +
    ((encodeFields message.fields).length + crlf.length)

/-- The parser behind the header block, before it chooses a framing. -/
def pastFields (limits : Limits) (message : Message) : ResponseParser where
  limits := limits
  state := .headerBlock
  response := { message.response with body := [] }
  headerBytes := headLines message

/-- The parser behind the status line. -/
def pastStatus (limits : Limits) (message : Message) : ResponseParser where
  limits := limits
  state := .headerBlock
  response := { statusCode := message.code, reason := trim message.reason }
  headerBytes := (line (statusText message.code message.reason)).length

theorem parse_status (valid : message.Valid limits) (rest : Bytes) :
    parse (fresh limits false) (line (statusText message.code message.reason) ++ rest) =
      parse (pastStatus limits message) rest := by
  have low : 100 ≤ message.code := by
    have := valid.code.1
    omega
  have block := valid.block
  have room : Room (fresh limits false) (line (statusText message.code message.reason)).length := by
    refine ⟨?_, valid.addressable⟩
    simp only [Message.lines] at block
    simp only [fresh]
    omega
  apply parse_next rfl
  refine (takeLines_line (fun line parser => .inl (statusLine line parser))
    (oneLine_statusText valid.reason) room rest).trans ?_
  simp [statusLine, readStatusLine_statusText low valid.code.2.1, enter, pastStatus, counted,
    fresh, Verdict.leaving]

theorem pass_fields (valid : message.Valid limits) (rest : Bytes) :
    pass (pastStatus limits message) (encodeFields message.fields ++ (crlf ++ rest)) =
      (chooseBodyFraming (pastFields limits message)).leaving rest := by
  have block := valid.block
  have room : Room (pastStatus limits message)
      ((encodeFields message.fields).length + crlf.length) := by
    refine ⟨?_, valid.addressable⟩
    simp only [Message.lines] at block
    simp only [pastStatus]
    omega
  have read := parseHeaderBlock_fields (isField_of_valid valid) room
    (by simpa [pastStatus] using valid.count) rest
  refine read.trans ?_
  simp [pastStatus, pastFields, withFields, counted, headLines, Message.response]

theorem mayHaveBody_of_valid (valid : message.Valid limits) :
    MayHaveBody (pastFields limits message) :=
  ⟨rfl, valid.code.1, valid.code.2.2.1, valid.code.2.2.2⟩

/-- The names that the stored fields around the framing field do not have. -/
theorem stored_of_plain {name : Bytes} {fields : List (Bytes × Bytes)}
    (other : ∀ field ∈ fields, iequals field.1 name = false) :
    ∀ field ∈ fields.map (fun field => (field.1, trim field.2)),
      iequals field.1 name = false := by
  intro field member
  obtain ⟨source, inside, rfl⟩ := mem_map.mp member
  exact other source inside

theorem withBody_pastFields (limits : Limits) (message : Message) :
    ((pastFields limits message).withBody message.payload.body).response = message.response := by
  simp [withBody, pastFields, Message.response]

theorem fields_stored (limits : Limits) (message : Message) :
    (pastFields limits message).response.headers.fields =
      message.before.map (fun field => (field.1, trim field.2)) ++
        (message.payload.field.1, trim message.payload.field.2) ::
          message.after.map (fun field => (field.1, trim field.2)) := by
  simp [pastFields, Message.response, Message.fields]

theorem delivers_of_length (valid : message.Valid limits) {body : Bytes}
    (shape : message.payload = .length field body) (suffix : Bytes) :
    Delivers (parse (pastStatus limits message)
      (encodeFields message.fields ++ (crlf ++ (body ++ suffix)))) message.response suffix := by
  have payload := valid.payload
  have fits := valid.body
  have short := valid.short
  have stored := fields_stored limits message
  have response := withBody_pastFields limits message
  rw [shape] at payload fits short stored response
  cases payload with
  | length isField named value =>
    have parsed : Number.parseSize (trim (trim field.2)) 0 = (true, body.length) := by
      rw [trim_trim]
      exact parseSize_of_isDecimal 0 short value
    have plain := stored_of_plain fun other member => (valid.plain other member).length
    rw [map_append] at plain
    have notCoding : isTransferEncoding field.1 = false := by
      rw [Bool.eq_false_iff]
      intro coding
      have same := (iequals_iff.mp coding).symm.trans (iequals_iff.mp named)
      exact absurd same (by decide)
    have coding : (pastFields limits message).response.headers.get
        (ascii "Transfer-Encoding") = none := by
      refine get_eq_none (stored_of_plain fun other member => ?_)
      rcases mem_append.mp member with before | framing
      · exact (valid.plain other (mem_append_left _ before)).coding
      rcases mem_cons.mp framing with rfl | after
      · rw [shape]
        exact notCoding
      · exact (valid.plain other (mem_append_right _ after)).coding
    have passed := pass_fields valid (body ++ suffix)
    rw [chooseBodyFraming_length (mayHaveBody_of_valid valid) stored plain coding named parsed
      fits] at passed
    by_cases empty : body.length = 0
    · rw [if_pos empty] at passed
      obtain rfl := length_eq_zero_iff.mp empty
      rw [parse_complete rfl passed]
      exact ⟨rfl, (congrArg _ (withBody_nil _)).symm.trans response, rfl⟩
    · rw [if_neg empty] at passed
      have solid : body ≠ [] := fun none => empty (by rw [none]; rfl)
      rw [parse_next rfl passed]
      have done : Delivers (parse { pastFields limits message with
          bodyRemaining := body.length, state := .bodyLength } (body ++ suffix)) _ suffix :=
        delivers_length rfl rfl solid rfl suffix
      exact ⟨done.complete, done.response.trans response, done.rest⟩

theorem delivers_of_chunked (valid : message.Valid limits) {chunks : List Chunk} {last : SizeLine}
    (shape : message.payload = .chunked field chunks last trailers) (suffix : Bytes) :
    Delivers (parse (pastStatus limits message) (encodeFields message.fields ++
      (crlf ++ (message.payload.encode ++ suffix)))) message.response suffix := by
  have payload := valid.payload
  have fits := valid.body
  have short := valid.short
  have block := valid.block
  have stored := fields_stored limits message
  have response := withBody_pastFields limits message
  have passed := pass_fields valid (message.payload.encode ++ suffix)
  rw [shape] at payload fits short stored response
  cases payload with
  | chunked isField named value each ends behind =>
    have got : (pastFields limits message).response.headers.get
        (ascii "Transfer-Encoding") = some (trim field.2) :=
      get_of_fields stored (stored_of_plain fun other member =>
        (valid.plain other (mem_append_left _ member)).coding) named
    have chunked : iequals (trim (trim field.2)) (ascii "chunked") = true := by
      rwa [trim_trim]
    rw [chooseBodyFraming_chunked (mayHaveBody_of_valid valid) got chunked] at passed
    rw [parse_next rfl passed, shape]
    have room : Room { pastFields limits message with state := .bodyChunkSize }
        ((chunks.map chunkLines).sum + (line last.text).length +
          (trailers.flatMap line).length + crlf.length) := by
      refine ⟨?_, valid.addressable⟩
      simp only [Message.lines, shape, Payload.lines] at block
      simp only [pastFields, headLines]
      unfold chunkLines
      omega
    have done : Delivers (parse { pastFields limits message with state := .bodyChunkSize } _) _
        suffix :=
      delivers_chunks each ends behind rfl rfl rfl (by exact short) (by exact fits) room suffix
    simp only [Payload.encode, append_assoc]
    exact ⟨done.complete, done.response.trans response, done.rest⟩

/-- Parsing an encoded response returns it and leaves what stands behind it. -/
theorem parse_encode {limits : Limits} {message : Message} (valid : message.Valid limits)
    (suffix : Bytes) :
    Delivers (parse (fresh limits false) (message.encode ++ suffix)) message.response suffix := by
  simp only [Message.encode, append_assoc]
  rw [parse_status valid]
  cases shape : message.payload with
  | length field body => exact delivers_of_length valid shape suffix
  | chunked field chunks last trailers =>
    rw [← shape]
    exact delivers_of_chunked valid shape suffix

/-- A reply in two chunks, with an extension and a trailer. -/
def greeting : Message where
  code := 200
  reason := ascii "OK"
  before := [(ascii "Server", ascii " samurai ")]
  payload := .chunked (ascii "Transfer-Encoding", ascii " chunked")
    [⟨⟨ascii "2", ascii " ", some (ascii "x=1")⟩, ascii "he"⟩,
      ⟨⟨ascii "03", [], none⟩, ascii "llo"⟩]
    ⟨ascii "0", [], none⟩ [ascii "Expires: never"]
  after := [(ascii "Date", ascii "today")]

theorem parse_encode_greeting :
    greeting.Valid {} ∧
      Delivers (parse (fresh {} false) (greeting.encode ++ ascii "HTTP/1.1")) greeting.response
        (ascii "HTTP/1.1") ∧ greeting.response.body = ascii "hello" := by
  have field (name value : Bytes) (plain : name ≠ [] ∧ OneLine name ∧ (58 : UInt8) ∉ name ∧
      trim name = name ∧ OneLine value) : IsField (name, value) :=
    ⟨plain.1, plain.2.1, plain.2.2.1, plain.2.2.2.1, plain.2.2.2.2⟩
  have header {header : SizeLine} {size : Nat} (digits : IsHexadecimal header.digits size)
      (blanks : (header.blanks.all fun c => c = space ∨ c = 9) = true)
      (extensions : (header.extensions.all fun text => OneLine text) = true) :
      header.Announces size := by
    refine ⟨digits, by simpa using blanks, ?_⟩
    intro text given
    simpa [given] using extensions
  have valid : greeting.Valid {} := by
    refine ⟨by decide, by decide, ?_, ?_, by decide, by decide, by decide, by decide, by decide⟩
    · intro other member
      rcases mem_cons.mp member with rfl | member
      · exact ⟨field _ _ (by decide), by decide, by decide⟩
      · obtain rfl := mem_singleton.mp member
        exact ⟨field _ _ (by decide), by decide, by decide⟩
    · refine .chunked (field _ _ (by decide)) (by decide) (by decide) ?_ ?_ (by decide)
      · intro chunk member
        rcases mem_cons.mp member with rfl | member
        · exact ⟨by decide, header ⟨by decide, by decide⟩ (by decide) (by decide), by decide⟩
        · obtain rfl := mem_singleton.mp member
          exact ⟨by decide, header ⟨by decide, by decide⟩ (by decide) (by decide), by decide⟩
      · exact header ⟨by decide, by decide⟩ (by decide) (by decide)
  exact ⟨valid, parse_encode valid (ascii "HTTP/1.1"), by decide⟩

end ResponseParser

end SamuraiFormal.Http
