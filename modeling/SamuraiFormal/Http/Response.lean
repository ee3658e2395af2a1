import SamuraiFormal.Util.Text

/-!
# The HTTP response parser

`ResponseParser` and the header set it fills, function by function.  The input
`Buffer` is its list of live bytes; `size_t` sums wrap at `2 ^ 64`.  Every parsing
function returns its `Result` together with the parser and the input it leaves.

A `for (;;)` loop runs on fuel that its callers choose large enough; the unfolding
theorems next to each loop say that the fuel never shows.
-/

namespace SamuraiFormal.Http

open Util

/-- `SIZE_MAX` for a 64-bit `size_t`. -/
def sizeMax : Nat := 2 ^ 64 - 1

namespace Number

/-- The loop of `parse_size()` and the assignment behind it: the result and what the
argument `out` holds afterwards. -/
def parseSizeLoop (out : Nat) : Nat → Bytes → Bool × Nat
  | value, [] => (true, value)
  | value, digit :: rest =>
    if !isDigit digit then (false, out)
    else if (sizeMax - 9) / 10 < value then (false, out)
    else parseSizeLoop out (value * 10 + (digit.toNat - 48)) rest

/-- `parse_size()`: all digits, and fits. -/
def parseSize (text : Bytes) (out : Nat) : Bool × Nat :=
  if text = [] then (false, out) else parseSizeLoop out 0 text

/-- The loop of `parse_chunk_size()` and the assignment behind it. -/
def parseChunkSizeLoop (out : Nat) : Nat → Bytes → Bool × Nat
  | value, [] => (true, value)
  | value, digit :: rest =>
    match hexValue digit with
    | none => (false, out)
    | some d =>
      if (sizeMax - 15) / 16 < value then (false, out)
      else parseChunkSizeLoop out (value * 16 + d) rest

/-- `parse_chunk_size()`: hexadecimal, stopping at a chunk extension. -/
def parseChunkSize (text : Bytes) (out : Nat) : Bool × Nat :=
  let front := match find text 59 with
    | some semi => text.take semi
    | none => text
  let digits := trim front
  if digits = [] then (false, out) else parseChunkSizeLoop out 0 digits

end Number

inductive Status where
  | ok
  | invalidUrl
  | connectFailed
  | connectTimeout
  | requestTimeout
  | disconnected
  | malformedResponse
  | responseTooLarge
  | tlsFailed
  | tooManyRedirects
  | insecureRedirect
  | aborted
  deriving DecidableEq, Repr

/-- Header fields in order of arrival; duplicates are legal. -/
structure Headers where
  fields : List (Bytes × Bytes) := []
  deriving DecidableEq, Repr

namespace Headers

def add (headers : Headers) (name value : Bytes) : Headers :=
  ⟨headers.fields ++ [(name, value)]⟩

def set (headers : Headers) (name value : Bytes) : Headers :=
  add ⟨headers.fields.filter fun field => !iequals field.1 name⟩ name value

/-- `remove()`, with the number of dropped fields. -/
def remove (headers : Headers) (name : Bytes) : Headers × Nat :=
  (⟨headers.fields.filter fun field => !iequals field.1 name⟩,
    headers.fields.countP fun field => iequals field.1 name)

def get (headers : Headers) (name : Bytes) : Option Bytes :=
  (headers.fields.find? fun field => iequals field.1 name).map Prod.snd

def has (headers : Headers) (name : Bytes) : Bool := (headers.get name).isSome

def count (headers : Headers) (name : Bytes) : Nat :=
  headers.fields.countP fun field => iequals field.1 name

def size (headers : Headers) : Nat := headers.fields.length

end Headers

structure Response where
  statusCode : Nat := 0
  reason : Bytes := []
  headers : Headers := {}
  body : Bytes := []
  deriving DecidableEq, Repr

inductive Result where
  | needMore
  | complete
  | error
  deriving DecidableEq, Repr

structure Limits where
  maxHeaderBlock : Nat := 32 * 1024
  maxHeaderCount : Nat := 100
  maxBody : Nat := 1024 * 1024
  maxChunkSize : Nat := 1024 * 1024
  deriving DecidableEq, Repr

/-- `ResponseParser::State`. -/
inductive State where
  | statusLine
  | headerBlock
  | bodyLength
  | bodyChunkSize
  | bodyChunkData
  | bodyChunkCrlf
  | bodyTrailers
  | bodyUntilClose
  | done
  deriving DecidableEq, Repr

structure ResponseParser where
  limits : Limits := {}
  state : State := .statusLine
  status : Status := .ok
  response : Response := {}
  headerBytes : Nat := 0
  bodyRemaining : Nat := 0
  chunkRemaining : Nat := 0
  noBody : Bool := false
  closed : Bool := false
  deriving DecidableEq, Repr

/-- What a parsing function returns, with the parser it leaves. -/
abbrev Verdict : Type := Result × ResponseParser

/-- A verdict together with the input that is left. -/
structure Outcome where
  result : Result
  parser : ResponseParser
  input : Bytes
  deriving DecidableEq, Repr

def Verdict.leaving (verdict : Verdict) (input : Bytes) : Outcome :=
  ⟨verdict.1, verdict.2, input⟩

/-- One call of `takeLine()`: it returned false, or it took a line. -/
inductive Line where
  | missing (tooLong : Bool)
  | taken (text : Bytes) (tooLong : Bool) (parser : ResponseParser) (rest : Bytes)

namespace ResponseParser

/-- `reset()`; the limits stay. -/
def reset (parser : ResponseParser) : ResponseParser := { limits := parser.limits }

def expectNoBody (parser : ResponseParser) : ResponseParser := { parser with noBody := true }

/-- `fail()`. -/
def fail (parser : ResponseParser) (why : Status) : Verdict :=
  (.error, { parser with status := why })

/-- Move to a state from which parsing goes on. -/
def enter (parser : ResponseParser) (state : State) : Verdict :=
  (.needMore, { parser with state := state })

/-- Entering `State::Done` is always reported as `Complete`. -/
def complete (parser : ResponseParser) : Verdict := (.complete, { parser with state := .done })

/-- `takeLine()`. -/
def takeLine (parser : ResponseParser) (input : Bytes) : Line :=
  match find input lineFeed with
  | none => .missing (parser.limits.maxHeaderBlock < input.length)
  | some lf =>
    if parser.limits.maxHeaderBlock < lf then .missing true
    else
      let stop := if 0 < lf ∧ input[lf - 1]? = some carriageReturn then lf - 1 else lf
      let headerBytes := (parser.headerBytes + (lf + 1)) % 2 ^ 64
      .taken (input.take stop) (parser.limits.maxHeaderBlock < headerBytes)
        { parser with headerBytes := headerBytes } (input.drop (lf + 1))

/-- The shape of every line-based function: return if there is no line or it is too
long, and otherwise handle the line.  The handler returns a verdict or, inside a
`for (;;)`, goes on to the next line; every line takes at least one byte. -/
def lineLoop (handle : Bytes → ResponseParser → Verdict ⊕ ResponseParser) :
    Nat → ResponseParser → Bytes → Outcome
  | 0, parser, input => ⟨.needMore, parser, input⟩
  | fuel + 1, parser, input =>
    match takeLine parser input with
    | .missing tooLong =>
      if tooLong then (fail parser .responseTooLarge).leaving input
      else ⟨.needMore, parser, input⟩
    | .taken text tooLong parser rest =>
      if tooLong then (fail parser .responseTooLarge).leaving rest
      else
        match handle text parser with
        | .inl verdict => verdict.leaving rest
        | .inr parser => lineLoop handle fuel parser rest

def takeLines (handle : Bytes → ResponseParser → Verdict ⊕ ResponseParser)
    (parser : ResponseParser) (input : Bytes) : Outcome :=
  lineLoop handle (input.length + 1) parser input

/-- The code and, if there is one, the reason of a status line. -/
def readStatusLine (line : Bytes) : Option (Nat × Option Bytes) :=
  if !istartsWith line (ascii "HTTP/") then none
  else
    match find line space with
    | none => none
    | some first =>
      let version := (line.drop 5).take (first - 5)
      if version ≠ ascii "1.0" ∧ version ≠ ascii "1.1" then none
      else
        let after := first + ((line.drop first).takeWhile (· == space)).length
        let second := findFrom line space after
        let code := match second with
          | none => line.drop after
          | some position => (line.drop after).take (position - after)
        if code.length ≠ 3 then none
        else
          match Number.parseSize code 0 with
          | (false, _) => none
          | (true, value) =>
            if value < 100 ∨ 599 < value then none
            else some (value, second.map fun position => trim (line.drop (position + 1)))

def statusLine (line : Bytes) (parser : ResponseParser) : Verdict :=
  match readStatusLine line with
  | none => fail parser .malformedResponse
  | some (code, reason) =>
    enter { parser with response := { parser.response with
      statusCode := code
      reason := reason.getD parser.response.reason } } .headerBlock

/-- `parseStatusLine()`. -/
def parseStatusLine : ResponseParser → Bytes → Outcome :=
  takeLines fun line parser => .inl (statusLine line parser)

/-- The loop over the `Content-Length` fields: the last value, unless two disagree. -/
def agreedLength : Option Bytes → List (Bytes × Bytes) → Option (Option Bytes)
  | seen, [] => some seen
  | seen, (key, value) :: fields =>
    if !iequals key (ascii "Content-Length") then agreedLength seen fields
    else if seen.any fun earlier => trim earlier != trim value then none
    else agreedLength (some value) fields

/-- The end of `chooseBodyFraming()`, past the transfer coding. -/
def chooseLength (parser : ResponseParser) : Verdict :=
  if parser.response.headers.has (ascii "Content-Length") then
    match agreedLength none parser.response.headers.fields with
    | none => fail parser .malformedResponse
    | some seen =>
      match Number.parseSize (trim (seen.getD [])) 0 with
      | (false, _) => fail parser .malformedResponse
      | (true, length) =>
        if parser.limits.maxBody < length then fail parser .responseTooLarge
        else if length = 0 then complete { parser with bodyRemaining := length }
        else enter { parser with bodyRemaining := length } .bodyLength
  else enter parser .bodyUntilClose

/-- `chooseBodyFraming()`. -/
def chooseBodyFraming (parser : ResponseParser) : Verdict :=
  let code := parser.response.statusCode
  if parser.noBody ∨ (100 ≤ code ∧ code < 200) ∨ code = 204 ∨ code = 304 then complete parser
  else
    match parser.response.headers.get (ascii "Transfer-Encoding") with
    | none => chooseLength parser
    | some encoding =>
      if iequals (trim encoding) (ascii "chunked") then enter parser .bodyChunkSize
      else if !iequals (trim encoding) (ascii "identity") then
        fail parser .malformedResponse
      else chooseLength parser

/-- One line of the header block: the name and value it adds. -/
def readHeaderLine (line : Bytes) : Option (Bytes × Bytes) :=
  if line.head? = some space ∨ line.head? = some 9 then none
  else
    match splitOnce line 58 with
    | none => none
    | some (name, value) =>
      if name = [] ∨ trim name ≠ name then none else some (name, trim value)

def headerLine (line : Bytes) (parser : ResponseParser) : Verdict ⊕ ResponseParser :=
  if line = [] then .inl (chooseBodyFraming parser)
  else
    match readHeaderLine line with
    | none => .inl (fail parser .malformedResponse)
    | some (name, value) =>
      if parser.limits.maxHeaderCount ≤ parser.response.headers.size then
        .inl (fail parser .responseTooLarge)
      else
        .inr { parser with response := { parser.response with
          headers := parser.response.headers.add name value } }

/-- `parseHeaderBlock()`. -/
def parseHeaderBlock : ResponseParser → Bytes → Outcome := takeLines headerLine

def withBody (parser : ResponseParser) (taken : Bytes) : ResponseParser :=
  { parser with response := { parser.response with body := parser.response.body ++ taken } }

/-- The common body of `parseBodyLength()` and `parseChunkData()`, for the counter that
`remaining` reads and `store` writes. -/
def takeBody (remaining : ResponseParser → Nat) (store : ResponseParser → Nat → ResponseParser)
    (finish : ResponseParser → Verdict) (parser : ResponseParser) (input : Bytes) : Outcome :=
  if input.length = 0 then ⟨.needMore, parser, input⟩
  else
    let take := if input.length < remaining parser then input.length else remaining parser
    let after := store (withBody parser (input.take take)) (remaining parser - take)
    if remaining after ≠ 0 then ⟨.needMore, after, input.drop take⟩
    else (finish after).leaving (input.drop take)

def setBodyRemaining (parser : ResponseParser) (left : Nat) : ResponseParser :=
  { parser with bodyRemaining := left }

def setChunkRemaining (parser : ResponseParser) (left : Nat) : ResponseParser :=
  { parser with chunkRemaining := left }

/-- `parseBodyLength()`. -/
def parseBodyLength : ResponseParser → Bytes → Outcome :=
  takeBody bodyRemaining setBodyRemaining complete

def chunkSizeLine (line : Bytes) (parser : ResponseParser) : Verdict :=
  match Number.parseChunkSize line 0 with
  | (false, _) => fail parser .malformedResponse
  | (true, size) =>
    if parser.limits.maxChunkSize < size then fail parser .responseTooLarge
    else if parser.limits.maxBody < (parser.response.body.length + size) % 2 ^ 64 then
      fail parser .responseTooLarge
    else if size = 0 then enter parser .bodyTrailers
    else enter { parser with chunkRemaining := size } .bodyChunkData

/-- `parseChunkSize()`. -/
def parseChunkSize : ResponseParser → Bytes → Outcome :=
  takeLines fun line parser => .inl (chunkSizeLine line parser)

/-- `parseChunkData()`. -/
def parseChunkData : ResponseParser → Bytes → Outcome :=
  takeBody chunkRemaining setChunkRemaining fun parser => enter parser .bodyChunkCrlf

/-- `parseChunkCrlf()`: exactly the terminator, and nothing else. -/
def parseChunkCrlf : ResponseParser → Bytes → Outcome :=
  takeLines fun line parser => .inl
    (if line ≠ [] then fail parser .malformedResponse else enter parser .bodyChunkSize)

/-- `parseTrailers()`: read and discarded. -/
def parseTrailers : ResponseParser → Bytes → Outcome :=
  takeLines fun line parser => if line = [] then .inl (complete parser) else .inr parser

/-- `parseBodyUntilClose()`. -/
def parseBodyUntilClose (parser : ResponseParser) (input : Bytes) : Outcome :=
  if input.length ≠ 0 ∧
      parser.limits.maxBody < (parser.response.body.length + input.length) % 2 ^ 64 then
    (fail parser .responseTooLarge).leaving input
  else
    let after := withBody parser input
    if after.closed then (complete after).leaving [] else ⟨.needMore, after, []⟩

/-- The `switch` of `parse()`. -/
def pass (parser : ResponseParser) (input : Bytes) : Outcome :=
  match parser.state with
  | .statusLine => parseStatusLine parser input
  | .headerBlock => parseHeaderBlock parser input
  | .bodyLength => parseBodyLength parser input
  | .bodyChunkSize => parseChunkSize parser input
  | .bodyChunkData => parseChunkData parser input
  | .bodyChunkCrlf => parseChunkCrlf parser input
  | .bodyTrailers => parseTrailers parser input
  | .bodyUntilClose => parseBodyUntilClose parser input
  | .done => ⟨.complete, parser, input⟩

/-- The `for (;;)` of `parse()`. -/
def parseLoop : Nat → ResponseParser → Bytes → Outcome
  | 0, parser, input => ⟨.needMore, parser, input⟩
  | fuel + 1, parser, input =>
    let after := pass parser input
    if after.result ≠ .needMore then after
    else if after.parser.state = parser.state ∧ after.input.length = input.length then after
    else parseLoop fuel after.parser after.input

/-- `parse()`; a pass that does not end it takes a byte or leaves an empty chunk. -/
def parse (parser : ResponseParser) (input : Bytes) : Outcome :=
  if parser.status ≠ .ok then ⟨.error, parser, input⟩
  else parseLoop (2 * input.length + 2) parser input

/-- `finish()`. -/
def finish (parser : ResponseParser) : Verdict :=
  if parser.status ≠ .ok then (.error, parser)
  else if parser.state = .done then (.complete, parser)
  else if parser.state = .bodyUntilClose then complete { parser with closed := true }
  else fail { parser with closed := true } .disconnected

end ResponseParser

end SamuraiFormal.Http
