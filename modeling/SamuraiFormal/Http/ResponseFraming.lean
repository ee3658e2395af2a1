import Mathlib.Data.List.Perm.Basic
import SamuraiFormal.Http.ResponseRoundTrip

/-!
# How the body of a response is framed

The head of a response is its raw lines, however they end and whether they can be read or
not.  A block of header lines is refused for reasons that do not depend on the order of the
lines; an accepted one is handed to `chooseBodyFraming()`.  That function compares all the
`Content-Length` fields but reads only the first `Transfer-Encoding`, so two transfer codings
that differ make the framing depend on their order.
-/

namespace SamuraiFormal.Http

open Util
open List

/-- A line without its line feed; the carriage return before it is still there. -/
def stripReturn (raw : Bytes) : Bytes :=
  if raw.getLast? = some carriageReturn then raw.dropLast else raw

/-- The status line, the lines of the header block and the line that ends it. -/
structure Head where
  status : Bytes
  lines : List Bytes
  blank : Bytes

def encodeLines (lines : List Bytes) : Bytes := lines.flatMap fun raw => raw ++ [lineFeed]

namespace Head

def encode (head : Head) : Bytes :=
  head.status ++ [lineFeed] ++ (encodeLines head.lines ++ (head.blank ++ [lineFeed]))

/-- No line holds a line feed, and exactly the last one is empty. -/
structure IsHead (head : Head) : Prop where
  status : lineFeed ∉ head.status
  lines : ∀ raw ∈ head.lines, lineFeed ∉ raw ∧ stripReturn raw ≠ []
  blank : lineFeed ∉ head.blank ∧ stripReturn head.blank = []

/-- The fields of the lines that can be read. -/
def fields (head : Head) : List (Bytes × Bytes) :=
  head.lines.filterMap fun raw => ResponseParser.readHeaderLine (stripReturn raw)

end Head

/-- What a response says about its body. -/
inductive Framing where
  | noBody
  | chunked
  | length (bytes : Nat)
  | untilClose
  | rejected
  | undecided
  deriving DecidableEq, Repr

/-- The decision a parser has come to; a length of zero leaves nothing to frame. -/
def framing (result : Result) (parser : ResponseParser) : Framing :=
  if result = .error then .rejected
  else
    match parser.state with
    | .done => .noBody
    | .bodyChunkSize => .chunked
    | .bodyLength => .length parser.bodyRemaining
    | .bodyUntilClose => .untilClose
    | _ => .undecided

def Outcome.framing (outcome : Outcome) : Framing :=
  SamuraiFormal.Http.framing outcome.result outcome.parser

def Verdict.framing (verdict : Verdict) : Framing :=
  SamuraiFormal.Http.framing verdict.1 verdict.2

/-- What a transfer coding means to the parser. -/
inductive Coding where
  | chunked
  | identity
  | other
  deriving DecidableEq, Repr

def coding (value : Bytes) : Coding :=
  if iequals (trim value) (ascii "chunked") then .chunked
  else if iequals (trim value) (ascii "identity") then .identity
  else .other

/-- The trimmed values of the `Content-Length` fields. -/
def contentLengths (fields : List (Bytes × Bytes)) : List Bytes :=
  (fields.filter fun field => Encoding.isContentLength field.1).map fun field => trim field.2

/-- The framing by these lengths. -/
def lengthFraming (maxBody : Nat) : List Bytes → Framing
  | [] => .untilClose
  | value :: values =>
    if ∀ other ∈ values, other = value then
      match Number.parseSize value 0 with
      | (false, _) => .rejected
      | (true, length) =>
        if maxBody < length then .rejected
        else if length = 0 then .noBody
        else .length length
    else .rejected

variable {field : Bytes × Bytes} {blank : Bytes} {limits : Limits} {noBody : Bool}

theorem contentLengths_cons_of_other (fields : List (Bytes × Bytes))
    (other : Encoding.isContentLength field.1 = false) :
    contentLengths (field :: fields) = contentLengths fields := by
  rw [contentLengths, filter_cons_of_neg (by rw [other]; decide)]
  rfl

theorem contentLengths_cons_of_length (fields : List (Bytes × Bytes))
    (named : Encoding.isContentLength field.1 = true) :
    contentLengths (field :: fields) = trim field.2 :: contentLengths fields := by
  rw [contentLengths, filter_cons_of_pos (by exact named)]
  rfl

variable {lengths : List Bytes} {parser : ResponseParser} {head : Head}

namespace ResponseParser

theorem agreedLength_cons_of_length (seen : Option Bytes) {key : Bytes} (value : Bytes)
    (fields : List (Bytes × Bytes)) (named : Encoding.isContentLength key = true) :
    agreedLength seen ((key, value) :: fields) =
      if seen.any fun earlier => trim earlier != trim value then none
      else agreedLength (some value) fields := by
  have reads : ¬ (!iequals key (ascii "Content-Length")) = true := by
    rw [show iequals key (ascii "Content-Length") = true from named]
    decide
  rw [agreedLength, if_neg reads]

theorem agreedLength_cons_of_other (seen : Option Bytes) (fields : List (Bytes × Bytes))
    (other : Encoding.isContentLength field.1 = false) :
    agreedLength seen (field :: fields) = agreedLength seen fields :=
  agreedLength_append seen [field] fields fun _ member => by
    rw [mem_singleton.mp member]
    exact other

/-- After a value has been seen, the loop compares every later one with it. -/
theorem agreedLength_some (seen : Bytes) (fields : List (Bytes × Bytes)) :
    if ∀ other ∈ contentLengths fields, other = trim seen then
      ∃ last, agreedLength (some seen) fields = some (some last) ∧ trim last = trim seen
    else agreedLength (some seen) fields = none := by
  induction fields generalizing seen with
  | nil =>
    exact ⟨seen, rfl, rfl⟩
  | cons field fields ih =>
    cases named : Encoding.isContentLength field.1 with
    | false =>
      rw [contentLengths_cons_of_other fields named, agreedLength_cons_of_other _ _ named]
      exact ih seen
    | true =>
      rw [contentLengths_cons_of_length fields named, agreedLength_cons_of_length _ _ _ named,
        Option.any_some]
      by_cases same : trim seen = trim field.2
      · have later := ih field.2
        rw [← same] at later ⊢
        simpa using later
      · rw [if_neg (fun all => same (all _ mem_cons_self).symm),
          if_pos (bne_iff_ne.mpr same)]

/-- The loop from its start: the first value is the one all others must repeat. -/
theorem agreedLength_none (fields : List (Bytes × Bytes)) {value : Bytes} {values : List Bytes}
    (lengths : contentLengths fields = value :: values) :
    if ∀ other ∈ values, other = value then
      ∃ last, agreedLength none fields = some (some last) ∧ trim last = value
    else agreedLength none fields = none := by
  induction fields with
  | nil => cases lengths
  | cons field fields ih =>
    cases named : Encoding.isContentLength field.1 with
    | false =>
      rw [contentLengths_cons_of_other fields named] at lengths
      rw [agreedLength_cons_of_other _ _ named]
      exact ih lengths
    | true =>
      rw [contentLengths_cons_of_length fields named] at lengths
      obtain ⟨rfl, rfl⟩ := List.cons.inj lengths
      rw [agreedLength_cons_of_length none field.2 fields named]
      exact agreedLength_some field.2 fields

theorem has_contentLength_iff (headers : Headers) :
    headers.has (ascii "Content-Length") = true ↔ contentLengths headers.fields ≠ [] := by
  rw [Headers.has, Headers.get, Option.isSome_map, contentLengths, ne_eq,
    map_eq_nil_iff]
  simp [Encoding.isContentLength]

/-- `chooseLength` looks at nothing but the lengths. -/
theorem chooseLength_framing (parser : ResponseParser) :
    (chooseLength parser).framing =
      lengthFraming parser.limits.maxBody (contentLengths parser.response.headers.fields) := by
  unfold chooseLength
  cases lengths : contentLengths parser.response.headers.fields with
  | nil =>
    have missing : ¬ parser.response.headers.has (ascii "Content-Length") = true := by
      rw [has_contentLength_iff, lengths]
      exact fun some' => some' rfl
    rw [if_neg missing]
    rfl
  | cons value values =>
    have present : parser.response.headers.has (ascii "Content-Length") = true := by
      rw [has_contentLength_iff, lengths]
      exact cons_ne_nil _ _
    have agreed := agreedLength_none _ lengths
    rw [if_pos present, lengthFraming]
    by_cases all : ∀ other ∈ values, other = value
    · rw [if_pos all] at agreed ⊢
      obtain ⟨last, found, same⟩ := agreed
      simp only [found, Option.getD_some, same]
      rcases Number.parseSize value 0 with ⟨_ | _, length⟩
      · rfl
      · dsimp only
        by_cases large : parser.limits.maxBody < length
        · rw [if_pos large, if_pos large]
          rfl
        rw [if_neg large, if_neg large]
        by_cases zero : length = 0
        · rw [if_pos zero, if_pos zero]
          rfl
        · rw [if_neg zero, if_neg zero]
          rfl
    · rw [if_neg all] at agreed ⊢
      rw [agreed]
      rfl

/-- Lengths that are all the same do not change under a permutation, and lengths that
differ are refused in every order. -/
theorem lengthFraming_perm (maxBody : Nat) {lengths' : List Bytes} (perm : lengths.Perm lengths') :
    lengthFraming maxBody lengths = lengthFraming maxBody lengths' := by
  cases lengths with
  | nil => rw [nil_perm.mp perm]
  | cons value values =>
    by_cases all : ∀ other ∈ values, other = value
    · have every : ∀ other ∈ value :: values, other = value := by
        simpa using all
      have same : value :: values = List.replicate (values.length + 1) value :=
        eq_replicate_iff.mpr ⟨rfl, every⟩
      rw [same] at perm ⊢
      rw [replicate_perm.mp perm]
    · cases lengths' with
      | nil => exact absurd (perm_nil.mp perm) (cons_ne_nil _ _)
      | cons value' values' =>
        have all' : ¬ ∀ other ∈ values', other = value' := by
          intro every
          have each : ∀ other ∈ value :: values, other = value' := by
            intro other member
            rcases mem_cons.mp (perm.mem_iff.mp member) with rfl | later
            · rfl
            · exact every other later
          refine all fun other member => ?_
          rw [each other (mem_cons_of_mem _ member), each value mem_cons_self]
        rw [lengthFraming, lengthFraming, if_neg all, if_neg all']

/-- The transfer codings of the fields, in order. -/
def codings (fields : List (Bytes × Bytes)) : List Coding :=
  (fields.filter fun field => Encoding.isTransferEncoding field.1).map fun field =>
    coding field.2

/-- The framing that a coding calls for. -/
def codingFraming (maxBody : Nat) (lengths : List Bytes) : Coding → Framing
  | .chunked => .chunked
  | .identity => lengthFraming maxBody lengths
  | .other => .rejected

/-- The framing that the first coding and the lengths give. -/
def codedFraming (maxBody : Nat) (codings : List Coding) (lengths : List Bytes) : Framing :=
  codings.head?.elim (lengthFraming maxBody lengths) (codingFraming maxBody lengths)

theorem get_transferEncoding (headers : Headers) :
    (headers.get (ascii "Transfer-Encoding")).map coding = (codings headers.fields).head? := by
  rw [Headers.get, codings, head?_map, head?_filter, Option.map_map]
  rfl

/-- A response that is not allowed a body. -/
def Bodiless (parser : ResponseParser) : Prop :=
  parser.noBody = true ∨
    (100 ≤ parser.response.statusCode ∧ parser.response.statusCode < 200) ∨
    parser.response.statusCode = 204 ∨ parser.response.statusCode = 304

instance (parser : ResponseParser) : Decidable (Bodiless parser) :=
  inferInstanceAs (Decidable (_ ∨ _))

/-- The decision of `chooseBodyFraming()`. -/
theorem chooseBodyFraming_framing (parser : ResponseParser) :
    (chooseBodyFraming parser).framing =
      if Bodiless parser then .noBody
      else codedFraming parser.limits.maxBody (codings parser.response.headers.fields)
        (contentLengths parser.response.headers.fields) := by
  unfold codedFraming
  rw [← get_transferEncoding]
  by_cases bodiless : Bodiless parser
  · rw [if_pos bodiless, chooseBodyFraming, if_pos (by exact bodiless)]
    rfl
  rw [if_neg bodiless, chooseBodyFraming, if_neg (by exact bodiless)]
  cases parser.response.headers.get (ascii "Transfer-Encoding") with
  | none => exact chooseLength_framing parser
  | some encoding =>
    simp only [Option.map_some, coding]
    by_cases chunked : iequals (trim encoding) (ascii "chunked") = true
    · rw [if_pos chunked, if_pos chunked]
      rfl
    rw [if_neg chunked, if_neg chunked]
    cases identity : iequals (trim encoding) (ascii "identity") with
    | true => exact chooseLength_framing parser
    | false => rfl

theorem takeLine_raw {raw : Bytes} (plain : lineFeed ∉ raw) (rest : Bytes) :
    takeLine parser (raw ++ lineFeed :: rest) =
      if parser.limits.maxHeaderBlock < raw.length then .missing true
      else
        .taken (stripReturn raw)
          (parser.limits.maxHeaderBlock < (parser.headerBytes + (raw.length + 1)) % 2 ^ 64)
          { parser with headerBytes := (parser.headerBytes + (raw.length + 1)) % 2 ^ 64 } rest := by
  have back : (raw ++ lineFeed :: rest).drop (raw.length + 1) = rest := by
    simp
  rw [takeLine, find_append_cons plain]
  dsimp only
  congr 2
  -- the byte in front of the line feed, if there is one, is the last of the line
  rcases eq_nil_or_concat' raw with rfl | ⟨front, last, rfl⟩
  · rfl
  have before : (front ++ [last] ++ lineFeed :: rest)[(front ++ [last]).length - 1]? =
      some last := by
    simp
  rw [before, stripReturn, getLast?_concat]
  by_cases returned : last = carriageReturn
  · rw [if_pos ⟨by simp, by rw [returned]⟩, if_pos (by rw [returned])]
    simp
  have other : ¬ some last = some carriageReturn := fun same => returned (Option.some.inj same)
  rw [if_neg (fun both => other both.2), if_neg other]
  exact take_left

/-- The lines of a header block are all read and fit into the limits. -/
structure Accepts (parser : ResponseParser) (lines : List Bytes) (blank : Bytes) : Prop where
  readable : ∀ raw ∈ lines, readHeaderLine (stripReturn raw) ≠ none
  count : parser.response.headers.fields.length + lines.length ≤ parser.limits.maxHeaderCount
  bytes : parser.headerBytes + ((encodeLines lines).length + (blank.length + 1)) ≤
    parser.limits.maxHeaderBlock

/-- The parser after the lines of an accepted header block. -/
def afterBlock (parser : ResponseParser) (lines : List Bytes) (blank : Bytes) : ResponseParser :=
  { parser with
    headerBytes := parser.headerBytes + ((encodeLines lines).length + (blank.length + 1))
    response := { parser.response with
      headers := ⟨parser.response.headers.fields ++
        lines.filterMap fun raw => readHeaderLine (stripReturn raw)⟩ } }

theorem encodeLines_cons_length (raw : Bytes) (lines : List Bytes) :
    (encodeLines (raw :: lines)).length = raw.length + 1 + (encodeLines lines).length := by
  rw [encodeLines, flatMap_cons, length_append, length_append]
  rfl

theorem parseHeaderBlock_blank (plain : lineFeed ∉ blank) (empty : stripReturn blank = [])
    (rest : Bytes) (short : parser.headerBytes + (blank.length + 1) < 2 ^ 64) :
    if parser.headerBytes + (blank.length + 1) ≤ parser.limits.maxHeaderBlock then
      parseHeaderBlock parser (blank ++ lineFeed :: rest) =
        (chooseBodyFraming { parser with
          headerBytes := parser.headerBytes + (blank.length + 1) }).leaving rest
    else (parseHeaderBlock parser (blank ++ lineFeed :: rest)).result = .error := by
  rw [parseHeaderBlock, takeLines_eq, takeLine_raw plain, Nat.mod_eq_of_lt short]
  split
  · next fits =>
      rw [if_neg (by omega)]
      have within : ¬ parser.limits.maxHeaderBlock < parser.headerBytes + (blank.length + 1) :=
        Nat.not_lt.mpr fits
      simp only [within, decide_false, Bool.false_eq_true, if_false, empty, headerLine, if_true]
  · next large =>
      by_cases long : parser.limits.maxHeaderBlock < blank.length
      · rw [if_pos long]
        rfl
      have exceeds : parser.limits.maxHeaderBlock < parser.headerBytes + (blank.length + 1) :=
        Nat.not_le.mp large
      rw [if_neg long]
      simp only [exceeds]
      rfl

/-- One line in front of the block that ends it: it is read, or the block is refused. -/
theorem parseHeaderBlock_raw {raw : Bytes} (plain : lineFeed ∉ raw)
    (solid : stripReturn raw ≠ []) (rest : Bytes) (parser : ResponseParser)
    (short : parser.headerBytes + (raw.length + 1) < 2 ^ 64) :
    (∃ field, readHeaderLine (stripReturn raw) = some field ∧
      parser.headerBytes + (raw.length + 1) ≤ parser.limits.maxHeaderBlock ∧
      parser.response.headers.fields.length < parser.limits.maxHeaderCount ∧
      parseHeaderBlock parser (raw ++ lineFeed :: rest) =
        parseHeaderBlock { parser with
          headerBytes := parser.headerBytes + (raw.length + 1)
          response := { parser.response with
            headers := ⟨parser.response.headers.fields ++ [field]⟩ } } rest) ∨
    ((parseHeaderBlock parser (raw ++ lineFeed :: rest)).result = .error ∧
      (readHeaderLine (stripReturn raw) = none ∨
        parser.limits.maxHeaderBlock < parser.headerBytes + (raw.length + 1) ∨
        parser.limits.maxHeaderCount ≤ parser.response.headers.fields.length)) := by
  rw [parseHeaderBlock, takeLines_eq, takeLine_raw plain, Nat.mod_eq_of_lt short]
  by_cases long : parser.limits.maxHeaderBlock < raw.length
  · rw [if_pos long]
    exact .inr ⟨rfl, .inr (.inl (by omega))⟩
  rw [if_neg long]
  by_cases exceeds : parser.limits.maxHeaderBlock < parser.headerBytes + (raw.length + 1)
  · simp only [exceeds]
    exact .inr ⟨rfl, .inr (.inl trivial)⟩
  simp only [exceeds, headerLine, if_neg solid]
  cases read : readHeaderLine (stripReturn raw) with
  | none => exact .inr ⟨rfl, .inl rfl⟩
  | some field =>
    dsimp only
    by_cases many : parser.limits.maxHeaderCount ≤ parser.response.headers.size
    · rw [if_pos many]
      exact .inr ⟨rfl, .inr (.inr many)⟩
    · rw [if_neg many]
      exact .inl ⟨field, rfl, Nat.not_lt.mp exceeds, Nat.not_le.mp many, rfl⟩

/-- A header block is either accepted as a whole or refused; the order of its lines has no
part in that. -/
theorem parseHeaderBlock_lines {lines : List Bytes}
    (plain : ∀ raw ∈ lines, lineFeed ∉ raw ∧ stripReturn raw ≠ []) (plainBlank : lineFeed ∉ blank)
    (empty : stripReturn blank = []) (rest : Bytes) (parser : ResponseParser)
    (few : parser.response.headers.fields.length ≤ parser.limits.maxHeaderCount)
    (short : parser.headerBytes + ((encodeLines lines).length + (blank.length + 1)) < 2 ^ 64) :
    (Accepts parser lines blank ∧
      parseHeaderBlock parser (encodeLines lines ++ (blank ++ lineFeed :: rest)) =
        (chooseBodyFraming (parser.afterBlock lines blank)).leaving rest) ∨
    (¬ Accepts parser lines blank ∧
      (parseHeaderBlock parser (encodeLines lines ++ (blank ++ lineFeed :: rest))).result =
        .error) := by
  -- by induction on the lines, for the parser that the lines in front have left
  induction lines generalizing parser with
  | nil =>
    have none' : (encodeLines []).length + (blank.length + 1) = blank.length + 1 := Nat.zero_add _
    have block := @parseHeaderBlock_blank blank parser plainBlank empty rest
      (by rw [none'] at short; exact short)
    by_cases fits : parser.headerBytes + (blank.length + 1) ≤ parser.limits.maxHeaderBlock
    · rw [if_pos fits] at block
      refine .inl ⟨⟨by simp, few, by rw [none']; exact fits⟩, block.trans ?_⟩
      simp [afterBlock, encodeLines]
    · rw [if_neg fits] at block
      exact .inr ⟨fun accepts => fits (none' ▸ accepts.bytes), block⟩
  | cons raw lines ih =>
    obtain ⟨noFeed, solid⟩ := plain raw mem_cons_self
    have input : encodeLines (raw :: lines) ++ (blank ++ lineFeed :: rest) =
        raw ++ lineFeed :: (encodeLines lines ++ (blank ++ lineFeed :: rest)) := by
      simp [encodeLines]
    have total := encodeLines_cons_length raw lines
    rw [input]
    rcases parseHeaderBlock_raw noFeed solid (encodeLines lines ++ (blank ++ lineFeed :: rest))
      parser (by omega) with
      ⟨field, read, fits, free, next⟩ | ⟨refused, why⟩
    · rw [next]
      have later := ih (fun other member => plain other (mem_cons_of_mem _ member))
        { parser with
          headerBytes := parser.headerBytes + (raw.length + 1)
          response := { parser.response with
            headers := ⟨parser.response.headers.fields ++ [field]⟩ } }
        (by rw [length_append]; exact free)
        (by dsimp only; omega)
      rcases later with ⟨accepts, block⟩ | ⟨refuses, block⟩
      · refine .inl ⟨⟨?_, ?_, ?_⟩, block.trans ?_⟩
        · intro other member
          rcases mem_cons.mp member with rfl | inLines
          · rw [read]
            exact Option.some_ne_none field
          · exact accepts.readable other inLines
        · have count := accepts.count
          simp only [length_append, length_cons] at count ⊢
          omega
        · have bytes := accepts.bytes
          simp only at bytes
          omega
        · have fields : (raw :: lines).filterMap (fun raw => readHeaderLine (stripReturn raw)) =
              field :: lines.filterMap fun raw => readHeaderLine (stripReturn raw) :=
            filterMap_cons_some read
          simp only [afterBlock, fields, total, append_assoc, singleton_append,
            Nat.add_assoc]
      · refine .inr ⟨fun accepts => refuses ⟨?_, ?_, ?_⟩, block⟩
        · exact fun other member => accepts.readable other (mem_cons_of_mem _ member)
        · have count := accepts.count
          simp only [length_append, length_cons, length_nil] at count ⊢
          omega
        · have bytes := accepts.bytes
          dsimp only
          omega
    · refine .inr ⟨fun accepts => ?_, refused⟩
      rcases why with unread | exceeds | many
      · exact accepts.readable raw mem_cons_self unread
      · have bytes := accepts.bytes
        omega
      · have count := accepts.count
        rw [length_cons] at count
        omega

/-! ## A whole head -/

/-- The parser after an accepted status line. -/
def afterStatus (limits : Limits) (noBody : Bool) (status : Bytes) : Option ResponseParser :=
  if limits.maxHeaderBlock < status.length + 1 then none
  else
    (readStatusLine (stripReturn status)).map fun (code, reason) =>
      { limits := limits
        noBody := noBody
        state := .headerBlock
        headerBytes := status.length + 1
        response := { statusCode := code, reason := reason.getD [] } }

theorem parse_error (fine : parser.status = .ok) {input : Bytes}
    (error : (pass parser input).result = .error) : (parse parser input).result = .error := by
  rw [parse_last fine (.inl (by rw [error]; decide)), error]

theorem parse_status_raw (limits : Limits) (noBody : Bool) {status : Bytes}
    (plain : lineFeed ∉ status) (short : status.length + 1 < 2 ^ 64) (rest : Bytes) :
    match afterStatus limits noBody status with
    | none => (parse (fresh limits noBody) (status ++ lineFeed :: rest)).result = .error
    | some parser =>
      parse (fresh limits noBody) (status ++ lineFeed :: rest) = parse parser rest := by
  have wrapped : (0 + (status.length + 1)) % 2 ^ 64 = status.length + 1 := by
    rw [Nat.zero_add]
    exact Nat.mod_eq_of_lt short
  have line := @takeLine_raw (fresh limits noBody) status plain rest
  simp only [fresh, wrapped] at line
  have passed : pass (fresh limits noBody) (status ++ lineFeed :: rest) =
      parseStatusLine (fresh limits noBody) (status ++ lineFeed :: rest) := rfl
  rw [parseStatusLine, takeLines_eq, fresh, line] at passed
  unfold afterStatus
  by_cases long : limits.maxHeaderBlock < status.length + 1
  · rw [if_pos long]
    refine parse_error rfl ?_
    rw [fresh, passed]
    by_cases longer : limits.maxHeaderBlock < status.length
    · rw [if_pos longer]
      rfl
    · simp only [if_neg longer, long]
      rfl
  · rw [if_neg long]
    rw [if_neg (show ¬ limits.maxHeaderBlock < status.length by omega)] at passed
    simp only [long, statusLine] at passed
    cases read : readStatusLine (stripReturn status) with
    | none =>
      rw [read] at passed
      refine parse_error rfl ?_
      rw [fresh, passed]
      rfl
    | some found =>
      rw [read] at passed
      exact parse_next rfl passed

/-- At the end of the input the decision stands. -/
theorem parse_nil_framing (fine : parser.status = .ok) (opened : parser.closed = false)
    (state : parser.state = .bodyChunkSize ∨ parser.state = .bodyLength ∨
      parser.state = .bodyUntilClose) : (parse parser []).framing = framing .needMore parser := by
  have line : takeLine parser [] = .missing false := by
    simp [takeLine, find]
  have passed : (pass parser []).result = .needMore ∧
      (pass parser []).parser.state = parser.state ∧
      (pass parser []).parser.bodyRemaining = parser.bodyRemaining ∧
      (pass parser []).input = [] := by
    rcases state with here | here | here
    · simp only [pass, here]
      exact ⟨rfl, here, rfl, rfl⟩
    · simp [pass, here, parseBodyLength, takeBody]
    · simp [pass, here, parseBodyUntilClose, withBody, opened]
  obtain ⟨waits, sameState, sameLength, nothing⟩ := passed
  rw [parse_last fine (.inr ⟨sameState, by rw [nothing]⟩), Outcome.framing, framing, framing,
    waits, sameState, sameLength]

theorem chooseLength_waits (parser : ResponseParser) :
    (chooseLength parser).1 ≠ .needMore ∨ (chooseLength parser).2.state = .bodyLength ∨
      (chooseLength parser).2.state = .bodyUntilClose := by
  unfold chooseLength
  split
  · split
    · exact .inl nofun
    · split
      · exact .inl nofun
      · split
        · exact .inl nofun
        · split
          · exact .inl nofun
          · exact .inr (.inl rfl)
  · exact .inr (.inr rfl)

/-- A decision that asks for more input is one of the three that have a body. -/
theorem chooseBodyFraming_waits (parser : ResponseParser) :
    (chooseBodyFraming parser).1 ≠ .needMore ∨
      (chooseBodyFraming parser).2.state = .bodyChunkSize ∨
      (chooseBodyFraming parser).2.state = .bodyLength ∨
      (chooseBodyFraming parser).2.state = .bodyUntilClose := by
  have length := chooseLength_waits parser
  unfold chooseBodyFraming
  dsimp only
  split
  · exact .inl nofun
  split
  · exact length.imp_right .inr
  split
  · exact .inr (.inl rfl)
  split
  · exact .inl nofun
  · exact length.imp_right .inr

/-- The decision about a header block that is the whole input. -/
theorem parse_block_framing (fine : parser.status = .ok) (state : parser.state = .headerBlock)
    {input : Bytes} {decided : ResponseParser}
    (limits : decided.status = .ok ∧ decided.closed = false)
    (block : parseHeaderBlock parser input = (chooseBodyFraming decided).leaving []) :
    (parse parser input).framing = (chooseBodyFraming decided).framing := by
  have passed : pass parser input = (chooseBodyFraming decided).leaving [] := by
    rw [pass, state]
    exact block
  by_cases waits : (chooseBodyFraming decided).1 = .needMore
  · have settled := chooseBodyFraming_settles decided
    rw [parse_pass fine (by rw [passed]; exact waits), passed]
    show (parse (chooseBodyFraming decided).2 []).framing = _
    rw [parse_nil_framing ((settled.status (by rw [waits]; decide)).trans limits.1)
      (settled.closed.trans limits.2)
      ((chooseBodyFraming_waits decided).resolve_left (not_not.mpr waits)), Verdict.framing, waits]
  · rw [parse_last fine (.inl (by rw [passed]; exact waits)), passed]
    rfl

/-- What the parser holds behind the status line. -/
structure ReadStatus (limits : Limits) (noBody : Bool) (status : Bytes)
    (parser : ResponseParser) : Prop where
  limits : parser.limits = limits
  noBody : parser.noBody = noBody
  state : parser.state = .headerBlock
  fine : parser.status = .ok
  opened : parser.closed = false
  bytes : parser.headerBytes = status.length + 1
  noFields : parser.response.headers.fields = []
  empty : parser.response.body = []
  code : ∃ reason,
    readStatusLine (stripReturn status) = some (parser.response.statusCode, reason)

theorem afterStatus_spec {status : Bytes} (after : afterStatus limits noBody status = some parser) :
    ReadStatus limits noBody status parser := by
  unfold afterStatus at after
  split at after
  · cases after
  · obtain ⟨⟨code, reason⟩, read, rfl⟩ := Option.map_eq_some_iff.mp after
    exact ⟨rfl, rfl, rfl, rfl, rfl, rfl, rfl, rfl, reason, read⟩

theorem encode_length (head : Head) : head.encode.length = head.status.length + 1 +
    ((encodeLines head.lines).length + (head.blank.length + 1)) := by
  simp only [Head.encode, length_append, length_cons, length_nil]

/-- A head is refused, or the fields of all its lines are handed on. -/
theorem parse_head (limits : Limits) (noBody : Bool) (isHead : head.IsHead)
    (short : head.encode.length < 2 ^ 64) (rest : Bytes) :
    (∃ parser input, afterStatus limits noBody head.status = some parser ∧
      Accepts parser head.lines head.blank ∧
      parse (fresh limits noBody) (head.encode ++ rest) = parse parser input ∧
      parseHeaderBlock parser input =
        (chooseBodyFraming (parser.afterBlock head.lines head.blank)).leaving rest) ∨
    ((∀ parser, afterStatus limits noBody head.status = some parser →
        ¬ Accepts parser head.lines head.blank) ∧
      (parse (fresh limits noBody) (head.encode ++ rest)).result = .error) := by
  have input : head.encode ++ rest = head.status ++ lineFeed ::
      (encodeLines head.lines ++ (head.blank ++ lineFeed :: rest)) := by
    simp [Head.encode]
  have length := encode_length head
  have status := parse_status_raw limits noBody isHead.status
    (show head.status.length + 1 < 2 ^ 64 by omega)
    (encodeLines head.lines ++ (head.blank ++ lineFeed :: rest))
  rw [← input] at status
  cases after : afterStatus limits noBody head.status with
  | none =>
    rw [after] at status
    exact .inr ⟨nofun, status⟩
  | some parser =>
    rw [after] at status
    have start := afterStatus_spec after
    have bytes := start.bytes
    rcases parseHeaderBlock_lines isHead.lines isHead.blank.1 isHead.blank.2 rest
      parser (by rw [start.noFields]; exact Nat.zero_le _) (by omega) with
      ⟨accepts, block⟩ | ⟨refuses, error⟩
    · exact .inl ⟨parser, _, rfl, accepts, status, block⟩
    refine .inr ⟨?_, ?_⟩
    · intro other same
      rw [← Option.some.inj same]
      exact refuses
    · rw [status]
      refine parse_error start.fine ?_
      rw [pass, start.state]
      exact error

/-- The status line and all header lines of a head can be read, and the head is within the
limits. -/
structure Reads (limits : Limits) (head : Head) : Prop where
  status : readStatusLine (stripReturn head.status) ≠ none
  lines : ∀ raw ∈ head.lines, readHeaderLine (stripReturn raw) ≠ none
  count : head.lines.length ≤ limits.maxHeaderCount
  bytes : head.encode.length ≤ limits.maxHeaderBlock

theorem reads_iff (noBody : Bool) : Reads limits head ↔
    ∃ parser, afterStatus limits noBody head.status = some parser ∧
      Accepts parser head.lines head.blank := by
  have length := encode_length head
  constructor
  · rintro ⟨status, lines, count, bytes⟩
    obtain ⟨read, isRead⟩ := Option.ne_none_iff_exists'.mp status
    have after : ∃ parser, afterStatus limits noBody head.status = some parser := by
      rw [afterStatus, if_neg (by omega), isRead, Option.map_some]
      exact ⟨_, rfl⟩
    obtain ⟨parser, after⟩ := after
    have start := afterStatus_spec after
    refine ⟨parser, after, lines, ?_, ?_⟩
    · simpa [start.noFields, start.limits] using count
    · rw [start.bytes, start.limits]
      omega
  · rintro ⟨parser, after, lines, count, bytes⟩
    have start := afterStatus_spec after
    obtain ⟨reason, isRead⟩ := start.code
    refine ⟨by rw [isRead]; exact Option.some_ne_none _, lines, ?_, ?_⟩
    · simpa [start.noFields, start.limits] using count
    · rw [start.bytes, start.limits] at bytes
      omega

theorem afterBlock_fields (after : afterStatus limits noBody head.status = some parser) :
    (parser.afterBlock head.lines head.blank).response.headers.fields = head.fields := by
  show parser.response.headers.fields ++ head.fields = head.fields
  rw [(afterStatus_spec after).noFields, nil_append]

/-- The decision about a head that is the whole input. -/
theorem parse_head_framing (limits : Limits) (noBody : Bool) (isHead : head.IsHead)
    (short : head.encode.length < 2 ^ 64) :
    (∃ parser, afterStatus limits noBody head.status = some parser ∧ Reads limits head ∧
      (parse (fresh limits noBody) head.encode).framing =
        if Bodiless parser then .noBody
        else codedFraming limits.maxBody (codings head.fields) (contentLengths head.fields)) ∨
    (¬ Reads limits head ∧ (parse (fresh limits noBody) head.encode).framing = .rejected) := by
  have cases := parse_head limits noBody isHead short []
  rw [append_nil] at cases
  rcases cases with ⟨parser, input, after, accepts, parsed, block⟩ | ⟨refuses, error⟩
  · have start := afterStatus_spec after
    refine .inl ⟨parser, after, (reads_iff noBody).mpr ⟨parser, after, accepts⟩, ?_⟩
    rw [parsed, @parse_block_framing parser start.fine start.state _
      (parser.afterBlock head.lines head.blank) ⟨start.fine, start.opened⟩ block,
      chooseBodyFraming_framing, afterBlock_fields after]
    rw [← start.limits]
    rfl
  · refine .inr ⟨fun reads => ?_, ?_⟩
    · obtain ⟨parser, after, accepts⟩ := (reads_iff noBody).mp reads
      exact refuses parser after accepts
    · rw [Outcome.framing, framing, if_pos error]

theorem Reads.perm {lines : List Bytes} (perm : head.lines.Perm lines)
    (reads : Reads limits head) : Reads limits { head with lines := lines } := by
  have bytes : (encodeLines head.lines).length = (encodeLines lines).length :=
    (perm.flatMap_right _).length_eq
  refine ⟨reads.status, fun raw member => reads.lines raw (perm.mem_iff.mpr member), ?_, ?_⟩
  · rw [← perm.length_eq]
    exact reads.count
  · rw [encode_length, ← bytes, ← encode_length head]
    exact reads.bytes

theorem codingFraming_perm (maxBody : Nat) {lengths' : List Bytes} (perm : lengths.Perm lengths') :
    codingFraming maxBody lengths = codingFraming maxBody lengths' := by
  funext coding
  cases coding with
  | identity => exact lengthFraming_perm maxBody perm
  | chunked | other => rfl

/-- Codings that call for one framing lead to it in every order. -/
theorem codedFraming_perm {maxBody : Nat} {codings codings' : List Coding}
    {lengths' : List Bytes} (perm : codings.Perm codings')
    (agree : ∀ one ∈ codings, ∀ another ∈ codings,
      codingFraming maxBody lengths one = codingFraming maxBody lengths another)
    (permLengths : lengths.Perm lengths') :
    codedFraming maxBody codings lengths = codedFraming maxBody codings' lengths' := by
  rw [codedFraming, codedFraming, ← lengthFraming_perm maxBody permLengths,
    ← codingFraming_perm maxBody permLengths]
  cases codings with
  | nil => rw [nil_perm.mp perm]
  | cons one rest =>
    cases codings' with
    | nil => exact absurd (perm_nil.mp perm) (cons_ne_nil _ _)
    | cons another rest' =>
      exact agree one mem_cons_self another (perm.mem_iff.mpr mem_cons_self)

/-- Lengths that no body can have: two of them differ, they are no number, or the number is
larger than a body may be. -/
def LengthsRefused (maxBody : Nat) (lengths : List Bytes) : Prop :=
  lengths ≠ [] ∧ ∀ value length, (∀ other ∈ lengths, other = value) →
    Number.parseSize value 0 = (true, length) → maxBody < length

theorem lengthFraming_cases (maxBody : Nat) (lengths : List Bytes) :
    (lengthFraming maxBody lengths = .rejected ∧ LengthsRefused maxBody lengths) ∨
      ¬ LengthsRefused maxBody lengths ∧ (lengthFraming maxBody lengths = .untilClose ∨
        lengthFraming maxBody lengths = .noBody ∨
        ∃ bytes, lengthFraming maxBody lengths = .length bytes) := by
  cases lengths with
  | nil => exact .inr ⟨fun refused => refused.1 rfl, .inl rfl⟩
  | cons value values =>
    rw [lengthFraming]
    by_cases all : ∀ other ∈ values, other = value
    · have every : ∀ other ∈ value :: values, other = value := by simpa using all
      rw [if_pos all]
      rcases parsed : Number.parseSize value 0 with ⟨_ | _, length⟩
      · refine .inl ⟨rfl, cons_ne_nil _ _, fun other found same read => ?_⟩
        rw [← same value mem_cons_self, parsed] at read
        cases read
      · dsimp only
        by_cases large : maxBody < length
        · refine .inl ⟨if_pos large, cons_ne_nil _ _, fun other found same read => ?_⟩
          rw [← same value mem_cons_self, parsed] at read
          cases read
          exact large
        · refine .inr ⟨fun refused => large (refused.2 value length every parsed), .inr ?_⟩
          rw [if_neg large]
          by_cases zero : length = 0
          · exact .inl (if_pos zero)
          · exact .inr ⟨length, if_neg zero⟩
    · refine .inl ⟨if_neg all, cons_ne_nil _ _, fun other found same _ => absurd ?_ all⟩
      intro another member
      rw [same another (mem_cons_of_mem _ member), same value mem_cons_self]

theorem codedFraming_decides (maxBody : Nat) (codings : List Coding) (lengths : List Bytes) :
    codedFraming maxBody codings lengths ≠ .undecided := by
  have length : lengthFraming maxBody lengths ≠ .undecided := by
    rcases lengthFraming_cases maxBody lengths with ⟨same, _⟩ | ⟨_, same | same | ⟨_, same⟩⟩ <;>
      rw [same] <;> simp
  rcases codings with _ | ⟨_ | _ | _, _⟩
  · exact length
  · simp [codedFraming, codingFraming]
  · exact length
  · simp [codedFraming, codingFraming]

/-- Two codings call for the same framing only if they are the same, or if the one that
leaves the body to its length meets lengths that are refused. -/
theorem codingFraming_eq_iff {maxBody : Nat} {one another : Coding} :
    codingFraming maxBody lengths one = codingFraming maxBody lengths another ↔
      one = another ∨
        one ≠ .chunked ∧ another ≠ .chunked ∧ LengthsRefused maxBody lengths := by
  rcases lengthFraming_cases maxBody lengths with ⟨same, refused⟩ | ⟨taken, same⟩
  · cases one <;> cases another <;> simp [codingFraming, same, refused]
  · rcases same with same | same | ⟨_, same⟩ <;>
      cases one <;> cases another <;> simp [codingFraming, same, taken]

/-- Each of the codings comes first in some order of the lines. -/
theorem exists_first {one : Coding} (member : one ∈ codings head.fields) :
    ∃ lines, head.lines.Perm lines ∧
      (codings ({ head with lines := lines } : Head).fields).head? = some one := by
  obtain ⟨field, inFields, rfl⟩ := mem_map.mp member
  obtain ⟨inFields, named⟩ := mem_filter.mp inFields
  obtain ⟨raw, inLines, read⟩ := mem_filterMap.mp inFields
  refine ⟨raw :: head.lines.erase raw, perm_cons_erase inLines, ?_⟩
  have fields : ({ head with lines := raw :: head.lines.erase raw } : Head).fields =
      field :: ({ head with lines := head.lines.erase raw } : Head).fields :=
    filterMap_cons_some read
  rw [fields, codings, filter_cons_of_pos (by exact named)]
  rfl

/-- A length, also the length zero, is used only if all `Content-Length` fields agree. -/
theorem agree_of_lengthFraming {maxBody : Nat}
    (used : (∃ bytes, lengthFraming maxBody lengths = .length bytes) ∨
      lengthFraming maxBody lengths = .noBody) :
    ∀ one ∈ lengths, ∀ other ∈ lengths, one = other := by
  cases lengths with
  | nil => simp
  | cons value values =>
    by_cases all : ∀ other ∈ values, other = value
    · intro one first other second
      have same : ∀ other ∈ value :: values, other = value := by simpa using all
      rw [same one first, same other second]
    rw [lengthFraming, if_neg all] at used
    rcases used with ⟨_, used⟩ | used
    · cases used
    · cases used

theorem agree_of_codedFraming {maxBody : Nat} {codings : List Coding}
    (used : (∃ bytes, codedFraming maxBody codings lengths = .length bytes) ∨
      codedFraming maxBody codings lengths = .noBody) :
    ∀ one ∈ lengths, ∀ other ∈ lengths, one = other := by
  rcases codings with _ | ⟨_ | _ | _, _⟩
  · exact agree_of_lengthFraming used
  · simp [codedFraming, codingFraming] at used
  · exact agree_of_lengthFraming used
  · simp [codedFraming, codingFraming] at used

end ResponseParser

/-- The status, as far as it can be read, allows a body. -/
def Head.AllowsBody (noBody : Bool) (head : Head) : Prop :=
  noBody = false ∧ ∀ code reason,
    ResponseParser.readStatusLine (stripReturn head.status) = some (code, reason) →
      ¬ (100 ≤ code ∧ code < 200) ∧ code ≠ 204 ∧ code ≠ 304

open ResponseParser

theorem Head.allowsBody_iff (after : afterStatus limits noBody head.status = some parser) :
    head.AllowsBody noBody ↔ ¬ Bodiless parser := by
  have start := afterStatus_spec after
  obtain ⟨reason, read⟩ := start.code
  rw [Head.AllowsBody, read, Bodiless, start.noBody]
  cases noBody with
  | true => simp
  | false => simp [not_or]

/-- What the framing of a response should be like: every order of the header lines leads to
it, a chunked response is never framed otherwise, and a length is never one of several. -/
structure Head.Framed (limits : Limits) (noBody : Bool) (head : Head) (decision : Framing) :
    Prop where
  decided : decision ≠ .undecided
  order : ∀ lines, head.lines.Perm lines →
    (parse (fresh limits noBody) { head with lines := lines }.encode).framing = decision
  chunked : head.AllowsBody noBody → .chunked ∈ codings head.fields →
    decision = .chunked ∨ decision = .rejected
  lengths : head.AllowsBody noBody → (∃ bytes, decision = .length bytes) ∨ decision = .noBody →
    ∀ one ∈ contentLengths head.fields, ∀ other ∈ contentLengths head.fields, one = other

/-- Two transfer codings are the same, or they are both refused. -/
def Head.CodingsAgree (maxBody : Nat) (head : Head) : Prop :=
  ∀ one ∈ codings head.fields, ∀ another ∈ codings head.fields, one = another ∨
    one ≠ .chunked ∧ another ≠ .chunked ∧ LengthsRefused maxBody (contentLengths head.fields)

section Permuted

variable {lines : List Bytes} (order : head.lines.Perm lines)
include order

theorem Head.fields_perm : head.fields.Perm ({ head with lines := lines } : Head).fields :=
  order.filterMap _

theorem Head.contentLengths_perm : (contentLengths head.fields).Perm
    (contentLengths ({ head with lines := lines } : Head).fields) :=
  ((Head.fields_perm order).filter _).map _

theorem Head.IsHead.perm (isHead : head.IsHead) : ({ head with lines := lines } : Head).IsHead :=
  ⟨isHead.status, fun raw member => isHead.lines raw (order.mem_iff.mpr member), isHead.blank⟩

theorem Head.encode_length_perm :
    ({ head with lines := lines } : Head).encode.length = head.encode.length := by
  have bytes : (encodeLines head.lines).length = (encodeLines lines).length :=
    (order.flatMap_right _).length_eq
  rw [ResponseParser.encode_length, ResponseParser.encode_length head, ← bytes]

/-- The decision about a head that is read and allowed a body, in any order. -/
theorem framing_of_reads (isHead : head.IsHead) (short : head.encode.length < 2 ^ 64)
    (reads : Reads limits head) (allows : head.AllowsBody noBody) :
    (parse (fresh limits noBody) { head with lines := lines }.encode).framing =
      codedFraming limits.maxBody (codings ({ head with lines := lines } : Head).fields)
        (contentLengths ({ head with lines := lines } : Head).fields) := by
  rcases parse_head_framing limits noBody (isHead.perm order)
    (by rw [Head.encode_length_perm order]; exact short) with
    ⟨parser, after, _, decided⟩ | ⟨refuses, _⟩
  · have allowed : ¬ Bodiless parser :=
      (@Head.allowsBody_iff limits noBody parser head after).mp allows
    rw [decided, if_neg allowed]
  · exact absurd (reads.perm order) refuses

end Permuted

theorem framed_of_agree (isHead : head.IsHead) (short : head.encode.length < 2 ^ 64)
    (reads : Reads limits head) (allows : head.AllowsBody noBody)
    (agree : head.CodingsAgree limits.maxBody) :
    head.Framed limits noBody (parse (fresh limits noBody) head.encode).framing := by
  have decided := framing_of_reads (.refl head.lines) isHead short reads allows
  have alike : ∀ one ∈ codings head.fields, ∀ another ∈ codings head.fields,
      codingFraming limits.maxBody (contentLengths head.fields) one =
        codingFraming limits.maxBody (contentLengths head.fields) another :=
    fun one first another second => codingFraming_eq_iff.mpr (agree one first another second)
  rw [show ({ head with lines := head.lines } : Head) = head from rfl] at decided
  rw [decided]
  refine ⟨codedFraming_decides _ _ _, fun lines perm => ?_, fun _ chunked => ?_, fun _ used => ?_⟩
  · rw [framing_of_reads perm isHead short reads allows]
    exact (codedFraming_perm (((Head.fields_perm perm).filter _).map _) alike
      (Head.contentLengths_perm perm)).symm
  · left
    rw [codedFraming]
    cases first : codings head.fields with
    | nil =>
      rw [first] at chunked
      cases chunked
    | cons one rest =>
      rw [first] at alike chunked
      exact alike one mem_cons_self .chunked chunked
  · exact agree_of_codedFraming used

/-- The framing of a head is as it should be exactly if the parser does not get to the
transfer codings, because the head is refused or allowed no body, or if these agree. -/
theorem framing_permutes (limits : Limits) (noBody : Bool) {head : Head} (isHead : head.IsHead)
    (short : head.encode.length < 2 ^ 64) :
    head.Framed limits noBody (parse (fresh limits noBody) head.encode).framing ↔
      (Reads limits head → head.AllowsBody noBody → head.CodingsAgree limits.maxBody) := by
  constructor
  · intro framed reads allows one first another second
    -- the two orders that put these codings first have the same framing
    obtain ⟨lines, perm, leads⟩ := exists_first first
    obtain ⟨lines', perm', leads'⟩ := exists_first second
    have same := (framed.order lines perm).trans (framed.order lines' perm').symm
    rw [framing_of_reads perm isHead short reads allows,
      framing_of_reads perm' isHead short reads allows, codedFraming, codedFraming, leads, leads',
      ← codingFraming_perm _ (Head.contentLengths_perm perm),
      ← codingFraming_perm _ (Head.contentLengths_perm perm')] at same
    exact codingFraming_eq_iff.mp same
  · intro agree
    rcases parse_head_framing limits noBody isHead short with
      ⟨parser, after, reads, decided⟩ | ⟨refuses, rejected⟩
    · by_cases allows : head.AllowsBody noBody
      · exact framed_of_agree isHead short reads allows (agree reads allows)
      have bodiless : Bodiless parser := not_not.mp (mt (Head.allowsBody_iff after).mpr allows)
      rw [decided, if_pos bodiless]
      refine ⟨by decide, fun lines perm => ?_, fun may => absurd may allows,
        fun may => absurd may allows⟩
      rcases parse_head_framing limits noBody (isHead.perm perm)
        (by rw [Head.encode_length_perm perm]; exact short) with
        ⟨other, after', _, decided'⟩ | ⟨refuses, _⟩
      · obtain rfl : parser = other := Option.some.inj (after.symm.trans after')
        rw [decided', if_pos bodiless]
      · exact absurd (reads.perm perm) refuses
    · rw [rejected]
      refine ⟨by decide, fun lines perm => ?_, fun _ _ => .inr rfl, by simp⟩
      rcases parse_head_framing limits noBody (isHead.perm perm)
        (by rw [Head.encode_length_perm perm]; exact short) with
        ⟨_, _, reads, _⟩ | ⟨_, rejected'⟩
      · exact absurd (reads.perm perm.symm) refuses
      · exact rejected'

/-- A head with the given header lines. -/
def exampleHead (lines : List Bytes) : Head :=
  ⟨ascii "HTTP/1.1 200 OK\r", lines, ascii "\r"⟩

/-- Two fields with one coding, and a length that it overrides. -/
def codedTwice : Head :=
  exampleHead [ascii "Transfer-Encoding: chunked\r", ascii "Content-Length: 5\r",
    ascii "transfer-encoding:Chunked"]

theorem framing_permutes_chunked :
    codedTwice.Framed {} false (parse (fresh {} false) codedTwice.encode).framing := by
  have agree : ∀ one ∈ codings codedTwice.fields, ∀ another ∈ codings codedTwice.fields,
      one = another := by decide +kernel
  refine (framing_permutes {} false ⟨by decide, by decide, by decide⟩ (by decide)).mpr ?_
  exact fun _ _ one first another second => .inl (agree one first another second)

/-- With the coding `identity` in front of `chunked` the body is framed by its length; with
the two exchanged it is chunked. -/
theorem framing_depends_on_order :
    (parse (fresh {} false) (exampleHead [ascii "Transfer-Encoding: identity\r",
        ascii "Transfer-Encoding: chunked\r", ascii "Content-Length: 5\r"]).encode).framing =
      .length 5 ∧
    (parse (fresh {} false) (exampleHead [ascii "Transfer-Encoding: chunked\r",
        ascii "Transfer-Encoding: identity\r", ascii "Content-Length: 5\r"]).encode).framing =
      .chunked := by
  constructor
  · decide +kernel
  · decide +kernel

end SamuraiFormal.Http
