import SamuraiFormal.Http.ResponseSegments

/-!
# What the parser holds stays within its limits

The number of header fields never passes `maxHeaderCount`, and the body never passes
`maxBody` unless one of the two sums that `size_t` arithmetic compares with it wraps: the
body with an announced chunk, or the body with a piece of input that runs to the close.
States are followed pass by pass, so the ones in the middle of a `parse()` are included.
-/

namespace SamuraiFormal.Http

open Util
open List

namespace ResponseParser

/-- The states of a parser and its input, between the passes of `parse()`.  A piece is
appended if the `Buffer` can hold it. -/
inductive Reached (limits : Limits) (allowed : ResponseParser → Bytes → Prop) :
    ResponseParser → Bytes → Prop where
  | start : Reached limits allowed { limits := limits } []
  | expectNoBody {parser : ResponseParser} {input : Bytes}
      (before : Reached limits allowed parser input) :
      Reached limits allowed parser.expectNoBody input
  | append {parser : ResponseParser} {input : Bytes} (piece : Bytes)
      (before : Reached limits allowed parser input)
      (room : input.length + piece.length < 2 ^ 64) :
      Reached limits allowed parser (input ++ piece)
  | pass {parser : ResponseParser} {input : Bytes} (before : Reached limits allowed parser input)
      (fine : parser.status = .ok) (fits : allowed parser input) :
      Reached limits allowed (pass parser input).parser (pass parser input).input
  | finish {parser : ResponseParser} {input : Bytes}
      (before : Reached limits allowed parser input) :
      Reached limits allowed (finish parser).2 input

/-- The size that a chunk-size line at the front of the input announces, if the line is
complete and the size is allowed for a chunk. -/
def announced (parser : ResponseParser) (input : Bytes) : Option Nat :=
  match takeLine parser input with
  | .taken text false _ _ =>
    match Number.parseChunkSize text 0 with
    | (false, _) => none
    | (true, size) => if size ≤ parser.limits.maxChunkSize then some size else none
  | _ => none

/-- The sum that a pass compares with `maxBody` does not wrap, if the comparison lets it
through. -/
def Unwrapped (parser : ResponseParser) (input : Bytes) : Prop :=
  match parser.state with
  | .bodyChunkSize => ∀ size ∈ announced parser input,
      (parser.response.body.length + size) % 2 ^ 64 ≤ parser.limits.maxBody →
        parser.response.body.length + size < 2 ^ 64
  | .bodyUntilClose =>
    (parser.response.body.length + input.length) % 2 ^ 64 ≤ parser.limits.maxBody →
      parser.response.body.length + input.length < 2 ^ 64
  | _ => True

instance (parser : ResponseParser) (input : Bytes) : Decidable (Unwrapped parser input) := by
  unfold Unwrapped
  split <;> infer_instance

/-- The most bytes that the state may still add to the body: before the end of the header
block a whole body, and then what the framing has announced. -/
def owed (parser : ResponseParser) : Nat :=
  match parser.state with
  | .statusLine | .headerBlock => parser.limits.maxBody
  | .bodyLength => parser.bodyRemaining
  | .bodyChunkData => parser.chunkRemaining
  | _ => 0

/-- What is stored and what is still to come fit into the limits. -/
structure Bounded (limits : Limits) (parser : ResponseParser) : Prop where
  bounds : parser.limits = limits
  fields : parser.response.headers.size ≤ limits.maxHeaderCount
  total : parser.response.body.length + owed parser ≤ limits.maxBody

variable {limits : Limits} {parser : ResponseParser} {input : Bytes}

theorem bounded_start : Bounded limits { limits := limits } :=
  ⟨rfl, Nat.zero_le _, Nat.le_of_eq (Nat.zero_add _)⟩

namespace Bounded

variable (bounded : Bounded limits parser)
include bounded

theorem body : parser.response.body.length ≤ limits.maxBody :=
  Nat.le_of_add_right_le bounded.total

/-- The other counters and flags do not matter. -/
theorem headerBytes (count : Nat) : Bounded limits { parser with headerBytes := count } :=
  ⟨bounded.bounds, bounded.fields, bounded.total⟩

theorem fail (why : Status) : Bounded limits (parser.fail why).2 :=
  ⟨bounded.bounds, bounded.fields, bounded.total⟩

theorem complete : Bounded limits parser.complete.2 :=
  ⟨bounded.bounds, bounded.fields, bounded.body⟩

/-- A state that owes nothing. -/
theorem enter {state : State} (nothing : owed { parser with state := state } = 0) :
    Bounded limits (parser.enter state).2 :=
  ⟨bounded.bounds, bounded.fields, nothing ▸ bounded.body⟩

theorem statusLine (start : parser.state = .statusLine) (line : Bytes) :
    Bounded limits (ResponseParser.statusLine line parser).2 := by
  have total := bounded.total
  simp only [owed, start] at total
  unfold ResponseParser.statusLine
  split
  · exact bounded.fail _
  · exact ⟨bounded.bounds, bounded.fields, total⟩

theorem chooseLength (start : parser.state = .headerBlock) :
    Bounded limits parser.chooseLength.2 := by
  have total := bounded.total
  simp only [owed, start] at total
  unfold ResponseParser.chooseLength
  split
  · split
    · exact bounded.fail _
    · split
      · exact bounded.fail _
      · split
        · exact bounded.fail _
        rename_i small
        split
        · exact ⟨bounded.bounds, bounded.fields, bounded.body⟩
        · exact ⟨bounded.bounds, bounded.fields,
            Nat.le_trans (Nat.add_le_add_left (Nat.not_lt.mp small) _) total⟩
  · exact bounded.enter rfl

theorem chooseBodyFraming (start : parser.state = .headerBlock) :
    Bounded limits parser.chooseBodyFraming.2 := by
  unfold ResponseParser.chooseBodyFraming
  dsimp only
  split
  · exact bounded.complete
  split
  · exact bounded.chooseLength start
  split
  · exact bounded.enter rfl
  split
  · exact bounded.fail _
  · exact bounded.chooseLength start

/-- A field is added only while there is room for it. -/
theorem addHeader (name value : Bytes)
    (room : ¬ parser.limits.maxHeaderCount ≤ parser.response.headers.size) :
    Bounded limits { parser with response := { parser.response with
      headers := parser.response.headers.add name value } } where
  bounds := bounded.bounds
  fields := by
    rw [bounded.bounds] at room
    simp only [Headers.size, Headers.add, length_append, length_singleton] at room ⊢
    omega
  total := bounded.total

end Bounded

/-! ## One pass -/

/-- A pass of lines keeps what its handler keeps. -/
theorem takeLines_bounded {handle : Bytes → ResponseParser → Verdict ⊕ ResponseParser}
    {here : State}
    (stop : ∀ {line parser verdict}, Bounded limits parser → parser.state = here →
      handle line parser = .inl verdict → Bounded limits verdict.2)
    (next : ∀ {line parser parser'}, Bounded limits parser → parser.state = here →
      handle line parser = .inr parser' → Bounded limits parser' ∧ parser'.state = here)
    (bounded : Bounded limits parser) (start : parser.state = here) :
    Bounded limits (takeLines handle parser input).parser := by
  refine takeLines_induction handle
    (motive := fun parser _ outcome => Bounded limits parser → parser.state = here →
      Bounded limits outcome.parser) ?_ ?_ ?_ ?_ ?_ parser input bounded start
  · intro parser input _ bounded _
    exact bounded
  · intro parser input _ bounded _
    exact bounded.fail _
  · intro parser input text parser' rest line bounded _
    obtain ⟨_, count, rfl⟩ := takeLine_taken line
    exact (bounded.headerBytes count).fail _
  · intro parser input text parser' rest verdict line handled bounded start
    obtain ⟨_, count, rfl⟩ := takeLine_taken line
    exact stop (bounded.headerBytes count) start handled
  · intro parser input text parser' rest after line handled later bounded start
    obtain ⟨_, count, rfl⟩ := takeLine_taken line
    obtain ⟨kept, same⟩ := next (bounded.headerBytes count) start handled
    exact later kept same

section

variable (bounded : Bounded limits parser)
include bounded

theorem headerLine_stop {line : Bytes} {verdict : Verdict} (start : parser.state = .headerBlock)
    (stopped : headerLine line parser = .inl verdict) : Bounded limits verdict.2 := by
  unfold headerLine at stopped
  split at stopped
  · cases stopped
    exact bounded.chooseBodyFraming start
  split at stopped
  · cases stopped
    exact bounded.fail _
  split at stopped
  · cases stopped
    exact bounded.fail _
  · cases stopped

theorem headerLine_next {line : Bytes} {parser' : ResponseParser}
    (start : parser.state = .headerBlock) (went : headerLine line parser = .inr parser') :
    Bounded limits parser' ∧ parser'.state = .headerBlock := by
  unfold headerLine at went
  split at went
  · cases went
  split at went
  · cases went
  split at went
  · cases went
  rename_i room
  cases went
  exact ⟨bounded.addHeader _ _ room, start⟩

/-- Bytes taken from a counter are stored, and no longer to come. -/
theorem takeBody_bounded {remaining : ResponseParser → Nat}
    {store : ResponseParser → Nat → ResponseParser} {finish : ResponseParser → Verdict}
    (counter : IsCounter remaining store)
    (owes : ∀ stored : ResponseParser, stored.state = parser.state →
      owed stored = remaining stored)
    (finished : ∀ {stored}, Bounded limits stored → Bounded limits (finish stored).2) :
    Bounded limits (takeBody remaining store finish parser input).parser := by
  have kept (taken : Bytes) (left : Nat) (counted : taken.length + left ≤ remaining parser) :
      Bounded limits (store (withBody parser taken) left) := by
    have total := bounded.total
    refine ⟨(counter.limits _ _).trans bounded.bounds, ?_, ?_⟩
    · rw [counter.response]
      exact bounded.fields
    · rw [owes (store (withBody parser taken) left) (counter.state _ _), counter.read,
        counter.response]
      rw [owes parser rfl] at total
      simp only [withBody, length_append]
      omega
  by_cases short : input.length < remaining parser
  · rw [takeBody_short counter short]
    exact kept _ _ (by omega)
  by_cases empty : input = []
  · rw [empty]
    exact bounded
  · rw [takeBody_long counter empty (Nat.not_lt.mp short)]
    exact finished (kept _ _ (length_take_le _ _))

/-- A chunk is admitted only if its bytes fit, where the sum does not wrap. -/
theorem chunkSizeLine_bounded (line : Bytes)
    (unwrapped : ∀ size, Number.parseChunkSize line 0 = (true, size) →
      size ≤ parser.limits.maxChunkSize →
      (parser.response.body.length + size) % 2 ^ 64 ≤ parser.limits.maxBody →
      parser.response.body.length + size < 2 ^ 64) :
    Bounded limits (chunkSizeLine line parser).2 := by
  unfold chunkSizeLine
  split
  · exact bounded.fail _
  rename_i size announces
  split
  · exact bounded.fail _
  rename_i allowed
  split
  · exact bounded.fail _
  rename_i small
  split
  · exact bounded.enter rfl
  have small := Nat.not_lt.mp small
  have exact' := unwrapped size announces (Nat.not_lt.mp allowed) small
  rw [Nat.mod_eq_of_lt exact', bounded.bounds] at small
  exact ⟨bounded.bounds, bounded.fields, small⟩

theorem parseChunkSize_bounded (here : parser.state = .bodyChunkSize)
    (unwrapped : Unwrapped parser input) : Bounded limits (parseChunkSize parser input).parser := by
  simp only [Unwrapped, here] at unwrapped
  rw [parseChunkSize, takeLines_eq]
  cases line : takeLine parser input with
  | missing tooLong =>
    simp only
    split
    · exact bounded.fail _
    · exact bounded
  | taken text tooLong parser' rest =>
    obtain ⟨_, count, rfl⟩ := takeLine_taken line
    have counted := bounded.headerBytes count
    cases tooLong with
    | true => exact counted.fail _
    | false =>
      refine chunkSizeLine_bounded counted text ?_
      intro size announces allowed
      refine unwrapped size ?_
      simp [announced, line, announces, allowed]

theorem parseBodyUntilClose_bounded (here : parser.state = .bodyUntilClose)
    (unwrapped : Unwrapped parser input) :
    Bounded limits (parseBodyUntilClose parser input).parser := by
  simp only [Unwrapped, here] at unwrapped
  unfold parseBodyUntilClose
  split
  · exact bounded.fail _
  rename_i small
  have stored : Bounded limits (withBody parser input) := by
    refine ⟨bounded.bounds, bounded.fields, ?_⟩
    simp only [owed, withBody, here, length_append]
    by_cases empty : input.length = 0
    · rw [empty]
      exact bounded.body
    have small := Nat.not_lt.mp fun large => small ⟨empty, large⟩
    have exact' := unwrapped small
    rwa [Nat.mod_eq_of_lt exact', bounded.bounds] at small
  dsimp only
  split
  · exact stored.complete
  · exact stored

/-- Every pass keeps the bounds if its sum does not wrap. -/
theorem pass_bounded (unwrapped : Unwrapped parser input) :
    Bounded limits (pass parser input).parser := by
  unfold pass
  cases here : parser.state with
  | statusLine =>
    refine takeLines_bounded ?_ (fun _ _ went => nomatch went) bounded here
    rintro line parser verdict bounded start ⟨⟩
    exact bounded.statusLine start line
  | headerBlock =>
    exact takeLines_bounded (headerLine_stop ·) (headerLine_next ·) bounded here
  | bodyLength =>
    exact takeBody_bounded bounded bodyRemaining_isCounter
      (fun _ same => by simp only [owed, same, here]) fun stored => stored.complete
  | bodyChunkSize => exact parseChunkSize_bounded bounded here unwrapped
  | bodyChunkData =>
    exact takeBody_bounded bounded chunkRemaining_isCounter
      (fun _ same => by simp only [owed, same, here]) fun stored => stored.enter rfl
  | bodyChunkCrlf =>
    refine takeLines_bounded ?_ (fun _ _ went => nomatch went) bounded here
    rintro line parser verdict bounded _ ⟨⟩
    split
    · exact bounded.fail _
    · exact bounded.enter rfl
  | bodyTrailers =>
    refine takeLines_bounded ?_ ?_ bounded here
    · intro line parser verdict bounded _ stopped
      split at stopped
      · cases stopped
        exact bounded.complete
      · cases stopped
    · intro line parser parser' bounded start went
      split at went
      · cases went
      · cases went
        exact ⟨bounded, start⟩
  | bodyUntilClose => exact parseBodyUntilClose_bounded bounded here unwrapped
  | done => exact bounded

theorem finish_bounded : Bounded limits (finish parser).2 := by
  have closed : Bounded limits { parser with closed := true } :=
    ⟨bounded.bounds, bounded.fields, bounded.total⟩
  unfold finish
  split
  · exact bounded
  split
  · exact bounded
  split
  · exact closed.complete
  · exact closed.fail _

end

theorem reached_bounded (reached : Reached limits Unwrapped parser input) :
    Bounded limits parser := by
  induction reached with
  | start => exact bounded_start
  | expectNoBody _ bounded =>
    exact ⟨bounded.bounds, bounded.fields, bounded.total⟩
  | append _ _ _ bounded => exact bounded
  | pass _ _ unwrapped bounded => exact pass_bounded bounded unwrapped
  | finish _ bounded => exact finish_bounded bounded

/-- A whole `parse()` is a sequence of passes. -/
theorem reached_parse {allowed : ResponseParser → Bytes → Prop}
    (always : ∀ parser input, allowed parser input)
    (reached : Reached limits allowed parser input) :
    Reached limits allowed (parse parser input).parser (parse parser input).input := by
  induction rank : passes parser input using Nat.strongRecOn generalizing parser input with
  | ind _ ih =>
    by_cases fine : parser.status = .ok
    · have once := reached.pass fine (always parser input)
      by_cases last : (pass parser input).result ≠ .needMore ∨ Idle parser input (pass parser input)
      · rw [parse_last fine last]
        exact once
      obtain ⟨waits, moved⟩ := not_or.mp last
      rw [parse_pass fine (not_not.mp waits)]
      exact ih _ (rank ▸ passes_lt (not_not.mp waits) moved) once rfl
    · rw [parse_of_failed fine]
      exact reached

theorem parseChunkData_length (parser : ResponseParser) (input : Bytes) :
    (parseChunkData parser input).parser.response.body.length =
      parser.response.body.length + min input.length parser.chunkRemaining := by
  by_cases short : input.length < parser.chunkRemaining
  · rw [parseChunkData, takeBody_short chunkRemaining_isCounter short,
      Nat.min_eq_left (Nat.le_of_lt short)]
    simp [setChunkRemaining, withBody]
  by_cases empty : input = []
  · rw [empty]
    simp [parseChunkData, takeBody]
  have long := Nat.not_lt.mp short
  rw [parseChunkData, takeBody_long chunkRemaining_isCounter empty long]
  simp [Verdict.leaving, enter, setChunkRemaining, withBody, long]

theorem of_announced {size : Nat} (announces : announced parser input = some size) :
    ∃ text parser' rest, takeLine parser input = .taken text false parser' rest ∧
      Number.parseChunkSize text 0 = (true, size) ∧ size ≤ parser.limits.maxChunkSize := by
  unfold announced at announces
  split at announces
  case h_1 text parser' rest line =>
    split at announces
    case h_1 => cases announces
    case h_2 size' parsed =>
      obtain ⟨allowed, same⟩ := Option.ite_none_right_eq_some.mp announces
      cases same
      exact ⟨text, parser', rest, line, parsed, allowed⟩
  case h_2 => cases announces

/-- The pass over a chunk-size line that both checks let through. -/
theorem pass_of_announced {size : Nat} (here : parser.state = .bodyChunkSize)
    (announces : announced parser input = some size)
    (small : (parser.response.body.length + size) % 2 ^ 64 ≤ parser.limits.maxBody)
    (some' : size ≠ 0) :
    (pass parser input).parser.state = .bodyChunkData ∧
      (pass parser input).parser.status = parser.status ∧
      (pass parser input).parser.chunkRemaining = size ∧
      (pass parser input).parser.response = parser.response := by
  obtain ⟨text, parser', rest, line, parsed, allowed⟩ := of_announced announces
  obtain ⟨_, count, rfl⟩ := takeLine_taken line
  have allowed := Nat.not_lt.mpr allowed
  have small := Nat.not_lt.mpr small
  simp only [pass, here, parseChunkSize, takeLines_eq, line,
    chunkSizeLine, parsed, if_neg allowed, if_neg small, if_neg some']
  exact ⟨rfl, rfl, rfl, rfl⟩

/-- After a chunk-size line whose sum wraps, enough data fills the body past the bound. -/
theorem overfill {size : Nat} (bounded : Bounded limits parser)
    (addressable : limits.maxBody < 2 ^ 64 ∧ limits.maxChunkSize < 2 ^ 64)
    (here : parser.state = .bodyChunkSize) (announces : announced parser input = some size)
    (small : (parser.response.body.length + size) % 2 ^ 64 ≤ parser.limits.maxBody)
    (wraps : 2 ^ 64 ≤ parser.response.body.length + size) :
    (pass parser input).parser.status = parser.status ∧
      ∃ piece : Bytes, (piece = [] ∨ (pass parser input).input.length + piece.length < 2 ^ 64) ∧
        limits.maxBody < (pass (pass parser input).parser
          ((pass parser input).input ++ piece)).parser.response.body.length := by
  have body := bounded.body
  obtain ⟨_, _, _, _, _, allowed⟩ := of_announced announces
  rw [bounded.bounds] at allowed
  obtain ⟨state, status, remaining, response⟩ := pass_of_announced here announces small (by omega)
  have filled (piece : Bytes) : (pass (pass parser input).parser
      ((pass parser input).input ++ piece)).parser.response.body.length =
      parser.response.body.length + min ((pass parser input).input.length + piece.length) size := by
    rw [pass, state]
    simp only
    rw [parseChunkData_length, response, remaining, length_append]
  -- The body is not empty, so that what is missing fits into the buffer.
  refine ⟨status, List.replicate (limits.maxBody - (pass parser input).input.length) 0, ?_, ?_⟩
  · by_cases room : limits.maxBody ≤ (pass parser input).input.length
    · exact .inl (by rw [Nat.sub_eq_zero_of_le room, replicate_zero])
    · rw [length_replicate]
      exact .inr (by omega)
  · rw [filled, length_replicate]
    omega

/-- **The parser keeps within its limits** in every state of a run whose compared sums do
not wrap; and the first pass whose sum does wrap exceeds `maxBody`, itself or with the next
pass once more of the chunk has come. -/
theorem reached_within_limits
    (addressable : limits.maxBody < 2 ^ 64 ∧ limits.maxChunkSize < 2 ^ 64)
    (reached : Reached limits Unwrapped parser input) :
    parser.response.body.length ≤ limits.maxBody ∧
      parser.response.headers.size ≤ limits.maxHeaderCount ∧
      (¬ Unwrapped parser input →
        limits.maxBody < (pass parser input).parser.response.body.length ∨
          (pass parser input).parser.status = parser.status ∧ ∃ piece : Bytes,
            (piece = [] ∨ (pass parser input).input.length + piece.length < 2 ^ 64) ∧
              limits.maxBody < (pass (pass parser input).parser
                ((pass parser input).input ++ piece)).parser.response.body.length) := by
  have bounded := reached_bounded reached
  refine ⟨bounded.body, bounded.fields, fun wrapped => ?_⟩
  unfold Unwrapped at wrapped
  split at wrapped
  · rename_i here
    simp only [Classical.not_forall, Nat.not_lt] at wrapped
    obtain ⟨size, announces, small, wraps⟩ := wrapped
    exact .inr (overfill bounded addressable here announces small wraps)
  · rename_i here
    have stored : (pass parser input).parser.response.body = parser.response.body ++ input := by
      have room : ¬ (input.length ≠ 0 ∧ parser.limits.maxBody <
          (parser.response.body.length + input.length) % 2 ^ 64) := fun large => by omega
      simp only [pass, here, parseBodyUntilClose, if_neg room]
      split <;> rfl
    rw [stored, length_append]
    exact .inl (by omega)
  · exact absurd trivial wrapped

/-- The first chunk of a response. -/
def chunkedHead : Bytes :=
  ascii "HTTP/1.1 200 OK\r\nTransfer-Encoding: chunked\r\n\r\n5\r\nhello\r\n"

/-- The default limits hold while the chunk is read. -/
theorem chunk_within_limits :
    ∃ parser input, Reached {} Unwrapped parser input ∧ parser.response.body = ascii "hello" ∧
      parser.response.body.length ≤ 1024 * 1024 ∧ parser.response.headers.size ≤ 100 := by
  have begun : Reached {} Unwrapped {} chunkedHead := .append chunkedHead .start (by decide)
  have status := begun.pass rfl (by decide)
  have header := status.pass rfl (by decide)
  have size := header.pass rfl (by decide)
  have chunk := size.pass rfl (by decide)
  obtain ⟨body, fields, -⟩ := reached_within_limits (by decide) chunk
  exact ⟨_, _, chunk, by decide, body, fields⟩

/-- A second chunk whose announced size wraps the sum to zero, and eleven bytes of it. -/
def wrappingBody : Bytes := chunkedHead ++ ascii "fffffffffffffffb\r\n0123456789a"

/-- The body is sixteen bytes long where ten are allowed. -/
theorem wrapping_chunk_exceeds :
    let limits : Limits := { maxBody := 10, maxChunkSize := 2 ^ 64 - 1 }
    Reached limits (fun _ _ => True) (parse { limits := limits } wrappingBody).parser
        (parse { limits := limits } wrappingBody).input ∧
      limits.maxBody < (parse { limits := limits } wrappingBody).parser.response.body.length := by
  refine ⟨?_, by decide⟩
  exact reached_parse (fun _ _ => trivial) (.append wrappingBody .start (by decide))

end ResponseParser

end SamuraiFormal.Http
