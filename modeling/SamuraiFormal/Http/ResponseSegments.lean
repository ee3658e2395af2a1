import SamuraiFormal.Library.Resumable
import SamuraiFormal.Http.ResponsePasses

/-!
# The parser does not see how its input was cut

For each pass of `parse()` it is shown that it may be resumed with more input
(`pass_resumes`), and the library lifts this to the loop of `parse()` and to any
sequence of pieces.
-/

namespace SamuraiFormal.Http

open Util
open Library.Resumable
open List

variable {parser : ResponseParser} {front back : Bytes}

namespace ResponseParser

/-- A line found too long stays too long when more input arrives. -/
theorem takeLine_append_missing (missing : takeLine parser front = .missing true) (back : Bytes) :
    takeLine parser (front ++ back) = .missing true := by
  unfold takeLine at missing ⊢
  cases found : find front lineFeed with
  | none =>
    simp only [found, Line.missing.injEq, decide_eq_true_eq] at missing
    cases later : find (front ++ back) lineFeed with
    | none =>
      simp only [Line.missing.injEq, decide_eq_true_eq, length_append]
      omega
    | some lf =>
      have past := length_le_of_find_append found later
      simp only
      rw [if_pos (by omega)]
  | some lf =>
    simp only [found] at missing
    simp only [find_append_of_some found back]
    split at missing
    · next long => rw [if_pos long]
    · simp at missing

/-- A line that is there is taken alike, and what follows it is left. -/
theorem takeLine_append_taken {parser' : ResponseParser} {text rest : Bytes} {tooLong : Bool}
    (taken : takeLine parser front = .taken text tooLong parser' rest) (back : Bytes) :
    takeLine parser (front ++ back) = .taken text tooLong parser' (rest ++ back) := by
  unfold takeLine at taken ⊢
  cases found : find front lineFeed with
  | none => simp [found] at taken
  | some lf =>
    have below := lt_length_of_find found
    simp only [found] at taken
    simp only [find_append_of_some found back]
    split at taken
    · cases taken
    next short =>
      rw [if_neg short]
      simp only [Line.taken.injEq] at taken ⊢
      obtain ⟨rfl, rfl, rfl, rfl⟩ := taken
      refine ⟨?_, rfl, rfl, drop_append_of_le_length below⟩
      rw [getElem?_append_left (by omega)]
      refine take_append_of_le_length ?_
      split <;> omega

/-- The same verdict and status and, unless it is an error, the same everything. -/
structure Agree (first second : Outcome) : Prop where
  result : first.result = second.result
  status : first.parser.status = second.parser.status
  same : first.result ≠ .error → first = second

theorem Agree.refl (outcome : Outcome) : Agree outcome outcome := ⟨rfl, rfl, fun _ => rfl⟩

theorem Agree.of_eq {first second : Outcome} (same : first = second) : Agree first second :=
  same ▸ .refl first

theorem Agree.trans {first second third : Outcome} (one : Agree first second)
    (two : Agree second third) : Agree first third where
  result := one.result.trans two.result
  status := one.status.trans two.status
  same fine := (one.same fine).trans (two.same (one.result ▸ fine))

def append (outcome : Outcome) (back : Bytes) : Outcome :=
  { outcome with input := outcome.input ++ back }

/-- More input leaves the outcome as it was, or it is read from where the first pass
stopped waiting. -/
def Resumes (run : ResponseParser → Bytes → Outcome) (parser : ResponseParser)
    (front back : Bytes) : Prop :=
  run parser (front ++ back) = append (run parser front) back ∨
    ((run parser front).result = .needMore ∧ (run parser front).parser.state = parser.state ∧
      Agree (run parser (front ++ back))
        (run (run parser front).parser ((run parser front).input ++ back)))

theorem takeLines_resumes {handle : Bytes → ResponseParser → Verdict ⊕ ResponseParser}
    (handler : IsHandler handle) (parser : ResponseParser) (front back : Bytes) :
    Resumes (takeLines handle) parser front back := by
  have lines : takeLines handle parser (front ++ back) =
        append (takeLines handle parser front) back ∨
      ((takeLines handle parser front).result = .needMore ∧
        (takeLines handle parser front).parser.state = parser.state ∧
        takeLines handle parser (front ++ back) =
          takeLines handle (takeLines handle parser front).parser
            ((takeLines handle parser front).input ++ back)) := by
    refine takeLines_induction handle
      (motive := fun parser front outcome =>
        takeLines handle parser (front ++ back) = append outcome back ∨
          (outcome.result = .needMore ∧ outcome.parser.state = parser.state ∧
            takeLines handle parser (front ++ back) =
              takeLines handle outcome.parser (outcome.input ++ back)))
      ?_ ?_ ?_ ?_ ?_ parser front
    · intro parser input _
      exact .inr ⟨rfl, rfl, rfl⟩
    · intro parser input line
      rw [takeLines_eq, takeLine_append_missing line]
      exact .inl rfl
    · intro parser input text parser' rest line
      rw [takeLines_eq, takeLine_append_taken line]
      exact .inl rfl
    · intro parser input text parser' rest verdict line handled
      rw [takeLines_eq, takeLine_append_taken line]
      simp only [handled]
      exact .inl rfl
    · intro parser input text parser' rest next line handled later
      obtain ⟨_, headerBytes, rfl⟩ := takeLine_taken line
      obtain ⟨sameState, _⟩ := handler.next handled
      have went : takeLines handle parser (input ++ back) =
          takeLines handle next (rest ++ back) := by
        rw [takeLines_eq, takeLine_append_taken line]
        simp [handled]
      rw [went]
      rcases later with whole | ⟨waits, state, resumed⟩
      · exact .inl whole
      · exact .inr ⟨waits, state.trans sameState, resumed⟩
  rcases lines with whole | ⟨waits, state, resumed⟩
  · exact .inl whole
  · exact .inr ⟨waits, state, .of_eq resumed⟩

theorem takeBody_resumes {remaining : ResponseParser → Nat}
    {store : ResponseParser → Nat → ResponseParser} (counter : IsCounter remaining store)
    (finish : ResponseParser → Verdict) (parser : ResponseParser) (front back : Bytes) :
    Resumes (takeBody remaining store finish) parser front back := by
  by_cases short : front.length < remaining parser
  · -- all of the front is body, so the rest of the body is read from the back
    have left : remaining (store (withBody parser front) (remaining parser - front.length)) =
        remaining parser - front.length := counter.read _ _
    refine .inr ?_
    rw [takeBody_short counter short]
    refine ⟨rfl, counter.state _ _, .of_eq ?_⟩
    by_cases whole : (front ++ back).length < remaining parser
    · rw [length_append] at whole
      rw [takeBody_short counter (by rw [length_append]; exact whole), nil_append,
        takeBody_short counter (by rw [left]; omega), counter.again, withBody_withBody, left,
        length_append, Nat.sub_add_eq]
    · have long := Nat.not_lt.mp whole
      rw [length_append] at long
      have nonempty : back ≠ [] := by
        rintro rfl
        simp at long
        omega
      rw [takeBody_long counter (by simp [nonempty]) (by rw [length_append]; exact long),
        nil_append, takeBody_long counter nonempty (by rw [left]; omega), counter.again,
        withBody_withBody, left, take_append, drop_append,
        take_of_length_le (Nat.le_of_lt short), drop_of_length_le (Nat.le_of_lt short),
        nil_append]
  · have long := Nat.not_lt.mp short
    by_cases empty : front = []
    · subst empty
      exact .inr ⟨rfl, rfl, .refl _⟩
    refine .inl ?_
    rw [takeBody_long counter (by simp [empty])
        (by rw [length_append]; omega), takeBody_long counter empty long,
      take_append_of_le_length long, drop_append_of_le_length long]
    rfl

theorem parseBodyUntilClose_resumes (opened : parser.closed = false)
    (fits : parser.response.body.length + (front ++ back).length < 2 ^ 64) :
    Resumes parseBodyUntilClose parser front back := by
  have still (taken : Bytes) : (withBody parser taken).closed = false := opened
  rw [length_append] at fits
  by_cases refused : front.length ≠ 0 ∧
      parser.limits.maxBody < (parser.response.body.length + front.length) % 2 ^ 64
  · refine .inl ?_
    rw [Nat.mod_eq_of_lt (by omega)] at refused
    have whole : (front ++ back).length ≠ 0 ∧ parser.limits.maxBody <
        (parser.response.body.length + (front ++ back).length) % 2 ^ 64 := by
      rw [length_append]
      omega
    have part : front.length ≠ 0 ∧ parser.limits.maxBody <
        (parser.response.body.length + front.length) % 2 ^ 64 := by
      rwa [Nat.mod_eq_of_lt (by omega)]
    rw [parseBodyUntilClose, if_pos whole, parseBodyUntilClose, if_pos part]
    rfl
  · have taken : parseBodyUntilClose parser front = ⟨.needMore, withBody parser front, []⟩ := by
      rw [parseBodyUntilClose, if_neg refused]
      simp [still]
    refine .inr ?_
    rw [taken]
    refine ⟨rfl, rfl, ?_⟩
    have length : (withBody parser front).response.body.length =
        parser.response.body.length + front.length := length_append
    by_cases large : parser.limits.maxBody <
        parser.response.body.length + front.length + back.length
    · -- too much: refused with the front in the body or not, which only shows there
      by_cases empty : back = []
      · subst empty
        rw [append_nil, taken]
        refine .of_eq ?_
        simp [parseBodyUntilClose, withBody_nil, still]
      · have some' := length_pos_of_ne_nil empty
        have whole : parseBodyUntilClose parser (front ++ back) =
            (fail parser .responseTooLarge).leaving (front ++ back) := by
          rw [parseBodyUntilClose, if_pos]
          rw [length_append]
          omega
        have rest : parseBodyUntilClose (withBody parser front) ([] ++ back) =
            (fail (withBody parser front) .responseTooLarge).leaving back := by
          rw [nil_append, parseBodyUntilClose, if_pos]
          rw [length, Nat.mod_eq_of_lt (by omega)]
          exact ⟨by omega, large⟩
        rw [whole, rest]
        exact ⟨rfl, rfl, fun fine => absurd rfl fine⟩
    · have whole : parseBodyUntilClose parser (front ++ back) =
          ⟨.needMore, withBody parser (front ++ back), []⟩ := by
        rw [parseBodyUntilClose, if_neg]
        · simp [still]
        · rw [length_append, Nat.mod_eq_of_lt (by omega)]
          omega
      have rest : parseBodyUntilClose (withBody parser front) ([] ++ back) =
          ⟨.needMore, withBody (withBody parser front) back, []⟩ := by
        rw [nil_append, parseBodyUntilClose, if_neg]
        · simp [withBody_withBody, still]
        · rw [length, Nat.mod_eq_of_lt (by omega)]
          simp only [withBody]
          omega
      rw [whole, rest, withBody_withBody]
      exact .refl _

/-- What the lengths of a `Buffer` and of a string are: below `2 ^ 64` together. -/
def Fits (parser : ResponseParser) (input : Bytes) : Prop :=
  parser.closed = false ∧ parser.response.body.length + input.length < 2 ^ 64

theorem pass_resumes (fits : Fits parser (front ++ back)) : Resumes pass parser front back := by
  have lift {run : ResponseParser → Bytes → Outcome} (resumes : Resumes run parser front back)
      (runs : ∀ other : ResponseParser, other.state = parser.state → pass other = run other) :
      Resumes pass parser front back := by
    unfold Resumes
    rw [runs parser rfl]
    rcases resumes with whole | ⟨waits, state, resumed⟩
    · exact .inl whole
    · exact .inr ⟨waits, state, by rw [runs _ state]; exact resumed⟩
  cases state : parser.state with
  | statusLine =>
    exact lift (takeLines_resumes (isHandler_of_settles statusLine_settles) _ _ _)
      fun other same => by funext input; simp only [pass, same, state]; rfl
  | headerBlock =>
    exact lift (takeLines_resumes headerLine_isHandler _ _ _)
      fun other same => by funext input; simp only [pass, same, state]; rfl
  | bodyLength =>
    exact lift (takeBody_resumes bodyRemaining_isCounter _ _ _ _)
      fun other same => by funext input; simp only [pass, same, state]; rfl
  | bodyChunkSize =>
    exact lift (takeLines_resumes (isHandler_of_settles chunkSizeLine_settles) _ _ _)
      fun other same => by funext input; simp only [pass, same, state]; rfl
  | bodyChunkData =>
    exact lift (takeBody_resumes chunkRemaining_isCounter _ _ _ _)
      fun other same => by funext input; simp only [pass, same, state]; rfl
  | bodyChunkCrlf =>
    exact lift (takeLines_resumes crlfLine_isHandler _ _ _)
      fun other same => by funext input; simp only [pass, same, state]; rfl
  | bodyTrailers =>
    exact lift (takeLines_resumes trailerLine_isHandler _ _ _)
      fun other same => by funext input; simp only [pass, same, state]; rfl
  | bodyUntilClose =>
    exact lift (parseBodyUntilClose_resumes fits.1 fits.2)
      fun other same => by funext input; simp only [pass, same, state]
  | done =>
    refine .inl ?_
    simp only [pass, state]
    rfl

theorem parse_agree {first second : ResponseParser} {input input' : Bytes}
    (fine : first.status = .ok) (fine' : second.status = .ok)
    (agree : Agree (pass first input) (pass second input')) :
    Agree (parse first input) (parse second input') := by
  by_cases waits : (pass first input).result = .needMore
  · have waits' := agree.result ▸ waits
    rw [parse_pass fine waits, parse_pass fine' waits', agree.same (by rw [waits]; decide)]
    exact .refl _
  have ended := agree.result ▸ waits
  rw [parse_last fine (.inl waits), parse_last fine' (.inl ended)]
  exact agree

def responseConsumer : Consumer ResponseParser UInt8 Outcome :=
  ⟨parse, Outcome.parser, Outcome.input⟩

/-- A pass of `parse()`, with the test of the status in front of its loop. -/
def checkedPass (parser : ResponseParser) (input : Bytes) : Outcome :=
  if parser.status ≠ .ok then ⟨.error, parser, input⟩ else pass parser input

theorem checkedPass_of_failed (failed : parser.status ≠ .ok) (input : Bytes) :
    checkedPass parser input = ⟨.error, parser, input⟩ :=
  if_pos failed

theorem checkedPass_of_ok (fine : parser.status = .ok) (input : Bytes) :
    checkedPass parser input = pass parser input :=
  if_neg (not_not_intro fine)

theorem parse_isLoop : IsLoop responseConsumer checkedPass
    (fun parser input outcome =>
      parser.status ≠ .ok ∨ outcome.result ≠ .needMore ∨ Idle parser input outcome) passes where
  last := by
    intro parser input last
    by_cases fine : parser.status = .ok
    · rw [checkedPass_of_ok fine] at last ⊢
      exact parse_last fine (last.resolve_left (not_not_intro fine))
    · rw [checkedPass_of_failed fine]
      exact parse_of_failed fine input
  again := by
    intro parser input continues
    obtain ⟨fine, goes⟩ := not_or.mp continues
    obtain ⟨waits, moved⟩ := not_or.mp goes
    have fine := not_not.mp fine
    rw [checkedPass_of_ok fine] at waits moved ⊢
    exact ⟨parse_pass fine (not_not.mp waits), passes_lt (not_not.mp waits) moved⟩

theorem checkedPass_keeps (fits : Fits parser (front ++ back)) :
    Fits (checkedPass parser front).parser ((checkedPass parser front).input ++ back) := by
  by_cases fine : parser.status = .ok
  · rw [checkedPass_of_ok fine]
    have progress := pass_progress parser front
    obtain ⟨opened, small⟩ := fits
    refine ⟨progress.closed.trans opened, ?_⟩
    have := progress.size
    rw [length_append] at small ⊢
    omega
  · rw [checkedPass_of_failed fine]
    exact fits

theorem checkedPass_resumes (fits : Fits parser (front ++ back)) :
    Agree (parse parser (front ++ back))
      (parse (checkedPass parser front).parser ((checkedPass parser front).input ++ back)) := by
  by_cases fine : parser.status = .ok
  · rw [checkedPass_of_ok fine]
    rcases pass_resumes fits with whole | ⟨waits, _, resumed⟩
    · refine .of_eq ?_
      by_cases waits : (pass parser front).result = .needMore
      · rw [parse_pass fine (by rw [whole]; exact waits), whole]
        rfl
      rw [parse_last fine (.inl (by rw [whole]; exact waits)), whole,
        parse_after_pass fine waits]
      rfl
    · have fine' : (pass parser front).parser.status = .ok :=
        ((pass_progress parser front).status (by rw [waits]; decide)).trans fine
      exact parse_agree fine fine' resumed
  · rw [checkedPass_of_failed fine]
    exact .refl _

theorem parse_isResumable : responseConsumer.IsResumable Fits Agree :=
  parse_isLoop.isResumable Agree.refl Agree.trans checkedPass_keeps checkedPass_resumes

theorem finish_agree {first second : Outcome} (agree : Agree first second)
    (failed : first.result = .error → first.parser.status ≠ .ok) :
    (finish first.parser).1 = (finish second.parser).1 ∧
      (finish first.parser).2.status = (finish second.parser).2.status := by
  by_cases error : first.result = .error
  · have failed := failed error
    have failed' : second.parser.status ≠ .ok := agree.status ▸ failed
    simp only [finish, if_pos failed, if_pos failed']
    exact ⟨trivial, agree.status⟩
  · rw [agree.same error]
    exact ⟨rfl, rfl⟩

/-- `parse()` after each further piece that is appended to the input. -/
def parsePieces (outcome : Outcome) (pieces : List Bytes) : Outcome :=
  pieces.foldl (fun outcome piece => parse outcome.parser (outcome.input ++ piece)) outcome

theorem parsePieces_repeats {outcome : Outcome} (pieces : List Bytes)
    (repeats : ∀ later, parse outcome.parser later = ⟨outcome.result, outcome.parser, later⟩) :
    (parsePieces outcome pieces).result = outcome.result := by
  induction pieces generalizing outcome with
  | nil => rfl
  | cons piece pieces ih =>
    rw [parsePieces, foldl_cons, repeats]
    exact ih repeats

/-- The last call of a run over pieces was some `parse()`. -/
theorem parsePieces_eq_parse (parser : ResponseParser) (piece : Bytes) (pieces : List Bytes) :
    ∃ last input, parsePieces (parse parser piece) pieces = parse last input := by
  induction pieces generalizing parser piece with
  | nil => exact ⟨parser, piece, rfl⟩
  | cons next pieces ih => exact ih _ _

/-- A new parser for the given limits, told or not told to expect no body. -/
def fresh (limits : Limits) (noBody : Bool) : ResponseParser :=
  { limits := limits, noBody := noBody }

/-- Cutting the input into pieces changes neither the verdict nor the status, nor, short
of an error, the response and the input left; `finish()` agrees as well, and a verdict
once given is given again whatever follows.  The whole input is held by one `Buffer`,
so its length is a `size_t`. -/
theorem parse_segments (limits : Limits) (noBody : Bool) (piece : Bytes) (pieces : List Bytes)
    (addressable : (piece :: pieces).flatten.length < 2 ^ 64) :
    let whole := parse (fresh limits noBody) (piece :: pieces).flatten
    let cut := parsePieces (parse (fresh limits noBody) piece) pieces
    cut.result = whole.result ∧ cut.parser.status = whole.parser.status ∧
      (whole.result ≠ .error →
        cut.parser.response = whole.parser.response ∧ cut.input = whole.input) ∧
      (finish cut.parser).1 = (finish whole.parser).1 ∧
      (finish cut.parser).2.status = (finish whole.parser).2.status ∧
      ∀ later, cut.result ≠ .needMore → (parsePieces cut later).result = cut.result := by
  intro whole cut
  have fits : Fits (fresh limits noBody) (piece ++ pieces.flatten) :=
    ⟨rfl, by simpa [fresh] using addressable⟩
  have agree : Agree whole cut := parse_isResumable.feed_pieces pieces fits
  have ended := finish_agree agree status_of_error
  refine ⟨agree.result.symm, agree.status.symm, fun fine => ?_, ended.1.symm, ended.2.symm, ?_⟩
  · rw [agree.same fine]
    exact ⟨rfl, rfl⟩
  · intro later final
    obtain ⟨last, input, same⟩ := parsePieces_eq_parse (fresh limits noBody) piece pieces
    refine parsePieces_repeats later fun bytes => ?_
    simp only [cut, same] at final ⊢
    exact parse_repeats final bytes

theorem parse_segments_untilClose :
    (parsePieces (parse (fresh {} false) (ascii "HTTP/1.1 2"))
        [ascii "00 OK\r\n\r\nbo", [], ascii "dy"]).result =
      (parse (fresh {} false) [ascii "HTTP/1.1 2", ascii "00 OK\r\n\r\nbo", [],
        ascii "dy"].flatten).result :=
  (parse_segments {} false (ascii "HTTP/1.1 2")
    [ascii "00 OK\r\n\r\nbo", [], ascii "dy"] (by decide)).1

end ResponseParser

end SamuraiFormal.Http
