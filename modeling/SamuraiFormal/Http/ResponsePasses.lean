import SamuraiFormal.Http.Response

/-!
# What a pass of the response parser may do

Every line-based function is a `takeLines`, so one induction over the lines covers
them; the functions for bodies are treated by hand.  `Progress` says what any pass
may change, and the last part unfolds the loop of `parse()` with it.
-/

namespace SamuraiFormal.Http

open Util
open List

variable {parser parser' : ResponseParser} {input : Bytes}

namespace ResponseParser

theorem takeLine_taken {text rest : Bytes} {tooLong : Bool}
    (taken : takeLine parser input = .taken text tooLong parser' rest) :
    rest.length < input.length ∧ ∃ headerBytes,
      parser' = { parser with headerBytes := headerBytes } := by
  unfold takeLine at taken
  cases found : find input lineFeed with
  | none => simp [found] at taken
  | some lf =>
    have below := lt_length_of_find found
    simp only [found] at taken
    split at taken
    · cases taken
    obtain ⟨_, _, rfl, rfl⟩ := taken
    refine ⟨?_, _, rfl⟩
    rw [length_drop]
    omega

section Lines

variable (handle : Bytes → ResponseParser → Verdict ⊕ ResponseParser)

/-- Fuel above the length of the input does not show. -/
theorem lineLoop_fuel (fuel fuel' : Nat) (parser : ResponseParser) (input : Bytes)
    (enough : input.length < fuel) (enough' : input.length < fuel') :
    lineLoop handle fuel parser input = lineLoop handle fuel' parser input := by
  induction fuel generalizing fuel' parser input with
  | zero => exact absurd enough (Nat.not_lt_zero _)
  | succ fuel ih =>
    cases fuel' with
    | zero => exact absurd enough' (Nat.not_lt_zero _)
    | succ fuel' =>
      simp only [lineLoop]
      cases line : takeLine parser input with
      | missing tooLong => rfl
      | taken text tooLong parser' rest =>
        have shorter := (takeLine_taken line).1
        cases handled : handle text parser' with
        | inl verdict => simp only [handled]
        | inr next =>
          simp only [handled]
          rw [ih fuel' next rest (by omega) (by omega)]

/-- The `for (;;)` over the lines, unfolded once. -/
theorem takeLines_eq (parser : ResponseParser) (input : Bytes) :
    takeLines handle parser input =
      match takeLine parser input with
      | .missing tooLong =>
        if tooLong then (fail parser .responseTooLarge).leaving input
        else ⟨.needMore, parser, input⟩
      | .taken text tooLong parser rest =>
        if tooLong then (fail parser .responseTooLarge).leaving rest
        else
          match handle text parser with
          | .inl verdict => verdict.leaving rest
          | .inr parser => takeLines handle parser rest := by
  rw [takeLines, lineLoop]
  cases line : takeLine parser input with
  | missing tooLong => rfl
  | taken text tooLong parser' rest =>
    have shorter := (takeLine_taken line).1
    cases handled : handle text parser' with
    | inl verdict => simp only [handled]
    | inr next =>
      simp only [handled]
      rw [takeLines, lineLoop_fuel handle input.length (rest.length + 1) next rest shorter
        (Nat.lt_succ_self _)]

/-- Induction along the lines that are taken: wait, refuse, return or go on. -/
theorem takeLines_induction {motive : ResponseParser → Bytes → Outcome → Prop}
    (wait : ∀ parser input, takeLine parser input = .missing false →
      motive parser input ⟨.needMore, parser, input⟩)
    (refuse : ∀ parser input, takeLine parser input = .missing true →
      motive parser input ((fail parser .responseTooLarge).leaving input))
    (overflow : ∀ parser input text parser' rest,
      takeLine parser input = .taken text true parser' rest →
      motive parser input ((fail parser' .responseTooLarge).leaving rest))
    (finish : ∀ parser input text parser' rest verdict,
      takeLine parser input = .taken text false parser' rest →
      handle text parser' = .inl verdict → motive parser input (verdict.leaving rest))
    (more : ∀ parser input text parser' rest next,
      takeLine parser input = .taken text false parser' rest →
      handle text parser' = .inr next → motive next rest (takeLines handle next rest) →
      motive parser input (takeLines handle next rest))
    (parser : ResponseParser) (input : Bytes) :
    motive parser input (takeLines handle parser input) := by
  induction length : input.length using Nat.strongRecOn generalizing parser input with
  | ind _ ih =>
    rw [takeLines_eq]
    cases line : takeLine parser input with
    | missing tooLong =>
      cases tooLong with
      | true => exact refuse parser input line
      | false => exact wait parser input line
    | taken text tooLong parser' rest =>
      cases tooLong with
      | true => exact overflow parser input text parser' rest line
      | false =>
        cases handled : handle text parser' with
        | inl verdict => simpa [handled] using finish _ _ _ _ _ _ line handled
        | inr next =>
          have shorter := (takeLine_taken line).1
          have later := ih rest.length (length ▸ shorter) next rest rfl
          simpa [handled] using more _ _ _ _ _ _ line handled later

end Lines

/-- A verdict that touches neither the body nor, unless it is an error, the status. -/
structure Settles (parser : ResponseParser) (verdict : Verdict) : Prop where
  body : verdict.2.response.body = parser.response.body
  closed : verdict.2.closed = parser.closed
  error : verdict.1 = .error → verdict.2.status ≠ .ok
  done : verdict.1 = .complete → verdict.2.state = .done
  status : verdict.1 ≠ .error → verdict.2.status = parser.status

theorem settles_fail (parser : ResponseParser) {why : Status} (failure : why ≠ .ok) :
    Settles parser (fail parser why) :=
  ⟨rfl, rfl, fun _ => failure, nofun, fun other => absurd rfl other⟩

theorem settles_enter (state : State) (body : parser'.response.body = parser.response.body)
    (closed : parser'.closed = parser.closed) (status : parser'.status = parser.status) :
    Settles parser (enter parser' state) :=
  ⟨body, closed, nofun, nofun, fun _ => status⟩

theorem settles_complete (body : parser'.response.body = parser.response.body)
    (closed : parser'.closed = parser.closed) (status : parser'.status = parser.status) :
    Settles parser (complete parser') :=
  ⟨body, closed, nofun, fun _ => rfl, fun _ => status⟩

theorem statusLine_settles (line : Bytes) (parser : ResponseParser) :
    Settles parser (statusLine line parser) := by
  unfold statusLine
  split
  · exact settles_fail parser (by decide)
  · exact settles_enter _ rfl rfl rfl

theorem chooseLength_settles (parser : ResponseParser) :
    Settles parser (chooseLength parser) := by
  unfold chooseLength
  split
  · split
    · exact settles_fail parser (by decide)
    · split
      · exact settles_fail parser (by decide)
      · split
        · exact settles_fail parser (by decide)
        · split
          · exact settles_complete rfl rfl rfl
          · exact settles_enter _ rfl rfl rfl
  · exact settles_enter _ rfl rfl rfl

theorem chooseBodyFraming_settles (parser : ResponseParser) :
    Settles parser (chooseBodyFraming parser) := by
  unfold chooseBodyFraming
  dsimp only
  split
  · exact settles_complete rfl rfl rfl
  split
  · exact chooseLength_settles parser
  split
  · exact settles_enter _ rfl rfl rfl
  split
  · exact settles_fail parser (by decide)
  · exact chooseLength_settles parser

theorem chunkSizeLine_settles (line : Bytes) (parser : ResponseParser) :
    Settles parser (chunkSizeLine line parser) := by
  unfold chunkSizeLine
  split
  · exact settles_fail parser (by decide)
  split
  · exact settles_fail parser (by decide)
  split
  · exact settles_fail parser (by decide)
  split
  · exact settles_enter _ rfl rfl rfl
  · exact settles_enter _ rfl rfl rfl

/-- What the resumption of a loop needs to know of its line handler. -/
structure IsHandler (handle : Bytes → ResponseParser → Verdict ⊕ ResponseParser) : Prop where
  stop : ∀ {line parser verdict}, handle line parser = .inl verdict → Settles parser verdict
  next : ∀ {line parser parser'}, handle line parser = .inr parser' →
    parser'.state = parser.state ∧ parser'.status = parser.status ∧
      parser'.response.body = parser.response.body ∧ parser'.closed = parser.closed

theorem isHandler_of_settles {verdict : Bytes → ResponseParser → Verdict}
    (settles : ∀ line parser, Settles parser (verdict line parser)) :
    IsHandler fun line parser => .inl (verdict line parser) where
  stop stopped := Sum.inl.inj stopped ▸ settles _ _
  next went := nomatch went

theorem headerLine_isHandler : IsHandler headerLine where
  stop := by
    intro line parser verdict stopped
    unfold headerLine at stopped
    split at stopped
    · exact Sum.inl.inj stopped ▸ chooseBodyFraming_settles parser
    split at stopped
    · exact Sum.inl.inj stopped ▸ settles_fail parser (by decide)
    split at stopped
    · exact Sum.inl.inj stopped ▸ settles_fail parser (by decide)
    · cases stopped
  next := by
    intro line parser parser' went
    unfold headerLine at went
    split at went
    · cases went
    split at went
    · cases went
    split at went
    · cases went
    · exact Sum.inr.inj went ▸ ⟨rfl, rfl, rfl, rfl⟩

theorem crlfLine_isHandler : IsHandler fun line parser => .inl
    (if line ≠ [] then fail parser .malformedResponse else enter parser .bodyChunkSize) := by
  refine isHandler_of_settles fun line parser => ?_
  split
  · exact settles_fail parser (by decide)
  · exact settles_enter _ rfl rfl rfl

theorem trailerLine_isHandler : IsHandler fun line parser =>
    if line = [] then .inl (complete parser) else .inr parser where
  stop := by
    intro line parser verdict stopped
    split at stopped
    · exact Sum.inl.inj stopped ▸ settles_complete rfl rfl rfl
    · cases stopped
  next := by
    intro line parser parser' went
    split at went
    · cases went
    · exact Sum.inr.inj went ▸ ⟨rfl, rfl, rfl, rfl⟩

/-- What a pass may do: a pass that asks for more input has changed nothing, or taken
input, or left a chunk that was empty from the start. -/
structure Progress (parser : ResponseParser) (input : Bytes) (outcome : Outcome) : Prop where
  size : outcome.parser.response.body.length + outcome.input.length ≤
    parser.response.body.length + input.length
  closed : outcome.parser.closed = parser.closed
  error : outcome.result = .error → outcome.parser.status ≠ .ok
  done : outcome.result = .complete → outcome.parser.state = .done
  status : outcome.result ≠ .error → outcome.parser.status = parser.status
  waiting : outcome.result = .needMore →
    (outcome.parser = parser ∧ outcome.input = input) ∨
      outcome.input.length < input.length ∨
      (parser.state = .bodyChunkData ∧ outcome.parser.state = .bodyChunkCrlf ∧
        outcome.input.length = input.length)

theorem Settles.progress {rest : Bytes} {verdict : Verdict} (settles : Settles parser' verdict)
    (body : parser'.response.body = parser.response.body)
    (closed : parser'.closed = parser.closed) (status : parser'.status = parser.status)
    (shorter : rest.length < input.length) :
    Progress parser input (verdict.leaving rest) where
  size := by
    simp only [Verdict.leaving, settles.body, body]
    omega
  closed := settles.closed.trans closed
  error := settles.error
  done := settles.done
  status fine := (settles.status fine).trans status
  waiting _ := .inr (.inl shorter)

theorem progress_of_unchanged (parser : ResponseParser) (input : Bytes) :
    Progress parser input ⟨.needMore, parser, input⟩ :=
  ⟨Nat.le_refl _, rfl, nofun, nofun, fun _ => rfl, fun _ => .inl ⟨rfl, rfl⟩⟩

theorem takeLines_progress {handle : Bytes → ResponseParser → Verdict ⊕ ResponseParser}
    (handler : IsHandler handle) (parser : ResponseParser) (input : Bytes) :
    Progress parser input (takeLines handle parser input) := by
  refine takeLines_induction handle ?_ ?_ ?_ ?_ ?_ parser input
  · intro parser input _
    exact progress_of_unchanged parser input
  · intro parser input _
    have refused := settles_fail parser (by decide : Status.responseTooLarge ≠ .ok)
    exact ⟨Nat.le_refl _, rfl, refused.error, nofun, refused.status, nofun⟩
  · intro parser input text parser' rest line
    obtain ⟨shorter, headerBytes, rfl⟩ := takeLine_taken line
    exact Settles.progress (settles_fail _ (by decide)) rfl rfl rfl shorter
  · intro parser input text parser' rest verdict line handled
    obtain ⟨shorter, headerBytes, rfl⟩ := takeLine_taken line
    exact (handler.stop handled).progress rfl rfl rfl shorter
  · intro parser input text parser' rest next line handled later
    obtain ⟨shorter, headerBytes, rfl⟩ := takeLine_taken line
    obtain ⟨_, sameStatus, sameBody, sameClosed⟩ := handler.next handled
    refine ⟨?_, later.closed.trans sameClosed, later.error, later.done,
      fun fine => (later.status fine).trans sameStatus,
      fun waits => .inr (.inl ?_)⟩
    · have := later.size
      rw [sameBody] at this
      simp only at this
      omega
    · rcases later.waiting waits with ⟨_, same⟩ | less | ⟨_, _, same⟩
      · rw [same]
        exact shorter
      · omega
      · omega

/-- The counter of a body: `remaining` reads what `store` wrote, and nothing else moves. -/
structure IsCounter (remaining : ResponseParser → Nat)
    (store : ResponseParser → Nat → ResponseParser) : Prop where
  read : ∀ parser left, remaining (store parser left) = left
  same : ∀ parser, store parser (remaining parser) = parser
  again : ∀ parser left taken left',
    store (withBody (store parser left) taken) left' = store (withBody parser taken) left'
  state : ∀ parser left, (store parser left).state = parser.state
  status : ∀ parser left, (store parser left).status = parser.status
  response : ∀ parser left, (store parser left).response = parser.response
  closed : ∀ parser left, (store parser left).closed = parser.closed
  limits : ∀ parser left, (store parser left).limits = parser.limits

theorem bodyRemaining_isCounter : IsCounter bodyRemaining setBodyRemaining :=
  ⟨fun _ _ => rfl, fun _ => rfl, fun _ _ _ _ => rfl, fun _ _ => rfl, fun _ _ => rfl,
    fun _ _ => rfl, fun _ _ => rfl, fun _ _ => rfl⟩

theorem chunkRemaining_isCounter : IsCounter chunkRemaining setChunkRemaining :=
  ⟨fun _ _ => rfl, fun _ => rfl, fun _ _ _ _ => rfl, fun _ _ => rfl, fun _ _ => rfl,
    fun _ _ => rfl, fun _ _ => rfl, fun _ _ => rfl⟩

theorem withBody_nil (parser : ResponseParser) : withBody parser [] = parser := by
  simp [withBody]

theorem withBody_withBody (parser : ResponseParser) (first second : Bytes) :
    withBody (withBody parser first) second = withBody parser (first ++ second) := by
  simp [withBody]

section Counted

variable {remaining : ResponseParser → Nat} {store : ResponseParser → Nat → ResponseParser}
  {finish : ResponseParser → Verdict}

variable (counter : IsCounter remaining store)
include counter

theorem takeBody_short (short : input.length < remaining parser) :
    takeBody remaining store finish parser input =
      ⟨.needMore, store (withBody parser input) (remaining parser - input.length), []⟩ := by
  cases input with
  | nil => simp [takeBody, withBody_nil, counter.same]
  | cons byte rest =>
    rw [length_cons] at short
    have left : remaining parser - (rest.length + 1) ≠ 0 := by omega
    simp [takeBody, short, counter.read, left]

theorem takeBody_long (some' : input ≠ []) (long : remaining parser ≤ input.length) :
    takeBody remaining store finish parser input =
      (finish (store (withBody parser (input.take (remaining parser))) 0)).leaving
        (input.drop (remaining parser)) := by
  have short : ¬ input.length < remaining parser := Nat.not_lt.mpr long
  simp [takeBody, some', if_neg short, counter.read]

theorem takeBody_long_size (long : remaining parser ≤ input.length) :
    (store (withBody parser (input.take (remaining parser))) 0).response.body.length +
      (input.drop (remaining parser)).length = parser.response.body.length + input.length := by
  rw [counter.response]
  simp only [withBody, length_append, length_take, length_drop]
  omega

theorem takeBody_short_progress (short : input.length < remaining parser) :
    Progress parser input (takeBody remaining store finish parser input) := by
  rw [takeBody_short counter short]
  refine ⟨?_, counter.closed _ _, nofun, nofun, fun _ => counter.status _ _, fun _ => ?_⟩
  · simp [counter.response, withBody]
  · cases input with
    | nil => exact .inl ⟨by simp [withBody_nil, counter.same], rfl⟩
    | cons byte rest => exact .inr (.inl (Nat.succ_pos _))

end Counted

theorem parseBodyLength_progress (parser : ResponseParser) (input : Bytes) :
    Progress parser input (parseBodyLength parser input) := by
  by_cases short : input.length < parser.bodyRemaining
  · exact takeBody_short_progress bodyRemaining_isCounter short
  by_cases empty : input = []
  · subst empty
    exact progress_of_unchanged parser []
  have long := Nat.not_lt.mp short
  rw [parseBodyLength, takeBody_long bodyRemaining_isCounter empty long]
  exact ⟨Nat.le_of_eq (takeBody_long_size bodyRemaining_isCounter long), rfl, nofun,
    fun _ => rfl, fun _ => rfl, nofun⟩

theorem parseChunkData_progress (inData : parser.state = .bodyChunkData) (input : Bytes) :
    Progress parser input (parseChunkData parser input) := by
  by_cases short : input.length < parser.chunkRemaining
  · exact takeBody_short_progress chunkRemaining_isCounter short
  by_cases empty : input = []
  · subst empty
    exact progress_of_unchanged parser []
  have long := Nat.not_lt.mp short
  rw [parseChunkData, takeBody_long chunkRemaining_isCounter empty long]
  refine ⟨Nat.le_of_eq (takeBody_long_size chunkRemaining_isCounter long), rfl, nofun,
    nofun, fun _ => rfl, fun _ => .inr ?_⟩
  by_cases zero : parser.chunkRemaining = 0
  · exact .inr ⟨inData, rfl, by simp [Verdict.leaving, zero]⟩
  refine .inl ?_
  simp only [Verdict.leaving, length_drop]
  omega

theorem parseBodyUntilClose_progress (parser : ResponseParser) (input : Bytes) :
    Progress parser input (parseBodyUntilClose parser input) := by
  unfold parseBodyUntilClose
  split
  · have refused := settles_fail parser (by decide : Status.responseTooLarge ≠ .ok)
    exact ⟨Nat.le_refl _, rfl, refused.error, nofun, refused.status, nofun⟩
  dsimp only
  split
  · exact ⟨by simp [Verdict.leaving, complete, withBody], rfl, nofun, fun _ => rfl,
      fun _ => rfl, nofun⟩
  refine ⟨by simp [withBody], rfl, nofun, nofun, fun _ => rfl, fun _ => ?_⟩
  cases input with
  | nil => exact .inl ⟨withBody_nil parser, rfl⟩
  | cons byte rest => exact .inr (.inl (Nat.succ_pos _))

theorem pass_progress (parser : ResponseParser) (input : Bytes) :
    Progress parser input (pass parser input) := by
  unfold pass
  split
  · exact takeLines_progress (isHandler_of_settles statusLine_settles) parser input
  · exact takeLines_progress headerLine_isHandler parser input
  · exact parseBodyLength_progress parser input
  · exact takeLines_progress (isHandler_of_settles chunkSizeLine_settles) parser input
  · next inData => exact parseChunkData_progress inData input
  · exact takeLines_progress crlfLine_isHandler parser input
  · exact takeLines_progress trailerLine_isHandler parser input
  · exact parseBodyUntilClose_progress parser input
  · next done => exact ⟨Nat.le_refl _, rfl, nofun, fun _ => done, fun _ => rfl, nofun⟩

/-! ## The loop of `parse()` -/

/-- How often a pass may still go on: each takes a byte or leaves `BodyChunkData`. -/
def passes (parser : ResponseParser) (input : Bytes) : Nat :=
  2 * input.length + if parser.state = .bodyChunkData then 1 else 0

def Idle (parser : ResponseParser) (input : Bytes) (outcome : Outcome) : Prop :=
  outcome.parser.state = parser.state ∧ outcome.input.length = input.length

theorem passes_lt (waits : (pass parser input).result = .needMore)
    (moved : ¬ Idle parser input (pass parser input)) :
    passes (pass parser input).parser (pass parser input).input < passes parser input := by
  unfold passes
  rcases (pass_progress parser input).waiting waits with ⟨sameParser, sameInput⟩ | shorter |
      ⟨inData, crlf, sameLength⟩
  · exact absurd ⟨by rw [sameParser], by rw [sameInput]⟩ moved
  · split <;> split <;> omega
  · rw [if_pos inData, if_neg (by rw [crlf]; decide)]
    omega

section Loop

variable {parser : ResponseParser} {input : Bytes} (fuel : Nat)

theorem parseLoop_ended (ended : (pass parser input).result ≠ .needMore) :
    parseLoop (fuel + 1) parser input = pass parser input :=
  if_pos ended

theorem parseLoop_idle (idle : Idle parser input (pass parser input)) :
    parseLoop (fuel + 1) parser input = pass parser input := by
  by_cases waits : (pass parser input).result = .needMore
  · exact (if_neg (not_not_intro waits)).trans (if_pos idle)
  · exact if_pos waits

theorem parseLoop_moved (waits : (pass parser input).result = .needMore)
    (moved : ¬ Idle parser input (pass parser input)) :
    parseLoop (fuel + 1) parser input =
      parseLoop fuel (pass parser input).parser (pass parser input).input :=
  (if_neg (not_not_intro waits)).trans (if_neg moved)

end Loop

theorem parseLoop_fuel (fuel fuel' : Nat) (parser : ResponseParser) (input : Bytes)
    (enough : passes parser input < fuel) (enough' : passes parser input < fuel') :
    parseLoop fuel parser input = parseLoop fuel' parser input := by
  induction fuel generalizing fuel' parser input with
  | zero => exact absurd enough (Nat.not_lt_zero _)
  | succ fuel ih =>
    cases fuel' with
    | zero => exact absurd enough' (Nat.not_lt_zero _)
    | succ fuel' =>
      by_cases idle : Idle parser input (pass parser input)
      · rw [parseLoop_idle fuel idle, parseLoop_idle fuel' idle]
      by_cases waits : (pass parser input).result = .needMore
      · have fewer := passes_lt waits idle
        rw [parseLoop_moved fuel waits idle, parseLoop_moved fuel' waits idle]
        exact ih fuel' _ _ (by omega) (by omega)
      · rw [parseLoop_ended fuel waits, parseLoop_ended fuel' waits]

theorem passes_lt_fuel (parser : ResponseParser) (input : Bytes) :
    passes parser input < 2 * input.length + 2 := by
  unfold passes
  split <;> omega

theorem parse_of_failed (failed : parser.status ≠ .ok) (input : Bytes) :
    parse parser input = ⟨.error, parser, input⟩ :=
  if_pos failed

theorem parse_last (fine : parser.status = .ok)
    (last : (pass parser input).result ≠ .needMore ∨ Idle parser input (pass parser input)) :
    parse parser input = pass parser input := by
  rw [parse, if_neg (not_not_intro fine)]
  rcases last with ended | idle
  · exact parseLoop_ended _ ended
  · exact parseLoop_idle _ idle

/-- A pass that asks for more may be followed by a fresh `parse()`. -/
theorem parse_pass (fine : parser.status = .ok) (waits : (pass parser input).result = .needMore) :
    parse parser input = parse (pass parser input).parser (pass parser input).input := by
  have progress := pass_progress parser input
  have fine' : (pass parser input).parser.status = .ok :=
    (progress.status (by rw [waits]; decide)).trans fine
  by_cases idle : Idle parser input (pass parser input)
  · rcases progress.waiting waits with ⟨sameParser, sameInput⟩ | shorter | ⟨inData, crlf, _⟩
    · rw [sameParser, sameInput]
    · exact absurd idle.2 (by omega)
    · have := idle.1
      rw [inData, crlf] at this
      cases this
  · have fewer := passes_lt waits idle
    have enough := passes_lt_fuel parser input
    rw [parse, if_neg (not_not_intro fine), parse, if_neg (not_not_intro fine'),
      parseLoop_moved _ waits idle]
    exact parseLoop_fuel _ _ _ _ (by omega) (passes_lt_fuel _ _)

theorem parse_done (fine : parser.status = .ok) (done : parser.state = .done) (input : Bytes) :
    parse parser input = ⟨.complete, parser, input⟩ := by
  have passed : pass parser input = ⟨.complete, parser, input⟩ := by simp only [pass, done]
  rw [parse_last fine (.inl (by rw [passed]; exact nofun)), passed]

/-- A verdict is final: the next `parse()` repeats it and takes nothing. -/
theorem parse_after_pass (fine : parser.status = .ok)
    (ended : (pass parser input).result ≠ .needMore) (later : Bytes) :
    parse (pass parser input).parser later =
      ⟨(pass parser input).result, (pass parser input).parser, later⟩ := by
  have progress := pass_progress parser input
  cases result : (pass parser input).result with
  | needMore => exact absurd result ended
  | complete =>
    exact parse_done ((progress.status (by rw [result]; decide)).trans fine)
      (progress.done result) later
  | error => exact parse_of_failed (progress.error result) later

/-- Whatever ends `parse()` is the earlier failure or the verdict of a last pass. -/
theorem parse_final (parser : ResponseParser) (input : Bytes) :
    (parser.status ≠ .ok ∧ parse parser input = ⟨.error, parser, input⟩) ∨
      ∃ last rest, last.status = .ok ∧ parse parser input = pass last rest := by
  by_cases fine : parser.status = .ok
  · refine .inr ?_
    induction count : passes parser input using Nat.strongRecOn generalizing parser input with
    | ind _ ih =>
      by_cases idle : Idle parser input (pass parser input)
      · exact ⟨parser, input, fine, parse_last fine (.inr idle)⟩
      by_cases waits : (pass parser input).result = .needMore
      · have fine' : (pass parser input).parser.status = .ok :=
          ((pass_progress parser input).status (by rw [waits]; decide)).trans fine
        rw [parse_pass fine waits]
        exact ih _ (count ▸ passes_lt waits idle) _ _ fine' rfl
      · exact ⟨parser, input, fine, parse_last fine (.inl waits)⟩
  · exact .inl ⟨fine, parse_of_failed fine input⟩

theorem status_of_error (failed : (parse parser input).result = .error) :
    (parse parser input).parser.status ≠ .ok := by
  rcases parse_final parser input with ⟨before, same⟩ | ⟨last, rest, fine, same⟩
  · rw [same]
    exact before
  · rw [same] at failed ⊢
    exact (pass_progress last rest).error failed

/-- Once a call has returned `Complete` or `Error`, so does the next one. -/
theorem parse_repeats (ended : (parse parser input).result ≠ .needMore) (later : Bytes) :
    parse (parse parser input).parser later =
      ⟨(parse parser input).result, (parse parser input).parser, later⟩ := by
  rcases parse_final parser input with ⟨before, same⟩ | ⟨last, rest, fine, same⟩
  · rw [same]
    exact parse_of_failed before later
  · rw [same] at ended ⊢
    exact parse_after_pass fine ended later

end ResponseParser

end SamuraiFormal.Http
