import SamuraiFormal.Xml.Events
import SamuraiFormal.Xml.Turns

/-!
# One parser, two consumers

A sink only takes what it is given: what the parser does is the same for every sink that
takes each piece in the same way.  So the tree that a document holds is what the tree
builder makes of the events that a reader reports, and both parses end alike.

The events so far always fold into an assembly whose frames are the parser's open elements.
A parse that succeeds has folded all of them into one tree.
-/

namespace SamuraiFormal.Xml

open Util
open Library.Loops
open List

/-! ## Sinks that take the same -/

section Carrying

variable {σ τ : Type}

/-- `view` turns what one sink holds into what another one holds, whatever they are given. -/
structure Sink.Carries (source : Sink σ) (target : Sink τ) (view : σ → τ) : Prop where
  openElement : ∀ state nsPrefix name attributes,
    target.openElement (view state) nsPrefix name attributes =
      (source.openElement state nsPrefix name attributes).map id view
  closeElement : ∀ state nsPrefix name,
    target.closeElement (view state) nsPrefix name =
      (source.closeElement state nsPrefix name).map id view
  characters : ∀ state chunk,
    target.characters (view state) chunk = (source.characters state chunk).map id view

/-- Two conditionals on the same condition, one of them seen through a function. -/
theorem ite_image {α β : Type} (change : α → β) {condition : Prop} [Decidable condition]
    {yes no : α} {yes' no' : β} (whenTrue : yes' = change yes) (whenFalse : no' = change no) :
    (if condition then yes' else no') = change (if condition then yes else no) := by
  split
  · exact whenTrue
  · exact whenFalse

namespace XmlParser

/-- The parser with another sink in place of its own. -/
def view (change : σ → τ) (parser : XmlParser σ) : XmlParser τ where
  pos := parser.pos
  elements := parser.elements
  hadRoot := parser.hadRoot
  stack := parser.stack
  sink := change parser.sink

variable {source : Sink σ} {target : Sink τ} {change : σ → τ}

theorem emit_view (carries : source.Carries target change) (parser : XmlParser σ)
    (chunk : Bytes) :
    emit target (parser.view change) chunk = (emit source parser chunk).map id (view change) := by
  rw [emit, emit]
  split
  · rfl
  · simp only [view, carries.characters]
    rfl

theorem openElement_view (carries : source.Carries target change) (parser : XmlParser σ)
    (nsPrefix name : Bytes) (attributes : Attributes) (empty : Bool) :
    openElement target (parser.view change) nsPrefix name attributes empty =
      (openElement source parser nsPrefix name attributes empty).map id (view change) := by
  simp only [openElement, view, carries.openElement, Prod.map_fst, Prod.map_snd, id_eq,
    carries.closeElement]
  split
  · rfl
  split
  · split <;> rfl
  · rfl

theorem closeElement_view (carries : source.Carries target change) (parser : XmlParser σ)
    (nsPrefix name : Bytes) :
    closeElement target (parser.view change) nsPrefix name =
      (closeElement source parser nsPrefix name).map id (view change) := by
  simp only [closeElement, view, carries.closeElement, Prod.map_fst, id_eq]
  split
  · rfl
  split
  · rfl
  split <;> rfl

variable (text : Bytes) (limits : Limits)

section

variable (carries : source.Carries target change)
include carries

theorem parseText_view (parser : XmlParser σ) :
    parseText target text limits (parser.view change) =
      (parseText source text limits parser).map (Prod.map id (view change)) := by
  have same : gatherText text limits (parser.view change).reported (parser.view change).pos =
      gatherText text limits parser.reported parser.pos := rfl
  rw [parseText, parseText, same]
  rcases gatherText text limits parser.reported parser.pos with _ | _ | ⟨out, pos⟩
  · rfl
  · rfl
  · exact congrArg some (emit_view carries { parser with pos } out)

theorem parseCdata_view (parser : XmlParser σ) :
    parseCdata target text limits (parser.view change) =
      (parseCdata source text limits parser).map id (view change) := by
  have same : gatherCdata text limits (parser.view change).reported (parser.view change).pos =
      gatherCdata text limits parser.reported parser.pos := rfl
  rw [parseCdata, parseCdata, same]
  rcases gatherCdata text limits parser.reported parser.pos with _ | ⟨out, stop⟩
  · rfl
  have sent := emit_view carries { parser with pos := parser.pos + 9 } out
  simp only [view] at sent ⊢
  simp only [sent]
  rcases emit source { parser with pos := parser.pos + 9 } out with ⟨error, next⟩
  exact ite_image (Prod.map id (view change)) rfl rfl

theorem parseElement_view (parser : XmlParser σ) :
    parseElement target text limits (parser.view change) =
      (parseElement source text limits parser).map (Prod.map id (view change)) := by
  simp only [view]
  refine ite_image (Option.map (Prod.map id (view change))) rfl ?_
  refine ite_image (Option.map (Prod.map id (view change))) rfl ?_
  refine ite_image (Option.map (Prod.map id (view change))) rfl ?_
  rcases parseName text limits (parser.pos + 1) with _ | ⟨⟨nsPrefix, name⟩, pos⟩
  · rfl
  simp only [reported]
  generalize parseAttributes text limits _ pos = scan
  rcases scan with _ | _ | ⟨⟨attributes, empty⟩, stop⟩
  · rfl
  · rfl
  · exact congrArg some (openElement_view carries
      { parser with pos := stop, elements := parser.elements + 1 } nsPrefix name attributes empty)

theorem parseEndTag_view (parser : XmlParser σ) :
    parseEndTag target text limits (parser.view change) =
      (parseEndTag source text limits parser).map id (view change) := by
  rw [parseEndTag, parseEndTag]
  simp only [view]
  rcases parseName text limits (parser.pos + 2) with _ | ⟨⟨nsPrefix, name⟩, pos⟩
  · rfl
  dsimp only
  rcases text[skipSpace text pos]? with _ | c
  · rfl
  exact ite_image (Prod.map id (view change)) rfl
    (closeElement_view carries { parser with pos := skipSpace text pos + 1 } nsPrefix name)

end

theorem proceed_view (result : XmlError × XmlParser σ) :
    proceed (result.map id (view change)) =
      (proceed result).map (view change) (Prod.map id (view change)) := by
  obtain ⟨error, parser⟩ := result
  simp only [proceed, Prod.map_apply, id_eq]
  split <;> rfl

/-- How a turn is seen through a change of the sink. -/
abbrev viewStep (change : σ → τ) :
    XmlParser σ ⊕ (XmlError × XmlParser σ) → XmlParser τ ⊕ (XmlError × XmlParser τ) :=
  Sum.map (view change) (Prod.map id (view change))

theorem map_proceed_view {results : Option (XmlError × XmlParser σ)}
    {results' : Option (XmlError × XmlParser τ)}
    (same : results' = results.map (Prod.map id (view change))) :
    results'.map proceed = (results.map proceed).map (viewStep change) := by
  rw [same, Option.map_map, Option.map_map]
  congr 1
  funext result
  exact proceed_view result

variable (carries : source.Carries target change)
include carries

theorem dataTurn_view (parser : XmlParser σ) (c : UInt8) :
    dataTurn target text limits (parser.view change) c =
      (dataTurn source text limits parser c).map (viewStep change) := by
  refine ite_image (Option.map (viewStep change)) ?_ ?_
  · exact ite_image (Option.map (viewStep change)) rfl rfl
  · exact map_proceed_view (parseText_view text limits carries parser)

theorem markupTurn_view (parser : XmlParser σ) :
    markupTurn target text limits (parser.view change) =
      (markupTurn source text limits parser).map (viewStep change) := by
  have same : skipMisc text (parser.view change).pos = skipMisc text parser.pos := rfl
  rw [markupTurn, same, parseCdata_view text limits carries,
    parseEndTag_view text limits carries, proceed_view, proceed_view]
  refine ite_image (Option.map (viewStep change)) ?_ ?_
  · exact ite_image (Option.map (viewStep change)) rfl rfl
  rcases skipMisc text parser.pos with _ | ⟨_ | _, pos⟩
  · rfl
  · refine ite_image (Option.map (viewStep change)) rfl ?_
    refine ite_image (Option.map (viewStep change)) rfl ?_
    exact map_proceed_view (parseElement_view text limits carries parser)
  · rfl

theorem turn_view (parser : XmlParser σ) :
    turn target text limits (parser.view change) =
      (turn source text limits parser).map (viewStep change) := by
  have same : text[(parser.view change).pos]? = text[parser.pos]? := rfl
  rw [turn, turn, same]
  rcases text[parser.pos]? with _ | c
  · rfl
  · exact ite_image (Option.map (viewStep change)) (dataTurn_view text limits carries parser c)
      (markupTurn_view text limits carries parser)

/-- What a parse does is the same for the one sink and the other. -/
theorem run_view (state : σ) :
    run target text limits (change state) =
      (run source text limits state).map (Prod.map id (view change)) := by
  exact ite_image (Option.map (Prod.map id (view change))) rfl
    (loop_image (turn_view text limits carries) _ (start text state))

end XmlParser

end Carrying

/-- The tree builder, fed with the events that the handler has got. -/
theorem handlerSink_carries_treeSink :
    handlerSink.Carries treeSink fun events => events.foldl TreeSink.take {} where
  openElement events nsPrefix name attributes := by
    simp only [handlerSink, treeSink, Prod.map_apply, foldl_append, foldl_cons, TreeSink.take,
      TreeSink.openElement]
    split <;> rfl
  closeElement events nsPrefix name := by
    simp only [handlerSink, Prod.map_apply, foldl_append]
    rfl
  characters events chunk := by
    simp only [handlerSink, treeSink, Prod.map_apply, foldl_append, foldl_cons, TreeSink.take,
      TreeSink.characters]
    split <;> rfl

/-- A handler that has been told something before the parse. -/
theorem handlerSink_carries_append (before : List Event) :
    handlerSink.Carries handlerSink (before ++ ·) where
  openElement events nsPrefix name attributes := by simp [handlerSink]
  closeElement events nsPrefix name := by simp [handlerSink]
  characters events chunk := by simp [handlerSink]

/-- What the parser keeps of an element under assembly. -/
def Open.of (element : XmlElement) : Open where
  nsPrefix := element.nsPrefix
  name := element.name
  textLength := element.text.length

/-- The events so far have been folded, and the frames are the open elements. -/
structure Follows (parser : XmlParser (List Event)) (assembly : Assembly) : Prop where
  folded : Assembly.fold parser.sink = some assembly
  stack : parser.stack = assembly.frames.map Open.of
  complete : assembly.root.isSome = true → assembly.frames = []
  hadRoot : parser.hadRoot = true ↔ assembly.root.isSome = true ∨ assembly.frames ≠ []

variable {top : XmlElement} {rest : List XmlElement}

namespace Follows

variable {parser : XmlParser (List Event)} {assembly : Assembly}

section

variable (follows : Follows parser assembly)
include follows

theorem frames_eq_nil : assembly.frames = [] ↔ parser.stack = [] := by
  rw [follows.stack, map_eq_nil_iff]

theorem root_of_frames (frames : assembly.frames = top :: rest) : assembly.root = none := by
  cases root : assembly.root with
  | none => rfl
  | some element =>
    have none := follows.complete (by rw [root, Option.isSome_some])
    rw [frames] at none
    cases none

theorem fold_take (event : Event) :
    Assembly.fold (parser.sink ++ [event]) = assembly.take event := by
  rw [Assembly.fold_snoc, follows.folded, Option.bind_some]

theorem skipped (pos : Nat) :
    Follows { parser with pos } assembly where
  folded := follows.folded
  stack := follows.stack
  complete := follows.complete
  hadRoot := follows.hadRoot

theorem gathered (pos : Nat) (chunk : Bytes) (frames : assembly.frames = top :: rest) :
    Follows (parser.gathered pos chunk) { frames := top.addText chunk :: rest } where
  folded := by
    rw [XmlParser.gathered, follows.fold_take, Assembly.take, frames,
      follows.root_of_frames frames]
  stack := by
    rw [XmlParser.gathered, follows.stack, frames]
    simp [Open.of, XmlElement.addText]
  complete := nofun
  hadRoot := by
    rw [XmlParser.gathered, follows.hadRoot, frames]
    simp

/-- An element is opened where no document is complete. -/
theorem opened (pos : Nat) (nsPrefix name : Bytes) (attributes : Attributes)
    (single : parser.stack = [] → parser.hadRoot = false) :
    Follows (parser.opened pos nsPrefix name attributes)
      { frames := { nsPrefix, name, attributes } :: assembly.frames } := by
  have unfinished : assembly.root = none := by
    cases frames : assembly.frames with
    | cons top rest => exact follows.root_of_frames frames
    | nil =>
      have outside := single (follows.frames_eq_nil.mp frames)
      cases root : assembly.root with
      | none => rfl
      | some element =>
        have had := follows.hadRoot.mpr (.inl (by rw [root, Option.isSome_some]))
        rw [outside] at had
        cases had
  constructor
  · rw [XmlParser.opened, follows.fold_take, Assembly.take, unfinished]
  · rw [XmlParser.opened, follows.stack]
    rfl
  · simp
  · have had : (parser.opened pos nsPrefix name attributes).hadRoot = true := by
      rw [XmlParser.opened, Bool.or_eq_true]
      cases frames : assembly.frames with
      | nil => exact .inr (by rw [follows.frames_eq_nil.mp frames, isEmpty_nil])
      | cons top rest =>
        refine .inl (follows.hadRoot.mpr (.inr ?_))
        rw [frames]
        exact cons_ne_nil _ _
    exact iff_of_true had (.inr (cons_ne_nil _ _))

end

/-- The assembly after the end of the innermost element. -/
def ended (top : XmlElement) : List XmlElement → Assembly
  | [] => { root := some top }
  | parent :: outer => { frames := parent.append top :: outer }

theorem closed (follows : Follows parser assembly) (pos : Nat) (nsPrefix : Bytes)
    (frames : assembly.frames = top :: rest) :
    Follows (parser.closed pos nsPrefix top.name) (ended top rest) := by
  have folded : Assembly.fold (parser.closed pos nsPrefix top.name).sink =
      some (ended top rest) := by
    rw [XmlParser.closed, follows.fold_take, Assembly.take, frames,
      follows.root_of_frames frames]
    simp only [ne_eq]
    cases rest <;> rfl
  have stack : (parser.closed pos nsPrefix top.name).stack = rest.map Open.of := by
    rw [XmlParser.closed, follows.stack, frames]
    rfl
  have had : (parser.closed pos nsPrefix top.name).hadRoot = true :=
    follows.hadRoot.mpr (.inr (by rw [frames]; exact cons_ne_nil _ _))
  cases rest with
  | nil => exact ⟨folded, stack, fun _ => rfl, iff_of_true had (.inl rfl)⟩
  | cons parent outer =>
    refine ⟨folded, ?_, by rintro ⟨⟩, iff_of_true had (.inr (cons_ne_nil _ _))⟩
    rw [stack]
    rfl

/-- An open element of the parser is a frame of the assembly. -/
theorem frames_of_stack (follows : Follows parser assembly) {top : Open} {rest : List Open}
    (stack : parser.stack = top :: rest) :
    ∃ element outer, assembly.frames = element :: outer ∧ Open.of element = top ∧
      outer.map Open.of = rest := by
  rw [follows.stack] at stack
  exact map_eq_cons_iff.mp stack

/-- A turn that goes on is followed by the assembly. -/
theorem turn {text : Bytes} {limits : Limits} {next : XmlParser (List Event)}
    (follows : Follows parser assembly) (turned : XmlParser.Turn text limits parser (.inl next)) :
    ∃ assembly', Follows next assembly' := by
  cases turned with
  | skips => exact ⟨_, follows.skipped _⟩
  | gathers on inside within =>
    obtain ⟨top, rest, stack⟩ := exists_cons_of_ne_nil within
    obtain ⟨element, outer, frames, -, -⟩ := follows.frames_of_stack stack
    exact ⟨_, follows.gathered _ _ frames⟩
  | opens on inside begins => exact ⟨_, follows.opened _ _ _ _ begins.single⟩
  | empties on inside begins =>
    exact ⟨_, (follows.opened _ _ _ _ begins.single).closed _ _ rfl⟩
  | closes on inside stack =>
    obtain ⟨element, outer, frames, same, -⟩ := follows.frames_of_stack stack
    rw [← same]
    exact ⟨_, follows.closed _ _ frames⟩

end Follows

namespace XmlParser

variable {text : Bytes} {limits : Limits}

theorem start_inside (text : Bytes) (state : List Event) :
    (start text state).pos ≤ text.length := by
  rw [start]
  dsimp only
  split
  case isTrue mark =>
    have size := congrArg List.length mark
    rw [length_take] at size
    have three : ([0xef, 0xbb, 0xbf] : Bytes).length = 3 := rfl
    omega
  case isFalse => exact Nat.zero_le _

theorem start_follows (text : Bytes) : Follows (start text []) {} where
  folded := rfl
  stack := rfl
  complete _ := rfl
  hadRoot := by simp [start]

/-- A turn that goes on stays inside the text and gets further. -/
theorem Turn.inside {parser next : XmlParser (List Event)}
    (turned : Turn text limits parser (.inl next)) :
    parser.pos < next.pos ∧ next.pos ≤ text.length := by
  cases turned with
  | skips on inside | gathers on inside | opens on inside | empties on inside | closes on inside =>
    exact ⟨on, inside⟩

/-- Whatever one turn keeps holds at the last turn of a parse that is not refused for its
size, and the parse always gets there. -/
theorem run_cases (limits : Limits) (text : Bytes)
    (good : XmlParser (List Event) → Prop) (first : good (start text []))
    (keeps : ∀ parser next, good parser →
      turn handlerSink text limits parser = some (.inl next) →
      Turn text limits parser (.inl next) → good next) :
    (limits.maxDocumentSize < text.length ∧
      run handlerSink text limits [] = some (.sizeExceeded, { sink := [] })) ∨
    ∃ error parser last, run handlerSink text limits [] = some (error, last) ∧
      good parser ∧ parser.pos ≤ text.length ∧
      Turn text limits parser (.inr (error, last)) := by
  rw [run]
  by_cases large : limits.maxDocumentSize < text.length
  · exact .inl ⟨large, if_pos large⟩
  refine .inr ?_
  rw [if_neg large]
  have begins := start_inside text []
  suffices total : ∃ result,
      loop (turn handlerSink text limits) (text.length + 1) (start text []) = some result ∧
        ∃ parser, good parser ∧ parser.pos ≤ text.length ∧ Turn text limits parser (.inr result) by
    obtain ⟨⟨error, last⟩, returns, parser, kept⟩ := total
    exact ⟨error, parser, last, returns, kept⟩
  refine loop_total (fun parser => text.length - parser.pos)
    (fun parser => parser.pos ≤ text.length ∧ good parser) _ ?_ ⟨begins, first⟩ (by omega)
  rintro parser ⟨inside, fine⟩
  obtain ⟨step, goes, turned⟩ := turn_spec limits inside
  refine ⟨step, goes, ?_⟩
  cases step with
  | inl next =>
    have on := turned.inside
    exact ⟨⟨on.2, keeps _ _ fine goes turned⟩, by omega⟩
  | inr result => exact ⟨parser, fine, inside, turned⟩

/-- A parse returns, inside the text; a document that is accepted has been folded into one
tree, and the events of one that is refused can be folded too. -/
theorem run_folds (text : Bytes) (limits : Limits) :
    ∃ error parser, run handlerSink text limits [] = some (error, parser) ∧
      parser.pos ≤ text.length ∧
      (error = .ok → ∃ root, Assembly.fold parser.sink = some { root := some root }) ∧
      ∃ assembly, Assembly.fold parser.sink = some assembly := by
  rcases run_cases limits text (fun parser => ∃ assembly, Follows parser assembly)
    ⟨{}, start_follows text⟩ (fun parser next ⟨_, follows⟩ _ turned => follows.turn turned) with
    ⟨-, returns⟩ | ⟨error, parser, last, returns, ⟨assembly, follows⟩, inside, turned⟩
  · exact ⟨_, _, returns, Nat.zero_le _, nofun, {}, rfl⟩
  refine ⟨error, last, returns, ?_⟩
  cases turned with
  | refuses failed inside silent =>
    rw [silent]
    exact ⟨inside, fun succeeded => absurd succeeded failed, assembly, follows.folded⟩
  | accepts past closed had =>
    have frames := follows.frames_eq_nil.mpr closed
    refine ⟨inside, fun _ => ?_, assembly, follows.folded⟩
    rcases follows.hadRoot.mp had with whole | someFrames
    · obtain ⟨root, isRoot⟩ := Option.isSome_iff_exists.mp whole
      refine ⟨root, ?_⟩
      rw [follows.folded, ← isRoot, ← frames]
    · exact absurd frames someFrames

end XmlParser

theorem XmlReader.parse_eq (text : Bytes) (limits : Limits) :
    XmlReader.parse text limits =
      (XmlParser.run handlerSink text limits []).map fun (error, parser) =>
        { error
          errorOffset := parser.pos
          events := if error = .ok then .startDocument :: (parser.sink ++ [.endDocument])
            else .startDocument :: parser.sink } := by
  have carried := XmlParser.run_view text limits
    (handlerSink_carries_append [.startDocument]) []
  rw [XmlReader.parse, show [Event.startDocument] = [.startDocument] ++ [] from rfl, carried,
    Option.map_map]
  rfl

theorem XmlDocument.parse_eq (text : Bytes) (limits : Limits) :
    XmlDocument.parse text limits =
      (XmlParser.run handlerSink text limits []).map fun (error, parser) =>
        { root := if error ≠ .ok then none else (parser.sink.foldl TreeSink.take {}).document
          error
          errorOffset := parser.pos } := by
  have carried := XmlParser.run_view text limits handlerSink_carries_treeSink []
  rw [XmlDocument.parse, show ({} : TreeSink) = [].foldl TreeSink.take {} from rfl, carried,
    Option.map_map]
  rfl

/-- Both ways of parsing end, and alike: with the same error at the same place inside the
text.  A document that is accepted is reported as the events of one element, and the tree is
what they fold into; of one that is refused there is neither an end nor a root. -/
theorem XmlReader.parse_agrees_with_document (text : Bytes) (limits : Limits) :
    ∃ reading document,
      XmlReader.parse text limits = some reading ∧
      XmlDocument.parse text limits = some document ∧
      reading.error = document.error ∧
      reading.errorOffset = document.errorOffset ∧
      reading.errorOffset ≤ text.length ∧
      (reading.error = .ok → ∃ body root,
        reading.events = .startDocument :: (body ++ [.endDocument]) ∧
        Spells body root ∧ assemble body = some root ∧ document.root = some root) ∧
      (reading.error ≠ .ok → Event.endDocument ∉ reading.events ∧ document.root = none) := by
  obtain ⟨error, parser, returns, inside, accepted, assembly, folded⟩ :=
    XmlParser.run_folds text limits
  rw [XmlReader.parse_eq, XmlDocument.parse_eq, returns]
  refine ⟨_, _, rfl, rfl, rfl, rfl, inside, ?_, ?_⟩
  · rintro rfl
    obtain ⟨root, whole⟩ := accepted rfl
    have assembled : assemble parser.sink = some root := by
      rw [assemble, whole]
    refine ⟨parser.sink, root, rfl, spells_of_assemble assembled, assembled, ?_⟩
    dsimp only
    rw [Assembly.tree_fold whole]
    rfl
  · intro failed
    refine ⟨?_, if_pos failed⟩
    simp only [if_neg failed]
    rw [mem_cons, not_or]
    exact ⟨nofun, Assembly.not_mem_of_fold folded⟩

end SamuraiFormal.Xml
