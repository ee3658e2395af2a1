import SamuraiFormal.Xml.Tokens

/-!
# The limits of a document

The parser checks each limit where the piece is read, and the tree keeps to all of them at
once, with one exception.  A numeric reference is held only against the run of character
data that it stands in, not against what the element has got in earlier runs, so an element
grows past the limit just where such a reference takes it there.
-/

namespace SamuraiFormal.Xml

open Util

/-- The limits on one element by itself. -/
structure ElementFits (limits : Limits) (element : XmlElement) : Prop where
  name : (qualified element.nsPrefix element.name).length ≤ limits.maxNameLength
  attributes : AttributesFit limits element.attributes

/-- The limits on the tree, but for that on character data. -/
structure XmlElement.Within (limits : Limits) (root : XmlElement) : Prop where
  depth : root.depth ≤ limits.maxDepth
  elements : root.elements.length ≤ limits.maxElements
  each : ∀ element ∈ root.elements, ElementFits limits element

/-- The limit on character data, in all elements of a list. -/
def TextFits (limits : Limits) (elements : List XmlElement) : Prop :=
  ∀ element ∈ XmlElement.allElements elements, element.text.length ≤ limits.maxTextLength

/-- Elements inside one another, the innermost one first, keep to the depth. -/
def Shallow (bound : Nat) : List XmlElement → Prop
  | [] => True
  | top :: rest => top.depth + rest.length ≤ bound ∧ Shallow bound rest

/-- The limits on what has been assembled so far. -/
structure Fit (limits : Limits) (count : Nat) (pieces : List XmlElement) : Prop where
  total : (XmlElement.allElements pieces).length = count
  few : count ≤ limits.maxElements
  each : ∀ element ∈ XmlElement.allElements pieces, ElementFits limits element
  shallow : Shallow limits.maxDepth pieces

namespace Fit

variable {limits : Limits} {count : Nat} {pieces rest : List XmlElement} {top parent : XmlElement}

/-- The elements of a list are the first one, what is below it, and those of the others. -/
theorem mem_cons {element : XmlElement} :
    element ∈ XmlElement.allElements (top :: rest) ↔
      element = top ∨ element ∈ XmlElement.allElements top.children ∨
        element ∈ XmlElement.allElements rest := by
  rw [XmlElement.allElements, XmlElement.elements_eq, List.mem_append, List.mem_cons, or_assoc]

theorem length_cons :
    (XmlElement.allElements (top :: rest)).length =
      1 + (XmlElement.allElements top.children).length + (XmlElement.allElements rest).length := by
  rw [XmlElement.allElements, XmlElement.elements_eq, List.length_append, List.length_cons]
  omega

theorem top_fits (fit : Fit limits count (top :: rest)) : ElementFits limits top :=
  fit.each top (mem_cons.mpr (.inl rfl))

theorem addText (fit : Fit limits count (top :: rest)) (chunk : Bytes) :
    Fit limits count (top.addText chunk :: rest) where
  total := by
    have before := fit.total
    rw [length_cons] at before ⊢
    exact before
  few := fit.few
  each := by
    intro element among
    rcases mem_cons.mp among with rfl | below
    · exact ⟨fit.top_fits.name, fit.top_fits.attributes⟩
    · exact fit.each element (mem_cons.mpr (.inr below))
  shallow := by
    have before := fit.shallow
    rw [Shallow, XmlElement.depth_eq] at before ⊢
    exact before

theorem opened (fit : Fit limits count pieces) {nsPrefix name : Bytes} {attributes : Attributes}
    (few : count + 1 ≤ limits.maxElements) (shallow : pieces.length < limits.maxDepth)
    (short : (qualified nsPrefix name).length ≤ limits.maxNameLength)
    (attributed : AttributesFit limits attributes) :
    Fit limits (count + 1) ({ nsPrefix, name, attributes } :: pieces) where
  total := by
    rw [length_cons, fit.total]
    exact Nat.add_comm _ _
  few := few
  each := by
    intro element among
    rcases mem_cons.mp among with rfl | none | other
    · exact ⟨short, attributed⟩
    · exact absurd none List.not_mem_nil
    · exact fit.each element other
  shallow := by
    refine ⟨?_, fit.shallow⟩
    rw [XmlElement.depth_eq]
    have bare : XmlElement.deepest [] = 0 := rfl
    dsimp only
    omega

/-- An element that ends stays where it is, one level inside its parent. -/
theorem ended (fit : Fit limits count (top :: parent :: rest)) :
    Fit limits count (parent.append top :: rest) where
  total := by
    have before := fit.total
    rw [length_cons, length_cons] at before
    rw [length_cons, XmlElement.append, XmlElement.allElements_append, List.length_append,
      length_cons]
    have bare : (XmlElement.allElements []).length = 0 := rfl
    omega
  few := fit.few
  each := by
    have parentFits : ElementFits limits parent :=
      fit.each parent (mem_cons.mpr (.inr (.inr (mem_cons.mpr (.inl rfl)))))
    intro element among
    rcases mem_cons.mp among with rfl | below | other
    · exact ⟨parentFits.name, parentFits.attributes⟩
    · rw [XmlElement.append, XmlElement.allElements_append, List.mem_append] at below
      rcases below with sibling | inside
      · exact fit.each element (mem_cons.mpr (.inr (.inr (mem_cons.mpr (.inr (.inl sibling))))))
      rcases mem_cons.mp inside with rfl | deeper | none
      · exact fit.top_fits
      · exact fit.each element (mem_cons.mpr (.inr (.inl deeper)))
      · exact absurd none List.not_mem_nil
    · exact fit.each element (mem_cons.mpr (.inr (.inr (mem_cons.mpr (.inr (.inr other))))))
  shallow := by
    obtain ⟨topShallow, parentShallow, restShallow⟩ := fit.shallow
    refine ⟨?_, restShallow⟩
    rw [List.length_cons] at topShallow
    rw [XmlElement.depth_eq] at parentShallow
    have children : XmlElement.deepest (parent.append top).children ≤
        limits.maxDepth - rest.length - 1 := by
      rw [XmlElement.deepest_le]
      intro child among
      rcases List.mem_append.mp among with sibling | last
      · have below := XmlElement.deepest_le.mp (Nat.le_refl _) child sibling
        omega
      · rw [List.mem_singleton.mp last]
        omega
    rw [XmlElement.depth_eq]
    omega

end Fit

namespace TextFits

variable {limits : Limits} {front rest : List XmlElement} {top parent : XmlElement}

theorem append :
    TextFits limits (front ++ rest) ↔ TextFits limits front ∧ TextFits limits rest := by
  rw [TextFits, XmlElement.allElements_append]
  exact List.forall_mem_append

theorem cons :
    TextFits limits (top :: rest) ↔ top.text.length ≤ limits.maxTextLength ∧
      TextFits limits top.children ∧ TextFits limits rest := by
  rw [TextFits, XmlElement.allElements, XmlElement.elements_eq, List.cons_append,
    List.forall_mem_cons, List.forall_mem_append]
  rfl

theorem ended : TextFits limits (parent.append top :: rest) ↔
    TextFits limits (top :: parent :: rest) := by
  have nothing : TextFits limits [] := nofun
  rw [cons, cons, cons, XmlElement.append, append, cons]
  tauto

theorem mem (fits : TextFits limits rest) (among : top ∈ rest) :
    top.text.length ≤ limits.maxTextLength := by
  induction rest with
  | nil => cases among
  | cons other rest ih =>
    rw [cons] at fits
    rcases List.mem_cons.mp among with rfl | later
    · exact fits.1
    · exact ih fits.2.2 later

end TextFits

/-- The root, or the elements that are open. -/
def Assembly.pieces (assembly : Assembly) : List XmlElement :=
  assembly.root.toList ++ assembly.frames

/-- The assembly follows the parser and keeps to the limits. -/
structure Bounded (limits : Limits) (parser : XmlParser (List Event)) (assembly : Assembly) :
    Prop where
  follows : Follows parser assembly
  fit : Fit limits parser.elements assembly.pieces

namespace Bounded

variable {text : Bytes} {limits : Limits} {parser next : XmlParser (List Event)}
  {assembly : Assembly}

variable (bounded : Bounded limits parser assembly)
include bounded

theorem pieces_eq {top : XmlElement} {rest : List XmlElement}
    (frames : assembly.frames = top :: rest) : assembly.pieces = top :: rest := by
  rw [Assembly.pieces, bounded.follows.root_of_frames frames, frames]
  rfl

theorem pieces_frames (single : parser.stack = [] → parser.hadRoot = false) :
    assembly.pieces = assembly.frames := by
  cases frames : assembly.frames with
  | cons top rest => exact bounded.pieces_eq frames
  | nil =>
    have outside := single (bounded.follows.frames_eq_nil.mp frames)
    have rootless : assembly.root = none := by
      rw [← Option.not_isSome_iff_eq_none]
      intro whole
      rw [bounded.follows.hadRoot.mpr (.inl whole)] at outside
      cases outside
    rw [Assembly.pieces, rootless, frames]
    rfl

theorem opened (pos : Nat) {nsPrefix name : Bytes} {attributes : Attributes}
    (begins : XmlParser.Begins limits parser nsPrefix name attributes) :
    Bounded limits (parser.opened pos nsPrefix name attributes)
      { frames := { nsPrefix, name, attributes } :: assembly.frames } where
  follows := bounded.follows.opened pos nsPrefix name attributes begins.single
  fit := by
    have pieces := bounded.pieces_frames begins.single
    have depth := begins.depth
    rw [bounded.follows.stack, List.length_map, ← pieces] at depth
    have fit := bounded.fit.opened begins.elements depth begins.name begins.attributes
    rw [pieces] at fit
    exact fit

theorem closed (pos : Nat) (nsPrefix : Bytes) {top : XmlElement} {rest : List XmlElement}
    (frames : assembly.frames = top :: rest) :
    Bounded limits (parser.closed pos nsPrefix top.name) (Follows.ended top rest) where
  follows := bounded.follows.closed pos nsPrefix frames
  fit := by
    have fit := bounded.fit
    rw [bounded.pieces_eq frames] at fit
    cases rest with
    | nil => exact fit
    | cons parent outer => exact fit.ended

theorem counts_fit (fits : TextFits limits assembly.pieces) :
    ∀ count ∈ parser.counts, count ≤ limits.maxTextLength := by
  intro count among
  rw [XmlParser.counts, bounded.follows.stack, List.map_map] at among
  obtain ⟨frame, inFrames, rfl⟩ := List.mem_map.mp among
  exact fits.mem (List.mem_append_right _ inFrames)

theorem opened_texts {nsPrefix name : Bytes} {attributes : Attributes}
    (begins : XmlParser.Begins limits parser nsPrefix name attributes) :
    TextFits limits ({ nsPrefix, name, attributes } :: assembly.frames) ↔
      TextFits limits assembly.pieces := by
  rw [TextFits.cons, bounded.pieces_frames begins.single]
  exact ⟨fun fits => fits.2.2, fun fits => ⟨Nat.zero_le _, nofun, fits⟩⟩

theorem closed_texts {top : XmlElement} {rest : List XmlElement}
    (frames : assembly.frames = top :: rest) :
    TextFits limits (Follows.ended top rest).pieces ↔ TextFits limits assembly.pieces := by
  rw [bounded.pieces_eq frames]
  cases rest with
  | nil => exact Iff.rfl
  | cons parent outer => exact TextFits.ended

theorem gathered_texts (chunk : Bytes) {top : XmlElement} {rest : List XmlElement}
    (frames : assembly.frames = top :: rest) :
    TextFits limits (top.addText chunk :: rest) ↔ TextFits limits assembly.pieces ∧
      (top.addText chunk).text.length ≤ limits.maxTextLength := by
  have grows : (top.addText chunk).text.length = top.text.length + chunk.length :=
    List.length_append
  rw [bounded.pieces_eq frames, TextFits.cons, TextFits.cons]
  constructor
  · rintro ⟨grown, others⟩
    exact ⟨⟨by omega, others⟩, grown⟩
  · rintro ⟨⟨-, others⟩, grown⟩
    exact ⟨grown, others⟩

/-- A turn keeps to the limits, and to that on character data if the open elements do. -/
theorem turn (turned : XmlParser.Turn text limits parser (.inl next)) :
    ∃ assembly', Bounded limits next assembly' ∧
      (TextFits limits assembly'.pieces ↔ TextFits limits assembly.pieces ∧
        ∀ count ∈ next.counts, count ≤ limits.maxTextLength) := by
  have alike {assembly' : Assembly} (after : Bounded limits next assembly')
      (same : TextFits limits assembly'.pieces ↔ TextFits limits assembly.pieces) :
      TextFits limits assembly'.pieces ↔ TextFits limits assembly.pieces ∧
        ∀ count ∈ next.counts, count ≤ limits.maxTextLength :=
    ⟨fun fits => ⟨same.mp fits, after.counts_fit fits⟩, fun both => same.mpr both.1⟩
  cases turned with
  | @skips pos =>
    have after : Bounded limits { parser with pos } assembly :=
      ⟨bounded.follows.skipped pos, bounded.fit⟩
    exact ⟨assembly, after, alike after Iff.rfl⟩
  | @gathers pos chunk on inside within =>
    obtain ⟨open', outer, stack⟩ := List.exists_cons_of_ne_nil within
    obtain ⟨top, rest, frames, -, -⟩ := bounded.follows.frames_of_stack stack
    have fit := bounded.fit
    rw [bounded.pieces_eq frames] at fit
    have after : Bounded limits (parser.gathered pos chunk) _ :=
      ⟨bounded.follows.gathered pos chunk frames, fit.addText chunk⟩
    have texts := bounded.gathered_texts chunk frames
    refine ⟨_, after, fun fits => ⟨(texts.mp fits).1, after.counts_fit fits⟩,
      fun both => texts.mpr ⟨both.1, both.2 _ ?_⟩⟩
    rw [XmlParser.counts, after.follows.stack]
    exact List.mem_cons_self
  | @opens pos _ _ _ on inside begins =>
    have after := bounded.opened pos begins
    exact ⟨_, after, alike after (bounded.opened_texts begins)⟩
  | @empties pos nsPrefix _ _ on inside begins =>
    have open' := bounded.opened pos begins
    have after := open'.closed pos nsPrefix rfl
    exact ⟨_, after, alike after ((open'.closed_texts rfl).trans (bounded.opened_texts begins))⟩
  | @closes pos nsPrefix _ _ on inside stack =>
    obtain ⟨top, rest, frames, same, -⟩ := bounded.follows.frames_of_stack stack
    subst same
    have after := bounded.closed pos nsPrefix frames
    exact ⟨_, after, alike after (bounded.closed_texts frames)⟩

end Bounded

/-! ## Counting the tokens -/

/-- How much character data the open elements have, the innermost one first, and whether every
numeric reference so far has left its element within the limit. -/
structure Tally where
  counts : List Nat := []
  within : Bool := true
  deriving DecidableEq, Repr

namespace Tally

def add (tally : Tally) (size : Nat) : Tally :=
  { tally with counts := tally.counts.modifyHead (· + size) }

def count (limits : Limits) (tally : Tally) : Token → Tally
  | .plain size => tally.add size
  | .reference body =>
    let after := tally.add (ValueItem.reference body).expand.length
    if (ValueItem.reference body).isNumeric then
      { after with within := tally.within && decide (after.counts.headD 0 ≤ limits.maxTextLength) }
    else after
  | .startTag => { tally with counts := 0 :: tally.counts }
  | .emptyTag => tally
  | .endTag => { tally with counts := tally.counts.tail }

end Tally

/-- Every numeric reference in the character data of a text leaves the element that it stands
in within the limit. -/
def referencesFit (text : Bytes) (limits : Limits) : Bool :=
  ((lex text).2.foldl (Tally.count limits) {}).within

section Counting

variable {limits : Limits} {reported : Nat} {within : Bool} {tokens : List Token}
  {out : Bytes}

theorem foldl_plain (limits : Limits) (counts : List Nat) (within : Bool) (size : Nat) :
    (List.replicate size (Token.plain 1)).foldl (Tally.count limits) ⟨counts, within⟩ =
      ⟨counts.modifyHead (· + size), within⟩ := by
  induction size generalizing counts with
  | zero => cases counts <;> rfl
  | succ size ih =>
    rw [List.replicate_succ, List.foldl_cons, Tally.count, Tally.add, ih]
    cases counts with
    | nil => rfl
    | cons top rest => simp [Nat.add_comm, Nat.add_left_comm]

/-- Of what is gathered, only numeric references can take the element past the limit. -/
theorem Gathered.tally (gathered : Gathered limits reported tokens out) (rest : List Nat)
    (sound : within = true → reported ≤ limits.maxTextLength) :
    tokens.foldl (Tally.count limits) ⟨reported :: rest, within⟩ =
      ⟨(reported + out.length) :: rest,
        within && decide (reported + out.length ≤ limits.maxTextLength)⟩ := by
  induction gathered with
  | nothing =>
    cases within with
    | false => rfl
    | true => simp [sound rfl]
  | run before run fits ih =>
    rw [List.length_append] at fits ⊢
    rw [List.foldl_append, ih, foldl_plain]
    simp only [List.modifyHead_cons, Nat.add_assoc]
    rw [decide_eq_true (by omega), decide_eq_true (by omega)]
  | @reference tokens out body value before known fits ih =>
    have stands : (ValueItem.reference body).expand = value := by
      rw [ValueItem.expand, known, Option.getD_some]
    rw [ValueItem.fits, stands] at fits
    rw [List.foldl_append, ih, List.foldl_cons, List.foldl_nil, Tally.count, stands,
      List.length_append, ← Nat.add_assoc]
    cases numeric : (ValueItem.reference body).isNumeric with
    | true =>
      simp only [Tally.add, List.modifyHead_cons, if_true, List.headD_cons, Bool.and_assoc]
      congr 2
      rw [Bool.and_eq_right_iff_imp]
      simp only [decide_eq_true_iff]
      omega
    | false =>
      simp only [numeric, Bool.false_eq_true, if_false, decide_eq_true_iff] at fits
      simp only [Tally.add, List.modifyHead_cons, Bool.false_eq_true, if_false]
      rw [decide_eq_true (by omega), decide_eq_true (by omega)]
  | cdata out fits =>
    rw [decide_eq_true fits, Bool.and_true]
    rfl

theorem XmlParser.Counted.tally {counts counts' : List Nat}
    (counted : Counted limits counts tokens counts')
    (sound : within = true → ∀ count ∈ counts, count ≤ limits.maxTextLength) :
    tokens.foldl (Tally.count limits) ⟨counts, within⟩ =
      ⟨counts', within && decide (∀ count ∈ counts', count ≤ limits.maxTextLength)⟩ := by
  have kept {counts' : List Nat}
      (fits : within = true → ∀ count ∈ counts', count ≤ limits.maxTextLength) :
      (within && decide (∀ count ∈ counts', count ≤ limits.maxTextLength)) = within := by
    cases within with
    | false => rfl
    | true => exact decide_eq_true (fits rfl)
  cases counted with
  | skips => rw [kept sound, List.foldl_nil]
  | blank =>
    rw [kept fun _ _ none => absurd none List.not_mem_nil]
    rfl
  | gathers gathered rest =>
    rw [gathered.tally rest fun held => sound held _ List.mem_cons_self]
    congr 1
    cases within with
    | false => rfl
    | true =>
      have others := (List.forall_mem_cons.mp (sound rfl)).2
      rw [Bool.true_and, Bool.true_and, decide_eq_decide, List.forall_mem_cons]
      exact ⟨fun grown => ⟨grown, others⟩, And.left⟩
  | opens =>
    rw [kept fun held => List.forall_mem_cons.mpr ⟨Nat.zero_le _, sound held⟩]
    rfl
  | empties =>
    rw [kept sound]
    rfl
  | closes =>
    rw [kept fun held => (List.forall_mem_cons.mp (sound held)).2]
    rfl

end Counting

/-- The parser is between two tokens, and what is counted is what the open elements have. -/
structure Tallied (text : Bytes) (limits : Limits) (parser : XmlParser (List Event))
    (assembly : Assembly) (tokens : List Token) : Prop where
  bounded : Bounded limits parser assembly
  lexed : Lexed text parser.pos .data tokens
  counts : (tokens.foldl (Tally.count limits) {}).counts = parser.counts
  texts : (tokens.foldl (Tally.count limits) {}).within = true ↔ TextFits limits assembly.pieces

namespace Tallied

variable {text : Bytes} {limits : Limits} {parser next : XmlParser (List Event)}
  {assembly : Assembly} {tokens : List Token}

theorem start (text : Bytes) (limits : Limits) :
    ∃ tokens, Tallied text limits (XmlParser.start text []) {} tokens := by
  obtain ⟨size, lexed⟩ := XmlParser.start_lexed text
  have nothing := foldl_plain limits [] true size
  refine ⟨_, ⟨XmlParser.start_follows text, rfl, Nat.zero_le _, nofun, trivial⟩, lexed, ?_, ?_⟩
  · rw [show ({} : Tally) = ⟨[], true⟩ from rfl, nothing]
    rfl
  · rw [show ({} : Tally) = ⟨[], true⟩ from rfl, nothing]
    exact iff_of_true rfl nofun

theorem turn (tallied : Tallied text limits parser assembly tokens)
    (turned : XmlParser.Turn text limits parser (.inl next)) :
    ∃ assembly' tokens', Tallied text limits next assembly' tokens' := by
  obtain ⟨assembly', bounded, texts⟩ := tallied.bounded.turn turned
  obtain ⟨more, lexed, counted⟩ := turned.lexed tallied.lexed
  have folded := counted.tally fun held =>
    tallied.bounded.counts_fit (tallied.texts.mp held)
  rw [← tallied.counts, ← List.foldl_append] at folded
  refine ⟨assembly', _, bounded, lexed, ?_, ?_⟩
  · rw [folded]
  · rw [folded, texts, Bool.and_eq_true, tallied.texts, decide_eq_true_iff]

end Tallied

/-- A document that is accepted keeps to every limit on depth, number, names and attributes,
and to that on character data just if no numeric reference takes an element past it. -/
theorem XmlDocument.parse_within {text : Bytes} {limits : Limits} {document : XmlDocument}
    (parsed : XmlDocument.parse text limits = some document) (accepted : document.error = .ok) :
    ∃ root, document.root = some root ∧ root.Within limits ∧
      ((∀ element ∈ root.elements, element.text.length ≤ limits.maxTextLength) ↔
        referencesFit text limits = true) := by
  rw [XmlDocument.parse_eq] at parsed
  obtain ⟨⟨error, last⟩, returns, rfl⟩ := Option.map_eq_some_iff.mp parsed
  obtain rfl : error = .ok := accepted
  rcases XmlParser.run_cases limits text
    (fun parser => ∃ assembly tokens, Tallied text limits parser assembly tokens)
    ⟨{}, Tallied.start text limits⟩
    (fun parser next ⟨_, _, tallied⟩ _ turned => tallied.turn turned) with
    ⟨-, returns'⟩ | ⟨error, parser, last', returns', ⟨assembly, tokens, tallied⟩, inside, turned⟩
  · rw [returns] at returns'
    cases returns'
  rw [returns] at returns'
  cases returns'
  cases turned with
  | refuses failed => exact absurd rfl failed
  | accepts past closed had =>
    have bounded := tallied.bounded
    have frames := bounded.follows.frames_eq_nil.mpr closed
    rcases bounded.follows.hadRoot.mp had with whole | someFrames
    · obtain ⟨root, isRoot⟩ := Option.isSome_iff_exists.mp whole
      have pieces : assembly.pieces = [root] := by
        rw [Assembly.pieces, isRoot, frames]
        rfl
      have elements : XmlElement.allElements [root] = root.elements := by
        rw [XmlElement.allElements, XmlElement.allElements, List.append_nil]
      have fit := bounded.fit
      have texts := tallied.texts
      rw [pieces] at fit texts
      have tree := Assembly.tree_fold bounded.follows.folded
      refine ⟨root, ?_, ⟨fit.shallow.1, ?_, ?_⟩, ?_⟩
      · simp only [ne_eq, not_true_eq_false, if_false]
        rw [tree, Assembly.tree, frames, isRoot]
      · rw [← elements, fit.total]
        exact fit.few
      · rw [← elements]
        exact fit.each
      · have lexed := tallied.lexed.lexed
        rw [List.take_of_length_le past] at lexed
        rw [referencesFit, lexed, texts, TextFits, elements]
    · exact absurd frames someFrames

/-- Four bytes of text, a child and a numeric reference, with room for four bytes. -/
def splitText : Bytes := ascii "<a>wxyz<b/>&#65;</a>"

/-- A numeric reference behind other data of its element, with room for both. -/
theorem parse_within_reference :
    ∃ document, XmlDocument.parse (ascii "<a>w<b/>&#65;</a>") {} = some document ∧
      ∃ root, document.root = some root ∧ root.Within {} ∧
        ∀ element ∈ root.elements, element.text.length ≤ 64 * 1024 := by
  have accepted : (XmlDocument.parse (ascii "<a>w<b/>&#65;</a>") {}).map XmlDocument.error =
      some .ok := by
    decide +kernel
  obtain ⟨document, parsed, ok⟩ := Option.map_eq_some_iff.mp accepted
  obtain ⟨root, isRoot, within, texts⟩ := XmlDocument.parse_within parsed ok
  exact ⟨document, parsed, root, isRoot, within, texts.mpr (by decide +kernel)⟩

theorem splitText_exceeds_limit :
    ∃ document root, XmlDocument.parse splitText { maxTextLength := 4 } = some document ∧
      document.error = .ok ∧ document.root = some root ∧
      ∃ element ∈ root.elements, 4 < element.text.length := by
  have outcome : (XmlDocument.parse splitText { maxTextLength := 4 }).map
      (fun document => (document.error, document.root.map fun root => root.text.length)) =
        some (.ok, some 5) := by
    decide +kernel
  obtain ⟨document, parsed, same⟩ := Option.map_eq_some_iff.mp outcome
  injection same with ok grown
  obtain ⟨root, isRoot, size⟩ := Option.map_eq_some_iff.mp grown
  refine ⟨document, root, parsed, ok, isRoot, root, ?_, ?_⟩
  · rw [XmlElement.elements_eq]
    exact List.mem_cons_self
  · rw [size]
    decide

end SamuraiFormal.Xml
