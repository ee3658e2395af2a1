import SamuraiFormal.Xml.Parser

/-!
# Events as trees

What a sequence of events says, apart from the parser that reported it.  `Spells` is the
grammar: the events of an element are its start, what is inside it, and an end with the same
local name.  `assemble` folds events into a tree, with the elements that are open as a list
of frames, and refuses what is not the spelling of an element.
-/

namespace SamuraiFormal.Xml

open Util
open List

mutual

/-- The events of one element. -/
inductive Spells : List Event → XmlElement → Prop where
  | element (nsPrefix name closing : Bytes) (attributes : Attributes) {body : List Event}
      {text : Bytes} {children : List XmlElement} (inside : Inside body text children) :
      Spells (.startElement nsPrefix name attributes :: (body ++ [.endElement closing name]))
        { nsPrefix, name, attributes, text, children }

/-- The events inside an element, with the text and the children that they add up to. -/
inductive Inside : List Event → Bytes → List XmlElement → Prop where
  | nothing : Inside [] [] []
  | characters {body : List Event} {text : Bytes} {children : List XmlElement} (chunk : Bytes)
      (before : Inside body text children) :
      Inside (body ++ [.characters chunk]) (text ++ chunk) children
  | element {body events : List Event} {text : Bytes} {children : List XmlElement}
      {child : XmlElement} (before : Inside body text children) (spells : Spells events child) :
      Inside (body ++ events) text (children ++ [child])

end

/-- The events of elements that are still open, the innermost one first. -/
inductive Begun : List Event → List XmlElement → Prop where
  | nothing : Begun [] []
  | element {events : List Event} {frames : List XmlElement} (nsPrefix name : Bytes)
      (attributes : Attributes) {body : List Event} {text : Bytes} {children : List XmlElement}
      (outer : Begun events frames) (inside : Inside body text children) :
      Begun (events ++ .startElement nsPrefix name attributes :: body)
        ({ nsPrefix, name, attributes, text, children } :: frames)

/-- The element that is complete, and those that are open, the innermost one first. -/
structure Assembly where
  root : Option XmlElement := none
  frames : List XmlElement := []

variable {events : List Event} {assembly : Assembly}

namespace Assembly

def take (assembly : Assembly) : Event → Option Assembly
  | .startElement nsPrefix name attributes =>
    match assembly.root with
    | some _ => none
    | none => some { frames := { nsPrefix, name, attributes } :: assembly.frames }
  | .characters chunk =>
    match assembly.frames with
    | [] => none
    | top :: rest => some { assembly with frames := top.addText chunk :: rest }
  | .endElement _ name =>
    match assembly.frames with
    | [] => none
    | top :: rest =>
      if top.name ≠ name then none
      else
        match rest with
        | [] => some { root := some top }
        | parent :: outer => some { assembly with frames := parent.append top :: outer }
  | .startDocument => none
  | .endDocument => none

def fold (events : List Event) : Option Assembly := events.foldlM take {}

theorem fold_snoc (events : List Event) (event : Event) :
    fold (events ++ [event]) = (fold events).bind fun assembly => assembly.take event := by
  rw [fold, foldlM_append]
  congr 1
  funext assembly
  rw [foldlM_cons]
  cases assembly.take event <;> rfl

/-- What the events that have been folded say. -/
def Tells (events : List Event) (assembly : Assembly) : Prop :=
  match assembly.root with
  | none => Begun events assembly.frames
  | some root => assembly.frames = [] ∧ Spells events root

/-- The outermost element that ends is complete. -/
theorem spells_end {top : XmlElement} (closing : Bytes) (begun : Begun events [top]) :
    Spells (events ++ [.endElement closing top.name]) top := by
  cases begun with
  | element nsPrefix name attributes outer inside =>
    cases outer with
    | nothing => exact .element nsPrefix name closing attributes inside

/-- Another element that ends becomes a child of the one around it. -/
theorem begun_end {top parent : XmlElement} {rest : List XmlElement} (closing : Bytes)
    (begun : Begun events (top :: parent :: rest)) :
    Begun (events ++ [.endElement closing top.name]) (parent.append top :: rest) := by
  cases begun with
  | element nsPrefix name attributes outer inside =>
    cases outer with
    | element nsPrefix' name' attributes' outer' inside' =>
      have spelled := Spells.element nsPrefix name closing attributes inside
      rw [append_assoc, append_assoc]
      exact .element nsPrefix' name' attributes' outer' (.element inside' spelled)

theorem tells_take {event : Event} {next : Assembly} (tells : Tells events assembly)
    (taken : assembly.take event = some next) : Tells (events ++ [event]) next := by
  obtain ⟨root, frames⟩ := assembly
  cases event with
  | startDocument | endDocument => cases taken
  | startElement nsPrefix name attributes =>
    cases root with
    | some root => cases taken
    | none =>
      cases taken
      exact .element nsPrefix name attributes tells .nothing
  | characters chunk =>
    cases frames with
    | nil => cases taken
    | cons top rest =>
      cases taken
      cases root with
      | some root => exact absurd tells.1 (cons_ne_nil _ _)
      | none =>
        cases tells with
        | element nsPrefix name attributes outer inside =>
          rw [append_assoc]
          exact .element nsPrefix name attributes outer (.characters chunk inside)
  | endElement closing name =>
    cases frames with
    | nil => cases taken
    | cons top rest =>
      cases root with
      | some root => exact absurd tells.1 (cons_ne_nil _ _)
      | none =>
        simp only [take] at taken
        split at taken
        case isTrue => cases taken
        case isFalse same =>
          obtain rfl := not_not.mp same
          cases rest with
          | nil =>
            cases taken
            exact ⟨rfl, spells_end closing tells⟩
          | cons parent outer =>
            cases taken
            exact begun_end closing tells

theorem tells_of_fold (folded : fold events = some assembly) : Tells events assembly := by
  induction events using List.reverseRecOn generalizing assembly with
  | nil =>
    cases folded
    exact .nothing
  | append_singleton events event ih =>
    rw [fold_snoc] at folded
    obtain ⟨before, foldedBefore, taken⟩ := Option.bind_eq_some_iff.mp folded
    exact tells_take (ih foldedBefore) taken

theorem not_mem_of_fold (folded : fold events = some assembly) : Event.endDocument ∉ events := by
  induction events using List.reverseRecOn generalizing assembly with
  | nil => nofun
  | append_singleton events event ih =>
    rw [fold_snoc] at folded
    obtain ⟨before, foldedBefore, taken⟩ := Option.bind_eq_some_iff.mp folded
    rw [mem_append, mem_singleton, not_or]
    refine ⟨ih foldedBefore, ?_⟩
    rintro rfl
    cases taken

end Assembly

/-- The tree that the events of one element fold into. -/
def assemble (events : List Event) : Option XmlElement :=
  match Assembly.fold events with
  | some { root, frames := [] } => root
  | _ => none

/-- Only the events of an element are folded into a tree. -/
theorem spells_of_assemble {root : XmlElement} (assembled : assemble events = some root) :
    Spells events root := by
  unfold assemble at assembled
  split at assembled
  case h_1 folded =>
    subst assembled
    exact (Assembly.tells_of_fold folded).2
  case h_2 => cases assembled

namespace XmlElement

/-- The tree around an element, from its ancestors, the innermost one first. -/
def plug : XmlElement → List XmlElement → XmlElement
  | element, [] => element
  | element, parent :: rest => plug (parent.append element) rest

/-- The way to the element that is open inside its ancestors. -/
def path : List XmlElement → Pointer
  | [] => []
  | parent :: rest => path rest ++ [parent.children.length]

/-- The pointers to all elements that are open, the innermost one first. -/
def pointers : List XmlElement → List Pointer
  | [] => []
  | _ :: rest => path rest :: pointers rest

theorem follow_path (element : XmlElement) (rest : List XmlElement) :
    follow (path rest) (plug element rest) = some element := by
  induction rest generalizing element with
  | nil => rfl
  | cons parent rest ih =>
    rw [path, plug, follow_append, ih]
    exact follow_last parent element

theorem update_path (change : XmlElement → XmlElement) (element : XmlElement)
    (rest : List XmlElement) :
    update change (path rest) (plug element rest) = plug (change element) rest := by
  induction rest generalizing element change with
  | nil => rfl
  | cons parent rest ih =>
    rw [path, plug, plug, update_append, ih, update_last]

theorem childCount_path (element : XmlElement) (rest : List XmlElement) :
    childCount (path rest) (plug element rest) = element.children.length := by
  rw [childCount, follow_path]

end XmlElement

/-- What the tree builder holds while the elements are assembled. -/
def Assembly.tree (assembly : Assembly) : TreeSink :=
  match assembly.frames with
  | [] => { document := assembly.root }
  | top :: rest =>
    { document := some (top.plug rest), stack := XmlElement.pointers (top :: rest) }

/-- What the tree builder does on an event. -/
def TreeSink.take (state : TreeSink) : Event → TreeSink
  | .startElement nsPrefix name attributes => (state.openElement nsPrefix name attributes).2
  | .endElement nsPrefix name => (state.closeElement nsPrefix name).2
  | .characters chunk => (state.characters chunk).2
  | .startDocument => state
  | .endDocument => state

/-- The tree builder does what the assembly does. -/
theorem Assembly.tree_take {next : Assembly} {event : Event}
    (taken : assembly.take event = some next) : assembly.tree.take event = next.tree := by
  obtain ⟨root, frames⟩ := assembly
  cases event with
  | startDocument | endDocument => cases taken
  | startElement nsPrefix name attributes =>
    cases root with
    | some root => cases taken
    | none =>
      cases taken
      cases frames with
      | nil => rfl
      | cons top rest =>
        simp only [Assembly.tree, TreeSink.take, TreeSink.openElement, XmlElement.pointers,
          XmlElement.update_path, XmlElement.childCount_path]
        rfl
  | characters chunk =>
    cases frames with
    | nil => cases taken
    | cons top rest =>
      cases taken
      simp only [Assembly.tree, TreeSink.take, TreeSink.characters, XmlElement.pointers,
        Option.map_some, XmlElement.update_path]
  | endElement closing name =>
    cases frames with
    | nil => cases taken
    | cons top rest =>
      simp only [Assembly.take] at taken
      split at taken
      case isTrue => cases taken
      case isFalse =>
        cases rest with
        | nil | cons parent outer =>
          cases taken
          rfl

theorem Assembly.tree_fold (folded : Assembly.fold events = some assembly) :
    events.foldl TreeSink.take {} = assembly.tree := by
  induction events using List.reverseRecOn generalizing assembly with
  | nil =>
    cases folded
    rfl
  | append_singleton events event ih =>
    rw [Assembly.fold_snoc] at folded
    obtain ⟨before, foldedBefore, taken⟩ := Option.bind_eq_some_iff.mp folded
    rw [foldl_append, foldl_cons, ih foldedBefore]
    exact Assembly.tree_take taken

end SamuraiFormal.Xml
