import SamuraiFormal.Util.Text

/-!
# The elements of a document

`XmlElement` and the lookups its users make.  An element owns its children, so a document
is a finite tree; a borrowed pointer into it is the list of child numbers on the way down
from the root.
-/

namespace SamuraiFormal.Xml

open Util
open List

/-- Name and value, in the order they were written. -/
abbrev Attributes : Type := List (Bytes × Bytes)

structure XmlElement where
  nsPrefix : Bytes := []
  name : Bytes := []
  attributes : Attributes := []
  text : Bytes := []
  children : List XmlElement := []
  deriving Repr

namespace XmlElement

def findChild (element : XmlElement) (child : Bytes) : Option XmlElement :=
  element.children.find? fun candidate => candidate.name == child

def getChildText (element : XmlElement) (child : Bytes) : Bytes :=
  match element.findChild child with
  | none => []
  | some found => trim found.text

mutual

/-- The levels of elements, the element itself being the first. -/
def depth : XmlElement → Nat
  | ⟨_, _, _, _, children⟩ => deepest children + 1

/-- The depth of the deepest of the elements. -/
def deepest : List XmlElement → Nat
  | [] => 0
  | element :: rest => max element.depth (deepest rest)

end

mutual

/-- The element and everything below it, in document order. -/
def elements : XmlElement → List XmlElement
  | ⟨nsPrefix, name, attributes, text, children⟩ =>
    ⟨nsPrefix, name, attributes, text, children⟩ :: allElements children

def allElements : List XmlElement → List XmlElement
  | [] => []
  | element :: rest => element.elements ++ allElements rest

end

theorem depth_eq (element : XmlElement) : element.depth = deepest element.children + 1 := by
  cases element
  rw [depth]

theorem deepest_le {children : List XmlElement} {bound : Nat} :
    deepest children ≤ bound ↔ ∀ child ∈ children, child.depth ≤ bound := by
  induction children with
  | nil => simp [deepest]
  | cons child rest ih => rw [deepest, Nat.max_le, ih, forall_mem_cons]

theorem elements_eq (element : XmlElement) :
    element.elements = element :: allElements element.children := by
  cases element
  rw [elements]

theorem allElements_append (front back : List XmlElement) :
    allElements (front ++ back) = allElements front ++ allElements back := by
  induction front with
  | nil => rfl
  | cons child rest ih =>
    rw [cons_append, allElements, allElements, ih, append_assoc]

/-- The loop of `findDescendant()`, one turn for each level below the elements. -/
def findDescendantLoop (descendant : Bytes) : Nat → List XmlElement → Option XmlElement
  | 0, _ => none
  | levels + 1, level =>
    let next := level.flatMap children
    match next.find? fun candidate => candidate.name == descendant with
    | some found => some found
    | none => findDescendantLoop descendant levels next

def findDescendant (element : XmlElement) (descendant : Bytes) : Option XmlElement :=
  findDescendantLoop descendant element.depth [element]

/-- The elements so many levels below an element. -/
def generation (element : XmlElement) : Nat → List XmlElement
  | 0 => [element]
  | level + 1 => (element.generation level).flatMap children

/-- The elements below an element, level by level. -/
def breadthFirst (element : XmlElement) : List XmlElement :=
  (range' 1 element.depth).flatMap element.generation

section

variable (element : XmlElement)

theorem depth_le_of_mem_generation {level : Nat} :
    ∀ other ∈ element.generation level, other.depth + level ≤ element.depth := by
  induction level with
  | zero => exact forall_mem_singleton.mpr (Nat.le_refl _)
  | succ level ih =>
    intro other there
    obtain ⟨parent, above, child⟩ := mem_flatMap.mp there
    have bound := ih parent above
    have shorter := deepest_le.mp (Nat.le_refl _) other child
    rw [depth_eq] at bound
    omega

theorem findDescendantLoop_eq (descendant : Bytes) (levels start : Nat) :
    findDescendantLoop descendant levels (element.generation start) =
      (range' (start + 1) levels).findSome? fun level =>
        (element.generation level).find? (·.name == descendant) := by
  induction levels generalizing start with
  | zero => rfl
  | succ levels ih =>
    rw [range'_succ, findSome?_cons, ← ih, findDescendantLoop, generation]
    cases ((element.generation start).flatMap children).find? (·.name == descendant) <;> rfl

/-- The level of some elements comes first in their order, the rest is below. -/
theorem allElements_perm (level : List XmlElement) :
    allElements level ~ level ++ allElements (level.flatMap children) := by
  induction level with
  | nil => exact .refl _
  | cons child rest ih =>
    rw [allElements, elements_eq, flatMap_cons, allElements_append]
    exact ((ih.append_left _).trans (perm_append_comm_assoc _ _ _)).cons child

theorem allElements_generation_perm (levels start : Nat) :
    allElements (element.generation start) ~
      (range' start levels).flatMap element.generation ++
        allElements (element.generation (start + levels)) := by
  induction levels generalizing start with
  | zero => exact .refl _
  | succ levels ih =>
    rw [range'_succ, flatMap_cons, append_assoc]
    have later := ih (start + 1)
    rw [Nat.add_right_comm] at later
    exact (allElements_perm _).trans (later.append_left _)

/-- `findDescendant()` finds the first element of the name level by level, and the levels
hold each element below exactly as often as the document does. -/
theorem findDescendant_breadthFirst :
    (∀ descendant, element.findDescendant descendant =
      element.breadthFirst.find? (·.name == descendant)) ∧
    element.breadthFirst ~ allElements element.children := by
  constructor
  · intro descendant
    rw [breadthFirst, find?_flatMap]
    exact element.findDescendantLoop_eq descendant element.depth 0
  · have order := element.allElements_generation_perm element.depth 1
    have none' : element.generation (1 + element.depth) = [] := by
      refine eq_nil_iff_forall_not_mem.mpr fun other there => ?_
      have bound := element.depth_le_of_mem_generation other there
      omega
    have first : element.generation 1 = element.children := append_nil _
    rw [none', first, allElements, append_nil] at order
    exact order.symm

end

/-- The children's numbers on the way from the root to an element. -/
abbrev Pointer : Type := List Nat

def follow : Pointer → XmlElement → Option XmlElement
  | [], element => some element
  | index :: pointer, element => element.children[index]?.bind (follow pointer)

/-- The number of children of what a pointer points to. -/
def childCount (pointer : Pointer) (element : XmlElement) : Nat :=
  match follow pointer element with
  | none => 0
  | some target => target.children.length

/-- The tree after a change to what a pointer points to. -/
def update (change : XmlElement → XmlElement) : Pointer → XmlElement → XmlElement
  | [], element => change element
  | index :: pointer, element =>
    { element with children := element.children.modify index (update change pointer) }

def append (element child : XmlElement) : XmlElement :=
  { element with children := element.children ++ [child] }

def addText (element : XmlElement) (chunk : Bytes) : XmlElement :=
  { element with text := element.text ++ chunk }

theorem follow_append (front back : Pointer) (element : XmlElement) :
    follow (front ++ back) element = (follow front element).bind (follow back) := by
  induction front generalizing element with
  | nil => rfl
  | cons index front ih =>
    rw [cons_append, follow, follow, Option.bind_assoc]
    congr 1
    funext child
    exact ih child

theorem update_append (change : XmlElement → XmlElement) (front back : Pointer)
    (element : XmlElement) :
    update change (front ++ back) element = update (update change back) front element := by
  induction front generalizing element with
  | nil => rfl
  | cons index front ih =>
    rw [cons_append, update]
    congr 2
    funext child
    exact ih child

/-- The last child is where the number of the others points to. -/
theorem follow_last (element child : XmlElement) :
    follow [element.children.length] (element.append child) = some child := by
  simp [follow, append]

theorem update_last (change : XmlElement → XmlElement) (element child : XmlElement) :
    update change [element.children.length] (element.append child) =
      element.append (change child) := by
  simp [update, append, modify_eq_set_getElem?]

end XmlElement

end SamuraiFormal.Xml
