import SamuraiFormal.Library.PairTree
import SamuraiFormal.Crypto.MerkleTree

/-!
# The work stack as a list of nodes

`Holds stack xs` says that the occupied slots of a work stack are exactly the
nodes `xs`, from the bottom.  Each stack operation gets one lemma in these
terms: adding a node puts it on top, and compacting a stack of even size is one level of
pairing.
-/

namespace SamuraiFormal.Crypto

open Library.PairTree
open List

variable {α : Type}

namespace MerkleWorkStack

/-- The slots below the position hold the nodes `xs`.  The capacity is even, so a full stack
can be paired up. -/
structure Holds (stack : MerkleWorkStack α) (xs : List α) : Prop where
  pos_eq : stack.pos = xs.length
  slots : ∃ tail, stack.nodes = xs.map some ++ tail
  room : 0 < stack.nodes.length
  even : stack.nodes.length % 2 = 0

/-- Only a full stack grows, and then it doubles. -/
theorem add_capacity (stack : MerkleWorkStack α) (node : α) :
    (stack.add (some node)).nodes.length =
      if stack.isFull then 2 * stack.nodes.length else stack.nodes.length := by
  unfold add
  split <;> simp [grow]
  omega

theorem add_size (stack : MerkleWorkStack α) (node : α) :
    (stack.add (some node)).size = (stack.size + 1) % 2 ^ 64 := by
  unfold add
  split <;> rfl

namespace Holds

variable {stack : MerkleWorkStack α} {xs : List α}

theorem length_le (holds : Holds stack xs) : xs.length ≤ stack.nodes.length := by
  obtain ⟨tail, slots⟩ := holds.slots
  simp [slots]

theorem get (holds : Holds stack xs) {n : Nat} (below : n < xs.length) :
    stack.get n = some xs[n] := by
  obtain ⟨tail, slots⟩ := holds.slots
  have slot : stack.nodes[n]? = some (some xs[n]) := by
    rw [slots, getElem?_append_left (by simpa using below)]
    simp
  simp [MerkleWorkStack.get, slot]

/-- The stack is full exactly when its nodes fill the capacity. -/
theorem isFull_iff (holds : Holds stack xs) :
    stack.isFull = true ↔ xs.length = stack.nodes.length := by
  simp [isFull, holds.pos_eq]

/-- Adding a node puts it on top. -/
theorem add (holds : Holds stack xs) (node : α) :
    Holds (stack.add (some node)) (xs ++ [node]) := by
  obtain ⟨tail, slots⟩ := holds.slots
  have pos := holds.pos_eq
  have room := holds.room
  have even := holds.even
  have capacity := add_capacity stack node
  by_cases full : stack.isFull = true
  · rw [if_pos full] at capacity
    have size := (holds.isFull_iff).mp full
    have empty : tail = [] := by
      have := congrArg List.length slots
      simp only [length_append, length_map] at this
      exact eq_nil_of_length_eq_zero (by omega)
    obtain ⟨count, more⟩ : ∃ count, stack.nodes.length = count + 1 :=
      ⟨stack.nodes.length - 1, by omega⟩
    refine ⟨?_, ⟨List.replicate count none, ?_⟩, by omega, by omega⟩
    · simp [MerkleWorkStack.add, full, grow, pos]
    · have filled : stack.nodes = xs.map some := by rw [slots, empty, append_nil]
      simp only [MerkleWorkStack.add, full, if_true, grow, pos, more, replicate_succ]
      rw [filled]
      simp
  · rw [if_neg full] at capacity
    have size : xs.length < stack.nodes.length :=
      Nat.lt_of_le_of_ne holds.length_le (fun same => full (holds.isFull_iff.mpr same))
    obtain ⟨slot, rest, shape⟩ : ∃ slot rest, tail = slot :: rest := by
      cases tail with
      | nil => rw [slots] at size; simp at size
      | cons slot rest => exact ⟨slot, rest, rfl⟩
    refine ⟨?_, ⟨rest, ?_⟩, by omega, by omega⟩
    · simp [MerkleWorkStack.add, full, pos]
    · simp only [MerkleWorkStack.add, full, Bool.false_eq_true, if_false, pos, slots, shape]
      simp

/-- A node for which there is a slot does not make the stack grow. -/
theorem add_capacity_of_lt (holds : Holds stack xs) (node : α)
    (free : xs.length < stack.nodes.length) :
    (stack.add (some node)).nodes.length = stack.nodes.length := by
  rw [add_capacity, if_neg (fun full => Nat.ne_of_lt free (holds.isFull_iff.mp full))]

/-- The capacity is all that is asked of a stack besides its nodes. -/
theorem of_capacity {other : MerkleWorkStack α} {ys : List α} (holds : Holds stack xs)
    (pos : other.pos = ys.length) (slots : ∃ tail, other.nodes = ys.map some ++ tail)
    (capacity : other.nodes.length = stack.nodes.length) : Holds other ys :=
  ⟨pos, slots, by rw [capacity]; exact holds.room, by rw [capacity]; exact holds.even⟩

theorem clear (holds : Holds stack xs) : Holds stack.clear [] :=
  holds.of_capacity rfl ⟨_, rfl⟩ length_replicate

/-- The top node is what `getFirst()` and `releaseFirst()` hand out. -/
theorem getFirst {node : α} (holds : Holds stack (xs ++ [node])) :
    stack.getFirst = some node := by
  have pos := holds.pos_eq
  simp only [length_append, length_singleton] at pos
  have slot := holds.get (n := xs.length) (by simp)
  simp only [MerkleWorkStack.getFirst, pos, Nat.add_sub_cancel, slot]
  simp

theorem releaseFirst {node : α} (holds : Holds stack (xs ++ [node])) :
    Holds stack.releaseFirst.2 xs ∧
      stack.releaseFirst.2.nodes.length = stack.nodes.length := by
  obtain ⟨tail, slots⟩ := holds.slots
  have pos : stack.pos = xs.length + 1 := by simpa using holds.pos_eq
  have capacity : stack.releaseFirst.2.nodes.length = stack.nodes.length := by
    simp [MerkleWorkStack.releaseFirst, destroy, set]
  refine ⟨holds.of_capacity ?_ ⟨none :: tail, ?_⟩ capacity, capacity⟩
  · simp [MerkleWorkStack.releaseFirst, pos]
  · simp only [MerkleWorkStack.releaseFirst, destroy, set, pos, slots]
    simp

end Holds

theorem holds_create {capacity : Nat} (room : 0 < capacity) (even : capacity % 2 = 0) :
    Holds (create capacity : MerkleWorkStack α) [] :=
  ⟨rfl, ⟨_, rfl⟩, by simpa [create] using room, by simpa [create] using even⟩

end MerkleWorkStack

open MerkleWorkStack

/-- Writing one slot of a run of empty slots, at its front. -/
theorem set_front_of_empty (front : List (Option α)) (gap : Nat) (node : α)
    (tail : List (Option α)) :
    (front ++ (List.replicate (gap + 1) none ++ tail)).set front.length (some node) =
      front ++ some node :: (List.replicate gap none ++ tail) := by
  simp [replicate_succ]

/-- Emptying the two slots that were just read. -/
theorem set_pair_empty (front : List (Option α)) (first second : Option α)
    (tail : List (Option α)) {position : Nat} (here : position = front.length) :
    ((front ++ first :: second :: tail).set position none).set (position + 1) none =
      front ++ none :: none :: tail := by
  subst here
  simp

/-- The invariant of the loop: `paired` survivors at the front, then the emptied
slots, then the pairs that are still to be read. -/
theorem compactLoop_spec (combine : α → α → α) (paired rest : List α)
    (stack : MerkleWorkStack α) (tail : List (Option α))
    (even : rest.length % 2 = 0)
    (slots : stack.nodes = paired.map some ++
      (List.replicate paired.length none ++ (rest.map some ++ tail)))
    (pos : stack.pos = 2 * paired.length + rest.length) :
    ∃ repacked : MerkleWorkStack α,
      compactLoop combine stack (2 * paired.length) paired.length =
        some (repacked, (paired ++ pairUp combine rest).length) ∧
      repacked.nodes.length = stack.nodes.length ∧
      ∃ tail, repacked.nodes = (paired ++ pairUp combine rest).map some ++ tail := by
  induction rest using pairUp.induct generalizing paired stack with
  | case1 =>
    rw [compactLoop, if_neg (by simp [pos])]
    exact ⟨stack, by simp [pairUp], rfl, _, by simpa [pairUp] using slots⟩
  | case2 last => simp at even
  | case3 left right rest ih =>
    have front : (paired.map some ++ List.replicate paired.length none).length =
        2 * paired.length := by
      simp
      omega
    have shape : stack.nodes =
        (paired.map some ++ List.replicate paired.length (none : Option α)) ++
          some left :: some right :: (rest.map some ++ tail) := by
      simpa using slots
    have first : stack.get (2 * paired.length) = some left := by
      simp [MerkleWorkStack.get, shape, ← front]
    have second : stack.get (2 * paired.length + 1) = some right := by
      simp only [MerkleWorkStack.get, shape]
      rw [getElem?_append_right (by omega), front]
      simp
    have inner : rest.length % 2 = 0 := by
      simp only [length_cons] at even
      omega
    have below : 2 * paired.length < stack.pos := by
      rw [pos]
      simp
    -- both slots are emptied before the combined node moves down to slot `j`
    obtain ⟨repacked, looped, length, moved⟩ :=
      ih (paired ++ [combine left right])
        (((stack.destroy (2 * paired.length)).destroy (2 * paired.length + 1)).set
          (some (combine left right)) paired.length)
        inner
        (by
          simp only [destroy, MerkleWorkStack.set, shape]
          rw [set_pair_empty _ _ _ _ front.symm]
          have gathered : paired.map some ++ List.replicate paired.length (none : Option α) ++
              none :: none :: (rest.map some ++ tail) =
              paired.map some ++ (List.replicate (paired.length + 1 + 1) none ++
                (rest.map some ++ tail)) := by
            simp [replicate_succ']
          rw [gathered]
          have written := set_front_of_empty (paired.map some) (paired.length + 1)
          rw [length_map] at written
          rw [written]
          simp)
        (by
          simp only [destroy, MerkleWorkStack.set, pos, length_append, length_cons,
            length_nil]
          omega)
    refine ⟨repacked, ?_, ?_, ?_⟩
    · rw [compactLoop, if_pos below, first, second]
      simp only [length_append, length_singleton] at looped
      rw [show 2 * (paired.length + 1) = 2 * paired.length + 2 by omega] at looped
      simpa [pairUp, Nat.add_assoc, Nat.add_comm 1] using looped
    · simpa [destroy, MerkleWorkStack.set] using length
    · simpa [pairUp] using moved

variable {stack : MerkleWorkStack α} {xs : List α}

variable (combine : α → α → α)

/-- `compact()` of an even stack never reads an empty slot and is one level. -/
theorem compact_spec (holds : Holds stack xs) (even : xs.length % 2 = 0) :
    ∃ halved, compact combine stack = some halved ∧ Holds halved (pairUp combine xs) ∧
      halved.nodes.length = stack.nodes.length := by
  obtain ⟨tail, slots⟩ := holds.slots
  obtain ⟨repacked, looped, length, rest, moved⟩ :=
    compactLoop_spec combine [] xs stack tail even (by simpa using slots)
      (by simpa using holds.pos_eq)
  simp only [length_nil, nil_append] at looped moved
  have capacity : (repacked.setPosition (pairUp combine xs).length).nodes.length =
      stack.nodes.length := by
    have := congrArg List.length moved
    simp only [length_append, length_map] at this
    simp only [setPosition, length_append, length_take, length_replicate]
    omega
  refine ⟨repacked.setPosition (pairUp combine xs).length, ?_,
    holds.of_capacity rfl
      ⟨List.replicate (repacked.nodes.length - (pairUp combine xs).length) none, ?_⟩ capacity,
    capacity⟩
  · simp [compact, holds.pos_eq, even, looped]
  · simp only [setPosition]
    rw [moved, take_left' (by simp)]

/-- One pass of `compact_all()` over an odd stack keeps its last node aside. -/
theorem pairUp_odd (even : xs.length % 2 = 0) (last : α) :
    pairUp combine (xs ++ [last]) = pairUp combine xs ++ [last] := by
  rw [pairUp_append combine even]
  rfl

end SamuraiFormal.Crypto
