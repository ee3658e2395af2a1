import Mathlib.Algebra.Order.Floor.Div
import Mathlib.Tactic.Ring

/-!
# Level-by-level pairing

A list of nodes is reduced to one node by combining adjacent nodes, level by
level, with an unpaired last node promoted unchanged.  The lemmas say how a
level acts on a list that is cut at an aligned position, which is what an
incremental construction needs: it never sees the whole list at once.
-/

namespace SamuraiFormal.Library.PairTree

open List

variable {α : Type}

/-- One level: adjacent nodes are combined and an unpaired last node is kept. -/
def pairUp (op : α → α → α) : List α → List α
  | [] => []
  | [last] => [last]
  | left :: right :: rest => op left right :: pairUp op rest

theorem pairUp_length (op : α → α → α) (nodes : List α) :
    (pairUp op nodes).length = (nodes.length + 1) / 2 := by
  induction nodes using pairUp.induct with
  | case1 | case2 last => simp [pairUp]
  | case3 left right rest ih =>
    simp only [pairUp, length_cons]
    omega

/-- A level distributes over a cut that leaves whole pairs on its left. -/
theorem pairUp_append (op : α → α → α) {front : List α}
    (even : front.length % 2 = 0) (back : List α) :
    pairUp op (front ++ back) = pairUp op front ++ pairUp op back := by
  induction front using pairUp.induct with
  | case1 => rfl
  | case2 last => simp at even
  | case3 left right rest ih =>
    have inner : rest.length % 2 = 0 := by
      simp only [length_cons] at even
      omega
    simp only [cons_append, pairUp, ih inner]

/-- The node that is left when the levels are repeated to the end. -/
def treeRoot (op : α → α → α) : List α → Option α
  | [] => none
  | [root] => some root
  | left :: right :: rest => treeRoot op (pairUp op (left :: right :: rest))
termination_by nodes => nodes.length
decreasing_by
  rw [pairUp_length]
  simp only [length_cons]
  omega

theorem treeRoot_singleton (op : α → α → α) (root : α) :
    treeRoot op [root] = some root := by
  rw [treeRoot]

/-- Doing one level first does not change the root. -/
theorem treeRoot_pairUp (op : α → α → α) (nodes : List α) :
    treeRoot op (pairUp op nodes) = treeRoot op nodes := by
  match nodes with
  | [] => rfl
  | [root] => rfl
  | left :: right :: rest =>
    conv_rhs => rw [treeRoot]

/-- Every non-empty list has a root. -/
theorem exists_treeRoot (op : α → α → α) (nodes : List α) (nonempty : nodes ≠ []) :
    ∃ root, treeRoot op nodes = some root := by
  induction nodes using treeRoot.induct op with
  | case1 => exact absurd rfl nonempty
  | case2 root => exact ⟨root, treeRoot_singleton op root⟩
  | case3 left right rest ih =>
    obtain ⟨root, found⟩ := ih (by simp [pairUp])
    exact ⟨root, by rw [← treeRoot_pairUp, found]⟩

/-- The nodes after `count` levels. -/
def levels (op : α → α → α) (count : Nat) : List α → List α :=
  (pairUp op)^[count]

section

variable (op : α → α → α)

@[simp]
theorem levels_zero (nodes : List α) : levels op 0 nodes = nodes := rfl

theorem levels_succ (count : Nat) (nodes : List α) :
    levels op (count + 1) nodes = pairUp op (levels op count nodes) :=
  Function.iterate_succ_apply' (pairUp op) count nodes

theorem levels_nil (count : Nat) : levels op count ([] : List α) = [] := by
  induction count with
  | zero => rfl
  | succ count ih => rw [levels_succ, ih]; rfl

theorem treeRoot_levels (count : Nat) (nodes : List α) :
    treeRoot op (levels op count nodes) = treeRoot op nodes := by
  induction count with
  | zero => rfl
  | succ count ih => rw [levels_succ, treeRoot_pairUp, ih]

/-- `groups` full groups of `2 ^ count` nodes become `groups` nodes. -/
theorem levels_length_of_groups (count groups : Nat) {nodes : List α}
    (full : nodes.length = groups * 2 ^ count) : (levels op count nodes).length = groups := by
  induction count generalizing groups with
  | zero => simpa using full
  | succ count ih =>
    have doubled : nodes.length = 2 * groups * 2 ^ count := by
      rw [full]
      ring
    rw [levels_succ, pairUp_length, ih (2 * groups) doubled]
    omega

/-- Levels distribute over a cut at a multiple of the group size. -/
theorem levels_append (count groups : Nat) {front : List α}
    (full : front.length = groups * 2 ^ count) (back : List α) :
    levels op count (front ++ back) = levels op count front ++ levels op count back := by
  induction count generalizing groups with
  | zero => rfl
  | succ count ih =>
    have doubled : front.length = 2 * groups * 2 ^ count := by
      rw [full]
      ring
    have even : (levels op count front).length % 2 = 0 := by
      rw [levels_length_of_groups op count (2 * groups) doubled]
      omega
    rw [levels_succ, ih (2 * groups) doubled, pairUp_append op even, levels_succ,
      levels_succ]

/-- A non-empty group that fits into `2 ^ count` nodes is reduced to its root. -/
theorem levels_eq_root (count : Nat) {nodes : List α} {root : α} (fits : nodes.length ≤ 2 ^ count)
    (found : treeRoot op nodes = some root) : levels op count nodes = [root] := by
  have bound : (levels op count nodes).length ≤ 1 := by
    induction count generalizing nodes with
    | zero => simpa using fits
    | succ count ih =>
      have half : (pairUp op nodes).length ≤ 2 ^ count := by
        rw [pairUp_length]
        omega
      exact ih half ((treeRoot_pairUp op nodes).trans found)
  have kept : treeRoot op (levels op count nodes) = some root :=
    (treeRoot_levels op count nodes).trans found
  match result : levels op count nodes with
  | [] => rw [result, treeRoot] at kept; cases kept
  | [node] =>
    rw [result, treeRoot_singleton] at kept
    rw [Option.some.inj kept]
  | _ :: _ :: _ => rw [result] at bound; simp at bound

end

/-- Group `i` of the nodes, cut into groups of `size`; the last may be shorter. -/
def group (size i : Nat) (nodes : List α) : List α := (nodes.drop (i * size)).take size

theorem group_succ (size i : Nat) (nodes : List α) :
    group size (i + 1) nodes = group size i (nodes.drop size) := by
  rw [group, group, drop_drop, Nat.succ_mul, Nat.add_comm size]

/-- Taking one group off lowers the number of groups by one. -/
theorem ceilDiv_of_lt {length size : Nat} (positive : 0 < size) (more : size < length) :
    length ⌈/⌉ size = (length - size) ⌈/⌉ size + 1 := by
  rw [Nat.ceilDiv_eq_add_pred_div, Nat.ceilDiv_eq_add_pred_div, ← Nat.add_div_right _ positive]
  congr 1
  omega

/-- After `count` levels every node is the root of its group of `2 ^ count` nodes. -/
theorem levels_eq_groups (op : α → α → α) (count : Nat) (nodes : List α) :
    (levels op count nodes).map some =
      (List.range (nodes.length ⌈/⌉ 2 ^ count)).map fun i =>
        treeRoot op (group (2 ^ count) i nodes) := by
  have positive := Nat.two_pow_pos count
  induction length : nodes.length using Nat.strong_induction_on generalizing nodes with
  | _ length' ih =>
    subst length
    by_cases more : 2 ^ count < nodes.length
    · -- the first group is full, so the levels act on it and on the rest
      have first : (nodes.take (2 ^ count)).length = 1 * 2 ^ count := by
        rw [length_take]
        omega
      have nonempty : nodes.take (2 ^ count) ≠ [] := by
        intro empty
        rw [empty, Nat.one_mul] at first
        exact absurd first.symm (Nat.ne_of_gt positive)
      obtain ⟨root, found⟩ := exists_treeRoot op _ nonempty
      have rest := ih (nodes.drop (2 ^ count)).length
        (by rw [length_drop]; omega) (nodes.drop (2 ^ count)) rfl
      have here : treeRoot op (group (2 ^ count) 0 nodes) = some root := by
        rw [group, Nat.zero_mul, drop_zero, found]
      have whole : levels op count nodes = root :: levels op count (nodes.drop (2 ^ count)) := by
        conv_lhs => rw [← take_append_drop (2 ^ count) nodes]
        rw [levels_append op count 1 first,
          levels_eq_root op count (by rw [first, Nat.one_mul]) found, singleton_append]
      rw [whole, map_cons, rest, ceilDiv_of_lt positive more, range_succ_eq_map,
        map_cons, here, map_map, length_drop]
      congr 1
      refine map_congr_left fun i _ => ?_
      exact congrArg (treeRoot op) (group_succ (2 ^ count) i nodes).symm
    · by_cases empty : nodes = []
      · rw [empty, levels_nil, length_nil, zero_ceilDiv]
        rfl
      · obtain ⟨root, found⟩ := exists_treeRoot op nodes empty
        have one : nodes.length ⌈/⌉ 2 ^ count = 1 := by
          have some' := length_pos_of_ne_nil empty
          exact Nat.div_eq_of_lt_le (by omega) (by omega)
        have here : group (2 ^ count) 0 nodes = nodes := by
          rw [group, Nat.zero_mul, drop_zero, take_of_length_le (by omega)]
        rw [levels_eq_root op count (by omega) found, one, range_one, map_singleton,
          map_singleton, here, found]

theorem levels_length (op : α → α → α) (count : Nat) (nodes : List α) :
    (levels op count nodes).length = nodes.length ⌈/⌉ 2 ^ count := by
  have lengths := congrArg List.length (levels_eq_groups op count nodes)
  simpa using lengths

end SamuraiFormal.Library.PairTree
