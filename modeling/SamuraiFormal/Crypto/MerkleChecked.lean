import SamuraiFormal.Library.BlockFeed
import SamuraiFormal.Crypto.MerkleStack

/-!
# The tree on lists of nodes

`compact()` asserts that the position is even, and dereferences what it reads; other reads
move an empty pointer on unnoticed.  Here the operations are repeated with every read
checked: a slot outside the stack, an empty slot and a failed assertion are all `none`.
Whatever the checked operations do, the unchecked ones do.

`Stacked tree xs ws` gives the nodes of the two stacks.  `hash()` joins the leaf nodes in
pairs if they fill their array, and the work stack becomes one more leaf node once it is a
group; `finalize()` makes what is left of it the last one.
-/

namespace SamuraiFormal.Crypto

open Library

open Library.PairTree

open MerkleWorkStack
open List

variable {α : Type} {hasher : Hasher} {blockSize : Nat} {full : List (List UInt8)}
  {pending : List UInt8}

namespace MerkleTree

/-- The current block of the base class. -/
def blockFeed : BlockFeed (MerkleTree hasher) UInt8 where
  blockSize tree := tree.blockSize
  block tree := tree.currentBlock
  index tree := tree.currentBlockIndex
  put tree block index := { tree with currentBlock := block, currentBlockIndex := index }

theorem blockFeed_lawful : (blockFeed : BlockFeed (MerkleTree hasher) UInt8).Lawful :=
  ⟨fun _ _ _ => rfl, fun _ _ _ => rfl, fun _ _ _ => rfl⟩

theorem updateLoop_eq (fuel : Nat) (tree : MerkleTree hasher) (data : List UInt8) :
    updateLoop fuel tree data = blockFeed.loop hash fuel tree data := by
  induction fuel generalizing tree data with
  | zero => cases data <;> rfl
  | succ fuel ih =>
    cases data with
    | nil => rfl
    | cons byte rest =>
      simp only [updateLoop, ih]
      rfl

/-- `Hash::update()` for any virtual `hash()`. -/
def updateWith (hash : MerkleTree hasher → List UInt8 → Option (MerkleTree hasher))
    (tree : MerkleTree hasher) (data : List UInt8) : Option (MerkleTree hasher) :=
  if data = [] ∨ tree.finalized = true ∨ tree.blockSize ≤ tree.currentBlockIndex then
    some tree
  else
    (blockFeed.loop hash data.length tree data).map fun updated =>
      { updated with fileSize := (updated.fileSize + data.length) % 2 ^ 64 }

theorem update_eq (tree : MerkleTree hasher) (data : List UInt8) :
    tree.update data = updateWith hash tree data := by
  rw [update, updateWith, updateLoop_eq]

end MerkleTree

namespace Checked

/-- `releaseFirst()`. -/
def releaseFirst (stack : MerkleWorkStack α) : Option (α × MerkleWorkStack α) :=
  stack.getFirst.map fun node => (node, stack.releaseFirst.2)

/-- The `while` loop of `compact_all()`. -/
def compactAllLoop (combine : α → α → α) : Nat → MerkleWorkStack α → Option (MerkleWorkStack α)
  | 0, stack => if 1 < stack.pos then none else some stack
  | fuel + 1, stack =>
    if 1 < stack.pos then
      if stack.pos % 2 = 1 then
        (releaseFirst stack).bind fun (spare, rest) =>
          (compact combine rest).bind fun halved =>
            compactAllLoop combine fuel (halved.add (some spare))
      else (compact combine stack).bind (compactAllLoop combine fuel)
    else some stack

def compactAll (combine : α → α → α) (stack : MerkleWorkStack α) : Option (MerkleWorkStack α) :=
  compactAllLoop combine stack.pos stack

def promoteWork (tree : MerkleTree hasher) : Option (MerkleTree hasher) :=
  (compactAll hasher.combine tree.work).bind fun reduced =>
    (releaseFirst reduced).map fun (leaf, rest) =>
      { tree with nodes := tree.nodes.add (some leaf), work := rest.clear }

def hash (tree : MerkleTree hasher) (data : List UInt8) : Option (MerkleTree hasher) :=
  if tree.finalized then some tree
  else
    tree.makeRoom.bind fun roomy =>
      let fed := { roomy with work := roomy.work.add (some (hasher.leafHash data)) }
      (if fed.work.size = fed.blocksPerLeaf then promoteWork fed else some fed).map
        fun promoted => { promoted with count := (promoted.count + 1) % 2 ^ 64 }

def update (tree : MerkleTree hasher) (data : List UInt8) : Option (MerkleTree hasher) :=
  MerkleTree.updateWith hash tree data

/-- The loop of `finalize()` that moves the saved leaves back. -/
def moveNodes : Nat → Nat → MerkleWorkStack α → MerkleWorkStack α → Option (MerkleWorkStack α)
  | 0, _, _, target => some target
  | left + 1, n, source, target =>
    (source.get n).bind fun node =>
      moveNodes left (n + 1) (source.destroy n) (target.add (some node))

def finishRoot (tree : MerkleTree hasher) : Option (MerkleTree hasher) :=
  (MerkleTree.copyNodes tree.nodes tree.nodes.pos 0 tree.work).bind fun saved =>
    (compactAll hasher.combine tree.nodes).bind fun reduced =>
      reduced.getFirst.bind fun root =>
        (moveNodes saved.pos 0 saved reduced.clear).map fun moved =>
          { tree with
            finalizedValue := root
            nodes := moved
            work := saved.clear
            finalized := true }

def finalize (tree : MerkleTree hasher) : Option (MerkleTree hasher) :=
  if tree.finalized then some tree
  else
    (if 0 < tree.currentBlockIndex ∨ tree.count = 0 then
      hash tree (tree.currentBlock.take tree.currentBlockIndex)
    else some tree).bind fun flushed =>
      (if flushed.work.size ≠ 0 then promoteWork flushed else some flushed).bind finishRoot

end Checked

variable {stack : MerkleWorkStack α} {tree : MerkleTree hasher}
  {xs ws : List (Digest hasher.size)}

theorem compactAllLoop_of_checked (combine : α → α → α) (fuel : Nat) {reduced : MerkleWorkStack α}
    (succeeds : Checked.compactAllLoop combine fuel stack = some reduced) :
    compactAllLoop combine fuel stack = some reduced := by
  induction fuel generalizing stack with
  | zero => exact succeeds
  | succ fuel ih =>
    rw [Checked.compactAllLoop] at succeeds
    rw [compactAllLoop]
    by_cases long : 1 < stack.pos
    · rw [if_pos long] at succeeds ⊢
      by_cases odd : stack.pos % 2 = 1
      · rw [if_pos odd] at succeeds ⊢
        obtain ⟨⟨spare, rest⟩, released, succeeds⟩ := Option.bind_eq_some_iff.mp succeeds
        obtain ⟨node, first, same⟩ := Option.map_eq_some_iff.mp released
        obtain ⟨rfl, rfl⟩ := Prod.mk.inj same
        obtain ⟨halved, compacted, succeeds⟩ := Option.bind_eq_some_iff.mp succeeds
        have top : stack.releaseFirst.1 = some node := first
        simp only [top, compacted]
        exact ih succeeds
      · rw [if_neg odd] at succeeds ⊢
        obtain ⟨halved, compacted, succeeds⟩ := Option.bind_eq_some_iff.mp succeeds
        rw [compacted]
        exact ih succeeds
    · rw [if_neg long] at succeeds ⊢
      exact succeeds

theorem promoteWork_of_checked {promoted : MerkleTree hasher}
    (succeeds : Checked.promoteWork tree = some promoted) : tree.promoteWork = some promoted := by
  obtain ⟨reduced, compacted, succeeds⟩ := Option.bind_eq_some_iff.mp succeeds
  obtain ⟨⟨leaf, rest⟩, released, rfl⟩ := Option.map_eq_some_iff.mp succeeds
  obtain ⟨node, first, same⟩ := Option.map_eq_some_iff.mp released
  obtain ⟨rfl, rfl⟩ := Prod.mk.inj same
  have top : reduced.releaseFirst.1 = some node := first
  have reduces : compactAll hasher.combine tree.work = some reduced :=
    compactAllLoop_of_checked hasher.combine _ compacted
  simp only [MerkleTree.promoteWork, reduces, Option.map_some, top]

/-- Either promotion of the work stack is carried over. -/
theorem promote_of_checked {promoted : MerkleTree hasher} {asked : Prop} [Decidable asked]
    (succeeds : (if asked then Checked.promoteWork tree else some tree) = some promoted) :
    (if asked then tree.promoteWork else some tree) = some promoted := by
  by_cases needed : asked
  · rw [if_pos needed] at succeeds ⊢
    exact promoteWork_of_checked succeeds
  · rw [if_neg needed] at succeeds ⊢
    exact succeeds

theorem hash_of_checked {hashed : MerkleTree hasher} {data : List UInt8}
    (succeeds : Checked.hash tree data = some hashed) : tree.hash data = some hashed := by
  unfold Checked.hash at succeeds
  unfold MerkleTree.hash
  by_cases final : tree.finalized = true
  · rw [if_pos final] at succeeds ⊢
    exact succeeds
  rw [if_neg final] at succeeds ⊢
  obtain ⟨roomy, made, succeeds⟩ := Option.bind_eq_some_iff.mp succeeds
  obtain ⟨promoted, promotes, rfl⟩ := Option.map_eq_some_iff.mp succeeds
  rw [made, Option.bind_some]
  dsimp only
  rw [promote_of_checked promotes, Option.map_some]

theorem update_of_checked {updated : MerkleTree hasher} {data : List UInt8}
    (succeeds : Checked.update tree data = some updated) : tree.update data = some updated := by
  rw [MerkleTree.update_eq]
  unfold Checked.update MerkleTree.updateWith at succeeds
  unfold MerkleTree.updateWith
  split
  · next skips =>
      rw [if_pos skips] at succeeds
      exact succeeds
  next proceeds =>
    rw [if_neg proceeds] at succeeds
    obtain ⟨fed, looped, rfl⟩ := Option.map_eq_some_iff.mp succeeds
    rw [BlockFeed.loop_of_stricter hash_of_checked _ looped, Option.map_some]

theorem moveNodes_of_checked (left n : Nat)
    {source target moved : MerkleWorkStack (Digest hasher.size)}
    (succeeds : Checked.moveNodes left n source target = some moved) :
    MerkleTree.moveNodes left n source target = moved := by
  induction left generalizing n source target with
  | zero => exact Option.some_inj.mp succeeds
  | succ left ih =>
    obtain ⟨node, read, succeeds⟩ := Option.bind_eq_some_iff.mp succeeds
    rw [MerkleTree.moveNodes]
    simp only [release, read]
    exact ih (n + 1) succeeds

theorem finalize_of_checked {done : MerkleTree hasher}
    (succeeds : Checked.finalize tree = some done) : tree.finalize = some done := by
  unfold Checked.finalize at succeeds
  unfold MerkleTree.finalize
  by_cases final : tree.finalized = true
  · rw [if_pos final] at succeeds ⊢
    exact succeeds
  rw [if_neg final] at succeeds ⊢
  obtain ⟨flushed, flush, succeeds⟩ := Option.bind_eq_some_iff.mp succeeds
  obtain ⟨promoted, promotes, succeeds⟩ := Option.bind_eq_some_iff.mp succeeds
  have flushes : (if 0 < tree.currentBlockIndex ∨ tree.count = 0 then
      tree.hash (tree.currentBlock.take tree.currentBlockIndex) else some tree) =
        some flushed := by
    split
    · next asked =>
        rw [if_pos asked] at flush
        exact hash_of_checked flush
    next asked =>
      rw [if_neg asked] at flush
      exact flush
  rw [flushes, Option.bind_some, promote_of_checked promotes]
  obtain ⟨saved, copied, succeeds⟩ := Option.bind_eq_some_iff.mp succeeds
  obtain ⟨reduced, compacted, succeeds⟩ := Option.bind_eq_some_iff.mp succeeds
  obtain ⟨root, first, succeeds⟩ := Option.bind_eq_some_iff.mp succeeds
  obtain ⟨moved, moves, rfl⟩ := Option.map_eq_some_iff.mp succeeds
  have reduces : compactAll hasher.combine promoted.nodes = some reduced :=
    compactAllLoop_of_checked hasher.combine _ compacted
  simp only [MerkleTree.finishRoot, copied, Option.bind_some, reduces, first,
    moveNodes_of_checked _ _ moves]

/-! ## What the checked operations do -/

theorem releaseFirst_checked {xs : List α} {node : α} (holds : Holds stack (xs ++ [node])) :
    Checked.releaseFirst stack = some (node, stack.releaseFirst.2) := by
  rw [Checked.releaseFirst, holds.getFirst, Option.map_some]

/-- One node is its own root. -/
theorem compactAllLoop_single (combine : α → α → α) (fuel : Nat) {xs : List α} {root : α}
    (holds : Holds stack xs) (short : xs.length ≤ 1) (found : treeRoot combine xs = some root) :
    Checked.compactAllLoop combine fuel stack = some stack ∧ Holds stack [root] := by
  have stops : ¬ 1 < stack.pos := by
    rw [holds.pos_eq]
    omega
  have single : xs = [root] := levels_eq_root combine 0 short found
  exact ⟨by cases fuel <;> simp [Checked.compactAllLoop, stops], single ▸ holds⟩

/-- `compact_all()` leaves exactly the root of the nodes it was given. -/
theorem compactAllLoop_spec (combine : α → α → α) (fuel : Nat) {xs : List α} {root : α}
    (holds : Holds stack xs) (enough : xs.length ≤ fuel + 1)
    (found : treeRoot combine xs = some root) :
    ∃ reduced, Checked.compactAllLoop combine fuel stack = some reduced ∧
      Holds reduced [root] ∧ reduced.nodes.length = stack.nodes.length := by
  induction fuel generalizing stack xs with
  | zero =>
    obtain ⟨looped, held⟩ := compactAllLoop_single combine 0 holds enough found
    exact ⟨stack, looped, held, rfl⟩
  | succ fuel ih =>
    by_cases long : 1 < xs.length
    · have longPos : 1 < stack.pos := by
        rw [holds.pos_eq]
        exact long
      have found' := (treeRoot_pairUp combine xs).trans found
      have shorter : (pairUp combine xs).length ≤ fuel + 1 := by
        rw [pairUp_length]
        omega
      rw [Checked.compactAllLoop, if_pos longPos, holds.pos_eq]
      by_cases odd : xs.length % 2 = 1
      · obtain ⟨front, last, rfl⟩ : ∃ front last, xs = front ++ [last] :=
          ⟨xs.dropLast, xs.getLast (by intro empty; simp [empty] at long),
            (dropLast_append_getLast _).symm⟩
        have even : front.length % 2 = 0 := by
          rw [length_append, length_singleton] at odd
          omega
        obtain ⟨rest, restCapacity⟩ := holds.releaseFirst
        obtain ⟨halved, compacted, halvedHolds, capacity⟩ := compact_spec combine rest even
        have free : (pairUp combine front).length < halved.nodes.length := by
          have := rest.length_le
          have := halvedHolds.room
          rw [pairUp_length]
          omega
        have added := halvedHolds.add last
        rw [← pairUp_odd combine even] at added
        obtain ⟨reduced, looped, held, same⟩ := ih added shorter found'
        rw [halvedHolds.add_capacity_of_lt last free, capacity, restCapacity] at same
        refine ⟨reduced, ?_, held, same⟩
        rw [if_pos odd, releaseFirst_checked holds, Option.bind_some]
        simp only [compacted, Option.bind_some]
        exact looped
      · obtain ⟨halved, compacted, halvedHolds, capacity⟩ :=
          compact_spec combine holds (by omega)
        obtain ⟨reduced, looped, held, same⟩ := ih halvedHolds shorter found'
        refine ⟨reduced, ?_, held, same.trans capacity⟩
        rw [if_neg odd, compacted]
        exact looped
    · obtain ⟨looped, held⟩ :=
        compactAllLoop_single combine (fuel + 1) holds (Nat.not_lt.mp long) found
      exact ⟨stack, looped, held, rfl⟩

theorem compactAll_spec (combine : α → α → α) {xs : List α} (holds : Holds stack xs)
    (some' : xs ≠ []) :
    ∃ reduced root, Checked.compactAll combine stack = some reduced ∧
      treeRoot combine xs = some root ∧ Holds reduced [root] ∧
      reduced.nodes.length = stack.nodes.length := by
  obtain ⟨root, found⟩ := exists_treeRoot combine xs some'
  obtain ⟨reduced, looped, held, capacity⟩ :=
    compactAllLoop_spec combine stack.pos holds (by rw [holds.pos_eq]; omega) found
  exact ⟨reduced, root, looped, found, held, capacity⟩

/-- Promoting a non-empty work stack puts its root on the leaf array. -/
theorem promoteWork_spec (tree : MerkleTree hasher) (nodes : Holds tree.nodes xs)
    (work : Holds tree.work ws) (some' : ws ≠ []) :
    ∃ root work', Checked.promoteWork tree =
        some { tree with nodes := tree.nodes.add (some root), work := work' } ∧
      treeRoot hasher.combine ws = some root ∧ Holds (tree.nodes.add (some root)) (xs ++ [root]) ∧
      Holds work' [] ∧ work'.size = 0 := by
  obtain ⟨reduced, root, compacted, found, held, _⟩ :=
    compactAll_spec hasher.combine work some'
  have single : Holds reduced ([] ++ [root]) := held
  refine ⟨root, reduced.releaseFirst.2.clear, ?_, found, nodes.add root,
    single.releaseFirst.1.clear, rfl⟩
  rw [Checked.promoteWork, compacted, Option.bind_some, releaseFirst_checked single,
    Option.map_some]

theorem get_destroy_of_ne {n m : Nat} (ne : n ≠ m) : (stack.destroy n).get m = stack.get m := by
  simp [MerkleWorkStack.get, destroy, MerkleWorkStack.set, getElem?_set_ne ne]

section Copying

variable {source target : MerkleWorkStack (Digest hasher.size)}
  {ys : List (Digest hasher.size)}

/-- Copying the nodes from position `n` on puts them on top of the target. -/
theorem copyNodes_spec (holds : Holds source xs) (left n : Nat)
    (remaining : n + left = xs.length) (targetHolds : Holds target ys) :
    ∃ copied, MerkleTree.copyNodes source left n target = some copied ∧
      Holds copied (ys ++ xs.drop n) := by
  induction left generalizing n target ys with
  | zero =>
    have none' : xs.drop n = [] := drop_of_length_le (by omega)
    exact ⟨target, by rw [MerkleTree.copyNodes], by simpa [none'] using targetHolds⟩
  | succ left ih =>
    have below : n < xs.length := by omega
    obtain ⟨copied, looped, copiedHolds⟩ := ih (n + 1) (by omega) (targetHolds.add xs[n])
    refine ⟨copied, ?_, ?_⟩
    · rw [MerkleTree.copyNodes, holds.get below]
      exact looped
    · rw [drop_eq_getElem_cons below]
      simpa using copiedHolds

/-- Moving the saved leaves back does not grow a target that has room for them. -/
theorem moveNodes_spec (left n : Nat) (remaining : n + left = xs.length)
    (slots : ∀ m, n ≤ m → (below : m < xs.length) → source.get m = some xs[m])
    (targetHolds : Holds target ys) :
    ∃ moved, Checked.moveNodes left n source target = some moved ∧
      Holds moved (ys ++ xs.drop n) ∧
      (ys.length + left ≤ target.nodes.length → moved.nodes.length = target.nodes.length) := by
  induction left generalizing n source target ys with
  | zero =>
    have none' : xs.drop n = [] := drop_of_length_le (by omega)
    exact ⟨target, rfl, by simpa [none'] using targetHolds, fun _ => rfl⟩
  | succ left ih =>
    have below : n < xs.length := by omega
    have later (m : Nat) (after : n + 1 ≤ m) (inside : m < xs.length) :
        (source.destroy n).get m = some xs[m] := by
      rw [get_destroy_of_ne (by omega)]
      exact slots m (by omega) inside
    obtain ⟨moved, moves, held, same⟩ := ih (n + 1) (by omega) later (targetHolds.add xs[n])
    refine ⟨moved, ?_, ?_, fun fits => ?_⟩
    · rw [Checked.moveNodes, slots n (Nat.le_refl _) below]
      exact moves
    · rw [drop_eq_getElem_cons below]
      simpa using held
    · have kept := targetHolds.add_capacity_of_lt xs[n] (by omega)
      rw [same (by rw [length_append, length_singleton]; omega), kept]

end Copying

/-- The last part of `finalize()` stores the root and keeps the leaf nodes, behind what the
work stack still holds. -/
theorem finishRoot_spec (tree : MerkleTree hasher) (nodes : Holds tree.nodes xs)
    (work : Holds tree.work ws) (some' : xs ≠ []) :
    ∃ root nodes' work', Checked.finishRoot tree = some { tree with
        finalizedValue := root, nodes := nodes', work := work', finalized := true } ∧
      treeRoot hasher.combine xs = some root ∧ Holds nodes' (ws ++ xs) ∧
      (ws = [] → nodes'.nodes.length = tree.nodes.nodes.length) := by
  obtain ⟨saved, copied, savedHolds⟩ :=
    copyNodes_spec nodes tree.nodes.pos 0 (by rw [nodes.pos_eq]; omega) work
  obtain ⟨reduced, root, compacted, found, held, capacity⟩ :=
    compactAll_spec hasher.combine nodes some'
  have single : Holds reduced ([] ++ [root]) := held
  have cleared : reduced.clear.nodes.length = tree.nodes.nodes.length := by
    simp [clear, capacity]
  obtain ⟨moved, moves, movedHolds, same⟩ := moveNodes_spec saved.pos 0
    (by rw [savedHolds.pos_eq]; omega) (fun m _ below => savedHolds.get below) held.clear
  refine ⟨root, moved, saved.clear, ?_, found, by simpa using movedHolds, fun empty => ?_⟩
  · rw [Checked.finishRoot, copied, Option.bind_some, compacted, Option.bind_some,
      single.getFirst, Option.bind_some, moves, Option.map_some]
  · have fits := nodes.length_le
    rw [same (by rw [cleared, savedHolds.pos_eq, empty]; simpa using fits), cleared]

/-! ## One block -/

/-- The leaf nodes `xs` and the hashes `ws` of the next group, of an object that has not been
finalised. -/
structure Stacked (tree : MerkleTree hasher) (xs ws : List (Digest hasher.size)) : Prop where
  open' : tree.finalized = false
  nodes : Holds tree.nodes xs
  work : Holds tree.work ws
  workSize : tree.work.size = ws.length % 2 ^ 64
  free : ws ≠ [] → xs.length < tree.nodes.nodes.length

/-- Before a block is hashed, leaf nodes that fill their array are joined in pairs, and the
group size doubles. -/
inductive Joined (combine : α → α → α) (capacity : Nat) (xs : List α) (perLeaf : Nat) :
    List α → Nat → Prop where
  | free (room : xs.length < capacity) : Joined combine capacity xs perLeaf xs perLeaf
  | full (filled : xs.length = capacity) :
      Joined combine capacity xs perLeaf (pairUp combine xs) (perLeaf * 2 % 2 ^ 64)

/-- The hash of a block waits on the work stack, or it completes a group. -/
inductive Placed (combine : α → α → α) (leaf : α) (xs ws : List α) (perLeaf : Nat) :
    List α → List α → Prop where
  | waits (short : (ws.length + 1) % 2 ^ 64 ≠ perLeaf) :
      Placed combine leaf xs ws perLeaf xs (ws ++ [leaf])
  | groups {root : α} (whole : (ws.length + 1) % 2 ^ 64 = perLeaf)
      (found : treeRoot combine (ws ++ [leaf]) = some root) :
      Placed combine leaf xs ws perLeaf (xs ++ [root]) []

namespace Stacked

variable {tree : MerkleTree hasher} {xs ws : List (Digest hasher.size)}

/-- The stacks do not look at the current block and the file size. -/
theorem withInput (stacked : Stacked tree xs ws) (block : List UInt8) (index size : Nat) :
    Stacked { tree with currentBlock := block, currentBlockIndex := index, fileSize := size }
      xs ws :=
  ⟨stacked.open', stacked.nodes, stacked.work, stacked.workSize, stacked.free⟩

/-- After `makeRoom` there is a free slot for the next leaf node. -/
theorem makeRoom (stacked : Stacked tree xs ws) :
    ∃ nodes perLeaf ys, tree.makeRoom =
        some { tree with nodes := nodes, blocksPerLeaf := perLeaf } ∧
      Joined hasher.combine tree.nodes.nodes.length xs tree.blocksPerLeaf ys perLeaf ∧
      Holds nodes ys ∧ nodes.nodes.length = tree.nodes.nodes.length ∧
      ys.length < tree.nodes.nodes.length := by
  have room := stacked.nodes.room
  have even := stacked.nodes.even
  by_cases full : tree.nodes.isFull = true
  · have filled := stacked.nodes.isFull_iff.mp full
    obtain ⟨halved, compacted, held, capacity⟩ :=
      compact_spec hasher.combine stacked.nodes (by omega)
    refine ⟨halved, _, pairUp hasher.combine xs, ?_, .full filled, held, capacity, ?_⟩
    · rw [MerkleTree.makeRoom, if_pos full, compacted, Option.map_some]
    · rw [pairUp_length]
      omega
  · have free := Nat.lt_of_le_of_ne stacked.nodes.length_le
      (fun same => full (stacked.nodes.isFull_iff.mpr same))
    exact ⟨tree.nodes, _, xs, by rw [MerkleTree.makeRoom, if_neg full], .free free,
      stacked.nodes, rfl, free⟩

/-- One more block: either the work stack grows, or it becomes one leaf node. -/
theorem hash (stacked : Stacked tree xs ws) (data : List UInt8) :
    ∃ nodes work perLeaf ys zs vs, Checked.hash tree data = some { tree with
        nodes := nodes, work := work, blocksPerLeaf := perLeaf
        count := (tree.count + 1) % 2 ^ 64 } ∧
      Joined hasher.combine tree.nodes.nodes.length xs tree.blocksPerLeaf ys perLeaf ∧
      Placed hasher.combine (hasher.leafHash data) ys ws perLeaf zs vs ∧
      Stacked { tree with
        nodes := nodes, work := work, blocksPerLeaf := perLeaf
        count := (tree.count + 1) % 2 ^ 64 } zs vs ∧
      nodes.nodes.length = tree.nodes.nodes.length := by
  obtain ⟨nodes, perLeaf, ys, made, joined, held, capacity, free⟩ := stacked.makeRoom
  have added := stacked.work.add (hasher.leafHash data)
  have notFinal : ¬ tree.finalized = true := by simp [stacked.open']
  have size : (tree.work.add (some (hasher.leafHash data))).size = (ws.length + 1) % 2 ^ 64 := by
    have before := stacked.workSize
    rw [add_size]
    omega
  have hashes : Checked.hash tree data =
      (if (ws.length + 1) % 2 ^ 64 = perLeaf then Checked.promoteWork { tree with
        nodes := nodes, blocksPerLeaf := perLeaf
        work := tree.work.add (some (hasher.leafHash data)) }
      else some { tree with
        nodes := nodes, blocksPerLeaf := perLeaf
        work := tree.work.add (some (hasher.leafHash data)) }).map
        fun promoted => { promoted with count := (promoted.count + 1) % 2 ^ 64 } := by
    rw [Checked.hash, if_neg notFinal, made, Option.bind_some]
    simp only [size]
  by_cases whole : (ws.length + 1) % 2 ^ 64 = perLeaf
  · obtain ⟨root, work, promoted, found, more, emptied, noSize⟩ :=
      promoteWork_spec { tree with
        nodes := nodes, blocksPerLeaf := perLeaf
        work := tree.work.add (some (hasher.leafHash data)) } held added (by simp)
    refine ⟨nodes.add (some root), work, perLeaf, ys, ys ++ [root], [], ?_, joined,
      .groups whole found,
      ⟨stacked.open', more, emptied, noSize, fun none' => absurd rfl none'⟩, ?_⟩
    · rw [hashes, if_pos whole, promoted]
      rfl
    · exact (held.add_capacity_of_lt root (by omega)).trans capacity
  · refine ⟨nodes, _, perLeaf, ys, ys, ws ++ [hasher.leafHash data], ?_, joined,
      .waits whole, ⟨stacked.open', held, added, ?_, fun _ => ?_⟩, capacity⟩
    · rw [hashes, if_neg whole]
      rfl
    · rw [length_append]
      exact size
    · exact free.trans_eq capacity.symm

end Stacked

/-- What is left on the work stack becomes the last leaf node. -/
inductive Ended (combine : α → α → α) (xs ws : List α) : List α → List α → Prop where
  | none (whole : ws.length % 2 ^ 64 = 0) : Ended combine xs ws xs ws
  | tail {root : α} (rest : ws.length % 2 ^ 64 ≠ 0) (found : treeRoot combine ws = some root) :
      Ended combine xs ws (xs ++ [root]) []

/-- The part of `finalize()` after the last block has been hashed. -/
theorem Stacked.finalize {flushed : MerkleTree hasher} (notFinal : tree.finalized = false)
    (flush : (if 0 < tree.currentBlockIndex ∨ tree.count = 0 then
        Checked.hash tree (tree.currentBlock.take tree.currentBlockIndex) else some tree) =
      some flushed)
    (stacked : Stacked flushed xs ws) (some' : xs ≠ [] ∨ ws.length % 2 ^ 64 ≠ 0) :
    ∃ nodes work root zs us, Checked.finalize tree = some { flushed with
        finalizedValue := root, nodes := nodes, work := work, finalized := true } ∧
      Ended hasher.combine xs ws zs us ∧ treeRoot hasher.combine zs = some root ∧
      Holds nodes (us ++ zs) ∧ (us = [] → nodes.nodes.length = flushed.nodes.nodes.length) := by
  -- the work stack, if its size is not zero, is promoted before the root is taken
  obtain ⟨nodes, work, zs, us, promoted, ended, held, rest, more, capacity⟩ :
      ∃ nodes work zs us,
        (if flushed.work.size ≠ 0 then Checked.promoteWork flushed else some flushed) =
          some { flushed with nodes := nodes, work := work } ∧
        Ended hasher.combine xs ws zs us ∧ Holds nodes zs ∧ Holds work us ∧ zs ≠ [] ∧
        nodes.nodes.length = flushed.nodes.nodes.length := by
    rw [stacked.workSize]
    by_cases whole : ws.length % 2 ^ 64 = 0
    · rw [if_neg (not_not.mpr whole)]
      exact ⟨flushed.nodes, flushed.work, xs, ws, rfl, .none whole, stacked.nodes, stacked.work,
        some'.resolve_right (not_not.mpr whole), rfl⟩
    have pending : ws ≠ [] := by
      rintro rfl
      exact whole rfl
    obtain ⟨root, work, promoted, found, held, emptied, _⟩ :=
      promoteWork_spec flushed stacked.nodes stacked.work pending
    rw [if_pos whole]
    exact ⟨_, work, xs ++ [root], [], promoted, .tail whole found, held, emptied, by simp,
      stacked.nodes.add_capacity_of_lt root (stacked.free pending)⟩
  obtain ⟨root, nodes', work', finished, found, kept, same⟩ :=
    finishRoot_spec { flushed with nodes := nodes, work := work } held rest more
  refine ⟨nodes', work', root, zs, us, ?_, ended, found, kept, fun empty =>
    (same empty).trans capacity⟩
  rw [Checked.finalize, if_neg (by simp [notFinal]), flush, Option.bind_some, promoted,
    Option.bind_some, finished]

end SamuraiFormal.Crypto
