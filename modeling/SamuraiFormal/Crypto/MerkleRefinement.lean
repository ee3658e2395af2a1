import SamuraiFormal.Crypto.MerkleChecked
import SamuraiFormal.Crypto.MerkleReference

/-!
# The tree keeps the roots of groups of blocks

The invariant ties both stacks to aligned groups of blocks: the leaf array holds `levels k` of
the first `q * 2 ^ k` leaf hashes and the work stack holds the leaf hashes after them.  Halving
the leaf array moves `k` up by one, and only when no smaller groups would fit; promoting the
work stack moves `q` up by one.  At finalisation the two stacks together are `levels k` of all
leaf hashes, whose root is the root of the whole list.
-/

namespace SamuraiFormal.Crypto

open Library

open Library.PairTree

open MerkleWorkStack
open List

variable {α : Type} {maxLevels blockSize : Nat} {full : List (List UInt8)} {pending : List UInt8}

/-! ## Groups of leaf hashes -/

/-- The nodes `xs` are those of the first `q` groups of `2 ^ k` leaf hashes, and `ws` is the
part of the next group that has been hashed. -/
structure Grouped (combine : α → α → α) (leaves : List α) (k q : Nat) (xs ws : List α) : Prop where
  cut : ∃ front, leaves = front ++ ws ∧ front.length = q * 2 ^ k ∧ xs = levels combine k front
  short : ws.length < 2 ^ k

namespace Grouped

variable {combine : α → α → α} {leaves xs ws ys zs : List α} {leaf : α} {k q capacity perLeaf : Nat}

theorem count (grouped : Grouped combine leaves k q xs ws) : xs.length = q := by
  obtain ⟨front, _, whole, rfl⟩ := grouped.cut
  exact levels_length_of_groups combine k q whole

theorem total (grouped : Grouped combine leaves k q xs ws) :
    leaves.length = q * 2 ^ k + ws.length := by
  obtain ⟨front, rfl, whole, _⟩ := grouped.cut
  rw [length_append, whole]

/-- Groups of twice the size are needed for one more block just if the nodes fill the array;
the number of blocks bounds the shift, so `m_blocks_per_leaf` does not wrap. -/
theorem joined (grouped : Grouped combine leaves k q xs ws) (small : k < 64)
    (even : capacity % 2 = 0) (free : ws ≠ [] → xs.length < capacity)
    (bound : leaves.length < capacity * 2 ^ 63)
    (least : ∀ j, leaves.length ≤ 2 ^ j * capacity → k ≤ j)
    (joined : Joined combine capacity xs (2 ^ k) ys perLeaf) :
    ∃ k' q', perLeaf = 2 ^ k' ∧ k' < 64 ∧ Grouped combine leaves k' q' ys ws ∧
      ∀ j, leaves.length + 1 ≤ 2 ^ j * capacity → k' ≤ j := by
  cases joined with
  | free =>
    exact ⟨k, q, rfl, small, grouped, fun j few => least j (by omega)⟩
  | full filled =>
    have none' : ws = [] := by
      by_contra some'
      exact absurd filled (Nat.ne_of_lt (free some'))
    obtain ⟨front, shape, whole, rfl⟩ := grouped.cut
    have length : leaves.length = capacity * 2 ^ k := by
      rw [grouped.total, ← grouped.count, filled, none', length_nil, Nat.add_zero]
    have shift : k < 63 := by
      rw [length] at bound
      exact (Nat.pow_lt_pow_iff_right (by omega)).mp (Nat.lt_of_mul_lt_mul_left bound)
    refine ⟨k + 1, capacity / 2, ?_, by omega, ⟨⟨front, shape, ?_, ?_⟩, ?_⟩, fun j few => ?_⟩
    · rw [← Nat.pow_succ]
      exact Nat.mod_eq_of_lt (Nat.pow_lt_pow_right (by omega) (by omega))
    · have twice : 2 * (capacity / 2) = capacity := by omega
      rw [whole, ← grouped.count, filled, Nat.pow_succ', ← Nat.mul_assoc,
        Nat.mul_comm (capacity / 2), twice]
    · rw [levels_succ]
    · rw [none']
      exact Nat.two_pow_pos _
    · rw [length, Nat.mul_comm] at few
      exact (Nat.pow_lt_pow_iff_right (by omega)).mp
        (Nat.lt_of_mul_lt_mul_right (Nat.lt_of_succ_le few))

/-- A leaf hash that completes its group takes the root of the group to the nodes. -/
theorem placed {vs : List α} (grouped : Grouped combine leaves k q ys ws) (small : k < 64)
    (placed : Placed combine leaf ys ws (2 ^ k) zs vs) :
    ∃ q', Grouped combine (leaves ++ [leaf]) k q' zs vs := by
  obtain ⟨front, rfl, whole, rfl⟩ := grouped.cut
  have short := grouped.short
  have below := Nat.pow_lt_pow_right (by omega : 1 < 2) small
  cases placed with
  | waits waits =>
    refine ⟨q, ⟨front, by rw [append_assoc], whole, rfl⟩, ?_⟩
    rw [length_append, length_singleton]
    omega
  | groups completes found =>
    have group : (ws ++ [leaf]).length = 2 ^ k := by
      rw [length_append, length_singleton]
      omega
    refine ⟨q + 1, ⟨front ++ (ws ++ [leaf]), by simp, ?_, ?_⟩, Nat.two_pow_pos k⟩
    · rw [length_append, whole, group, Nat.succ_mul]
    · rw [levels_append combine k q whole, levels_eq_root combine k (Nat.le_of_eq group) found]

/-- With the last group, which may be short, the nodes are those of all leaf hashes. -/
theorem ended {us : List α} (grouped : Grouped combine leaves k q xs ws) (small : k < 64)
    (ended : Ended combine xs ws zs us) : us = [] ∧ zs = levels combine k leaves := by
  obtain ⟨front, rfl, whole, rfl⟩ := grouped.cut
  have short := grouped.short
  have below := Nat.pow_lt_pow_right (by omega : 1 < 2) small
  cases ended with
  | none size =>
    have none' : ws = [] := eq_nil_of_length_eq_zero (by omega)
    exact ⟨none', by rw [none', append_nil]⟩
  | tail _ found =>
    rw [levels_append combine k q whole, levels_eq_root combine k (Nat.le_of_lt short) found]
    exact ⟨rfl, rfl⟩

end Grouped

namespace MerkleTree

variable {hasher : Hasher}

/-! ## One block -/

/-- The tree after the blocks with the leaf hashes `leaves`, in the least groups that fit. -/
structure Hashed (tree : MerkleTree hasher) (maxLevels : Nat)
    (leaves : List (Digest hasher.size)) (k : Nat) : Prop where
  maxLeaves : tree.maxLeaves = 2 ^ (maxLevels - 1)
  capacity : tree.nodes.nodes.length = 2 ^ (maxLevels - 1)
  perLeaf : tree.blocksPerLeaf = 2 ^ k
  small : k < 64
  grouped : ∃ q xs ws, Stacked tree xs ws ∧ Grouped hasher.combine leaves k q xs ws
  least : ∀ j, leaves.length ≤ 2 ^ j * 2 ^ (maxLevels - 1) → k ≤ j
  count : tree.count = leaves.length % 2 ^ 64

namespace Hashed

variable {tree : MerkleTree hasher} {maxLevels k : Nat} {leaves : List (Digest hasher.size)}

theorem open' (hashed : Hashed tree maxLevels leaves k) : tree.finalized = false := by
  obtain ⟨_, _, _, stacked, _⟩ := hashed.grouped
  exact stacked.open'

theorem withInput (hashed : Hashed tree maxLevels leaves k) (block : List UInt8)
    (index size : Nat) :
    Hashed { tree with currentBlock := block, currentBlockIndex := index, fileSize := size }
      maxLevels leaves k := by
  obtain ⟨q, xs, ws, stacked, grouped⟩ := hashed.grouped
  exact ⟨hashed.maxLeaves, hashed.capacity, hashed.perLeaf, hashed.small,
    ⟨q, xs, ws, stacked.withInput block index size, grouped⟩, hashed.least, hashed.count⟩

/-- All groups fit into the leaf array. -/
theorem fits (hashed : Hashed tree maxLevels leaves k) :
    leaves.length ≤ 2 ^ k * 2 ^ (maxLevels - 1) := by
  obtain ⟨q, xs, ws, stacked, grouped⟩ := hashed.grouped
  rw [grouped.total, ← hashed.capacity, Nat.mul_comm (2 ^ k)]
  have within := stacked.nodes.length_le
  rw [grouped.count] at within
  by_cases none' : ws = []
  · rw [none', length_nil, Nat.add_zero]
    exact Nat.mul_le_mul_right _ within
  have free := stacked.free none'
  have short := grouped.short
  have more : (q + 1) * 2 ^ k ≤ tree.nodes.nodes.length * 2 ^ k := by
    rw [grouped.count] at free
    exact Nat.mul_le_mul_right _ free
  rw [Nat.succ_mul] at more
  omega

/-- Hashing one more block appends its leaf hash. -/
theorem hash (hashed : Hashed tree maxLevels leaves k)
    (bound : leaves.length < 2 ^ (62 + maxLevels)) (data : List UInt8) :
    ∃ nodes work perLeaf k',
      Checked.hash tree data = some { tree with
        nodes := nodes, work := work, blocksPerLeaf := perLeaf
        count := (tree.count + 1) % 2 ^ 64 } ∧
      Hashed { tree with
        nodes := nodes, work := work, blocksPerLeaf := perLeaf
        count := (tree.count + 1) % 2 ^ 64 } maxLevels (leaves ++ [hasher.leafHash data]) k' := by
  obtain ⟨q, xs, ws, stacked, grouped⟩ := hashed.grouped
  obtain ⟨nodes, work, perLeaf, ys, zs, vs, hashEq, joined, placed, stacked', capacity⟩ :=
    stacked.hash data
  have wide : leaves.length < 2 ^ (maxLevels - 1) * 2 ^ 63 := by
    rw [← Nat.pow_add]
    exact Nat.lt_of_lt_of_le bound (Nat.pow_le_pow_right (by omega) (by omega))
  have free := stacked.free
  have even := stacked.nodes.even
  rw [hashed.perLeaf, hashed.capacity] at joined
  rw [hashed.capacity] at free even capacity
  obtain ⟨k', q', rfl, small, grouped', least⟩ := grouped.joined hashed.small
    even free wide hashed.least joined
  obtain ⟨q'', grouped''⟩ := grouped'.placed small placed
  refine ⟨nodes, work, _, k', hashEq, hashed.maxLeaves, capacity, rfl, small,
    ⟨q'', zs, vs, stacked', grouped''⟩, ?_, ?_⟩
  · rw [length_append]
    exact least
  · have := hashed.count
    rw [length_append, length_singleton]
    show (tree.count + 1) % 2 ^ 64 = _
    omega

end Hashed

variable {tree : MerkleTree hasher}

/-! ## Whole inputs -/

section Updates

variable {hash : MerkleTree hasher → List UInt8 → Option (MerkleTree hasher)}
  {Inv : MerkleTree hasher → List (List UInt8) → Prop} {limit blockSize : Nat}

/-- `update()` keeps what one more block carries on. -/
theorem updateWith_carries (carries : blockFeed.Carries hash Inv limit)
    (withSize : ∀ {tree full} size, Inv tree full → Inv { tree with fileSize := size } full)
    (data : List UInt8) (open' : tree.finalized = false)
    (state : blockFeed.Buffered tree blockSize full pending) (inv : Inv tree full)
    (bound : (full.flatten ++ pending ++ data).length < blockSize * limit) :
    ∃ updated full' pending', updateWith hash tree data = some updated ∧
      blockFeed.Buffered updated blockSize full' pending' ∧ Inv updated full' ∧
      full'.flatten ++ pending' = full.flatten ++ pending ++ data := by
  by_cases empty : data = []
  · exact ⟨tree, full, pending, by simp [updateWith, empty], state, inv, by simp [empty]⟩
  have proceed : ¬ (data = [] ∨ tree.finalized = true ∨
      tree.blockSize ≤ tree.currentBlockIndex) := by
    have short := state.short
    have size : tree.blockSize = blockSize := state.sizeEq
    have index : tree.currentBlockIndex = pending.length := state.index
    rw [open']
    simp [empty]
    omega
  obtain ⟨updated, full', pending', looped, state', inv', joined⟩ :=
    carries.loop blockFeed_lawful data.length data (Nat.le_refl _) state inv bound
  refine ⟨{ updated with fileSize := (updated.fileSize + data.length) % 2 ^ 64 },
    full', pending', ?_, ?_, withSize _ inv', joined⟩
  · rw [updateWith, if_neg proceed, looped]
    rfl
  · exact ⟨state'.sizeEq, state'.sizes, state'.short, state'.blockLength, state'.index,
      state'.current⟩

end Updates

/-- Hashed blocks are carried on. -/
theorem carries_hashed :
    blockFeed.Carries Checked.hash (fun (tree : MerkleTree hasher) full =>
      ∃ k, Hashed tree maxLevels (full.map hasher.leafHash) k) (2 ^ (62 + maxLevels)) where
  put := fun block index ⟨k, hashed⟩ => ⟨k, hashed.withInput block index _⟩
  hash := by
    rintro tree full ⟨k, hashed⟩ room data
    obtain ⟨nodes, work, perLeaf, k', hashEq, hashed'⟩ :=
      hashed.hash (by rw [length_map]; exact room) data
    exact ⟨_, hashEq, rfl, rfl, rfl, k', by
      rw [map_append]
      exact hashed'⟩

/-- The object between `update()` calls: `full` blocks have been hashed and the
bytes `pending` wait in the current block. -/
def Accumulates (tree : MerkleTree hasher) (blockSize maxLevels : Nat)
    (full : List (List UInt8)) (pending : List UInt8) : Prop :=
  blockFeed.Buffered tree blockSize full pending ∧
    ∃ k, Hashed tree maxLevels (full.map hasher.leafHash) k

/-- `update()` on an object that has not been finalised. -/
theorem update_spec (data : List UInt8) (state : Accumulates tree blockSize maxLevels full pending)
    (bound : (full.flatten ++ pending ++ data).length < blockSize * 2 ^ (62 + maxLevels)) :
    ∃ updated full' pending', tree.update data = some updated ∧
      Accumulates updated blockSize maxLevels full' pending' ∧
      full'.flatten ++ pending' = full.flatten ++ pending ++ data := by
  obtain ⟨buffered, k, hashed⟩ := state
  obtain ⟨updated, full', pending', updateEq, buffered', hashed', joined⟩ :=
    updateWith_carries carries_hashed (fun size ⟨k, hashed⟩ => ⟨k, hashed.withInput _ _ size⟩)
      data hashed.open' buffered ⟨k, hashed⟩ bound
  exact ⟨updated, full', pending', update_of_checked updateEq, ⟨buffered', hashed'⟩, joined⟩

/-- The blocks that `finalize()` has hashed at its end: a wrapped block counter is
read as an empty input. -/
def finalBlocks (full : List (List UInt8)) (pending : List UInt8) : List (List UInt8) :=
  if 0 < pending.length ∨ full.length % 2 ^ 64 = 0 then full ++ [pending] else full

theorem finalBlocks_ne_nil (full : List (List UInt8)) (pending : List UInt8) :
    finalBlocks full pending ≠ [] := by
  unfold finalBlocks
  split
  · simp
  next other =>
    intro empty
    simp [empty] at other

/-- What a finalised tree keeps of the leaf hashes `leaves`: their root, and the roots of the
least groups that fit. -/
structure Retained (tree : MerkleTree hasher) (maxLevels : Nat)
    (leaves : List (Digest hasher.size)) (k : Nat) : Prop where
  fits : leaves.length ≤ 2 ^ k * 2 ^ (maxLevels - 1)
  least : ∀ j, leaves.length ≤ 2 ^ j * 2 ^ (maxLevels - 1) → k ≤ j
  root : treeRoot hasher.combine leaves = some tree.finalizedValue
  nodes : Holds tree.nodes (levels hasher.combine k leaves)
  capacity : tree.nodes.nodes.length = 2 ^ (maxLevels - 1)
  perLeaf : tree.blocksPerLeaf = 2 ^ k

/-- `finalize()` first hashes the tail, or the one empty block. -/
theorem flush_spec (state : Accumulates tree blockSize maxLevels full pending)
    (bound : full.length < 2 ^ (62 + maxLevels)) :
    ∃ flushed k,
      (if 0 < tree.currentBlockIndex ∨ tree.count = 0 then
        Checked.hash tree (tree.currentBlock.take tree.currentBlockIndex) else some tree) =
          some flushed ∧
      flushed.blockSize = tree.blockSize ∧ flushed.currentBlock = tree.currentBlock ∧
      Hashed flushed maxLevels ((finalBlocks full pending).map hasher.leafHash) k := by
  obtain ⟨buffered, k, hashed⟩ := state
  have index : tree.currentBlockIndex = pending.length := buffered.index
  have current : tree.currentBlock.take pending.length = pending := buffered.current
  have counted : tree.count = full.length % 2 ^ 64 := by simpa using hashed.count
  rw [index, current, counted, finalBlocks]
  by_cases tailed : 0 < pending.length ∨ full.length % 2 ^ 64 = 0
  · obtain ⟨flushed, hashEq, sameSize, sameBlock, _, k', hashed'⟩ :=
      carries_hashed.hash ⟨k, hashed⟩ bound pending
    rw [if_pos tailed, if_pos tailed]
    exact ⟨flushed, k', hashEq, sameSize, sameBlock, hashed'⟩
  · rw [if_neg tailed, if_neg tailed]
    exact ⟨tree, k, rfl, rfl, rfl, hashed⟩

/-- `finalize()` keeps the least groups of all blocks, the last one included. -/
theorem finalize_spec (state : Accumulates tree blockSize maxLevels full pending)
    (bound : full.length < 2 ^ (62 + maxLevels)) :
    ∃ done k, tree.finalize = some done ∧ done.finalized = true ∧
      done.blockSize = tree.blockSize ∧ done.currentBlock = tree.currentBlock ∧
      done.maxLeaves = 2 ^ (maxLevels - 1) ∧
      Retained done maxLevels ((finalBlocks full pending).map hasher.leafHash) k := by
  obtain ⟨flushed, k, flush, sameSize, sameBlock, hashed⟩ := flush_spec state bound
  obtain ⟨_, _, before⟩ := state
  obtain ⟨q, xs, ws, stacked, grouped⟩ := hashed.grouped
  have some' : xs ≠ [] ∨ ws.length % 2 ^ 64 ≠ 0 := by
    have blocks := length_pos_of_ne_nil (finalBlocks_ne_nil full pending)
    have total := grouped.total
    have short := grouped.short
    have below := Nat.pow_lt_pow_right (by omega : 1 < 2) hashed.small
    rw [length_map] at total
    rw [← length_pos_iff, grouped.count]
    rcases Nat.eq_zero_or_pos q with rfl | positive
    · rw [Nat.zero_mul] at total
      omega
    · exact .inl positive
  obtain ⟨nodes, work, root, zs, us, final, ended, found, held, same⟩ :=
    stacked.finalize before.open' flush some'
  obtain ⟨rfl, rfl⟩ := grouped.ended hashed.small ended
  rw [treeRoot_levels] at found
  exact ⟨_, k, finalize_of_checked final, rfl, sameSize, sameBlock, hashed.maxLeaves,
    hashed.fits, hashed.least, found, held, (same rfl).trans hashed.capacity, hashed.perLeaf⟩

end MerkleTree

end SamuraiFormal.Crypto
