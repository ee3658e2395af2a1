import Mathlib
import SamuraiFormal.Crypto.MerkleLeaves

/-!
# The leaves a tree retains

`hash()` doubles the group size only when the leaf array is full, so the groups are never
larger than the array makes them: after `digest()` the tree keeps the roots of groups of
`2 ^ k` blocks for the least `k` with which all groups fit.

`getLevels()` answers from the group size instead of the number of retained leaves.
-/

namespace SamuraiFormal.Crypto

open Library.PairTree

open Library.BlockFeed (flatten_length_of_sizes)

open MerkleWorkStack
open List

/-- `getCapacity()`. -/
def MerkleWorkStack.getCapacity {α : Type} (stack : MerkleWorkStack α) : Nat :=
  stack.nodes.length

variable {blockSize maxLevels : Nat}

variable {reference : Reference} {k : Nat}

namespace MerkleTree

variable {hasher : Hasher}

/-- `maxLeaves()`: the capacity of the leaf array, not the member of the same name. -/
def getMaxLeaves (tree : MerkleTree hasher) : Nat := tree.nodes.getCapacity

/-- `getLevels()`; `m_max_levels` is the constructor's argument and never changes. -/
def getLevels (tree : MerkleTree hasher) (maxLevels : Nat) : Nat :=
  if maxLevels < tree.blocksPerLeaf then maxLevels else tree.blocksPerLeaf

variable {tree : MerkleTree hasher}

/-- Groups half the size do not fit. -/
theorem isLeast_groups {length capacity : Nat} (fits : length ≤ 2 ^ (k + 1) * capacity)
    (tight : 2 ^ k * capacity < length) : IsLeast { k | length ⌈/⌉ 2 ^ k ≤ capacity } (k + 1) := by
  refine ⟨(ceilDiv_le_iff_le_mul (Nat.two_pow_pos _)).mpr fits, fun j member => ?_⟩
  have few := (ceilDiv_le_iff_le_mul (Nat.two_pow_pos j)).mp member
  exact (Nat.pow_lt_pow_iff_right (by omega)).mp
    (Nat.lt_of_mul_lt_mul_right (Nat.lt_of_lt_of_le tight few))

namespace Retained

variable {tree : MerkleTree hasher} {maxLevels k : Nat} {leaves : List (Digest hasher.size)}

/-- The groups are as small as the leaf array allows. -/
theorem isLeast (retained : Retained tree maxLevels leaves k) :
    IsLeast { k | leaves.length ⌈/⌉ 2 ^ k ≤ 2 ^ (maxLevels - 1) } k :=
  ⟨(ceilDiv_le_iff_le_mul (Nat.two_pow_pos k)).mpr retained.fits, fun j fits =>
    retained.least j ((ceilDiv_le_iff_le_mul (Nat.two_pow_pos j)).mp fits)⟩

theorem countLeaves_eq (retained : Retained tree maxLevels leaves k) :
    tree.countLeaves = leaves.length ⌈/⌉ 2 ^ k := by
  rw [countLeaves, retained.nodes.pos_eq, levels_length]

theorem leaves_eq (retained : Retained tree maxLevels leaves k) :
    tree.leaves = (List.range (leaves.length ⌈/⌉ 2 ^ k)).map fun i =>
      treeRoot hasher.combine (group (2 ^ k) i leaves) := by
  rw [leaves_of_holds retained.nodes, levels_eq_groups]

end Retained

/-- At every moment the leaf array has its capacity and holds no more than that. -/
theorem Tracks.within (tracks : Tracks tree blockSize maxLevels reference) :
    tree.countLeaves ≤ 2 ^ (maxLevels - 1) ∧ tree.getMaxLeaves = 2 ^ (maxLevels - 1) := by
  have held : ∃ xs, Holds tree.nodes xs ∧ tree.nodes.nodes.length = 2 ^ (maxLevels - 1) := by
    cases tracks with
    | fed state =>
      obtain ⟨_, _, hashed⟩ := state
      obtain ⟨_, xs, _, stacked, _⟩ := hashed.grouped
      exact ⟨xs, stacked.nodes, hashed.capacity⟩
    | done _ _ _ _ retained => exact ⟨_, retained.nodes, retained.capacity⟩
  obtain ⟨xs, holds, capacity⟩ := held
  refine ⟨?_, capacity⟩
  rw [countLeaves, holds.pos_eq, ← capacity]
  exact holds.length_le

/-- Any use of the object, and `digest()` after it. -/
theorem run_digest (hasher : Hasher) (positive : 0 < blockSize) (deep : 2 ≤ maxLevels)
    (bound : maxLevels ≤ 63) {calls : List Call}
    (countable : Reference.fresh.Countable blockSize calls) :
    ∃ tree done k, (create hasher blockSize maxLevels).run calls = some tree ∧
      tree.digest = some (done, done.finalizedValue) ∧
      Tracks tree blockSize maxLevels (Reference.fresh.run calls) ∧
      Tracks done blockSize maxLevels ((Reference.fresh.run calls).step .digest) ∧
      Retained done maxLevels
        ((cutBlocks blockSize (Reference.fresh.run calls).input).map hasher.leafHash) k := by
  obtain ⟨tree, _, runEq, _, _, tracks, few⟩ :=
    (create_tracks hasher positive deep bound).run positive deep calls countable
  obtain ⟨done, k, digestEq, tracks', retained⟩ := tracks.digest positive deep few
  exact ⟨tree, done, k, runEq, digestEq, tracks, tracks', retained⟩

/-- In every state of every use the leaf array keeps its capacity, and `digest()` retains
the roots of the groups of `2 ^ k` blocks for the least `k` with which they fit. -/
theorem retains_least_groups (hasher : Hasher) (blockSize maxLevels : Nat)
    (positive : 1 ≤ blockSize) (deep : 2 ≤ maxLevels) (bound : maxLevels ≤ 63)
    (calls : List Call) (countable : Reference.fresh.Countable blockSize calls) :
    ∃ tree done value k, (create hasher blockSize maxLevels).run calls = some tree ∧
      tree.countLeaves ≤ 2 ^ (maxLevels - 1) ∧ tree.getMaxLeaves = 2 ^ (maxLevels - 1) ∧
      tree.digest = some (done, value) ∧
      done.countLeaves ≤ 2 ^ (maxLevels - 1) ∧ done.getMaxLeaves = 2 ^ (maxLevels - 1) ∧
      let blocks := cutBlocks blockSize (Reference.fresh.run calls).input
      IsLeast { k | blocks.length ⌈/⌉ 2 ^ k ≤ 2 ^ (maxLevels - 1) } k ∧
        done.countLeaves = blocks.length ⌈/⌉ 2 ^ k ∧
        done.leaves = (List.range (blocks.length ⌈/⌉ 2 ^ k)).map fun i =>
          treeRoot hasher.combine (group (2 ^ k) i (blocks.map hasher.leafHash)) := by
  obtain ⟨tree, done, k, runEq, digestEq, tracks, tracks', retained⟩ :=
    run_digest hasher positive deep bound countable
  have least := retained.isLeast
  have count := retained.countLeaves_eq
  have kept := retained.leaves_eq
  rw [length_map] at least count kept
  exact ⟨tree, done, _, k, runEq, tracks.within.1, tracks.within.2, digestEq,
    tracks'.within.1, tracks'.within.2, least, count, kept⟩

/-- Three blocks after a reset, in two leaves. -/
theorem retains_least_groups_depth :
    ∃ tree done value k, (create depthHasher 2 2).run
        [.update [1, 2, 3], .digest, .reset, .update [1, 2, 3], .update [4, 5]] = some tree ∧
      tree.countLeaves ≤ 2 ^ (2 - 1) ∧ tree.getMaxLeaves = 2 ^ (2 - 1) ∧
      tree.digest = some (done, value) ∧
      done.countLeaves ≤ 2 ^ (2 - 1) ∧ done.getMaxLeaves = 2 ^ (2 - 1) ∧
      let blocks := cutBlocks 2 [1, 2, 3, 4, 5]
      IsLeast { k | blocks.length ⌈/⌉ 2 ^ k ≤ 2 ^ (2 - 1) } k ∧
        done.countLeaves = blocks.length ⌈/⌉ 2 ^ k ∧
        done.leaves = (List.range (blocks.length ⌈/⌉ 2 ^ k)).map fun i =>
          treeRoot depthHasher.combine (group (2 ^ k) i (blocks.map depthHasher.leafHash)) :=
  retains_least_groups depthHasher 2 2 (by decide) (by decide) (by decide)
    [.update [1, 2, 3], .digest, .reset, .update [1, 2, 3], .update [4, 5]]
    (by
      have few (input : List UInt8) (short : input.length ≤ 5) :
          (cutBlocks 2 input).length < 2 ^ 64 := by
        rw [cutBlocks_length (by decide)]
        omega
      exact ⟨few [] (by decide), few [1, 2, 3] (by decide), few [1, 2, 3] (by decide),
        few [] (by decide), few [1, 2, 3] (by decide), few [1, 2, 3, 4, 5] (by decide)⟩)

/-- An input of `2 ^ 64` blocks has four groups of `2 ^ 62`, but the wrapped block counter
adds an empty block, so the groups are doubled and three are kept. -/
theorem retains_wrapped_count :
    ∃ tree done value, (create depthHasher 1 3).run [.update halfCount, .update halfCount] =
        some tree ∧
      tree.digest = some (done, value) ∧ done.countLeaves = 3 ∧
      (cutBlocks 1 (Reference.fresh.run [.update halfCount, .update halfCount]).input).length =
        2 ^ 64 ∧
      IsLeast { k | 2 ^ 64 ⌈/⌉ 2 ^ k ≤ 2 ^ (3 - 1) } 62 ∧ 2 ^ 64 ⌈/⌉ 2 ^ 62 = 4 := by
  obtain ⟨fed, tree, done, k, fedEq, updateEq, finalized, retained⟩ :=
    retained_wrapped (Nat.le_refl 3) (by decide)
  have extra : (List.replicate (2 ^ 64) (depthNode 0) ++ [depthNode 0]).length = 2 ^ 64 + 1 := by
    rw [length_append, length_replicate, length_singleton]
  have size : k = 63 := by
    have least := retained.isLeast
    rw [extra] at least
    exact least.unique (isLeast_groups (by decide) (by decide))
  refine ⟨tree, done, done.finalizedValue, ?_, by rw [digest, finalized, Option.map_some], ?_,
    ?_, isLeast_groups (by decide) (by decide), by decide⟩
  · simp [run, call, fedEq, updateEq]
  · rw [retained.countLeaves_eq, extra, size]
    decide
  · show (cutBlocks 1 ([] ++ halfCount ++ halfCount)).length = 2 ^ 64
    rw [cutBlocks_length Nat.one_pos, nil_append, halfCount_append, length_replicate, Nat.div_one,
      Nat.sub_add_cancel (Nat.two_pow_pos 64)]

/-- Once blocks have been grouped, more than half of the leaf array stays in use. -/
theorem clog_countLeaves {length : Nat} (deep : 2 ≤ maxLevels)
    (least : IsLeast { k | length ⌈/⌉ 2 ^ k ≤ 2 ^ (maxLevels - 1) } k) (grouped : 0 < k) :
    Nat.clog 2 (length ⌈/⌉ 2 ^ k) = maxLevels - 1 := by
  have upper := Nat.clog_le_of_le_pow least.1
  have lower : maxLevels - 2 < Nat.clog 2 (length ⌈/⌉ 2 ^ k) := by
    rw [Nat.lt_clog_iff_pow_lt (by omega), ← Nat.not_le,
      ceilDiv_le_iff_le_mul (Nat.two_pow_pos k)]
    intro few
    -- groups of half the size would have fitted as well
    have halves : 2 ^ k * 2 ^ (maxLevels - 2) = 2 ^ (k - 1) * 2 ^ (maxLevels - 1) := by
      rw [← Nat.pow_add, ← Nat.pow_add]
      congr 1
      omega
    rw [halves] at few
    have smaller := least.2 ((ceilDiv_le_iff_le_mul (Nat.two_pow_pos (k - 1))).mpr few)
    omega
  omega

/-- `getLevels()` is the number of levels over the retained leaves exactly for one block and
for inputs whose group size has reached the number of levels. -/
theorem Retained.getLevels_iff {leaves : List (Digest hasher.size)}
    (retained : Retained tree maxLevels leaves k) (deep : 2 ≤ maxLevels) (nonempty : leaves ≠ []) :
    tree.getLevels maxLevels = Nat.clog 2 tree.countLeaves + 1 ↔
      leaves.length = 1 ∨ maxLevels ≤ 2 ^ k := by
  have some' := length_pos_of_ne_nil nonempty
  rw [retained.countLeaves_eq, getLevels, retained.perLeaf]
  rcases Nat.eq_zero_or_pos k with single | grouped
  · -- every block is a leaf of its own
    have one : ¬ maxLevels < 2 ^ 0 := by
      omega
    have flat : Nat.clog 2 leaves.length = 0 ↔ leaves.length ≤ 1 := by
      simpa using Nat.clog_le_iff_le_pow (b := 2) (x := leaves.length) (y := 0) (by omega)
    rw [single, if_neg one, Nat.pow_zero, ceilDiv_one]
    omega
  · have many : leaves.length ≠ 1 := by
      intro one
      have fits : leaves.length ⌈/⌉ 2 ^ 0 ≤ 2 ^ (maxLevels - 1) := by
        rw [one, Nat.pow_zero]
        exact Nat.one_le_two_pow
      have := retained.isLeast.2 fits
      omega
    rw [clog_countLeaves deep retained.isLeast grouped]
    split
    · omega
    · omega

theorem cutBlocks_ne_nil (blockSize : Nat) (input : List UInt8) :
    cutBlocks blockSize input ≠ [] := by
  unfold cutBlocks
  split <;> simp

/-- After any use and `digest()`, `getLevels()` never exceeds `max_levels`, and it is the
number of levels of the tree over the retained leaves only in the two cases named. -/
theorem getLevels_eq_iff (hasher : Hasher) (blockSize maxLevels : Nat) (deep : 2 ≤ maxLevels)
    (bound : maxLevels ≤ 63) (calls : List Call)
    (countable : Reference.fresh.Countable (create hasher blockSize maxLevels).blockSize calls) :
    ∃ tree done value k, (create hasher blockSize maxLevels).run calls = some tree ∧
      tree.digest = some (done, value) ∧ done.getLevels maxLevels ≤ maxLevels ∧
      let blocks := cutBlocks (create hasher blockSize maxLevels).blockSize
        (Reference.fresh.run calls).input
      IsLeast { k | blocks.length ⌈/⌉ 2 ^ k ≤ 2 ^ (maxLevels - 1) } k ∧
        (done.getLevels maxLevels = Nat.clog 2 done.countLeaves + 1 ↔
          blocks.length = 1 ∨ maxLevels ≤ 2 ^ k) := by
  obtain ⟨positive, same⟩ : 0 < (create hasher blockSize maxLevels).blockSize ∧
      create hasher blockSize maxLevels =
        create hasher (create hasher blockSize maxLevels).blockSize maxLevels := by
    cases blockSize with
    | zero =>
      have least : 0 < defaultMerkleBlockSize := by decide
      exact ⟨least, create_zero hasher maxLevels⟩
    | succ n => exact ⟨Nat.succ_pos n, rfl⟩
  obtain ⟨tree, done, k, runEq, digestEq, _, _, retained⟩ :=
    run_digest hasher positive deep bound countable
  rw [← same] at runEq
  have least := retained.isLeast
  have levels := retained.getLevels_iff deep (by simpa using cutBlocks_ne_nil _ _)
  rw [length_map] at least levels
  refine ⟨tree, done, _, k, runEq, digestEq, ?_, least, levels⟩
  unfold getLevels
  split <;> omega

/-- Four blocks, in two leaves. -/
theorem getLevels_eq_iff_depth :
    ∃ tree done value k, (create depthHasher 1 2).run [.update [1, 2, 3], .update [4]] =
        some tree ∧
      tree.digest = some (done, value) ∧ done.getLevels 2 ≤ 2 ∧
      IsLeast { k | (cutBlocks 1 [1, 2, 3, 4]).length ⌈/⌉ 2 ^ k ≤ 2 ^ (2 - 1) } k ∧
        (done.getLevels 2 = Nat.clog 2 done.countLeaves + 1 ↔
          (cutBlocks 1 [1, 2, 3, 4]).length = 1 ∨ 2 ≤ 2 ^ k) :=
  getLevels_eq_iff depthHasher 1 2 (by decide) (by decide) [.update [1, 2, 3], .update [4]] (by
    have few (input : List UInt8) (short : input.length ≤ 4) :
        (cutBlocks 1 input).length < 2 ^ 64 := by
      rw [cutBlocks_length Nat.one_pos]
      omega
    exact ⟨few [] (by decide), few [1, 2, 3] (by decide), few [1, 2, 3, 4] (by decide)⟩)

/-- Two blocks are two leaves under a root, but one level is reported. -/
theorem getLevels_two_blocks :
    ∃ tree done value, (create depthHasher 1 7).run [.update [1, 2]] = some tree ∧
      tree.digest = some (done, value) ∧ done.countLeaves = 2 ∧
      Nat.clog 2 done.countLeaves + 1 = 2 ∧ done.getLevels 7 = 1 := by
  have few (input : List UInt8) (short : input.length ≤ 2) :
      (cutBlocks 1 input).length < 2 ^ 64 := by
    rw [cutBlocks_length Nat.one_pos]
    omega
  have countable : Reference.fresh.Countable 1 [.update [1, 2]] :=
    ⟨few [] (by decide), few [1, 2] (by decide)⟩
  obtain ⟨tree, done, k, runEq, digestEq, _, _, retained⟩ :=
    run_digest depthHasher Nat.one_pos (by decide : 2 ≤ 7) (by decide) countable
  have two : ((cutBlocks 1 [1, 2]).map depthHasher.leafHash).length = 2 := by
    rw [length_map, cutBlocks_length Nat.one_pos]
    rfl
  have least := retained.isLeast
  have count := retained.countLeaves_eq
  have perLeaf := retained.perLeaf
  change IsLeast { k | ((cutBlocks 1 [1, 2]).map depthHasher.leafHash).length ⌈/⌉ 2 ^ k ≤ _ } k
    at least
  change _ = ((cutBlocks 1 [1, 2]).map depthHasher.leafHash).length ⌈/⌉ 2 ^ k at count
  rw [two] at least count
  have zero : k = 0 := Nat.le_zero.mp (least.2 (by
    decide))
  rw [zero] at count perLeaf
  refine ⟨tree, done, _, runEq, digestEq, count, ?_, ?_⟩
  · rw [count]
    decide
  · rw [getLevels, perLeaf]
    decide

end MerkleTree

end SamuraiFormal.Crypto
