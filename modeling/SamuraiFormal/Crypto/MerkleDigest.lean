import SamuraiFormal.Crypto.MerkleRefinement

/-!
# The tree answers every sequence of calls like the reference

The block counter of the tree has 64 bits, and `finalize()` reads a counter of
zero as an empty input.  For inputs of fewer than `2 ^ 64` blocks the tree and the
abstract object agree on every digest; an input of exactly `2 ^ 64` blocks is
hashed with one empty block too many.
-/

namespace SamuraiFormal.Crypto

open Library.PairTree

open Library.BlockFeed (flatten_length_of_sizes)
open List

variable {blockSize maxLevels : Nat}

theorem cutBlocks_length (positive : 0 < blockSize) (input : List UInt8) :
    (cutBlocks blockSize input).length = (input.length - 1) / blockSize + 1 := by
  induction input using cutBlocks.induct blockSize with
  | case1 input short =>
    have : input.length ≤ blockSize := by omega
    rw [cutBlocks_short this, Nat.div_eq_of_lt (by omega)]
    rfl
  | case2 input long ih =>
    rw [cutBlocks, if_neg long, length_cons, ih, length_drop]
    have regroup : input.length - 1 = input.length - blockSize - 1 + blockSize := by omega
    rw [regroup, Nat.add_div_right _ positive]

theorem cutBlocks_length_mono (positive : 0 < blockSize) (front back : List UInt8) :
    (cutBlocks blockSize front).length ≤ (cutBlocks blockSize (front ++ back)).length := by
  rw [cutBlocks_length positive, cutBlocks_length positive, length_append]
  exact Nat.succ_le_succ (Nat.div_le_div_right (by omega))

/-- A countable input is short enough for the stacks of a tree of two levels or more. -/
theorem length_lt_of_countable (positive : 0 < blockSize) (deep : 2 ≤ maxLevels)
    {input : List UInt8} (countable : (cutBlocks blockSize input).length < 2 ^ 64) :
    input.length < blockSize * 2 ^ (62 + maxLevels) := by
  rw [cutBlocks_length positive] at countable
  have quotient : (input.length - 1) / blockSize < 2 ^ 64 - 1 := by omega
  have below := (Nat.div_lt_iff_lt_mul positive).mp quotient
  have levels : 2 ^ 64 ≤ 2 ^ (62 + maxLevels) := Nat.pow_le_pow_right (by omega) (by omega)
  have scaled := Nat.mul_le_mul_left blockSize levels
  omega

theorem calcMaxNumLeaves_eq {depth : Nat} (one : 1 ≤ depth) (bound : depth ≤ 64) :
    calcMaxNumLeaves depth = 2 ^ (depth - 1) := by
  have loop (count : Nat) (small : count < 64) :
      (List.range count).foldl (fun level _ => level * 2 % 2 ^ 64) 1 = 2 ^ count := by
    induction count with
    | zero => rfl
    | succ count ih =>
      rw [range_succ, foldl_append, ih (by omega), foldl_cons,
        ← Nat.pow_succ]
      exact Nat.mod_eq_of_lt (Nat.pow_lt_pow_right (by omega) small)
  rw [calcMaxNumLeaves, if_neg (by omega), loop _ (by omega)]

variable {full : List (List UInt8)} {pending : List UInt8}

namespace MerkleTree

variable {hasher : Hasher}

variable {tree : MerkleTree hasher} {reference : Reference}

/-- Below the range of the counter, `finalize()` has hashed exactly the cut input. -/
theorem finalBlocks_eq_cutBlocks (sizes : ∀ block ∈ full, block.length = blockSize)
    (short : pending.length < blockSize) (countable : full.length < 2 ^ 64) :
    finalBlocks full pending = cutBlocks blockSize (full.flatten ++ pending) := by
  have positive : 0 < blockSize := Nat.lt_of_le_of_lt (Nat.zero_le _) short
  by_cases tail : 0 < pending.length
  · rw [finalBlocks, if_pos (.inl tail), cutBlocks_pending positive sizes short
      (.inl (ne_nil_of_length_pos tail))]
  have empty : pending = [] := eq_nil_of_length_eq_zero (by omega)
  subst empty
  by_cases none' : full = []
  · rw [finalBlocks, if_pos (.inr (by simp [none'])),
      cutBlocks_pending positive sizes short (.inr none')]
  have counted : ¬ (0 < ([] : List UInt8).length ∨ full.length % 2 ^ 64 = 0) := by
    have := length_pos_of_ne_nil none'
    omega
  rw [finalBlocks, if_neg counted, append_nil, cutBlocks_exact positive sizes none']

/-! ## Sequences of calls -/

/-- The tree has been fed the input of the abstract object. -/
inductive Tracks (tree : MerkleTree hasher) (blockSize maxLevels : Nat) : Reference → Prop where
  | fed {full : List (List UInt8)} {pending : List UInt8}
      (state : Accumulates tree blockSize maxLevels full pending) :
      Tracks tree blockSize maxLevels ⟨full.flatten ++ pending, false⟩
  | done {input : List UInt8} {k : Nat} (finalized : tree.finalized = true)
      (size : tree.blockSize = blockSize) (block : tree.currentBlock.length = blockSize)
      (leaves : tree.maxLeaves = 2 ^ (maxLevels - 1))
      (retained : Retained tree maxLevels ((cutBlocks blockSize input).map hasher.leafHash) k) :
      Tracks tree blockSize maxLevels ⟨input, true⟩

/-- A tree of two levels or more has room for pairs of leaves. -/
theorem holds_reset (deep : 2 ≤ maxLevels) (leaves : tree.maxLeaves = 2 ^ (maxLevels - 1)) :
    MerkleWorkStack.Holds tree.reset.nodes [] := by
  have pairs : 2 ^ (maxLevels - 1) = 2 ^ (maxLevels - 2) * 2 := by
    rw [← Nat.pow_succ]
    congr 1
    omega
  have positive := Nat.two_pow_pos (maxLevels - 2)
  exact MerkleWorkStack.holds_create (by omega) (by omega)

/-- Empty stacks and an empty current block, as after construction and `reset()`. -/
theorem reset_tracks (positive : 0 < blockSize) (deep : 2 ≤ maxLevels)
    (size : tree.blockSize = blockSize) (block : tree.currentBlock.length = blockSize)
    (leaves : tree.maxLeaves = 2 ^ (maxLevels - 1)) :
    Tracks tree.reset blockSize maxLevels .fresh := by
  have held := holds_reset deep leaves
  refine @Tracks.fed _ _ _ _ [] [] ⟨⟨size, by simp, positive, block, rfl, rfl⟩, 0, leaves, ?_,
    rfl, by decide, ⟨0, [], [], ⟨rfl, held, held, rfl, fun none' => absurd rfl none'⟩,
      ⟨[], rfl, by simp, rfl⟩, Nat.one_pos⟩, fun _ _ => Nat.zero_le _, rfl⟩
  rw [← leaves]
  exact length_replicate

theorem create_tracks (hasher : Hasher) (positive : 0 < blockSize) (deep : 2 ≤ maxLevels)
    (bound : maxLevels ≤ 63) :
    Tracks (create hasher blockSize maxLevels) blockSize maxLevels .fresh := by
  have size : (create hasher blockSize maxLevels).blockSize = blockSize := if_neg (by omega)
  show Tracks (create hasher blockSize maxLevels).reset blockSize maxLevels .fresh
  exact reset_tracks positive deep size (length_replicate.trans size)
    (calcMaxNumLeaves_eq (by omega) (by omega))

namespace Tracks

theorem reset (positive : 0 < blockSize) (deep : 2 ≤ maxLevels)
    (tracks : Tracks tree blockSize maxLevels reference) :
    Tracks tree.reset blockSize maxLevels .fresh := by
  cases tracks with
  | fed state =>
    obtain ⟨buffered, k, hashed⟩ := state
    exact reset_tracks positive deep buffered.sizeEq buffered.blockLength hashed.maxLeaves
  | done _ size block leaves => exact reset_tracks positive deep size block leaves

theorem update (positive : 0 < blockSize) (deep : 2 ≤ maxLevels)
    (tracks : Tracks tree blockSize maxLevels reference) (data : List UInt8)
    (after : (cutBlocks blockSize (reference.step (.update data)).input).length < 2 ^ 64) :
    ∃ updated, tree.update data = some updated ∧
      Tracks updated blockSize maxLevels (reference.step (.update data)) := by
  cases tracks with
  | fed state =>
    obtain ⟨updated, full', pending', updateEq, state', joined⟩ :=
      update_spec data state (length_lt_of_countable positive deep after)
    refine ⟨updated, updateEq, ?_⟩
    have tracks := Tracks.fed state'
    rwa [joined] at tracks
  | done finalized size block leaves retained =>
    exact ⟨tree, by simp [MerkleTree.update, finalized],
      .done finalized size block leaves retained⟩

/-- `digest()` on an object of either kind. -/
theorem digest (positive : 0 < blockSize) (deep : 2 ≤ maxLevels)
    (tracks : Tracks tree blockSize maxLevels reference)
    (before : (cutBlocks blockSize reference.input).length < 2 ^ 64) :
    ∃ done k, tree.digest = some (done, done.finalizedValue) ∧
      Tracks done blockSize maxLevels (reference.step .digest) ∧
      Retained done maxLevels ((cutBlocks blockSize reference.input).map hasher.leafHash) k := by
  cases tracks with
  | @fed full pending state =>
    obtain ⟨buffered, _, hashed⟩ := id state
    have few : full.length < 2 ^ 64 :=
      buffered.full_length_lt (length_lt_of_countable positive (Nat.le_refl 2) before)
    obtain ⟨done, k, finalized, final, sameSize, sameBlock, leaves, retained⟩ :=
      finalize_spec state
        (buffered.full_length_lt (length_lt_of_countable positive deep before))
    rw [finalBlocks_eq_cutBlocks buffered.sizes buffered.short few] at retained
    exact ⟨done, k, by rw [MerkleTree.digest, finalized, Option.map_some],
      .done final (sameSize.trans buffered.sizeEq) (by rw [sameBlock]; exact buffered.blockLength)
        leaves retained, retained⟩
  | @done input k finalized size block leaves retained =>
    exact ⟨tree, k, by simp [MerkleTree.digest, finalize, finalized],
      .done finalized size block leaves retained, retained⟩

/-- Every call is answered with what the abstract object returns. -/
theorem call (positive : 0 < blockSize) (deep : 2 ≤ maxLevels)
    (tracks : Tracks tree blockSize maxLevels reference) (next : Call)
    (before : (cutBlocks blockSize reference.input).length < 2 ^ 64)
    (after : (cutBlocks blockSize (reference.step next).input).length < 2 ^ 64) :
    ∃ called values, tree.call next = some (called, values) ∧
      Tracks called blockSize maxLevels (reference.step next) ∧
      ∀ calls, reference.digests hasher blockSize (next :: calls) =
        values.map some ++ (reference.step next).digests hasher blockSize calls := by
  cases next with
  | update data =>
    obtain ⟨updated, updateEq, tracks'⟩ := tracks.update positive deep data after
    exact ⟨updated, [], by rw [MerkleTree.call, updateEq, Option.map_some], tracks',
      fun _ => rfl⟩
  | digest =>
    obtain ⟨done, k, digestEq, tracks', retained⟩ := tracks.digest positive deep before
    refine ⟨done, [done.finalizedValue], by rw [MerkleTree.call, digestEq, Option.map_some],
      tracks', fun calls => ?_⟩
    rw [Reference.digests, referenceDigest, retained.root]
    rfl
  | reset => exact ⟨tree.reset, [], rfl, tracks.reset positive deep, fun _ => rfl⟩

/-- Every sequence of calls on countable inputs is answered, and its inputs are tracked. -/
theorem run (positive : 0 < blockSize) (deep : 2 ≤ maxLevels) (calls : List Call)
    (tracks : Tracks tree blockSize maxLevels reference)
    (countable : reference.Countable blockSize calls) :
    ∃ after values, tree.run calls = some after ∧ tree.digests calls = some values ∧
      values.map some = reference.digests hasher blockSize calls ∧
      Tracks after blockSize maxLevels (reference.run calls) ∧
      (cutBlocks blockSize (reference.run calls).input).length < 2 ^ 64 := by
  induction calls generalizing tree reference with
  | nil => exact ⟨tree, [], rfl, rfl, rfl, tracks, countable⟩
  | cons next calls ih =>
    obtain ⟨called, values, callEq, tracks', outputs⟩ :=
      tracks.call positive deep next countable.1 countable.2.now
    obtain ⟨after, rest, runEq, restEq, restOutputs, tracks'', few⟩ := ih tracks' countable.2
    refine ⟨after, values ++ rest, ?_, ?_, ?_, tracks'', few⟩
    · rw [MerkleTree.run, foldlM_cons, callEq]
      exact runEq
    · simp [digests, callEq, restEq]
    · rw [outputs, map_append, restOutputs]

end Tracks

theorem countable_updates (positive : 0 < blockSize) (input : List UInt8)
    (pieces : List (List UInt8))
    (few : (cutBlocks blockSize (input ++ pieces.flatten)).length < 2 ^ 64) :
    Reference.Countable blockSize ⟨input, false⟩ (pieces.map .update ++ [.digest]) := by
  have start : (cutBlocks blockSize input).length < 2 ^ 64 :=
    Nat.lt_of_le_of_lt (cutBlocks_length_mono positive _ _) few
  induction pieces generalizing input with
  | nil => exact ⟨start, start⟩
  | cons piece pieces ih =>
    rw [flatten_cons, ← append_assoc] at few
    exact ⟨start, ih (input ++ piece) few
      (Nat.lt_of_le_of_lt (cutBlocks_length_mono positive _ _) few)⟩

theorem reference_digests_updates (blockSize : Nat) (input : List UInt8)
    (pieces : List (List UInt8)) :
    Reference.digests hasher blockSize ⟨input, false⟩ (pieces.map .update ++ [.digest]) =
      [referenceDigest hasher blockSize (input ++ pieces.flatten)] := by
  induction pieces generalizing input with
  | nil => simp [Reference.digests]
  | cons piece pieces ih =>
    simpa [Reference.digests, Reference.step] using ih (input ++ piece)

/-- However the input is split into `update()` calls, `digest()` is the reference tree
hash of the whole input; and every sequence of calls is answered like the abstract
object, so a second `digest()` repeats the first, an `update()` after it changes
nothing and `reset()` starts afresh. -/
theorem digests_eq_reference (hasher : Hasher) (blockSize maxLevels : Nat)
    (positive : 1 ≤ blockSize) (deep : 2 ≤ maxLevels) (bound : maxLevels ≤ 63) :
    (∀ pieces : List (List UInt8), (cutBlocks blockSize pieces.flatten).length < 2 ^ 64 →
      ∃ value, (create hasher blockSize maxLevels).digests
          (pieces.map .update ++ [.digest]) = some [value] ∧
        referenceDigest hasher blockSize pieces.flatten = some value) ∧
    (∀ calls : List Call, Reference.fresh.Countable blockSize calls →
      ∃ values, (create hasher blockSize maxLevels).digests calls = some values ∧
        values.map some = Reference.fresh.digests hasher blockSize calls) := by
  have tracks := create_tracks hasher positive deep bound
  constructor
  · intro pieces few
    obtain ⟨_, values, _, digestsEq, outputs, _⟩ := tracks.run positive deep
      (pieces.map Call.update ++ [Call.digest]) (countable_updates positive [] pieces few)
    rw [Reference.fresh, reference_digests_updates] at outputs
    obtain ⟨value, rfl, single⟩ := map_eq_singleton_iff.mp outputs
    exact ⟨value, digestsEq, single.symm⟩
  · intro calls countable
    obtain ⟨_, values, _, digestsEq, outputs, _⟩ := tracks.run positive deep calls countable
    exact ⟨values, digestsEq, outputs⟩

/-- A hasher that measures the tree: every leaf is `0`, every node is one more than the
deeper of its two children. -/
def depthHasher : Hasher where
  size := 1
  digest bytes :=
    match bytes with
    | [0x01, left, right] => ⟨[(if left ≤ right then right else left) + 1], rfl⟩
    | _ => ⟨[0], rfl⟩

theorem digests_eq_reference_depth :
    ∃ value, (create depthHasher 2 3).digests [.update [1, 2, 3], .update [], .digest] =
        some [value] ∧
      referenceDigest depthHasher 2 [1, 2, 3] = some value :=
  (digests_eq_reference depthHasher 2 3 (by decide) (by decide) (by decide)).1
    [[1, 2, 3], []] (by rw [cutBlocks_length (by decide)]; decide)

def depthNode (depth : Nat) : Digest depthHasher.size := ⟨[UInt8.ofNat depth], rfl⟩

theorem depthHasher_leafHash (block : List UInt8) :
    depthHasher.leafHash block = depthNode 0 := by
  simp [Hasher.leafHash, depthHasher, depthNode]

theorem depthHasher_combine (depth : Nat) :
    depthHasher.combine (depthNode depth) (depthNode depth) = depthNode (depth + 1) := by
  simp [Hasher.combine, depthHasher, depthNode]

theorem pairUp_replicate (groups depth : Nat) :
    pairUp depthHasher.combine (List.replicate (2 * groups) (depthNode depth)) =
      List.replicate groups (depthNode (depth + 1)) := by
  induction groups with
  | zero => rfl
  | succ groups ih =>
    rw [Nat.mul_succ, replicate_succ, replicate_succ, replicate_succ, pairUp, ih,
      depthHasher_combine]

theorem levels_replicate (depth groups : Nat) :
    levels depthHasher.combine depth (List.replicate (groups * 2 ^ depth) (depthNode 0)) =
      List.replicate groups (depthNode depth) := by
  induction depth generalizing groups with
  | zero => simp
  | succ depth ih =>
    have regroup : groups * 2 ^ (depth + 1) = 2 * groups * 2 ^ depth := by
      rw [Nat.pow_succ, Nat.mul_comm (2 ^ depth), ← Nat.mul_assoc, Nat.mul_comm groups]
    rw [levels_succ, regroup, ih, pairUp_replicate]

theorem levels_perfect (depth : Nat) :
    levels depthHasher.combine depth (List.replicate (2 ^ depth) (depthNode 0)) =
      [depthNode depth] := by
  simpa using levels_replicate depth 1

/-- The root of a perfect tree, and of one with a leaf too many. -/
theorem treeRoot_perfect (depth : Nat) :
    treeRoot depthHasher.combine (List.replicate (2 ^ depth) (depthNode 0)) =
      some (depthNode depth) := by
  rw [← treeRoot_levels _ depth, levels_perfect, treeRoot_singleton]

theorem treeRoot_extra_leaf (depth : Nat) :
    treeRoot depthHasher.combine (List.replicate (2 ^ depth) (depthNode 0) ++ [depthNode 0]) =
      some (depthHasher.combine (depthNode depth) (depthNode 0)) := by
  have single : levels depthHasher.combine depth [depthNode 0] = [depthNode 0] :=
    levels_eq_root _ depth (Nat.two_pow_pos _) (treeRoot_singleton _ _)
  rw [← treeRoot_levels _ depth, levels_append _ depth 1 (by simp), levels_perfect, single,
    singleton_append, ← treeRoot_pairUp, pairUp, pairUp, treeRoot_singleton]

theorem map_leafHash_depth (blocks : List (List UInt8)) :
    blocks.map depthHasher.leafHash = List.replicate blocks.length (depthNode 0) := by
  rw [funext depthHasher_leafHash, map_const']

/-- The reference digest of `2 ^ 64` one-byte blocks is the root of a perfect tree. -/
theorem referenceDigest_wrapped :
    referenceDigest depthHasher 1 (List.replicate (2 ^ 64) 0) = some (depthNode 64) := by
  have length : (cutBlocks 1 (List.replicate (2 ^ 64) 0)).length = 2 ^ 64 := by
    rw [cutBlocks_length Nat.one_pos, length_replicate, Nat.div_one,
      Nat.sub_add_cancel (Nat.two_pow_pos 64)]
  rw [referenceDigest, map_leafHash_depth, length, treeRoot_perfect]

/-- Half of the `2 ^ 64` bytes that wrap the block counter. -/
def halfCount : List UInt8 := List.replicate (2 ^ 63) 0

theorem halfCount_append : halfCount ++ halfCount = List.replicate (2 ^ 64) 0 :=
  replicate_append_replicate

/-- The block counter has wrapped to zero after `2 ^ 64` blocks, so `finalize()` hashes an
empty block after them. -/
theorem retained_wrapped (deep : 3 ≤ maxLevels) (bound : maxLevels ≤ 63) :
    ∃ fed tree done k, (create depthHasher 1 maxLevels).update halfCount = some fed ∧
      fed.update halfCount = some tree ∧ tree.finalize = some done ∧
      Retained done maxLevels (List.replicate (2 ^ 64) (depthNode 0) ++ [depthNode 0]) k := by
  obtain ⟨full, pending, state, joined⟩ : ∃ full pending,
      Accumulates (create depthHasher 1 maxLevels) 1 maxLevels full pending ∧
        full.flatten ++ pending = [] := by
    have tracks := create_tracks depthHasher Nat.one_pos (by omega : 2 ≤ maxLevels) bound
    generalize start : Reference.fresh = reference at tracks
    cases tracks with
    | fed state => exact ⟨_, _, state, (congrArg Reference.input start).symm⟩
    | done => cases start
  have wide : 2 ^ 64 < 2 ^ (62 + maxLevels) := Nat.pow_lt_pow_right (by omega) (by omega)
  have half : halfCount.length = 2 ^ 63 := length_replicate
  obtain ⟨fed, full₁, pending₁, fedEq, state₁, joined₁⟩ := update_spec halfCount state (by
    rw [joined, nil_append, half, Nat.one_mul]
    omega)
  rw [joined, nil_append] at joined₁
  obtain ⟨tree, full₂, pending₂, updateEq, state₂, joined₂⟩ := update_spec halfCount state₁ (by
    rw [joined₁, length_append, half, Nat.one_mul]
    omega)
  have none' : pending₂ = [] := eq_nil_of_length_eq_zero (Nat.lt_one_iff.mp state₂.1.short)
  have blocks : full₂.length = 2 ^ 64 := by
    have lengths := congrArg List.length joined₂
    rw [joined₁, none', append_nil, flatten_length_of_sizes state₂.1.sizes, length_append, half,
      Nat.mul_one] at lengths
    omega
  obtain ⟨done, k, finalized, _, _, _, _, retained⟩ :=
    finalize_spec state₂ (by rw [blocks]; exact wide)
  refine ⟨fed, tree, done, k, fedEq, updateEq, finalized, ?_⟩
  rwa [finalBlocks, if_pos (.inr (by rw [blocks, Nat.mod_self])), map_append, map_leafHash_depth,
    blocks, map_singleton, depthHasher_leafHash] at retained

/-- After `2 ^ 64` blocks the digest is not the reference digest. -/
theorem digest_wrapped_count :
    ∃ value, (create depthHasher 1 7).digests
        [.update halfCount, .update halfCount, .digest] = some [value] ∧
      referenceDigest depthHasher 1 (halfCount ++ halfCount) ≠ some value := by
  obtain ⟨fed, tree, done, k, fedEq, updateEq, finalized, retained⟩ :=
    retained_wrapped (by decide : 3 ≤ 7) (by decide)
  have found := retained.root
  rw [treeRoot_extra_leaf] at found
  refine ⟨done.finalizedValue, ?_, ?_⟩
  · simp [digests, call, fedEq, updateEq, digest, finalized]
  · rw [halfCount_append, referenceDigest_wrapped, ← found]
    decide

end MerkleTree

end SamuraiFormal.Crypto
