import SamuraiFormal.Crypto.MerkleDigest

/-!
# Saving and restoring the leaves

A finalised tree keeps its leaf nodes.  `copyLeavesLTR()` and `copyLeavesRTL()` write them
to a buffer, and `setLeavesLTR()` and `setLeavesRTL()` load them into another tree without
hashing a block.  The file size is stored in the block counter, which `finalize()` asks only
whether it is zero: a tree restored from the empty input hashes one more empty block.

The buffer is the list of its live bytes, and its size and offsets are numbers without a
bound: the leaves of a tree that fits in memory do.
-/

namespace SamuraiFormal.Crypto

open Library.PairTree

open Library.BlockFeed (flatten_length_of_sizes)

open MerkleWorkStack
open List

variable {positions : List Nat} {size : Nat}

namespace MerkleTree

variable {hasher : Hasher}

/-- Any number of `update()` calls. -/
def feed (tree : MerkleTree hasher) (pieces : List (List UInt8)) : Option (MerkleTree hasher) :=
  pieces.foldlM update tree

/-- The retained leaf nodes, from the left. -/
def leaves (tree : MerkleTree hasher) : List (Option (Digest hasher.size)) :=
  tree.nodes.nodes.take tree.nodes.pos

/-- The data of the nodes at the given positions is appended in turn. -/
def appendNodes (nodes : MerkleWorkStack (Digest hasher.size)) :
    List Nat → List UInt8 → Option (List UInt8)
  | [], buffer => some buffer
  | n :: rest, buffer =>
    match nodes.get n with
    | none => none
    | some node => appendNodes nodes rest (buffer ++ node.val)

def copyLeavesLTR (tree : MerkleTree hasher) (buffer : List UInt8) : Option (List UInt8) :=
  appendNodes tree.nodes (List.range tree.nodes.pos) buffer

def copyLeavesRTL (tree : MerkleTree hasher) (buffer : List UInt8) : Option (List UInt8) :=
  appendNodes tree.nodes (List.range tree.nodes.pos).reverse buffer

/-- `Buffer::pop()` at an offset: what the buffer still has goes over the front of `buf`. -/
def popInto {size : Nat} (buffer : List UInt8) (offset : Nat) (buf : Digest size) : Digest size :=
  ⟨(buffer.drop offset).take size ++ buf.val.drop ((buffer.drop offset).take size).length, by
    have length := buf.property
    simp only [length_append, length_drop, length_take]
    omega⟩

/-- The leaf at each of the given positions of the buffer is added in turn. -/
def loadNodes (buffer : List UInt8) :
    List Nat → Digest hasher.size → MerkleWorkStack (Digest hasher.size) →
      MerkleWorkStack (Digest hasher.size)
  | [], _, nodes => nodes
  | n :: rest, buf, nodes =>
    let value := popInto buffer (n * hasher.size) buf
    loadNodes buffer rest value (nodes.add (some value))

/-- The shared part of `setLeavesLTR()` and `setLeavesRTL()`; the assertion is that the
buffer has the size of the leaves. -/
def setLeaves (positions : List Nat) (tree : MerkleTree hasher) (buffer : List UInt8)
    (leaves fileSize : Nat) : Option (MerkleTree hasher) :=
  if leaves * hasher.size = buffer.length then
    some { tree.reset with
      nodes := loadNodes buffer positions (zeroDigest hasher) tree.reset.nodes
      count := fileSize % 2 ^ 64 }
  else none

def setLeavesLTR (tree : MerkleTree hasher) (buffer : List UInt8) (leaves fileSize : Nat) :
    Option (MerkleTree hasher) :=
  setLeaves (List.range leaves) tree buffer leaves fileSize

def setLeavesRTL (tree : MerkleTree hasher) (buffer : List UInt8) (leaves fileSize : Nat) :
    Option (MerkleTree hasher) :=
  setLeaves (List.range leaves).reverse tree buffer leaves fileSize

theorem forall₂_range {α : Type} {R : Nat → α → Prop} (xs : List α)
    (each : ∀ n (below : n < xs.length), R n xs[n]) :
    List.Forall₂ R (List.range xs.length) xs := by
  rw [forall₂_iff_get]
  refine ⟨length_range, fun n _ below => ?_⟩
  simpa using each n below

theorem leaves_of_holds {tree : MerkleTree hasher} {xs : List (Digest hasher.size)}
    (holds : Holds tree.nodes xs) : tree.leaves = xs.map some := by
  obtain ⟨tail, slots⟩ := holds.slots
  rw [leaves, slots, holds.pos_eq, take_left' (by simp)]

variable {ys : List (Digest hasher.size)}

theorem appendNodes_spec {nodes : MerkleWorkStack (Digest hasher.size)}
    (reads : List.Forall₂ (fun n y => nodes.get n = some y) positions ys) (buffer : List UInt8) :
    appendNodes nodes positions buffer = some (buffer ++ (ys.map Subtype.val).flatten) := by
  induction reads generalizing buffer with
  | nil => simp [appendNodes]
  | cons read rest ih => simp [appendNodes, read, ih]

/-- Leaf `n` of a buffer of leaves. -/
theorem leaf_of_flatten {ys : List (Digest size)} {n : Nat} (below : n < ys.length) :
    (((ys.map Subtype.val).flatten).drop (n * size)).take size = ys[n].val := by
  induction n generalizing ys with
  | zero =>
    obtain ⟨y, rest, rfl⟩ := exists_cons_of_length_pos below
    simp [take_left' y.property]
  | succ n ih =>
    obtain ⟨y, rest, rfl⟩ := exists_cons_of_length_pos (Nat.zero_lt_of_lt below)
    rw [map_cons, flatten_cons, Nat.succ_mul, Nat.add_comm, ← drop_drop,
      drop_left' y.property]
    exact ih (Nat.lt_of_succ_lt_succ below)

theorem popInto_leaf {ys : List (Digest size)} {n : Nat} (below : n < ys.length)
    (buf : Digest size) : popInto (ys.map Subtype.val).flatten (n * size) buf = ys[n] := by
  apply Subtype.ext
  have none' : buf.val.drop size = [] := drop_of_length_le (Nat.le_of_eq buf.property)
  show _ ++ buf.val.drop _ = ys[n].val
  rw [leaf_of_flatten below, ys[n].property, none', append_nil]

/-- One node is added for each position: the leaf there, where the buffer has one. -/
theorem loadNodes_spec (buffer : List UInt8) (positions : List Nat) (buf : Digest hasher.size)
    {nodes : MerkleWorkStack (Digest hasher.size)} {xs : List (Digest hasher.size)}
    (holds : Holds nodes xs) :
    ∃ ys, Holds (loadNodes buffer positions buf nodes) (xs ++ ys) ∧
      ys.length = positions.length ∧
      ∀ zs, List.Forall₂ (fun n z => ∀ buf, popInto buffer (n * hasher.size) buf = z)
        positions zs → ys = zs := by
  induction positions generalizing buf nodes xs with
  | nil =>
    refine ⟨[], by simpa [loadNodes] using holds, rfl, fun zs reads => ?_⟩
    cases reads
    rfl
  | cons n rest ih =>
    obtain ⟨ys, held, length, values⟩ := ih (popInto buffer (n * hasher.size) buf)
      (holds.add (popInto buffer (n * hasher.size) buf))
    refine ⟨popInto buffer (n * hasher.size) buf :: ys, ?_, by simp [length], fun zs reads => ?_⟩
    · simpa [loadNodes] using held
    · cases reads with
      | cons read reads => rw [read, values _ reads]

/-- The bytes of the leaves have the size that is asserted. -/
theorem flatten_leaves_length (ys : List (Digest size)) :
    ys.length * size = ((ys.map Subtype.val).flatten).length := by
  have sizes : ∀ bytes ∈ ys.map Subtype.val, bytes.length = size := by
    intro bytes member
    obtain ⟨y, _, rfl⟩ := mem_map.mp member
    exact y.property
  rw [flatten_length_of_sizes sizes, length_map]

/-- Leaves have been loaded into a tree that has hashed no block. -/
structure Loaded (tree : MerkleTree hasher) (xs : List (Digest hasher.size)) : Prop where
  stacked : Stacked tree xs []
  index : tree.currentBlockIndex = 0
  perLeaf : tree.blocksPerLeaf = 1

section Loading

variable {tree : MerkleTree hasher} {xs : List (Digest hasher.size)}

theorem setLeaves_loaded {fresh : MerkleTree hasher} (empty : Holds fresh.reset.nodes [])
    (same : xs.length = ys.length)
    (reads : List.Forall₂ (fun n y =>
      ∀ buf, popInto (ys.map Subtype.val).flatten (n * hasher.size) buf = y) positions xs)
    (fileSize : Nat) :
    ∃ tree, setLeaves positions fresh (ys.map Subtype.val).flatten xs.length fileSize =
        some tree ∧ tree.count = fileSize % 2 ^ 64 ∧ Loaded tree xs := by
  obtain ⟨zs, held, _, values⟩ := loadNodes_spec (ys.map Subtype.val).flatten positions
    (zeroDigest hasher) empty
  obtain rfl := values xs reads
  refine ⟨_, by rw [setLeaves, if_pos (by rw [same]; exact flatten_leaves_length ys)], rfl,
    ⟨rfl, held, empty, rfl, fun none' => absurd rfl none'⟩, rfl, rfl⟩

/-- Once nothing is left to hash, `digest()` is the root of the leaves. -/
theorem Loaded.digest {flushed : MerkleTree hasher} (notFinal : tree.finalized = false)
    (flush : (if 0 < tree.currentBlockIndex ∨ tree.count = 0 then
        Checked.hash tree (tree.currentBlock.take tree.currentBlockIndex) else some tree) =
      some flushed)
    (loaded : Loaded flushed xs) (some' : xs ≠ []) :
    ∃ done root, tree.digest = some (done, root) ∧ treeRoot hasher.combine xs = some root ∧
      done.leaves = xs.map some := by
  obtain ⟨nodes, work, root, zs, us, final, ended, found, held, _⟩ :=
    loaded.stacked.finalize notFinal flush (.inl some')
  cases ended with
  | none =>
    refine ⟨_, root, by rw [MerkleTree.digest, finalize_of_checked final, Option.map_some],
      found, ?_⟩
    exact leaves_of_holds held
  | tail rest => exact absurd rfl rest

theorem Loaded.digest_counted (loaded : Loaded tree xs) (counted : tree.count ≠ 0)
    (some' : xs ≠ []) :
    ∃ done root, tree.digest = some (done, root) ∧ treeRoot hasher.combine xs = some root ∧
      done.leaves = xs.map some :=
  loaded.digest loaded.stacked.open' (if_neg (by simp [loaded.index, counted])) some'

/-- A tree whose counter is zero hashes the empty block after the leaves it was given. -/
theorem Loaded.digest_uncounted (loaded : Loaded tree xs) (uncounted : tree.count = 0)
    (free : xs.length < tree.nodes.nodes.length) :
    ∃ done value, tree.digest = some (done, value) ∧
      treeRoot hasher.combine (xs ++ [hasher.leafHash []]) = some value ∧
      done.leaves = (xs ++ [hasher.leafHash []]).map some := by
  obtain ⟨nodes, work, perLeaf, zs, _, _, hashEq, joined, placed, stacked, _⟩ :=
    loaded.stacked.hash []
  rw [loaded.perLeaf] at joined
  cases joined with
  | full filled => exact absurd filled (Nat.ne_of_lt free)
  | free =>
    cases placed with
    | waits short => exact absurd rfl short
    | groups _ found =>
      rw [nil_append, treeRoot_singleton, Option.some_inj] at found
      subst found
      have empty : tree.currentBlock.take tree.currentBlockIndex = [] := by
        rw [loaded.index, take_zero]
      refine Loaded.digest loaded.stacked.open' ?_ ⟨stacked, loaded.index, rfl⟩ (by simp)
      rw [if_pos (.inr uncounted), empty]
      exact hashEq

end Loading

/-- The leaves of `original`, copied and loaded into the tree `fresh`, have the digest
`value` and are kept. -/
def Restores (copy : MerkleTree hasher → List UInt8 → Option (List UInt8))
    (set : MerkleTree hasher → List UInt8 → Nat → Nat → Option (MerkleTree hasher))
    (original fresh : MerkleTree hasher) (fileSize : Nat) (value : Digest hasher.size) : Prop :=
  ∃ buffer restored done, copy original [] = some buffer ∧
    set fresh buffer original.countLeaves fileSize = some restored ∧
    restored.digest = some (done, value) ∧ done.leaves = original.leaves

section Restoring

variable {original fresh : MerkleTree hasher} {xs : List (Digest hasher.size)}

theorem loaded_ltr (held : Holds original.nodes xs) (empty : Holds fresh.reset.nodes [])
    (fileSize : Nat) :
    ∃ buffer restored, original.copyLeavesLTR [] = some buffer ∧
      fresh.setLeavesLTR buffer original.countLeaves fileSize = some restored ∧
      restored.count = fileSize % 2 ^ 64 ∧ Loaded restored xs := by
  obtain ⟨restored, loads, loaded⟩ := setLeaves_loaded empty rfl
    (forall₂_range xs fun n below => popInto_leaf below) fileSize
  refine ⟨(xs.map Subtype.val).flatten, restored, ?_, ?_, loaded⟩
  · rw [copyLeavesLTR, held.pos_eq]
    exact appendNodes_spec (forall₂_range xs fun n below => held.get below) []
  · rw [countLeaves, held.pos_eq]
    exact loads

/-- From the right both loops run backwards, so the leaves arrive in their order. -/
theorem loaded_rtl (held : Holds original.nodes xs) (empty : Holds fresh.reset.nodes [])
    (fileSize : Nat) :
    ∃ buffer restored, original.copyLeavesRTL [] = some buffer ∧
      fresh.setLeavesRTL buffer original.countLeaves fileSize = some restored ∧
      restored.count = fileSize % 2 ^ 64 ∧ Loaded restored xs := by
  have forwards : List.Forall₂ (fun n y =>
      ∀ buf, popInto (xs.reverse.map Subtype.val).flatten (n * hasher.size) buf = y)
      (List.range xs.reverse.length) xs.reverse :=
    forall₂_range xs.reverse fun n below => popInto_leaf below
  have reads := forall₂_reverse_iff.mpr forwards
  rw [reverse_reverse, length_reverse] at reads
  obtain ⟨restored, loads, loaded⟩ :=
    setLeaves_loaded empty length_reverse.symm reads fileSize
  refine ⟨(xs.reverse.map Subtype.val).flatten, restored, ?_, ?_, loaded⟩
  · rw [copyLeavesRTL, held.pos_eq]
    exact appendNodes_spec
      (forall₂_reverse_iff.mpr (forall₂_range xs fun n below => held.get below)) []
  · rw [countLeaves, held.pos_eq]
    exact loads

variable {copy : MerkleTree hasher → List UInt8 → Option (List UInt8)}
  {set : MerkleTree hasher → List UInt8 → Nat → Nat → Option (MerkleTree hasher)}
  {root : Digest hasher.size} {fileSize : Nat}

theorem restores_of_loaded (held : Holds original.nodes xs)
    (found : treeRoot hasher.combine xs = some root) (size : fileSize % 2 ^ 64 ≠ 0)
    (loads : ∃ buffer restored, copy original [] = some buffer ∧
      set fresh buffer original.countLeaves fileSize = some restored ∧
      restored.count = fileSize % 2 ^ 64 ∧ Loaded restored xs) :
    Restores copy set original fresh fileSize root := by
  obtain ⟨buffer, restored, copied, set', count, loaded⟩ := loads
  have some' : xs ≠ [] := by
    rintro rfl
    rw [treeRoot] at found
    cases found
  obtain ⟨done, root', digests, found', kept⟩ :=
    loaded.digest_counted (by rw [count]; exact size) some'
  rw [found, Option.some_inj] at found'
  subst found'
  exact ⟨buffer, restored, done, copied, set', digests, kept.trans (leaves_of_holds held).symm⟩

/-- With the file size zero the restored tree keeps one leaf too many. -/
theorem not_restores_of_loaded (held : Holds original.nodes xs) (single : xs.length = 1)
    (size : fileSize % 2 ^ 64 = 0)
    (loads : ∃ buffer restored, copy original [] = some buffer ∧
      set fresh buffer original.countLeaves fileSize = some restored ∧
      restored.count = fileSize % 2 ^ 64 ∧ Loaded restored xs) :
    ¬ Restores copy set original fresh fileSize root := by
  rintro ⟨buffer, restored, done, copied, set', digests, kept⟩
  obtain ⟨buffer', restored', copied', set'', count, loaded⟩ := loads
  rw [copied, Option.some_inj] at copied'
  subst copied'
  rw [set', Option.some_inj] at set''
  subst set''
  have room := loaded.stacked.nodes.room
  have even := loaded.stacked.nodes.even
  obtain ⟨done', value, digests', _, more⟩ :=
    loaded.digest_uncounted (count.trans size) (by omega)
  rw [digests, Option.some_inj, Prod.mk.injEq] at digests'
  rw [← digests'.1, kept, leaves_of_holds held] at more
  simpa using congrArg List.length more

end Restoring

theorem feed_tracks {blockSize maxLevels : Nat} (positive : 0 < blockSize) (deep : 2 ≤ maxLevels)
    (pieces : List (List UInt8)) {tree : MerkleTree hasher} {input : List UInt8}
    (tracks : Tracks tree blockSize maxLevels ⟨input, false⟩)
    (few : (cutBlocks blockSize (input ++ pieces.flatten)).length < 2 ^ 64) :
    ∃ fed, tree.feed pieces = some fed ∧
      Tracks fed blockSize maxLevels ⟨input ++ pieces.flatten, false⟩ := by
  induction pieces generalizing tree input with
  | nil => exact ⟨tree, rfl, by simpa using tracks⟩
  | cons piece pieces ih =>
    rw [flatten_cons, ← append_assoc] at few ⊢
    obtain ⟨updated, updateEq, tracks'⟩ := tracks.update positive deep piece
      (Nat.lt_of_le_of_lt (cutBlocks_length_mono positive _ _) few)
    obtain ⟨fed, fedEq, tracks''⟩ := ih tracks' few
    refine ⟨fed, ?_, tracks''⟩
    rw [feed, foldlM_cons, updateEq]
    exact fedEq

/-- A tree that was fed a countable input has a digest, which is the root of the leaf nodes
it retains. -/
theorem digest_of_feed (hasher : Hasher) {blockSize maxLevels : Nat} (positive : 0 < blockSize)
    (deep : 2 ≤ maxLevels) (bound : maxLevels ≤ 63) (pieces : List (List UInt8))
    (counted : pieces.flatten.length < 2 ^ 64) :
    ∃ fed done value xs, (create hasher blockSize maxLevels).feed pieces = some fed ∧
      fed.digest = some (done, value) ∧ Holds done.nodes xs ∧
      treeRoot hasher.combine xs = some value ∧
      (pieces.flatten = [] → xs = [hasher.leafHash []]) := by
  have few : (cutBlocks blockSize pieces.flatten).length < 2 ^ 64 := by
    have := Nat.div_le_self (pieces.flatten.length - 1) blockSize
    rw [cutBlocks_length positive]
    omega
  obtain ⟨fed, fedEq, tracks⟩ :=
    feed_tracks positive deep pieces (create_tracks hasher positive deep bound) few
  obtain ⟨done, k, digests, _, retained⟩ := tracks.digest positive deep few
  refine ⟨fed, done, _, _, fedEq, digests, retained.nodes, ?_, fun empty => ?_⟩
  · rw [treeRoot_levels]
    exact retained.root
  · -- the empty input is one empty block, whose leaf hash is its own root
    have single : (cutBlocks blockSize ([] ++ pieces.flatten)).map hasher.leafHash =
        [hasher.leafHash []] := by
      rw [nil_append, empty, cutBlocks_short (Nat.zero_le _)]
      rfl
    rw [single]
    exact levels_eq_root hasher.combine k (Nat.two_pow_pos _) (treeRoot_singleton _ _)

theorem create_zero (hasher : Hasher) (maxLevels : Nat) :
    create hasher 0 maxLevels = create hasher defaultMerkleBlockSize maxLevels :=
  rfl

/-- Restoring gives the digest and the leaves of the original, in either order, for every
input but the empty one. -/
theorem setLeaves_restores_iff (hasher : Hasher) (blockSize maxLevels : Nat)
    (deep : 2 ≤ maxLevels) (bound : maxLevels ≤ 63) (pieces : List (List UInt8))
    (counted : pieces.flatten.length < 2 ^ 64) :
    ∃ fed original value, (create hasher blockSize maxLevels).feed pieces = some fed ∧
      fed.digest = some (original, value) ∧
      (Restores copyLeavesLTR setLeavesLTR original (create hasher blockSize maxLevels)
        pieces.flatten.length value ↔ pieces.flatten ≠ []) ∧
      (Restores copyLeavesRTL setLeavesRTL original (create hasher blockSize maxLevels)
        pieces.flatten.length value ↔ pieces.flatten ≠ []) := by
  -- a block size of zero is the default one
  obtain ⟨actual, positive, sameTree⟩ : ∃ actual, 0 < actual ∧
      create hasher blockSize maxLevels = create hasher actual maxLevels := by
    cases blockSize with
    | zero => exact ⟨defaultMerkleBlockSize, by decide, create_zero hasher maxLevels⟩
    | succ n => exact ⟨n + 1, Nat.succ_pos n, rfl⟩
  rw [sameTree]
  obtain ⟨fed, original, value, xs, fedEq, digests, held, found, single⟩ :=
    digest_of_feed hasher positive deep bound pieces counted
  have empty : Holds (create hasher actual maxLevels).reset.nodes [] :=
    holds_reset deep (calcMaxNumLeaves_eq (by omega) (by omega))
  have ltr := loaded_ltr held empty pieces.flatten.length
  have rtl := loaded_rtl held empty pieces.flatten.length
  have one (empty : pieces.flatten = []) : xs.length = 1 := congrArg List.length (single empty)
  refine ⟨fed, original, value, fedEq, digests, ?_⟩
  by_cases empty : pieces.flatten = []
  · have zero : pieces.flatten.length % 2 ^ 64 = 0 := by rw [empty]; rfl
    exact ⟨iff_of_false (not_restores_of_loaded held (one empty) zero ltr) (not_not.mpr empty),
      iff_of_false (not_restores_of_loaded held (one empty) zero rtl) (not_not.mpr empty)⟩
  have some' : pieces.flatten.length % 2 ^ 64 ≠ 0 := by
    rw [Nat.mod_eq_of_lt counted]
    exact Nat.pos_iff_ne_zero.mp (length_pos_of_ne_nil empty)
  exact ⟨iff_of_true (restores_of_loaded held found some' ltr) empty,
    iff_of_true (restores_of_loaded held found some' rtl) empty⟩

theorem setLeaves_restores_depth :
    ∃ fed original value, (create depthHasher 2 3).feed [[1, 2], [3]] = some fed ∧
      fed.digest = some (original, value) ∧
      (Restores copyLeavesLTR setLeavesLTR original (create depthHasher 2 3) 3 value ↔
        [1, 2, 3] ≠ ([] : List UInt8)) ∧
      (Restores copyLeavesRTL setLeavesRTL original (create depthHasher 2 3) 3 value ↔
        [1, 2, 3] ≠ ([] : List UInt8)) :=
  setLeaves_restores_iff depthHasher 2 3 (by decide) (by decide) [[1, 2], [3]] (by decide)

/-- A tree that was fed nothing has the digest of one empty leaf; restored, it has two. -/
theorem setLeaves_empty :
    ∃ original value, (create depthHasher 2 3).digest = some (original, value) ∧
      ∃ buffer restored done other, original.copyLeavesLTR [] = some buffer ∧
        (create depthHasher 2 3).setLeavesLTR buffer original.countLeaves 0 = some restored ∧
        restored.digest = some (done, other) ∧ other ≠ value ∧ done.leaves ≠ original.leaves := by
  obtain ⟨fed, original, value, xs, fedEq, digests, held, found, single⟩ :=
    digest_of_feed depthHasher (Nat.two_pos) (Nat.le_succ 2) (by decide) [] (by decide)
  have empty : Holds (create depthHasher 2 3).reset.nodes [] := holds_reset (Nat.le_succ 2) rfl
  obtain ⟨buffer, restored, copied, loads, count, loaded⟩ := loaded_ltr held empty 0
  rw [single rfl] at held found loaded
  have room := loaded.stacked.nodes.room
  have even := loaded.stacked.nodes.even
  obtain ⟨done, other, again, root, more⟩ := loaded.digest_uncounted count (by
    rw [length_singleton]
    omega)
  have fedSame : create depthHasher 2 3 = fed := Option.some_inj.mp fedEq
  refine ⟨original, value, fedSame ▸ digests, buffer, restored, done, other, copied, loads, again,
    ?_, ?_⟩
  · rw [treeRoot_singleton, Option.some_inj] at found
    rw [singleton_append, ← treeRoot_pairUp, pairUp, pairUp, treeRoot_singleton,
      Option.some_inj] at root
    rw [← found, ← root]
    decide
  · rw [more, leaves_of_holds held]
    simp

end MerkleTree

end SamuraiFormal.Crypto
