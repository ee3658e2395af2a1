import SamuraiFormal.Crypto.MerkleLeaves

/-!
# Every slot that is read is occupied

The stacks own their nodes, and a released slot stays behind empty.  No sequence of calls
reads one: every read of the checked operations succeeds.

Leaves that are loaded may grow the leaf array beyond its capacity, and the counters may
wrap, so the invariant speaks of the occupied slots and of an even capacity only.
-/

namespace SamuraiFormal.Crypto

open Library

open Library.PairTree

open MerkleWorkStack
open List

variable {hasher : Hasher} {tree : MerkleTree hasher} {xs ws : List (Digest hasher.size)}
  {nodes : MerkleWorkStack (Digest hasher.size)}

/-- The stacks of an object that has not been finalised.  Unless the group size has wrapped
to zero, the work stack holds fewer nodes than a group. -/
structure Safe (tree : MerkleTree hasher) (xs ws : List (Digest hasher.size)) : Prop where
  stacked : Stacked tree xs ws
  grouped : (tree.blocksPerLeaf = 0 ∧ xs ≠ []) ∨
    ∃ k < 64, tree.blocksPerLeaf = 2 ^ k ∧ ws.length < 2 ^ k
  counted : tree.count ≠ 0 → xs ≠ [] ∨ ws ≠ []

namespace Safe

/-- An empty work stack is what a size of zero says, once there is a leaf node. -/
theorem some_or_size (safe : Safe tree xs ws) (fed : xs ≠ [] ∨ ws ≠ []) :
    xs ≠ [] ∨ ws.length % 2 ^ 64 ≠ 0 := by
  rcases fed with leaf | pending
  · exact .inl leaf
  rcases safe.grouped with ⟨_, leaf⟩ | ⟨k, small, _, short⟩
  · exact .inl leaf
  have := Nat.pow_lt_pow_right (by omega : 1 < 2) small
  have := length_pos_of_ne_nil pending
  omega

/-- Joining the leaf nodes in pairs keeps to the groups, or wraps their size. -/
theorem joined (safe : Safe tree xs ws) {ys : List (Digest hasher.size)} {perLeaf : Nat}
    (joined : Joined hasher.combine tree.nodes.nodes.length xs tree.blocksPerLeaf ys perLeaf) :
    (perLeaf = 0 ∧ ys ≠ []) ∨ ∃ k < 64, perLeaf = 2 ^ k ∧ ws.length < 2 ^ k := by
  cases joined with
  | free => exact safe.grouped
  | full filled =>
    have some' : pairUp hasher.combine xs ≠ [] := by
      have room := safe.stacked.nodes.room
      refine ne_nil_of_length_pos ?_
      rw [pairUp_length]
      omega
    rcases safe.grouped with ⟨zero, _⟩ | ⟨k, small, perLeaf, short⟩
    · exact .inl ⟨by simp [zero], some'⟩
    rw [perLeaf, ← Nat.pow_succ]
    rcases Nat.lt_or_ge (k + 1) 64 with fits | wraps
    · refine .inr ⟨k + 1, fits, Nat.mod_eq_of_lt (Nat.pow_lt_pow_right (by omega) fits), ?_⟩
      rw [Nat.pow_succ]
      omega
    · have last : k.succ = 64 := by omega
      exact .inl ⟨by rw [last, Nat.mod_self], some'⟩

/-- One more block: either the work stack grows, or it becomes one leaf node. -/
theorem hash (safe : Safe tree xs ws) (data : List UInt8) :
    ∃ nodes work perLeaf count zs vs, Checked.hash tree data = some { tree with
        nodes := nodes, work := work, blocksPerLeaf := perLeaf, count := count } ∧
      Safe { tree with
        nodes := nodes, work := work, blocksPerLeaf := perLeaf, count := count } zs vs ∧
      (zs ≠ [] ∨ vs ≠ []) := by
  obtain ⟨nodes, work, perLeaf, ys, zs, vs, hashEq, joined, placed, stacked, _⟩ :=
    safe.stacked.hash data
  have grouped := safe.joined joined
  have fed : zs ≠ [] ∨ vs ≠ [] := by
    cases placed with
    | waits => exact .inr (by simp)
    | groups => exact .inl (by simp)
  refine ⟨nodes, work, perLeaf, _, zs, vs, hashEq, ⟨stacked, ?_, fun _ => fed⟩, fed⟩
  cases placed with
  | waits short =>
    rcases grouped with wrapped | ⟨k, small, same, below⟩
    · exact .inl wrapped
    refine .inr ⟨k, small, same, ?_⟩
    have := Nat.pow_lt_pow_right (by omega : 1 < 2) small
    rw [length_append, length_singleton]
    omega
  | groups =>
    rcases grouped with ⟨zero, _⟩ | ⟨k, small, same, _⟩
    · exact .inl ⟨zero, by simp⟩
    · exact .inr ⟨k, small, same, Nat.two_pow_pos k⟩

theorem withInput (safe : Safe tree xs ws) (block : List UInt8) (index size : Nat) :
    Safe { tree with currentBlock := block, currentBlockIndex := index, fileSize := size } xs ws :=
  ⟨safe.stacked.withInput block index size, safe.grouped, safe.counted⟩

/-- `finalize()` of an object that can still be fed. -/
theorem finalize (safe : Safe tree xs ws) :
    ∃ done ys, Checked.finalize tree = some done ∧ done.finalized = true ∧
      done.blockSize = tree.blockSize ∧ done.currentBlock = tree.currentBlock ∧
      done.currentBlockIndex = tree.currentBlockIndex ∧ done.maxLeaves = tree.maxLeaves ∧
      Holds done.nodes ys := by
  -- the tail, or the one empty block, is hashed first
  obtain ⟨nodes, work, perLeaf, count, ys, vs, flush, safe', fed⟩ :
      ∃ nodes work perLeaf count ys vs,
        (if 0 < tree.currentBlockIndex ∨ tree.count = 0 then
          Checked.hash tree (tree.currentBlock.take tree.currentBlockIndex) else some tree) =
            some { tree with
              nodes := nodes, work := work, blocksPerLeaf := perLeaf, count := count } ∧
        Safe { tree with
          nodes := nodes, work := work, blocksPerLeaf := perLeaf, count := count } ys vs ∧
        (ys ≠ [] ∨ vs ≠ []) := by
    by_cases asked : 0 < tree.currentBlockIndex ∨ tree.count = 0
    · rw [if_pos asked]
      exact safe.hash _
    rw [if_neg asked]
    exact ⟨tree.nodes, tree.work, tree.blocksPerLeaf, tree.count, xs, ws, rfl, safe,
      safe.counted (fun none' => asked (.inr none'))⟩
  obtain ⟨_, _, root, _, _, final, _, _, held, _⟩ :=
    safe'.stacked.finalize safe.stacked.open' flush (safe'.some_or_size fed)
  exact ⟨_, _, final, rfl, rfl, rfl, rfl, rfl, held⟩

end Safe

/-! ## Sequences of calls -/

/-- The calls on an object; a `setLeaves` call brings its buffer, the number of leaves and
the file size. -/
inductive Use where
  | update (data : List UInt8)
  | digest
  | reset
  | setLeavesLTR (buffer : List UInt8) (leaves fileSize : Nat)
  | setLeavesRTL (buffer : List UInt8) (leaves fileSize : Nat)
  | copyLeavesLTR (buffer : List UInt8)
  | copyLeavesRTL (buffer : List UInt8)

namespace Use

/-- The assertion of `setLeavesLTR()` and `setLeavesRTL()`. -/
def Asserts (hasher : Hasher) : Use → Prop
  | .setLeavesLTR buffer leaves _ => leaves * hasher.size = buffer.length
  | .setLeavesRTL buffer leaves _ => leaves * hasher.size = buffer.length
  | _ => True

/-- Leaves are loaded with a file size only if there are any. -/
def Stocked : Use → Prop
  | .setLeavesLTR _ leaves fileSize => 0 < leaves ∨ fileSize % 2 ^ 64 = 0
  | .setLeavesRTL _ leaves fileSize => 0 < leaves ∨ fileSize % 2 ^ 64 = 0
  | _ => True

end Use

namespace MerkleTree

/-- One call, with the given `update()` and `finalize()`. -/
def performWith (update : MerkleTree hasher → List UInt8 → Option (MerkleTree hasher))
    (finalize : MerkleTree hasher → Option (MerkleTree hasher)) (tree : MerkleTree hasher) :
    Use → Option (MerkleTree hasher)
  | .update data => update tree data
  | .digest => finalize tree
  | .reset => some tree.reset
  | .setLeavesLTR buffer leaves fileSize => tree.setLeavesLTR buffer leaves fileSize
  | .setLeavesRTL buffer leaves fileSize => tree.setLeavesRTL buffer leaves fileSize
  | .copyLeavesLTR buffer => (tree.copyLeavesLTR buffer).map fun _ => tree
  | .copyLeavesRTL buffer => (tree.copyLeavesRTL buffer).map fun _ => tree

def perform (tree : MerkleTree hasher) (use : Use) : Option (MerkleTree hasher) :=
  performWith update finalize tree use

/-- One call with every read checked. -/
def performChecked (tree : MerkleTree hasher) (use : Use) : Option (MerkleTree hasher) :=
  performWith Checked.update Checked.finalize tree use

theorem perform_of_checked {after : MerkleTree hasher} {use : Use}
    (succeeds : tree.performChecked use = some after) : tree.perform use = some after := by
  cases use with
  | update data => exact update_of_checked succeeds
  | digest => exact finalize_of_checked succeeds
  | reset | setLeavesLTR buffer leaves fileSize | setLeavesRTL buffer leaves fileSize
  | copyLeavesLTR buffer | copyLeavesRTL buffer => exact succeeds

/-- Between two calls: the current block has room, and all nodes are in place. -/
structure Sound (tree : MerkleTree hasher) : Prop where
  afresh : Holds tree.reset.nodes []
  block : tree.currentBlock.length = tree.blockSize
  index : tree.currentBlockIndex < tree.blockSize
  nodes : (tree.finalized = true ∧ ∃ xs, Holds tree.nodes xs) ∨ ∃ xs ws, Safe tree xs ws

namespace Sound

variable {tree : MerkleTree hasher}

variable (sound : Sound tree)
include sound

theorem holds : ∃ xs, Holds tree.nodes xs := by
  rcases sound.nodes with ⟨_, xs, held⟩ | ⟨xs, _, safe⟩
  · exact ⟨xs, held⟩
  · exact ⟨xs, safe.stacked.nodes⟩

theorem update (data : List UInt8) :
    ∃ updated, Checked.update tree data = some updated ∧ Sound updated := by
  rcases sound.nodes with ⟨final, _⟩ | ⟨xs, ws, safe⟩
  · exact ⟨tree, by simp [Checked.update, updateWith, final], sound⟩
  have carries : blockFeed.Carries Checked.hash
      (fun (after : MerkleTree hasher) _ =>
        after.maxLeaves = tree.maxLeaves ∧ ∃ xs ws, Safe after xs ws)
      (((tree.currentBlock.take tree.currentBlockIndex) ++ data).length + 1) := {
    put := by
      rintro _ _ block index ⟨same, ys, vs, safe⟩
      exact ⟨same, ys, vs, safe.withInput block index _⟩
    hash := by
      rintro after full ⟨same, ys, vs, safe⟩ _ block
      obtain ⟨_, _, _, _, ys', vs', hashEq, safe', _⟩ := safe.hash block
      exact ⟨_, hashEq, rfl, rfl, rfl, same, ys', vs', safe'⟩ }
  have length : (tree.currentBlock.take tree.currentBlockIndex).length =
      tree.currentBlockIndex := by
    have := sound.index
    rw [length_take, sound.block]
    omega
  have buffered : blockFeed.Buffered tree tree.blockSize []
      (tree.currentBlock.take tree.currentBlockIndex) :=
    ⟨rfl, by simp, by rw [length]; exact sound.index, sound.block, length.symm, by
      rw [length]
      rfl⟩
  have positive := Nat.lt_of_le_of_lt (Nat.zero_le _) sound.index
  obtain ⟨updated, full', pending', updateEq, buffered', ⟨same, ys, vs, safe'⟩, _⟩ :=
    updateWith_carries carries
      (by
        rintro _ _ size ⟨same, ys, vs, safe⟩
        exact ⟨same, ys, vs, safe.withInput _ _ size⟩)
      data safe.stacked.open' buffered ⟨rfl, xs, ws, safe⟩
      (Nat.lt_of_lt_of_le (Nat.lt_succ_self _) (Nat.le_mul_of_pos_left _ positive))
  have size : updated.blockSize = tree.blockSize := buffered'.sizeEq
  refine ⟨updated, updateEq, ?_, ?_, ?_, .inr ⟨ys, vs, safe'⟩⟩
  · show Holds (MerkleWorkStack.create updated.maxLeaves) []
    rw [same]
    exact sound.afresh
  · rw [size]
    exact buffered'.blockLength
  · have index : updated.currentBlockIndex = pending'.length := buffered'.index
    rw [size, index]
    exact buffered'.short

theorem finalize : ∃ done, Checked.finalize tree = some done ∧ Sound done := by
  rcases sound.nodes with ⟨final, _⟩ | ⟨xs, ws, safe⟩
  · exact ⟨tree, by simp [Checked.finalize, final], sound⟩
  obtain ⟨done, ys, finalized, final, size, block, index, leaves, held⟩ := safe.finalize
  have afresh := sound.afresh
  unfold MerkleTree.reset at afresh
  rw [← leaves] at afresh
  exact ⟨done, finalized, afresh, by rw [block, size]; exact sound.block,
    by rw [index, size]; exact sound.index, .inl ⟨final, ys, held⟩⟩

end Sound

/-- Fresh stacks with the given leaf nodes, as after construction, `reset()` and
`setLeaves`. -/
theorem sound_reset (empty : Holds tree.reset.nodes [])
    (block : tree.currentBlock.length = tree.blockSize) (positive : 0 < tree.blockSize)
    (held : Holds nodes xs) {count : Nat} (counted : count ≠ 0 → xs ≠ []) :
    Sound { tree.reset with nodes := nodes, count := count } where
  afresh := empty
  block := block
  index := positive
  nodes := .inr ⟨xs, [], ⟨rfl, held, empty, rfl, fun none' => absurd rfl none'⟩,
    .inr ⟨0, by decide, rfl, Nat.one_pos⟩, fun some' => .inl (counted some')⟩

theorem Sound.reset (sound : Sound tree) (held : Holds nodes xs) {count : Nat}
    (counted : count ≠ 0 → xs ≠ []) :
    Sound { tree.reset with nodes := nodes, count := count } :=
  sound_reset sound.afresh sound.block (Nat.lt_of_le_of_lt (Nat.zero_le _) sound.index) held
    counted

theorem setLeaves_sound (sound : Sound tree) {positions : List Nat} {buffer : List UInt8}
    {leaves fileSize : Nat} (asserted : leaves * hasher.size = buffer.length)
    (each : positions.length = leaves) (stocked : 0 < leaves ∨ fileSize % 2 ^ 64 = 0) :
    ∃ after, setLeaves positions tree buffer leaves fileSize = some after ∧ Sound after := by
  obtain ⟨ys, held, length, _⟩ :=
    loadNodes_spec buffer positions (zeroDigest hasher) sound.afresh
  refine ⟨_, if_pos asserted, sound.reset held ?_⟩
  rintro counted empty
  rw [nil_append] at empty
  rw [empty, length_nil] at length
  omega

theorem appendNodes_total (held : Holds nodes xs) {positions : List Nat}
    (inside : ∀ n ∈ positions, n < nodes.pos) (buffer : List UInt8) :
    ∃ copied, appendNodes nodes positions buffer = some copied := by
  induction positions generalizing buffer with
  | nil => exact ⟨buffer, rfl⟩
  | cons n rest ih =>
    have below : n < xs.length := by
      rw [← held.pos_eq]
      exact inside n mem_cons_self
    obtain ⟨copied, copies⟩ := ih (fun m member => inside m (mem_cons_of_mem _ member))
      (buffer ++ xs[n].val)
    exact ⟨copied, by simp only [appendNodes, held.get below, copies]⟩

/-- Every call on a sound object succeeds and leaves it sound. -/
theorem Sound.perform (sound : Sound tree) {use : Use} (asserted : use.Asserts hasher)
    (stocked : use.Stocked) : ∃ after, tree.performChecked use = some after ∧ Sound after := by
  cases use with
  | update data => exact sound.update data
  | digest => exact sound.finalize
  | reset => exact ⟨tree.reset, rfl, sound.reset sound.afresh fun some' => absurd rfl some'⟩
  | setLeavesLTR buffer leaves fileSize =>
    exact setLeaves_sound sound asserted length_range stocked
  | setLeavesRTL buffer leaves fileSize =>
    exact setLeaves_sound sound asserted (by simp) stocked
  | copyLeavesLTR buffer =>
    obtain ⟨xs, held⟩ := sound.holds
    obtain ⟨copied, copies⟩ :=
      appendNodes_total held (fun n member => mem_range.mp member) buffer
    exact ⟨tree, by simp only [performChecked, performWith, copyLeavesLTR, copies,
      Option.map_some], sound⟩
  | copyLeavesRTL buffer =>
    obtain ⟨xs, held⟩ := sound.holds
    obtain ⟨copied, copies⟩ := appendNodes_total held
      (fun n member => mem_range.mp (mem_reverse.mp member)) buffer
    exact ⟨tree, by simp only [performChecked, performWith, copyLeavesRTL, copies,
      Option.map_some], sound⟩

theorem Sound.run (sound : Sound tree) (uses : List Use)
    (asserted : ∀ use ∈ uses, use.Asserts hasher) (stocked : ∀ use ∈ uses, use.Stocked) :
    ∃ after, uses.foldlM performChecked tree = some after ∧
      uses.foldlM MerkleTree.perform tree = some after := by
  induction uses generalizing tree with
  | nil => exact ⟨tree, rfl, rfl⟩
  | cons use rest ih =>
    obtain ⟨next, performed, sound'⟩ :=
      sound.perform (asserted use mem_cons_self) (stocked use mem_cons_self)
    obtain ⟨after, checked, unchecked⟩ := ih sound'
      (fun other member => asserted other (mem_cons_of_mem _ member))
      (fun other member => stocked other (mem_cons_of_mem _ member))
    refine ⟨after, ?_, ?_⟩
    · rw [foldlM_cons, performed]
      exact checked
    · rw [foldlM_cons, perform_of_checked performed]
      exact unchecked

theorem create_sound (hasher : Hasher) (blockSize : Nat) {maxLevels : Nat}
    (deep : 2 ≤ maxLevels) (bound : maxLevels ≤ 64) :
    Sound (create hasher blockSize maxLevels) := by
  have empty : Holds (create hasher blockSize maxLevels).reset.nodes [] :=
    holds_reset deep (calcMaxNumLeaves_eq (by omega) bound)
  refine sound_reset empty length_replicate ?_ empty (fun some' => absurd rfl some')
  show 0 < if blockSize = 0 then defaultMerkleBlockSize else blockSize
  split
  · decide
  · omega

/-- With two to 64 levels and no file size without leaves, no call reads an empty slot or a
slot outside a stack, and no assertion fails. -/
theorem reads_occupied (hasher : Hasher) (blockSize maxLevels : Nat) (deep : 2 ≤ maxLevels)
    (bound : maxLevels ≤ 64) (uses : List Use) (asserted : ∀ use ∈ uses, use.Asserts hasher)
    (stocked : ∀ use ∈ uses, use.Stocked) :
    ∃ after, uses.foldlM performChecked (create hasher blockSize maxLevels) = some after ∧
      uses.foldlM perform (create hasher blockSize maxLevels) = some after :=
  (create_sound hasher blockSize deep bound).run uses asserted stocked

theorem reads_occupied_restored :
    ∃ after, [.setLeavesRTL [1, 2, 3] 3 7, .update [4], .digest].foldlM performChecked
        (create depthHasher 0 2) = some after ∧
      [.setLeavesRTL [1, 2, 3] 3 7, .update [4], .digest].foldlM perform
        (create depthHasher 0 2) = some after :=
  reads_occupied depthHasher 0 2 (by decide) (by decide)
    [.setLeavesRTL [1, 2, 3] 3 7, .update [4], .digest]
    (by
      intro use member
      rcases mem_cons.mp member with rfl | member
      · rfl
      rcases mem_cons.mp member with rfl | member
      · trivial
      rw [mem_singleton.mp member]
      trivial)
    (by
      intro use member
      rcases mem_cons.mp member with rfl | member
      · exact .inl (by decide)
      rcases mem_cons.mp member with rfl | member
      · trivial
      rw [mem_singleton.mp member]
      trivial)

/-- A tree of one level has a leaf array of one slot: after one block it is full, and the
second block compacts a stack whose position is odd.  A tree of two levels that is told a
file size without leaves dereferences an empty slot in `finalize()`. -/
theorem reads_empty_slot :
    (∃ tree, (create depthHasher 1 1).perform (.update [1]) = some tree ∧
      tree.nodes.isFull = true ∧ tree.nodes.pos % 2 = 1 ∧
      compact depthHasher.combine tree.nodes = none ∧ tree.perform (.update [2]) = none) ∧
    (∃ tree, (create depthHasher 1 2).perform (.setLeavesLTR [] 0 5) = some tree ∧
      tree.nodes.getFirst = none ∧ tree.perform .digest = none) := by
  refine ⟨⟨_, rfl, ?_⟩, ⟨_, rfl, ?_⟩⟩
  · decide
  · decide

end MerkleTree

end SamuraiFormal.Crypto
