import Mathlib.Algebra.Group.Nat.Defs
import Mathlib.Data.List.Basic

/-!
# The incremental Merkle tree

The tree hash of `MerkleTree` over an arbitrary underlying hasher.  The tree is
never built: a bounded array of leaf nodes is halved whenever it is full, and a
second work stack collects the blocks of the next leaf.

Both stacks are vectors of owning pointers, so a slot may be empty.  Reading an
empty slot and failing an assertion are `none` here; the machine integers
`m_count`, `m_blocks_per_leaf` and `size` wrap at `2 ^ 64`.
-/

namespace SamuraiFormal.Crypto

/-- A digest of the given size; a `HashValue` fixes its size when it is built. -/
abbrev Digest (size : Nat) : Type := { bytes : List UInt8 // bytes.length = size }

/-- The underlying hasher: its digest depends only on the bytes fed since reset. -/
structure Hasher where
  size : Nat
  digest : List UInt8 → Digest size

/-- `m_hasher` reset, fed the leaf prefix and one block, and asked for its digest. -/
def Hasher.leafHash (hasher : Hasher) (block : List UInt8) : Digest hasher.size :=
  hasher.digest ([0x00] ++ block)

/-- `combine()`: the node hash of two neighbours. -/
def Hasher.combine (hasher : Hasher) (left right : Digest hasher.size) : Digest hasher.size :=
  hasher.digest ([0x01] ++ left.val ++ right.val)

structure MerkleWorkStack (α : Type) where
  nodes : List (Option α)
  size : Nat
  pos : Nat

namespace MerkleWorkStack

variable {α : Type}

def create (capacity : Nat) : MerkleWorkStack α :=
  ⟨List.replicate capacity none, 0, 0⟩

def isFull (stack : MerkleWorkStack α) : Bool := stack.pos == stack.nodes.length

/-- `resize(nodes.size() * 2)`. -/
def grow (stack : MerkleWorkStack α) : MerkleWorkStack α :=
  { stack with nodes := stack.nodes ++ List.replicate stack.nodes.length none }

def add (stack : MerkleWorkStack α) (node : Option α) : MerkleWorkStack α :=
  let roomy := if stack.isFull then stack.grow else stack
  { nodes := roomy.nodes.set roomy.pos node
    size := (roomy.size + 1) % 2 ^ 64
    pos := roomy.pos + 1 }

def get (stack : MerkleWorkStack α) (position : Nat) : Option α :=
  (stack.nodes[position]?).join

def set (stack : MerkleWorkStack α) (node : Option α) (position : Nat) : MerkleWorkStack α :=
  { stack with nodes := stack.nodes.set position node }

/-- Destroying and releasing a node both leave its slot empty. -/
def destroy (stack : MerkleWorkStack α) (position : Nat) : MerkleWorkStack α :=
  stack.set none position

def release (stack : MerkleWorkStack α) (position : Nat) : Option α × MerkleWorkStack α :=
  (stack.get position, stack.destroy position)

def getFirst (stack : MerkleWorkStack α) : Option α :=
  if stack.pos = 0 then none else stack.get (stack.pos - 1)

def releaseFirst (stack : MerkleWorkStack α) : Option α × MerkleWorkStack α :=
  (stack.getFirst, { stack.destroy (stack.pos - 1) with pos := stack.pos - 1 })

def clear (stack : MerkleWorkStack α) : MerkleWorkStack α :=
  ⟨List.replicate stack.nodes.length none, 0, 0⟩

def setPosition (stack : MerkleWorkStack α) (position : Nat) : MerkleWorkStack α :=
  { stack with
    nodes := stack.nodes.take position ++
      List.replicate (stack.nodes.length - position) none
    pos := position }

end MerkleWorkStack

section Compacting

variable {α : Type} (combine : α → α → α)

/-- The `for` loop of `compact()`, reading at `i` and repacking at `j`. -/
def compactLoop (stack : MerkleWorkStack α) (i j : Nat) : Option (MerkleWorkStack α × Nat) :=
  if i < stack.pos then
    match stack.get i, stack.get (i + 1) with
    | some left, some right =>
      let emptied := (stack.destroy i).destroy (i + 1)
      compactLoop (emptied.set (some (combine left right)) j) (i + 2) (j + 1)
    | _, _ => none
  else some (stack, j)
termination_by stack.pos - i
decreasing_by
  simp only [MerkleWorkStack.set, MerkleWorkStack.destroy]
  omega

/-- `compact()`; the assertion is that the position is even. -/
def compact (stack : MerkleWorkStack α) : Option (MerkleWorkStack α) :=
  if stack.pos % 2 = 0 then
    (compactLoop combine stack 0 0).map fun (repacked, count) => repacked.setPosition count
  else none

/-- The `while` loop of `compact_all()`, for at most `fuel` passes. -/
def compactAllLoop : Nat → MerkleWorkStack α → Option (MerkleWorkStack α)
  | 0, stack => if 1 < stack.pos then none else some stack
  | fuel + 1, stack =>
    if 1 < stack.pos then
      if stack.pos % 2 = 1 then
        let (spare, rest) := stack.releaseFirst
        (compact combine rest).bind fun halved =>
          compactAllLoop fuel (if spare.isSome then halved.add spare else halved)
      else (compact combine stack).bind (compactAllLoop fuel)
    else some stack

/-- `compact_all()`: every pass at least halves the position, rounding up. -/
def compactAll (stack : MerkleWorkStack α) : Option (MerkleWorkStack α) :=
  compactAllLoop combine stack.pos stack

end Compacting

/-- `calcMaxNumLeaves()`. -/
def calcMaxNumLeaves (depth : Nat) : Nat :=
  if depth < 1 then 1
  else (List.range (depth - 1)).foldl (fun level _ => level * 2 % 2 ^ 64) 1

def defaultMerkleBlockSize : Nat := 1024

/-- The members of `MerkleTree` and of its base class `Hash`. -/
structure MerkleTree (hasher : Hasher) where
  blockSize : Nat
  currentBlock : List UInt8
  currentBlockIndex : Nat
  fileSize : Nat
  finalized : Bool
  finalizedValue : Digest hasher.size
  maxLeaves : Nat
  blocksPerLeaf : Nat
  count : Nat
  nodes : MerkleWorkStack (Digest hasher.size)
  work : MerkleWorkStack (Digest hasher.size)

namespace MerkleTree

variable {hasher : Hasher}

/-- A digest that has not been set. -/
def zeroDigest (hasher : Hasher) : Digest hasher.size :=
  ⟨List.replicate hasher.size 0, List.length_replicate⟩

/-- The constructor; a block size of zero selects the default. -/
def create (hasher : Hasher) (blockSize maxLevels : Nat) : MerkleTree hasher :=
  let size := if blockSize = 0 then defaultMerkleBlockSize else blockSize
  { blockSize := size
    currentBlock := List.replicate size 0
    currentBlockIndex := 0
    fileSize := 0
    finalized := false
    finalizedValue := zeroDigest hasher
    maxLeaves := calcMaxNumLeaves maxLevels
    blocksPerLeaf := 1
    count := 0
    nodes := .create (calcMaxNumLeaves maxLevels)
    work := .create (calcMaxNumLeaves maxLevels) }

/-- `reset()`; the bytes of the current block are not cleared, only its index. -/
def reset (tree : MerkleTree hasher) : MerkleTree hasher :=
  { tree with
    blocksPerLeaf := 1
    count := 0
    currentBlockIndex := 0
    fileSize := 0
    nodes := .create tree.maxLeaves
    work := .create tree.maxLeaves
    finalized := false }

/-- The first branch of `hash()`: a full leaf array is halved before it is used. -/
def makeRoom (tree : MerkleTree hasher) : Option (MerkleTree hasher) :=
  if tree.nodes.isFull then
    (compact hasher.combine tree.nodes).map fun halved =>
      { tree with nodes := halved, blocksPerLeaf := tree.blocksPerLeaf * 2 % 2 ^ 64 }
  else some tree

/-- The shared step of `hash()` and `finalize()`: the work stack becomes one leaf. -/
def promoteWork (tree : MerkleTree hasher) : Option (MerkleTree hasher) :=
  (compactAll hasher.combine tree.work).map fun reduced =>
    let (leaf, rest) := reduced.releaseFirst
    { tree with nodes := tree.nodes.add leaf, work := rest.clear }

/-- `hash()`: one more block. -/
def hash (tree : MerkleTree hasher) (data : List UInt8) : Option (MerkleTree hasher) :=
  if tree.finalized then some tree
  else
    (makeRoom tree).bind fun roomy =>
      let fed := { roomy with work := roomy.work.add (some (hasher.leafHash data)) }
      (if fed.work.size = fed.blocksPerLeaf then promoteWork fed else some fed).map
        fun promoted => { promoted with count := (promoted.count + 1) % 2 ^ 64 }

/-- The `while` loop of `Hash::update()` over what is left of the input. -/
def updateLoop : Nat → MerkleTree hasher → List UInt8 → Option (MerkleTree hasher)
  | _, tree, [] => some tree
  | 0, _, _ :: _ => none
  | fuel + 1, tree, data@(_ :: _) =>
    let blocklen := min data.length (tree.blockSize - tree.currentBlockIndex)
    let copied := { tree with
      currentBlock := tree.currentBlock.take tree.currentBlockIndex ++
        data.take blocklen ++
        tree.currentBlock.drop (tree.currentBlockIndex + blocklen)
      currentBlockIndex := tree.currentBlockIndex + blocklen }
    if copied.currentBlockIndex = copied.blockSize then
      (hash { copied with currentBlockIndex := 0 } copied.currentBlock).bind fun hashed =>
        updateLoop fuel hashed (data.drop blocklen)
    else updateLoop fuel copied (data.drop blocklen)

/-- `Hash::update()`; every pass of its loop takes at least one byte. -/
def update (tree : MerkleTree hasher) (data : List UInt8) : Option (MerkleTree hasher) :=
  if data = [] ∨ tree.finalized = true ∨ tree.blockSize ≤ tree.currentBlockIndex then
    some tree
  else
    (updateLoop data.length tree data).map fun updated =>
      { updated with fileSize := (updated.fileSize + data.length) % 2 ^ 64 }

/-- The copying loop of `finalize()`, from position `n` for `left` more nodes. -/
def copyNodes (source : MerkleWorkStack (Digest hasher.size)) :
    Nat → Nat → MerkleWorkStack (Digest hasher.size) →
      Option (MerkleWorkStack (Digest hasher.size))
  | 0, _, target => some target
  | left + 1, n, target =>
    match source.get n with
    | none => none
    | some node => copyNodes source left (n + 1) (target.add (some node))

/-- The loop of `finalize()` that moves the saved leaves back. -/
def moveNodes : Nat → Nat → MerkleWorkStack (Digest hasher.size) →
    MerkleWorkStack (Digest hasher.size) → MerkleWorkStack (Digest hasher.size)
  | 0, _, _, target => target
  | left + 1, n, source, target =>
    let (node, rest) := source.release n
    moveNodes left (n + 1) rest (target.add node)

/-- The part of `finalize()` after the tail has become a leaf. -/
def finishRoot (tree : MerkleTree hasher) : Option (MerkleTree hasher) :=
  (copyNodes tree.nodes tree.nodes.pos 0 tree.work).bind fun saved =>
    (compactAll hasher.combine tree.nodes).bind fun reduced =>
      match reduced.getFirst with
      | none => none
      | some root =>
        some { tree with
          finalizedValue := root
          nodes := moveNodes saved.pos 0 saved reduced.clear
          work := saved.clear
          finalized := true }

/-- `finalize()`. -/
def finalize (tree : MerkleTree hasher) : Option (MerkleTree hasher) :=
  if tree.finalized then some tree
  else
    (if 0 < tree.currentBlockIndex ∨ tree.count = 0 then
      hash tree (tree.currentBlock.take tree.currentBlockIndex)
    else some tree).bind fun flushed =>
      (if flushed.work.size ≠ 0 then promoteWork flushed else some flushed).bind finishRoot

/-- `digest()`. -/
def digest (tree : MerkleTree hasher) : Option (MerkleTree hasher × Digest hasher.size) :=
  (finalize tree).map fun done => (done, done.finalizedValue)

def countLeaves (tree : MerkleTree hasher) : Nat := tree.nodes.pos

end MerkleTree

end SamuraiFormal.Crypto
