import SamuraiFormal.Library.PairTree
import SamuraiFormal.Crypto.MerkleTree

/-!
# The reference tree hash

What the Merkle tree is for, said without any stack: the input is cut into
blocks, every block is hashed with the leaf prefix, and the leaf hashes are
paired level by level until one node is left.  `Reference` is the abstract
object whose calls the incremental tree has to answer.
-/

namespace SamuraiFormal.Crypto

open Library.PairTree
open List

/-- Blocks of the given size; the last may be shorter, and the empty input is one
empty block. -/
def cutBlocks (blockSize : Nat) (input : List UInt8) : List (List UInt8) :=
  if input.length ≤ blockSize ∨ blockSize = 0 then [input]
  else input.take blockSize :: cutBlocks blockSize (input.drop blockSize)
termination_by input.length
decreasing_by
  rw [length_drop]
  omega

/-- The reference digest; it exists because there is always at least one block. -/
def referenceDigest (hasher : Hasher) (blockSize : Nat) (input : List UInt8) :
    Option (Digest hasher.size) :=
  treeRoot hasher.combine ((cutBlocks blockSize input).map hasher.leafHash)

variable {blockSize : Nat}

/-- A full block in front of more input is the first block of the cut. -/
theorem cutBlocks_block (positive : 0 < blockSize) {block rest : List UInt8}
    (full : block.length = blockSize) (more : rest ≠ []) :
    cutBlocks blockSize (block ++ rest) = block :: cutBlocks blockSize rest := by
  have long : ¬ ((block ++ rest).length ≤ blockSize ∨ blockSize = 0) := by
    have := length_pos_of_ne_nil more
    rw [length_append]
    omega
  rw [cutBlocks, if_neg long, take_left' full, drop_left' full]

theorem cutBlocks_short {input : List UInt8} (short : input.length ≤ blockSize) :
    cutBlocks blockSize input = [input] := by
  rw [cutBlocks, if_pos (.inl short)]

/-- Full blocks with a pending tail are cut back into those blocks and the tail. -/
theorem cutBlocks_pending (positive : 0 < blockSize) {full : List (List UInt8)}
    {pending : List UInt8} (sizes : ∀ block ∈ full, block.length = blockSize)
    (short : pending.length < blockSize) (tail : pending ≠ [] ∨ full = []) :
    cutBlocks blockSize (full.flatten ++ pending) = full ++ [pending] := by
  induction full with
  | nil => simpa using cutBlocks_short (Nat.le_of_lt short)
  | cons block rest ih =>
    have nonempty : pending ≠ [] := by simpa using tail
    have inner := ih (fun other member => sizes other (mem_cons_of_mem _ member))
      (.inl nonempty)
    rw [flatten_cons, append_assoc, cutBlocks_block positive
      (sizes block mem_cons_self) (by simp [nonempty]), inner]
    rfl

/-- Without a pending tail the full blocks are all there is. -/
theorem cutBlocks_exact (positive : 0 < blockSize) {full : List (List UInt8)}
    (sizes : ∀ block ∈ full, block.length = blockSize) (some' : full ≠ []) :
    cutBlocks blockSize full.flatten = full := by
  induction full with
  | nil => exact absurd rfl some'
  | cons block rest ih =>
    have blockLength := sizes block mem_cons_self
    cases rest with
    | nil =>
      rw [flatten_cons, flatten_nil, append_nil]
      exact cutBlocks_short (by omega)
    | cons next rest =>
      have nextLength := sizes next (by simp)
      have more : (next :: rest).flatten ≠ [] := by
        intro empty
        have := congrArg List.length empty
        simp only [flatten_cons, length_append, length_nil] at this
        omega
      rw [flatten_cons, cutBlocks_block positive blockLength more,
        ih (fun other member => sizes other (mem_cons_of_mem _ member)) (by simp)]

/-- The calls an owner of the object makes. -/
inductive Call where
  | update (data : List UInt8)
  | digest
  | reset

/-- What the object stands for: the bytes since the last reset, and whether the
digest has been taken. -/
structure Reference where
  input : List UInt8
  finalized : Bool

namespace Reference

def fresh : Reference := ⟨[], false⟩

def step (reference : Reference) : Call → Reference
  | .update data =>
    if reference.finalized then reference
    else { reference with input := reference.input ++ data }
  | .digest => { reference with finalized := true }
  | .reset => fresh

/-- The digests a sequence of calls returns. -/
def digests (hasher : Hasher) (blockSize : Nat) :
    Reference → List Call → List (Option (Digest hasher.size))
  | _, [] => []
  | reference, .digest :: calls =>
    referenceDigest hasher blockSize reference.input ::
      digests hasher blockSize (reference.step .digest) calls
  | reference, .update data :: calls =>
    digests hasher blockSize (reference.step (.update data)) calls
  | reference, .reset :: calls => digests hasher blockSize (reference.step .reset) calls

/-- The abstract object after a sequence of calls. -/
def run (reference : Reference) (calls : List Call) : Reference := calls.foldl step reference

/-- Every input between two resets is cut into fewer than `2 ^ 64` blocks, which is
what the 64-bit block counter of the tree can count. -/
def Countable (blockSize : Nat) : Reference → List Call → Prop
  | reference, [] => (cutBlocks blockSize reference.input).length < 2 ^ 64
  | reference, call :: calls =>
    (cutBlocks blockSize reference.input).length < 2 ^ 64 ∧
      Countable blockSize (reference.step call) calls

theorem Countable.now {reference : Reference} {calls : List Call}
    (countable : reference.Countable blockSize calls) :
    (cutBlocks blockSize reference.input).length < 2 ^ 64 := by
  cases calls with
  | nil => exact countable
  | cons _ _ => exact countable.1

end Reference

namespace MerkleTree

variable {hasher : Hasher}

def call (tree : MerkleTree hasher) :
    Call → Option (MerkleTree hasher × List (Digest hasher.size))
  | .update data => (tree.update data).map fun updated => (updated, [])
  | .digest => tree.digest.map fun (done, value) => (done, [value])
  | .reset => some (tree.reset, [])

/-- The digests the tree returns over a sequence of calls. -/
def digests : MerkleTree hasher → List Call → Option (List (Digest hasher.size))
  | _, [] => some []
  | tree, next :: calls =>
    (tree.call next).bind fun (after, values) =>
      (digests after calls).map fun later => values ++ later

/-- The tree after a sequence of calls. -/
def run (tree : MerkleTree hasher) (calls : List Call) : Option (MerkleTree hasher) :=
  calls.foldlM (fun tree next => (tree.call next).map Prod.fst) tree

end MerkleTree

end SamuraiFormal.Crypto
