import SamuraiFormal.Library.BlockFeed
import SamuraiFormal.Crypto.MerkleReference

/-!
# The Tiger hash

`Tiger` over the accumulator of its base class `Hash`.  The base class collects the input in
a block, pads the last one and appends the length; the derived class compresses a block into
three words.  The four tables of the compression are one array of 1024 words, which is a
parameter here.

The block size is an argument of the second constructor; the compression reads 64 bytes.
-/

namespace SamuraiFormal.Crypto

open Library

/-- The three words `result`. -/
structure TigerState where
  a : UInt64
  b : UInt64
  c : UInt64
  deriving DecidableEq

namespace TigerState

variable (sboxes : Fin 1024 → UInt64)

/-- `SBOX1` to `SBOX4` are 256 words each, at the byte of `c` that starts at `shift`. -/
def sbox (table : Nat) (c shift : UInt64) : UInt64 :=
  sboxes (Fin.ofNat 1024 (256 * (table - 1) + ((c >>> shift) &&& 0xFF).toNat))

/-- `round()`; the three words are passed by reference. -/
def round (a b c x mul : UInt64) : UInt64 × UInt64 × UInt64 :=
  let c := c ^^^ x
  let a := a - (sbox sboxes 1 c 0 ^^^ sbox sboxes 2 c 0x10 ^^^
    sbox sboxes 3 c 0x20 ^^^ sbox sboxes 4 c 0x30)
  let b := b + (sbox sboxes 4 c 0x08 ^^^ sbox sboxes 3 c 0x18 ^^^
    sbox sboxes 2 c 0x28 ^^^ sbox sboxes 1 c 0x38)
  (a, b * mul, c)

/-- `pass()`: eight rounds, each with the words one place on. -/
def pass (X : Vector UInt64 8) (a b c mul : UInt64) : UInt64 × UInt64 × UInt64 :=
  let (a, b, c) := round sboxes a b c X[0] mul
  let (b, c, a) := round sboxes b c a X[1] mul
  let (c, a, b) := round sboxes c a b X[2] mul
  let (a, b, c) := round sboxes a b c X[3] mul
  let (b, c, a) := round sboxes b c a X[4] mul
  let (c, a, b) := round sboxes c a b X[5] mul
  let (a, b, c) := round sboxes a b c X[6] mul
  let (b, c, a) := round sboxes b c a X[7] mul
  (a, b, c)

/-- `key_schedule()`. -/
def keySchedule (X : Vector UInt64 8) : Vector UInt64 8 :=
  let X := X.set 0 (X[0] - (X[7] ^^^ 0xA5A5A5A5A5A5A5A5))
  let X := X.set 1 (X[1] ^^^ X[0])
  let X := X.set 2 (X[2] + X[1])
  let X := X.set 3 (X[3] - (X[2] ^^^ ((~~~ X[1]) <<< 19)))
  let X := X.set 4 (X[4] ^^^ X[3])
  let X := X.set 5 (X[5] + X[4])
  let X := X.set 6 (X[6] - (X[5] ^^^ ((~~~ X[4]) >>> 23)))
  let X := X.set 7 (X[7] ^^^ X[6])
  let X := X.set 0 (X[0] + X[7])
  let X := X.set 1 (X[1] - (X[0] ^^^ ((~~~ X[7]) <<< 19)))
  let X := X.set 2 (X[2] ^^^ X[1])
  let X := X.set 3 (X[3] + X[2])
  let X := X.set 4 (X[4] - (X[3] ^^^ ((~~~ X[2]) >>> 23)))
  let X := X.set 5 (X[5] ^^^ X[4])
  let X := X.set 6 (X[6] + X[5])
  X.set 7 (X[7] - (X[6] ^^^ 0x0123456789ABCDEF))

/-- The passes after the third, with the words rotated after each. -/
def morePasses : Nat → Vector UInt64 8 → UInt64 → UInt64 → UInt64 → UInt64 × UInt64 × UInt64
  | 0, _, a, b, c => (a, b, c)
  | count + 1, X, a, b, c =>
    let X := keySchedule X
    let (a, b, c) := pass sboxes X a b c 9
    morePasses count X c a b

/-- Word `j` of a block, lowest byte first. -/
def word (data : List UInt8) (j : Nat) : UInt64 :=
  (List.range 8).foldl (fun value i =>
    value ||| ((data.getD (8 * j + i) 0).toUInt64 <<< UInt64.ofNat (8 * i))) 0

/-- `hash()`: one block is compressed into the words. -/
def compress (passes : Nat) (state : TigerState) (data : List UInt8) : TigerState :=
  let X := Vector.ofFn fun j : Fin 8 => word data j
  let (a, b, c) := pass sboxes X state.a state.b state.c 5
  let X := keySchedule X
  let (c, a, b) := pass sboxes X c a b 7
  let X := keySchedule X
  let (b, c, a) := pass sboxes X b c a 9
  let (a, b, c) := morePasses sboxes (passes - 3) X a b c
  ⟨a ^^^ state.a, b - state.b, c + state.c⟩

/-- The words `reset()` starts from. -/
def initial : TigerState := ⟨0x0123456789ABCDEF, 0xFEDCBA9876543210, 0xF096A5B4C3B2E187⟩

end TigerState

/-- `get_byte()` of a 64-bit word: offset zero is the highest byte. -/
def getByte (offset : Nat) (input : UInt64) : UInt8 :=
  (input >>> UInt64.ofNat ((7 - (offset &&& 7)) <<< 3)).toUInt8

def tigerHashSize : Nat := 192 / 8

/-- What the constructor of `Hash` fixes. -/
structure HashParameters where
  blockSize : Nat
  bigBitEndian : Bool
  bigByteEndian : Bool
  countSize : Nat

/-- The members of `Hash` and `Tiger`. -/
structure Tiger where
  parameters : HashParameters
  passes : Nat
  currentBlock : List UInt8
  currentBlockIndex : Nat
  fileSize : UInt64
  finalized : Bool
  finalizedValue : Digest tigerHashSize
  result : TigerState

namespace Tiger

variable (sboxes : Fin 1024 → UInt64)

def reset (tiger : Tiger) : Tiger :=
  { tiger with
    result := .initial
    currentBlock := List.replicate tiger.parameters.blockSize 0
    currentBlockIndex := 0
    fileSize := 0
    finalized := false }

/-- The second constructor; the first is `create 3 64`. -/
def create (passes blockSize : Nat) : Tiger :=
  reset
    { parameters := ⟨blockSize, false, false, 8⟩
      passes := passes
      currentBlock := List.replicate blockSize 0
      currentBlockIndex := 0
      fileSize := 0
      finalized := false
      finalizedValue := ⟨List.replicate tigerHashSize 0, List.length_replicate⟩
      result := ⟨0, 0, 0⟩ }

def hash (tiger : Tiger) (data : List UInt8) : Tiger :=
  { tiger with result := tiger.result.compress sboxes tiger.passes data }

/-- The current block of the base class. -/
def blockFeed : BlockFeed Tiger UInt8 where
  blockSize tiger := tiger.parameters.blockSize
  block tiger := tiger.currentBlock
  index tiger := tiger.currentBlockIndex
  put tiger block index := { tiger with currentBlock := block, currentBlockIndex := index }

/-- `Hash::update()`; its `while` loop fills the current block and hashes it when it is
full. -/
def update (tiger : Tiger) (data : List UInt8) : Option Tiger :=
  if data = [] ∨ tiger.finalized = true ∨
      tiger.parameters.blockSize ≤ tiger.currentBlockIndex then
    some tiger
  else
    (blockFeed.loop (fun tiger block => some (hash sboxes tiger block)) data.length tiger
      data).map fun updated =>
        { updated with fileSize := updated.fileSize + UInt64.ofNat data.length }

/-- `finalize_count()`. -/
def finalizeCount (tiger : Tiger) : Tiger :=
  if tiger.parameters.blockSize < 8 then tiger
  else
    let count := (List.range 8).map fun j =>
      getByte (if tiger.parameters.bigByteEndian then j else 7 - j) (8 * tiger.fileSize)
    { tiger with
      currentBlock := tiger.currentBlock.take (tiger.parameters.blockSize - 8) ++ count }

/-- The first half of `Hash::finalize()`: the end mark and zeros up to the end of the
block. -/
def markEnd (tiger : Tiger) : Tiger :=
  let mark : UInt8 := if tiger.parameters.bigBitEndian then 0x80 else 0x01
  let marked := tiger.currentBlock.set tiger.currentBlockIndex mark
  { tiger with
    currentBlock := marked.take (tiger.currentBlockIndex + 1) ++
      List.replicate (tiger.parameters.blockSize - (tiger.currentBlockIndex + 1)) 0 }

/-- `Hash::finalize()`; without room for the count the padded block is hashed first. -/
def finalize (tiger : Tiger) : Tiger :=
  if tiger.finalized then tiger
  else
    let marked := markEnd tiger
    let roomy :=
      if tiger.parameters.blockSize - tiger.parameters.countSize ≤ tiger.currentBlockIndex then
        { hash sboxes marked marked.currentBlock with
          currentBlock := List.replicate tiger.parameters.blockSize 0 }
      else marked
    let counted := finalizeCount roomy
    hash sboxes counted counted.currentBlock

/-- The words in the order `internal_finalize()` writes them. -/
def output (state : TigerState) : Digest tigerHashSize :=
  ⟨(List.range tigerHashSize).map fun j =>
    getByte (7 - j % 8) ([state.a, state.b, state.c].getD (j / 8) 0), by simp⟩

/-- `internal_finalize()`. -/
def internalFinalize (tiger : Tiger) : Tiger :=
  if tiger.finalized then tiger
  else
    let done := finalize sboxes tiger
    { done with finalizedValue := output done.result, finalized := true }

def digest (tiger : Tiger) : Tiger × Digest tigerHashSize :=
  let done := internalFinalize sboxes tiger
  (done, done.finalizedValue)

/-- One call of the owner. -/
def call (tiger : Tiger) : Call → Option (Tiger × List (Digest tigerHashSize))
  | .update data => (update sboxes tiger data).map fun updated => (updated, [])
  | .digest => some ((digest sboxes tiger).1, [(digest sboxes tiger).2])
  | .reset => some (tiger.reset, [])

/-- The digests a sequence of calls returns. -/
def digests : Tiger → List Call → Option (List (Digest tigerHashSize))
  | _, [] => some []
  | tiger, next :: calls =>
    (call sboxes tiger next).bind fun (after, values) =>
      (digests after calls).map fun later => values ++ later

end Tiger

end SamuraiFormal.Crypto
