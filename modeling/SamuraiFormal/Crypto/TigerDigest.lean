import SamuraiFormal.Crypto.Tiger

/-!
# Tiger is the compression of the padded message

The reference says what the digest is without any buffer: the message, the end mark, the
least number of zeros and the length are cut into blocks, the compression function is folded
over them, and the bytes of the three words are the digest.  Tiger answers every sequence of
calls like the abstract object with that digest, as long as the length in bits fits into 64
bits.
-/

namespace SamuraiFormal.Crypto

open Library

open Library.BlockFeed (flatten_length_of_sizes)
open List

/-- Some number of zeros fills up the last block. -/
theorem exists_zeroPadding (length : Nat) : ∃ zeros, (length + 1 + zeros + 8) % 64 = 0 :=
  ⟨(64 - (length + 9) % 64) % 64, by omega⟩

/-- The least number of zeros between the end mark and the count. -/
def zeroPadding (length : Nat) : Nat := Nat.find (exists_zeroPadding length)

/-- The lowest `count` bytes of a number, lowest first. -/
def littleEndian (count value : Nat) : List UInt8 :=
  (List.range count).map fun j => UInt8.ofNat (value / 256 ^ j)

def padded (message : List UInt8) : List UInt8 :=
  message ++ [0x01] ++ List.replicate (zeroPadding message.length) 0 ++
    littleEndian 8 (8 * message.length)

/-- The three words of a state, each with its lowest byte first. -/
def TigerState.bytes (state : TigerState) : Digest tigerHashSize :=
  ⟨littleEndian 8 state.a.toNat ++ littleEndian 8 state.b.toNat ++ littleEndian 8 state.c.toNat,
    by simp [littleEndian, tigerHashSize]⟩

/-- The reference digest of a message. -/
def tigerReference (sboxes : Fin 1024 → UInt64) (passes : Nat) (message : List UInt8) :
    Digest tigerHashSize :=
  TigerState.bytes ((cutBlocks 64 (padded message)).foldl (.compress sboxes passes) .initial)

namespace Reference

/-- What an object answers whose digest is `value` of its input. -/
def answers {α : Type} (value : List UInt8 → α) : Reference → List Call → List α
  | _, [] => []
  | reference, .digest :: calls =>
    value reference.input :: answers value (reference.step .digest) calls
  | reference, .update data :: calls => answers value (reference.step (.update data)) calls
  | reference, .reset :: calls => answers value (reference.step .reset) calls

/-- Every input between two resets is shorter than `limit`. -/
def Below (limit : Nat) : Reference → List Call → Prop
  | reference, [] => reference.input.length < limit
  | reference, call :: calls =>
    reference.input.length < limit ∧ Below limit (reference.step call) calls

instance decidableBelow (limit : Nat) :
    (reference : Reference) → (calls : List Call) → Decidable (reference.Below limit calls)
  | reference, [] => inferInstanceAs (Decidable (reference.input.length < limit))
  | reference, call :: calls =>
    @instDecidableAnd _ _ _ (decidableBelow limit (reference.step call) calls)

end Reference

theorem zeroPadding_eq (length : Nat) : zeroPadding length = (64 - (length + 9) % 64) % 64 := by
  have found := Nat.find_spec (exists_zeroPadding length)
  have least := Nat.find_min' (exists_zeroPadding length)
    (show (length + 1 + (64 - (length + 9) % 64) % 64 + 8) % 64 = 0 by omega)
  unfold zeroPadding
  omega

theorem getByte_eq {j : Nat} (small : j < 8) (input : UInt64) :
    getByte (7 - j) input = UInt8.ofNat (input.toNat / 256 ^ j) := by
  have shifts : ∀ j < 8, (7 - ((7 - j) &&& 7)) <<< 3 = 8 * j := by decide
  have shift := shifts j small
  have power : (256 : Nat) ^ j = 2 ^ (8 * j) := by
    rw [Nat.pow_mul]
  rw [getByte, power]
  apply UInt8.toNat_inj.mp
  rw [UInt64.toNat_toUInt8, UInt64.toNat_shiftRight, UInt64.toNat_ofNat',
    Nat.shiftRight_eq_div_pow]
  congr 3
  omega

/-- The count is the length in bits, since that fits into 64 bits. -/
theorem count_eq {length : Nat} (short : length < 2 ^ 61) :
    ((List.range 8).map fun j => getByte (7 - j) (8 * UInt64.ofNat length)) =
      littleEndian 8 (8 * length) := by
  refine map_congr_left fun j member => ?_
  have bits : (8 * UInt64.ofNat length).toNat = 8 * length := by
    show 8 * (length % 2 ^ 64) % 2 ^ 64 = 8 * length
    omega
  rw [getByte_eq (mem_range.mp member), bits]

/-- The output loop writes the words of the state in their order. -/
theorem output_eq_bytes (state : TigerState) : Tiger.output state = state.bytes := by
  have word : ∀ value : UInt64, littleEndian 8 value.toNat =
      (List.range 8).map fun j => getByte (7 - j) value := by
    intro value
    refine map_congr_left fun j member => ?_
    rw [getByte_eq (mem_range.mp member)]
  refine Subtype.ext ?_
  show _ = littleEndian 8 _ ++ littleEndian 8 _ ++ littleEndian 8 _
  rw [word, word, word]
  rfl

/-- With room for the count, the padded message ends with one block. -/
theorem cutBlocks_padded_short {full : List (List UInt8)} {pending : List UInt8}
    (sizes : ∀ block ∈ full, block.length = 64) (short : pending.length < 56) :
    cutBlocks 64 (padded (full.flatten ++ pending)) = full ++
      [pending ++ [0x01] ++ List.replicate (55 - pending.length) 0 ++
        littleEndian 8 (8 * (full.flatten ++ pending).length)] := by
  have length := flatten_length_of_sizes sizes
  have zeros : zeroPadding (full.flatten ++ pending).length = 55 - pending.length := by
    rw [zeroPadding_eq, length_append]
    omega
  have cut := @cutBlocks_exact 64 (by decide)
    (full ++ [pending ++ [0x01] ++ List.replicate (55 - pending.length) 0 ++
      littleEndian 8 (8 * (full.flatten ++ pending).length)])
    (by
      intro block member
      rcases mem_append.mp member with earlier | last
      · exact sizes block earlier
      rw [mem_singleton.mp last]
      simp [littleEndian]
      omega)
    (by simp)
  rw [flatten_append, flatten_singleton] at cut
  rw [← cut, padded, zeros]
  simp only [append_assoc]

/-- Without it, the padding runs over into a second block. -/
theorem cutBlocks_padded_long {full : List (List UInt8)} {pending : List UInt8}
    (sizes : ∀ block ∈ full, block.length = 64) (long : 56 ≤ pending.length)
    (short : pending.length < 64) :
    cutBlocks 64 (padded (full.flatten ++ pending)) = full ++
      [pending ++ [0x01] ++ List.replicate (63 - pending.length) 0,
        List.replicate 56 0 ++ littleEndian 8 (8 * (full.flatten ++ pending).length)] := by
  have length := flatten_length_of_sizes sizes
  have zeros : zeroPadding (full.flatten ++ pending).length = 63 - pending.length + 56 := by
    rw [zeroPadding_eq, length_append]
    omega
  have cut := @cutBlocks_exact 64 (by decide)
    (full ++ [pending ++ [0x01] ++ List.replicate (63 - pending.length) 0,
      List.replicate 56 0 ++ littleEndian 8 (8 * (full.flatten ++ pending).length)])
    (by
      intro block member
      rcases mem_append.mp member with earlier | last
      · exact sizes block earlier
      rcases mem_cons.mp last with rfl | last
      · simp
        omega
      · rw [mem_singleton.mp last]
        simp [littleEndian])
    (by simp)
  rw [flatten_append, flatten_cons, flatten_singleton] at cut
  rw [← cut, padded, zeros, replicate_add]
  simp only [append_assoc]

variable {tiger : Tiger}

namespace Tiger

variable {sboxes : Fin 1024 → UInt64}

/-! ## One call -/

/-- What the constructor fixes and no call changes. -/
structure Shaped (tiger : Tiger) (passes : Nat) : Prop where
  parameters : tiger.parameters = ⟨64, false, false, 8⟩
  passesEq : tiger.passes = passes
  block : tiger.currentBlock.length = 64

/-- The words after the blocks `full`, with the file size `size`. -/
structure Compressed (sboxes : Fin 1024 → UInt64) (tiger : Tiger) (passes : Nat) (size : UInt64)
    (full : List (List UInt8)) : Prop where
  open' : tiger.finalized = false
  parameters : tiger.parameters = ⟨64, false, false, 8⟩
  passesEq : tiger.passes = passes
  result : tiger.result = full.foldl (.compress sboxes passes) .initial
  fileSize : tiger.fileSize = size

theorem blockFeed_lawful : blockFeed.Lawful :=
  ⟨fun _ _ _ => rfl, fun _ _ _ => rfl, fun _ _ _ => rfl⟩

theorem carries_compressed (passes : Nat) (size : UInt64) (limit : Nat) :
    blockFeed.Carries (fun tiger block => some (hash sboxes tiger block))
      (fun tiger full => Compressed sboxes tiger passes size full) limit where
  put := fun _ _ compressed => ⟨compressed.open', compressed.parameters, compressed.passesEq,
    compressed.result, compressed.fileSize⟩
  hash := by
    intro tiger full compressed _ data
    refine ⟨_, rfl, rfl, rfl, rfl, compressed.open', compressed.parameters, compressed.passesEq, ?_,
      compressed.fileSize⟩
    rw [foldl_append, ← compressed.result, ← compressed.passesEq]
    rfl

/-- The object after the input `input`. -/
def Fed (sboxes : Fin 1024 → UInt64) (tiger : Tiger) (passes : Nat) (input : List UInt8) : Prop :=
  ∃ full pending, blockFeed.Buffered tiger 64 full pending ∧
    Compressed sboxes tiger passes (UInt64.ofNat input.length) full ∧
    full.flatten ++ pending = input

namespace Fed

variable {tiger : Tiger} {passes : Nat} {input : List UInt8}

variable (fed : Fed sboxes tiger passes input)
include fed

theorem open' : tiger.finalized = false := by
  obtain ⟨_, _, _, compressed, _⟩ := fed
  exact compressed.open'

theorem shaped : Shaped tiger passes := by
  obtain ⟨_, _, buffered, compressed, _⟩ := fed
  exact ⟨compressed.parameters, compressed.passesEq, buffered.blockLength⟩

/-- `update()` appends its data. -/
theorem update (data : List UInt8) :
    ∃ updated, update sboxes tiger data = some updated ∧
      Fed sboxes updated passes (input ++ data) := by
  obtain ⟨full, pending, buffered, compressed, joined⟩ := fed
  by_cases empty : data = []
  · exact ⟨tiger, if_pos (.inl empty), full, pending, buffered,
      by rw [empty, append_nil]; exact compressed,
      by rw [empty, append_nil]; exact joined⟩
  have proceed : ¬ (data = [] ∨ tiger.finalized = true ∨
      tiger.parameters.blockSize ≤ tiger.currentBlockIndex) := by
    have short := buffered.short
    have index : tiger.currentBlockIndex = pending.length := buffered.index
    rw [compressed.parameters, compressed.open']
    simp [empty]
    omega
  obtain ⟨updated, full', pending', looped, buffered', compressed', joined'⟩ :=
    (carries_compressed passes (UInt64.ofNat input.length)
      ((full.flatten ++ pending ++ data).length + 1)).loop blockFeed_lawful data.length data
      (Nat.le_refl _) buffered compressed (by omega)
  refine ⟨{ updated with fileSize := updated.fileSize + UInt64.ofNat data.length },
    by rw [Tiger.update, if_neg proceed, looped, Option.map_some], full', pending',
    ⟨buffered'.sizeEq, buffered'.sizes, buffered'.short, buffered'.blockLength,
      buffered'.index, buffered'.current⟩,
    ⟨compressed'.open', compressed'.parameters, compressed'.passesEq, compressed'.result, ?_⟩,
    by rw [joined', joined]⟩
  rw [compressed'.fileSize, length_append, UInt64.ofNat_add]

/-- The block with the end mark and the zeros after it. -/
theorem markEnd :
    ∃ (full : List (List UInt8)) (pending : List UInt8), full.flatten ++ pending = input ∧
      (∀ block ∈ full, block.length = 64) ∧ pending.length < 64 ∧
      tiger.currentBlockIndex = pending.length ∧
      tiger.result = full.foldl (.compress sboxes passes) .initial ∧
      tiger.markEnd.currentBlock = pending ++ [0x01] ++ List.replicate (63 - pending.length) 0 := by
  obtain ⟨full, pending, buffered, compressed, joined⟩ := fed
  have index : tiger.currentBlockIndex = pending.length := buffered.index
  have current : tiger.currentBlock.take pending.length = pending := buffered.current
  have blockLength : tiger.currentBlock.length = 64 := buffered.blockLength
  have short := buffered.short
  refine ⟨full, pending, joined, buffered.sizes, short, index, compressed.result, ?_⟩
  have marked : (tiger.currentBlock.set pending.length 0x01).take (pending.length + 1) =
      pending ++ [0x01] := by
    rw [take_succ_eq_append_getElem (by rw [length_set]; omega),
      take_set_of_le (Nat.le_refl _), current, getElem_set_self]
  have rest : 64 - (pending.length + 1) = 63 - pending.length := by omega
  simp only [Tiger.markEnd, compressed.parameters, index, Bool.false_eq_true, if_false, marked,
    rest]

end Fed

theorem markEnd_result (tiger : Tiger) : tiger.markEnd.result = tiger.result := rfl

theorem markEnd_passes (tiger : Tiger) : tiger.markEnd.passes = tiger.passes := rfl

/-- `finalize_count()` overwrites the last eight bytes. -/
theorem finalizeCount_block {length : Nat} (parameters : tiger.parameters = ⟨64, false, false, 8⟩)
    (size : tiger.fileSize = UInt64.ofNat length) (short : length < 2 ^ 61) :
    tiger.finalizeCount = { tiger with
      currentBlock := tiger.currentBlock.take 56 ++ littleEndian 8 (8 * length) } := by
  have counted := count_eq short
  simp only [finalizeCount, parameters, size, Bool.false_eq_true, if_false, counted]
  rfl

/-- `finalize()` compresses the padded message to its end. -/
theorem Fed.finalize {passes : Nat} {input : List UInt8} (fed : Fed sboxes tiger passes input)
    (short : input.length < 2 ^ 61) :
    (finalize sboxes tiger).result =
        (cutBlocks 64 (padded input)).foldl (.compress sboxes passes) .initial ∧
      Shaped (Tiger.finalize sboxes tiger) passes := by
  obtain ⟨full, pending, joined, sizes, pendingShort, index, result, marked⟩ := fed.markEnd
  have size : tiger.fileSize = UInt64.ofNat input.length := by
    obtain ⟨_, _, _, compressed, _⟩ := fed
    exact compressed.fileSize
  have shaped := fed.shaped
  unfold Tiger.finalize
  rw [if_neg (by simp [fed.open'])]
  simp only [shaped.parameters]
  by_cases room : pending.length < 56
  · have kept : (pending ++ [0x01] ++ List.replicate (63 - pending.length) (0 : UInt8)).take 56 =
        pending ++ [0x01] ++ List.replicate (55 - pending.length) 0 := by
      rw [take_append, take_of_length_le (by simp; omega)]
      simp
      omega
    have counted : tiger.markEnd.finalizeCount = _ :=
      finalizeCount_block shaped.parameters size short
    rw [if_neg (by omega), counted, marked, kept, ← joined, cutBlocks_padded_short sizes room,
      foldl_append, ← result, ← shaped.passesEq]
    refine ⟨?_, shaped.parameters, rfl, ?_⟩
    · simp only [hash, markEnd_result, markEnd_passes, foldl_cons, foldl_nil]
    · simp [hash, littleEndian]
      omega
  · have counted : { hash sboxes tiger.markEnd tiger.markEnd.currentBlock with
        currentBlock := List.replicate 64 0 }.finalizeCount = _ :=
      finalizeCount_block shaped.parameters size short
    rw [if_pos (by omega), counted, marked, ← joined,
      cutBlocks_padded_long sizes (by omega) pendingShort, foldl_append, ← result,
      ← shaped.passesEq]
    refine ⟨?_, shaped.parameters, rfl, ?_⟩
    · simp only [hash, foldl_cons, foldl_nil]
      rfl
    · simp [hash, littleEndian]

/-- The object stands for the abstract one. -/
def Represents (sboxes : Fin 1024 → UInt64) (tiger : Tiger) (passes : Nat)
    (reference : Reference) : Prop :=
  Shaped tiger passes ∧
    if reference.finalized then
      tiger.finalized = true ∧
        tiger.finalizedValue = tigerReference sboxes passes reference.input
    else Fed sboxes tiger passes reference.input

section Calls

variable {tiger : Tiger} {passes : Nat} {reference : Reference}

theorem Shaped.reset (shaped : Shaped tiger passes) :
    Represents sboxes tiger.reset passes .fresh := by
  have block : tiger.reset.currentBlock.length = 64 := by
    show (List.replicate tiger.parameters.blockSize (0 : UInt8)).length = 64
    rw [length_replicate, shaped.parameters]
  refine ⟨⟨shaped.parameters, shaped.passesEq, block⟩, [], [], ?_, ?_, rfl⟩
  · exact ⟨congrArg HashParameters.blockSize shaped.parameters, by simp, by decide, block, rfl, rfl⟩
  · exact ⟨rfl, shaped.parameters, shaped.passesEq, rfl, rfl⟩

theorem create_represents (passes : Nat) :
    Represents sboxes (create passes 64) passes .fresh :=
  Shaped.reset ⟨rfl, rfl, length_replicate⟩

theorem Represents.update (represents : Represents sboxes tiger passes reference)
    (data : List UInt8) :
    ∃ updated, Tiger.update sboxes tiger data = some updated ∧
      Represents sboxes updated passes (reference.step (.update data)) := by
  obtain ⟨shaped, state⟩ := represents
  by_cases final : reference.finalized = true
  · rw [if_pos final] at state
    have stays : reference.step (.update data) = reference := if_pos final
    refine ⟨tiger, if_pos (.inr (.inl state.1)), ?_⟩
    rw [stays]
    exact ⟨shaped, by rw [if_pos final]; exact state⟩
  · rw [if_neg final] at state
    obtain ⟨updated, updateEq, fed⟩ := state.update data
    have grows : reference.step (.update data) =
        { reference with input := reference.input ++ data } := if_neg final
    refine ⟨updated, updateEq, fed.shaped, ?_⟩
    rw [grows, if_neg final]
    exact fed

theorem Represents.digest (represents : Represents sboxes tiger passes reference)
    (short : reference.input.length < 2 ^ 61) :
    Represents sboxes (Tiger.digest sboxes tiger).1 passes (reference.step .digest) ∧
      (Tiger.digest sboxes tiger).2 = tigerReference sboxes passes reference.input := by
  obtain ⟨shaped, state⟩ := represents
  by_cases final : reference.finalized = true
  · rw [if_pos final] at state
    have stays : internalFinalize sboxes tiger = tiger := if_pos state.1
    simp only [Tiger.digest, stays]
    exact ⟨⟨shaped, state⟩, state.2⟩
  · rw [if_neg final] at state
    obtain ⟨result, shaped'⟩ := state.finalize short
    have done : internalFinalize sboxes tiger =
        { Tiger.finalize sboxes tiger with
          finalizedValue := tigerReference sboxes passes reference.input, finalized := true } := by
      rw [internalFinalize, if_neg (by simp [state.open'])]
      simp only [result, output_eq_bytes, tigerReference]
    simp only [Tiger.digest, done, and_true]
    refine ⟨⟨shaped'.parameters, shaped'.passesEq, shaped'.block⟩, ?_⟩
    simp only [Reference.step, if_true, and_self]

/-- Every sequence of calls is answered like the abstract object. -/
theorem digests_of_represents (calls : List Call)
    (represents : Represents sboxes tiger passes reference)
    (short : reference.Below (2 ^ 61) calls) :
    digests sboxes tiger calls =
      some (reference.answers (tigerReference sboxes passes) calls) := by
  induction calls generalizing tiger reference with
  | nil => rfl
  | cons next calls ih =>
    obtain ⟨now, later⟩ := short
    cases next with
    | update data =>
      obtain ⟨updated, updateEq, represents'⟩ := represents.update data
      rw [digests, call, updateEq, Option.map_some, Option.bind_some]
      dsimp only
      rw [ih represents' later]
      rfl
    | digest =>
      obtain ⟨represents', value⟩ := represents.digest now
      rw [digests, call, Option.bind_some]
      dsimp only
      rw [ih represents' later, value]
      rfl
    | reset =>
      rw [digests, call, Option.bind_some]
      dsimp only
      rw [ih represents.1.reset later]
      rfl

end Calls

theorem below_updates (limit : Nat) (input : List UInt8) (pieces : List (List UInt8))
    (short : (input ++ pieces.flatten).length < limit) :
    Reference.Below limit ⟨input, false⟩ (pieces.map .update ++ [.digest]) := by
  induction pieces generalizing input with
  | nil =>
    rw [flatten_nil, append_nil] at short
    exact ⟨short, short⟩
  | cons piece pieces ih =>
    rw [flatten_cons, ← append_assoc] at short
    refine ⟨?_, ih (input ++ piece) short⟩
    rw [append_assoc, length_append] at short
    show input.length < limit
    omega

theorem answers_updates {α : Type} (value : List UInt8 → α) (input : List UInt8)
    (pieces : List (List UInt8)) :
    Reference.answers value ⟨input, false⟩ (pieces.map .update ++ [.digest]) =
      [value (input ++ pieces.flatten)] := by
  induction pieces generalizing input with
  | nil => simp [Reference.answers]
  | cons piece pieces ih =>
    simpa [Reference.answers, Reference.step] using ih (input ++ piece)

/-- However a message is split into `update()` calls, `digest()` is the reference digest;
and every sequence of calls is answered like the abstract object, so a second `digest()`
repeats the first, an `update()` after it changes nothing and `reset()` starts afresh. -/
theorem digests_eq_padded (sboxes : Fin 1024 → UInt64) (passes : Nat) :
    (∀ pieces : List (List UInt8), pieces.flatten.length < 2 ^ 61 →
      digests sboxes (create passes 64) (pieces.map .update ++ [.digest]) =
        some [tigerReference sboxes passes pieces.flatten]) ∧
    (∀ calls : List Call, Reference.fresh.Below (2 ^ 61) calls →
      digests sboxes (create passes 64) calls =
        some (Reference.fresh.answers (tigerReference sboxes passes) calls)) := by
  constructor
  · intro pieces short
    have below := below_updates (2 ^ 61) [] pieces short
    have digested := digests_of_represents _ (@create_represents sboxes passes) below
    have answered := answers_updates (tigerReference sboxes passes) [] pieces
    exact digested.trans (congrArg some answered)
  · intro calls short
    exact digests_of_represents calls (create_represents passes) short

theorem digests_eq_padded_abc :
    digests (fun _ => 0) (create 3 64)
        [.update [97, 98], .update [99], .digest, .update [100], .digest, .reset, .digest] =
      some [tigerReference (fun _ => 0) 3 [97, 98, 99], tigerReference (fun _ => 0) 3 [97, 98, 99],
        tigerReference (fun _ => 0) 3 []] :=
  (digests_eq_padded (fun _ => 0) 3).2
    [.update [97, 98], .update [99], .digest, .update [100], .digest, .reset, .digest]
    (by decide)

/-- Tiger as the underlying hasher of a tree. -/
def hasher (sboxes : Fin 1024 → UInt64) (passes : Nat) : Hasher where
  size := tigerHashSize
  digest := tigerReference sboxes passes

/-- What a tree asks its hasher for: the hash of a leaf, or of a node. -/
inductive Job where
  | leaf (block : List UInt8)
  | node (left right : Digest tigerHashSize)

/-- The calls with which the tree asks. -/
def Job.calls : Job → List Call
  | .leaf block => [.reset, .update [0x00], .update block, .digest]
  | .node left right => [.reset, .update [0x01], .update left.val, .update right.val, .digest]

def Job.hash (sboxes : Fin 1024 → UInt64) (passes : Nat) : Job → Digest tigerHashSize
  | .leaf block => (hasher sboxes passes).leafHash block
  | .node left right => (hasher sboxes passes).combine left right

/-- The jobs are far from the range of the counter. -/
def Job.Fits : Job → Prop
  | .leaf block => block.length + 1 < 2 ^ 61
  | .node _ _ => True

theorem below_jobs (jobs : List Job) (fits : ∀ job ∈ jobs, job.Fits) (reference : Reference)
    (short : reference.input.length < 2 ^ 61) :
    reference.Below (2 ^ 61) (jobs.flatMap Job.calls) := by
  induction jobs generalizing reference with
  | nil => exact short
  | cons job jobs ih =>
    obtain ⟨first, later⟩ := forall_mem_cons.mp fits
    cases job with
    | leaf block =>
      have small : block.length + 1 < 2 ^ 61 := first
      refine ⟨short, ?_, ?_, small, ih later _ small⟩ <;> simp [Reference.step, Reference.fresh]
    | node left right =>
      refine ⟨short, ?_, ?_, ?_, ?_, ih later _ ?_⟩ <;>
        simp [Reference.step, Reference.fresh, left.property, right.property, tigerHashSize]

theorem answers_jobs (sboxes : Fin 1024 → UInt64) (passes : Nat) (jobs : List Job)
    (reference : Reference) :
    reference.answers (tigerReference sboxes passes) (jobs.flatMap Job.calls) =
      jobs.map (Job.hash sboxes passes) := by
  induction jobs generalizing reference with
  | nil => rfl
  | cons job jobs ih =>
    cases job <;>
      simp [Job.calls, Reference.answers, Reference.step, Reference.fresh, ih, Job.hash, hasher,
        Hasher.leafHash, Hasher.combine]

/-- One object serves a whole tree: whatever it has hashed before, each digest is the hash
of its own leaf or node. -/
theorem digests_jobs (sboxes : Fin 1024 → UInt64) (passes : Nat) (jobs : List Job)
    (fits : ∀ job ∈ jobs, job.Fits) :
    digests sboxes (create passes 64) (jobs.flatMap Job.calls) =
      some (jobs.map (Job.hash sboxes passes)) := by
  rw [← answers_jobs sboxes passes jobs .fresh]
  exact digests_of_represents _ (create_represents passes) (below_jobs jobs fits .fresh (by decide))

theorem digests_jobs_two :
    digests (fun _ => 0) (create 3 64)
        [.reset, .update [0], .update [97], .digest, .reset, .update [0], .update [], .digest] =
      some [(hasher (fun _ => 0) 3).leafHash [97], (hasher (fun _ => 0) 3).leafHash []] :=
  digests_jobs (fun _ => 0) 3 [.leaf [97], .leaf []] (by simp [Job.Fits])

end Tiger

end SamuraiFormal.Crypto
