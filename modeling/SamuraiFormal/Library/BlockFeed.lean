import Mathlib.Data.List.Basic

/-!
# Feeding data into blocks

A machine collects data in a block of fixed size and hands every full block on.  The loop
takes as much as the block has room for, so one call may complete several blocks and leave
a rest.  A property of the state and of the blocks handed on so far that one more block
carries on holds after every call, however the data is split.
-/

namespace SamuraiFormal.Library

open List

/-- How a state keeps its current block. -/
structure BlockFeed (σ α : Type) where
  blockSize : σ → Nat
  block : σ → List α
  index : σ → Nat
  put : σ → List α → Nat → σ

variable {blockSize : Nat}

namespace BlockFeed

variable {σ α : Type} (machine : BlockFeed σ α) (hash : σ → List α → Option σ)

/-- The loop over what is left of the data; every pass takes at least one element, and
`hash` is what is done with a full block. -/
def loop : Nat → σ → List α → Option σ
  | _, state, [] => some state
  | 0, _, _ :: _ => none
  | fuel + 1, state, data@(_ :: _) =>
    let length := min data.length (machine.blockSize state - machine.index state)
    let block := (machine.block state).take (machine.index state) ++ data.take length ++
      (machine.block state).drop (machine.index state + length)
    if machine.index state + length = machine.blockSize state then
      (hash (machine.put state block 0) block).bind fun hashed =>
        loop fuel hashed (data.drop length)
    else loop fuel (machine.put state block (machine.index state + length)) (data.drop length)

/-- Writing the current block changes nothing else. -/
structure Lawful : Prop where
  blockSize_put : ∀ state block index,
    machine.blockSize (machine.put state block index) = machine.blockSize state
  block_put : ∀ state block index, machine.block (machine.put state block index) = block
  index_put : ∀ state block index, machine.index (machine.put state block index) = index

/-- The blocks `full` have been handed on and the elements `pending` wait in the current
block. -/
structure Buffered (state : σ) (blockSize : Nat) (full : List (List α)) (pending : List α) :
    Prop where
  sizeEq : machine.blockSize state = blockSize
  sizes : ∀ block ∈ full, block.length = blockSize
  short : pending.length < blockSize
  blockLength : (machine.block state).length = blockSize
  index : machine.index state = pending.length
  current : (machine.block state).take pending.length = pending

/-- What one more block carries on, as long as fewer than `limit` have been handed on. -/
structure Carries (Inv : σ → List (List α) → Prop) (limit : Nat) : Prop where
  put : ∀ {state full} block index, Inv state full → Inv (machine.put state block index) full
  hash : ∀ {state full}, Inv state full → full.length < limit → ∀ data, ∃ hashed,
    hash state data = some hashed ∧
    machine.blockSize hashed = machine.blockSize state ∧
    machine.block hashed = machine.block state ∧
    machine.index hashed = machine.index state ∧ Inv hashed (full ++ [data])

variable {machine} {hash}

variable {full : List (List α)} {state : σ} {pending : List α}

theorem flatten_length_of_sizes (sizes : ∀ block ∈ full, block.length = blockSize) :
    full.flatten.length = full.length * blockSize := by
  rw [length_flatten, eq_replicate_of_mem (forall_mem_map.mpr sizes), sum_replicate_nat,
    length_map]

theorem Buffered.full_length_lt {limit : Nat}
    (buffered : machine.Buffered state blockSize full pending)
    (bound : (full.flatten ++ pending).length < blockSize * limit) : full.length < limit := by
  rw [length_append, flatten_length_of_sizes buffered.sizes] at bound
  exact Nat.lt_of_mul_lt_mul_right (a := blockSize) (by
    rw [Nat.mul_comm limit]
    omega)

/-- A full block is handed on and the current block is empty again. -/
theorem Carries.block {Inv : σ → List (List α) → Prop} {limit : Nat}
    (carries : machine.Carries hash Inv limit) (lawful : machine.Lawful) {piece : List α}
    (buffered : machine.Buffered state blockSize full pending) (inv : Inv state full)
    (filled : (pending ++ piece).length = blockSize) (few : full.length < limit) :
    ∃ hashed, hash (machine.put state (pending ++ piece) 0) (pending ++ piece) =
        some hashed ∧
      machine.Buffered hashed blockSize (full ++ [pending ++ piece]) [] ∧
      Inv hashed (full ++ [pending ++ piece]) := by
  obtain ⟨hashed, hashEq, sameSize, sameBlock, sameIndex, inv'⟩ :=
    carries.hash (carries.put (pending ++ piece) 0 inv) few (pending ++ piece)
  refine ⟨hashed, hashEq, ?_, inv'⟩
  exact {
    sizeEq := by rw [sameSize, lawful.blockSize_put, buffered.sizeEq]
    sizes := by
      intro block member
      rcases mem_append.mp member with earlier | last
      · exact buffered.sizes block earlier
      · rw [mem_singleton.mp last]
        exact filled
    short := Nat.lt_of_le_of_lt (Nat.zero_le _) buffered.short
    blockLength := by rw [sameBlock, lawful.block_put, filled]
    index := by rw [sameIndex, lawful.index_put, length_nil]
    current := rfl }

/-- Data that does not complete the block waits in it. -/
theorem Buffered.wait (lawful : machine.Lawful) {data : List α}
    (buffered : machine.Buffered state blockSize full pending)
    (short : pending.length + data.length < blockSize) :
    machine.Buffered (machine.put state (pending ++ data ++ (machine.block state).drop
        (pending.length + data.length)) (pending.length + data.length))
      blockSize full (pending ++ data) where
  sizeEq := by rw [lawful.blockSize_put, buffered.sizeEq]
  sizes := buffered.sizes
  short := by rw [length_append]; exact short
  blockLength := by
    rw [lawful.block_put, length_append, length_append, length_drop,
      buffered.blockLength]
    omega
  index := by rw [lawful.index_put, length_append]
  current := by
    rw [lawful.block_put]
    exact take_left' rfl

/-- The loop hands on the blocks that the data completes and keeps the rest. -/
theorem Carries.loop {Inv : σ → List (List α) → Prop} {limit : Nat}
    (carries : machine.Carries hash Inv limit) (lawful : machine.Lawful) (fuel : Nat)
    (data : List α) (enough : data.length ≤ fuel)
    (buffered : machine.Buffered state blockSize full pending) (inv : Inv state full)
    (bound : (full.flatten ++ pending ++ data).length < blockSize * limit) :
    ∃ fed full' pending', machine.loop hash fuel state data = some fed ∧
      machine.Buffered fed blockSize full' pending' ∧ Inv fed full' ∧
      full'.flatten ++ pending' = full.flatten ++ pending ++ data := by
  induction fuel generalizing state full pending data with
  | zero =>
    have empty : data = [] := eq_nil_of_length_eq_zero (by omega)
    subst empty
    exact ⟨state, full, pending, by rw [BlockFeed.loop], buffered, inv, by simp⟩
  | succ fuel ih =>
    cases data with
    | nil => exact ⟨state, full, pending, by rw [BlockFeed.loop], buffered, inv, by simp⟩
    | cons first rest =>
      have short := buffered.short
      -- the elements of this pass and what is left after it
      generalize dataEq : first :: rest = data at enough bound ⊢
      generalize lengthEq :
        min data.length (machine.blockSize state - machine.index state) = length
      have lengthVal : length = min data.length (blockSize - pending.length) := by
        rw [← lengthEq, buffered.sizeEq, buffered.index]
      have dropped : (data.drop length).length ≤ fuel := by
        rw [length_drop]
        omega
      have split : data.take length ++ data.drop length = data :=
        take_append_drop _ _
      by_cases filled : pending.length + length = blockSize
      · have blockEq : (machine.block state).take (machine.index state) ++
            data.take length ++ (machine.block state).drop (machine.index state + length) =
              pending ++ data.take length := by
          rw [buffered.index, buffered.current, drop_of_length_le (by
            rw [buffered.blockLength]; omega), append_nil]
        have whole : (pending ++ data.take length).length = blockSize := by
          rw [length_append, length_take]
          omega
        have few : full.length < limit := buffered.full_length_lt (by
          rw [length_append] at bound
          omega)
        obtain ⟨hashed, hashEq, next, inv'⟩ := carries.block lawful buffered inv whole few
        obtain ⟨fed, full', pending', looped, buffered', inv'', joined⟩ :=
          ih (data.drop length) dropped next inv' (by
            simpa using bound)
        refine ⟨fed, full', pending', ?_, buffered', inv'', ?_⟩
        · subst dataEq
          rw [BlockFeed.loop]
          simp only [lengthEq]
          rw [if_pos (by rw [buffered.index, buffered.sizeEq]; exact filled), blockEq, hashEq]
          exact looped
        · rw [joined]
          simp
      · have all : length = data.length := by omega
        have none' : data.drop length = [] := drop_of_length_le (by omega)
        have whole : data.take length = data := take_of_length_le (by omega)
        refine ⟨_, full, pending ++ data, ?_, buffered.wait lawful (by omega),
          carries.put _ _ inv, by simp⟩
        subst dataEq
        rw [BlockFeed.loop]
        simp only [lengthEq]
        rw [if_neg (by rw [buffered.index, buffered.sizeEq]; exact filled), none', whole,
          buffered.index, buffered.current, all, BlockFeed.loop]

/-- A stricter treatment of full blocks that succeeds gives the same state. -/
theorem loop_of_stricter {strict hash : σ → List α → Option σ}
    (agrees : ∀ {state data hashed}, strict state data = some hashed →
      hash state data = some hashed) (fuel : Nat) {data : List α} {fed : σ}
    (succeeds : machine.loop strict fuel state data = some fed) :
    machine.loop hash fuel state data = some fed := by
  induction fuel generalizing state data with
  | zero =>
    cases data with
    | nil => exact succeeds
    | cons first rest => cases succeeds
  | succ fuel ih =>
    cases data with
    | nil => exact succeeds
    | cons first rest =>
      rw [BlockFeed.loop] at succeeds ⊢
      split at succeeds
      · next filled =>
          obtain ⟨hashed, hashEq, rest⟩ := Option.bind_eq_some_iff.mp succeeds
          rw [if_pos filled, agrees hashEq]
          exact ih rest
      · next room =>
          rw [if_neg room]
          exact ih succeeds

end BlockFeed

end SamuraiFormal.Library
