import Mathlib.Data.Nat.Log
import SamuraiFormal.Library.Loops
import SamuraiFormal.Util.Text

/-!
# The byte buffer

`Buffer`: bytes are appended at the end of a vector and consumed by moving a head, and the
consumed ones are reclaimed later.  What is live in it is a list of bytes, and every
function is described by what it does to that list.

Numbers are those of `size_t`, so sums, differences and products are taken modulo 2^64.
Whether memory is granted is an argument of each function that may ask for some.
-/

namespace SamuraiFormal.Io

open Util
open Library.Loops
open List

abbrev wordSize : Nat := 2 ^ 64

def wordAdd (a b : Nat) : Nat := (a + b) % wordSize

def wordSub (a b : Nat) : Nat := (a + wordSize - b) % wordSize

def wordMul (a b : Nat) : Nat := a * b % wordSize

theorem wordAdd_eq {a b : Nat} (fits : a + b < wordSize) : wordAdd a b = a + b :=
  Nat.mod_eq_of_lt fits

theorem wordSub_eq {a b : Nat} (order : b ≤ a) (fits : a < wordSize) : wordSub a b = a - b := by
  have shift : a + wordSize - b = (a - b) + wordSize := by omega
  rw [wordSub, shift, Nat.add_mod_right, Nat.mod_eq_of_lt (by omega)]

/-- `SIZE_MAX`. -/
def sizeMax : Nat := wordSize - 1

/-- `std::vector<char>::max_size()`. -/
def maxSize : Nat := 2 ^ 63 - 1

/-- `INITBUFSIZE`. -/
def initBufSize : Nat := 8192

structure Buffer where
  buf : Bytes
  head : Nat
  len : Nat
  initialCapasity : Nat
  deriving DecidableEq, Repr

variable {data : Bytes}

namespace Buffer

def construct (bufsize : Nat) : Buffer where
  buf := List.replicate bufsize 0
  head := 0
  len := 0
  initialCapasity := bufsize

/-- What a move leaves behind. -/
def movedFrom (other : Buffer) : Buffer := { other with buf := [], head := 0, len := 0 }

/-- `len - head`, which `size()` returns. -/
def live (buffer : Buffer) : Nat := wordSub buffer.len buffer.head

def compact (buffer : Buffer) : Buffer :=
  if buffer.head = 0 then buffer
  else
    let live := buffer.live
    { buffer with
      -- the live bytes move to the front, what they do not cover stays
      buf := (buffer.buf.drop buffer.head).take live ++ buffer.buf.drop live
      head := 0
      len := live }

/-- The loop that doubles the size until it is large enough. -/
def growTurn (required : Nat) : Body Nat Nat :=
  fun nsize =>
    if nsize < required then
      let next := wordMul nsize 2
      if next ≤ nsize then some (.inr required) else some (.inl next)
    else some (.inr nsize)

def grow (required nsize : Nat) : Option Nat := loop (growTurn required) 65 nsize

/-- `resize()` once the consumed bytes have been reclaimed. -/
def enlarge (buffer : Buffer) (needed : Nat) (granted : Bool) : Option (Bool × Buffer) :=
  let required := wordAdd buffer.len needed
  if required < buffer.len then some (false, buffer)
  else if required ≤ buffer.buf.length then some (true, buffer)
  else
    match grow required (if buffer.buf.length ≠ 0 then buffer.buf.length else initBufSize) with
    | none => none
    | some nsize =>
      if maxSize < nsize then some (false, buffer)
      else if !granted then some (false, buffer)
      else some (true, { buffer with
        buf := buffer.buf ++ List.replicate (nsize - buffer.buf.length) 0 })

def resize (buffer : Buffer) (needed : Nat) (granted : Bool) : Option (Bool × Buffer) :=
  if buffer.head ≠ 0 ∧ buffer.buf.length < wordAdd buffer.len needed then
    buffer.compact.enlarge needed granted
  else buffer.enlarge needed granted

/-- The bytes are copied to the end. -/
def store (buffer : Buffer) (data : Bytes) : Buffer :=
  { buffer with
    buf := buffer.buf.take buffer.len ++ data ++ buffer.buf.drop (buffer.len + data.length)
    len := wordAdd buffer.len data.length }

/-- `append(const char*, size_t)`, which every append of bytes goes through. -/
def append (buffer : Buffer) (data : Bytes) (granted : Bool) : Option (Bool × Buffer) :=
  if wordSub sizeMax buffer.len < data.length then some (false, buffer)
  else if buffer.buf.length < wordAdd buffer.len data.length then
    match buffer.resize data.length granted with
    | none => none
    | some (false, buffer) => some (false, buffer)
    | some (true, buffer) => some (true, buffer.store data)
  else some (true, buffer.store data)

/-- `append(char)`. -/
def appendChar (buffer : Buffer) (c : UInt8) (granted : Bool) : Option (Bool × Buffer) :=
  if buffer.buf.length < wordAdd buffer.len 1 then
    match buffer.resize 1 granted with
    | none => none
    | some (false, buffer) => some (false, buffer)
    | some (true, buffer) => some (true, buffer.store [c])
  else some (true, buffer.store [c])

/-- `append(const Buffer&, size_t)` for a buffer that is not this one. -/
def appendBuffer (buffer other : Buffer) (len : Nat) (granted : Bool) : Option (Bool × Buffer) :=
  let mylen := if other.live < len then other.live else len
  if mylen = 0 then some (true, buffer)
  else buffer.append ((other.buf.drop other.head).take mylen) granted

/-- `append(const Buffer&)` for a buffer that is not this one. -/
def appendWhole (buffer other : Buffer) (granted : Bool) : Option (Bool × Buffer) :=
  if other.live = 0 then some (true, buffer)
  else buffer.append ((other.buf.drop other.head).take other.live) granted

/-- `pop(char*, size_t)` and `pop(size_t)`: the bytes that are copied out. -/
def pop (buffer : Buffer) (len : Nat) : Bytes :=
  if buffer.live = 0 then []
  else
    let mylen := if buffer.live < len then buffer.live else len
    (buffer.buf.drop buffer.head).take mylen

/-- `pop(char*, size_t, size_t)`. -/
def popFrom (buffer : Buffer) (offset len : Nat) : Bytes :=
  if buffer.live ≤ offset then []
  else
    let available := wordSub buffer.live offset
    let mylen := if available < len then available else len
    (buffer.buf.drop (wordAdd buffer.head offset)).take mylen

def copyRange (buffer : Buffer) (offset stop : Nat) : Bytes :=
  if stop < offset ∨ buffer.live < stop then []
  else (buffer.buf.drop (wordAdd buffer.head offset)).take (wordSub stop offset)

/-- `at()`. -/
def byteAt (buffer : Buffer) (offset : Nat) : UInt8 :=
  if buffer.live ≤ offset then 0 else (buffer.buf[wordAdd buffer.head offset]?).getD 0

def remove (buffer : Buffer) (count : Nat) : Buffer :=
  let live := buffer.live
  let cnt := if live < count then live else count
  let buffer := { buffer with head := wordAdd buffer.head cnt }
  if buffer.head = buffer.len then { buffer with head := 0, len := 0 }
  else if buffer.buf.length / 2 ≤ buffer.head then buffer.compact
  else buffer

def reserve (buffer : Buffer) (n : Nat) (granted : Bool) : Option Buffer :=
  if n = 0 then some buffer else (buffer.resize n granted).map Prod.snd

def clear (buffer : Buffer) : Buffer :=
  { buffer with buf := List.replicate buffer.initialCapasity 0, head := 0, len := 0 }

/-- The live bytes. -/
def bytes (buffer : Buffer) : Bytes := (buffer.buf.drop buffer.head).take (buffer.len - buffer.head)

structure Valid (buffer : Buffer) : Prop where
  head : buffer.head ≤ buffer.len
  len : buffer.len ≤ buffer.buf.length
  capasity : buffer.buf.length ≤ maxSize
  initial : buffer.initialCapasity ≤ maxSize

theorem maxSize_lt : maxSize + maxSize < wordSize := by decide

variable {buffer : Buffer}

theorem length_bytes (valid : buffer.Valid) : buffer.bytes.length = buffer.len - buffer.head := by
  have fits := valid.len
  rw [bytes, length_take, length_drop]
  omega

/-- The end of the live bytes is a place that `size_t` has. -/
theorem bytes_end (valid : buffer.Valid) :
    buffer.head + buffer.bytes.length = buffer.len ∧ buffer.len + 1 < wordSize := by
  have order := valid.head
  have stays := valid.len
  have small := valid.capasity
  have limit : maxSize + 1 < wordSize := by decide
  rw [length_bytes valid]
  omega

theorem live_eq (valid : buffer.Valid) : buffer.live = buffer.bytes.length := by
  have last := bytes_end valid
  rw [live, wordSub_eq valid.head (by omega)]
  omega

/-- What is read from the head on, as far as it is live, is the front of the list. -/
theorem take_drop_head {count : Nat} (within : count ≤ buffer.bytes.length) :
    (buffer.buf.drop buffer.head).take count = buffer.bytes.take count := by
  rw [bytes, length_take] at within
  rw [bytes, take_take, Nat.min_eq_left (by omega)]

theorem drop_head (offset : Nat) :
    (buffer.buf.drop (buffer.head + offset)).take (buffer.len - buffer.head - offset) =
      buffer.bytes.drop offset := by
  rw [bytes, drop_take, drop_drop]

theorem construct_valid {bufsize : Nat} (fits : bufsize ≤ maxSize) : (construct bufsize).Valid where
  head := Nat.le_refl _
  len := Nat.zero_le _
  capasity := by rwa [construct, length_replicate]
  initial := fits

theorem movedFrom_valid (valid : buffer.Valid) : buffer.movedFrom.Valid where
  head := Nat.le_refl _
  len := Nat.le_refl _
  capasity := Nat.zero_le _
  initial := valid.initial

theorem clear_valid (valid : buffer.Valid) : buffer.clear.Valid where
  head := Nat.le_refl _
  len := Nat.zero_le _
  capasity := by
    rw [clear, length_replicate]
    exact valid.initial
  initial := valid.initial

/-! ## Reclaiming and growing -/

/-- A buffer keeps its list of bytes while its storage changes. -/
structure Same (before after : Buffer) : Prop where
  valid : after.Valid
  bytes : after.bytes = before.bytes

theorem compact_same (valid : buffer.Valid) : Same buffer buffer.compact := by
  rw [compact]
  split
  · exact ⟨valid, rfl⟩
  have fits := valid.len
  have size := length_bytes valid
  have live := live_eq valid
  have front : (buffer.buf.drop buffer.head).take buffer.live = buffer.bytes := by
    rw [live, take_drop_head (Nat.le_refl _), take_length]
  have capasity : ((buffer.buf.drop buffer.head).take buffer.live ++
      buffer.buf.drop buffer.live).length = buffer.buf.length := by
    rw [front, length_append, length_drop]
    omega
  have room : buffer.live ≤ buffer.buf.length := by
    omega
  dsimp only
  refine ⟨⟨Nat.zero_le _, ?_, ?_, valid.initial⟩, ?_⟩
  · rw [capasity]
    exact room
  · rw [capasity]
    exact valid.capasity
  · rw [bytes, drop_zero, Nat.sub_zero, front, live, take_left]

theorem growTurn_cases (required : Nat) {nsize : Nat} (positive : nsize ≠ 0)
    (word : nsize < wordSize) :
    (growTurn required nsize = some (.inl (nsize * 2)) ∧ nsize * 2 < wordSize) ∨
      ∃ size, growTurn required nsize = some (.inr size) ∧ required ≤ size ∧ nsize ≤ size := by
  rw [growTurn]
  split
  case isFalse enough => exact .inr ⟨nsize, rfl, by omega, Nat.le_refl _⟩
  case isTrue more =>
    by_cases fits : nsize * 2 < wordSize
    · have next : wordMul nsize 2 = nsize * 2 := Nat.mod_eq_of_lt fits
      refine .inl ⟨?_, fits⟩
      rw [next, if_neg (by omega)]
    · have next : wordMul nsize 2 ≤ nsize := by
        rw [wordMul, Nat.mod_eq_sub_mod (by omega), Nat.mod_eq_of_lt (by omega)]
        omega
      refine .inr ⟨required, ?_, Nat.le_refl _, by omega⟩
      rw [if_pos next]

/-- The loop ends with a size that is large enough, whatever size it starts from. -/
theorem grow_returns (required : Nat) {nsize : Nat} (positive : nsize ≠ 0)
    (word : nsize < wordSize) :
    ∃ size, grow required nsize = some size ∧ required ≤ size ∧ nsize ≤ size := by
  -- each turn that goes on adds a binary digit, and there are at most 64
  refine loop_total (fun here => 64 - Nat.log 2 here)
    (fun here => nsize ≤ here ∧ here ≠ 0 ∧ here < wordSize)
    (fun size => required ≤ size ∧ nsize ≤ size) ?_ ⟨Nat.le_refl _, positive, word⟩ (by omega)
  rintro here ⟨above, some', below⟩
  rcases growTurn_cases required some' below with ⟨goes, fits⟩ | ⟨size, ends, enough, more⟩
  · have digits : Nat.log 2 (here * 2) = Nat.log 2 here + 1 :=
      Nat.log_mul_base Nat.one_lt_two some'
    have few : Nat.log 2 here < 64 := Nat.log_lt_of_lt_pow some' below
    exact ⟨_, goes, ⟨by omega, by omega, fits⟩, by omega⟩
  · exact ⟨_, ends, enough, above.trans more⟩

/-- Storage that grows behind the live bytes keeps them. -/
theorem grown_same (valid : buffer.Valid) {more : Bytes}
    (fits : (buffer.buf ++ more).length ≤ maxSize) :
    Same buffer { buffer with buf := buffer.buf ++ more } where
  valid :=
    { head := valid.head
      len := by
        rw [length_append]
        exact Nat.le_add_right_of_le valid.len
      capasity := fits
      initial := valid.initial }
  bytes := by
    have order := valid.head
    have within := valid.len
    rw [bytes, bytes]
    dsimp only
    rw [drop_append_of_le_length (by omega),
      take_append_of_le_length (by rw [length_drop]; omega)]

/-- A buffer grows so that more bytes fit, or it refuses; either way its bytes stay. -/
theorem enlarge_spec (valid : buffer.Valid) {needed : Nat} (word : needed < wordSize)
    (granted : Bool) :
    ∃ ok after, buffer.enlarge needed granted = some (ok, after) ∧ Same buffer after ∧
      (ok = true → after.len + needed ≤ after.buf.length) := by
  have within := valid.len
  have small := valid.capasity
  have limit := maxSize_lt
  have unchanged : Same buffer buffer := ⟨valid, rfl⟩
  rw [enlarge]
  split
  case isTrue => exact ⟨false, buffer, rfl, unchanged, nofun⟩
  case isFalse exact' =>
    -- a sum that is not below its first part has not wrapped around
    have sum : wordAdd buffer.len needed = buffer.len + needed := by
      apply wordAdd_eq
      apply Nat.lt_of_not_le
      intro wraps
      rw [wordAdd, Nat.mod_eq_sub_mod wraps, Nat.mod_eq_of_lt (by omega)] at exact'
      omega
    rw [sum]
    split
    case isTrue fits => exact ⟨true, buffer, rfl, unchanged, fun _ => fits⟩
    case isFalse =>
      have start : (if buffer.buf.length ≠ 0 then buffer.buf.length else initBufSize) ≠ 0 ∧
          (if buffer.buf.length ≠ 0 then buffer.buf.length else initBufSize) < wordSize ∧
          buffer.buf.length ≤
            (if buffer.buf.length ≠ 0 then buffer.buf.length else initBufSize) := by
        split
        case isTrue some' => exact ⟨some', by omega, Nat.le_refl _⟩
        case isFalse none => exact ⟨by decide, by decide, by omega⟩
      obtain ⟨nsize, returns, enough, above⟩ :=
        grow_returns (buffer.len + needed) start.1 start.2.1
      rw [returns]
      dsimp only
      split
      case isTrue => exact ⟨false, buffer, rfl, unchanged, nofun⟩
      case isFalse moderate =>
        split
        case isTrue => exact ⟨false, buffer, rfl, unchanged, nofun⟩
        case isFalse =>
          have size : (buffer.buf ++ List.replicate (nsize - buffer.buf.length) 0).length =
              nsize := by
            rw [length_append, length_replicate]
            omega
          refine ⟨true, _, rfl, grown_same valid (by rw [size]; omega), fun _ => ?_⟩
          rw [size]
          exact enough

theorem resize_spec (valid : buffer.Valid) {needed : Nat} (word : needed < wordSize)
    (granted : Bool) :
    ∃ ok after, buffer.resize needed granted = some (ok, after) ∧ Same buffer after ∧
      (ok = true → after.len + needed ≤ after.buf.length) := by
  rw [resize]
  split
  case isTrue =>
    have compacted := compact_same valid
    obtain ⟨ok, after, returns, same, fits⟩ := enlarge_spec compacted.valid word granted
    exact ⟨ok, after, returns, ⟨same.valid, same.bytes.trans compacted.bytes⟩, fits⟩
  case isFalse => exact enlarge_spec valid word granted

theorem store_spec (valid : buffer.Valid) (fits : buffer.len + data.length ≤ buffer.buf.length) :
    (buffer.store data).Valid ∧ (buffer.store data).bytes = buffer.bytes ++ data := by
  have order := valid.head
  have small := valid.capasity
  have limit := maxSize_lt
  have sum : wordAdd buffer.len data.length = buffer.len + data.length := wordAdd_eq (by omega)
  have size : (buffer.buf.take buffer.len ++ data ++
      buffer.buf.drop (buffer.len + data.length)).length = buffer.buf.length := by
    rw [length_append, length_append, length_take, length_drop]
    omega
  constructor
  · refine ⟨?_, ?_, ?_, valid.initial⟩
    · rw [store, sum]
      exact Nat.le_add_right_of_le order
    · rw [store, sum, size]
      exact fits
    · rw [store, size]
      exact small
  · rw [store, bytes]
    dsimp only
    have front : (buffer.buf.take buffer.len).length = buffer.len := by
      rw [length_take]
      omega
    rw [append_assoc, drop_append_of_le_length (by omega), drop_take,
      take_append, take_of_length_le (by rw [length_take]; omega)]
    congr 1
    rw [take_append_of_le_length (by
      rw [length_take, length_drop]
      omega)]
    apply take_of_length_le
    rw [length_take]
    omega

/-- What an append does to the list of bytes. -/
def Appends (buffer : Buffer) (data : Bytes) (result : Option (Bool × Buffer)) : Prop :=
  ∃ ok after, result = some (ok, after) ∧ after.Valid ∧
    after.bytes = if ok then buffer.bytes ++ data else buffer.bytes

theorem appends_of_resize (valid : buffer.Valid) (word : data.length < wordSize) (granted : Bool) :
    Appends buffer data
      (match buffer.resize data.length granted with
      | none => none
      | some (false, buffer) => some (false, buffer)
      | some (true, buffer) => some (true, buffer.store data)) := by
  obtain ⟨ok, after, returns, same, fits⟩ := resize_spec valid word granted
  rw [returns]
  cases ok with
  | false => exact ⟨false, after, rfl, same.valid, same.bytes⟩
  | true =>
    obtain ⟨stored, appended⟩ := store_spec same.valid (fits rfl)
    refine ⟨true, after.store data, rfl, stored, ?_⟩
    rw [appended, same.bytes]
    rfl

theorem appends_of_room (valid : buffer.Valid)
    (fits : buffer.len + data.length ≤ buffer.buf.length) :
    Appends buffer data (some (true, buffer.store data)) := by
  obtain ⟨stored, appended⟩ := store_spec valid fits
  exact ⟨true, buffer.store data, rfl, stored, appended⟩

theorem append_appends (valid : buffer.Valid) (word : data.length < wordSize) (granted : Bool) :
    Appends buffer data (buffer.append data granted) := by
  have within := valid.len
  have small := valid.capasity
  have limit := maxSize_lt
  rw [append]
  split
  case isTrue => exact ⟨false, buffer, rfl, valid, rfl⟩
  case isFalse exact' =>
    have room : wordSub sizeMax buffer.len = sizeMax - buffer.len :=
      wordSub_eq (by rw [sizeMax]; omega) (by decide)
    have sum : wordAdd buffer.len data.length = buffer.len + data.length := by
      apply wordAdd_eq
      rw [room, sizeMax] at exact'
      omega
    split
    case isTrue => exact appends_of_resize valid word granted
    case isFalse fits => exact appends_of_room valid (by omega)

theorem appendChar_appends (valid : buffer.Valid) (c : UInt8) (granted : Bool) :
    Appends buffer [c] (buffer.appendChar c granted) := by
  have within := valid.len
  have small := valid.capasity
  have limit := maxSize_lt
  have sum : wordAdd buffer.len 1 = buffer.len + 1 := by
    have some' : 0 < maxSize := by decide
    exact wordAdd_eq (by omega)
  rw [appendChar]
  split
  case isTrue =>
    have word : ([c] : Bytes).length < wordSize := by
      rw [length_singleton]
      decide
    exact appends_of_resize valid word granted
  case isFalse fits =>
    apply appends_of_room valid
    rw [length_singleton]
    omega

/-- The bytes of another buffer, as many as are asked for and live. -/
theorem appendBuffer_appends {other : Buffer} (valid : buffer.Valid) (otherValid : other.Valid)
    (len : Nat) (granted : Bool) :
    Appends buffer (other.bytes.take len) (buffer.appendBuffer other len granted) := by
  have size := length_bytes otherValid
  have within := otherValid.len
  have small := otherValid.capasity
  have limit := maxSize_lt
  have count : (if other.live < len then other.live else len) = min len other.bytes.length := by
    rw [live_eq otherValid]
    split <;> omega
  have front : (other.buf.drop other.head).take (min len other.bytes.length) =
      other.bytes.take len := by
    rw [take_drop_head (Nat.min_le_right _ _), ← take_take, take_length]
  rw [appendBuffer, count]
  split
  case isTrue none =>
    refine ⟨true, buffer, rfl, valid, ?_⟩
    rw [← front, none, take_zero, append_nil]
    rfl
  case isFalse =>
    rw [front]
    apply append_appends valid _ granted
    rw [length_take]
    omega

theorem appendWhole_eq {other : Buffer} (otherValid : other.Valid) (granted : Bool) :
    buffer.appendWhole other granted = buffer.appendBuffer other other.bytes.length granted := by
  rw [appendWhole, appendBuffer, live_eq otherValid, if_neg (Nat.lt_irrefl _)]

theorem reserve_same (valid : buffer.Valid) {n : Nat} (word : n < wordSize) (granted : Bool) :
    ∃ after, buffer.reserve n granted = some after ∧ Same buffer after := by
  rw [reserve]
  split
  case isTrue => exact ⟨buffer, rfl, valid, rfl⟩
  case isFalse =>
    obtain ⟨ok, after, returns, same, -⟩ := resize_spec valid word granted
    rw [returns]
    exact ⟨after, rfl, same⟩

/-- The bytes from an offset on, as far as they are live. -/
theorem take_drop_offset (valid : buffer.Valid) {offset count : Nat}
    (within : offset + count ≤ buffer.bytes.length) :
    (buffer.buf.drop (wordAdd buffer.head offset)).take count =
      (buffer.bytes.drop offset).take count := by
  have last := bytes_end valid
  rw [wordAdd_eq (by omega), ← drop_head, take_take, Nat.min_eq_left (by omega)]

/-- A count that is cut to what is there takes what the count takes. -/
theorem take_clamped (list : Bytes) (count : Nat) :
    list.take (if list.length < count then list.length else count) = list.take count := by
  split
  case isTrue more => rw [take_length, take_of_length_le (by omega)]
  case isFalse => rfl

variable (valid : buffer.Valid)
include valid

theorem pop_eq (len : Nat) : buffer.pop len = buffer.bytes.take len := by
  rw [pop, live_eq valid]
  split
  case isTrue none => rw [length_eq_zero_iff.mp none, take_nil]
  case isFalse =>
    rw [take_drop_head (by split <;> omega), take_clamped]

theorem popFrom_eq (offset len : Nat) :
    buffer.popFrom offset len = (buffer.bytes.drop offset).take len := by
  have last := bytes_end valid
  rw [popFrom, live_eq valid]
  split
  case isTrue past => rw [drop_of_length_le past, take_nil]
  case isFalse =>
    have available : wordSub buffer.bytes.length offset = (buffer.bytes.drop offset).length := by
      rw [length_drop, wordSub_eq (by omega) (by omega)]
    rw [available, take_drop_offset valid (by rw [length_drop]; split <;> omega), take_clamped]

theorem copyRange_eq (offset stop : Nat) :
    buffer.copyRange offset stop =
      if offset ≤ stop ∧ stop ≤ buffer.bytes.length then
        (buffer.bytes.drop offset).take (stop - offset)
      else [] := by
  have last := bytes_end valid
  rw [copyRange, live_eq valid]
  split
  case isTrue outside => rw [if_neg (by omega)]
  case isFalse inside =>
    rw [if_pos (by omega), wordSub_eq (by omega) (by omega), take_drop_offset valid (by omega)]

theorem getElem?_offset {offset : Nat} (within : offset < buffer.bytes.length) :
    buffer.buf[wordAdd buffer.head offset]? = buffer.bytes[offset]? := by
  have last := bytes_end valid
  rw [wordAdd_eq (by omega), bytes, getElem?_take_of_lt (by omega), getElem?_drop]

theorem byteAt_eq (offset : Nat) : buffer.byteAt offset = (buffer.bytes[offset]?).getD 0 := by
  rw [byteAt, live_eq valid]
  split
  case isTrue past =>
    rw [getElem?_eq_none past]
    rfl
  case isFalse => rw [getElem?_offset valid (by omega)]

theorem remove_spec (count : Nat) :
    (buffer.remove count).Valid ∧ (buffer.remove count).bytes = buffer.bytes.drop count := by
  have last := bytes_end valid
  obtain ⟨cnt, clamped, atMost, dropped⟩ : ∃ cnt,
      (if buffer.live < count then buffer.live else count) = cnt ∧ cnt ≤ buffer.bytes.length ∧
        buffer.bytes.drop cnt = buffer.bytes.drop count := by
    rw [live_eq valid]
    split
    case isTrue more =>
      exact ⟨_, rfl, Nat.le_refl _, by rw [drop_length, drop_of_length_le (by omega)]⟩
    case isFalse => exact ⟨count, rfl, by omega, rfl⟩
  have head : wordAdd buffer.head cnt = buffer.head + cnt := wordAdd_eq (by omega)
  rw [remove]
  dsimp only
  rw [clamped, head, ← dropped]
  split
  case isTrue consumed =>
    have nothing : buffer.bytes.drop cnt = [] := drop_of_length_le (by omega)
    refine ⟨⟨Nat.le_refl _, Nat.zero_le _, valid.capasity, valid.initial⟩, ?_⟩
    rw [nothing]
    exact take_zero
  case isFalse =>
    have moved : ({ buffer with head := buffer.head + cnt } : Buffer).Valid :=
      ⟨by dsimp only; omega, valid.len, valid.capasity, valid.initial⟩
    have rest : ({ buffer with head := buffer.head + cnt } : Buffer).bytes =
        buffer.bytes.drop cnt := by
      rw [← drop_head, bytes]
      rw [Nat.sub_sub]
    split
    case isTrue =>
      have same := compact_same moved
      exact ⟨same.valid, same.bytes.trans rest⟩
    case isFalse => exact ⟨moved, rest⟩

end Buffer

end SamuraiFormal.Io
