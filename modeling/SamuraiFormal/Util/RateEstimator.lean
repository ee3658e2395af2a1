import Mathlib.Algebra.GroupWithZero.Nat
import Mathlib.Algebra.Order.Group.Nat

/-!
# The rate estimator

`RateEstimator` of `bwestimation.cpp`: three buckets, one for each second of the averaging
window, which are moved on only when bytes are added.  Seconds are counted from the epoch;
the reading of `time(nullptr)` is a parameter of each call.
-/

namespace SamuraiFormal.Util

/-- `BANDWIDTH_ESTIMATION_TIMEOUT`. -/
abbrev bandwidthEstimationTimeout : Nat := 3

/-- The bucket of a second. -/
def slot (second : Nat) : Fin bandwidthEstimationTimeout :=
  ⟨second % bandwidthEstimationTimeout, Nat.mod_lt _ (by decide)⟩

structure RateEstimator where
  current : Nat := 0
  last : Nat := 0
  log : Fin bandwidthEstimationTimeout → Nat := fun _ => 0

namespace RateEstimator

/-- What `add()` does first: the bucket of the second `now` is made ready. -/
def advance (estimator : RateEstimator) (now : Nat) : RateEstimator :=
  let log := if now > estimator.current + bandwidthEstimationTimeout then fun _ => 0
    else estimator.log
  if now ≠ estimator.current then
    { current := now, last := log (slot now), log := Function.update log (slot now) 0 }
  else { estimator with log }

/-- `add()` at the second `now`. -/
def add (estimator : RateEstimator) (now bytesTransfered : Nat) : RateEstimator :=
  let moved := estimator.advance now
  let bucket := (moved.log (slot moved.current) + bytesTransfered) % 2 ^ 64
  { moved with log := Function.update moved.log (slot moved.current) bucket }

/-- `getBps()` at the second `now`. -/
def getBps (estimator : RateEstimator) (now : Nat) : Nat :=
  if now > estimator.current + bandwidthEstimationTimeout then 0
  else
    let bps :=
      if now ≠ estimator.current then
        (List.finRange bandwidthEstimationTimeout).foldl
          (fun bps i => (bps + estimator.log i) % 2 ^ 64) 0
      else
        -- the bucket of this second is still filling
        ((List.finRange bandwidthEstimationTimeout).foldl (fun bps i =>
          if slot now ≠ i then (bps + estimator.log i) % 2 ^ 64 else bps) 0 +
            estimator.last) % 2 ^ 64
    bps / bandwidthEstimationTimeout

end RateEstimator

/-- One call of `add()`. -/
structure Transfer where
  second : Nat
  bytes : Nat

namespace RateEstimator

/-- The estimator after the transfers of a history, the newest of which stands first. -/
def after : List Transfer → RateEstimator
  | [] => {}
  | transfer :: earlier => (after earlier).add transfer.second transfer.bytes

/-- The bytes added `age` seconds before `now`. -/
def bytesAgo (history : List Transfer) (now age : Nat) : Nat :=
  match history with
  | [] => 0
  | transfer :: earlier =>
    (if transfer.second + age = now then transfer.bytes else 0) + bytesAgo earlier now age

/-- The clock does not run backwards, up to `now`. -/
def Clocked (now : Nat) : List Transfer → Prop
  | [] => True
  | transfer :: earlier => transfer.second ≤ now ∧ Clocked transfer.second earlier

/-- The bytes of a second are still in their bucket at `now`: since then no call came in an
earlier second that shares the bucket, and no pause emptied the buckets. -/
def held (second : Nat) : Nat → List Transfer → Bool
  | _, [] => false
  | now, call :: earlier =>
    now ≤ call.second + 3 && (call.second == second ||
      (call.second == now || call.second % 3 != second % 3) && held second call.second earlier)

/-- The bytes of the transfers that a test picks. -/
def bytesWhere (test : Transfer → Bool) (history : List Transfer) : Nat :=
  ((history.filter test).map Transfer.bytes).sum

/-- The bytes that have left the window at `now` but not their bucket. -/
def stale (history : List Transfer) (now : Nat) : Nat :=
  bytesWhere (fun old => old.second + 3 < now && held old.second now history) history

/-- What the bucket of the second `now - age` holds of the time before `now`. -/
def bucket (history : List Transfer) (now age : Nat) : Nat :=
  bytesWhere (fun old => old.second < now && slot old.second == slot (now + 3 - age) &&
    held old.second now history) history

variable {history earlier : List Transfer} {transfer : Transfer} {now age : Nat}

theorem held_cons {second : Nat} : held second now (transfer :: earlier) = true ↔
    now ≤ transfer.second + 3 ∧ (transfer.second = second ∨
      (transfer.second = now ∨ transfer.second % 3 ≠ second % 3) ∧
        held second transfer.second earlier = true) := by
  simp [held]

/-- The calls up to the newest one. -/
theorem Clocked.newest (clocked : Clocked now (transfer :: earlier)) :
    Clocked transfer.second (transfer :: earlier) :=
  ⟨le_rfl, clocked.2⟩

theorem Clocked.le (clocked : Clocked now history) : ∀ old ∈ history, old.second ≤ now := by
  induction history generalizing now with
  | nil => simp
  | cons transfer earlier ih =>
    refine List.forall_mem_cons.mpr ⟨clocked.1, fun old mem => ?_⟩
    exact (ih clocked.2 old mem).trans clocked.1

theorem bytesWhere_congr {test other : Transfer → Bool}
    (same : ∀ old ∈ history, test old = other old) :
    bytesWhere test history = bytesWhere other history := by
  rw [bytesWhere, bytesWhere, List.filter_congr same]

theorem bytesWhere_cons (test : Transfer → Bool) (transfer : Transfer) (earlier : List Transfer) :
    bytesWhere test (transfer :: earlier) =
      (if test transfer then transfer.bytes else 0) + bytesWhere test earlier := by
  rw [bytesWhere, List.filter_cons]
  split
  · rfl
  · rw [Nat.zero_add, bytesWhere]

theorem bytesAgo_eq : bytesAgo history now age =
    bytesWhere (fun old => old.second + age == now) history := by
  induction history with
  | nil => rfl
  | cons transfer earlier ih =>
    rw [bytesAgo, bytesWhere_cons, ih]
    simp only [beq_iff_eq]

theorem slot_congr {first second : Nat} (same : first % 3 = second % 3) :
    slot first = slot second :=
  Fin.ext same

/-- The two seconds before `now` have buckets of their own. -/
theorem slot_ne (old : 0 < age) (young : age < 3) : slot (now + 3 - age) ≠ slot now := by
  intro same
  have same : (now + 3 - age) % 3 = now % 3 := congrArg Fin.val same
  omega

/-- The buckets of the seconds before `now`, the newest one first. -/
theorem slot_cases (now : Nat) :
    slot (now + 3 - 1) = 2 ∧ slot (now + 3 - 2) = 1 ∧ slot now = 0 ∨
      slot (now + 3 - 1) = 0 ∧ slot (now + 3 - 2) = 2 ∧ slot now = 1 ∨
      slot (now + 3 - 1) = 1 ∧ slot (now + 3 - 2) = 0 ∧ slot now = 2 := by
  simp only [slot, Fin.ext_iff, show ((1 : Fin 3) : Nat) = 1 from rfl]
  unfold bandwidthEstimationTimeout
  omega

/-- A call in the query's own second takes no bucket over from it. -/
theorem bucket_same (here : transfer.second = now) :
    bucket (transfer :: earlier) now age = bucket earlier now age := by
  rw [bucket, bytesWhere_cons, if_neg (by simp [here]), Nat.zero_add]
  refine bytesWhere_congr fun old _ => ?_
  rw [Bool.eq_iff_iff]
  simp only [Bool.and_eq_true, decide_eq_true_iff, held_cons, here]
  refine and_congr_right fun ⟨before, _⟩ => ?_
  simp [before.ne']

/-- The newest call has taken over the bucket of its own second. -/
theorem bucket_own (clocked : Clocked transfer.second (transfer :: earlier))
    (later : transfer.second < now) (recent : now ≤ transfer.second + 3)
    (own : slot transfer.second = slot (now + 3 - age)) :
    bucket (transfer :: earlier) now age =
      bytesAgo (transfer :: earlier) transfer.second 0 := by
  rw [bytesAgo_eq, bucket]
  refine bytesWhere_congr fun old mem => ?_
  have ordered := clocked.le old mem
  rw [Bool.eq_iff_iff]
  simp only [Bool.and_eq_true, decide_eq_true_iff, beq_iff_eq, held_cons, Nat.add_zero]
  constructor
  · rintro ⟨⟨_, shares⟩, _, same | ⟨free, _⟩⟩
    · exact same.symm
    · have residue : transfer.second % 3 = old.second % 3 :=
        congrArg Fin.val (own.trans shares.symm)
      omega
  · intro same
    rw [same]
    exact ⟨⟨later, own⟩, recent, .inl rfl⟩

/-- The other buckets are as that call found them. -/
theorem bucket_other {back : Nat} (clocked : Clocked transfer.second (transfer :: earlier))
    (later : transfer.second < now) (recent : now ≤ transfer.second + 3)
    (other : slot transfer.second ≠ slot (now + 3 - age))
    (place : slot (now + 3 - age) = slot (transfer.second + 3 - back)) :
    bucket (transfer :: earlier) now age = bucket earlier transfer.second back := by
  rw [bucket, bytesWhere_cons, if_neg (by simp [other]), Nat.zero_add, bucket]
  refine bytesWhere_congr fun old mem => ?_
  have ordered := clocked.2.le old mem
  rw [Bool.eq_iff_iff]
  simp only [Bool.and_eq_true, decide_eq_true_iff, beq_iff_eq, held_cons, ← place]
  constructor
  · rintro ⟨⟨_, shares⟩, _, same | ⟨_, kept⟩⟩
    · exact absurd (same ▸ shares) other
    · exact ⟨⟨ordered.lt_of_ne fun same => other (same ▸ shares), shares⟩, kept⟩
  · rintro ⟨⟨before, shares⟩, kept⟩
    exact ⟨⟨before.trans later, shares⟩, recent, .inr ⟨.inr fun same =>
      other ((slot_congr same).trans shares), kept⟩⟩

/-- A longer pause empties the buckets. -/
theorem bucket_idle (pause : transfer.second + 3 < now) :
    bucket (transfer :: earlier) now age = 0 := by
  have none (old : Transfer) : held old.second now (transfer :: earlier) = false := by
    simp [held, Nat.not_le.mpr pause]
  rw [bucket, bytesWhere, List.filter_eq_nil_iff.mpr (by simp [none])]
  rfl

variable {estimator : RateEstimator}

theorem advance_current : estimator.advance estimator.current = estimator := by
  rw [advance, if_neg (not_not.mpr rfl), if_neg (Nat.not_lt.mpr (Nat.le_add_right _ _))]

/-- A later second finds the buckets as they are, or empty after a longer pause, and takes
over the bucket of the third second before it. -/
theorem advance_later (later : estimator.current < now) :
    ∃ log, estimator.advance now =
        { current := now, last := log (slot now), log := Function.update log (slot now) 0 } ∧
      log = if now > estimator.current + 3 then fun _ => 0 else estimator.log :=
  ⟨_, if_pos later.ne', rfl⟩

/-- Whether or not bytes were added in this second, `getBps()` sums up what `add()` would
leave of the seconds before it. -/
theorem getBps_eq (ordered : estimator.current ≤ now) :
    estimator.getBps now =
      ((estimator.advance now).log (slot (now + 3 - 1)) +
        (estimator.advance now).log (slot (now + 3 - 2)) + (estimator.advance now).last) %
          2 ^ 64 / 3 := by
  have loops : List.finRange bandwidthEstimationTimeout = [0, 1, 2] := rfl
  rcases ordered.eq_or_lt with rfl | later
  · rw [advance_current, getBps, loops]
    obtain ⟨first, second, third⟩ | ⟨first, second, third⟩ | ⟨first, second, third⟩ :=
      slot_cases estimator.current <;>
    · rw [first, second, third]
      simp [bandwidthEstimationTimeout, Nat.add_comm]
  obtain ⟨log, advanced, kept⟩ := advance_later later
  rw [advanced, getBps]
  dsimp only
  rw [Function.update_of_ne (slot_ne (by decide) (by decide)),
    Function.update_of_ne (slot_ne (by decide) (by decide)), kept]
  split
  · simp
  rw [if_pos later.ne', loops]
  obtain ⟨first, second, third⟩ | ⟨first, second, third⟩ | ⟨first, second, third⟩ :=
    slot_cases now <;>
  · simp only [first, second, third, List.foldl_cons, List.foldl_nil]
    congr 1
    omega

/-- The estimator made ready for the second `now`. -/
structure Tracks (history : List Transfer) (now : Nat) (estimator : RateEstimator) : Prop where
  current : estimator.current = now
  own : estimator.log (slot now) = bytesAgo history now 0 % 2 ^ 64
  log : ∀ age, 0 < age → age < 3 →
    estimator.log (slot (now + 3 - age)) = bucket history now age % 2 ^ 64
  last : estimator.last = bucket history now 3 % 2 ^ 64

/-- The three buckets as a later second finds them. -/
theorem Tracks.window (tracks : Tracks (transfer :: earlier) transfer.second estimator)
    (clocked : Clocked transfer.second (transfer :: earlier)) (later : transfer.second < now)
    (recent : now ≤ transfer.second + 3) (young : 0 < age) (old : age ≤ 3) :
    estimator.log (slot (now + 3 - age)) = bucket (transfer :: earlier) now age % 2 ^ 64 := by
  by_cases own : slot transfer.second = slot (now + 3 - age)
  · rw [bucket_own clocked later recent own, ← own, tracks.own]
  obtain ⟨back, positive, small, place⟩ : ∃ back, 0 < back ∧ back < 3 ∧
      slot (now + 3 - age) = slot (transfer.second + 3 - back) := by
    have residue : (now + 3 - age) % 3 ≠ transfer.second % 3 := fun same =>
      own (slot_congr same.symm)
    refine ⟨(transfer.second + 6 - (now + 3 - age)) % 3, ?_, Nat.mod_lt _ (by decide),
      slot_congr ?_⟩ <;> omega
  rw [bucket_other clocked later recent own place, ← bucket_same rfl, place,
    tracks.log back positive small]

theorem Tracks.advance (tracks : Tracks (transfer :: earlier) transfer.second estimator)
    (clocked : Clocked transfer.second (transfer :: earlier)) (ordered : transfer.second ≤ now) :
    Tracks (transfer :: earlier) now (estimator.advance now) := by
  have current := tracks.current
  rcases ordered.eq_or_lt with rfl | later
  · rwa [← current, advance_current, current]
  obtain ⟨log, advanced, kept⟩ := advance_later (by rwa [current] : estimator.current < now)
  rw [current] at kept
  have window (age : Nat) (young : 0 < age) (old : age ≤ 3) :
      log (slot (now + 3 - age)) = bucket (transfer :: earlier) now age % 2 ^ 64 := by
    rw [kept]
    split
    · next pause => rw [bucket_idle pause, Nat.zero_mod]
    · next recent => exact tracks.window clocked later (Nat.le_of_not_lt recent) young old
  rw [advanced]
  refine ⟨rfl, ?_, fun age young small => ?_, window 3 (by decide) (by decide)⟩
  · have ready : bytesAgo (transfer :: earlier) now 0 = 0 := by
      rw [bytesAgo_eq, bytesWhere, List.filter_eq_nil_iff.mpr]
      · rfl
      · intro old mem
        have := clocked.le old mem
        simp only [beq_iff_eq]
        omega
    rw [ready]
    exact Function.update_self _ _ _
  · rw [← window age young small.le]
    exact Function.update_of_ne (slot_ne young small) _ _

theorem Tracks.add (tracks : Tracks history now (estimator.advance now)) (bytes : Nat) :
    Tracks (⟨now, bytes⟩ :: history) now (estimator.add now bytes) := by
  obtain ⟨current, own, log, last⟩ := tracks
  refine ⟨current, ?_, fun age young small => ?_, ?_⟩
  · rw [RateEstimator.add, bytesAgo, current]
    dsimp only
    rw [Function.update_self, if_pos (Nat.add_zero now), own, Nat.mod_add_mod, Nat.add_comm]
  · rw [RateEstimator.add, current, bucket_same rfl, ← log age young small]
    exact Function.update_of_ne (slot_ne young small) _ _
  · rw [bucket_same rfl]
    exact last

/-- What the next call finds, be it `add()` or `getBps()`. -/
theorem tracks_after (clocked : Clocked now history) :
    (after history).current ≤ now ∧ Tracks history now ((after history).advance now) := by
  induction history generalizing now with
  | nil =>
    refine ⟨Nat.zero_le now, ?_⟩
    rcases now.eq_zero_or_pos with rfl | later
    · exact ⟨rfl, rfl, fun _ _ _ => rfl, rfl⟩
    obtain ⟨log, advanced, kept⟩ := @advance_later now {} later
    have empty : log = fun _ => 0 := by
      rw [kept]
      split <;> rfl
    rw [after, advanced, empty]
    exact ⟨rfl, by simp [bytesAgo], fun _ _ _ => by simp [bucket, bytesWhere], rfl⟩
  | cons transfer earlier ih =>
    have tracks := (ih clocked.2).2.add transfer.bytes
    exact ⟨tracks.current.trans_le clocked.1, tracks.advance clocked.newest clocked.1⟩

/-- The bytes of the window are still in their buckets. -/
theorem held_of_recent (clocked : Clocked now history) (mem : transfer ∈ history)
    (recent : now ≤ transfer.second + 3) : held transfer.second now history = true := by
  induction history generalizing now with
  | nil => cases mem
  | cons call earlier ih =>
    have ordered := clocked.newest.le transfer mem
    have late := clocked.1
    refine held_cons.mpr ⟨by omega, ?_⟩
    rcases List.mem_cons.mp mem with rfl | before
    · exact .inl rfl
    · by_cases same : call.second = transfer.second
      · exact .inl same
      · exact .inr ⟨by omega, ih clocked.2 before (by omega)⟩

/-- A transfer is in one bucket, unless it has left it. -/
theorem bucket_of_transfer (second bytes : Nat) {kept : Bool}
    (recent : now ≤ second + 3 → kept = true) :
    (if second < now && slot second == slot (now + 3 - 1) && kept then bytes else 0) +
        (if second < now && slot second == slot (now + 3 - 2) && kept then bytes else 0) +
        (if second < now && slot second == slot (now + 3 - 3) && kept then bytes else 0) =
      (if second + 1 = now then bytes else 0) + (if second + 2 = now then bytes else 0) +
        (if second + 3 = now then bytes else 0) +
        if second + 3 < now && kept then bytes else 0 := by
  simp only [slot, bandwidthEstimationTimeout, Bool.and_eq_true, decide_eq_true_iff, beq_iff_eq,
    Fin.mk.injEq]
  cases kept
  · simp only [Bool.false_eq_true, and_false, if_false, imp_false] at recent ⊢
    split_ifs <;> omega
  · simp only [and_true]
    split_ifs <;> omega

/-- Together the three buckets hold the bytes of the window and those that are stale. -/
theorem buckets_sum (kept : Nat → Bool) (part : List Transfer)
    (recent : ∀ old ∈ part, now ≤ old.second + 3 → kept old.second = true) :
    bytesWhere (fun old => old.second < now && slot old.second == slot (now + 3 - 1) &&
          kept old.second) part +
        bytesWhere (fun old => old.second < now && slot old.second == slot (now + 3 - 2) &&
          kept old.second) part +
        bytesWhere (fun old => old.second < now && slot old.second == slot (now + 3 - 3) &&
          kept old.second) part =
      bytesAgo part now 1 + bytesAgo part now 2 + bytesAgo part now 3 +
        bytesWhere (fun old => old.second + 3 < now && kept old.second) part := by
  induction part with
  | nil => rfl
  | cons old part ih =>
    rw [List.forall_mem_cons] at recent
    have rest := ih recent.2
    have here := bucket_of_transfer old.second old.bytes recent.1
    simp only [bytesWhere_cons, bytesAgo]
    omega

/-- `getBps()` is the average of the three seconds before the query just if the bytes that are
older but have not left their bucket do not reach the next multiple of three. -/
theorem getBps_averages (clocked : Clocked now history)
    (fits : bytesAgo history now 1 + bytesAgo history now 2 + bytesAgo history now 3 +
      stale history now < 2 ^ 64) :
    (after history).getBps now =
        (bytesAgo history now 1 + bytesAgo history now 2 + bytesAgo history now 3) / 3 ↔
      (bytesAgo history now 1 + bytesAgo history now 2 + bytesAgo history now 3) % 3 +
        stale history now < 3 := by
  obtain ⟨ordered, tracks⟩ := tracks_after clocked
  have sum : bucket history now 1 + bucket history now 2 + bucket history now 3 = _ :=
    buckets_sum (fun second => held second now history) history fun old mem =>
      held_of_recent clocked mem
  rw [getBps_eq ordered, tracks.log 1 (by decide) (by decide), tracks.log 2 (by decide) (by decide),
    tracks.last]
  rw [← stale] at sum
  omega

/-- Bytes that stayed in their bucket when the clock moved on from second 11 to 14 are gone
once a call comes in a second that shares it. -/
theorem getBps_averages_steady :
    (after [⟨17, 9⟩, ⟨16, 9⟩, ⟨15, 6⟩, ⟨14, 3⟩, ⟨11, 3⟩, ⟨10, 3⟩]).getBps 17 = 6 :=
  (@getBps_averages [⟨17, 9⟩, ⟨16, 9⟩, ⟨15, 6⟩, ⟨14, 3⟩, ⟨11, 3⟩, ⟨10, 3⟩] 17
    ⟨by decide, by decide, by decide, by decide, by decide, by decide, trivial⟩
    (by decide)).mpr (by decide)

/-- Three bytes in each of the seconds 10 and 11: at second 14 those of second 10 are still
counted, though only second 11 lies in the window. -/
theorem getBps_counts_stale :
    (after [⟨11, 3⟩, ⟨10, 3⟩]).getBps 14 = 2 ∧
      (bytesAgo [⟨11, 3⟩, ⟨10, 3⟩] 14 1 + bytesAgo [⟨11, 3⟩, ⟨10, 3⟩] 14 2 +
        bytesAgo [⟨11, 3⟩, ⟨10, 3⟩] 14 3) / 3 = 1 := by
  decide

end RateEstimator

end SamuraiFormal.Util
