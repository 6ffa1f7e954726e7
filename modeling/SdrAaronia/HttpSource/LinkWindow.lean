import SdrAaronia.HttpSource.RateTrackers

/-! # The sweeps of one link-budget window

A meter counts a stretch of the sweeps made: those behind the sweep that marked it, up
to the one that closes it.
-/

namespace SdrAaronia

open HttpStreaming HttpSource

/-- What one sweep found. -/
structure Sweep where
  /-- Its IQ packets in order: the rate of each, and how many samples it brought. -/
  packets : List (F64 × Nat)
  /-- When the meter was told of it, and how many bytes. -/
  told : Option (Nat × Nat)
  channelWasFull : Bool
  deriving DecidableEq, Repr

namespace Sweep

def toldAt (sweep : Sweep) : Option Nat := sweep.told.map Prod.fst

/-- The bytes told of these sweeps, as the meter adds them up. -/
def totalBytes (sweeps : List Sweep) : Nat :=
  (sweeps.filterMap told).foldl (fun bytes observation => saturatingAdd bytes observation.2) 0

theorem totalBytes_untold {sweeps : List Sweep} {sweep : Sweep} (untold : sweep.told = none) :
    totalBytes (sweeps ++ [sweep]) = totalBytes sweeps := by
  rw [totalBytes, List.filterMap_append, List.filterMap_cons_none untold, List.filterMap_nil,
    List.append_nil, totalBytes]

theorem totalBytes_told {sweeps : List Sweep} {sweep : Sweep} {instant bytes : Nat}
    (told : sweep.told = some (instant, bytes)) :
    totalBytes (sweeps ++ [sweep]) = saturatingAdd (totalBytes sweeps) bytes := by
  rw [totalBytes, List.filterMap_append, List.filterMap_cons_some told, List.filterMap_nil,
    List.foldl_concat, totalBytes]

end Sweep

/-! ## One window of the meter -/

namespace ThroughputMeter

def tell (meter : ThroughputMeter) (observation : Option (Nat × Nat)) : ThroughputMeter :=
  match observation with
  | none => meter
  | some (instant, bytes) => meter.observe instant bytes

def noteFull (meter : ThroughputMeter) (full : Bool) (instant : Nat) : ThroughputMeter :=
  if full then meter.noteConsumerLimited instant else meter

/-- What a sweep's end does to the meter. -/
def afterSweep (meter : ThroughputMeter) (sweep : Sweep) (limitedAt : Nat) : ThroughputMeter :=
  (meter.tell sweep.told).noteFull sweep.channelWasFull limitedAt

/-- An open meter, and the sweeps it has counted since its mark. -/
structure Counts (now : Nat) (meter : ThroughputMeter) (sweeps counted : List Sweep) : Prop where
  running : meter.closed = false
  unmarked : meter.mark = none → meter.countedBytes = 0 ∧ meter.last = none
  marked : ∀ mark, meter.mark = some mark →
    mark ≤ now ∧ meter.settle ≤ mark - meter.opened ∧
      meter.countedBytes = Sweep.totalBytes counted ∧
      (∀ last, meter.last = some last → ∃ sweep ∈ counted, sweep.toldAt = some last) ∧
      ∃ earlier marking, sweeps = earlier ++ marking :: counted ∧ marking.toldAt = some mark ∧
        (meter.consumerLimited = false → ∀ sweep ∈ marking :: counted,
          sweep.channelWasFull = false)

theorem counts_startingAt (now opened settle window : Nat) (sweeps counted : List Sweep) :
    (startingAt opened settle window).Counts now sweeps counted where
  running := rfl
  unmarked := fun _ => ⟨rfl, rfl⟩
  marked := by
    intro mark marked
    cases marked

/-- The meter behind its window: closed by this sweep, which it does not count. -/
structure ClosedBy (before after : ThroughputMeter) (sweep : Sweep) : Prop where
  told : sweep.told.isSome = true
  past : ∃ mark, before.mark = some mark ∧ ∀ instant, sweep.toldAt = some instant →
    before.window ≤ instant - mark
  shut : after = { before with closed := true }

variable {now now' : Nat} {meter : ThroughputMeter} {sweeps counted : List Sweep} {sweep : Sweep}

/-- A full channel changes the flag only, and sets it behind the mark. -/
theorem noteFull_eq (meter : ThroughputMeter) (full : Bool) (instant : Nat) :
    ∃ limited, meter.noteFull full instant = { meter with consumerLimited := limited } ∧
      (limited = false → meter.consumerLimited = false) ∧
      (meter.closed = true → limited = meter.consumerLimited) ∧
      (meter.closed = false → ∀ mark, meter.mark = some mark → mark ≤ instant →
        limited = false → full = false) := by
  rw [noteFull]
  split
  · rw [noteConsumerLimited]
    split
    · rename_i inside
      obtain ⟨running, -⟩ := (Bool.and_eq_true _ _).mp inside
      refine ⟨true, rfl, ?_, ?_, ?_⟩
      · intro never
        cases never
      · intro closed
        rw [closed] at running
        cases running
      · intro _ _ _ _ never
        cases never
    · rename_i outside
      refine ⟨meter.consumerLimited, rfl, id, fun _ => rfl, fun running mark marked early => ?_⟩
      rw [running, marked] at outside
      exact absurd (decide_eq_true early) outside
  · rename_i free
    exact ⟨meter.consumerLimited, rfl, id, fun _ => rfl,
      fun _ _ _ _ _ => Bool.eq_false_iff.mpr free⟩

theorem observe_cases (running : meter.closed = false) (instant bytes : Nat) :
    (instant - meter.opened < meter.settle ∧ meter.observe instant bytes =
      { meter with discardedBytes := saturatingAdd meter.discardedBytes bytes }) ∨
    (meter.settle ≤ instant - meter.opened ∧ meter.mark = none ∧ meter.observe instant bytes =
      { meter with
        mark := some instant
        discardedBytes := saturatingAdd meter.discardedBytes bytes }) ∨
    (∃ mark, meter.mark = some mark ∧ meter.window ≤ instant - mark ∧
      meter.observe instant bytes = { meter with closed := true }) ∨
    (meter.settle ≤ instant - meter.opened ∧ (∃ mark, meter.mark = some mark ∧
        instant - mark < meter.window) ∧
      meter.observe instant bytes =
        { meter with
          countedBytes := saturatingAdd meter.countedBytes bytes
          last := some instant }) := by
  rw [observe, running]
  simp only [Bool.false_eq_true, if_false]
  by_cases settling : instant - meter.opened < meter.settle
  · exact Or.inl ⟨settling, if_pos settling⟩
  · have settled := Nat.le_of_not_lt settling
    rw [if_neg settling]
    cases marked : meter.mark with
    | none => exact Or.inr (Or.inl ⟨settled, rfl, rfl⟩)
    | some mark =>
        by_cases past : meter.window ≤ instant - mark
        · exact Or.inr (Or.inr (Or.inl ⟨mark, rfl, past, if_pos past⟩))
        · exact Or.inr (Or.inr (Or.inr ⟨settled, ⟨mark, rfl, Nat.lt_of_not_le past⟩,
            if_neg past⟩))

theorem clear_snoc {marking : Sweep} {limited limited' : Bool}
    (clear : limited = false → ∀ other ∈ marking :: counted, other.channelWasFull = false)
    (before : limited' = false → limited = false)
    (free : limited' = false → sweep.channelWasFull = false) :
    limited' = false → ∀ other ∈ marking :: (counted ++ [sweep]),
      other.channelWasFull = false := by
  intro unlimited other member
  rw [← List.cons_append] at member
  cases List.mem_append.mp member with
  | inl old => exact clear (before unlimited) other old
  | inr new =>
      rw [List.mem_singleton.mp new]
      exact free unlimited

/-- A sweep's end leaves the meter open, counting the sweep if it was marked before, or
closes it. -/
theorem Counts.afterSweep (counts : meter.Counts now sweeps counted) {limitedAt : Nat}
    (told : ∀ instant, sweep.toldAt = some instant → now ≤ instant ∧ instant ≤ limitedAt)
    (limited : now ≤ limitedAt) (late : limitedAt ≤ now') :
    (meter.afterSweep sweep limitedAt).Counts now' (sweeps ++ [sweep])
        (if meter.mark.isSome then counted ++ [sweep] else []) ∨
      ClosedBy meter (meter.afterSweep sweep limitedAt) sweep := by
  obtain ⟨flag, same, before, closedFlag, free⟩ :=
    (meter.tell sweep.told).noteFull_eq sweep.channelWasFull limitedAt
  rw [ThroughputMeter.afterSweep, same]
  cases observation : sweep.told with
  | none =>
      rw [observation] at before free
      refine Or.inl ⟨counts.running, counts.unmarked, fun mark marked => ?_⟩
      obtain ⟨early, settled, bytes, last, earlier, marking, whole, at', clear⟩ :=
        counts.marked mark marked
      have markedBefore : meter.mark = some mark := marked
      rw [markedBefore, Option.isSome_some, if_pos rfl]
      refine ⟨by omega, settled, bytes.trans (Sweep.totalBytes_untold observation).symm, ?_,
        earlier, marking, ?_, at', ?_⟩
      · intro instant counted'
        obtain ⟨other, member, there⟩ := last instant counted'
        exact ⟨other, List.mem_append_left _ member, there⟩
      · rw [whole, List.append_assoc, List.cons_append]
      · exact clear_snoc clear before (free counts.running mark marked (by omega))
  | some pair =>
      obtain ⟨instant, bytes⟩ := pair
      have toldAt : sweep.toldAt = some instant := by
        rw [Sweep.toldAt, observation]
        rfl
      obtain ⟨inOrder, beforeLimit⟩ := told instant toldAt
      rw [observation, tell] at before closedFlag free
      rw [tell]
      rcases observe_cases counts.running instant bytes with
        ⟨settling, told⟩ | ⟨settled, fresh, told⟩ | ⟨mark, marked, past, told⟩ |
          ⟨settled, ⟨mark, marked, -⟩, told⟩
      · -- still settling: a marked meter has settled
        rw [told] at before free ⊢
        refine Or.inl ⟨counts.running, counts.unmarked, fun mark marked => ?_⟩
        obtain ⟨early, settled, -⟩ := counts.marked mark marked
        exact absurd settling (by omega)
      · -- the marking sweep
        rw [told] at before free ⊢
        rw [fresh]
        obtain ⟨none, unobserved⟩ := counts.unmarked fresh
        refine Or.inl ⟨counts.running, fun unmarked => (by cases unmarked), fun mark marked => ?_⟩
        cases marked
        refine ⟨by omega, settled, none, fun last counted' => ?_, sweeps, sweep, rfl, toldAt, ?_⟩
        · rw [unobserved] at counted'
          cases counted'
        · intro unlimited other member
          rw [List.mem_singleton.mp member]
          exact free counts.running instant rfl beforeLimit unlimited
      · -- the closing sweep, behind which a full channel changes nothing
        rw [told] at closedFlag ⊢
        rw [closedFlag rfl]
        refine Or.inr ⟨?_, ⟨mark, marked, fun instant' there => ?_⟩, rfl⟩
        · rw [observation]
          rfl
        · rw [toldAt] at there
          cases there
          exact past
      · rw [told] at before free ⊢
        obtain ⟨early, settled, counted', last, earlier, marking, whole, at', clear⟩ :=
          counts.marked mark marked
        rw [marked, Option.isSome_some, if_pos rfl]
        refine Or.inl ⟨counts.running, fun unmarked => ?_, fun mark' same => ?_⟩
        · cases unmarked
        · cases same
          refine ⟨by omega, settled, ?_, ?_, earlier, marking, ?_, at', ?_⟩
          · rw [Sweep.totalBytes_told observation, ← counted']
          · intro last' recorded
            cases recorded
            exact ⟨sweep, List.mem_append_right _ List.mem_cons_self, toldAt⟩
          · rw [whole, List.append_assoc, List.cons_append]
          · exact clear_snoc clear before (free counts.running mark marked (by omega))

theorem Counts.closes (counts : meter.Counts now sweeps counted) {mark instant : Nat}
    (marked : meter.mark = some mark) (told : sweep.toldAt = some instant)
    (past : meter.window ≤ instant - mark) (later : now ≤ instant) (limitedAt : Nat) :
    (meter.afterSweep sweep limitedAt).closed = true := by
  obtain ⟨early, settled, -⟩ := counts.marked mark marked
  obtain ⟨⟨instant', bytes⟩, observation, rfl⟩ := Option.map_eq_some_iff.mp told
  obtain ⟨flag, same, -⟩ := (meter.tell sweep.told).noteFull_eq sweep.channelWasFull limitedAt
  rw [ThroughputMeter.afterSweep, same, observation, tell]
  have inside : ¬ instant' - meter.opened < meter.settle := by
    dsimp only at later
    omega
  rw [observe, counts.running, marked, if_neg inside]
  simp only [Bool.false_eq_true, if_false, if_pos past]

end ThroughputMeter

end SdrAaronia
