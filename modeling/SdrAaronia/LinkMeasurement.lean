import SdrAaronia.LinkBudget

/-! # What a throughput meter measures

The observations of a run fall into those of the settle period, the one that marks, those
counted, the one that closes and the rest.  The measurement is told from these segments.
-/

namespace SdrAaronia

/-- A call on a meter. -/
inductive MeterCall where
  | observe (instant bytes : Nat)
  | noteConsumerLimited (instant : Nat)

namespace MeterCall

def instant : MeterCall → Nat
  | .observe instant _ => instant
  | .noteConsumerLimited instant => instant

def observed : MeterCall → Option (Nat × Nat)
  | .observe instant bytes => some (instant, bytes)
  | .noteConsumerLimited _ => none

/-- The observations among the calls, each an instant and its bytes. -/
def observations (calls : List MeterCall) : List (Nat × Nat) := calls.filterMap observed

end MeterCall

namespace ThroughputMeter

open MeterCall

def call (meter : ThroughputMeter) : MeterCall → ThroughputMeter
  | .observe instant bytes => meter.observe instant bytes
  | .noteConsumerLimited instant => meter.noteConsumerLimited instant

def callAll (meter : ThroughputMeter) (calls : List MeterCall) : ThroughputMeter :=
  calls.foldl call meter

/-- The bytes of these observations, up to the largest word. -/
def totalBytes (observations : List (Nat × Nat)) : Nat :=
  min (observations.map Prod.snd).sum (wordSize - 1)

theorem totalBytes_concat (observations : List (Nat × Nat)) (observation : Nat × Nat) :
    totalBytes (observations ++ [observation]) =
      saturatingAdd (totalBytes observations) observation.2 := by
  rw [totalBytes, totalBytes, saturatingAdd, List.map_append, List.sum_append]
  simp only [List.map_cons, List.map_nil, List.sum_cons, List.sum_nil]
  omega

/-- What the observations are: a settle period, the mark behind it and those counted. -/
structure Window (opened settle window : Nat) (settling : List (Nat × Nat)) (marking : Nat × Nat)
    (counted : List (Nat × Nat)) : Prop where
  settling : ∀ observation ∈ settling, observation.1 - opened < settle
  settled : settle ≤ marking.1 - opened
  inside : ∀ observation ∈ counted, observation.1 < marking.1 + window

/-- A meter ahead of its mark. -/
def ahead (opened settle window : Nat) (settling : List (Nat × Nat)) : ThroughputMeter where
  settle := settle
  window := window
  opened := opened
  mark := none
  last := none
  discardedBytes := totalBytes settling
  countedBytes := 0
  closed := false
  consumerLimited := false

/-- A meter behind its mark. -/
def behind (opened settle window : Nat) (settling : List (Nat × Nat)) (marking : Nat × Nat)
    (counted : List (Nat × Nat)) (closed consumerLimited : Bool) : ThroughputMeter where
  settle := settle
  window := window
  opened := opened
  mark := some marking.1
  last := counted.getLast?.map Prod.fst
  discardedBytes := totalBytes (settling ++ [marking])
  countedBytes := totalBytes counted
  closed := closed
  consumerLimited := consumerLimited

/-- A meter that has made these observations. -/
inductive Follows (opened settle window : Nat) : List (Nat × Nat) → ThroughputMeter → Prop
  | settling {settling : List (Nat × Nat)}
      (early : ∀ observation ∈ settling, observation.1 - opened < settle) :
      Follows opened settle window settling (ahead opened settle window settling)
  | counting {settling : List (Nat × Nat)} {marking : Nat × Nat} {counted : List (Nat × Nat)}
      {limited : Bool} (inside : Window opened settle window settling marking counted) :
      Follows opened settle window (settling ++ marking :: counted)
        (behind opened settle window settling marking counted false limited)
  | closed {settling : List (Nat × Nat)} {marking closing : Nat × Nat}
      {counted later : List (Nat × Nat)} {limited : Bool}
      (inside : Window opened settle window settling marking counted)
      (past : marking.1 + window ≤ closing.1) :
      Follows opened settle window (settling ++ marking :: counted ++ closing :: later)
        (behind opened settle window settling marking counted true limited)

variable {opened settle window : Nat} {meter : ThroughputMeter}
  {observations settling counted : List (Nat × Nat)} {marking closing : Nat × Nat}

theorem call_closed (closed : meter.closed = true) (next : MeterCall) :
    meter.call next = meter := by
  cases next with
  | observe instant bytes => rw [call, observe, if_pos closed]
  | noteConsumerLimited instant =>
      rw [call, noteConsumerLimited, closed]
      rfl

theorem callAll_closed (closed : meter.closed = true) (calls : List MeterCall) :
    meter.callAll calls = meter := by
  induction calls with
  | nil => rfl
  | cons next calls ih =>
      rw [callAll, List.foldl_cons, call_closed closed]
      exact ih

theorem Window.counts (inside : Window opened settle window settling marking counted)
    {next : Nat × Nat} (here : next.1 < marking.1 + window) :
    Window opened settle window settling marking (counted ++ [next]) where
  settling := inside.settling
  settled := inside.settled
  inside := by
    intro observation member
    rcases List.mem_append.mp member with old | new
    · exact inside.inside observation old
    · rw [List.mem_singleton.mp new]
      exact here

/-- An observation ahead of the mark is discarded, and marks behind the settle period. -/
theorem ahead_observe (opened settle window : Nat) (settling : List (Nat × Nat))
    (instant bytes : Nat) :
    (ahead opened settle window settling).observe instant bytes =
      if instant - opened < settle then
        ahead opened settle window (settling ++ [(instant, bytes)])
      else behind opened settle window settling (instant, bytes) [] false false := by
  have running : ¬ (ahead opened settle window settling).closed = true := Bool.false_ne_true
  rw [observe, if_neg running]
  by_cases soon : instant - opened < settle
  · have inside : instant - (ahead opened settle window settling).opened <
        (ahead opened settle window settling).settle := soon
    rw [if_pos inside, if_pos soon, ahead, ahead, totalBytes_concat settling]
  · have outside : ¬ instant - (ahead opened settle window settling).opened <
        (ahead opened settle window settling).settle := soon
    rw [if_neg outside, if_neg soon, behind, totalBytes_concat settling]
    rfl

/-- An observation behind the mark is counted, or closes the window. -/
theorem behind_observe (inside : Window opened settle window settling marking counted)
    (limited : Bool) {instant bytes : Nat} (late : marking.1 ≤ instant) :
    (behind opened settle window settling marking counted false limited).observe instant bytes =
      if marking.1 + window ≤ instant then
        behind opened settle window settling marking counted true limited
      else
        behind opened settle window settling marking (counted ++ [(instant, bytes)]) false
          limited := by
  have settled : ¬ instant - opened < settle := by
    have settled := inside.settled
    omega
  have past : window ≤ instant - marking.1 ↔ marking.1 + window ≤ instant := by omega
  rw [observe]
  simp only [behind, Bool.false_eq_true, if_false, if_neg settled, past]
  split
  · rfl
  · rw [totalBytes_concat counted, List.getLast?_concat]
    rfl

theorem Follows.call (follows : Follows opened settle window observations meter)
    {next : MeterCall} (late : ∀ observation ∈ observations, observation.1 ≤ next.instant) :
    Follows opened settle window (observations ++ next.observed.toList) (meter.call next) := by
  cases follows with
  | settling early =>
      cases next with
      | noteConsumerLimited instant =>
          rw [MeterCall.observed, Option.toList_none, List.append_nil]
          exact .settling early
      | observe instant bytes =>
          rw [MeterCall.observed, Option.toList_some, ThroughputMeter.call, ahead_observe]
          split
          · rename_i soon
            refine .settling fun observation member => ?_
            rcases List.mem_append.mp member with old | new
            · exact early observation old
            · rw [List.mem_singleton.mp new]
              exact soon
          · rename_i settled
            exact .counting ⟨early, Nat.le_of_not_lt settled,
              fun observation member => absurd member List.not_mem_nil⟩
  | @counting settling marking counted limited inside =>
      have after : marking.1 ≤ next.instant :=
        late marking (List.mem_append_right _ List.mem_cons_self)
      cases next with
      | noteConsumerLimited instant =>
          have noted : ∃ limited', (behind opened settle window settling marking counted false
              limited).noteConsumerLimited instant =
              behind opened settle window settling marking counted false limited' := by
            rw [noteConsumerLimited]
            split
            · exact ⟨true, rfl⟩
            · exact ⟨limited, rfl⟩
          obtain ⟨limited', same⟩ := noted
          rw [MeterCall.observed, Option.toList_none, List.append_nil, ThroughputMeter.call, same]
          exact .counting inside
      | observe instant bytes =>
          have after : marking.1 ≤ instant := after
          rw [MeterCall.observed, Option.toList_some, ThroughputMeter.call,
            behind_observe inside limited after]
          split
          · rename_i past
            exact .closed inside past
          · rename_i here
            rw [List.append_assoc, List.cons_append]
            exact .counting (inside.counts (Nat.lt_of_not_le here))
  | closed inside past =>
      rw [call_closed rfl, List.append_assoc, List.cons_append]
      exact .closed inside past

theorem callAll_follows (opened settle window : Nat) {calls : List MeterCall}
    (ordered : calls.Pairwise fun earlier later => earlier.instant ≤ later.instant) :
    Follows opened settle window (MeterCall.observations calls)
      ((startingAt opened settle window).callAll calls) := by
  induction calls using List.reverseRecOn with
  | nil => exact .settling fun observation member => absurd member List.not_mem_nil
  | append_singleton calls next ih =>
      obtain ⟨before, -, late⟩ := List.pairwise_append.mp ordered
      have made : MeterCall.observations (calls ++ [next]) =
          MeterCall.observations calls ++ next.observed.toList := by
        rw [MeterCall.observations, List.filterMap_append, MeterCall.observations]
        cases next with
        | observe | noteConsumerLimited => rfl
      rw [made, callAll, List.foldl_append]
      refine (ih before).call fun observation member => ?_
      obtain ⟨earlier, among, told⟩ := List.mem_filterMap.mp member
      have inOrder := late earlier among next (List.mem_singleton_self _)
      cases earlier with
      | observe instant bytes =>
          cases told
          exact inOrder
      | noteConsumerLimited instant => cases told

/-! ## The measurement -/

/-- A list is cut in one way only at its first element outside a set. -/
theorem cut_unique {α : Type} {P : α → Prop} {before before' after after' : List α} {x x' : α}
    (inside : ∀ y ∈ before, P y) (outside : ¬ P x) (inside' : ∀ y ∈ before', P y)
    (outside' : ¬ P x') (same : before ++ x :: after = before' ++ x' :: after') :
    before = before' ∧ x = x' ∧ after = after' := by
  induction before generalizing before' with
  | nil =>
      cases before' with
      | nil =>
          obtain ⟨first, rest⟩ := List.cons.inj same
          exact ⟨rfl, first, rest⟩
      | cons y before' =>
          obtain ⟨first, -⟩ := List.cons.inj same
          exact absurd (first ▸ inside' y List.mem_cons_self) outside
  | cons y before ih =>
      cases before' with
      | nil =>
          obtain ⟨first, -⟩ := List.cons.inj same
          exact absurd (first ▸ inside y List.mem_cons_self) outside'
      | cons y' before' =>
          obtain ⟨first, rest⟩ := List.cons.inj same
          obtain ⟨rfl, at', behind'⟩ := ih (fun z member =>
            inside z (List.mem_cons_of_mem _ member))
            (fun z member => inside' z (List.mem_cons_of_mem _ member)) rest
          exact ⟨by rw [first], at', behind'⟩

/-- The measurement told by the segments. -/
def measurement (opened : Nat) (settling : List (Nat × Nat)) (marking : Nat × Nat)
    (counted : List (Nat × Nat)) (last : Nat × Nat) : ThroughputMeasurement where
  byteRate := .finite (totalBytes counted) / .finite ((last.1 - marking.1 : Nat) / 1000000000)
  bytes := totalBytes counted
  window := last.1 - marking.1
  settle := marking.1 - opened
  settleBytes := totalBytes (settling ++ [marking])
  streamSampleRateHz := none

/-- The segments hold enough of a measurement. -/
structure Enough (window : Nat) (marking : Nat × Nat) (counted : List (Nat × Nat))
    (last : Nat × Nat) : Prop where
  bytes : 0 < totalBytes counted
  ends : counted.getLast? = some last
  half : window / 2 ≤ last.1 - marking.1
  after : marking.1 < last.1

theorem finish_iff {measured : ThroughputMeasurement} :
    meter.finish = some measured ↔ meter.closed = true ∧ meter.countedBytes ≠ 0 ∧
      ∃ mark last, meter.mark = some mark ∧ meter.last = some last ∧
        ¬ (last - mark = 0 ∨ last - mark < meter.window / 2) ∧
        { byteRate := .finite meter.countedBytes / .finite ((last - mark : Nat) / 1000000000)
          bytes := meter.countedBytes
          window := last - mark
          settle := mark - meter.opened
          settleBytes := meter.discardedBytes
          streamSampleRateHz := none } = measured := by
  rw [finish]
  constructor
  · intro finished
    split at finished
    · cases finished
    · rename_i some'
      rw [Bool.or_eq_true, not_or, beq_iff_eq, Bool.not_eq_true', Bool.not_eq_false] at some'
      obtain ⟨mark, marked, rest⟩ := Option.bind_eq_some_iff.mp finished
      obtain ⟨last, atLast, rest⟩ := Option.bind_eq_some_iff.mp rest
      obtain ⟨wide, same⟩ := Option.ite_none_left_eq_some.mp rest
      exact ⟨some'.1, some'.2, mark, last, marked, atLast, wide, Option.some.inj same⟩
  · rintro ⟨closed, some', mark, last, marked, atLast, wide, rfl⟩
    rw [closed, marked, atLast, beq_eq_false_iff_ne.mpr some']
    exact if_neg wide

theorem behind_finish {limited : Bool} {measured : ThroughputMeasurement} :
    (behind opened settle window settling marking counted true limited).finish = some measured ↔
      ∃ last, Enough window marking counted last ∧
        measured = measurement opened settling marking counted last := by
  rw [finish_iff]
  constructor
  · rintro ⟨-, some', mark, last, marked, atLast, wide, same⟩
    cases marked
    obtain ⟨ending, ends, rfl⟩ := Option.map_eq_some_iff.mp atLast
    have wide : ¬ (ending.1 - marking.1 = 0 ∨ ending.1 - marking.1 < window / 2) := wide
    refine ⟨ending, ⟨Nat.pos_of_ne_zero some', ends, ?_, ?_⟩, same.symm⟩
    · omega
    · omega
  · rintro ⟨last, enough, rfl⟩
    have half := enough.half
    have after := enough.after
    have wide : ¬ (last.1 - marking.1 = 0 ∨ last.1 - marking.1 < window / 2) := by omega
    refine ⟨rfl, Nat.ne_of_gt enough.bytes, marking.1, last.1, rfl, ?_, wide, rfl⟩
    rw [behind, enough.ends]
    rfl

theorem finish_open (running : meter.closed = false) : meter.finish = none := by
  rw [finish, running]
  rfl

/-- The observations have the segments of a closed window with enough of a measurement. -/
def Measures (opened settle window : Nat) (observations : List (Nat × Nat))
    (measured : ThroughputMeasurement) : Prop :=
  ∃ settling marking counted closing later last,
    observations = settling ++ marking :: counted ++ closing :: later ∧
      Window opened settle window settling marking counted ∧
      marking.1 + window ≤ closing.1 ∧ Enough window marking counted last ∧
      measured = measurement opened settling marking counted last

theorem Follows.finish (follows : Follows opened settle window observations meter)
    (measured : ThroughputMeasurement) :
    meter.finish = some measured ↔ Measures opened settle window observations measured := by
  cases follows with
  | settling early =>
      rw [finish_open rfl]
      refine iff_of_false (fun never => by cases never) ?_
      rintro ⟨settling, marking, counted, closing, later, last, rfl, inside, -⟩
      have soon := early marking (List.mem_append_left _ (List.mem_append_right _
        List.mem_cons_self))
      exact absurd inside.settled (Nat.not_le_of_lt soon)
  | @counting settling' marking' counted' limited inside' =>
      rw [finish_open rfl]
      refine iff_of_false (fun never => by cases never) ?_
      rintro ⟨settling, marking, counted, closing, later, last, same, inside, past, -⟩
      rw [List.append_assoc, List.cons_append] at same
      obtain ⟨-, rfl, rfl⟩ := cut_unique inside'.settling (Nat.not_lt_of_le inside'.settled)
        inside.settling (Nat.not_lt_of_le inside.settled) same
      have here := inside'.inside closing (List.mem_append_right _ List.mem_cons_self)
      omega
  | @closed settling' marking' closing' counted' later' limited inside' past' =>
      rw [behind_finish]
      constructor
      · rintro ⟨last, enough, same⟩
        exact ⟨settling', marking', counted', closing', later', last, rfl, inside', past', enough,
          same⟩
      · rintro ⟨settling, marking, counted, closing, later, last, same, inside, past, enough, told⟩
        rw [List.append_assoc, List.append_assoc, List.cons_append, List.cons_append] at same
        obtain ⟨rfl, rfl, rest⟩ := cut_unique inside'.settling
          (Nat.not_lt_of_le inside'.settled) inside.settling (Nat.not_lt_of_le inside.settled) same
        obtain ⟨rfl, -, -⟩ := cut_unique inside'.inside (Nat.not_lt_of_le past') inside.inside
          (Nat.not_lt_of_le past) rest
        exact ⟨last, enough, told⟩

theorem Follows.closes (follows : Follows opened settle window
      (settling ++ marking :: counted) meter)
    (inside : Window opened settle window settling marking counted) {instant : Nat}
    (past : marking.1 + window ≤ instant) (bytes : Nat) :
    (meter.observe instant bytes).closed = true := by
  generalize whole : settling ++ marking :: counted = observations at follows
  cases follows with
  | settling early =>
      have soon := early marking (whole ▸ List.mem_append_right _ List.mem_cons_self)
      exact absurd inside.settled (Nat.not_le_of_lt soon)
  | @counting settling' marking' counted' limited inside' =>
      obtain ⟨-, rfl, -⟩ := cut_unique inside.settling (Nat.not_lt_of_le inside.settled)
        inside'.settling (Nat.not_lt_of_le inside'.settled) whole
      rw [behind_observe inside' limited (Nat.le_of_add_right_le past), if_pos past]
      rfl
  | closed inside' past' =>
      rw [observe]
      rfl

/-- **The meter measures its window.**  It finishes exactly if an observation lies past the
window, some byte was counted and the last one counted lies in the window's second half;
the figures are those of the segments, and nothing changes them behind the closing one. -/
theorem throughputMeter_measures (opened settle window : Nat) (calls : List MeterCall)
    (ordered : calls.Pairwise fun earlier later => earlier.instant ≤ later.instant) :
    (∀ measured, ((startingAt opened settle window).callAll calls).finish = some measured ↔
      Measures opened settle window (MeterCall.observations calls) measured) ∧
    (∀ measured, ((startingAt opened settle window).callAll calls).finish = some measured →
      measured.window < window) ∧
    ∀ before instant bytes after settling marking counted,
      calls = before ++ .observe instant bytes :: after →
        MeterCall.observations before = settling ++ marking :: counted →
          Window opened settle window settling marking counted → marking.1 + window ≤ instant →
            (startingAt opened settle window).callAll calls =
              (startingAt opened settle window).callAll (before ++ [.observe instant bytes]) := by
  refine ⟨(callAll_follows opened settle window ordered).finish, ?_, ?_⟩
  · intro measured finished
    obtain ⟨settling, marking, counted, closing, later, last, -, inside, -, enough, rfl⟩ :=
      ((callAll_follows opened settle window ordered).finish measured).mp finished
    have within := inside.inside last (List.mem_of_getLast? enough.ends)
    have after := enough.after
    have shown : (measurement opened settling marking counted last).window =
        last.1 - marking.1 := rfl
    omega
  · intro before instant bytes after settling marking counted split made inside past
    rw [split] at ordered ⊢
    have follows := callAll_follows opened settle window (List.pairwise_append.mp ordered).1
    rw [made] at follows
    have closed := follows.closes inside past bytes
    rw [callAll, callAll, List.foldl_append, List.foldl_append]
    exact callAll_closed closed after

/-- Observations that settle, mark, count, close and come late. -/
def meteredCalls : List MeterCall :=
  [.observe 1 5, .noteConsumerLimited 2, .observe 3 7, .observe 4 11, .observe 6 13,
    .observe 8 17, .noteConsumerLimited 8, .observe 9 19]

theorem throughputMeter_measures_calls :
    ((startingAt 0 2 5).callAll meteredCalls).finish =
      some (measurement 0 [(1, 5)] (3, 7) [(4, 11), (6, 13)] (6, 13)) := by
  refine ((throughputMeter_measures 0 2 5 meteredCalls ?_).1 _).mpr ?_
  · decide
  · refine ⟨[(1, 5)], (3, 7), [(4, 11), (6, 13)], (8, 17), [(9, 19)], (6, 13), rfl, ?_, ?_, ?_, rfl⟩
    · exact ⟨by decide, by decide, by decide⟩
    · decide
    · exact ⟨by decide, rfl, by decide, by decide⟩

/-- Past the largest word the count is not the sum any more; the half of an odd window is
rounded down; and without a settle period an observation ahead of the opening marks. -/
theorem throughputMeter_saturates :
    (¬ ∀ (opened settle window : Nat) (calls : List MeterCall),
      (calls.Pairwise fun earlier later => earlier.instant ≤ later.instant) →
        ∀ measured, ((startingAt opened settle window).callAll calls).finish = some measured →
          ∀ settling marking counted closing later,
            MeterCall.observations calls = settling ++ marking :: counted ++ closing :: later →
              Window opened settle window settling marking counted →
                marking.1 + window ≤ closing.1 →
                  measured.bytes = (counted.map Prod.snd).sum) ∧
    (∃ measured, ((startingAt 0 0 5).callAll [.observe 0 0, .observe 2 1, .observe 5 0]).finish =
      some measured ∧ 2 * measured.window < 5) ∧
    (∀ observation ∈ MeterCall.observations [.observe 0 0, .observe 3 1, .observe 4 0],
      observation.1 < 10) ∧
    ((startingAt 10 0 4).callAll
      [.observe 0 0, .observe 3 1, .observe 4 0]).finish.isSome = true := by
  refine ⟨fun exact => ?_, ⟨measurement 0 [] (0, 0) [(2, 1)] (2, 1), ?_, ?_⟩, ?_, ?_⟩
  · have total := exact 0 0 4
      [.observe 0 0, .observe 1 (2 ^ 64 - 1), .observe 3 1, .observe 4 0] (by decide)
      (measurement 0 [] (0, 0) [(1, 2 ^ 64 - 1), (3, 1)] (3, 1)) (by decide +kernel)
      [] (0, 0) [(1, 2 ^ 64 - 1), (3, 1)] (4, 0) [] rfl
      ⟨by decide, by decide, by decide⟩ (by decide)
    revert total
    decide +kernel
  · decide +kernel
  · decide
  · decide
  · decide +kernel

end ThroughputMeter

end SdrAaronia
