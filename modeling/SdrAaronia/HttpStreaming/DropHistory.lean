import Mathlib.Algebra.BigOperators.Group.List.Basic
import Mathlib.Data.List.Induction
import Mathlib.Tactic.Ring
import SdrAaronia.HttpStreaming.DropDetector

/-! # Histories of drop detection

What a detector reports and learns over any calls, with timestamps as exact rationals.
The tolerance grows with the residuals that it lets pass, but never to a whole packet.
-/

namespace SdrAaronia.HttpStreaming

/-- A packet whose timestamps are finite. -/
structure TimedPacket where
  metadata : PacketMetadata
  start : ℚ
  stop : ℚ
  startTime_eq : metadata.startTime = .finite start
  endTime_eq : metadata.endTime = .finite stop

/-- The packet's duration, if it is positive. -/
def TimedPacket.duration (packet : TimedPacket) : Option ℚ :=
  if 0 < packet.stop - packet.start then some (packet.stop - packet.start) else none

inductive DropCall where
  | observe (packet : TimedPacket)
  | resync

/-- What the calls so far have shown. -/
structure DropJournal where
  /-- The packet observed last, unless the detector has resynchronised since. -/
  last : Option TimedPacket := none
  /-- How far packets taken for contiguous were from the end of the packet before. -/
  accepted : List ℚ := []
  /-- The gaps reported as drops. -/
  reported : List ℚ := []

namespace DropJournal

/-- From the end of the packet before to the start of this one. -/
def residual (journal : DropJournal) (packet : TimedPacket) : Option ℚ :=
  journal.last.map fun last => packet.start - last.stop

/-- The shorter of the durations that this packet and the one before have. -/
def shorter (journal : DropJournal) (packet : TimedPacket) : Option ℚ :=
  match journal.last.bind TimedPacket.duration, packet.duration with
  | some a, some b => some (min a b)
  | a, b => a.or b

/-- The largest residual accepted so far. -/
def largestAccepted (journal : DropJournal) : ℚ := journal.accepted.foldr max 0

def note (journal : DropJournal) (packet : TimedPacket) : DropResult → DropJournal
  | .continuous =>
      { journal with
        last := some packet
        accepted := ((journal.residual packet).map abs).toList ++ journal.accepted }
  | .drop (.finite gap) =>
      { journal with last := some packet, reported := gap :: journal.reported }
  | .drop _ | .backward _ => { journal with last := some packet }

end DropJournal

def DropCall.apply : DropCall → DropDetector × DropJournal → DropDetector × DropJournal
  | .observe packet, (d, journal) =>
      let (d', result) := d.observe packet.metadata
      (d', journal.note packet result)
  | .resync, (d, journal) => (d.resync, { journal with last := none })

/-- A new detector with this cap after these calls. -/
def dropHistory (cap : ℚ) (calls : List DropCall) : DropDetector × DropJournal :=
  calls.foldl (fun state call => call.apply state) (.new (.finite cap), {})

/-! ## The tolerance -/

/-- The tolerance of `toleranceFor` over exact rationals. -/
def toleratedGap (cap jitter : ℚ) : Option ℚ → ℚ
  | none => cap
  | some shortest =>
      min (max (max (min (4 * jitter) (3 / 4 * shortest)) (1 / 2 * shortest)) (4 / 1000000)) cap

/-- Short of the resolution the tolerance never reaches a whole packet. -/
theorem toleratedGap_lt (cap jitter : ℚ) {shortest : ℚ} (long : 4 / 1000000 < shortest) :
    toleratedGap cap jitter (some shortest) < shortest := by
  have ceiling : min (4 * jitter) (3 / 4 * shortest) < shortest :=
    (min_le_right _ _).trans_lt (by linarith)
  have half : 1 / 2 * shortest < shortest := by linarith
  exact (min_le_left _ _).trans_lt (max_lt (max_lt ceiling half) long)

theorem le_toleratedGap (cap jitter shortest : ℚ) :
    min cap (shortest / 2) ≤ toleratedGap cap jitter (some shortest) := by
  refine le_min ?_ (min_le_left _ _)
  have half : shortest / 2 = 1 / 2 * shortest := by ring
  calc min cap (shortest / 2) ≤ 1 / 2 * shortest := half ▸ min_le_right _ _
    _ ≤ max (min (4 * jitter) (3 / 4 * shortest)) (1 / 2 * shortest) := le_max_right _ _
    _ ≤ _ := le_max_left _ _

theorem toleratedGap_nonneg {cap : ℚ} (allowed : 0 ≤ cap) (jitter : ℚ) (shortest : Option ℚ) :
    0 ≤ toleratedGap cap jitter shortest := by
  cases shortest with
  | none => exact allowed
  | some shortest =>
      have floor : (0 : ℚ) ≤ 4 / 1000000 := by norm_num
      exact le_min (floor.trans (le_max_right _ _)) allowed

/-! ## What the detector keeps of its history -/

/-- The detector's state, told from the journal. -/
structure DropDetector.Calibrated (cap : ℚ) (d : DropDetector) (journal : DropJournal) : Prop where
  tolerance : d.tolerance = .finite cap
  lastEndTime : d.lastEndTime = journal.last.map fun last => .finite last.stop
  lastDuration : d.lastDuration = (journal.last.bind TimedPacket.duration).map .finite
  jitter : ∃ jitter, d.jitter = .finite jitter ∧ 0 ≤ jitter ∧ jitter ≤ journal.largestAccepted
  cumulativeGap : d.cumulativeGap = .finite journal.reported.sum

namespace DropDetector

theorem durationOf_timed (packet : TimedPacket) :
    durationOf packet.metadata = packet.duration.map .finite := by
  rw [durationOf, packet.startTime_eq, packet.endTime_eq, TimedPacket.duration]
  simp only [F64.finite_sub, F64.finite_isFinite, Bool.true_and, F64.zero_eq, F64.finite_lt,
    decide_eq_true_eq]
  split <;> rfl

variable {cap : ℚ} {d : DropDetector} {journal : DropJournal}

theorem Calibrated.toleranceFor (calibrated : d.Calibrated cap journal) (packet : TimedPacket)
    {jitter : ℚ} (learned : d.jitter = .finite jitter) :
    d.toleranceFor (durationOf packet.metadata) =
      .finite (toleratedGap cap jitter (journal.shorter packet)) := by
  unfold DropDetector.toleranceFor DropJournal.shorter
  rw [calibrated.lastDuration, durationOf_timed, calibrated.tolerance, learned]
  have scaled : ∀ shortest : ℚ,
      ((((jitterMargin * .finite jitter).min (packetCeiling * .finite shortest)).max
        (packetFraction * .finite shortest)).max resolutionFloor).min (.finite cap) =
      .finite (toleratedGap cap jitter (some shortest)) := by
    intro shortest
    simp only [toleratedGap, jitterMargin, packetCeiling, packetFraction, resolutionFloor,
      F64.finite_mul, F64.finite_min, F64.finite_max]
  cases journal.last.bind TimedPacket.duration with
  | none =>
      cases packet.duration with
      | none => rfl
      | some duration => exact scaled duration
  | some before =>
      cases packet.duration with
      | none => exact scaled before
      | some duration =>
          simp only [Option.map_some, F64.finite_min]
          exact scaled (min before duration)

/-- The detector once it has taken note of this packet's times. -/
def noted (d : DropDetector) (packet : TimedPacket) : DropDetector :=
  { d with
    lastEndTime := some (.finite packet.stop)
    lastDuration := packet.duration.map .finite }

theorem Calibrated.observe_first (calibrated : d.Calibrated cap journal) {packet : TimedPacket}
    (first : journal.last = none) :
    d.observe packet.metadata = (d.noted packet, .continuous) := by
  rw [observe, calibrated.lastEndTime, first, durationOf_timed, packet.endTime_eq]
  rfl

theorem Calibrated.observe_next (calibrated : d.Calibrated cap journal) (packet : TimedPacket)
    {last : TimedPacket} (behind : journal.last = some last) {jitter : ℚ}
    (learned : d.jitter = .finite jitter) :
    let gap := packet.start - last.stop
    let tolerance := toleratedGap cap jitter (journal.shorter packet)
    (tolerance < gap ∧ d.observe packet.metadata =
      (noted { d with
        drops := d.drops + 1
        cumulativeGap := .finite (journal.reported.sum + gap) } packet, .drop (.finite gap))) ∨
    (gap ≤ tolerance ∧ tolerance < -gap ∧ d.observe packet.metadata =
      (noted { d with backwardSteps := d.backwardSteps + 1 } packet, .backward (.finite (-gap)))) ∨
    (|gap| ≤ tolerance ∧ d.observe packet.metadata =
      (noted { d with jitter := .finite (max (jitter * (999 / 1000)) |gap|) } packet,
        .continuous)) := by
  intro gap tolerance
  have scaled : d.toleranceFor (packet.duration.map .finite) = .finite tolerance :=
    durationOf_timed packet ▸ calibrated.toleranceFor packet learned
  rw [observe, calibrated.lastEndTime, behind, durationOf_timed, packet.startTime_eq,
    packet.endTime_eq, calibrated.cumulativeGap, learned]
  simp only [Option.map_some, scaled, F64.finite_sub, F64.finite_neg, F64.finite_lt, jitterDecay,
    F64.finite_mul, F64.finite_abs, F64.finite_max, F64.finite_add]
  by_cases forward : tolerance < gap
  · exact Or.inl ⟨forward, if_pos forward⟩
  · by_cases back : tolerance < -gap
    · exact Or.inr (Or.inl ⟨not_lt.mp forward, back, (if_neg forward).trans (if_pos back)⟩)
    · have near : |gap| ≤ tolerance := abs_le.mpr ⟨by linarith, by linarith⟩
      exact Or.inr (Or.inr ⟨near, (if_neg forward).trans (if_neg back)⟩)

theorem Calibrated.apply (calibrated : d.Calibrated cap journal) (call : DropCall) :
    (call.apply (d, journal)).1.Calibrated cap (call.apply (d, journal)).2 := by
  cases call with
  | resync =>
      exact ⟨calibrated.tolerance, rfl, rfl, calibrated.jitter, calibrated.cumulativeGap⟩
  | observe packet =>
      obtain ⟨jitter, learned, nonneg, bounded⟩ := calibrated.jitter
      rw [DropCall.apply]
      cases before : journal.last with
      | none =>
          rw [calibrated.observe_first before]
          have same : (journal.note packet .continuous).largestAccepted =
              journal.largestAccepted := by
            rw [DropJournal.note, DropJournal.residual, before]
            rfl
          exact ⟨calibrated.tolerance, rfl, rfl, ⟨jitter, learned, nonneg, same ▸ bounded⟩,
            calibrated.cumulativeGap⟩
      | some last =>
          rcases calibrated.observe_next packet before learned with
            ⟨-, observed⟩ | ⟨-, -, observed⟩ | ⟨-, observed⟩
          · rw [observed]
            refine ⟨calibrated.tolerance, rfl, rfl, ⟨jitter, learned, nonneg, bounded⟩, ?_⟩
            exact congrArg F64.finite (add_comm _ _)
          · rw [observed]
            exact ⟨calibrated.tolerance, rfl, rfl, ⟨jitter, learned, nonneg, bounded⟩,
              calibrated.cumulativeGap⟩
          · rw [observed]
            refine ⟨calibrated.tolerance, rfl, rfl, ⟨_, rfl, ?_, ?_⟩, calibrated.cumulativeGap⟩
            · exact (abs_nonneg _).trans (le_max_right _ _)
            · have decayed : jitter * (999 / 1000) ≤ journal.largestAccepted := by linarith
              simp only [DropJournal.note, DropJournal.residual, before, Option.map_some,
                Option.toList_some, List.singleton_append, DropJournal.largestAccepted,
                List.foldr_cons]
              rw [max_comm]
              exact max_le_max_left _ decayed

end DropDetector

theorem dropHistory_append (cap : ℚ) (calls : List DropCall) (call : DropCall) :
    dropHistory cap (calls ++ [call]) = call.apply (dropHistory cap calls) :=
  List.foldl_concat ..

theorem calibrated_dropHistory (cap : ℚ) (calls : List DropCall) :
    (dropHistory cap calls).1.Calibrated cap (dropHistory cap calls).2 := by
  induction calls using List.reverseRecOn with
  | nil => exact ⟨rfl, rfl, rfl, ⟨0, rfl, le_refl 0, le_refl 0⟩, rfl⟩
  | append_singleton calls call ih =>
      rw [dropHistory_append]
      exact ih.apply call

namespace DropDetector

variable {cap : ℚ} {d : DropDetector} {journal : DropJournal}

/-- A packet that starts a whole packet late is reported, whatever was learned. -/
theorem Calibrated.observe_lost (calibrated : d.Calibrated cap journal) {packet : TimedPacket}
    {gap shortest : ℚ} (follows : journal.residual packet = some gap)
    (paced : journal.shorter packet = some shortest) (late : shortest ≤ gap)
    (long : 4 / 1000000 < shortest) :
    (d.observe packet.metadata).2 = .drop (.finite gap) := by
  obtain ⟨last, before, rfl⟩ := Option.map_eq_some_iff.mp follows
  obtain ⟨jitter, learned, -, -⟩ := calibrated.jitter
  have below := toleratedGap_lt cap jitter long
  have cases := calibrated.observe_next packet before learned
  simp only [paced] at cases
  rcases cases with ⟨-, observed⟩ | ⟨early, -, -⟩ | ⟨near, -⟩
  · rw [observed]
  · linarith
  · have := (le_abs_self _).trans near
    linarith

/-- A packet that is off by less than half a packet and the cap is not. -/
theorem Calibrated.observe_wobble (calibrated : d.Calibrated cap journal) {packet : TimedPacket}
    {gap shortest : ℚ} (follows : journal.residual packet = some gap)
    (paced : journal.shorter packet = some shortest) (small : |gap| ≤ min cap (shortest / 2)) :
    (d.observe packet.metadata).2 = .continuous := by
  obtain ⟨last, before, rfl⟩ := Option.map_eq_some_iff.mp follows
  obtain ⟨jitter, learned, -, -⟩ := calibrated.jitter
  have within := small.trans (le_toleratedGap cap jitter shortest)
  obtain ⟨back, forward⟩ := abs_le.mp within
  have cases := calibrated.observe_next packet before learned
  simp only [paced] at cases
  rcases cases with ⟨beyond, -⟩ | ⟨-, beyond, -⟩ | ⟨-, observed⟩
  · linarith
  · linarith
  · rw [observed]

/-- No call takes a count back, and with a cap that is not negative none takes gap time back. -/
theorem Calibrated.apply_monotone (calibrated : d.Calibrated cap journal) (call : DropCall) :
    d.drops ≤ (call.apply (d, journal)).1.drops ∧
    d.backwardSteps ≤ (call.apply (d, journal)).1.backwardSteps ∧
    (0 ≤ cap → d.cumulativeGap ≤ (call.apply (d, journal)).1.cumulativeGap) := by
  have same : d.cumulativeGap ≤ d.cumulativeGap := by
    rw [calibrated.cumulativeGap]
    exact (F64.finite_le _ _).mpr (le_refl _)
  cases call with
  | resync => exact ⟨le_refl _, le_refl _, fun _ => same⟩
  | observe packet =>
      obtain ⟨jitter, learned, -, -⟩ := calibrated.jitter
      rw [DropCall.apply]
      cases before : journal.last with
      | none =>
          rw [calibrated.observe_first before]
          exact ⟨le_refl _, le_refl _, fun _ => same⟩
      | some last =>
          rcases calibrated.observe_next packet before learned with
            ⟨beyond, observed⟩ | ⟨-, -, observed⟩ | ⟨-, observed⟩
          · rw [observed]
            refine ⟨Nat.le_succ _, le_refl _, fun allowed => ?_⟩
            have nonneg := toleratedGap_nonneg allowed jitter (journal.shorter packet)
            rw [calibrated.cumulativeGap]
            exact (F64.finite_le _ _).mpr (by linarith)
          · rw [observed]
            exact ⟨le_refl _, Nat.le_succ _, fun _ => same⟩
          · rw [observed]
            exact ⟨le_refl _, le_refl _, fun _ => same⟩

end DropDetector

/-! ## The detector over any history -/

/-- **Lost packets are seen, wobble is not.**  After any calls a packet that starts at least
a whole packet late is reported with its gap, and one that is off by no more than half a
packet and the cap is contiguous.  What is learned from wobble stays below the largest
residual accepted; the counts never go back, and the gap time is the sum of the gaps
reported, which never goes back either unless the cap is negative. -/
theorem dropHistory_exact (cap : ℚ) (calls : List DropCall) :
    let d := (dropHistory cap calls).1
    let journal := (dropHistory cap calls).2
    (∀ packet gap shortest, journal.residual packet = some gap →
      journal.shorter packet = some shortest →
        (shortest ≤ gap → DropDetector.resolutionFloor < .finite shortest →
          (d.observe packet.metadata).2 = .drop (.finite gap)) ∧
        (|gap| ≤ min cap (shortest / 2) → (d.observe packet.metadata).2 = .continuous)) ∧
    (∃ jitter, d.jitter = .finite jitter ∧ jitter ≤ journal.largestAccepted) ∧
    d.cumulativeGap = .finite journal.reported.sum ∧
    ∀ call, d.drops ≤ (dropHistory cap (calls ++ [call])).1.drops ∧
      d.backwardSteps ≤ (dropHistory cap (calls ++ [call])).1.backwardSteps ∧
      (0 ≤ cap → d.cumulativeGap ≤ (dropHistory cap (calls ++ [call])).1.cumulativeGap) := by
  intro d journal
  have calibrated : d.Calibrated cap journal := calibrated_dropHistory cap calls
  refine ⟨fun packet gap shortest follows paced => ⟨fun late long => ?_, fun small => ?_⟩, ?_,
    calibrated.cumulativeGap, fun call => ?_⟩
  · exact calibrated.observe_lost follows paced late ((F64.finite_lt _ _).mp long)
  · exact calibrated.observe_wobble follows paced small
  · obtain ⟨jitter, learned, -, bounded⟩ := calibrated.jitter
    exact ⟨jitter, learned, bounded⟩
  · rw [dropHistory_append]
    exact calibrated.apply_monotone call

/-- An IQ packet with these times. -/
def TimedPacket.spanning (start stop : ℚ) : TimedPacket where
  metadata :=
    { startTime := .finite start
      endTime := .finite stop
      startFrequency := .finite 99500000
      endFrequency := .finite 100500000
      samples := 16384
      payload := .iq
      sampleSize := 2 }
  start := start
  stop := stop
  startTime_eq := rfl
  endTime_eq := rfl

theorem dropHistory_exact_lost :
    let before : List DropCall := [.observe (.spanning 0 (1 / 10))]
    ((dropHistory (1 / 1000) before).1.observe
      (TimedPacket.spanning (2 / 10) (3 / 10)).metadata).2 = .drop (.finite (1 / 10)) ∧
    (dropHistory (1 / 1000) before).1.cumulativeGap ≤
      (dropHistory (1 / 1000) (before ++ [.resync])).1.cumulativeGap := by
  intro before
  obtain ⟨observes, -, -, grows⟩ :=
    dropHistory_exact (1 / 1000) before
  have reported := (observes (.spanning (2 / 10) (3 / 10)) (1 / 10) (1 / 10) (by decide +kernel)
    (by decide +kernel)).1 (le_refl _) (by decide +kernel)
  exact ⟨reported, (grows .resync).2.2 (by norm_num)⟩

/-- With a negative cap a packet that starts early is a drop, and takes gap time back. -/
theorem dropHistory_negativeCap :
    ¬ ∀ (cap : ℚ) (calls : List DropCall) (call : DropCall),
      (dropHistory cap calls).1.cumulativeGap ≤
        (dropHistory cap (calls ++ [call])).1.cumulativeGap := by
  intro grows
  have early := grows (-1) [.observe (.spanning 0 1)] (.observe (.spanning (1 / 2) (3 / 2)))
  revert early
  decide +kernel

end SdrAaronia.HttpStreaming
