import SdrAaronia.HttpSource.State
import SdrAaronia.Lib.Registers

/-! # The statistics shared with a consumer

One record behind a lock, written by the consumer, by the block and by any number
of detached health probes.  Each step below is what one holder of the lock does.
-/

namespace SdrAaronia

open HttpStreaming

/-- The format captured in unless the caller names another. -/
def HttpStreaming.StreamFormat.captureDefault : StreamFormat := .int16

/-- What a throughput measurement saw; durations are in nanoseconds. -/
structure ThroughputMeasurement where
  byteRate : F64
  bytes : Nat
  window : Nat
  settle : Nat
  settleBytes : Nat
  streamSampleRateHz : Option F64
  deriving DecidableEq, Repr

structure LinkBudgetVerdict where
  sampleRateHz : F64
  format : StreamFormat
  bytesPerSample : Nat
  requiredByteRate : F64
  measured : ThroughputMeasurement
  short : Bool
  fitSampleRateHz : Option F64
  fitBandwidthHz : Option F64
  deriving DecidableEq, Repr

/-- The link-budget check's lifecycle, less the running meter. -/
inductive LinkCheck where
  | unmeasured
  | measuring
  | done (verdict : Option LinkBudgetVerdict)
  deriving DecidableEq, Repr

/-- One device block's own loss counters. -/
structure DeviceHealthSummary where
  block : String
  deviceState : Option String
  errorsPerSecond : Option F64
  usbOverflowsPerSecond : Option F64
  dspOverflowsPerSecond : Option F64
  deriving DecidableEq, Repr

structure StreamStats where
  active : Bool
  format : StreamFormat
  currentFrequency : F64
  currentSampleRate : F64
  bufferLevel : Nat
  bufferCapacity : Nat
  inputName : Option String
  inputMsps : F64
  droppedPackets : Nat
  packetRate : F64
  restartPending : Bool
  linkBudget : Option LinkBudgetVerdict
  deviceHealth : Option (List DeviceHealthSummary)
  /-- The drop count at the report whose probe took `deviceHealth`. -/
  deviceHealthDrops : Nat
  nonIqPacketsSkipped : Nat
  packetsLostToParseErrors : Nat
  deriving DecidableEq, Repr

namespace HttpSource

/-- What the block's snapshot reads beyond the modelled block: its connection, its
check and the parser's rates at that moment. -/
structure Monitored where
  streamActive : Bool
  inputName : Option String
  linkCheck : LinkCheck
  samplesPerSecond : F64
  packetRate : F64
  deriving DecidableEq, Repr

variable {Sample : Type}

/-- The block's own snapshot. -/
def getStreamStats (s : HttpSource Sample) (m : Monitored) : StreamStats where
  active := m.streamActive
  format := s.streamFormat
  currentFrequency := s.currentFrequency
  currentSampleRate := s.currentSampleRate
  bufferLevel := s.sampleBuffer.length
  bufferCapacity := s.bufferCapacity
  inputName := m.inputName
  inputMsps := m.samplesPerSecond / 1000000
  droppedPackets := s.dropDetector.drops
  packetRate := m.packetRate
  restartPending := false
  linkBudget :=
    match m.linkCheck with
    | .done verdict => verdict
    | _ => none
  deviceHealth := none
  deviceHealthDrops := 0
  nonIqPacketsSkipped := s.nonIqPacketsSkipped
  packetsLostToParseErrors := s.packetsLostToParseErrors

end HttpSource

namespace StreamStats

def default : StreamStats where
  active := false
  format := .captureDefault
  currentFrequency := 0
  currentSampleRate := 0
  bufferLevel := 0
  bufferCapacity := 0
  inputName := none
  inputMsps := 0
  droppedPackets := 0
  packetRate := 0
  restartPending := false
  linkBudget := none
  deviceHealth := none
  deviceHealthDrops := 0
  nonIqPacketsSkipped := 0
  packetsLostToParseErrors := 0

/-- A consumer asks for a restart. -/
def requestRestart (stats : StreamStats) : StreamStats :=
  { stats with restartPending := true }

/-- The restart poll of `work`: whether a restart is triggered, and the record after. -/
def restartPoll (stats : StreamStats) : Bool × StreamStats :=
  if stats.restartPending then (true, { stats with restartPending := false }) else (false, stats)

/-- The refresh on every processed chunk: the whole snapshot, less what others wrote. -/
def refresh (stats snapshot : StreamStats) : StreamStats :=
  { snapshot with
    restartPending := stats.restartPending
    deviceHealth := stats.deviceHealth
    deviceHealthDrops := stats.deviceHealthDrops }

def publishLinkBudget (stats : StreamStats) (verdict : LinkBudgetVerdict) : StreamStats :=
  { stats with linkBudget := some verdict }

/-- What a probe fired at `drops` leaves; a reading that failed leaves nothing. -/
def finishProbe (stats : StreamStats) (drops : Nat)
    (answer : Except String (List DeviceHealthSummary)) : StreamStats :=
  match answer with
  | .error _ => stats
  | .ok blocks =>
      if stats.deviceHealthDrops ≤ drops then
        { stats with deviceHealth := some blocks, deviceHealthDrops := drops }
      else stats

end StreamStats

/-! ## Interleavings -/

namespace SharedStats

/-- One holder of the lock, or a probe set off. -/
inductive Act (Sample : Type) where
  | request
  | poll
  | refresh (block : HttpSource Sample) (monitored : HttpSource.Monitored)
  | publishLinkBudget (verdict : LinkBudgetVerdict)
  | spawnProbe (drops : Nat)
  | finishProbe (drops : Nat) (answer : Except String (List DeviceHealthSummary))

variable {Sample : Type}

namespace Act

def requests : Act Sample → Bool
  | .request => true
  | _ => false

def polls : Act Sample → Bool
  | .poll => true
  | _ => false

/-- The reading a probe completed with, under its drop count. -/
def completes : Act Sample → Option (Nat × List DeviceHealthSummary)
  | .finishProbe drops (.ok blocks) => some (drops, blocks)
  | _ => none

theorem requests_iff {act : Act Sample} : act.requests = true ↔ act = .request := by
  cases act <;> simp [requests]

theorem polls_iff {act : Act Sample} : act.polls = true ↔ act = .poll := by
  cases act <;> simp [polls]

end Act

/-- The shared record and the drop counts of the probes in flight. -/
structure Shared where
  stats : StreamStats
  probes : List Nat
  deriving DecidableEq, Repr

namespace Shared

def initial : Shared where
  stats := .default
  probes := []

/-- One step; only a probe in flight can finish. -/
def step (s : Shared) : Act Sample → Option Shared
  | .request => some { s with stats := s.stats.requestRestart }
  | .poll => some { s with stats := s.stats.restartPoll.2 }
  | .refresh block monitored =>
      some { s with stats := s.stats.refresh (block.getStreamStats monitored) }
  | .publishLinkBudget verdict => some { s with stats := s.stats.publishLinkBudget verdict }
  | .spawnProbe drops => some { s with probes := drops :: s.probes }
  | .finishProbe drops answer =>
      if drops ∈ s.probes then
        some { stats := s.stats.finishProbe drops answer, probes := s.probes.erase drops }
      else none

def run (s : Shared) (acts : List (Act Sample)) : Option Shared := acts.foldlM step s

/-- The readings of the probes completed so far. -/
def completed (acts : List (Act Sample)) : List (Nat × List DeviceHealthSummary) :=
  acts.filterMap Act.completes

theorem completed_snoc (acts : List (Act Sample)) (act : Act Sample) :
    completed (acts ++ [act]) = completed acts ++ act.completes.toList := by
  rw [completed, List.filterMap_append]
  cases ended : act.completes with
  | none | some => simp only [completed, List.filterMap_cons, List.filterMap_nil, ended,
      Option.toList]

theorem run_append (s : Shared) (acts rest : List (Act Sample)) :
    s.run (acts ++ rest) = (s.run acts).bind fun s => s.run rest :=
  List.foldlM_append

theorem run_snoc (s : Shared) (acts : List (Act Sample)) (act : Act Sample) :
    s.run (acts ++ [act]) = (s.run acts).bind fun s => s.step act := by
  rw [run_append]
  congr 1
  funext s
  exact bind_pure (s.step act)

/-! ## One step -/

/-- The pending flag is a latch the consumer sets and the poll takes. -/
theorem step_restartPending {s s' : Shared} {act : Act Sample} (stepped : s.step act = some s') :
    s'.stats.restartPending =
      Registers.latchStep Act.requests Act.polls s.stats.restartPending act := by
  cases act with
  | request | refresh | publishLinkBudget | spawnProbe =>
      cases stepped
      rfl
  | poll =>
      cases stepped
      cases pending : s.stats.restartPending with
      | true | false =>
          simp [StreamStats.restartPoll, pending, Registers.latchStep, Act.requests, Act.polls]
  | finishProbe drops answer =>
      obtain ⟨-, same⟩ := Option.ite_none_right_eq_some.mp stepped
      cases same
      cases answer with
      | error _ => rfl
      | ok blocks =>
          simp only [StreamStats.finishProbe]
          split <;> rfl

/-- The health held and its drop count are those of the register; zero stands with no reading. -/
def Reads (stats : StreamStats) : Option (Nat × List DeviceHealthSummary) → Prop
  | none => stats.deviceHealth = none ∧ stats.deviceHealthDrops = 0
  | some held => stats.deviceHealth = some held.2 ∧ stats.deviceHealthDrops = held.1

/-- Only a probe that completes changes the health held, unless its drop count is smaller. -/
theorem step_health {s s' : Shared} {act : Act Sample} (stepped : s.step act = some s') :
    (act.completes = none ∧ s'.stats.deviceHealth = s.stats.deviceHealth ∧
        s'.stats.deviceHealthDrops = s.stats.deviceHealthDrops) ∨
      ∃ drops blocks, act.completes = some (drops, blocks) ∧
        s'.stats = s.stats.finishProbe drops (.ok blocks) := by
  cases act with
  | request | refresh | publishLinkBudget | spawnProbe =>
      cases stepped
      exact .inl ⟨rfl, rfl, rfl⟩
  | poll =>
      cases stepped
      refine .inl ⟨rfl, ?_⟩
      simp only [StreamStats.restartPoll]
      split <;> exact ⟨rfl, rfl⟩
  | finishProbe drops answer =>
      obtain ⟨-, same⟩ := Option.ite_none_right_eq_some.mp stepped
      cases same
      cases answer with
      | error _ => exact .inl ⟨rfl, rfl, rfl⟩
      | ok blocks => exact .inr ⟨drops, blocks, rfl, rfl⟩

theorem step_reads {s s' : Shared} {act : Act Sample} (stepped : s.step act = some s')
    {held : Option (Nat × List DeviceHealthSummary)} (reads : Reads s.stats held) :
    Reads s'.stats ((act.completes.toList).foldl Registers.keepLargest held) := by
  rcases step_health stepped with ⟨quiet, health, drops⟩ | ⟨drops, blocks, completed, finished⟩
  · have same : ∀ kept, Reads s.stats kept → Reads s'.stats kept := by
      intro kept
      cases kept with
      | none | some => simp only [Reads, health, drops, imp_self]
    rw [quiet]
    exact same held reads
  · rw [completed, finished]
    simp only [StreamStats.finishProbe]
    cases held with
    | none =>
        rw [if_pos (reads.2 ▸ Nat.zero_le drops)]
        exact ⟨rfl, rfl⟩
    | some old =>
        simp only [Option.toList, List.foldl, Registers.keepLargest, reads.2]
        split
        · exact ⟨rfl, rfl⟩
        · exact reads

theorem step_drops {s s' : Shared} {act : Act Sample} (stepped : s.step act = some s') :
    s.stats.deviceHealthDrops ≤ s'.stats.deviceHealthDrops := by
  rcases step_health stepped with ⟨-, -, same⟩ | ⟨drops, blocks, -, finished⟩
  · exact same.ge
  · rw [finished, StreamStats.finishProbe]
    split
    · assumption
    · exact le_refl _

/-! ## Runs -/

theorem run_restartPending {acts : List (Act Sample)} {s : Shared}
    (ran : initial.run acts = some s) :
    s.stats.restartPending = Registers.latch Act.requests Act.polls acts := by
  induction acts using List.reverseRecOn generalizing s with
  | nil =>
      cases ran
      rfl
  | append_singleton acts act ih =>
      rw [run_snoc] at ran
      obtain ⟨previous, before, stepped⟩ := Option.bind_eq_some_iff.mp ran
      rw [Registers.latch_snoc, ← ih before]
      exact step_restartPending stepped

theorem run_reads {acts : List (Act Sample)} {s : Shared} (ran : initial.run acts = some s) :
    Reads s.stats (Registers.largest (completed acts)) := by
  induction acts using List.reverseRecOn generalizing s with
  | nil =>
      cases ran
      exact ⟨rfl, rfl⟩
  | append_singleton acts act ih =>
      rw [run_snoc] at ran
      obtain ⟨previous, before, stepped⟩ := Option.bind_eq_some_iff.mp ran
      rw [completed_snoc, Registers.largest, List.foldl_append]
      exact step_reads stepped (ih before)

theorem run_drops {acts : List (Act Sample)} {s s' : Shared} (ran : s.run acts = some s') :
    s.stats.deviceHealthDrops ≤ s'.stats.deviceHealthDrops := by
  induction acts using List.reverseRecOn generalizing s' with
  | nil =>
      cases ran
      exact le_refl _
  | append_singleton acts act ih =>
      rw [run_snoc] at ran
      obtain ⟨previous, before, stepped⟩ := Option.bind_eq_some_iff.mp ran
      exact le_trans (ih before) (step_drops stepped)

/-- The next poll is triggered exactly when a restart was requested and not polled since. -/
theorem polled_iff {acts : List (Act Sample)} {s : Shared} (ran : initial.run acts = some s) :
    s.stats.restartPoll.1 = true ↔
      ∃ earlier since, acts = earlier ++ .request :: since ∧ Act.poll ∉ since := by
  have triggered : s.stats.restartPoll.1 = s.stats.restartPending := by
    cases pending : s.stats.restartPending with
    | true | false => simp [StreamStats.restartPoll, pending]
  rw [triggered, run_restartPending ran, Registers.latch_iff]
  constructor
  · rintro ⟨earlier, act, since, split, requested, kept⟩
    cases Act.requests_iff.mp requested
    exact ⟨earlier, since, split, fun member => Bool.noConfusion (kept .poll member)⟩
  · rintro ⟨earlier, since, split, kept⟩
    refine ⟨earlier, .request, since, split, rfl, fun later member => ?_⟩
    cases polled : later.polls with
    | false => rfl
    | true => exact absurd (Act.polls_iff.mp polled ▸ member) kept

/-- In every interleaving a restart poll is triggered exactly by a request made since the
poll before it, the drop count of the health held never decreases, and the health held is
the reading of a completed probe with the largest drop count. -/
theorem no_update_lost {acts : List (Act Sample)} {s : Shared}
    (ran : initial.run acts = some s) :
    (∀ before after, acts = before ++ .poll :: after →
      ∃ polled, initial.run before = some polled ∧
        (polled.stats.restartPoll.1 = true ↔
          ∃ earlier since, before = earlier ++ .request :: since ∧ Act.poll ∉ since)) ∧
    (∀ before after, acts = before ++ after →
      ∃ earlier, initial.run before = some earlier ∧
        earlier.stats.deviceHealthDrops ≤ s.stats.deviceHealthDrops) ∧
    (completed acts = [] ∧ s.stats.deviceHealth = none ∨
      ∃ held ∈ completed acts, s.stats.deviceHealth = some held.2 ∧
        s.stats.deviceHealthDrops = held.1 ∧ ∀ other ∈ completed acts, other.1 ≤ held.1) := by
  refine ⟨?_, ?_, ?_⟩
  · rintro before after rfl
    rw [run_append] at ran
    obtain ⟨polled, reached, -⟩ := Option.bind_eq_some_iff.mp ran
    exact ⟨polled, reached, polled_iff reached⟩
  · rintro before after rfl
    rw [run_append] at ran
    obtain ⟨earlier, reached, rest⟩ := Option.bind_eq_some_iff.mp ran
    exact ⟨earlier, reached, run_drops rest⟩
  · have reads := run_reads ran
    cases held : Registers.largest (completed acts) with
    | none =>
        rw [held] at reads
        exact .inl ⟨Registers.largest_none.mp held, reads.1⟩
    | some best =>
        rw [held] at reads
        obtain ⟨member, bound⟩ := Registers.largest_some held
        exact .inr ⟨best, member, reads.1, reads.2, bound⟩

/-- Two probes finish in the other order than they were set off, a refresh between them. -/
def crossedProbes : List (Act Nat) :=
  [.spawnProbe 4, .spawnProbe 16, .request, .finishProbe 16 (.ok []),
    .refresh (.new .int16 8 none 0 0 false) ⟨true, none, .unmeasured, 0, 0⟩,
    .finishProbe 4 (.ok [⟨"Block", none, none, none, none⟩]), .poll, .poll]

theorem no_update_lost_crossedProbes :
    ∃ s, initial.run crossedProbes = some s ∧ s.stats.deviceHealth = some [] ∧
      s.stats.deviceHealthDrops = 16 ∧ completed crossedProbes ≠ [] ∧
      ((∀ before after, crossedProbes = before ++ .poll :: after →
        ∃ polled, initial.run before = some polled ∧
          (polled.stats.restartPoll.1 = true ↔
            ∃ earlier since, before = earlier ++ .request :: since ∧ Act.poll ∉ since)) ∧
      (∀ before after, crossedProbes = before ++ after →
        ∃ earlier, initial.run before = some earlier ∧
          earlier.stats.deviceHealthDrops ≤ s.stats.deviceHealthDrops) ∧
      (completed crossedProbes = [] ∧ s.stats.deviceHealth = none ∨
        ∃ held ∈ completed crossedProbes, s.stats.deviceHealth = some held.2 ∧
          s.stats.deviceHealthDrops = held.1 ∧
          ∀ other ∈ completed crossedProbes, other.1 ≤ held.1)) := by
  refine ⟨_, rfl, rfl, rfl, ?_, no_update_lost rfl⟩
  exact List.cons_ne_nil _ _

end Shared

end SharedStats

end SdrAaronia
