import Mathlib.Tactic.Ring
import SdrAaronia.HttpSource.SharedStats

/-! # The link budget

A meter counts bytes over a window behind a settle period, and a verdict compares the
count with what a sample rate needs.  Instants and durations are in nanoseconds.
-/

namespace SdrAaronia

open HttpStreaming

/-- What is thrown away of a fresh stream before counting. -/
def linkProbeSettle : Nat := 500000000

/-- Share of a sample rate that its stream covers. -/
def usableBandwidthRatio : F64 := .finite (4 / 5)

def usableBandwidthHz (sampleRateHz : F64) : F64 := sampleRateHz * usableBandwidthRatio

/-- Bytes a second that the path must sustain. -/
def requiredByteRateForFormat (sampleRateHz : F64) (format : StreamFormat) : Option F64 :=
  if !sampleRateHz.isFinite || decide (sampleRateHz ≤ 0) then none
  else format.iqBytesPerSample.map fun bytes => sampleRateHz * .finite bytes

/-- The rate and its nine successive halvings. -/
def iqLadderFromTop (topHz : F64) : List F64 :=
  (List.range 10).map fun n => topHz / .finite (2 ^ n)

def rungFits (rateHz : F64) (format : StreamFormat) (measuredByteRate : F64) : Bool :=
  (requiredByteRateForFormat rateHz format).any fun needed => decide (needed ≤ measuredByteRate)

/-- The fastest rung of the device's own ladder that fits the measurement. -/
def maxSustainableSampleRateBelow (deviceRateHz measuredByteRate : F64) (format : StreamFormat) :
    Option F64 :=
  if !deviceRateHz.isFinite || decide (deviceRateHz ≤ 0) || !measuredByteRate.isFinite ||
      decide (measuredByteRate ≤ 0) then none
  else
    match (iqLadderFromTop deviceRateHz).filter (rungFits · format measuredByteRate) with
    | [] => none
    | rate :: rates => some (rates.foldl F64.max rate)

/-- Judge a measurement against the rate that the device reported. -/
def LinkBudgetVerdict.judge (sampleRateHz : F64) (format : StreamFormat)
    (measured : ThroughputMeasurement) (tolerance : F64) : Option LinkBudgetVerdict :=
  format.iqBytesPerSample.bind fun bytesPerSample =>
    (requiredByteRateForFormat sampleRateHz format).map fun required =>
      let short := decide (measured.byteRate < required * tolerance)
      let fit :=
        if short then maxSustainableSampleRateBelow sampleRateHz measured.byteRate format
        else none
      { sampleRateHz
        format
        bytesPerSample
        requiredByteRate := required
        measured
        short
        fitSampleRateHz := fit
        fitBandwidthHz := fit.map usableBandwidthHz }

theorem LinkBudgetVerdict.judge_some {sampleRateHz tolerance : F64} {format : StreamFormat}
    {measured : ThroughputMeasurement} {verdict : LinkBudgetVerdict}
    (judged : judge sampleRateHz format measured tolerance = some verdict) :
    verdict.sampleRateHz = sampleRateHz ∧ verdict.measured = measured := by
  obtain ⟨bytesPerSample, -, rest⟩ := Option.bind_eq_some_iff.mp judged
  obtain ⟨required, -, rfl⟩ := Option.map_eq_some_iff.mp rest
  exact ⟨rfl, rfl⟩

structure ThroughputMeter where
  settle : Nat
  window : Nat
  opened : Nat
  /-- The first observation behind the settle period; its bytes are not counted. -/
  mark : Option Nat
  /-- The latest observation counted. -/
  last : Option Nat
  discardedBytes : Nat
  countedBytes : Nat
  /-- Set by the observation past the window, which is not counted. -/
  closed : Bool
  /-- Set when, inside the window, the reader was waiting on the consumer. -/
  consumerLimited : Bool
  deriving DecidableEq, Repr

namespace ThroughputMeter

def startingAt (opened settle window : Nat) : ThroughputMeter where
  settle := settle
  window := window
  opened := opened
  mark := none
  last := none
  discardedBytes := 0
  countedBytes := 0
  closed := false
  consumerLimited := false

/-- Record that the channel was full at this instant. -/
def noteConsumerLimited (meter : ThroughputMeter) (instant : Nat) : ThroughputMeter :=
  if !meter.closed && meter.mark.any (fun mark => decide (mark ≤ instant)) then
    { meter with consumerLimited := true }
  else meter

/-- Record bytes received at this instant. -/
def observe (meter : ThroughputMeter) (instant bytes : Nat) : ThroughputMeter :=
  if meter.closed then meter
  else if instant - meter.opened < meter.settle then
    { meter with discardedBytes := saturatingAdd meter.discardedBytes bytes }
  else
    match meter.mark with
    | none =>
        { meter with
          mark := some instant
          discardedBytes := saturatingAdd meter.discardedBytes bytes }
    | some mark =>
        if meter.window ≤ instant - mark then { meter with closed := true }
        else
          { meter with
            countedBytes := saturatingAdd meter.countedBytes bytes
            last := some instant }

/-- The measurement, or `none` if there is not enough of one. -/
def finish (meter : ThroughputMeter) : Option ThroughputMeasurement :=
  if !meter.closed || meter.countedBytes == 0 then none
  else
    meter.mark.bind fun mark =>
      meter.last.bind fun last =>
        let window := last - mark
        if window = 0 ∨ window < meter.window / 2 then none
        else
          some
            { byteRate := .finite meter.countedBytes / .finite (window / 1000000000)
              bytes := meter.countedBytes
              window
              settle := mark - meter.opened
              settleBytes := meter.discardedBytes
              streamSampleRateHz := none }

theorem finish_some {meter : ThroughputMeter} {measured : ThroughputMeasurement}
    (finished : meter.finish = some measured) :
    ∃ mark last, meter.mark = some mark ∧ meter.last = some last ∧
      measured.bytes = meter.countedBytes ∧ measured.window = last - mark := by
  rw [finish] at finished
  split at finished
  · cases finished
  · obtain ⟨mark, marked, rest⟩ := Option.bind_eq_some_iff.mp finished
    obtain ⟨last, counted, rest⟩ := Option.bind_eq_some_iff.mp rest
    obtain ⟨-, same⟩ := Option.ite_none_left_eq_some.mp rest
    cases same
    exact ⟨mark, last, marked, counted, rfl, rfl⟩

end ThroughputMeter

end SdrAaronia
