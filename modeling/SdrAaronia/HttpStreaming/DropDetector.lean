import SdrAaronia.HttpStreaming.Metadata

/-! # Drop detection from packet timestamps -/

namespace SdrAaronia.HttpStreaming

structure DropDetector where
  /-- Upper bound on the tolerated gap. -/
  tolerance : F64
  lastEndTime : Option F64 := none
  lastDuration : Option F64 := none
  /-- Decaying peak of the residual between contiguous packets. -/
  jitter : F64 := 0
  drops : Nat := 0
  backwardSteps : Nat := 0
  cumulativeGap : F64 := 0
  deriving DecidableEq, Repr

inductive DropResult where
  | continuous
  | drop (gapSeconds : F64)
  /-- The packet starts before the previous one ended. -/
  | backward (overlapSeconds : F64)
  deriving DecidableEq, Repr

namespace DropDetector

def packetFraction : F64 := .finite (1 / 2)
def jitterMargin : F64 := .finite 4
def packetCeiling : F64 := .finite (3 / 4)
def resolutionFloor : F64 := .finite (4 / 1000000)
def jitterDecay : F64 := .finite (999 / 1000)

/-- A detector whose tolerance is capped at `tolerance` seconds. -/
def new (tolerance : F64) : DropDetector where
  tolerance := tolerance

/-- The default cap, one millisecond. -/
def default : DropDetector := .new (.finite (1 / 1000))

/-- A packet's own duration from its timestamps, when they give one. -/
def durationOf (metadata : PacketMetadata) : Option F64 :=
  let duration := metadata.endTime - metadata.startTime
  if duration.isFinite && decide (0 < duration) then some duration else none

def toleranceFor (d : DropDetector) (duration : Option F64) : F64 :=
  let shortest := match d.lastDuration, duration with
    | some a, some b => some (a.min b)
    | a, b => a.or b
  match shortest with
  | none => d.tolerance
  | some shortest =>
      ((((jitterMargin * d.jitter).min (packetCeiling * shortest)).max
        (packetFraction * shortest)).max resolutionFloor).min d.tolerance

/-- Whether the stream is still continuous, from one packet's timing. -/
def observe (d : DropDetector) (metadata : PacketMetadata) : DropDetector × DropResult :=
  let duration := durationOf metadata
  let seen := fun d : DropDetector =>
    { d with lastEndTime := some metadata.endTime, lastDuration := duration }
  match d.lastEndTime with
  | none => (seen d, .continuous)
  | some prevEnd =>
      let gap := metadata.startTime - prevEnd
      let tolerance := d.toleranceFor duration
      if tolerance < gap then
        (seen { d with drops := d.drops + 1, cumulativeGap := d.cumulativeGap + gap }, .drop gap)
      else if tolerance < -gap then
        (seen { d with backwardSteps := d.backwardSteps + 1 }, .backward (-gap))
      else (seen { d with jitter := (d.jitter * jitterDecay).max gap.abs }, .continuous)

/-- Forget the last packet while keeping the statistics and the calibration. -/
def resync (d : DropDetector) : DropDetector :=
  { d with lastEndTime := none, lastDuration := none }

end DropDetector
end SdrAaronia.HttpStreaming
