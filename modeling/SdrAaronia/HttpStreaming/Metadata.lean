import SdrAaronia.Lib.F64
import SdrAaronia.Error

/-! # Stream formats and packet headers

The header fields that the parser and its consumers read.  Deserialisation from
JSON belongs to serde and is a parameter of the parser.
-/

namespace SdrAaronia

abbrev Bytes := List UInt8

/-- `usize` and `u64` values are below this. -/
def wordSize : Nat := 2 ^ 64

/-- `usize::try_from` on a 64-bit target. -/
def usizeOf (n : Nat) : Option Nat := if n < wordSize then some n else none

def checkedMul (a b : Nat) : Option Nat := if a * b < wordSize then some (a * b) else none

def saturatingMul (a b : Nat) : Nat := min (a * b) (wordSize - 1)

def saturatingAdd (a b : Nat) : Nat := min (a + b) (wordSize - 1)

namespace HttpStreaming

/-- Relative change in the device-reported sample rate that counts as a real
retune rather than jitter. -/
def rateChangeBand : F64 := .finite (1 / 10)

/-- Whether `current` differs from `previous` by more than the band. -/
def rateMoved (previous current : F64) : Bool :=
  decide (rateChangeBand < (current - previous).abs / previous)

theorem rateMoved_finite (previous current : ℚ) (positive : 0 < previous) :
    rateMoved (.finite previous) (.finite current) =
      decide (1 / 10 < |current - previous| / previous) := by
  simp only [rateMoved, rateChangeBand, F64.finite_sub, F64.finite_abs,
    F64.finite_div _ _ positive.ne', F64.finite_lt]

inductive StreamFormat where
  | json
  | int16
  | float16
  | float32
  deriving DecidableEq, Repr

namespace StreamFormat

/-- Bytes one IQ sample occupies on the wire; JSON samples have no fixed width. -/
def iqBytesPerSample : StreamFormat → Option Nat
  | .int16 => some 4
  | .float16 => some 4
  | .float32 => some 8
  | .json => none

/-- A format whose packets carry a binary payload. -/
def Binary (format : StreamFormat) : Prop := format ≠ .json

instance (format : StreamFormat) : Decidable format.Binary :=
  inferInstanceAs (Decidable (format ≠ .json))

theorem Binary.iqBytes {format : StreamFormat} (binary : format.Binary) :
    ∃ width, format.iqBytesPerSample = some width ∧ (width = 4 ∨ width = 8) := by
  cases format with
  | json => exact absurd rfl binary
  | int16 | float16 => exact ⟨4, rfl, .inl rfl⟩
  | float32 => exact ⟨8, rfl, .inr rfl⟩

end StreamFormat

inductive PayloadType where
  | iq
  | spectra
  | histogram
  | categories
  deriving DecidableEq, Repr

/-- The name `{:?}` prints. -/
def PayloadType.debugName : PayloadType → String
  | .iq => "Iq"
  | .spectra => "Spectra"
  | .histogram => "Histogram"
  | .categories => "Categories"

structure CategorySpec where
  name : String
  startFrequency : F64
  endFrequency : F64
  deriving DecidableEq, Repr

structure PacketMetadata where
  startTime : F64
  endTime : F64
  startFrequency : F64
  endFrequency : F64
  sampleFrequency : Option F64 := none
  samples : Nat
  payload : PayloadType
  sampleDepth : Option Nat := none
  sampleSize : Nat
  scale : Option F64 := none
  categories : Option (List CategorySpec) := none
  compression : Option Nat := none
  deriving DecidableEq, Repr

namespace PacketMetadata

/-- The rate this packet reports: `sampleFrequency` when the header carries it,
else `samples / duration`, else zero. -/
def sampleRateHz (metadata : PacketMetadata) : F64 :=
  let duration := metadata.endTime - metadata.startTime
  metadata.sampleFrequency.getD
    (if 0 < duration then .finite metadata.samples / duration else 0)

/-- A compression factor above zero is declared. -/
def Compressed (metadata : PacketMetadata) : Prop := ∃ c ∈ metadata.compression, 0 < c

instance (metadata : PacketMetadata) : Decidable metadata.Compressed :=
  inferInstanceAs (Decidable (∃ c ∈ metadata.compression, 0 < c))

end PacketMetadata

/-- Real-time SDR configuration derived from a packet header. -/
structure StreamingSdrConfig where
  centerFrequencyHz : F64
  bandwidthHz : F64
  sampleRateHz : F64
  samplesPerPacket : Nat
  deriving DecidableEq, Repr

def StreamingSdrConfig.fromMetadata (metadata : PacketMetadata) : StreamingSdrConfig where
  centerFrequencyHz := (metadata.startFrequency + metadata.endFrequency) / .finite 2
  bandwidthHz := metadata.endFrequency - metadata.startFrequency
  sampleRateHz := metadata.sampleRateHz
  samplesPerPacket := metadata.samples

structure StreamPacket (Sample : Type) where
  metadata : PacketMetadata
  samples : List Sample
  sdrConfig : StreamingSdrConfig
  deriving DecidableEq, Repr

def StreamPacket.new {Sample : Type} (metadata : PacketMetadata) (samples : List Sample) :
    StreamPacket Sample where
  metadata := metadata
  samples := samples
  sdrConfig := .fromMetadata metadata

end HttpStreaming
end SdrAaronia
