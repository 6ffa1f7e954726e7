import SdrAaronia.HttpStreaming.Refinement

/-! # Chunking invariance

However a byte string is cut, the parser returns the same items for it.
-/

namespace SdrAaronia.HttpStreaming

open Framing

variable {Value Sample : Type}

/-- The headers the stream holds, the one still waiting for its payload included. -/
def headersFound (codec : WireCodec Value Sample) (format : StreamFormat) (scale : Option F64)
    (stream : Bytes) : List PacketMetadata :=
  (wireFormat codec format scale).headers stream

/-- Metadata of an IQ packet at 100 MHz and 1 MS/s. -/
def iqMetadata (samples : Nat) : PacketMetadata where
  startTime := 0
  endTime := 1
  startFrequency := .finite 99500000
  endFrequency := .finite 100500000
  sampleFrequency := some (.finite 1000000)
  samples := samples
  payload := .iq
  sampleSize := 2

/-- A codec that knows the header text `{}` only and decodes bytes to themselves. -/
def emptyHeaderCodec (metadata : PacketMetadata) : WireCodec Unit UInt8 where
  metadata := fun text => if text = [123, 125] then some metadata else none
  document := fun _ => .error "no document"
  jsonSamples := fun _ _ => .ok []
  binarySamples := fun _ _ _ payload => .ok payload

/-- **Every cut of a stream yields the same items.** -/
theorem feed_chunking_invariant (codec : WireCodec Value Sample) (format : StreamFormat)
    (scale : Option F64) (stream : Bytes) (left right : List Bytes)
    (itemsLeft itemsRight : List (ParsedItem Sample)) (endLeft endRight : StreamParser)
    (cutLeft : left.flatten = stream) (cutRight : right.flatten = stream)
    (small : ∀ metadata ∈ headersFound codec format scale stream, ¬OverCap format metadata)
    (fedLeft : (StreamParser.new format scale).feed codec left = .ok (itemsLeft, endLeft))
    (fedRight : (StreamParser.new format scale).feed codec right = .ok (itemsRight, endRight)) :
    itemsLeft = itemsRight := by
  have fresh := StreamParser.behind_new codec format scale
  obtain ⟨readLeft, -⟩ := StreamParser.feed_reads fresh (cutLeft.symm ▸ small) fedLeft
  obtain ⟨readRight, -⟩ := StreamParser.feed_reads fresh (cutRight.symm ▸ small) fedRight
  rw [readLeft, readRight, cutLeft, cutRight]

/-- Garbage and a packet, cut inside its header, its separator and its payload. -/
def cutPacket : List Bytes := [[9, 123], [125, 10], [], [30, 123, 10], [30], [7]]

theorem feed_chunking_invariant_cutPacket :
    ∃ itemsLeft itemsRight endLeft endRight,
      (StreamParser.new .int16 none).feed (emptyHeaderCodec (iqMetadata 1))
        [cutPacket.flatten] = .ok (itemsLeft, endLeft) ∧
      (StreamParser.new .int16 none).feed (emptyHeaderCodec (iqMetadata 1)) cutPacket =
        .ok (itemsRight, endRight) ∧
      itemsLeft ≠ [] ∧ itemsLeft = itemsRight := by
  have left : (StreamParser.new .int16 none).feed (emptyHeaderCodec (iqMetadata 1))
      [cutPacket.flatten] =
        .ok ([.packet (.new (iqMetadata 1) [123, 10, 30, 7])],
          { StreamParser.new .int16 none with counters := ⟨1, 9, 4, 0⟩ }) := by
    decide +kernel
  have right : (StreamParser.new .int16 none).feed (emptyHeaderCodec (iqMetadata 1)) cutPacket =
        .ok ([.packet (.new (iqMetadata 1) [123, 10, 30, 7])],
          { StreamParser.new .int16 none with counters := ⟨1, 9, 4, 0⟩ }) := by
    decide +kernel
  exact ⟨_, _, _, _, left, right, by simp,
    feed_chunking_invariant _ _ _ cutPacket.flatten [cutPacket.flatten] cutPacket _ _ _ _
      (by simp) rfl (by decide +kernel) left right⟩

end SdrAaronia.HttpStreaming
