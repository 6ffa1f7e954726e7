import SdrAaronia.HttpStreaming.Chunking
import SdrAaronia.HttpStreaming.Decoding

/-! # Framing round trip

A stream written as segments (garbage, a header, its separator, a payload) is
read back segment by segment.  A compressed spectrum has no known extent: its
bitstream is left for the scan to walk over.
-/

namespace SdrAaronia.HttpStreaming

open Delimited Framing

inductive Separator where
  | lineFeedRecord
  | record
  /-- A line feed with no record separator behind it. -/
  | lineFeed
  deriving DecidableEq, Repr

def Separator.bytes : Separator → Bytes
  | .lineFeedRecord => [asciiLineFeed, asciiRecordSeparator]
  | .record => [asciiRecordSeparator]
  | .lineFeed => [asciiLineFeed]

/-- One packet on the wire, with the garbage ahead of it. -/
structure Segment where
  garbage : Bytes
  header : Bytes
  metadata : PacketMetadata
  separator : Separator
  body : Bytes
  deriving DecidableEq, Repr

def Segment.bytes (s : Segment) : Bytes := s.garbage ++ (s.header ++ (s.separator.bytes ++ s.body))

def streamBytes (segments : List Segment) : Bytes := segments.flatMap Segment.bytes

/-- No terminated candidate starting in `garbage` deserialises, `following` being
the rest of the stream. -/
def NoHeaderStarts (deserialize : Bytes → Option PacketMetadata) (garbage following : Bytes) :
    Prop :=
  ∀ k < garbage.length, (headerGrammar deserialize).candidate (garbage.drop k ++ following) = none

theorem NoHeaderStarts.append {deserialize : Bytes → Option PacketMetadata}
    {left right following : Bytes} (first : NoHeaderStarts deserialize left (right ++ following))
    (second : NoHeaderStarts deserialize right following) :
    NoHeaderStarts deserialize (left ++ right) following := by
  intro k inside
  by_cases early : k < left.length
  · rw [List.drop_append_of_le_length early.le, List.append_assoc]
    exact first k early
  · have later := second (k - left.length) (by
      rw [List.length_append] at inside
      omega)
    rwa [List.drop_append, List.drop_of_length_le (by omega), List.nil_append]

instance (deserialize : Bytes → Option PacketMetadata) (garbage following : Bytes) :
    Decidable (NoHeaderStarts deserialize garbage following) :=
  inferInstanceAs (Decidable (∀ k < garbage.length, _))

namespace Segment

/-- The header declares exactly the payload, within the cap. -/
def Sized (format : StreamFormat) (s : Segment) : Prop :=
  calculateBinarySize format s.metadata = .ok s.body.length ∧ s.body.length ≤ maxBinaryPayload

/-- Compressed spectra and histograms carry no byte length. -/
def Unsized (s : Segment) : Prop :=
  (s.metadata.payload = .spectra ∨ s.metadata.payload = .histogram) ∧ s.metadata.Compressed

instance (format : StreamFormat) (s : Segment) : Decidable (s.Sized format) :=
  inferInstanceAs (Decidable (_ ∧ _))

instance (s : Segment) : Decidable s.Unsized := inferInstanceAs (Decidable (_ ∧ _))

/-- A segment that can stand ahead of `following` in a stream. -/
structure Written (deserialize : Bytes → Option PacketMetadata) (format : StreamFormat)
    (s : Segment) (following : Bytes) : Prop where
  garbage : NoHeaderStarts deserialize s.garbage
    (s.header ++ (s.separator.bytes ++ s.body) ++ following)
  opened : s.header.head? = some openBrace
  clear : ∀ b ∈ s.header, isTerminator b = false
  deserializes : deserialize s.header = some s.metadata
  separated : s.separator = .lineFeed → (s.body ++ following).head? ≠ some asciiRecordSeparator
  extent : s.Sized format ∨ s.Unsized ∧ NoHeaderStarts deserialize s.body following

end Segment

/-- Segments that make up a well-formed stream. -/
inductive Wire (deserialize : Bytes → Option PacketMetadata) (format : StreamFormat) :
    List Segment → Prop where
  | nil : Wire deserialize format []
  | cons {s : Segment} {later : List Segment}
      (written : s.Written deserialize format (streamBytes later))
      (wire : Wire deserialize format later) : Wire deserialize format (s :: later)

section Frames

variable {Value Sample : Type} (codec : WireCodec Value Sample) {format : StreamFormat}
  (scale : Option F64)

/-- The payload the framing assigns to a segment. -/
def Segment.payload (s : Segment) : Bytes := if s.Unsized then [] else s.body

/-- The bytes behind a segment's separator that no payload accounts for. -/
def Segment.leftover (s : Segment) : Bytes := if s.Unsized then s.body else []

theorem unsized_error (binary : format.Binary) {s : Segment} (unsized : s.Unsized) :
    ∃ e, calculateBinarySize format s.metadata = .error e := by
  obtain ⟨width, wide, -⟩ := binary.iqBytes
  obtain ⟨kind | kind, compressed⟩ := unsized <;>
    exact ⟨_, by simp only [calculateBinarySize, wide, kind, if_pos compressed]; rfl⟩

theorem Segment.payload_size (binary : format.Binary) {s : Segment} {following : Bytes}
    (written : s.Written codec.metadata format following) :
    s.payload.length = packetSize format s.metadata := by
  by_cases unsized : s.Unsized
  · obtain ⟨e, error⟩ := unsized_error binary unsized
    simp only [Segment.payload, if_pos unsized, packetSize, error, List.length_nil]
  · obtain ⟨sized, -⟩ := written.extent.resolve_right fun both => unsized both.1
    simp only [Segment.payload, if_neg unsized, packetSize, sized]

theorem Segment.payload_leftover (s : Segment) : s.payload ++ s.leftover = s.body := by
  unfold Segment.payload Segment.leftover
  split
  · exact List.nil_append _
  · exact List.append_nil _

/-- A separator is its terminator and at most one byte more, taken exactly. -/
theorem Segment.separator_parts {deserialize : Bytes → Option PacketMetadata} {s : Segment}
    {following : Bytes} (written : s.Written deserialize format following) :
    ∃ stop separators, s.separator.bytes = stop :: separators ∧ isTerminator stop = true ∧
      (wireFormat codec format scale).separator
        (stop :: (separators ++ s.payload ++ (s.leftover ++ following))) =
          separators.length + 1 := by
  have rest : s.payload ++ (s.leftover ++ following) = s.body ++ following := by
    rw [← List.append_assoc, s.payload_leftover]
  cases kind : s.separator with
  | lineFeedRecord => exact ⟨_, _, rfl, rfl, rfl⟩
  | record =>
      refine ⟨_, _, rfl, rfl, ?_⟩
      rw [List.nil_append, rest]
      cases s.body ++ following <;> rfl
  | lineFeed =>
      refine ⟨_, _, rfl, rfl, ?_⟩
      have alone := written.separated kind
      rw [List.nil_append, rest]
      cases tail : s.body ++ following with
      | nil => rfl
      | cons follower tail' =>
          have other : ¬follower = asciiRecordSeparator := by simpa [tail] using alone
          exact if_neg (by simp [wireFormat, separatorPairs, other])

/-- The frame a written segment is read as, whatever dead bytes stand ahead of it. -/
theorem Segment.next_written (binary : format.Binary) {s : Segment} {dead following : Bytes}
    (written : s.Written codec.metadata format following)
    (carried : NoHeaderStarts codec.metadata dead (s.bytes ++ following)) :
    (wireFormat codec format scale).next (dead ++ (s.bytes ++ following)) =
      some (⟨s.metadata, (wireFormat codec format scale).item s.metadata s.header s.payload⟩,
        s.leftover ++ following) := by
  obtain ⟨first, quiet, text⟩ := List.exists_cons_of_ne_nil (l := s.header) (by
    intro empty
    simpa [empty] using written.opened)
  have opened : isBrace first = true := by simpa [text, isBrace] using written.opened
  obtain ⟨stop, separators, parts, isStop, separated⟩ := s.separator_parts codec scale written
  have shape : s.header ++ (s.separator.bytes ++ s.body) ++ following =
      (first :: quiet) ++ stop :: (separators ++ s.payload ++ (s.leftover ++ following)) := by
    simp only [text, parts, ← s.payload_leftover, List.append_assoc, List.cons_append]
  have whole : s.bytes ++ following =
      s.garbage ++ (s.header ++ (s.separator.bytes ++ s.body) ++ following) := by
    simp only [Segment.bytes, List.append_assoc]
  have failed := (whole ▸ carried).append written.garbage
  rw [shape] at failed
  rw [whole, ← List.append_assoc, shape, text]
  exact (wireFormat codec format scale).next_written failed opened (text ▸ written.clear) isStop
    (text ▸ written.deserializes) separated (s.payload_size codec binary written)

/-- What no frame accounts for at the end of the stream, `carried` being left
ahead of the first segment. -/
def unframedEnd (carried : Bytes) : List Segment → Bytes
  | [] => carried
  | s :: later => unframedEnd s.leftover later

/-- **A well-formed stream is read segment by segment.** -/
theorem Wire.read (binary : format.Binary) {segments : List Segment} {carried : Bytes}
    (wire : Wire codec.metadata format segments)
    (dead : NoHeaderStarts codec.metadata carried (streamBytes segments)) :
    (wireFormat codec format scale).frames (carried ++ streamBytes segments) =
      segments.map (fun s => ⟨s.metadata,
        (wireFormat codec format scale).item s.metadata s.header s.payload⟩) ∧
    (wireFormat codec format scale).remainder (carried ++ streamBytes segments) =
      unframedEnd carried segments ∧
    (wireFormat codec format scale).firstMatch (unframedEnd carried segments) = none := by
  induction wire generalizing carried with
  | nil =>
      have missing : (wireFormat codec format scale).firstMatch carried = none := by
        have shifted := (wireFormat codec format scale).firstMatch_dead _ dead
        simpa [streamBytes, Grammar.firstMatch] using shifted
      have settled : (wireFormat codec format scale).Settled carried := by
        simp only [Format.Settled, Format.next, missing]
      simp only [streamBytes, List.flatMap_nil, List.append_nil, List.map_nil, unframedEnd]
      exact ⟨(wireFormat codec format scale).frames_settled settled,
        (wireFormat codec format scale).remainder_of_settled settled, missing⟩
  | @cons s later written wire ih =>
      have here := s.next_written codec scale binary written dead
      have left : NoHeaderStarts codec.metadata s.leftover (streamBytes later) := by
        unfold Segment.leftover
        split
        · rename_i unsized
          rcases written.extent with sized | both
          · obtain ⟨e, error⟩ := unsized_error binary unsized
            exact absurd (sized.1.symm.trans error) (by simp)
          · exact both.2
        · exact fun k inside => absurd inside (Nat.not_lt_zero k)
      obtain ⟨frames, remainder, missing⟩ := ih left
      have whole : streamBytes (s :: later) = s.bytes ++ streamBytes later := rfl
      rw [whole, (wireFormat codec format scale).frames_next here, frames,
        (wireFormat codec format scale).remainder_next here]
      exact ⟨rfl, remainder, missing⟩

theorem Wire.small (binary : format.Binary) {segments : List Segment}
    (wire : Wire codec.metadata format segments) {s : Segment} (member : s ∈ segments) :
    ¬OverCap format s.metadata := by
  induction wire with
  | nil => simp at member
  | @cons head later written wire ih =>
      rcases List.mem_cons.mp member with rfl | inside
      · rintro ⟨expected, sized, large⟩
        rcases written.extent with ⟨exact', cap⟩ | ⟨unsized, -⟩
        · have same : expected = s.body.length := by simpa [sized] using exact'
          omega
        · obtain ⟨e, error⟩ := unsized_error binary unsized
          exact absurd (sized.symm.trans error) (by simp)
      · exact ih inside

theorem Wire.noOverCap (binary : format.Binary) {segments : List Segment}
    (wire : Wire codec.metadata format segments) :
    StreamParser.NoOverCap (wireFormat codec format scale) format (streamBytes segments) := by
  have nothing : NoHeaderStarts codec.metadata [] (streamBytes segments) :=
    fun k inside => absurd inside (Nat.not_lt_zero k)
  obtain ⟨frames, remainder, missing⟩ := wire.read codec scale binary nothing
  rw [List.nil_append] at frames remainder
  intro metadata member
  rw [Format.headers, Format.waiting, frames, remainder, missing, List.map_map] at member
  simp only [Option.map_none, Option.toList_none, List.append_nil, List.mem_map] at member
  obtain ⟨s, inside, rfl⟩ := member
  exact wire.small codec binary inside

end Frames

section RoundTrip

variable {Value Real Sample : Type} (codec : WireCodec Value Sample)
  (decoder : SampleDecoder Real Sample) {format : StreamFormat} (scale : Option F64)

/-- What a segment comes back as. -/
inductive Yields (format : StreamFormat) (s : Segment) : ParsedItem Sample → Prop where
  /-- The packet, with the samples decoded from its own payload. -/
  | packet (samples : List Sample) (sized : s.Sized format)
      (plain : ¬(s.metadata.payload = .categories ∧ s.metadata.Compressed))
      (decoded : decoder.parseBinarySamples format scale s.metadata s.body = .ok samples) :
      Yields format s (.packet (.new s.metadata samples))
  | skippedSpectrum (reason : Error) (unsized : s.Unsized) :
      Yields format s (.skipped s.metadata.payload reason)
  | skippedCategories (reason : Error) (sized : s.Sized format)
      (compressed : s.metadata.payload = .categories ∧ s.metadata.Compressed) :
      Yields format s (.skipped .categories reason)

theorem Segment.yields (binary : format.Binary) {s : Segment} {following : Bytes}
    (written : s.Written codec.metadata format following) :
    Yields decoder scale format s
      ((wireFormat (codec.decodedBy decoder) format scale).item s.metadata s.header s.payload) := by
  have item : (wireFormat (codec.decodedBy decoder) format scale).item s.metadata s.header
      s.payload = binaryItem (codec.decodedBy decoder) format scale s.metadata s.payload :=
    if_neg binary
  rw [item]
  by_cases unsized : s.Unsized
  · obtain ⟨e, error⟩ := unsized_error binary unsized
    have spectrum : s.metadata.payload ≠ .iq := by
      rcases unsized.1 with kind | kind <;> rw [kind] <;> exact PayloadType.noConfusion
    simp only [binaryItem, error, undecodedItem, if_neg spectrum]
    exact .skippedSpectrum e unsized
  · have sized := written.extent.resolve_right fun both => unsized both.1
    have small : ¬maxBinaryPayload < s.body.length := Nat.not_lt.mpr sized.2
    have payload : s.payload = s.body := if_neg unsized
    have decodes : (codec.decodedBy decoder).binarySamples = decoder.parseBinarySamples := rfl
    simp only [binaryItem, sized.1, if_neg small, payload, decodes]
    by_cases refused : s.metadata.payload = .categories ∧ s.metadata.Compressed
    · have error := decoder.parseBinarySamples_compressedCategories format scale s.body
        refused.1 refused.2
      simp only [error, undecodedItem, refused.1]
      exact .skippedCategories _ sized refused
    · have plain : s.metadata.payload = .iq ∨ ¬s.metadata.Compressed := by
        cases kind : s.metadata.payload with
        | iq => exact .inl rfl
        | spectra => exact .inr fun compressed => unsized ⟨.inl kind, compressed⟩
        | histogram => exact .inr fun compressed => unsized ⟨.inr kind, compressed⟩
        | categories => exact .inr fun compressed => refused ⟨kind, compressed⟩
      obtain ⟨samples, decoded⟩ := decoder.parseBinarySamples_plain binary scale s.body plain
      simp only [decoded]
      exact .packet samples sized refused decoded

theorem Wire.yields (binary : format.Binary) {segments : List Segment}
    (wire : Wire codec.metadata format segments) :
    List.Forall₂ (Yields decoder scale format) segments
      (segments.map fun s => (wireFormat (codec.decodedBy decoder) format scale).item
        s.metadata s.header s.payload) := by
  induction wire with
  | nil => exact .nil
  | cons written wire ih => exact .cons (Segment.yields codec decoder scale binary written) ih

/-- **Framing round trip**: every segment comes back once, in order and in its
place, and nothing is lost. -/
theorem processDataRecovering_round_trip (codec : WireCodec Value Sample)
    (decoder : SampleDecoder Real Sample) (format : StreamFormat) (binary : format.Binary)
    (scale : Option F64) (segments : List Segment)
    (wire : Wire codec.metadata format segments)
    (fits : ((unframedEnd [] segments).drop
      ((headerGrammar codec.metadata).spent (unframedEnd [] segments))).length ≤ maxJsonBuffer) :
    ∃ items final,
      (StreamParser.new format scale).processDataRecovering (codec.decodedBy decoder)
        (streamBytes segments) = (final, .ok items) ∧
      List.Forall₂ (Yields decoder scale format) segments items := by
  have nothing : NoHeaderStarts codec.metadata [] (streamBytes segments) :=
    fun k inside => absurd inside (Nat.not_lt_zero k)
  obtain ⟨frames, remainder, missing⟩ :=
    wire.read (codec.decodedBy decoder) scale binary nothing
  rw [List.nil_append] at frames remainder
  have small := wire.noOverCap (codec.decodedBy decoder) scale binary
  obtain ⟨final, ⟨-, returned⟩ | ⟨endless, -⟩⟩ := StreamParser.processDataRecovering_new
    (codec.decodedBy decoder) format scale (streamBytes segments) small
  · refine ⟨_, final, returned, ?_⟩
    rw [frames, List.map_map]
    exact wire.yields codec decoder scale binary
  · rw [remainder] at endless
    exact absurd fits (Nat.not_le.mpr endless.2)

end RoundTrip

/-! ## Concrete streams -/

/-- A codec that knows the headers `{}` and `{c}`. -/
def twoHeaderCodec (plain compressed : PacketMetadata) : WireCodec Unit (Bytes × Bytes) where
  metadata := fun text =>
    if text = [123, 125] then some plain
    else if text = [123, 99, 125] then some compressed
    else none
  document := fun _ => .error "no document"
  jsonSamples := fun _ _ => .ok []
  binarySamples := fun _ _ _ _ => .ok []

def compressedMetadata (payload : PayloadType) : PacketMetadata :=
  { iqMetadata 1 with payload := payload, sampleSize := 1, compression := some 8 }

/-- Two IQ packets around a compressed spectrum, with braces and separators in
the garbage, the payloads and the bitstream. -/
def mixedSegments : List Segment :=
  [{ garbage := [123, 9], header := [123, 125], metadata := iqMetadata 1
     separator := .lineFeedRecord, body := [123, 10, 30, 7] },
   { garbage := [], header := [123, 99, 125], metadata := compressedMetadata .spectra
     separator := .lineFeed, body := [123, 30, 123] },
   { garbage := [10], header := [123, 125], metadata := iqMetadata 1
     separator := .record, body := [10, 30, 10, 30] }]

theorem mixedSegments_wire :
    Wire (twoHeaderCodec (iqMetadata 1) (compressedMetadata .spectra)).metadata .int16
      mixedSegments := by
  refine .cons ⟨?_, ?_, ?_, ?_, ?_, .inl ?_⟩ (.cons ⟨?_, ?_, ?_, ?_, ?_, .inr ?_⟩
    (.cons ⟨?_, ?_, ?_, ?_, ?_, .inl ?_⟩ .nil)) <;> decide +kernel

theorem processDataRecovering_round_trip_mixed :
    ∃ items final,
      (StreamParser.new .int16 none).processDataRecovering
        ((twoHeaderCodec (iqMetadata 1) (compressedMetadata .spectra)).decodedBy rawDecoder)
        (streamBytes mixedSegments) = (final, .ok items) ∧
      List.Forall₂ (Yields rawDecoder none .int16) mixedSegments items :=
  processDataRecovering_round_trip _ rawDecoder .int16 (by decide) none mixedSegments
    mixedSegments_wire (by decide +kernel)

/-- Compressed categories, their payload exactly as long as the header declares. -/
def categoriesSegment : Segment where
  garbage := []
  header := [123, 99, 125]
  metadata := compressedMetadata .categories
  separator := .record
  body := [1, 2]

/-- A compressed spectrum whose bitstream ends in an open brace and `n` zeros. -/
def openSegment (n : Nat) : Segment where
  garbage := []
  header := [123, 99, 125]
  metadata := compressedMetadata .spectra
  separator := .record
  body := openBrace :: List.replicate n 0

theorem openSegment_unstopped (n : Nat) : (openSegment n).body.any isTerminator = false := by
  rw [List.any_eq_false]
  intro b member
  rcases List.mem_cons.mp member with rfl | zeros
  · decide
  · rw [(List.mem_replicate.mp zeros).2]
    decide

theorem openSegment_unsized (n : Nat) : (openSegment n).Unsized := by
  change (_ ∨ _) ∧ (compressedMetadata .spectra).Compressed
  exact ⟨.inl rfl, by decide⟩

theorem openSegment_wire (n : Nat) :
    Wire (twoHeaderCodec (iqMetadata 1) (compressedMetadata .spectra)).metadata .int16
      [openSegment n] := by
  have noStop := openSegment_unstopped n
  have unsized := openSegment_unsized n
  refine .cons ⟨?_, rfl, ?_, rfl, ?_, .inr ⟨unsized, ?_⟩⟩ .nil
  · exact fun k inside => absurd inside (Nat.not_lt_zero k)
  · exact List.forall_mem_cons.mpr ⟨rfl, List.forall_mem_cons.mpr ⟨rfl,
      List.forall_mem_singleton.mpr rfl⟩⟩
  · intro lineFeed
    exact Separator.noConfusion lineFeed
  · intro k inside
    apply Grammar.candidate_unstopped
    rw [streamBytes, List.flatMap_nil, List.append_nil, List.any_eq_false]
    intro b member
    exact List.any_eq_false.mp noStop b (List.mem_of_mem_drop member)

/-- An unterminated brace at the end of the last bitstream fails the whole call. -/
theorem openSegment_error (n : Nat) (long : maxJsonBuffer ≤ n) :
    ∃ final, (StreamParser.new .int16 none).processDataRecovering
        ((twoHeaderCodec (iqMetadata 1) (compressedMetadata .spectra)).decodedBy rawDecoder)
        (streamBytes [openSegment n]) = (final, .error unterminatedError) := by
  have wire := openSegment_wire n
  have binary : StreamFormat.int16.Binary := by decide
  let codec := (twoHeaderCodec (iqMetadata 1) (compressedMetadata .spectra)).decodedBy rawDecoder
  have nothing : NoHeaderStarts codec.metadata [] (streamBytes [openSegment n]) :=
    fun k inside => absurd inside (Nat.not_lt_zero k)
  obtain ⟨-, remainder, missing⟩ := wire.read codec none binary nothing
  have small := wire.noOverCap codec none binary
  have unsized := openSegment_unsized n
  have left : unframedEnd [] [openSegment n] = openBrace :: List.replicate n 0 := by
    change (if (openSegment n).Unsized then (openSegment n).body else []) = _
    exact if_pos unsized
  have endless : StreamParser.Unterminated (wireFormat codec .int16 none)
      ((wireFormat codec .int16 none).remainder (streamBytes [openSegment n])) := by
    rw [List.nil_append] at remainder
    rw [remainder]
    refine ⟨missing, ?_⟩
    have unstopped : (openBrace :: List.replicate n 0).any
        (wireFormat codec .int16 none).stops = false := openSegment_unstopped n
    have kept : (wireFormat codec .int16 none).spent (openBrace :: List.replicate n 0) = 0 := by
      rw [Grammar.spent, unstopped]
      rfl
    rw [left, kept, List.drop_zero, List.length_cons, List.length_replicate]
    omega
  obtain ⟨final, ⟨bounded, -⟩ | ⟨-, failed⟩⟩ :=
    StreamParser.processDataRecovering_new codec .int16 none _ small
  · exact absurd endless bounded
  · exact ⟨final, failed⟩

/-- Two well-formed streams that do not come back: compressed categories are
refused although their payload was framed, and a bitstream at the end of the
stream can hold a brace that never terminates. -/
theorem round_trip_refused :
    (Wire (twoHeaderCodec (iqMetadata 1) (compressedMetadata .categories)).metadata .int16
        [categoriesSegment] ∧
      categoriesSegment.Sized .int16 ∧
      ((StreamParser.new .int16 none).processDataRecovering
        ((twoHeaderCodec (iqMetadata 1) (compressedMetadata .categories)).decodedBy rawDecoder)
        (streamBytes [categoriesSegment])).2 =
          .ok [.skipped .categories
            (.protocol "compressed Categories payloads have no documented layout")]) ∧
    (Wire (twoHeaderCodec (iqMetadata 1) (compressedMetadata .spectra)).metadata .int16
        [openSegment maxJsonBuffer] ∧
      ∃ final, (StreamParser.new .int16 none).processDataRecovering
        ((twoHeaderCodec (iqMetadata 1) (compressedMetadata .spectra)).decodedBy rawDecoder)
        (streamBytes [openSegment maxJsonBuffer]) = (final, .error unterminatedError)) := by
  refine ⟨⟨?_, by decide +kernel, by decide +kernel⟩, openSegment_wire _,
    openSegment_error _ le_rfl⟩
  refine .cons ⟨?_, ?_, ?_, ?_, ?_, .inl ?_⟩ .nil <;> decide +kernel

end SdrAaronia.HttpStreaming
