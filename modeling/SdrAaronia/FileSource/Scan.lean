import SdrAaronia.FileSource.State

/-! # One read of a capture file

What the chunk that holds the cursor makes of a read, which chunk that is, and
that the scan never runs out of fuel.
-/

namespace SdrAaronia

open HttpStreaming

namespace SampChunk

/-- The reader has a decoder for the chunk's payload and sample type. -/
def isDecoded (c : SampChunk) : Bool :=
  match c.payloadType with
  | .iq => c.isF32 || c.isS16
  | .spectra => c.isF32
  | _ => false

theorem isDecoded_payload {c : SampChunk} (decoded : c.isDecoded = true) :
    c.payloadType = .iq ∨ c.payloadType = .spectra := by
  rw [isDecoded] at decoded
  split at decoded
  · exact Or.inl ‹_›
  · exact Or.inr ‹_›
  · cases decoded

theorem valueBytes_f32 {c : SampChunk} (f32 : c.isF32 = true) : c.valueBytes = 4 := by
  simp only [isF32, Bool.or_eq_true, beq_iff_eq] at f32
  rcases f32 with f32 | f32 <;> simp only [valueBytes, f32]

theorem valueBytes_s16 {c : SampChunk} (s16 : c.isS16 = true) : c.valueBytes = 2 := by
  simp only [isS16, Bool.or_eq_true, beq_iff_eq] at s16
  rcases s16 with s16 | s16 <;> simp only [valueBytes, s16]

theorem sampleSize_of_iq {c : SampChunk} (paired : c.pairMismatch = false)
    (iq : c.payloadType = .iq) (decoded : c.isDecoded = true) : c.sampleSize = 2 := by
  simp only [isDecoded, iq] at decoded
  simpa [pairMismatch, iq, decoded] using paired

theorem stride_iq {c : SampChunk} (paired : c.pairMismatch = false) (iq : c.payloadType = .iq)
    (decoded : c.isDecoded = true) : c.sampleStrideBytes = if c.isF32 then 8 else 4 := by
  have pair := sampleSize_of_iq paired iq decoded
  simp only [isDecoded, iq, Bool.or_eq_true] at decoded
  rw [sampleStrideBytes, pair]
  split
  · rw [valueBytes_f32 ‹_›]
  · rw [valueBytes_s16 (decoded.resolve_left ‹_›)]

theorem stride_spectra {c : SampChunk} (spectra : c.payloadType = .spectra)
    (decoded : c.isDecoded = true) : c.sampleStrideBytes = c.sampleSize * 4 := by
  simp only [isDecoded, spectra] at decoded
  rw [sampleStrideBytes, valueBytes_f32 decoded]

end SampChunk

/-! ## The reader -/

namespace FileReader

/-- The reader after `count` bytes were taken. -/
def advanced (f : FileReader) (count : Nat) : FileReader :=
  { f with position := f.position + count, served := f.served ++ [(f.position, count)] }

theorem seekStart_cases (f : FileReader) (position : Nat) :
    (position < 2 ^ 63 ∧ f.seekStart position = .ok { f with position }) ∨
      (2 ^ 63 ≤ position ∧ f.seekStart position = .error .invalidSeek) := by
  rw [seekStart]
  split
  · exact Or.inl ⟨‹_›, rfl⟩
  · exact Or.inr ⟨by omega, rfl⟩

theorem readDecoded_cases {Value : Type} (f : FileReader) (count : Nat)
    (decode : Bytes → Value) :
    ((count = 0 ∨ f.position + count ≤ f.bytes.length) ∧
      f.readDecoded count decode =
        (.ok (decode ((f.bytes.drop f.position).take count)), f.advanced count)) ∨
      (¬(count = 0 ∨ f.position + count ≤ f.bytes.length) ∧
        f.readDecoded count decode = (.error .unexpectedEof, f)) := by
  rw [readDecoded, readExact]
  split
  · rename_i e f' failed
    split at failed
    · cases failed
    · cases failed
      exact Or.inr ⟨‹_›, rfl⟩
  · rename_i bytes f' served
    split at served
    · cases served
      exact Or.inl ⟨‹_›, rfl⟩
    · cases served

end FileReader

namespace RtsaSource

variable {Real Sample : Type} (decoder : SampleDecoder Real Sample)

/-- The same open file, wherever its cursor, hint and reader stand. -/
structure SameFile (s s' : RtsaSource) : Prop where
  bytes : s'.reader.bytes = s.reader.bytes
  totalSamples : s'.totalSamples = s.totalSamples
  subStreams : s'.subStreams = s.subStreams
  iqStreamId : s'.iqStreamId = s.iqStreamId
  sampChunkOffsets : s'.sampChunkOffsets = s.sampChunkOffsets
  sampChunkStartSamples : s'.sampChunkStartSamples = s.sampChunkStartSamples
  rawIqDataEndOffset : s'.rawIqDataEndOffset = s.rawIqDataEndOffset

theorem SameFile.refl (s : RtsaSource) : SameFile s s := ⟨rfl, rfl, rfl, rfl, rfl, rfl, rfl⟩

theorem SameFile.symm {s s' : RtsaSource} (same : SameFile s s') : SameFile s' s where
  bytes := same.bytes.symm
  totalSamples := same.totalSamples.symm
  subStreams := same.subStreams.symm
  iqStreamId := same.iqStreamId.symm
  sampChunkOffsets := same.sampChunkOffsets.symm
  sampChunkStartSamples := same.sampChunkStartSamples.symm
  rawIqDataEndOffset := same.rawIqDataEndOffset.symm

theorem SameFile.trans {s s' s'' : RtsaSource} (first : SameFile s s')
    (second : SameFile s' s'') : SameFile s s'' where
  bytes := second.bytes.trans first.bytes
  totalSamples := second.totalSamples.trans first.totalSamples
  subStreams := second.subStreams.trans first.subStreams
  iqStreamId := second.iqStreamId.trans first.iqStreamId
  sampChunkOffsets := second.sampChunkOffsets.trans first.sampChunkOffsets
  sampChunkStartSamples := second.sampChunkStartSamples.trans first.sampChunkStartSamples
  rawIqDataEndOffset := second.rawIqDataEndOffset.trans first.rawIqDataEndOffset

theorem SameFile.startOf {s s' : RtsaSource} (same : SameFile s s') (offset : Nat) :
    s'.startOf offset = s.startOf offset := by
  rw [RtsaSource.startOf, RtsaSource.startOf, same.sampChunkStartSamples]

theorem SameFile.endOf {s s' : RtsaSource} (same : SameFile s s') (chunk : Nat × SampChunk) :
    s'.endOf chunk = s.endOf chunk := by
  rw [RtsaSource.endOf, RtsaSource.endOf, same.startOf]

/-- The bytes of a decoded chunk as samples. -/
def payloadData (s : RtsaSource) (c : SampChunk) (bytes : Bytes) : SampleData Real Sample :=
  match c.payloadType with
  | .spectra => .spectra ((asChunks 4 bytes).map decoder.float32)
  | _ =>
      .iq (if c.isF32 then (asChunks 8 bytes).map (decoder.iqPair decoder.float32 4)
        else (asChunks 4 bytes).map
          (decoder.iqPair (decoder.int16 (s.int16ScaleForSubStream c.subStreamId)) 2))

/-! ## The payload -/

/-- Only the float32 decoders look at the compression field. -/
def rejectsCompression (c : SampChunk) : Prop := c.isF32 = true ∧ 0 < c.compression

instance (c : SampChunk) : Decidable (rejectsCompression c) :=
  inferInstanceAs (Decidable (_ ∧ _))

theorem readPayload_decoded (s : RtsaSource) {offset : Nat} {c : SampChunk} {toRead : Nat}
    (decoded : c.isDecoded = true) (paired : c.pairMismatch = false)
    (plain : ¬rejectsCompression c) :
    s.readPayload decoder offset c toRead =
      match s.reader.readDecoded (toRead * c.sampleStrideBytes) (s.payloadData decoder c) with
      | (.error e, reader) => (.error e, { s with reader })
      | (.ok data, reader) => (.ok (some data), { s with reader }) := by
  rw [rejectsCompression] at plain
  cases SampChunk.isDecoded_payload decoded with
  | inl iq =>
      rw [SampChunk.stride_iq paired iq decoded]
      simp only [SampChunk.isDecoded, iq, Bool.or_eq_true] at decoded
      by_cases f32 : c.isF32 = true
      · have uncompressed : ¬0 < c.compression := fun positive => plain ⟨f32, positive⟩
        simp only [readPayload, iq, f32, if_true, if_neg uncompressed, FileReader.readIqF32,
          FileReader.readDecoded, payloadData]
        cases s.reader.readExact (toRead * 8) with
        | mk result reader => cases result <;> rfl
      · simp only [readPayload, iq, f32, if_false, decoded.resolve_left f32, if_true,
          FileReader.readIqI16, FileReader.readDecoded, payloadData, Bool.false_eq_true]
        cases s.reader.readExact (toRead * 4) with
        | mk result reader => cases result <;> rfl
  | inr spectra =>
      rw [SampChunk.stride_spectra spectra decoded, ← Nat.mul_assoc]
      simp only [SampChunk.isDecoded, spectra] at decoded
      have uncompressed : ¬0 < c.compression := fun positive => plain ⟨decoded, positive⟩
      simp only [readPayload, spectra, decoded, if_true, if_neg uncompressed,
        FileReader.readF32Vec, FileReader.readDecoded, payloadData]
      cases s.reader.readExact (toRead * c.sampleSize * 4) with
      | mk result reader => cases result <;> rfl

theorem readPayload_rejected (s : RtsaSource) (offset : Nat) {c : SampChunk} (toRead : Nat)
    (decoded : c.isDecoded = true) (compressed : rejectsCompression c) :
    ∃ e, s.readPayload decoder offset c toRead = (.error e, s) := by
  obtain ⟨f32, positive⟩ := compressed
  cases SampChunk.isDecoded_payload decoded with
  | inl iq =>
      exact ⟨SampChunk.compressedIqError offset,
        by simp only [readPayload, iq, f32, if_true, if_pos positive]⟩
  | inr spectra =>
      exact ⟨SampChunk.compressedSpectraError offset,
        by simp only [readPayload, spectra, f32, if_true, if_pos positive]⟩

/-- Where the reader is left by a chunk whose type is not decoded. -/
def passPosition (offset : Nat) (c : SampChunk) (position : Nat) : Nat :=
  match c.payloadType with
  | .iq | .spectra => position
  | _ => offset + c.size

theorem readPayload_undecoded (s : RtsaSource) (offset : Nat) {c : SampChunk} (toRead : Nat)
    (undecoded : c.isDecoded = false) :
    s.readPayload decoder offset c toRead =
        (.ok none, { s with reader :=
          { s.reader with position := passPosition offset c s.reader.position } }) ∨
      (2 ^ 63 ≤ offset + c.size ∧
        s.readPayload decoder offset c toRead = (.error .invalidSeek, s)) := by
  cases kind : c.payloadType with
  | iq =>
      simp only [SampChunk.isDecoded, kind, Bool.or_eq_false_iff] at undecoded
      left
      simp only [readPayload, passPosition, kind, undecoded.1, undecoded.2, Bool.false_eq_true,
        if_false]
  | spectra =>
      simp only [SampChunk.isDecoded, kind] at undecoded
      left
      simp only [readPayload, passPosition, kind, undecoded, Bool.false_eq_true, if_false]
  | _ =>
      cases s.reader.seekStart_cases (offset + c.size) with
      | inl moved =>
          left
          simp only [readPayload, passPosition, kind, moved.2]
      | inr refused =>
          right
          simp only [readPayload, kind, refused.2]
          exact ⟨refused.1, trivial⟩

/-! ## The chunk -/

/-- The read fails on the chunk before its payload is looked at. -/
def refuses (s : RtsaSource) (chunk : Nat × SampChunk) (numSamples : Nat) : Bool :=
  chunk.2.pairMismatch || decide (2 ^ 63 ≤ s.dataStart chunk) ||
    chunk.2.holdsNone (s.samplesBefore chunk.1) numSamples

theorem refuses_false {s : RtsaSource} {chunk : Nat × SampChunk} {numSamples : Nat}
    (accepts : s.refuses chunk numSamples = false) :
    chunk.2.pairMismatch = false ∧ s.dataStart chunk < 2 ^ 63 ∧
      chunk.2.holdsNone (s.samplesBefore chunk.1) numSamples = false := by
  simpa only [refuses, Bool.or_eq_false_iff, decide_eq_false_iff_not, Nat.not_le, and_assoc]
    using accepts

theorem readChunk_refused {s : RtsaSource} {chunk : Nat × SampChunk} {numSamples : Nat}
    (refused : s.refuses chunk numSamples = true) :
    ∃ e position, s.readChunk decoder chunk numSamples =
      (.error e, { s with reader := { s.reader with position } }) := by
  rw [readChunk]
  split
  · exact ⟨_, s.reader.position, rfl⟩
  · rename_i paired
    cases s.reader.seekStart_cases (s.dataStart chunk) with
    | inr far => exact ⟨.invalidSeek, s.reader.position, by
        rw [far.2]⟩
    | inl near =>
        simp only [Bool.not_eq_true] at paired
        simp only [refuses, paired, Bool.false_or, Bool.or_eq_true, decide_eq_true_eq] at refused
        have none := refused.resolve_left (by omega)
        exact ⟨chunk.2.sizeError chunk.1 (s.samplesBefore chunk.1), s.dataStart chunk, by
          simp only [near.2, if_pos none]⟩

theorem readChunk_accepted {s : RtsaSource} {chunk : Nat × SampChunk} {numSamples : Nat}
    (accepts : s.refuses chunk numSamples = false) :
    s.readChunk decoder chunk numSamples =
      match { s with reader := { s.reader with position := s.dataStart chunk } }.readPayload
          decoder chunk.1 chunk.2 (s.toRead chunk numSamples) with
      | (.error e, s') => (.error e, s')
      | (.ok (some data), s') =>
          (.ok (some data),
            { s' with currentSampleIndex := s.currentSampleIndex + s.toRead chunk numSamples })
      | (.ok none, s') => (.ok none, { s' with currentSampleIndex := s.endOf chunk }) := by
  obtain ⟨paired, near, held⟩ := refuses_false accepts
  have placed : s.reader.seekStart (s.dataStart chunk) =
      .ok { s.reader with position := s.dataStart chunk } := by
    rw [FileReader.seekStart, if_pos near]
  rw [readChunk, if_neg (by rw [paired]; exact Bool.false_ne_true)]
  simp only [placed]
  exact if_neg (by rw [held]; exact Bool.false_ne_true)

/-- Reading a decoded chunk: its bytes from the cursor on, if the file goes that
far. -/
theorem readChunk_decoded {s : RtsaSource} {chunk : Nat × SampChunk} {numSamples : Nat}
    (accepts : s.refuses chunk numSamples = false) (decoded : chunk.2.isDecoded = true)
    (plain : ¬rejectsCompression chunk.2) :
    s.readChunk decoder chunk numSamples =
      let count := s.toRead chunk numSamples * chunk.2.sampleStrideBytes
      let placed := { s.reader with position := s.dataStart chunk }
      if count = 0 ∨ s.dataStart chunk + count ≤ s.reader.bytes.length then
        (.ok (some (s.payloadData decoder chunk.2
            ((s.reader.bytes.drop (s.dataStart chunk)).take count))),
          { s with
            reader := placed.advanced count
            currentSampleIndex := s.currentSampleIndex + s.toRead chunk numSamples })
      else (.error .unexpectedEof, { s with reader := placed }) := by
  have paired := (refuses_false accepts).1
  rw [readChunk_accepted decoder accepts, readPayload_decoded decoder _ decoded paired plain]
  let placed := { s with reader := { s.reader with position := s.dataStart chunk } }
  have read := FileReader.readDecoded_cases placed.reader
    (s.toRead chunk numSamples * chunk.2.sampleStrideBytes) (placed.payloadData decoder chunk.2)
  cases read with
  | inl read =>
      rw [read.2, if_pos read.1]
      rfl
  | inr read =>
      rw [read.2, if_neg read.1]

theorem readChunk_rejected {s : RtsaSource} {chunk : Nat × SampChunk} {numSamples : Nat}
    (accepts : s.refuses chunk numSamples = false) (decoded : chunk.2.isDecoded = true)
    (compressed : rejectsCompression chunk.2) :
    ∃ e, s.readChunk decoder chunk numSamples =
      (.error e, { s with reader := { s.reader with position := s.dataStart chunk } }) := by
  obtain ⟨e, rejected⟩ := readPayload_rejected decoder
    { s with reader := { s.reader with position := s.dataStart chunk } } chunk.1
    (s.toRead chunk numSamples) decoded compressed
  exact ⟨e, by rw [readChunk_accepted decoder accepts, rejected]⟩

/-- A chunk of a type that is not decoded is passed as a whole. -/
theorem readChunk_undecoded {s : RtsaSource} {chunk : Nat × SampChunk} {numSamples : Nat}
    (accepts : s.refuses chunk numSamples = false) (undecoded : chunk.2.isDecoded = false) :
    s.readChunk decoder chunk numSamples =
        (.ok none, { s with
          reader :=
            { s.reader with position := passPosition chunk.1 chunk.2 (s.dataStart chunk) }
          currentSampleIndex := s.endOf chunk }) ∨
      (2 ^ 63 ≤ chunk.1 + chunk.2.size ∧ ∃ position,
        s.readChunk decoder chunk numSamples =
          (.error .invalidSeek, { s with reader := { s.reader with position } })) := by
  rw [readChunk_accepted decoder accepts]
  cases readPayload_undecoded decoder
      { s with reader := { s.reader with position := s.dataStart chunk } } chunk.1
      (s.toRead chunk numSamples) undecoded with
  | inl passed => exact Or.inl (by rw [passed])
  | inr refused => exact Or.inr ⟨refused.1, s.dataStart chunk, by rw [refused.2]⟩

/-- The file goes as far as a read of the chunk. -/
def servable (s : RtsaSource) (chunk : Nat × SampChunk) (numSamples : Nat) : Bool :=
  let count := s.toRead chunk numSamples * chunk.2.sampleStrideBytes
  decide (count = 0 ∨ s.dataStart chunk + count ≤ s.reader.bytes.length)

/-- What a read makes of the chunk: it fails in place, takes samples, or passes. -/
theorem readChunk_cases (s : RtsaSource) (chunk : Nat × SampChunk) (numSamples : Nat) :
    (∃ e position, s.readChunk decoder chunk numSamples =
        (.error e, { s with reader := { s.reader with position } })) ∨
      (s.refuses chunk numSamples = false ∧ chunk.2.isDecoded = true ∧
        ¬rejectsCompression chunk.2 ∧ s.servable chunk numSamples = true ∧
        let count := s.toRead chunk numSamples * chunk.2.sampleStrideBytes
        s.readChunk decoder chunk numSamples =
          (.ok (some (s.payloadData decoder chunk.2
              ((s.reader.bytes.drop (s.dataStart chunk)).take count))),
            { s with
              reader := { s.reader with position := s.dataStart chunk }.advanced count
              currentSampleIndex := s.currentSampleIndex + s.toRead chunk numSamples })) ∨
      (s.refuses chunk numSamples = false ∧ chunk.2.isDecoded = false ∧
        s.readChunk decoder chunk numSamples =
          (.ok none, { s with
            reader :=
              { s.reader with position := passPosition chunk.1 chunk.2 (s.dataStart chunk) }
            currentSampleIndex := s.endOf chunk })) := by
  cases accepts : s.refuses chunk numSamples with
  | true => exact Or.inl (readChunk_refused decoder accepts)
  | false =>
      cases decoded : chunk.2.isDecoded with
      | true =>
          by_cases compressed : rejectsCompression chunk.2
          · obtain ⟨e, rejected⟩ := readChunk_rejected decoder accepts decoded compressed
            exact Or.inl ⟨e, s.dataStart chunk, rejected⟩
          · have read := readChunk_decoded decoder accepts decoded compressed
            by_cases servable : s.servable chunk numSamples = true
            · rw [if_pos (of_decide_eq_true servable)] at read
              exact Or.inr (Or.inl ⟨rfl, rfl, compressed, servable, read⟩)
            · rw [if_neg (fun held => servable (decide_eq_true held))] at read
              exact Or.inl ⟨.unexpectedEof, s.dataStart chunk, read⟩
      | false =>
          cases readChunk_undecoded decoder accepts decoded with
          | inl passed => exact Or.inr (Or.inr ⟨rfl, rfl, passed⟩)
          | inr failed =>
              obtain ⟨-, position, failed⟩ := failed
              exact Or.inl ⟨.invalidSeek, position, failed⟩

theorem readChunk_sameFile (s : RtsaSource) (chunk : Nat × SampChunk) (numSamples : Nat) :
    SameFile s (s.readChunk decoder chunk numSamples).2 := by
  rcases readChunk_cases decoder s chunk numSamples with failed | read | passed
  · obtain ⟨e, position, failed⟩ := failed
    rw [failed]
    exact ⟨rfl, rfl, rfl, rfl, rfl, rfl, rfl⟩
  · rw [read.2.2.2.2]
    exact ⟨rfl, rfl, rfl, rfl, rfl, rfl, rfl⟩
  · rw [passed.2.2]
    exact ⟨rfl, rfl, rfl, rfl, rfl, rfl, rfl⟩

/-! ## The scan -/

theorem selects_iff {s : RtsaSource} {subStreamId : Option Nat} {chunk : Nat × SampChunk} :
    s.selects subStreamId chunk = true ↔
      chunk.2.streamId = s.iqStreamId ∧
        (subStreamId = none ∨ subStreamId = some chunk.2.subStreamId) ∧
        s.currentSampleIndex < s.endOf chunk ∧ s.startOf chunk.1 ≤ s.currentSampleIndex :=
  decide_eq_true_iff

theorem mem_scan {α : Type} {items : List α} {hint : Nat} {item : α} :
    item ∈ items.drop hint ++ items.take hint ↔ item ∈ items := by
  rw [List.mem_append, or_comm, ← List.mem_append, List.take_append_drop]

theorem findChunk_some {s : RtsaSource} {subStreamId : Option Nat} {chunk : Nat × SampChunk}
    {idx : Nat} (found : s.findChunk subStreamId = some (chunk, idx)) :
    s.sampChunkOffsets[idx]? = some chunk ∧ s.selects subStreamId chunk = true := by
  have member := mem_scan.mp (List.mem_of_find?_eq_some found)
  have held : s.selects subStreamId (chunk, idx).1 = true := by
    rw [findChunk] at found
    exact (List.find?_eq_some_iff_append.mp found).1
  exact ⟨List.mem_zipIdx_iff_getElem?.mp member, held⟩

/-- The source after `numSamples` samples were asked of the chunk found. -/
def afterRead (s : RtsaSource) (chunk : Nat × SampChunk) (idx numSamples : Nat) : RtsaSource :=
  { s with
    reader := { s.reader with position := s.dataStart chunk }.advanced
      (s.toRead chunk numSamples * chunk.2.sampleStrideBytes)
    chunkScanHint := idx
    currentSampleIndex := s.currentSampleIndex + s.toRead chunk numSamples }

/-- The source after the chunk found was passed. -/
def afterSkip (s : RtsaSource) (chunk : Nat × SampChunk) (idx : Nat) : RtsaSource :=
  { s with
    reader := { s.reader with position := passPosition chunk.1 chunk.2 (s.dataStart chunk) }
    chunkScanHint := idx
    currentSampleIndex := s.endOf chunk }

theorem afterRead_sameFile (s : RtsaSource) (chunk : Nat × SampChunk) (idx numSamples : Nat) :
    SameFile s (s.afterRead chunk idx numSamples) := ⟨rfl, rfl, rfl, rfl, rfl, rfl, rfl⟩

theorem afterSkip_sameFile (s : RtsaSource) (chunk : Nat × SampChunk) (idx : Nat) :
    SameFile s (s.afterSkip chunk idx) := ⟨rfl, rfl, rfl, rfl, rfl, rfl, rfl⟩

/-- The decoded samples that a read of the chunk returns. -/
def dataOf (s : RtsaSource) (chunk : Nat × SampChunk) (numSamples : Nat) :
    SampleData Real Sample :=
  s.payloadData decoder chunk.2 ((s.reader.bytes.drop (s.dataStart chunk)).take
    (s.toRead chunk numSamples * chunk.2.sampleStrideBytes))

/-- What a read makes of the chunk its scan found. -/
theorem readFound_cases (s : RtsaSource) (chunk : Nat × SampChunk) (idx numSamples : Nat) :
    (∃ e position, { s with chunkScanHint := idx }.readChunk decoder chunk numSamples =
        (.error e, { s with reader := { s.reader with position }, chunkScanHint := idx })) ∨
      (s.refuses chunk numSamples = false ∧ chunk.2.isDecoded = true ∧
        ¬rejectsCompression chunk.2 ∧ s.servable chunk numSamples = true ∧
        { s with chunkScanHint := idx }.readChunk decoder chunk numSamples =
          (.ok (some (s.dataOf decoder chunk numSamples)), s.afterRead chunk idx numSamples)) ∨
      (s.refuses chunk numSamples = false ∧ chunk.2.isDecoded = false ∧
        { s with chunkScanHint := idx }.readChunk decoder chunk numSamples =
          (.ok none, s.afterSkip chunk idx)) :=
  readChunk_cases decoder { s with chunkScanHint := idx } chunk numSamples

theorem readFound_served {s : RtsaSource} {chunk : Nat × SampChunk} {numSamples : Nat}
    (accepts : s.refuses chunk numSamples = false) (decoded : chunk.2.isDecoded = true)
    (plain : ¬rejectsCompression chunk.2) (servable : s.servable chunk numSamples = true)
    (idx : Nat) :
    { s with chunkScanHint := idx }.readChunk decoder chunk numSamples =
      (.ok (some (s.dataOf decoder chunk numSamples)), s.afterRead chunk idx numSamples) :=
  (readChunk_decoded decoder (s := { s with chunkScanHint := idx }) accepts decoded plain).trans
    (if_pos (of_decide_eq_true servable))

/-- Every chunk of the index lies where a seek can go. -/
def Seekable (s : RtsaSource) : Prop :=
  ∀ chunk ∈ s.sampChunkOffsets, chunk.1 + chunk.2.size < 2 ^ 63

theorem Seekable.same {s s' : RtsaSource} (seekable : s.Seekable) (same : SameFile s s') :
    s'.Seekable := by
  rw [Seekable, same.sampChunkOffsets]
  exact seekable

theorem readFound_passed {s : RtsaSource} {chunk : Nat × SampChunk} {numSamples : Nat}
    (seekable : s.Seekable) (member : chunk ∈ s.sampChunkOffsets)
    (undecoded : chunk.2.isDecoded = false) (accepts : s.refuses chunk numSamples = false)
    (idx : Nat) :
    { s with chunkScanHint := idx }.readChunk decoder chunk numSamples =
      (.ok none, s.afterSkip chunk idx) := by
  cases readChunk_undecoded decoder (s := { s with chunkScanHint := idx }) accepts undecoded with
  | inl passed => exact passed
  | inr far =>
      have near := seekable chunk member
      omega

/-- The chunks that end past the cursor: what a scan can still skip. -/
def pending (s : RtsaSource) : Nat :=
  s.sampChunkOffsets.countP fun chunk => decide (s.currentSampleIndex < s.endOf chunk)

theorem countP_lt {α : Type} {items : List α} {p q : α → Bool} {item : α}
    (narrower : ∀ x, q x = true → p x = true) (member : item ∈ items) (counted : p item = true)
    (dropped : q item = false) : items.countP q < items.countP p := by
  induction items with
  | nil => cases member
  | cons x items ih =>
      have rest : items.countP q ≤ items.countP p :=
        List.countP_mono_left fun y _ => narrower y
      rw [List.countP_cons, List.countP_cons]
      cases member with
      | head =>
          rw [if_pos counted, if_neg (by rw [dropped]; exact Bool.false_ne_true)]
          omega
      | tail _ later =>
          have fewer := ih later
          have head : (if q x = true then 1 else 0) ≤ if p x = true then 1 else 0 := by
            split
            · rw [if_pos (narrower x ‹_›)]
            · omega
          omega

/-- A chunk skipped is pending no more. -/
theorem pending_skip {s s' : RtsaSource} {chunk : Nat × SampChunk} (same : SameFile s s')
    (member : chunk ∈ s.sampChunkOffsets) (holds : s.currentSampleIndex < s.endOf chunk)
    (moved : s'.currentSampleIndex = s.endOf chunk) : s'.pending < s.pending := by
  rw [pending, pending, same.sampChunkOffsets]
  apply countP_lt _ member (decide_eq_true holds)
  · rw [same.endOf, moved]
    exact decide_eq_false (Nat.lt_irrefl _)
  · intro other later
    rw [same.endOf, moved, decide_eq_true_iff] at later
    exact decide_eq_true (by omega)

theorem readLoop_fuel (numSamples : Nat) (subStreamId : Option Nat) {fuel fuel' : Nat}
    {s : RtsaSource} (enough : s.pending < fuel) (enough' : s.pending < fuel') :
    readLoop decoder numSamples subStreamId fuel s =
      readLoop decoder numSamples subStreamId fuel' s := by
  induction fuel generalizing fuel' s with
  | zero => omega
  | succ fuel ih =>
      cases fuel' with
      | zero => omega
      | succ fuel' =>
          rw [readLoop, readLoop]
          cases found : s.findChunk subStreamId with
          | none => rfl
          | some hit =>
              obtain ⟨chunk, idx⟩ := hit
              obtain ⟨at_, selected⟩ := findChunk_some found
              have holds := (selects_iff.mp selected).2.2.1
              rcases readFound_cases decoder s chunk idx numSamples with failed | read | passed
              · obtain ⟨e, position, failed⟩ := failed
                simp only [failed]
              · simp only [read.2.2.2.2]
              · simp only [passed.2.2]
                have fewer := pending_skip (s.afterSkip_sameFile chunk idx)
                  (List.mem_of_getElem? at_) holds rfl
                exact ih (by omega) (by omega)

theorem readSamples_loop {s : RtsaSource} (standard : s.rawIqDataEndOffset = none)
    (numSamples : Nat) (subStreamId : Option Nat) :
    s.readSamples decoder numSamples subStreamId =
      readLoop decoder numSamples subStreamId (s.sampChunkOffsets.length + 1) s := by
  rw [readSamples, standard]
  rfl

/-- A read of a file with SAMP chunks, one chunk of its scan at a time. -/
theorem readSamples_eq {s : RtsaSource} (standard : s.rawIqDataEndOffset = none)
    (numSamples : Nat) (subStreamId : Option Nat) :
    s.readSamples decoder numSamples subStreamId =
      match s.findChunk subStreamId with
      | none => (.ok none, s)
      | some (chunk, idx) =>
          match { s with chunkScanHint := idx }.readChunk decoder chunk numSamples with
          | (.error e, s') => (.error e, s')
          | (.ok (some data), s') => (.ok (some data), s')
          | (.ok none, s') => s'.readSamples decoder numSamples subStreamId := by
  rw [readSamples_loop decoder standard, readLoop]
  cases found : s.findChunk subStreamId with
  | none => rfl
  | some hit =>
      obtain ⟨chunk, idx⟩ := hit
      obtain ⟨at_, selected⟩ := findChunk_some found
      have holds := (selects_iff.mp selected).2.2.1
      rcases readFound_cases decoder s chunk idx numSamples with failed | read | passed
      · obtain ⟨e, position, failed⟩ := failed
        simp only [failed]
      · simp only [read.2.2.2.2]
      · have fewer := pending_skip (s.afterSkip_sameFile chunk idx)
          (List.mem_of_getElem? at_) holds rfl
        have bound : s.pending ≤ s.sampChunkOffsets.length := List.countP_le_length
        have later : (s.afterSkip chunk idx).rawIqDataEndOffset = none := standard
        simp only [passed.2.2, readSamples_loop decoder later]
        exact readLoop_fuel decoder numSamples subStreamId (by omega) (by
          rw [(s.afterSkip_sameFile chunk idx).sampChunkOffsets]
          omega)

/-! ## The file under a run -/

theorem readSamples_sameFile (s : RtsaSource) (numSamples : Nat) (subStreamId : Option Nat) :
    SameFile s (s.readSamples decoder numSamples subStreamId).2 := by
  rw [readSamples]
  split
  · rw [readRawIqSamples]
    split
    · exact SameFile.refl s
    · simp only
      split
      · exact SameFile.refl s
      · cases s.reader.seekStart_cases (s.currentSampleIndex * 8 % 2 ^ 64) with
        | inr far =>
            rw [far.2]
            exact SameFile.refl s
        | inl near =>
            rw [near.2]
            simp only [FileReader.readIqF32]
            rcases FileReader.readDecoded_cases _ _ _ with read | read
            · rw [read.2]
              exact ⟨rfl, rfl, rfl, rfl, rfl, rfl, rfl⟩
            · rw [read.2]
              exact ⟨rfl, rfl, rfl, rfl, rfl, rfl, rfl⟩
  · generalize s.sampChunkOffsets.length + 1 = fuel
    induction fuel generalizing s with
    | zero => exact SameFile.refl s
    | succ fuel ih =>
        rw [readLoop]
        cases s.findChunk subStreamId with
        | none => exact SameFile.refl s
        | some hit =>
            obtain ⟨chunk, idx⟩ := hit
            rcases readFound_cases decoder s chunk idx numSamples with failed | read | passed
            · obtain ⟨e, position, failed⟩ := failed
              simp only [failed]
              exact ⟨rfl, rfl, rfl, rfl, rfl, rfl, rfl⟩
            · simp only [read.2.2.2.2]
              exact s.afterRead_sameFile chunk idx numSamples
            · simp only [passed.2.2]
              exact (s.afterSkip_sameFile chunk idx).trans (ih _ ‹_›)

theorem seekStart_bytes {f f' : FileReader} {position : Nat}
    (moved : f.seekStart position = .ok f') : f'.bytes = f.bytes := by
  rcases f.seekStart_cases position with near | far
  · rw [near.2] at moved
    cases moved
    rfl
  · rw [far.2] at moved
    cases moved

theorem seekToSample_sameFile (s : RtsaSource) (sampleIndex : Nat) :
    SameFile s (s.seekToSample sampleIndex).2 := by
  rw [seekToSample]
  split
  · exact SameFile.refl s
  · split
    · exact ⟨rfl, rfl, rfl, rfl, rfl, rfl, rfl⟩
    · simp only
      split
      · exact SameFile.refl s
      · split
        · exact SameFile.refl s
        · exact ⟨seekStart_bytes ‹_›, rfl, rfl, rfl, rfl, rfl, rfl⟩

theorem reset_sameFile (s : RtsaSource) : SameFile s s.reset.2 := by
  rw [reset]
  simp only
  split
  · exact ⟨rfl, rfl, rfl, rfl, rfl, rfl, rfl⟩
  · exact ⟨seekStart_bytes ‹_›, rfl, rfl, rfl, rfl, rfl, rfl⟩

theorem call_sameFile (s : RtsaSource) (c : RtsaCall) : SameFile s (s.call decoder c) := by
  cases c with
  | readSamples numSamples subStreamId =>
      exact readSamples_sameFile decoder s numSamples subStreamId
  | seekToSample sampleIndex => exact seekToSample_sameFile s sampleIndex
  | reset => exact reset_sameFile s

end RtsaSource

end SdrAaronia
