import SdrAaronia.FileSource.Scan

/-! # Reads stay inside the chunk

The size caps a read of an uncompressed chunk.  A negative compression field
passes for uncompressed everywhere but at that cap.
-/

namespace SdrAaronia

open HttpStreaming

namespace RtsaSource

variable {Real Sample : Type} (decoder : SampleDecoder Real Sample)

/-! ## The chunk a read is served from -/

/-- The scan of a read passes the chunks that are not decoded and gets to one that
is; `s'` is the source by then. -/
inductive Reaches (numSamples : Nat) (subStreamId : Option Nat) :
    RtsaSource → Nat × SampChunk → RtsaSource → Prop where
  | found {s : RtsaSource} {chunk : Nat × SampChunk} {idx : Nat}
      (hit : s.findChunk subStreamId = some (chunk, idx))
      (decoded : chunk.2.isDecoded = true) : Reaches numSamples subStreamId s chunk s
  | passed {s s' : RtsaSource} {chunk chunk' : Nat × SampChunk} {idx : Nat}
      (hit : s.findChunk subStreamId = some (chunk, idx))
      (undecoded : chunk.2.isDecoded = false) (accepts : s.refuses chunk numSamples = false)
      (later : Reaches numSamples subStreamId (s.afterSkip chunk idx) chunk' s') :
      Reaches numSamples subStreamId s chunk' s'

variable {numSamples : Nat} {subStreamId : Option Nat}

theorem Reaches.unique {s s₁ s₂ : RtsaSource} {chunk₁ chunk₂ : Nat × SampChunk}
    (first : Reaches numSamples subStreamId s chunk₁ s₁)
    (second : Reaches numSamples subStreamId s chunk₂ s₂) : chunk₁ = chunk₂ ∧ s₁ = s₂ := by
  induction first with
  | found hit decoded =>
      cases second with
      | found hit' decoded' =>
          rw [hit] at hit'
          cases hit'
          exact ⟨rfl, rfl⟩
      | passed hit' undecoded =>
          rw [hit] at hit'
          cases hit'
          rw [decoded] at undecoded
          cases undecoded
  | passed hit undecoded accepts later ih =>
      cases second with
      | found hit' decoded =>
          rw [hit] at hit'
          cases hit'
          rw [decoded] at undecoded
          cases undecoded
      | passed hit' _ _ later' =>
          rw [hit] at hit'
          cases hit'
          exact ih later'

theorem Reaches.frame {s s' : RtsaSource} {chunk : Nat × SampChunk}
    (reaches : Reaches numSamples subStreamId s chunk s') :
    SameFile s s' ∧ s'.reader.served = s.reader.served ∧ chunk ∈ s.sampChunkOffsets ∧
      chunk.2.isDecoded = true ∧ s'.selects subStreamId chunk = true := by
  induction reaches with
  | found hit decoded =>
      obtain ⟨at_, selected⟩ := findChunk_some hit
      exact ⟨SameFile.refl _, rfl, List.mem_of_getElem? at_, decoded, selected⟩
  | passed hit undecoded accepts later ih =>
      obtain ⟨same, served, member, rest⟩ := ih
      exact ⟨(afterSkip_sameFile _ _ _).trans same, served, member, rest⟩

/-- A read that returns samples took them from the chunk its scan got to. -/
theorem read_served {s s' : RtsaSource} {data : SampleData Real Sample}
    (standard : s.rawIqDataEndOffset = none)
    (read : s.readSamples decoder numSamples subStreamId = (.ok (some data), s')) :
    ∃ chunk found idx, Reaches numSamples subStreamId s chunk found ∧
      found.refuses chunk numSamples = false ∧ ¬rejectsCompression chunk.2 ∧
      found.servable chunk numSamples = true ∧ data = found.dataOf decoder chunk numSamples ∧
      s' = found.afterRead chunk idx numSamples := by
  induction left : s.pending using Nat.strong_induction_on generalizing s with
  | _ k ih =>
      rw [readSamples_eq decoder standard] at read
      cases hit : s.findChunk subStreamId with
      | none => simp [hit] at read
      | some entry =>
          obtain ⟨chunk, idx⟩ := entry
          obtain ⟨at_, selected⟩ := findChunk_some hit
          have holds := (selects_iff.mp selected).2.2.1
          simp only [hit] at read
          rcases readFound_cases decoder s chunk idx numSamples with failed | served | passed
          · obtain ⟨e, position, failed⟩ := failed
            simp [failed] at read
          · obtain ⟨accepts, decoded, plain, servable, served⟩ := served
            simp only [served, Prod.mk.injEq, Except.ok.injEq, Option.some.injEq] at read
            exact ⟨chunk, s, idx, .found hit decoded, accepts, plain, servable, read.1.symm,
              read.2.symm⟩
          · obtain ⟨accepts, undecoded, passed⟩ := passed
            simp only [passed] at read
            have fewer := pending_skip (s.afterSkip_sameFile chunk idx)
              (List.mem_of_getElem? at_) holds rfl
            have later : (s.afterSkip chunk idx).rawIqDataEndOffset = none := standard
            obtain ⟨chunk', found, idx', reaches, rest⟩ :=
              ih (s.afterSkip chunk idx).pending (by omega) later read rfl
            exact ⟨chunk', found, idx', .passed hit undecoded accepts reaches, rest⟩

/-- A read is served by the chunk its scan gets to, if nothing refuses it there. -/
theorem read_reached {s found : RtsaSource} {chunk : Nat × SampChunk}
    (standard : s.rawIqDataEndOffset = none) (seekable : s.Seekable)
    (reaches : Reaches numSamples subStreamId s chunk found)
    (accepts : found.refuses chunk numSamples = false) (plain : ¬rejectsCompression chunk.2)
    (servable : found.servable chunk numSamples = true) :
    ∃ idx, s.readSamples decoder numSamples subStreamId =
      (.ok (some (found.dataOf decoder chunk numSamples)),
        found.afterRead chunk idx numSamples) := by
  induction reaches with
  | @found s chunk idx hit decoded =>
      have served := readFound_served decoder accepts decoded plain servable idx
      refine ⟨idx, ?_⟩
      rw [readSamples_eq decoder standard]
      simp only [hit, served]
  | @passed s found chunk chunk' idx hit undecoded accepted later ih =>
      obtain ⟨at_, -⟩ := findChunk_some hit
      have passed := readFound_passed decoder seekable (List.mem_of_getElem? at_) undecoded
        accepted idx
      obtain ⟨idx', read⟩ := ih standard (seekable.same (afterSkip_sameFile s chunk idx))
        accepts plain servable
      refine ⟨idx', ?_⟩
      rw [readSamples_eq decoder standard]
      simp only [hit, passed, read]

end RtsaSource

/-! ## Accepted files -/

namespace RtsaSource

/-- What an accepted file keeps to for as long as it is open. -/
structure Accepted (s : RtsaSource) : Prop where
  bytes_lt : s.reader.bytes.length + 2 ^ 32 ≤ 2 ^ 63
  inFile : ∀ chunk ∈ s.sampChunkOffsets, chunk.1 < s.reader.bytes.length
  plainIq : isCompressedIq s.sampChunkOffsets = false

theorem Accepted.same {s s' : RtsaSource} (accepted : s.Accepted) (same : SameFile s s') :
    s'.Accepted where
  bytes_lt := by
    rw [same.bytes]
    exact accepted.bytes_lt
  inFile := by
    rw [same.bytes, same.sampChunkOffsets]
    exact accepted.inFile
  plainIq := by
    rw [same.sampChunkOffsets]
    exact accepted.plainIq

theorem Accepted.seekable {s : RtsaSource} (accepted : s.Accepted) : s.Seekable := by
  intro chunk member
  have within := accepted.inFile chunk member
  have narrow := chunk.2.size_lt
  have bytes_lt := accepted.bytes_lt
  omega

theorem accepted_ofParse {parsed : RtsaParse} (iqStreamId : Nat)
    (plain : isCompressedIq parsed.sampChunkOffsets = false) :
    (ofParse parsed iqStreamId).Accepted := ⟨parsed.bytes_lt, parsed.inFile, plain⟩

theorem openFile_accepted {parsed : RtsaParse} {tool : ToolRun} {s : RtsaSource}
    (opened : openFile parsed tool = .ok s) : s.Accepted := by
  unfold openFile at opened
  split at opened
  · cases opened
  · split at opened
    · split at opened
      · cases opened
      · cases opened
      · split at opened
        · cases opened
        · split at opened
          · cases opened
          · cases opened
            exact accepted_ofParse _ (Bool.eq_false_of_not_eq_true ‹_›)
    · cases opened
      exact accepted_ofParse _ (Bool.eq_false_of_not_eq_true ‹_›)

/-- Outside an accepted file's IQ, a positive compression field is rejected. -/
theorem Accepted.compression_le {s : RtsaSource} (accepted : s.Accepted)
    {chunk : Nat × SampChunk} (member : chunk ∈ s.sampChunkOffsets)
    (decoded : chunk.2.isDecoded = true) (plain : ¬rejectsCompression chunk.2) :
    chunk.2.compression ≤ 0 := by
  cases SampChunk.isDecoded_payload decoded with
  | inl iq =>
      have plainIq := accepted.plainIq
      simp only [isCompressedIq, List.any_eq_false, decide_eq_true_eq] at plainIq
      have uncompressed := plainIq chunk member
      simp only [iq, true_and] at uncompressed
      omega
  | inr spectra =>
      simp only [SampChunk.isDecoded, spectra] at decoded
      have uncompressed : ¬0 < chunk.2.compression := fun positive => plain ⟨decoded, positive⟩
      omega

end RtsaSource

/-! ## The bytes of a read -/

namespace SampleData

variable {Real Sample : Type}

/-- A spectrum of `sampleSize` values is one sample. -/
def sampleCount (c : SampChunk) : SampleData Real Sample → Nat
  | .iq samples => samples.length
  | .spectra values => values.length / c.sampleSize

end SampleData

namespace RtsaSource

variable {Real Sample : Type} (decoder : SampleDecoder Real Sample)

/-- A read of the span touches no byte outside the chunk's payload. -/
def WithinChunk (chunk : Nat × SampChunk) (span : Nat × Nat) : Prop :=
  span.2 = 0 ∨
    (chunk.1 + chunk.2.headerSize ≤ span.1 ∧ span.1 + span.2 ≤ chunk.1 + chunk.2.size)

/-- Payload bytes past the cursor, by the chunk's declared size. -/
def payloadLeft (s : RtsaSource) (chunk : Nat × SampChunk) : Nat :=
  chunk.2.size - chunk.2.headerSize - chunk.2.bytesToSkip (s.samplesBefore chunk.1)

/-- Bytes that a read of the chunk goes for. -/
def byteCount (s : RtsaSource) (chunk : Nat × SampChunk) (numSamples : Nat) : Nat :=
  s.toRead chunk numSamples * chunk.2.sampleStrideBytes

/-- Whatever samples the call returns, their bytes are the chunk's. -/
def ReadsInside (s : RtsaSource) : RtsaCall → Prop
  | .readSamples numSamples subStreamId =>
      s.rawIqDataEndOffset = none → ∀ (data : SampleData Real Sample) (s' : RtsaSource),
        s.readSamples decoder numSamples subStreamId = (.ok (some data), s') →
          ∃ chunk found, Reaches numSamples subStreamId s chunk found ∧
            (∀ span ∈ s'.reader.served.drop s.reader.served.length, WithinChunk chunk span) ∧
            data.sampleCount chunk.2 * chunk.2.sampleStrideBytes ≤ found.payloadLeft chunk
  | _ => True

/-- The compression field is negative, nothing refuses the read, and its bytes,
which the file has, end behind the chunk. -/
def ReadsPast (s : RtsaSource) (chunk : Nat × SampChunk) (numSamples : Nat) : Prop :=
  chunk.2.compression < 0 ∧ s.refuses chunk numSamples = false ∧
    s.servable chunk numSamples = true ∧ 0 < s.byteCount chunk numSamples ∧
    chunk.2.size < chunk.2.headerSize + chunk.2.bytesToSkip (s.samplesBefore chunk.1) +
      s.byteCount chunk numSamples

/-- No read gets to a chunk that it runs past. -/
def Contained (s : RtsaSource) : RtsaCall → Prop
  | .readSamples numSamples subStreamId =>
      s.rawIqDataEndOffset = none → ∀ chunk found,
        Reaches numSamples subStreamId s chunk found → ¬found.ReadsPast chunk numSamples
  | _ => True

/-- Every call of the run, at the state it meets, satisfies `P`. -/
def Throughout (P : RtsaSource → RtsaCall → Prop) : RtsaSource → List RtsaCall → Prop
  | _, [] => True
  | s, c :: calls => P s c ∧ Throughout P (s.call decoder c) calls

theorem sampleCount_dataOf {s : RtsaSource} {chunk : Nat × SampChunk} {numSamples : Nat}
    (paired : chunk.2.pairMismatch = false) (decoded : chunk.2.isDecoded = true)
    (servable : s.servable chunk numSamples = true) :
    (s.dataOf decoder chunk numSamples).sampleCount chunk.2 * chunk.2.sampleStrideBytes =
      s.byteCount chunk numSamples := by
  have taken : ((s.reader.bytes.drop (s.dataStart chunk)).take
      (s.toRead chunk numSamples * chunk.2.sampleStrideBytes)).length =
        s.toRead chunk numSamples * chunk.2.sampleStrideBytes := by
    have held := of_decide_eq_true servable
    rw [List.length_take, List.length_drop]
    omega
  rw [byteCount]
  cases SampChunk.isDecoded_payload decoded with
  | inl iq =>
      have stride := SampChunk.stride_iq paired iq decoded
      simp only [dataOf, payloadData, iq, SampleData.sampleCount]
      split at stride
      · rw [if_pos ‹_›, List.length_map, SampleDecoder.asChunks_length_eq (by omega)
          (taken.trans (by rw [stride]))]
      · rw [if_neg ‹_›, List.length_map, SampleDecoder.asChunks_length_eq (by omega)
          (taken.trans (by rw [stride]))]
  | inr spectra =>
      have stride := SampChunk.stride_spectra spectra decoded
      have split : s.toRead chunk numSamples * chunk.2.sampleStrideBytes =
          s.toRead chunk numSamples * chunk.2.sampleSize * 4 := by
        rw [stride, Nat.mul_assoc]
      simp only [dataOf, payloadData, spectra, SampleData.sampleCount]
      rw [List.length_map, SampleDecoder.asChunks_length_eq (by omega) (taken.trans split)]
      cases Nat.eq_zero_or_pos chunk.2.sampleSize with
      | inl empty => rw [stride, empty, Nat.zero_mul, Nat.mul_zero, Nat.mul_zero]
      | inr bins => rw [Nat.mul_div_cancel _ bins]

/-- The cap leaves an uncompressed chunk's read inside its size. -/
theorem byteCount_capped {s : RtsaSource} {chunk : Nat × SampChunk} {numSamples : Nat}
    (plain : chunk.2.compression = 0) :
    s.byteCount chunk numSamples ≤ s.payloadLeft chunk := by
  have capped : s.toRead chunk numSamples ≤
      s.payloadLeft chunk / chunk.2.sampleStrideBytes := by
    rw [toRead, SampChunk.toRead, if_pos plain, SampChunk.fits, ← payloadLeft]
    omega
  exact (Nat.mul_le_mul_right _ capped).trans (Nat.div_mul_le_self _ _)

theorem withinChunk_of_left {s : RtsaSource} {chunk : Nat × SampChunk} {numSamples : Nat}
    (seekable : chunk.1 + chunk.2.size < 2 ^ 63)
    (fits : s.byteCount chunk numSamples ≤ s.payloadLeft chunk) :
    WithinChunk chunk (s.dataStart chunk, s.byteCount chunk numSamples) := by
  cases Nat.eq_zero_or_pos (s.byteCount chunk numSamples) with
  | inl none => exact Or.inl none
  | inr some =>
      rw [payloadLeft] at fits
      have unwrapped : s.dataStart chunk = chunk.1 + chunk.2.headerSize +
          chunk.2.bytesToSkip (s.samplesBefore chunk.1) :=
        Nat.mod_eq_of_lt (by omega)
      right
      simp only [unwrapped]
      omega

/-- A read that nothing refuses stays inside the chunk unless it is one that runs
past it. -/
theorem fits_of_not_past {s : RtsaSource} (accepted : s.Accepted) {chunk : Nat × SampChunk}
    {numSamples : Nat} (member : chunk ∈ s.sampChunkOffsets)
    (decoded : chunk.2.isDecoded = true) (plain : ¬rejectsCompression chunk.2)
    (accepts : s.refuses chunk numSamples = false)
    (servable : s.servable chunk numSamples = true) (contained : ¬s.ReadsPast chunk numSamples) :
    s.byteCount chunk numSamples ≤ s.payloadLeft chunk := by
  have nonpositive := accepted.compression_le member decoded plain
  rcases Nat.eq_zero_or_pos (s.byteCount chunk numSamples) with none | some
  · omega
  · by_cases zero : chunk.2.compression = 0
    · exact byteCount_capped zero
    · have short : ¬chunk.2.size < chunk.2.headerSize +
          chunk.2.bytesToSkip (s.samplesBefore chunk.1) + s.byteCount chunk numSamples :=
        fun past => contained ⟨by omega, accepts, servable, some, past⟩
      rw [payloadLeft]
      omega

/-! ## Reads of a run -/

theorem readsInside_iff {s : RtsaSource} (accepted : s.Accepted) (c : RtsaCall) :
    s.ReadsInside decoder c ↔ s.Contained c := by
  cases c with
  | seekToSample sampleIndex => exact Iff.rfl
  | reset => exact Iff.rfl
  | readSamples numSamples subStreamId =>
      constructor
      · intro inside standard chunk found reaches past
        obtain ⟨negative, accepts, servable, some, past⟩ := past
        obtain ⟨same, -, member, decoded, -⟩ := reaches.frame
        have plain : ¬rejectsCompression chunk.2 := fun compressed => by
          have positive := compressed.2
          omega
        obtain ⟨idx, read⟩ :=
          read_reached decoder standard accepted.seekable reaches accepts plain servable
        obtain ⟨chunk', found', reaches', -, bound⟩ := inside standard _ _ read
        obtain ⟨rfl, rfl⟩ := reaches.unique reaches'
        rw [sampleCount_dataOf decoder (refuses_false accepts).1 decoded servable,
          payloadLeft] at bound
        omega
      · intro contained standard data s' read
        obtain ⟨chunk, found, idx, reaches, accepts, plain, servable, rfl, rfl⟩ :=
          read_served decoder standard read
        obtain ⟨same, served, member, decoded, -⟩ := reaches.frame
        have foundMember : chunk ∈ found.sampChunkOffsets := same.sampChunkOffsets ▸ member
        have fits := fits_of_not_past (accepted.same same) foundMember decoded plain accepts
          servable (contained standard chunk found reaches)
        refine ⟨chunk, found, reaches, ?_, ?_⟩
        · have near := (accepted.same same).seekable chunk foundMember
          have spans : (found.afterRead chunk idx numSamples).reader.served =
              s.reader.served ++ [(found.dataStart chunk, found.byteCount chunk numSamples)] := by
            rw [← served]
            rfl
          rw [spans, List.drop_left]
          intro span newest
          rw [List.mem_singleton.mp newest]
          exact withinChunk_of_left near fits
        · rw [sampleCount_dataOf decoder (refuses_false accepts).1 decoded servable]
          exact fits

/-- The reads of a run all stay inside their chunks exactly when none gets to a
chunk of negative compression that it runs past. -/
theorem reads_inside_iff {parsed : RtsaParse} {tool : ToolRun} {s : RtsaSource}
    (opened : openFile parsed tool = .ok s) (calls : List RtsaCall) :
    Throughout decoder (ReadsInside decoder) s calls ↔ Throughout decoder Contained s calls := by
  have accepted := openFile_accepted opened
  clear opened
  induction calls generalizing s with
  | nil => exact Iff.rfl
  | cons c calls ih =>
      exact and_congr (readsInside_iff decoder accepted c)
        (ih (accepted.same (call_sameFile decoder s c)))

/-- Two chunks that declare two samples in the space of one. -/
def shortFile (compression : Int) : RtsaParse :=
  smallFile (smallChunk .f32 .iq compression 2) (smallChunk .f32 .iq compression 2)

/-- With the field at zero the read stops at the chunk's end. -/
theorem reads_inside_iff_shortFile :
    openFile (shortFile 0) .missing = .ok (ofParse (shortFile 0) 1) ∧
      Throughout rawDecoder (ReadsInside rawDecoder) (ofParse (shortFile 0) 1)
        [.readSamples 2 none, .reset] := by
  have opened : openFile (shortFile 0) .missing = .ok (ofParse (shortFile 0) 1) := rfl
  refine ⟨opened, (reads_inside_iff rawDecoder opened _).mpr ⟨?_, trivial, trivial⟩⟩
  intro _ chunk found reaches past
  obtain ⟨same, -, member, -⟩ := reaches.frame
  have listed : chunk ∈ (shortFile 0).sampChunkOffsets := member
  simp only [shortFile, smallFile, smallChunk, List.mem_cons, List.not_mem_nil, or_false] at listed
  have negative := past.1
  rcases listed with rfl | rfl <;> simp at negative

/-- With a negative field the read takes its second sample from the header of the
chunk behind. -/
theorem negative_compression_reads_past :
    openFile (shortFile (-1)) .missing = .ok (ofParse (shortFile (-1)) 1) ∧
      ¬Throughout rawDecoder (ReadsInside rawDecoder) (ofParse (shortFile (-1)) 1)
        [.readSamples 2 none] := by
  have opened : openFile (shortFile (-1)) .missing = .ok (ofParse (shortFile (-1)) 1) := rfl
  refine ⟨opened, fun inside => ?_⟩
  have found : (ofParse (shortFile (-1)) 1).findChunk none =
      some ((304, smallChunk .f32 .iq (-1) 2), 0) := rfl
  have contained := (readsInside_iff rawDecoder (openFile_accepted opened) _).mp inside.1
  exact contained rfl _ _ (.found found rfl)
    ⟨by decide, by decide +kernel, by decide +kernel, by decide +kernel, by decide +kernel⟩

end RtsaSource

end SdrAaronia
