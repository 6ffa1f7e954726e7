import SdrAaronia.FileSource.Bounds
import SdrAaronia.FileSource.Resume

/-! # The arithmetic of reads and seeks

Both place the reader by the samples in front of the cursor times the bytes of
one, in 64 bits, and nothing holds that product to them.  The rest stays in range
as long as no sub-stream counts 2⁶⁴ samples.
-/

namespace SdrAaronia

open HttpStreaming

def FitU64 (numbers : List Nat) : Prop := ∀ n ∈ numbers, n < 2 ^ 64

theorem fitU64_append {first second : List Nat} :
    FitU64 (first ++ second) ↔ FitU64 first ∧ FitU64 second :=
  List.forall_mem_append

theorem fitU64_map {α : Type} {f : α → Nat} {items : List α} :
    FitU64 (items.map f) ↔ ∀ item ∈ items, f item < 2 ^ 64 :=
  List.forall_mem_map

/-- What a search looks at, up to the item it takes. -/
def searched {α : Type} (p : α → Bool) (items : List α) : List α :=
  items.take (items.findIdx p + 1)

section Search

variable {α : Type} {p : α → Bool} {items : List α} {item : α}

theorem mem_of_searched (seen : item ∈ searched p items) : item ∈ items :=
  List.mem_of_mem_take seen

theorem find?_searched (found : items.find? p = some item) : item ∈ searched p items := by
  obtain ⟨taken, before, after, rfl, passed⟩ := List.find?_eq_some_iff_append.mp found
  have none : ∀ x ∈ before, p x = false := fun x member => by
    simpa using passed x member
  have place : (before ++ item :: after).findIdx p = before.length := by
    rw [List.findIdx_append, List.findIdx_eq_length.mpr none, if_neg (Nat.lt_irrefl _),
      List.findIdx_cons, taken, cond_true, Nat.zero_add]
  rw [searched, place, List.take_length_add_append]
  simp

end Search

namespace SampChunk

/-- The products and sums that place the reader some samples into the chunk at an
offset. -/
def placeSums (offset : Nat) (c : SampChunk) (samplesInto : Nat) : List Nat :=
  [c.sampleStrideBytes, samplesInto * c.sampleStrideBytes, offset + c.headerSize,
    offset + c.headerSize + samplesInto * c.sampleStrideBytes]

/-- How many samples into the chunk at an offset a 64-bit place can be. -/
def reach (offset : Nat) (c : SampChunk) : Nat :=
  (2 ^ 64 - 1 - (offset + c.headerSize)) / c.sampleStrideBytes

/-- Samples without bytes are all within reach. -/
def WithinReach (offset : Nat) (c : SampChunk) (samplesInto : Nat) : Prop :=
  c.sampleStrideBytes = 0 ∨ samplesInto ≤ c.reach offset

theorem WithinReach.mono {offset : Nat} {c : SampChunk} {first last : Nat}
    (within : c.WithinReach offset last) (before : first ≤ last) : c.WithinReach offset first :=
  within.imp_right before.trans

theorem valueBytes_le (c : SampChunk) : c.valueBytes ≤ 4 := by
  rw [valueBytes]
  split <;> decide

theorem sampleStrideBytes_lt (c : SampChunk) : c.sampleStrideBytes < 2 ^ 34 := by
  have narrow := c.sampleSize_lt
  have wide : c.sampleSize * c.valueBytes ≤ c.sampleSize * 4 :=
    Nat.mul_le_mul_left _ c.valueBytes_le
  rw [sampleStrideBytes]
  omega

theorem withinReach_iff {offset : Nat} {c : SampChunk} (near : offset < 2 ^ 63)
    (samplesInto : Nat) :
    c.WithinReach offset samplesInto ↔
      offset + c.headerSize + samplesInto * c.sampleStrideBytes < 2 ^ 64 := by
  have narrow := c.headerSize_lt
  rw [WithinReach]
  cases Nat.eq_zero_or_pos c.sampleStrideBytes with
  | inl empty =>
      rw [empty, Nat.mul_zero]
      exact iff_of_true (.inl rfl) (by omega)
  | inr stride =>
      rw [reach, Nat.le_div_iff_mul_le stride]
      generalize samplesInto * c.sampleStrideBytes = skipped
      omega

theorem placeSums_fit_iff {offset : Nat} {c : SampChunk} (near : offset < 2 ^ 63)
    (samplesInto : Nat) :
    FitU64 (c.placeSums offset samplesInto) ↔ c.WithinReach offset samplesInto := by
  have narrow := c.headerSize_lt
  have stride := c.sampleStrideBytes_lt
  rw [withinReach_iff near]
  simp only [FitU64, placeSums, List.mem_cons, List.not_mem_nil, or_false, forall_eq_or_imp,
    forall_eq]
  omega

theorem toRead_le (c : SampChunk) (samplesBefore numSamples : Nat) :
    c.toRead samplesBefore numSamples ≤ c.wanted samplesBefore numSamples := by
  rw [toRead]
  split
  · exact Nat.min_le_left _ _
  · exact Nat.le_refl _

end SampChunk

namespace RtsaSource

variable {Real Sample : Type} (decoder : SampleDecoder Real Sample)

/-! ## What a call forms -/

/-- The chunk passes the filter of a read. -/
def passes (s : RtsaSource) (subStreamId : Option Nat) (chunk : Nat × SampChunk) : Bool :=
  decide (chunk.2.streamId = s.iqStreamId ∧
    (subStreamId = none ∨ subStreamId = some chunk.2.subStreamId))

/-- The chunks whose last sample a scan works out. -/
def scanned (s : RtsaSource) (subStreamId : Option Nat) : List (Nat × SampChunk) :=
  let chunks := s.sampChunkOffsets.zipIdx
  let hint := min s.chunkScanHint chunks.length
  let seen := searched (fun chunk => s.selects subStreamId chunk.1)
    (chunks.drop hint ++ chunks.take hint)
  (seen.map (·.1)).filter (s.passes subStreamId)

/-- The products and sums of one scan and of the chunk it finds, whichever of them its
payload asks for. -/
def scanSums (s : RtsaSource) (numSamples : Nat) (subStreamId : Option Nat) : List Nat :=
  (s.scanned subStreamId).map s.endOf ++
    match s.findChunk subStreamId with
    | none => []
    | some (chunk, _) =>
        -- The pairs are counted before anything is placed.
        if chunk.2.pairMismatch then []
        else
          chunk.2.placeSums chunk.1 (s.currentSampleIndex - s.startOf chunk.1) ++
            [s.toRead chunk numSamples * chunk.2.sampleSize, chunk.1 + chunk.2.size,
              s.currentSampleIndex + s.toRead chunk numSamples, s.endOf chunk]

/-- The chunk is of the stream played and has the sample. -/
def holds (s : RtsaSource) (sampleIndex : Nat) (chunk : Nat × SampChunk) : Bool :=
  decide (chunk.2.streamId = s.iqStreamId ∧ s.startOf chunk.1 ≤ sampleIndex ∧
    sampleIndex < s.endOf chunk)

/-- The chunks whose last sample a seek works out. -/
def sought (s : RtsaSource) (sampleIndex : Nat) : List (Nat × SampChunk) :=
  (searched (s.holds sampleIndex) s.sampChunkOffsets).filter (s.passes none)

def seekSums (s : RtsaSource) (sampleIndex : Nat) : List Nat :=
  (s.sought sampleIndex).map s.endOf ++
    match s.sampChunkOffsets.find? (s.holds sampleIndex) with
    | none => []
    | some chunk => chunk.2.placeSums chunk.1 (sampleIndex - s.startOf chunk.1)

/-- Whatever the call forms is a 64-bit number, and the samples that a read has in
front of it in its chunk a 32-bit one. -/
def InRange (s : RtsaSource) : RtsaCall → Prop
  | .readSamples numSamples subStreamId =>
      s.rawIqDataEndOffset = none → ∀ t, Scanning decoder numSamples subStreamId s t →
        FitU64 (t.scanSums numSamples subStreamId) ∧
          ∀ chunk idx, t.findChunk subStreamId = some (chunk, idx) →
            t.currentSampleIndex - t.startOf chunk.1 < 2 ^ 32
  | .seekToSample sampleIndex =>
      s.rawIqDataEndOffset = none → sampleIndex < s.totalSamples → FitU64 (s.seekSums sampleIndex)
  | .reset => True

/-- The sample that the call is after lies within reach of the chunk it is in, and the
chunks on the way to it end below sample 2⁶⁴. -/
def LandsNear (s : RtsaSource) : RtsaCall → Prop
  | .readSamples numSamples subStreamId =>
      s.rawIqDataEndOffset = none → ∀ t, Scanning decoder numSamples subStreamId s t →
        (∀ chunk ∈ t.scanned subStreamId, t.endOf chunk < 2 ^ 64) ∧
          ∀ chunk idx, t.findChunk subStreamId = some (chunk, idx) →
            chunk.2.pairMismatch = false →
              chunk.2.WithinReach chunk.1 (t.currentSampleIndex - t.startOf chunk.1)
  | .seekToSample sampleIndex =>
      s.rawIqDataEndOffset = none → sampleIndex < s.totalSamples →
        (∀ chunk ∈ s.sought sampleIndex, s.endOf chunk < 2 ^ 64) ∧
          ∀ chunk, s.sampChunkOffsets.find? (s.holds sampleIndex) = some chunk →
            chunk.2.WithinReach chunk.1 (sampleIndex - s.startOf chunk.1)
  | .reset => True

/-- Every sample of the chunk lies within reach. -/
def Addressable (s : RtsaSource) (chunk : Nat × SampChunk) : Prop :=
  s.endOf chunk < 2 ^ 64 ∧ chunk.2.WithinReach chunk.1 (chunk.2.numSamples - 1)

/-! ## One call -/

theorem passes_iff {s : RtsaSource} {subStreamId : Option Nat} {chunk : Nat × SampChunk} :
    s.passes subStreamId chunk = true ↔ chunk.2.streamId = s.iqStreamId ∧
      (subStreamId = none ∨ subStreamId = some chunk.2.subStreamId) :=
  decide_eq_true_iff

theorem holds_iff {s : RtsaSource} {sampleIndex : Nat} {chunk : Nat × SampChunk} :
    s.holds sampleIndex chunk = true ↔ chunk.2.streamId = s.iqStreamId ∧
      s.startOf chunk.1 ≤ sampleIndex ∧ sampleIndex < s.endOf chunk :=
  decide_eq_true_iff

/-- What a read works out about the chunk that holds the cursor. -/
theorem found_bounds {t : RtsaSource} {subStreamId : Option Nat} {chunk : Nat × SampChunk}
    {idx : Nat} (found : t.findChunk subStreamId = some (chunk, idx)) (numSamples : Nat) :
    t.currentSampleIndex - t.startOf chunk.1 < 2 ^ 32 ∧
      t.currentSampleIndex + t.toRead chunk numSamples ≤ t.endOf chunk ∧
      t.toRead chunk numSamples < 2 ^ 32 := by
  obtain ⟨stream, -, past, reached⟩ := selects_iff.mp (findChunk_some found).2
  have selected : t.selects none chunk = true := selects_iff.mpr ⟨stream, .inl rfl, past, reached⟩
  obtain ⟨-, -, before⟩ := selected_before selected
  have few := chunk.2.numSamples_lt
  have capped := chunk.2.toRead_le (t.samplesBefore chunk.1) numSamples
  rw [← toRead, SampChunk.wanted, before] at capped
  rw [endOf] at past ⊢
  omega

/-- The chunk found is the last that its scan works the end out of. -/
theorem found_scanned {t : RtsaSource} {subStreamId : Option Nat} {chunk : Nat × SampChunk}
    {idx : Nat} (found : t.findChunk subStreamId = some (chunk, idx)) :
    chunk ∈ t.scanned subStreamId := by
  obtain ⟨stream, passed, -⟩ := selects_iff.mp (findChunk_some found).2
  rw [scanned, List.mem_filter]
  exact ⟨List.mem_map_of_mem (find?_searched found), passes_iff.mpr ⟨stream, passed⟩⟩

theorem mem_of_scanned {t : RtsaSource} {subStreamId : Option Nat} {chunk : Nat × SampChunk}
    (seen : chunk ∈ t.scanned subStreamId) :
    chunk ∈ t.sampChunkOffsets ∧ chunk.2.streamId = t.iqStreamId := by
  rw [scanned, List.mem_filter, List.mem_map] at seen
  obtain ⟨⟨entry, looked, rfl⟩, passed⟩ := seen
  have listed := List.mem_zipIdx_iff_getElem?.mp (mem_scan.mp (mem_of_searched looked))
  exact ⟨List.mem_of_getElem? listed, (passes_iff.mp passed).1⟩

theorem mem_of_sought {s : RtsaSource} {sampleIndex : Nat} {chunk : Nat × SampChunk}
    (seen : chunk ∈ s.sought sampleIndex) :
    chunk ∈ s.sampChunkOffsets ∧ chunk.2.streamId = s.iqStreamId := by
  obtain ⟨looked, passed⟩ := List.mem_filter.mp seen
  exact ⟨mem_of_searched looked, (passes_iff.mp passed).1⟩

theorem Accepted.near {s : RtsaSource} (accepted : s.Accepted) {chunk : Nat × SampChunk}
    (member : chunk ∈ s.sampChunkOffsets) : chunk.1 < 2 ^ 63 := by
  have seekable := accepted.seekable chunk member
  omega

/-- Of what a scan forms only ends and the place are in doubt. -/
theorem scanSums_fit_iff {t : RtsaSource} (accepted : t.Accepted) (numSamples : Nat)
    (subStreamId : Option Nat) :
    FitU64 (t.scanSums numSamples subStreamId) ↔
      (∀ chunk ∈ t.scanned subStreamId, t.endOf chunk < 2 ^ 64) ∧
        ∀ chunk idx, t.findChunk subStreamId = some (chunk, idx) →
          chunk.2.pairMismatch = false →
            chunk.2.WithinReach chunk.1 (t.currentSampleIndex - t.startOf chunk.1) := by
  rw [scanSums, fitU64_append, fitU64_map]
  apply and_congr_right
  intro ends
  cases found : t.findChunk subStreamId with
  | none =>
      refine iff_of_true nofun ?_
      intro _ _ hit
      cases hit
  | some entry =>
      obtain ⟨chunk, idx⟩ := entry
      have member := List.mem_of_getElem? (findChunk_some found).1
      obtain ⟨-, stays, few⟩ := found_bounds found numSamples
      have last := ends chunk (found_scanned found)
      have near := accepted.seekable chunk member
      have bins : t.toRead chunk numSamples * chunk.2.sampleSize < 2 ^ 32 * 2 ^ 32 :=
        Nat.mul_lt_mul'' few chunk.2.sampleSize_lt
      have rest : FitU64 [t.toRead chunk numSamples * chunk.2.sampleSize,
          chunk.1 + chunk.2.size, t.currentSampleIndex + t.toRead chunk numSamples,
          t.endOf chunk] := by
        simp only [FitU64, List.mem_cons, List.not_mem_nil, or_false, forall_eq_or_imp, forall_eq]
        omega
      cases mismatch : chunk.2.pairMismatch with
      | true =>
          simp only [mismatch, if_true]
          refine iff_of_true nofun ?_
          rintro _ _ ⟨⟩ paired
          rw [mismatch] at paired
          cases paired
      | false =>
          simp only [mismatch, Bool.false_eq_true, if_false]
          rw [fitU64_append, SampChunk.placeSums_fit_iff (accepted.near member)]
          constructor
          · rintro ⟨within, -⟩ _ _ ⟨⟩ -
            exact within
          · intro within
            exact ⟨within chunk idx rfl mismatch, rest⟩

theorem seekSums_fit_iff {s : RtsaSource} (accepted : s.Accepted) (sampleIndex : Nat) :
    FitU64 (s.seekSums sampleIndex) ↔
      (∀ chunk ∈ s.sought sampleIndex, s.endOf chunk < 2 ^ 64) ∧
        ∀ chunk, s.sampChunkOffsets.find? (s.holds sampleIndex) = some chunk →
          chunk.2.WithinReach chunk.1 (sampleIndex - s.startOf chunk.1) := by
  rw [seekSums, fitU64_append, fitU64_map]
  apply and_congr_right
  intro _
  cases found : s.sampChunkOffsets.find? (s.holds sampleIndex) with
  | none =>
      refine iff_of_true nofun ?_
      intro _ hit
      cases hit
  | some chunk =>
      have near := accepted.near (List.mem_of_find?_eq_some found)
      simp only [Option.some.injEq, forall_eq']
      exact SampChunk.placeSums_fit_iff near _

theorem inRange_iff {s : RtsaSource} (accepted : s.Accepted) (c : RtsaCall) :
    s.InRange decoder c ↔ s.LandsNear decoder c := by
  cases c with
  | reset => exact Iff.rfl
  | seekToSample sampleIndex =>
      exact imp_congr_right fun _ => imp_congr_right fun _ => seekSums_fit_iff accepted sampleIndex
  | readSamples numSamples subStreamId =>
      refine imp_congr_right fun _ => forall₂_congr fun t scanning => ?_
      rw [scanSums_fit_iff (accepted.same scanning.sameFile)]
      exact and_iff_left fun chunk idx found => (found_bounds found numSamples).1

/-! ## Addressable files -/

/-- The stream played has addressable chunks only. -/
def AllAddressable (s : RtsaSource) : Prop :=
  ∀ chunk ∈ s.sampChunkOffsets, chunk.2.streamId = s.iqStreamId → s.Addressable chunk

theorem AllAddressable.same {s s' : RtsaSource} (addressable : s.AllAddressable)
    (same : SameFile s s') : s'.AllAddressable := by
  intro chunk member stream
  rw [same.sampChunkOffsets] at member
  rw [same.iqStreamId] at stream
  rw [Addressable, same.endOf]
  exact addressable chunk member stream

theorem AllAddressable.landsNear {s : RtsaSource} (addressable : s.AllAddressable)
    (c : RtsaCall) : s.LandsNear decoder c := by
  cases c with
  | reset => exact trivial
  | seekToSample sampleIndex =>
      intro _ _
      constructor
      · intro chunk seen
        obtain ⟨member, stream⟩ := mem_of_sought seen
        exact (addressable chunk member stream).1
      · intro chunk found
        obtain ⟨stream, -, before⟩ := holds_iff.mp (List.find?_some found)
        have last := (addressable chunk (List.mem_of_find?_eq_some found) stream).2
        rw [endOf] at before
        exact last.mono (by omega)
  | readSamples numSamples subStreamId =>
      intro _ t scanning
      have kept := addressable.same scanning.sameFile
      constructor
      · intro chunk seen
        obtain ⟨member, stream⟩ := mem_of_scanned seen
        exact (kept chunk member stream).1
      · intro chunk idx found _
        obtain ⟨listed, selected⟩ := findChunk_some found
        obtain ⟨stream, -, before, -⟩ := selects_iff.mp selected
        have last := (kept chunk (List.mem_of_getElem? listed) stream).2
        rw [endOf] at before
        exact last.mono (by omega)

/-! ## Runs -/

theorem throughout_inRange_iff {s : RtsaSource} (accepted : s.Accepted) (calls : List RtsaCall) :
    Throughout decoder (InRange decoder) s calls ↔
      Throughout decoder (LandsNear decoder) s calls := by
  induction calls generalizing s with
  | nil => exact Iff.rfl
  | cons c calls ih =>
      exact and_congr (inRange_iff decoder accepted c)
        (ih (accepted.same (call_sameFile decoder s c)))

theorem throughout_landsNear {s : RtsaSource} (addressable : s.AllAddressable)
    (calls : List RtsaCall) : Throughout decoder (LandsNear decoder) s calls := by
  induction calls generalizing s with
  | nil => exact trivial
  | cons c calls ih =>
      exact ⟨addressable.landsNear decoder c,
        ih (addressable.same (call_sameFile decoder s c))⟩

/-- A seek to the last sample of a chunk that is not addressable, if it leads there. -/
theorem seek_out_of_range {s : RtsaSource} (accepted : s.Accepted) {chunk : Nat × SampChunk}
    (standard : s.rawIqDataEndOffset = none) (listed : s.endOf chunk ≤ s.totalSamples)
    (found : s.sampChunkOffsets.find? (s.holds (s.endOf chunk - 1)) = some chunk)
    (beyond : ¬s.Addressable chunk) :
    ¬s.InRange decoder (.seekToSample (s.endOf chunk - 1)) := by
  obtain ⟨stream, reached, before⟩ := holds_iff.mp (List.find?_some found)
  rw [inRange_iff decoder accepted]
  intro near
  obtain ⟨ends, within⟩ := near standard (by omega)
  have seen : chunk ∈ s.sought (s.endOf chunk - 1) :=
    List.mem_filter.mpr ⟨find?_searched found, passes_iff.mpr ⟨stream, .inl rfl⟩⟩
  have last : s.endOf chunk - 1 - s.startOf chunk.1 = chunk.2.numSamples - 1 := by
    rw [endOf] at reached before ⊢
    omega
  have lastWithin := within chunk found
  rw [last] at lastWithin
  exact beyond ⟨ends chunk seen, lastWithin⟩

/-- The arithmetic of a run is in range exactly when each of its calls lands within
reach of its chunk; every run of an addressable file does, and otherwise a seek to
the last sample of the chunk does not, if that is where it leads. -/
theorem arithmetic_in_range_iff {parsed : RtsaParse} {tool : ToolRun} {s : RtsaSource}
    (opened : openFile parsed tool = .ok s) :
    (∀ calls, Throughout decoder (InRange decoder) s calls ↔
        Throughout decoder (LandsNear decoder) s calls) ∧
      (s.AllAddressable → ∀ calls, Throughout decoder (InRange decoder) s calls) ∧
      (∀ calls chunk, s.rawIqDataEndOffset = none → s.endOf chunk ≤ s.totalSamples →
        s.sampChunkOffsets.find? (s.holds (s.endOf chunk - 1)) = some chunk →
          ¬s.Addressable chunk →
            ¬(s.run decoder calls).InRange decoder (.seekToSample (s.endOf chunk - 1))) := by
  have accepted := openFile_accepted opened
  refine ⟨throughout_inRange_iff decoder accepted, fun addressable calls => ?_, ?_⟩
  · exact (throughout_inRange_iff decoder accepted calls).mpr
      (throughout_landsNear decoder addressable calls)
  · intro calls chunk standard listed found beyond
    have same := run_sameFile decoder s calls
    have leads : (s.run decoder calls).holds = s.holds := by
      funext i other
      rw [holds, holds, same.iqStreamId, same.startOf, same.endOf]
    rw [← same.endOf]
    apply seek_out_of_range decoder (accepted.same same)
    · rw [same.rawIqDataEndOffset, standard]
    · rw [same.endOf, same.totalSamples]
      exact listed
    · rw [same.endOf, same.sampChunkOffsets, leads]
      exact found
    · rw [Addressable, same.endOf]
      exact beyond

/-- Two chunks of one sample each: every call on them is in range. -/
theorem arithmetic_in_range_iff_spectraFile :
    openFile spectraFile .missing = .ok (ofParse spectraFile 1) ∧
      Throughout rawDecoder (InRange rawDecoder) (ofParse spectraFile 1)
        [.seekToSample 1, .readSamples 2 none, .reset] := by
  have opened : openFile spectraFile .missing = .ok (ofParse spectraFile 1) := rfl
  refine ⟨opened, (arithmetic_in_range_iff rawDecoder opened).2.1 ?_ _⟩
  intro chunk member _
  have listed : chunk ∈ spectraFile.sampChunkOffsets := member
  simp only [spectraFile, smallFile, List.mem_cons, List.not_mem_nil, or_false] at listed
  rcases listed with rfl | rfl
  · exact ⟨by decide +kernel, .inr (by decide +kernel)⟩
  · exact ⟨by decide +kernel, .inr (by decide +kernel)⟩

theorem openFile_plain {parsed : RtsaParse} {iqStreamId : Nat} (tool : ToolRun)
    (stream : parsed.iqStreamId = some iqStreamId)
    (plain : isCompressedIq parsed.sampChunkOffsets = false) :
    openFile parsed tool = .ok (ofParse parsed iqStreamId) := by
  simp only [openFile, stream, plain, Bool.false_eq_true, if_false]

/-- A small chunk that declares 2³¹ + 1 spectra of 2³¹ values. -/
def hugeChunk : SampChunk :=
  { smallChunk .f32 .spectra 0 1 with
    sampleSize := 0x80000000
    sampleSize_lt := by decide
    numSamples := 0x80000001
    numSamples_lt := by decide }

def hugeFile : RtsaParse where
  bytes := List.replicate 1096 0
  totalSamples := 0x80000001
  subStreams := []
  iqStreamId := some 1
  sampChunkOffsets := [(1024, hugeChunk)]
  streamOffset := none
  bytes_lt := by
    rw [List.length_replicate]
    decide
  inFile := by
    simp only [List.mem_singleton, forall_eq, List.length_replicate]
    decide
  inOrder := List.pairwise_singleton _ _

/-- The seek to its last spectrum multiplies to 2⁶⁴ and leaves the reader at the
first; the read behind it multiplies the same. -/
theorem seek_product_overflows :
    openFile hugeFile .missing = .ok (ofParse hugeFile 1) ∧
      ¬Throughout rawDecoder (InRange rawDecoder) (ofParse hugeFile 1)
        [.seekToSample (2 ^ 31)] ∧
      ((ofParse hugeFile 1).seekToSample (2 ^ 31)).1 = .ok () ∧
      ((ofParse hugeFile 1).seekToSample (2 ^ 31)).2.reader.position = 1024 + 64 ∧
      ¬((ofParse hugeFile 1).call rawDecoder (.seekToSample (2 ^ 31))).InRange rawDecoder
        (.readSamples 1 none) := by
  refine ⟨openFile_plain .missing rfl (by decide), ?_, by decide +kernel, by decide +kernel, ?_⟩
  · rintro ⟨inRange, -⟩
    have fits := inRange rfl (by decide +kernel) (2 ^ 64) (by decide +kernel)
    exact absurd fits (Nat.lt_irrefl (2 ^ 64))
  · intro inRange
    have same := call_sameFile rawDecoder (ofParse hugeFile 1) (.seekToSample (2 ^ 31))
    have fits := (inRange same.rawIqDataEndOffset _ .first).1 (2 ^ 64) (by decide +kernel)
    exact absurd fits (Nat.lt_irrefl (2 ^ 64))

end RtsaSource

end SdrAaronia
