import SdrAaronia.FileSource.Index

/-! # Playing a capture file

The reads from any cursor on return what the chunks hold past it, in file order,
as long as every chunk in the way can be decoded or passed.
-/

namespace SdrAaronia

open HttpStreaming

namespace SampleData

variable {Real Sample : Type}

/-- The values of a read in order, spectra told from IQ. -/
def items : SampleData Real Sample → List (Sample ⊕ Real)
  | .iq samples => samples.map .inl
  | .spectra values => values.map .inr

end SampleData

/-- What the reads return, next to what was asked for, is `expected` from its start
on.  Once that is exhausted there is nothing more, and until then a read for
samples gets some. -/
inductive Plays {Real Sample : Type} :
    List (Nat × Except Error (Option (SampleData Real Sample))) → List (Sample ⊕ Real) → Prop where
  | done (expected : List (Sample ⊕ Real)) : Plays [] expected
  | nothing {numSamples : Nat}
      {reads : List (Nat × Except Error (Option (SampleData Real Sample)))}
      (rest : Plays reads []) : Plays ((numSamples, .ok none) :: reads) []
  | some {numSamples : Nat} {data : SampleData Real Sample}
      {reads : List (Nat × Except Error (Option (SampleData Real Sample)))}
      {expected left : List (Sample ⊕ Real)} (nonempty : 0 < numSamples → data.items ≠ [])
      (split : expected = data.items ++ left) (rest : Plays reads left) :
      Plays ((numSamples, .ok (.some data)) :: reads) expected

namespace SampChunk

/-- Values of one sample in the items of a read. -/
def itemWidth (c : SampChunk) : Nat := if c.payloadType = .spectra then c.sampleSize else 1

end SampChunk

namespace RtsaSource

variable {Real Sample : Type} (decoder : SampleDecoder Real Sample)

/-- The results of successive reads, each with the count it asked for. -/
def reads (s : RtsaSource) :
    List Nat → List (Nat × Except Error (Option (SampleData Real Sample)))
  | [] => []
  | numSamples :: counts =>
      (numSamples, (s.readSamples decoder numSamples none).1) ::
        reads (s.readSamples decoder numSamples none).2 counts

/-! ## What a chunk holds -/

/-- The samples of a chunk from number `first` up to number `last`. -/
def itemsBetween (s : RtsaSource) (chunk : Nat × SampChunk) (first last : Nat) :
    List (Sample ⊕ Real) :=
  (s.payloadData decoder chunk.2
    ((s.reader.bytes.drop
      (chunk.1 + chunk.2.headerSize + first * chunk.2.sampleStrideBytes)).take
        ((last - first) * chunk.2.sampleStrideBytes))).items

/-- The reader decodes the chunk, whose samples are all there. -/
structure Decodable (s : RtsaSource) (chunk : Nat × SampChunk) : Prop where
  decoded : chunk.2.isDecoded = true
  paired : chunk.2.pairMismatch = false
  plain : chunk.2.compression = 0
  stride : 0 < chunk.2.sampleStrideBytes
  held : chunk.2.numSamples * chunk.2.sampleStrideBytes ≤ chunk.2.size - chunk.2.headerSize
  inFile : chunk.1 + chunk.2.headerSize + chunk.2.numSamples * chunk.2.sampleStrideBytes ≤
    s.reader.bytes.length

variable {s : RtsaSource} {chunk : Nat × SampChunk}

theorem payloadData_append (s : RtsaSource) {c : SampChunk} (decoded : c.isDecoded = true)
    (paired : c.pairMismatch = false) {k : Nat} {first second : Bytes}
    (whole : first.length = k * c.sampleStrideBytes) :
    (s.payloadData decoder c (first ++ second)).items =
      (s.payloadData decoder c first).items ++ (s.payloadData decoder c second).items := by
  cases SampChunk.isDecoded_payload decoded with
  | inl iq =>
      have stride := SampChunk.stride_iq paired iq decoded
      simp only [payloadData, iq, SampleData.items]
      cases f32 : c.isF32 with
      | true =>
          rw [f32, if_pos rfl] at stride
          simp only [if_true]
          rw [SampleDecoder.asChunks_append (by omega) (whole.trans (by rw [stride])),
            List.map_append, List.map_append]
      | false =>
          rw [f32, if_neg Bool.false_ne_true] at stride
          simp only [Bool.false_eq_true, if_false]
          rw [SampleDecoder.asChunks_append (by omega) (whole.trans (by rw [stride])),
            List.map_append, List.map_append]
  | inr spectra =>
      have stride := SampChunk.stride_spectra spectra decoded
      rw [stride, ← Nat.mul_assoc] at whole
      simp only [payloadData, spectra, SampleData.items]
      rw [SampleDecoder.asChunks_append (by omega) whole, List.map_append, List.map_append]

theorem payloadData_length (s : RtsaSource) {c : SampChunk} (decoded : c.isDecoded = true)
    (paired : c.pairMismatch = false) {k : Nat} {bytes : Bytes}
    (whole : bytes.length = k * c.sampleStrideBytes) :
    (s.payloadData decoder c bytes).items.length = k * c.itemWidth := by
  cases SampChunk.isDecoded_payload decoded with
  | inl iq =>
      have stride := SampChunk.stride_iq paired iq decoded
      rw [SampChunk.itemWidth, if_neg (by rw [iq]; exact DspStreamPayloadType.noConfusion),
        Nat.mul_one]
      simp only [payloadData, iq, SampleData.items]
      split at stride
      · rw [if_pos ‹_›, List.length_map, List.length_map,
          SampleDecoder.asChunks_length_eq (by omega) (whole.trans (by rw [stride]))]
      · rw [if_neg ‹_›, List.length_map, List.length_map,
          SampleDecoder.asChunks_length_eq (by omega) (whole.trans (by rw [stride]))]
  | inr spectra =>
      have stride := SampChunk.stride_spectra spectra decoded
      rw [stride, ← Nat.mul_assoc] at whole
      rw [SampChunk.itemWidth, if_pos spectra]
      simp only [payloadData, spectra, SampleData.items]
      rw [List.length_map, List.length_map, SampleDecoder.asChunks_length_eq (by omega) whole]

theorem Decodable.itemWidth_pos (decodable : s.Decodable chunk) : 0 < chunk.2.itemWidth := by
  have stride := decodable.stride
  rw [SampChunk.sampleStrideBytes] at stride
  rw [SampChunk.itemWidth]
  split
  · exact Nat.pos_of_mul_pos_right stride
  · exact Nat.one_pos

/-- The bytes of a stretch of a chunk's samples are all there. -/
theorem Decodable.bytes_between (decodable : s.Decodable chunk) {first last : Nat}
    (ordered : first ≤ last) (within : last ≤ chunk.2.numSamples) :
    ((s.reader.bytes.drop
      (chunk.1 + chunk.2.headerSize + first * chunk.2.sampleStrideBytes)).take
        ((last - first) * chunk.2.sampleStrideBytes)).length =
      (last - first) * chunk.2.sampleStrideBytes := by
  have inFile := decodable.inFile
  have scaled := Nat.mul_le_mul_right chunk.2.sampleStrideBytes within
  have parts : first * chunk.2.sampleStrideBytes + (last - first) * chunk.2.sampleStrideBytes =
      last * chunk.2.sampleStrideBytes := by
    rw [← Nat.add_mul, Nat.add_sub_cancel' ordered]
  rw [List.length_take, List.length_drop]
  omega

theorem payloadData_nil (s : RtsaSource) (c : SampChunk) :
    (s.payloadData decoder c []).items = [] := by
  rw [payloadData]
  split
  · simp [SampleDecoder.asChunks_nil, SampleData.items]
  · simp [SampleDecoder.asChunks_nil, SampleData.items]

theorem itemsBetween_self (s : RtsaSource) (chunk : Nat × SampChunk) {first last : Nat}
    (behind : last ≤ first) : s.itemsBetween decoder chunk first last = [] := by
  rw [itemsBetween, Nat.sub_eq_zero_of_le behind, Nat.zero_mul, List.take_zero, payloadData_nil]

theorem Decodable.items_length (decodable : s.Decodable chunk) {first last : Nat}
    (ordered : first ≤ last) (within : last ≤ chunk.2.numSamples) :
    (s.itemsBetween decoder chunk first last).length =
      (last - first) * chunk.2.itemWidth :=
  payloadData_length decoder s decodable.decoded decodable.paired
    (decodable.bytes_between ordered within)

theorem Decodable.items_append (decodable : s.Decodable chunk) {first middle last : Nat}
    (lower : first ≤ middle) (upper : middle ≤ last) (within : last ≤ chunk.2.numSamples) :
    s.itemsBetween decoder chunk first last =
      s.itemsBetween decoder chunk first middle ++ s.itemsBetween decoder chunk middle last := by
  have parts : (last - first) * chunk.2.sampleStrideBytes =
      (middle - first) * chunk.2.sampleStrideBytes +
        (last - middle) * chunk.2.sampleStrideBytes := by
    rw [← Nat.add_mul]
    congr 1
    omega
  have place : chunk.1 + chunk.2.headerSize + middle * chunk.2.sampleStrideBytes =
      chunk.1 + chunk.2.headerSize + first * chunk.2.sampleStrideBytes +
        (middle - first) * chunk.2.sampleStrideBytes := by
    rw [Nat.add_assoc _ (first * _), ← Nat.add_mul, Nat.add_sub_cancel' lower]
  rw [itemsBetween, parts, List.take_add, payloadData_append decoder s decodable.decoded
    decodable.paired (decodable.bytes_between lower (upper.trans within)), List.drop_drop,
    itemsBetween, itemsBetween, place]

/-! ## Chunks in the way of the cursor -/

theorem selected_before (selected : s.selects none chunk = true) :
    s.startOf chunk.1 ≤ s.currentSampleIndex ∧ s.currentSampleIndex < s.endOf chunk ∧
      s.samplesBefore chunk.1 = s.currentSampleIndex - s.startOf chunk.1 := by
  obtain ⟨-, -, past, reached⟩ := selects_iff.mp selected
  have narrow := chunk.2.numSamples_lt
  refine ⟨reached, past, Nat.mod_eq_of_lt ?_⟩
  rw [endOf] at past
  omega

/-- What a read of a decodable chunk works out from the cursor. -/
theorem Decodable.layout (decodable : s.Decodable chunk) (seekable : s.Seekable)
    (member : chunk ∈ s.sampChunkOffsets) (selected : s.selects none chunk = true)
    (numSamples : Nat) :
    s.dataStart chunk = chunk.1 + chunk.2.headerSize +
        (s.currentSampleIndex - s.startOf chunk.1) * chunk.2.sampleStrideBytes ∧
      s.dataStart chunk < 2 ^ 63 ∧
      s.toRead chunk numSamples =
        min (min numSamples (2 ^ 32 - 1)) (s.endOf chunk - s.currentSampleIndex) := by
  obtain ⟨reached, past, before⟩ := selected_before selected
  have near := seekable chunk member
  have narrow := chunk.2.size_lt
  have few := chunk.2.numSamples_lt
  have held := decodable.held
  rw [endOf] at past ⊢
  rw [dataStart, toRead, before]
  generalize counted : s.currentSampleIndex - s.startOf chunk.1 = b
  have inside : b < chunk.2.numSamples := by omega
  have parts : b * chunk.2.sampleStrideBytes +
      (chunk.2.numSamples - b) * chunk.2.sampleStrideBytes =
        chunk.2.numSamples * chunk.2.sampleStrideBytes := by
    rw [← Nat.add_mul, Nat.add_sub_cancel' inside.le]
  have some : 0 < (chunk.2.numSamples - b) * chunk.2.sampleStrideBytes :=
    Nat.mul_pos (by omega) decodable.stride
  have skip : chunk.2.bytesToSkip b = b * chunk.2.sampleStrideBytes :=
    Nat.mod_eq_of_lt (by omega)
  have start : chunk.2.dataStartOffset chunk.1 b =
      chunk.1 + chunk.2.headerSize + b * chunk.2.sampleStrideBytes := by
    rw [SampChunk.dataStartOffset, skip]
    exact Nat.mod_eq_of_lt (by omega)
  have room : chunk.2.numSamples - b ≤
      (chunk.2.size - chunk.2.headerSize - chunk.2.bytesToSkip b) /
        chunk.2.sampleStrideBytes := by
    rw [Nat.le_div_iff_mul_le decodable.stride, skip]
    omega
  refine ⟨start, by omega, ?_⟩
  rw [SampChunk.toRead, if_pos decodable.plain, SampChunk.wanted, SampChunk.fits]
  omega

theorem Decodable.accepts (decodable : s.Decodable chunk) (seekable : s.Seekable)
    (member : chunk ∈ s.sampChunkOffsets) (selected : s.selects none chunk = true)
    (numSamples : Nat) :
    s.refuses chunk numSamples = false ∧ s.servable chunk numSamples = true := by
  obtain ⟨start, near, count⟩ := decodable.layout seekable member selected numSamples
  obtain ⟨reached, past, before⟩ := selected_before selected
  have inFile := decodable.inFile
  constructor
  · rw [refuses, decodable.paired, decide_eq_false (by omega), Bool.false_or, Bool.false_or]
    apply decide_eq_false
    intro none
    have asked : s.toRead chunk numSamples = 0 := none.2.1
    have some := none.2.2.1
    omega
  · have upTo : (s.currentSampleIndex - s.startOf chunk.1) * chunk.2.sampleStrideBytes +
        s.toRead chunk numSamples * chunk.2.sampleStrideBytes ≤
          chunk.2.numSamples * chunk.2.sampleStrideBytes := by
      rw [← Nat.add_mul]
      apply Nat.mul_le_mul_right
      rw [endOf] at past count
      omega
    exact decide_eq_true (by right; omega)

/-- A read of a decodable chunk returns its next samples. -/
theorem Decodable.items_read (decodable : s.Decodable chunk) (seekable : s.Seekable)
    (member : chunk ∈ s.sampChunkOffsets) (selected : s.selects none chunk = true)
    (numSamples : Nat) :
    (s.dataOf decoder chunk numSamples).items =
      s.itemsBetween decoder chunk (s.currentSampleIndex - s.startOf chunk.1)
        (s.currentSampleIndex - s.startOf chunk.1 + s.toRead chunk numSamples) := by
  obtain ⟨start, -, -⟩ := decodable.layout seekable member selected numSamples
  rw [dataOf, itemsBetween, start, Nat.add_sub_cancel_left]

/-- The reader passes the chunk from sample number `before` on. -/
structure Passable (chunk : Nat × SampChunk) (before : Nat) : Prop where
  undecoded : chunk.2.isDecoded = false
  near : chunk.2.dataStartOffset chunk.1 before < 2 ^ 63
  holdsOne : chunk.2.compression = 0 →
    0 < chunk.2.sampleStrideBytes ∧
      chunk.2.sampleStrideBytes ≤ chunk.2.size - chunk.2.headerSize - chunk.2.bytesToSkip before

theorem undecoded_paired {c : SampChunk} (undecoded : c.isDecoded = false) :
    c.pairMismatch = false := by
  rw [SampChunk.pairMismatch]
  cases iq : c.payloadType == .iq with
  | false => rfl
  | true =>
      simp only [SampChunk.isDecoded, eq_of_beq iq] at undecoded
      rw [undecoded]
      rfl

/-- A read for samples is refused where the size has no whole one. -/
theorem holdsNone_iff {c : SampChunk} {before numSamples : Nat} (inside : before < c.numSamples)
    (some : 0 < numSamples) :
    c.holdsNone before numSamples = true ↔
      c.compression = 0 ∧
        ¬(0 < c.sampleStrideBytes ∧
          c.sampleStrideBytes ≤ c.size - c.headerSize - c.bytesToSkip before) := by
  have whole : 0 < (c.size - c.headerSize - c.bytesToSkip before) / c.sampleStrideBytes ↔
      0 < c.sampleStrideBytes ∧
        c.sampleStrideBytes ≤ c.size - c.headerSize - c.bytesToSkip before :=
    Nat.div_pos_iff
  rw [SampChunk.holdsNone, decide_eq_true_iff, ← whole]
  apply and_congr_right
  intro plain
  rw [SampChunk.toRead, if_pos plain, SampChunk.wanted, SampChunk.fits]
  generalize (c.size - c.headerSize - c.bytesToSkip before) / c.sampleStrideBytes = whole
  omega

theorem Passable.accepts (selected : s.selects none chunk = true)
    (passable : Passable chunk (s.currentSampleIndex - s.startOf chunk.1)) (numSamples : Nat) :
    s.refuses chunk numSamples = false := by
  obtain ⟨reached, past, before⟩ := selected_before selected
  rw [endOf] at past
  rw [refuses, undecoded_paired passable.undecoded, dataStart, before,
    decide_eq_false (Nat.not_le.mpr passable.near), Bool.false_or, Bool.false_or]
  apply Bool.eq_false_of_not_eq_true
  intro none
  have some : 0 < numSamples := (of_decide_eq_true none).2.2.1
  obtain ⟨plain, short⟩ := (holdsNone_iff (by omega) some).mp none
  exact short (passable.holdsOne plain)

/-! ## Playing in file order -/

/-- The chunk is of the stream played and ends past `cursor`. -/
def meets (s : RtsaSource) (cursor : Nat) (chunk : Nat × SampChunk) : Bool :=
  decide (chunk.2.streamId = s.iqStreamId ∧ cursor < s.endOf chunk)

/-- What is played of the chunks from `cursor` on. -/
def played (s : RtsaSource) : Nat → List (Nat × SampChunk) → List (Sample ⊕ Real)
  | _, [] => []
  | cursor, chunk :: chunks =>
      if s.meets cursor chunk then
        (if chunk.2.isDecoded then
          s.itemsBetween decoder chunk (cursor - s.startOf chunk.1) chunk.2.numSamples
        else []) ++ played s (s.endOf chunk) chunks
      else played s cursor chunks

/-- Every chunk in the way of the cursor can be decoded or passed. -/
def Smooth (s : RtsaSource) : Nat → List (Nat × SampChunk) → Prop
  | _, [] => True
  | cursor, chunk :: chunks =>
      if s.meets cursor chunk then
        (s.Decodable chunk ∨ Passable chunk (cursor - s.startOf chunk.1)) ∧
          Smooth s (s.endOf chunk) chunks
      else Smooth s cursor chunks

/-- What a source has left to play. -/
def remaining (s : RtsaSource) : List (Sample ⊕ Real) :=
  s.played decoder s.currentSampleIndex s.sampChunkOffsets

def Unobstructed (s : RtsaSource) : Prop := s.Smooth s.currentSampleIndex s.sampChunkOffsets

/-- A source whose next scan is in file order. -/
structure Standing (s : RtsaSource) : Prop extends Indexed s where
  caught : s.Caught

theorem meets_later {cursor cursor' : Nat} (later : cursor ≤ cursor')
    (ended : s.meets cursor chunk = false) : s.meets cursor' chunk = false := by
  apply decide_eq_false
  intro meets
  exact (of_decide_eq_false ended) ⟨meets.1, by omega⟩

theorem played_skip {cursor : Nat} {before : List (Nat × SampChunk)}
    (ended : ∀ earlier ∈ before, s.meets cursor earlier = false)
    (chunks : List (Nat × SampChunk)) :
    s.played decoder cursor (before ++ chunks) = s.played decoder cursor chunks := by
  induction before with
  | nil => rfl
  | cons earlier before ih =>
      rw [List.cons_append, played, ended earlier List.mem_cons_self, if_neg Bool.false_ne_true]
      exact ih fun other member => ended other (List.mem_cons_of_mem _ member)

theorem smooth_skip {cursor : Nat} {before : List (Nat × SampChunk)}
    (ended : ∀ earlier ∈ before, s.meets cursor earlier = false)
    (chunks : List (Nat × SampChunk)) :
    s.Smooth cursor (before ++ chunks) ↔ s.Smooth cursor chunks := by
  induction before with
  | nil => exact Iff.rfl
  | cons earlier before ih =>
      rw [List.cons_append, Smooth, ended earlier List.mem_cons_self, if_neg Bool.false_ne_true]
      exact ih fun other member => ended other (List.mem_cons_of_mem _ member)

theorem Decodable.same {s' : RtsaSource} (same : SameFile s s') (decodable : s.Decodable chunk) :
    s'.Decodable chunk :=
  ⟨decodable.decoded, decodable.paired, decodable.plain, decodable.stride, decodable.held,
    same.bytes.symm ▸ decodable.inFile⟩

theorem payloadData_same {s' : RtsaSource} (same : SameFile s s') (c : SampChunk)
    (bytes : Bytes) : s'.payloadData decoder c bytes = s.payloadData decoder c bytes := by
  rw [payloadData, payloadData, int16ScaleForSubStream, int16ScaleForSubStream, same.subStreams]

theorem played_same {s' : RtsaSource} (same : SameFile s s') (cursor : Nat)
    (chunks : List (Nat × SampChunk)) :
    s'.played decoder cursor chunks = s.played decoder cursor chunks := by
  induction chunks generalizing cursor with
  | nil => rfl
  | cons chunk chunks ih =>
      rw [played, played, meets, meets, same.iqStreamId, same.endOf, same.startOf, ih, ih,
        itemsBetween, itemsBetween, same.bytes, payloadData_same decoder same]

theorem smooth_same {s' : RtsaSource} (same : SameFile s s') (cursor : Nat)
    (chunks : List (Nat × SampChunk)) : s'.Smooth cursor chunks ↔ s.Smooth cursor chunks := by
  have decodable : ∀ chunk, s'.Decodable chunk ↔ s.Decodable chunk := fun chunk =>
    ⟨Decodable.same same.symm, Decodable.same same⟩
  induction chunks generalizing cursor with
  | nil => exact Iff.rfl
  | cons chunk chunks ih =>
      have met : s'.meets cursor chunk = s.meets cursor chunk := by
        rw [meets, meets, same.iqStreamId, same.endOf]
      rw [Smooth, Smooth, met, same.endOf, same.startOf, decodable]
      split
      · exact and_congr_right fun _ => ih _
      · exact ih _

theorem smooth_of_stream {chunks : List (Nat × SampChunk)}
    (stream : chunk.2.streamId = s.iqStreamId) (mark : Nat) :
    s.Smooth mark (chunk :: chunks) ↔
      (mark < s.endOf chunk → s.Decodable chunk ∨ Passable chunk (mark - s.startOf chunk.1)) ∧
        s.Smooth (max mark (s.endOf chunk)) chunks := by
  rw [Smooth]
  by_cases within : mark < s.endOf chunk
  · have met : s.meets mark chunk = true := decide_eq_true ⟨stream, within⟩
    rw [if_pos met, max_eq_right within.le]
    exact and_congr_left' ⟨fun way _ => way, fun way => way within⟩
  · have passed : s.meets mark chunk = false := decide_eq_false fun met => within met.2
    rw [passed, if_neg Bool.false_ne_true, max_eq_left (Nat.le_of_not_lt within)]
    exact ⟨fun smooth => ⟨fun wrong => absurd wrong within, smooth⟩, fun both => both.2⟩

theorem played_of_stream {chunks : List (Nat × SampChunk)}
    (stream : chunk.2.streamId = s.iqStreamId) (mark : Nat) :
    s.played decoder mark (chunk :: chunks) =
      (if chunk.2.isDecoded then
        s.itemsBetween decoder chunk (mark - s.startOf chunk.1) chunk.2.numSamples
      else []) ++ s.played decoder (max mark (s.endOf chunk)) chunks := by
  rw [played]
  by_cases within : mark < s.endOf chunk
  · have met : s.meets mark chunk = true := decide_eq_true ⟨stream, within⟩
    rw [if_pos met, max_eq_right within.le]
  · have passed : s.meets mark chunk = false := decide_eq_false fun met => within met.2
    rw [endOf, Nat.not_lt] at within
    have nothing := itemsBetween_self decoder s chunk
      (show chunk.2.numSamples ≤ mark - s.startOf chunk.1 by omega)
    rw [passed, if_neg Bool.false_ne_true, max_eq_left (by rw [endOf]; exact within), nothing,
      ite_self, List.nil_append]

/-- What is left from anywhere in the chunk that the scan finds. -/
theorem played_within {cursor : Nat} {before after : List (Nat × SampChunk)}
    (ended : ∀ earlier ∈ before, s.meets cursor earlier = false)
    (stream : chunk.2.streamId = s.iqStreamId) (upTo : cursor ≤ s.endOf chunk) :
    s.played decoder cursor (before ++ chunk :: after) =
      (if chunk.2.isDecoded then
        s.itemsBetween decoder chunk (cursor - s.startOf chunk.1) chunk.2.numSamples
      else []) ++ s.played decoder (s.endOf chunk) after := by
  rw [played_skip decoder ended, played_of_stream decoder stream, max_eq_right upTo]

theorem smooth_within {cursor : Nat} {before after : List (Nat × SampChunk)}
    (ended : ∀ earlier ∈ before, s.meets cursor earlier = false)
    (meets : s.meets cursor chunk = true) :
    s.Smooth cursor (before ++ chunk :: after) ↔
      (s.Decodable chunk ∨ Passable chunk (cursor - s.startOf chunk.1)) ∧
        s.Smooth (s.endOf chunk) after := by
  rw [smooth_skip ended, Smooth, if_pos meets]

/-- The source after the chunk found was read or passed still scans in file order. -/
theorem Standing.advance (standing : s.Standing) {before after : List (Nat × SampChunk)}
    (split : s.sampChunkOffsets = before ++ chunk :: after)
    (ended : ∀ earlier ∈ before, s.ahead earlier = false) {s' : RtsaSource}
    (same : SameFile s s') (later : s.currentSampleIndex ≤ s'.currentSampleIndex)
    (hint : s'.chunkScanHint = before.length) : s'.Standing where
  toIndexed := standing.toIndexed.same same
  caught := by
    intro earlier taken
    rw [same.sampChunkOffsets, split, hint, List.take_left] at taken
    have passed : s.meets s.currentSampleIndex earlier = false := ended earlier taken
    rw [ahead, same.iqStreamId, same.endOf]
    exact meets_later later passed

/-- Reading on from a decodable chunk. -/
theorem Standing.read_decodable (standing : s.Standing)
    {before after : List (Nat × SampChunk)}
    (split : s.sampChunkOffsets = before ++ chunk :: after)
    (ended : ∀ earlier ∈ before, s.ahead earlier = false)
    (selected : s.selects none chunk = true) (decodable : s.Decodable chunk)
    (found : s.findChunk none = some (chunk, before.length)) (numSamples : Nat) :
    s.toRead chunk numSamples =
        min (min numSamples (2 ^ 32 - 1)) (s.endOf chunk - s.currentSampleIndex) ∧
      s.readSamples decoder numSamples none =
        (.ok (some (s.dataOf decoder chunk numSamples)),
          s.afterRead chunk before.length numSamples) ∧
      (0 < numSamples → (s.dataOf decoder chunk numSamples).items ≠ []) ∧
      (s.afterRead chunk before.length numSamples).Standing ∧
      s.remaining decoder = (s.dataOf decoder chunk numSamples).items ++
        (s.afterRead chunk before.length numSamples).remaining decoder := by
  have member : chunk ∈ s.sampChunkOffsets := mem_of_split split
  obtain ⟨accepts, servable⟩ :=
    decodable.accepts standing.seekable member selected numSamples
  obtain ⟨-, -, count⟩ := decodable.layout standing.seekable member selected numSamples
  obtain ⟨reached, past, -⟩ := selected_before selected
  have stream := (selects_iff.mp selected).1
  have plain : ¬rejectsCompression chunk.2 := fun compressed => by
    have positive := compressed.2
    rw [decodable.plain] at positive
    exact absurd positive (Int.lt_irrefl 0)
  have items := decodable.items_read decoder standing.seekable member selected numSamples
  have same := s.afterRead_sameFile chunk before.length numSamples
  have within : s.currentSampleIndex - s.startOf chunk.1 + s.toRead chunk numSamples ≤
      chunk.2.numSamples := by
    rw [endOf] at past count
    omega
  refine ⟨count, ?_, ?_, ?_, ?_⟩
  · rw [readSamples_eq decoder standing.standard]
    simp only [found, readFound_served decoder accepts decodable.decoded plain servable]
  · intro asked
    apply List.ne_nil_of_length_pos
    rw [items, decodable.items_length decoder (by omega) within, Nat.add_sub_cancel_left]
    exact Nat.mul_pos (by omega) decodable.itemWidth_pos
  · exact standing.advance split ended same (Nat.le_add_right _ _) rfl
  · have later : s.currentSampleIndex + s.toRead chunk numSamples - s.startOf chunk.1 =
        s.currentSampleIndex - s.startOf chunk.1 + s.toRead chunk numSamples := by
      omega
    have left : (s.afterRead chunk before.length numSamples).remaining decoder =
        s.itemsBetween decoder chunk
            (s.currentSampleIndex - s.startOf chunk.1 + s.toRead chunk numSamples)
            chunk.2.numSamples ++
          s.played decoder (s.endOf chunk) after := by
      rw [remaining, played_same decoder same, same.sampChunkOffsets, split]
      have upTo : s.currentSampleIndex + s.toRead chunk numSamples ≤ s.endOf chunk := by omega
      exact (played_within decoder (fun earlier taken => meets_later (Nat.le_add_right _ _)
        (ended earlier taken)) stream upTo).trans (by rw [if_pos decodable.decoded, later])
    have all : s.remaining decoder =
        s.itemsBetween decoder chunk (s.currentSampleIndex - s.startOf chunk.1)
            chunk.2.numSamples ++
          s.played decoder (s.endOf chunk) after := by
      rw [remaining, split, played_within decoder ended stream past.le,
        if_pos decodable.decoded]
    rw [all, left, items, decodable.items_append decoder (Nat.le_add_right _ _) within
      le_rfl, List.append_assoc]

/-- A read that meets a chunk it can pass is a read from behind it. -/
theorem Standing.read_passable (standing : s.Standing)
    {before after : List (Nat × SampChunk)}
    (split : s.sampChunkOffsets = before ++ chunk :: after)
    (ended : ∀ earlier ∈ before, s.ahead earlier = false)
    (selected : s.selects none chunk = true)
    (passable : Passable chunk (s.currentSampleIndex - s.startOf chunk.1))
    (found : s.findChunk none = some (chunk, before.length)) :
    (∀ numSamples, s.readSamples decoder numSamples none =
        (s.afterSkip chunk before.length).readSamples decoder numSamples none) ∧
      (s.afterSkip chunk before.length).Standing ∧
      (s.afterSkip chunk before.length).pending < s.pending ∧
      s.remaining decoder = (s.afterSkip chunk before.length).remaining decoder := by
  have member : chunk ∈ s.sampChunkOffsets := mem_of_split split
  obtain ⟨reached, past, -⟩ := selected_before selected
  have stream := (selects_iff.mp selected).1
  have same := s.afterSkip_sameFile chunk before.length
  refine ⟨?_, ?_, ?_, ?_⟩
  · intro numSamples
    rw [readSamples_eq decoder standing.standard]
    simp only [found, readFound_passed decoder standing.seekable member passable.undecoded
      (passable.accepts selected numSamples)]
  · exact standing.advance split ended same past.le rfl
  · exact pending_skip same member past rfl
  · have left : (s.afterSkip chunk before.length).remaining decoder =
        s.played decoder (s.endOf chunk) after := by
      rw [remaining, played_same decoder same, same.sampChunkOffsets, split]
      exact (played_within decoder (fun earlier taken => meets_later past.le
        (ended earlier taken)) stream le_rfl).trans (by
          rw [passable.undecoded, if_neg Bool.false_ne_true, List.nil_append])
    rw [left, remaining, split, played_within decoder ended stream past.le, passable.undecoded,
      if_neg Bool.false_ne_true, List.nil_append]

/-- What the chunk that the scan finds leaves in the way of the cursor. -/
theorem unobstructed_found {before after : List (Nat × SampChunk)}
    (split : s.sampChunkOffsets = before ++ chunk :: after)
    (ended : ∀ earlier ∈ before, s.ahead earlier = false)
    (selected : s.selects none chunk = true) :
    s.Unobstructed ↔
      (s.Decodable chunk ∨ Passable chunk (s.currentSampleIndex - s.startOf chunk.1)) ∧
        s.Smooth (s.endOf chunk) after := by
  rw [Unobstructed, split]
  exact smooth_within ended (selects_ahead selected)

theorem smooth_upTo {cursor : Nat} {before after : List (Nat × SampChunk)}
    (ended : ∀ earlier ∈ before, s.meets cursor earlier = false)
    (stream : chunk.2.streamId = s.iqStreamId) (upTo : cursor ≤ s.endOf chunk)
    (way : s.Decodable chunk ∨ cursor = s.endOf chunk)
    (rest : s.Smooth (s.endOf chunk) after) : s.Smooth cursor (before ++ chunk :: after) := by
  rw [smooth_skip ended, smooth_of_stream stream, max_eq_right upTo]
  exact ⟨fun within => Or.inl (way.resolve_right within.ne), rest⟩

/-- With all chunks ended there is nothing left and every read says so. -/
theorem Standing.read_ended (standing : s.Standing) (missing : s.findChunk none = none)
    (ended : ∀ chunk ∈ s.sampChunkOffsets, s.ahead chunk = false) (numSamples : Nat) :
    s.readSamples decoder numSamples none = (.ok none, s) ∧ s.remaining decoder = [] := by
  constructor
  · rw [readSamples_eq decoder standing.standard]
    simp only [missing]
  · rw [remaining, ← List.append_nil s.sampChunkOffsets, played_skip decoder ended, played]

/-- A read with nothing in the way returns the start of what is left, or nothing is
left. -/
theorem Standing.read (standing : s.Standing) (clear : s.Unobstructed) (numSamples : Nat) :
    ∃ s', SameFile s s' ∧ s'.Standing ∧ s'.Unobstructed ∧
      ((s.readSamples decoder numSamples none = (.ok none, s') ∧ s.remaining decoder = [] ∧
          s'.remaining decoder = []) ∨
        ∃ data, s.readSamples decoder numSamples none = (.ok (some data), s') ∧
          (0 < numSamples → data.items ≠ []) ∧
          s.remaining decoder = data.items ++ s'.remaining decoder) := by
  induction left : s.pending using Nat.strong_induction_on generalizing s with
  | _ k ih =>
      rcases findChunk_first standing.toIndexed standing.caught with
        ⟨missing, ended⟩ | ⟨before, chunk, after, split, ended, selected, found⟩
      · obtain ⟨read, nothing⟩ := standing.read_ended decoder missing ended numSamples
        exact ⟨s, SameFile.refl s, standing, clear, Or.inl ⟨read, nothing, nothing⟩⟩
      · obtain ⟨way, rest⟩ := (unobstructed_found split ended selected).mp clear
        obtain ⟨reached, past, -⟩ := selected_before selected
        cases way with
        | inl decodable =>
            obtain ⟨count, read, some, advanced, joined⟩ :=
              standing.read_decodable decoder split ended selected decodable found numSamples
            have same := s.afterRead_sameFile chunk before.length numSamples
            refine ⟨_, same, advanced, ?_, Or.inr ⟨_, read, some, joined⟩⟩
            rw [Unobstructed, smooth_same same, same.sampChunkOffsets, split]
            exact smooth_upTo (fun earlier taken => meets_later (Nat.le_add_right _ _)
              (ended earlier taken)) (selects_iff.mp selected).1
              (show s.currentSampleIndex + s.toRead chunk numSamples ≤ _ by omega)
              (Or.inl decodable) rest
        | inr passable =>
            obtain ⟨read, advanced, fewer, joined⟩ :=
              standing.read_passable decoder split ended selected passable found
            have same := s.afterSkip_sameFile chunk before.length
            have later : (s.afterSkip chunk before.length).Unobstructed := by
              rw [Unobstructed, smooth_same same, same.sampChunkOffsets, split]
              exact smooth_upTo (fun earlier taken => meets_later past.le (ended earlier taken))
                (selects_iff.mp selected).1 le_rfl (Or.inr rfl) rest
            obtain ⟨s', same', rest⟩ := ih _ (left ▸ fewer) advanced later rfl
            rw [read, joined]
            exact ⟨s', same.trans same', rest⟩

/-- With nothing in the way, the reads return all that is left. -/
theorem Standing.plays (standing : s.Standing) (clear : s.Unobstructed) (counts : List Nat) :
    Plays (s.reads decoder counts) (s.remaining decoder) := by
  induction counts generalizing s with
  | nil => exact .done _
  | cons numSamples counts ih =>
      obtain ⟨s', -, standing', clear', nothing | some⟩ := standing.read decoder clear numSamples
      · obtain ⟨read, none, none'⟩ := nothing
        have rest := ih standing' clear'
        rw [none'] at rest
        rw [reads, read, none]
        exact .nothing rest
      · obtain ⟨data, read, nonempty, joined⟩ := some
        rw [reads, read]
        exact .some nonempty joined (ih standing' clear')

end RtsaSource

end SdrAaronia
