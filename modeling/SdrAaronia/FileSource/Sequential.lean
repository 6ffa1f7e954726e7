import SdrAaronia.FileSource.Playback

/-! # Sequential playback

With one sub-stream the cursor counts the samples of the whole stream, so playing
from sample `k` on returns what every decoded chunk holds from there.
-/

namespace SdrAaronia

open HttpStreaming

namespace RtsaSource

variable {Real Sample : Type} (decoder : SampleDecoder Real Sample)

/-- What the chunk holds from sample `k` of the stream on. -/
def held (s : RtsaSource) (k : Nat) (chunk : Nat × SampChunk) : List (Sample ⊕ Real) :=
  if chunk.2.streamId = s.iqStreamId ∧ chunk.2.isDecoded = true then
    s.itemsBetween decoder chunk (k - s.startOf chunk.1) chunk.2.numSamples
  else []

/-- The decoded samples of the stream from sample `k` on, chunk by chunk. -/
def heldFrom (s : RtsaSource) (k : Nat) : List (Sample ⊕ Real) :=
  s.sampChunkOffsets.flatMap (s.held decoder k)

/-- A chunk that can be played through, or passed, from any sample on. -/
structure Sound (bytes : Bytes) (chunk : Nat × SampChunk) : Prop where
  plain : chunk.2.compression = 0
  stride : 0 < chunk.2.sampleStrideBytes
  held : chunk.2.numSamples * chunk.2.sampleStrideBytes ≤ chunk.2.size - chunk.2.headerSize
  paired : chunk.2.payloadType = .iq → chunk.2.isDecoded = true ∧ chunk.2.sampleSize = 2
  inFile : chunk.2.isDecoded = true →
    chunk.1 + chunk.2.headerSize + chunk.2.numSamples * chunk.2.sampleStrideBytes ≤ bytes.length

/-- An index whose stream is one sub-stream of sound chunks. -/
structure Sequential (parsed : RtsaParse) (iqStreamId : Nat) : Prop where
  standard : parsed.sampChunkOffsets ≠ []
  oneSubStream : ∃ subStreamId, ∀ chunk ∈ parsed.sampChunkOffsets,
    chunk.2.streamId = iqStreamId → chunk.2.subStreamId = subStreamId
  sound : ∀ chunk ∈ parsed.sampChunkOffsets, chunk.2.streamId = iqStreamId →
    Sound parsed.bytes chunk

variable {s : RtsaSource} {chunk : Nat × SampChunk}

theorem Sound.decodable (sound : Sound s.reader.bytes chunk)
    (decoded : chunk.2.isDecoded = true) : s.Decodable chunk where
  decoded := decoded
  paired := by
    cases iq : chunk.2.payloadType == .iq with
    | false => rw [SampChunk.pairMismatch, iq, Bool.false_and, Bool.false_and]
    | true =>
        rw [SampChunk.pairMismatch, (sound.paired (eq_of_beq iq)).2, bne_self_eq_false,
          Bool.and_false]
  plain := sound.plain
  stride := sound.stride
  held := sound.held
  inFile := sound.inFile decoded

theorem Sound.passable (sound : Sound s.reader.bytes chunk) (seekable : s.Seekable)
    (member : chunk ∈ s.sampChunkOffsets) (undecoded : chunk.2.isDecoded = false)
    {before : Nat} (inside : before < chunk.2.numSamples) : Passable chunk before := by
  have near := seekable chunk member
  have narrow := chunk.2.size_lt
  have held := sound.held
  have stride := sound.stride
  have reached := Nat.mul_le_mul_right chunk.2.sampleStrideBytes (Nat.succ_le_of_lt inside)
  rw [Nat.succ_mul] at reached
  have skip : chunk.2.bytesToSkip before = before * chunk.2.sampleStrideBytes :=
    Nat.mod_eq_of_lt (by omega)
  refine ⟨undecoded, ?_, fun _ => ⟨stride, by omega⟩⟩
  rw [SampChunk.dataStartOffset, skip, Nat.mod_eq_of_lt (by omega)]
  omega

theorem counted_le_start (indexed : s.Indexed) {key : Nat × Nat}
    {before after : List (Nat × SampChunk)}
    (split : s.sampChunkOffsets = before ++ after) (member : chunk ∈ after)
    (keyed : streamKey chunk = key) : counted key before ≤ s.startOf chunk.1 := by
  obtain ⟨between, rest, rfl⟩ := List.append_of_mem member
  have place : s.sampChunkOffsets = (before ++ between) ++ chunk :: rest := by
    rw [split, List.append_assoc]
  rw [startOf_eq indexed place, keyed, counted_append]
  exact Nat.le_add_right _ _

/-- A cursor that goes on to `mark` meets the same of the chunks that start there or later. -/
theorem held_max (cursor : Nat) {mark : Nat}
    (behind : chunk.2.streamId = s.iqStreamId → mark ≤ s.startOf chunk.1) :
    s.held decoder (max cursor mark) chunk = s.held decoder cursor chunk := by
  rw [held, held]
  split
  · rename_i playing
    have later := behind playing.1
    rw [show max cursor mark - s.startOf chunk.1 = cursor - s.startOf chunk.1 by omega]
  · rfl

/-- From a cursor that has counted the chunks in front, nothing stands in the way
of the rest, and what they hold from there is played. -/
theorem sequential_rest (indexed : s.Indexed) {subStreamId : Nat}
    (oneSubStream : ∀ chunk ∈ s.sampChunkOffsets, chunk.2.streamId = s.iqStreamId →
      chunk.2.subStreamId = subStreamId)
    (sound : ∀ chunk ∈ s.sampChunkOffsets, chunk.2.streamId = s.iqStreamId →
      Sound s.reader.bytes chunk)
    {before rest : List (Nat × SampChunk)} (split : s.sampChunkOffsets = before ++ rest)
    {cursor : Nat} (counts : counted (s.iqStreamId, subStreamId) before ≤ cursor) :
    s.Smooth cursor rest ∧ s.played decoder cursor rest = rest.flatMap (s.held decoder cursor) := by
  induction rest generalizing before cursor with
  | nil => exact ⟨trivial, rfl⟩
  | cons chunk rest ih =>
      have member : chunk ∈ s.sampChunkOffsets := mem_of_split split
      have next : s.sampChunkOffsets = (before ++ [chunk]) ++ rest := by
        rw [split, List.append_assoc, List.cons_append, List.nil_append]
      have total := counted_append (s.iqStreamId, subStreamId) before [chunk]
      simp only [counted, Nat.add_zero] at total
      by_cases stream : chunk.2.streamId = s.iqStreamId
      · have keyed : streamKey chunk = (s.iqStreamId, subStreamId) := by
          rw [streamKey, stream, oneSubStream chunk member stream]
        have start : s.startOf chunk.1 = counted (s.iqStreamId, subStreamId) before := by
          rw [startOf_eq indexed split, keyed]
        rw [if_pos keyed, ← start, ← endOf] at total
        obtain ⟨smooth, plays⟩ := ih next (total.le.trans (le_max_right cursor _))
        rw [smooth_of_stream stream, played_of_stream decoder stream, List.flatMap_cons]
        refine ⟨⟨fun within => ?_, smooth⟩, ?_⟩
        · cases decoded : chunk.2.isDecoded with
          | true => exact Or.inl ((sound chunk member stream).decodable decoded)
          | false =>
              rw [endOf] at within
              exact Or.inr ((sound chunk member stream).passable indexed.seekable member decoded
                (by omega))
        · have later : rest.flatMap (s.held decoder (max cursor (s.endOf chunk))) =
              rest.flatMap (s.held decoder cursor) := by
            apply List.flatMap_congr
            intro other otherMember
            refine held_max decoder cursor fun playedToo => ?_
            have otherKeyed : streamKey other = (s.iqStreamId, subStreamId) := by
              rw [streamKey, playedToo, oneSubStream other (by
                rw [next]
                exact List.mem_append_right _ otherMember) playedToo]
            exact total ▸ counted_le_start indexed next otherMember otherKeyed
          rw [plays, later, held]
          simp only [stream, true_and]
      · have passed : s.meets cursor chunk = false := decide_eq_false fun met => stream met.1
        have other : ¬streamKey chunk = (s.iqStreamId, subStreamId) := fun keyed =>
          stream (congrArg Prod.fst keyed)
        rw [if_neg other] at total
        obtain ⟨smooth, plays⟩ := ih next (total.le.trans counts)
        rw [Smooth, played, List.flatMap_cons, passed, if_neg Bool.false_ne_true,
          if_neg Bool.false_ne_true]
        refine ⟨smooth, ?_⟩
        rw [plays, held, if_neg fun playedToo => stream playedToo.1, List.nil_append]

/-! ## Playback -/

def run (s : RtsaSource) (calls : List RtsaCall) : RtsaSource := calls.foldl (call decoder) s

theorem run_sameFile (s : RtsaSource) (calls : List RtsaCall) :
    SameFile s (s.run decoder calls) := by
  induction calls generalizing s with
  | nil => exact SameFile.refl s
  | cons c calls ih => exact (call_sameFile decoder s c).trans (ih (s.call decoder c))

theorem seekToSample_ok {s' : RtsaSource} {sampleIndex : Nat}
    (standard : s.rawIqDataEndOffset = none)
    (sought : s.seekToSample sampleIndex = (.ok (), s')) :
    s'.currentSampleIndex = sampleIndex ∧ s'.chunkScanHint = 0 := by
  rw [seekToSample, standard] at sought
  split at sought
  · simp at sought
  · simp only [Option.isSome_none, Bool.false_eq_true, if_false] at sought
    split at sought
    · simp at sought
    · split at sought
      · simp at sought
      · obtain rfl := (Prod.mk.inj sought).2
        exact ⟨rfl, rfl⟩

theorem heldFrom_same {s' : RtsaSource} (same : SameFile s s') (k : Nat) :
    s'.heldFrom decoder k = s.heldFrom decoder k := by
  rw [heldFrom, heldFrom, same.sampChunkOffsets]
  apply List.flatMap_congr
  intro chunk _
  rw [held, held, same.iqStreamId, same.startOf, itemsBetween, itemsBetween, same.bytes,
    payloadData_same decoder same]

/-- Playing on from wherever the scan is at the start of the index. -/
theorem Sequential.plays {parsed : RtsaParse} {iqStreamId : Nat}
    (sequential : Sequential parsed iqStreamId) (same : SameFile (ofParse parsed iqStreamId) s)
    (hint : s.chunkScanHint = 0) (counts : List Nat) :
    Plays (s.reads decoder counts)
      ((ofParse parsed iqStreamId).heldFrom decoder s.currentSampleIndex) := by
  have indexed := (indexed_ofParse sequential.standard iqStreamId).same same
  have standing : s.Standing := ⟨indexed, by
    intro chunk taken
    rw [hint, List.take_zero] at taken
    cases taken⟩
  obtain ⟨subStreamId, oneSubStream⟩ := sequential.oneSubStream
  have one : ∀ chunk ∈ s.sampChunkOffsets, chunk.2.streamId = s.iqStreamId →
      chunk.2.subStreamId = subStreamId := by
    rw [same.sampChunkOffsets, same.iqStreamId]
    exact oneSubStream
  have sound : ∀ chunk ∈ s.sampChunkOffsets, chunk.2.streamId = s.iqStreamId →
      Sound s.reader.bytes chunk := by
    rw [same.sampChunkOffsets, same.iqStreamId, same.bytes]
    exact sequential.sound
  obtain ⟨smooth, plays⟩ := sequential_rest decoder indexed one sound (List.nil_append _).symm
    (Nat.zero_le s.currentSampleIndex)
  rw [← heldFrom_same decoder same, heldFrom, ← plays]
  exact standing.plays decoder smooth counts

/-- Reads return every decoded sample of the stream in file order, from the start
after opening and from sample `k` on after any seek there. -/
theorem sequential_playback_exact {parsed : RtsaParse} {iqStreamId : Nat}
    (sequential : Sequential parsed iqStreamId) :
    (∀ counts, Plays ((ofParse parsed iqStreamId).reads decoder counts)
        ((ofParse parsed iqStreamId).heldFrom decoder 0)) ∧
      ∀ calls k s', ((ofParse parsed iqStreamId).run decoder calls).seekToSample k = (.ok (), s') →
        ∀ counts, Plays (s'.reads decoder counts)
          ((ofParse parsed iqStreamId).heldFrom decoder k) := by
  constructor
  · exact sequential.plays decoder (SameFile.refl _) rfl
  · intro calls k s' sought
    have ran := run_sameFile decoder (ofParse parsed iqStreamId) calls
    have standard : ((ofParse parsed iqStreamId).run decoder calls).rawIqDataEndOffset = none :=
      ran.rawIqDataEndOffset.trans
        (indexed_ofParse sequential.standard iqStreamId).standard
    obtain ⟨cursor, hint⟩ := seekToSample_ok standard sought
    have moved := seekToSample_sameFile ((ofParse parsed iqStreamId).run decoder calls) k
    rw [sought] at moved
    rw [← cursor]
    exact sequential.plays decoder (ran.trans moved) hint

/-- An IQ sample, then a spectrum of two bins. -/
def spectraFile : RtsaParse := smallFile (smallChunk .f32 .iq 0 1) (smallChunk .f32 .spectra 0 1)

theorem spectraFile_sequential : Sequential spectraFile 1 where
  standard := by simp [spectraFile, smallFile]
  oneSubStream := ⟨0, by simp [spectraFile, smallFile, smallChunk]⟩
  sound := by
    intro chunk member _
    simp only [spectraFile, smallFile, List.mem_cons, List.not_mem_nil, or_false] at member
    rcases member with rfl | rfl <;>
      exact ⟨rfl, by decide, by decide, by decide, by simp [spectraFile, smallFile]; decide⟩

theorem sequential_playback_exact_spectraFile :
    Sequential spectraFile 1 ∧
      Plays ((ofParse spectraFile 1).reads rawDecoder [2, 2, 2])
        ((ofParse spectraFile 1).heldFrom rawDecoder 0) :=
  ⟨spectraFile_sequential,
    (sequential_playback_exact rawDecoder spectraFile_sequential).1 [2, 2, 2]⟩

/-- A read for samples that returned some. -/
def served : Nat × Except Error (Option (SampleData Real Sample)) → Bool
  | (numSamples, .ok (some _)) => decide (0 < numSamples)
  | _ => false

/-- Each served read takes at least one item. -/
theorem countP_served_le {results : List (Nat × Except Error (Option (SampleData Real Sample)))}
    {expected : List (Sample ⊕ Real)} (plays : Plays results expected) :
    results.countP served ≤ expected.length := by
  induction plays with
  | done expected => exact Nat.zero_le _
  | nothing rest ih =>
      rw [List.countP_cons_of_neg (by simp [served])]
      exact ih
  | @some numSamples data reads expected left nonempty split rest ih =>
      rw [List.countP_cons, split, List.length_append]
      split
      · rename_i asked
        have item := List.length_pos_of_ne_nil (nonempty (of_decide_eq_true asked))
        omega
      · omega

/-- The samples of the IQ chunks alone. -/
def iqHeldFrom (s : RtsaSource) (k : Nat) : List (Sample ⊕ Real) :=
  (s.sampChunkOffsets.filter fun chunk => chunk.2.payloadType == .iq).flatMap (s.held decoder k)

/-- The second read returns the spectrum. -/
theorem spectra_are_played :
    Sequential spectraFile 1 ∧
      ¬Plays ((ofParse spectraFile 1).reads rawDecoder [1, 1])
        ((ofParse spectraFile 1).iqHeldFrom rawDecoder 0) := by
  refine ⟨spectraFile_sequential, fun plays => ?_⟩
  have both : ((ofParse spectraFile 1).reads rawDecoder [1, 1]).countP served = 2 := by
    decide +kernel
  have one : ((ofParse spectraFile 1).iqHeldFrom rawDecoder 0).length = 1 := by
    decide +kernel
  have items := countP_served_le plays
  omega

end RtsaSource

end SdrAaronia
