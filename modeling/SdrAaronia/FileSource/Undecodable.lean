import SdrAaronia.FileSource.Playback

/-! # Undecodable chunks

Chunks that the reader cannot decode stand between chunks that it can.  Playback
gets past them exactly when no check refuses them where the cursor meets them.
-/

namespace SdrAaronia

open HttpStreaming

/-- The reader has nothing that decodes the payload or sample type, or the samples
are of no values. -/
def SampChunk.Undecodable (c : SampChunk) : Prop := c.isDecoded = false ∨ c.sampleSize = 0

namespace RtsaSource

variable {Real Sample : Type} (decoder : SampleDecoder Real Sample)

/-- All that the chunk holds. -/
def whole (s : RtsaSource) (chunk : Nat × SampChunk) : List (Sample ⊕ Real) :=
  if chunk.2.streamId = s.iqStreamId ∧ chunk.2.isDecoded = true then
    s.itemsBetween decoder chunk 0 chunk.2.numSamples
  else []

/-- All that the chunks of the stream hold, in file order. -/
def wholeStream (s : RtsaSource) (chunks : List (Nat × SampChunk)) : List (Sample ⊕ Real) :=
  chunks.flatMap (s.whole decoder)

/-- Every chunk of the stream can be decoded in full or not at all. -/
def Mixed (s : RtsaSource) (chunks : List (Nat × SampChunk)) : Prop :=
  ∀ chunk ∈ chunks, chunk.2.streamId = s.iqStreamId → s.Decodable chunk ∨ chunk.2.Undecodable

/-- `mark` is the furthest sample that the chunks in front end at.  No decodable
chunk starts short of it, and an undecodable one that ends past it is passed. -/
def Clear (s : RtsaSource) : Nat → List (Nat × SampChunk) → Prop
  | _, [] => True
  | mark, chunk :: chunks =>
      if chunk.2.streamId = s.iqStreamId then
        (s.Decodable chunk → chunk.2.numSamples = 0 ∨ mark ≤ s.startOf chunk.1) ∧
          (chunk.2.Undecodable → s.endOf chunk ≤ mark ∨
            Passable chunk (mark - s.startOf chunk.1)) ∧
          Clear s (max mark (s.endOf chunk)) chunks
      else Clear s mark chunks

variable {s : RtsaSource} {chunk : Nat × SampChunk}

theorem Decodable.not_undecodable (decodable : s.Decodable chunk) : ¬chunk.2.Undecodable := by
  rintro (undecoded | empty)
  · rw [decodable.decoded] at undecoded
    cases undecoded
  · have stride := decodable.stride
    rw [SampChunk.sampleStrideBytes, empty, Nat.zero_mul] at stride
    exact Nat.lt_irrefl 0 stride

theorem itemsBetween_empty (undecodable : chunk.2.Undecodable)
    (decoded : chunk.2.isDecoded = true) (first last : Nat) :
    s.itemsBetween decoder chunk first last = [] := by
  have empty : chunk.2.sampleSize = 0 := undecodable.resolve_left (by
    rw [decoded]
    exact Bool.false_ne_true.symm)
  rw [itemsBetween, SampChunk.sampleStrideBytes, empty, Nat.zero_mul, Nat.mul_zero,
    List.take_zero, payloadData_nil]

theorem part_of_undecodable (undecodable : chunk.2.Undecodable) (first : Nat) :
    (if chunk.2.isDecoded = true then
      s.itemsBetween decoder chunk first chunk.2.numSamples else []) = [] := by
  split
  · exact itemsBetween_empty decoder undecodable ‹_› _ _
  · rfl

theorem whole_of_undecodable (undecodable : chunk.2.Undecodable) :
    s.whole decoder chunk = [] := by
  rw [whole]
  split
  · rename_i playing
    exact itemsBetween_empty decoder undecodable playing.2 _ _
  · rfl

theorem whole_of_decodable (stream : chunk.2.streamId = s.iqStreamId)
    (decodable : s.Decodable chunk) :
    s.whole decoder chunk = s.itemsBetween decoder chunk 0 chunk.2.numSamples :=
  if_pos ⟨stream, decodable.decoded⟩

theorem of_other_stream (stream : chunk.2.streamId ≠ s.iqStreamId) (mark : Nat) :
    s.whole decoder chunk = [] ∧ s.meets mark chunk = false :=
  ⟨if_neg fun playing => stream playing.1, decide_eq_false fun met => stream met.1⟩

/-- What is played of a decodable chunk and behind it is all there is exactly when the chunk is
played from its first sample on. -/
theorem Decodable.whole_played_iff (decodable : s.Decodable chunk) {first : Nat}
    {later played : List (Sample ⊕ Real)} (most : played.length ≤ later.length) :
    s.itemsBetween decoder chunk 0 chunk.2.numSamples ++ later =
        s.itemsBetween decoder chunk first chunk.2.numSamples ++ played ↔
      (chunk.2.numSamples = 0 ∨ first = 0) ∧ later = played := by
  by_cases fromStart : chunk.2.numSamples = 0 ∨ first = 0
  · have same : s.itemsBetween decoder chunk first chunk.2.numSamples =
        s.itemsBetween decoder chunk 0 chunk.2.numSamples := by
      rcases fromStart with none | atStart
      · rw [itemsBetween_self decoder s chunk (by omega),
          itemsBetween_self decoder s chunk (by omega)]
      · rw [atStart]
    rw [same, List.append_cancel_left_eq]
    exact ⟨fun rest => ⟨fromStart, rest⟩, fun both => both.2⟩
  · refine ⟨fun same => ?_, fun both => absurd both.1 fromStart⟩
    rw [not_or] at fromStart
    have lengths := congrArg List.length same
    have fewer : (s.itemsBetween decoder chunk first chunk.2.numSamples).length <
        chunk.2.numSamples * chunk.2.itemWidth := by
      by_cases ordered : first ≤ chunk.2.numSamples
      · rw [decodable.items_length decoder ordered le_rfl]
        exact Nat.mul_lt_mul_of_pos_right (by omega) decodable.itemWidth_pos
      · rw [itemsBetween_self decoder s chunk (by omega)]
        exact Nat.mul_pos (Nat.pos_of_ne_zero fromStart.1) decodable.itemWidth_pos
    rw [List.length_append, List.length_append,
      decodable.items_length decoder (Nat.zero_le _) le_rfl, Nat.sub_zero] at lengths
    omega

theorem played_length_le {chunks : List (Nat × SampChunk)} (mixed : s.Mixed chunks)
    (mark : Nat) :
    (s.played decoder mark chunks).length ≤ (s.wholeStream decoder chunks).length := by
  induction chunks generalizing mark with
  | nil => exact Nat.le_refl 0
  | cons chunk chunks ih =>
      have rest := ih fun later member => mixed later (List.mem_cons_of_mem _ member)
      rw [wholeStream, List.flatMap_cons, List.length_append, ← wholeStream]
      by_cases stream : chunk.2.streamId = s.iqStreamId
      · have later := rest (max mark (s.endOf chunk))
        rw [played_of_stream decoder stream, List.length_append]
        cases mixed chunk List.mem_cons_self stream with
        | inl decodable =>
            have most : (s.itemsBetween decoder chunk (mark - s.startOf chunk.1)
                chunk.2.numSamples).length ≤
                  (s.itemsBetween decoder chunk 0 chunk.2.numSamples).length := by
              rw [decodable.items_length decoder (Nat.zero_le _) le_rfl]
              by_cases ordered : mark - s.startOf chunk.1 ≤ chunk.2.numSamples
              · rw [decodable.items_length decoder ordered le_rfl]
                exact Nat.mul_le_mul_right _ (by omega)
              · rw [itemsBetween_self decoder s chunk (by omega)]
                exact Nat.zero_le _
            rw [if_pos decodable.decoded, whole_of_decodable decoder stream decodable]
            omega
        | inr undecodable =>
            rw [part_of_undecodable decoder undecodable, List.length_nil]
            omega
      · have later := rest mark
        obtain ⟨nothing, other⟩ := of_other_stream decoder stream mark
        rw [played, other, nothing, List.length_nil, Nat.zero_add]
        exact later

/-- Nothing is in the way and nothing is left out exactly when the way is clear. -/
theorem clear_iff {chunks : List (Nat × SampChunk)} (mixed : s.Mixed chunks) (mark : Nat) :
    (s.Smooth mark chunks ∧ s.wholeStream decoder chunks = s.played decoder mark chunks) ↔
      s.Clear mark chunks := by
  induction chunks generalizing mark with
  | nil => exact ⟨fun _ => trivial, fun _ => ⟨trivial, rfl⟩⟩
  | cons chunk chunks ih =>
      have rest : s.Mixed chunks := fun later member =>
        mixed later (List.mem_cons_of_mem _ member)
      rw [wholeStream, List.flatMap_cons, ← wholeStream, Clear]
      by_cases stream : chunk.2.streamId = s.iqStreamId
      · rw [smooth_of_stream stream, played_of_stream decoder stream, if_pos stream, ← ih rest]
        cases mixed chunk List.mem_cons_self stream with
        | inl decodable =>
            have most := played_length_le decoder rest (max mark (s.endOf chunk))
            have undecodable := decodable.not_undecodable
            rw [if_pos decodable.decoded, whole_of_decodable decoder stream decodable,
              decodable.whole_played_iff decoder most, Nat.sub_eq_zero_iff_le]
            exact ⟨fun ⟨⟨_, smooth⟩, atStart, same⟩ =>
                ⟨fun _ => atStart, fun wrong => absurd wrong undecodable, smooth, same⟩,
              fun ⟨atStart, _, smooth, same⟩ =>
                ⟨⟨fun _ => Or.inl decodable, smooth⟩, atStart decodable, same⟩⟩
        | inr undecodable =>
            have decodable : ¬s.Decodable chunk := fun decodable =>
              decodable.not_undecodable undecodable
            rw [part_of_undecodable decoder undecodable, whole_of_undecodable decoder undecodable,
              List.nil_append, List.nil_append]
            constructor
            · rintro ⟨⟨way, smooth⟩, same⟩
              refine ⟨fun wrong => absurd wrong decodable, fun _ => ?_, smooth, same⟩
              by_cases within : mark < s.endOf chunk
              · exact Or.inr ((way within).resolve_left decodable)
              · exact Or.inl (Nat.le_of_not_lt within)
            · rintro ⟨-, passed, smooth, same⟩
              exact ⟨⟨fun within => Or.inr ((passed undecodable).resolve_left
                (Nat.not_le_of_lt within)), smooth⟩, same⟩
      · obtain ⟨nothing, other⟩ := of_other_stream decoder stream mark
        rw [Smooth, played, other, if_neg Bool.false_ne_true, if_neg Bool.false_ne_true,
          if_neg stream, nothing, List.nil_append]
        exact ih rest mark

/-! ## Reads -/

theorem Mixed.same {s' : RtsaSource} (same : SameFile s s')
    (mixed : s.Mixed s.sampChunkOffsets) : s'.Mixed s'.sampChunkOffsets := by
  intro chunk member stream
  rw [same.sampChunkOffsets] at member
  rw [same.iqStreamId] at stream
  exact (mixed chunk member stream).imp (Decodable.same same) id

theorem dataOf_undecodable (undecodable : chunk.2.Undecodable)
    (decoded : chunk.2.isDecoded = true) (numSamples : Nat) :
    (s.dataOf decoder chunk numSamples).items = [] := by
  have empty : chunk.2.sampleSize = 0 := undecodable.resolve_left (by
    rw [decoded]
    exact Bool.false_ne_true.symm)
  rw [dataOf, SampChunk.sampleStrideBytes, empty, Nat.zero_mul, Nat.mul_zero, List.take_zero,
    payloadData_nil]

theorem passable_of_accepts (selected : s.selects none chunk = true)
    (undecoded : chunk.2.isDecoded = false) (accepts : s.refuses chunk 1 = false) :
    Passable chunk (s.currentSampleIndex - s.startOf chunk.1) := by
  obtain ⟨-, near, holds⟩ := refuses_false accepts
  obtain ⟨reached, past, before⟩ := selected_before selected
  rw [endOf] at past
  rw [dataStart, before] at near
  rw [before] at holds
  refine ⟨undecoded, near, fun plain => ?_⟩
  by_contra short
  rw [(holdsNone_iff (by omega) Nat.one_pos).mpr ⟨plain, short⟩] at holds
  cases holds

/-- Past the chunk found a source stands at its end, whichever way it got there. -/
theorem smooth_behind {s' : RtsaSource} {before after : List (Nat × SampChunk)}
    (split : s.sampChunkOffsets = before ++ chunk :: after)
    (ended : ∀ earlier ∈ before, s.ahead earlier = false)
    (past : s.currentSampleIndex ≤ s.endOf chunk) (same : SameFile s s')
    (moved : s'.currentSampleIndex = s.endOf chunk) (clear : s'.Unobstructed) :
    s.Smooth (s.endOf chunk) after := by
  rw [Unobstructed, smooth_same same, same.sampChunkOffsets, split, moved,
    smooth_skip fun earlier taken => meets_later past (ended earlier taken), Smooth,
    show s.meets (s.endOf chunk) chunk = false from
      decide_eq_false fun met => Nat.lt_irrefl _ met.2,
    if_neg Bool.false_ne_true] at clear
  exact clear

theorem plays_afterRead {s' : RtsaSource} {numSamples : Nat} {data : SampleData Real Sample}
    {expected : List (Sample ⊕ Real)}
    (read : s.readSamples decoder numSamples none = (.ok (some data), s'))
    (plays : ∀ counts, Plays (s.reads decoder counts) expected) :
    ∃ later, expected = data.items ++ later ∧
      ∀ counts, Plays (s'.reads decoder counts) later := by
  have rest : ∀ counts, ∃ later, expected = data.items ++ later ∧
      Plays (s'.reads decoder counts) later := by
    intro counts
    have all := plays (numSamples :: counts)
    rw [reads, read] at all
    cases all with
    | some nonempty cut rest => exact ⟨_, cut, rest⟩
  obtain ⟨later, cut, -⟩ := rest []
  refine ⟨later, cut, fun counts => ?_⟩
  obtain ⟨other, cut', played⟩ := rest counts
  rw [List.append_cancel_left (cut.symm.trans cut')]
  exact played

theorem plays_afterSkip {s' : RtsaSource} {expected : List (Sample ⊕ Real)}
    (read : ∀ numSamples, s.readSamples decoder numSamples none =
      s'.readSamples decoder numSamples none)
    (plays : ∀ counts, Plays (s.reads decoder counts) expected) (counts : List Nat) :
    Plays (s'.reads decoder counts) expected := by
  cases counts with
  | nil => exact .done _
  | cons numSamples counts =>
      have all := plays (numSamples :: counts)
      rw [reads, read] at all
      exact all

/-- A read for one sample that plays gets past an undecodable chunk. -/
theorem Standing.passable_of_plays (standing : s.Standing) {expected : List (Sample ⊕ Real)}
    {index : Nat} (selected : s.selects none chunk = true) (undecodable : chunk.2.Undecodable)
    (found : s.findChunk none = some (chunk, index))
    (plays : Plays (s.reads decoder [1]) expected) :
    Passable chunk (s.currentSampleIndex - s.startOf chunk.1) := by
  rw [reads, readSamples_eq decoder standing.standard, found] at plays
  rcases readFound_cases decoder s chunk index 1 with failed | served | passed
  · obtain ⟨e, position, failed⟩ := failed
    simp only [failed] at plays
    cases plays
  · obtain ⟨-, decoded, -, -, served⟩ := served
    simp only [served] at plays
    cases plays with
    | some nonempty cut rest =>
        exact absurd (dataOf_undecodable decoder undecodable decoded 1) (nonempty Nat.one_pos)
  · exact passable_of_accepts selected passed.2.1 passed.1

/-- If every sequence of reads returns the start of `expected`, nothing is in the
way and `expected` is what is left. -/
theorem Standing.plays_only (standing : s.Standing) (mixed : s.Mixed s.sampChunkOffsets)
    {expected : List (Sample ⊕ Real)}
    (plays : ∀ counts, Plays (s.reads decoder counts) expected) :
    s.Unobstructed ∧ expected = s.remaining decoder := by
  induction left : s.pending using Nat.strong_induction_on generalizing s expected with
  | _ k ih =>
      rcases findChunk_first standing.toIndexed standing.caught with
        ⟨missing, ended⟩ | ⟨before, chunk, after, split, ended, selected, found⟩
      · obtain ⟨read, nothing⟩ := standing.read_ended decoder missing ended 1
        have first := plays [1]
        rw [reads, read] at first
        constructor
        · rw [Unobstructed, ← List.append_nil s.sampChunkOffsets]
          exact (smooth_skip ended []).mpr trivial
        · cases first with
          | nothing rest => exact nothing.symm
      · have member : chunk ∈ s.sampChunkOffsets := mem_of_split split
        obtain ⟨reached, past, -⟩ := selected_before selected
        have stream := (selects_iff.mp selected).1
        rw [unobstructed_found split ended selected]
        cases mixed chunk member stream with
        | inl decodable =>
            obtain ⟨count, read, -, advanced, joined⟩ := standing.read_decodable decoder split
              ended selected decodable found (2 ^ 32 - 1)
            have same := s.afterRead_sameFile chunk before.length (2 ^ 32 - 1)
            have moved : (s.afterRead chunk before.length (2 ^ 32 - 1)).currentSampleIndex =
                s.endOf chunk := by
              have narrow := chunk.2.numSamples_lt
              have few : s.endOf chunk - s.currentSampleIndex ≤ 2 ^ 32 - 1 := by
                rw [endOf]
                omega
              show s.currentSampleIndex + s.toRead chunk (2 ^ 32 - 1) = _
              omega
            obtain ⟨later, cut, plays'⟩ := plays_afterRead decoder read plays
            obtain ⟨clear, remains⟩ := ih _ (left ▸ pending_skip same member past moved) advanced
              (mixed.same same) plays' rfl
            exact ⟨⟨Or.inl decodable, smooth_behind split ended past.le same moved clear⟩, by
              rw [cut, remains, joined]⟩
        | inr undecodable =>
            have passable :=
              standing.passable_of_plays decoder selected undecodable found (plays [1])
            obtain ⟨read, advanced, fewer, joined⟩ :=
              standing.read_passable decoder split ended selected passable found
            have same := s.afterSkip_sameFile chunk before.length
            obtain ⟨clear, remains⟩ := ih _ (left ▸ fewer) advanced (mixed.same same)
              (plays_afterSkip decoder read plays) rfl
            exact ⟨⟨Or.inr passable, smooth_behind split ended past.le same rfl clear⟩,
              remains.trans joined.symm⟩

/-- Every sequence of reads returns every sample of every decodable chunk in file
order, with no error, exactly when the way is clear from the first sample on. -/
theorem undecodable_passed_iff {parsed : RtsaParse} {iqStreamId : Nat}
    (standard : parsed.sampChunkOffsets ≠ [])
    (mixed : (ofParse parsed iqStreamId).Mixed parsed.sampChunkOffsets) :
    (∀ counts, Plays ((ofParse parsed iqStreamId).reads decoder counts)
        ((ofParse parsed iqStreamId).wholeStream decoder parsed.sampChunkOffsets)) ↔
      (ofParse parsed iqStreamId).Clear 0 parsed.sampChunkOffsets := by
  have standing : (ofParse parsed iqStreamId).Standing :=
    ⟨indexed_ofParse standard iqStreamId, by
      intro chunk taken
      cases taken⟩
  rw [← clear_iff decoder mixed 0]
  constructor
  · exact fun plays => standing.plays_only decoder mixed plays
  · rintro ⟨clear, same⟩ counts
    rw [same]
    exact standing.plays decoder clear counts

/-- A generic chunk, which is never decoded, in front of an IQ sample. -/
def mixedFile (sampleType : DspStreamSampleType) : RtsaParse :=
  smallFile (smallChunk sampleType .generic 0 1) (smallChunk .f32 .iq 0 1)

theorem mixedFile_mixed (sampleType : DspStreamSampleType) :
    (ofParse (mixedFile sampleType) 1).Mixed (mixedFile sampleType).sampChunkOffsets := by
  intro chunk member _
  simp only [mixedFile, smallFile, List.mem_cons, List.not_mem_nil, or_false] at member
  rcases member with rfl | rfl
  · exact Or.inr (Or.inl rfl)
  · exact Or.inl ⟨rfl, rfl, rfl, by decide, by decide,
      by simp [ofParse, mixedFile, smallFile]; decide⟩

theorem undecodable_passed_iff_mixedFile :
    Plays ((ofParse (mixedFile .f32) 1).reads rawDecoder [1, 1])
      ((ofParse (mixedFile .f32) 1).wholeStream rawDecoder (mixedFile .f32).sampChunkOffsets) := by
  have standard : (mixedFile .f32).sampChunkOffsets ≠ [] := by simp [mixedFile, smallFile]
  refine (undecodable_passed_iff rawDecoder standard (mixedFile_mixed .f32)).mpr ?_ [1, 1]
  have generic : Passable (304, smallChunk .f32 .generic 0 1) 0 :=
    ⟨rfl, by decide, fun _ => by decide⟩
  have notDecoded : ¬(ofParse (mixedFile .f32) 1).Decodable (304, smallChunk .f32 .generic 0 1) :=
    fun decodable => Bool.false_ne_true decodable.decoded
  have decoded : ¬(smallChunk .f32 .iq 0 1).Undecodable := by
    rintro (undecoded | empty)
    · cases undecoded
    · cases empty
  exact ⟨fun wrong => absurd wrong notDecoded, fun _ => Or.inr generic,
    fun _ => Or.inr (by decide), fun wrong => absurd wrong decoded, trivial⟩

theorem plays_ok {results : List (Nat × Except Error (Option (SampleData Real Sample)))}
    {expected : List (Sample ⊕ Real)} (plays : Plays results expected) :
    results.all (fun read => read.2.isOk) = true := by
  induction plays with
  | done expected => rfl
  | nothing rest ih => exact ih
  | some nonempty split rest ih => exact ih

/-- A chunk of unknown sample type fails the read, and every read after it. -/
theorem unknown_type_blocks :
    (ofParse (mixedFile .unknown) 1).Mixed (mixedFile .unknown).sampChunkOffsets ∧
      ¬Plays ((ofParse (mixedFile .unknown) 1).reads rawDecoder [1, 1])
        ((ofParse (mixedFile .unknown) 1).wholeStream rawDecoder
          (mixedFile .unknown).sampChunkOffsets) := by
  refine ⟨mixedFile_mixed .unknown, fun plays => ?_⟩
  have fails : ((ofParse (mixedFile .unknown) 1).reads rawDecoder [1, 1]).all
      (fun read => read.2.isOk) = false := by
    decide +kernel
  rw [plays_ok plays] at fails
  cases fails

end RtsaSource

end SdrAaronia
