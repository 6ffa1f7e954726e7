import SdrAaronia.FileSource.Scan
import Mathlib.Data.List.Induction

/-! # The index of a capture file

Each chunk starts where its sub-stream's count stood.  Whatever the sub-streams,
the first chunk in file order that ends past the cursor holds the cursor, so a
scan that left only ended chunks behind reads the file in order.
-/

namespace SdrAaronia

namespace RtsaSource

def streamKey (chunk : Nat × SampChunk) : Nat × Nat := (chunk.2.streamId, chunk.2.subStreamId)

/-- The samples of one sub-stream in a list of chunks. -/
def counted (key : Nat × Nat) : List (Nat × SampChunk) → Nat
  | [] => 0
  | chunk :: chunks =>
      (if streamKey chunk = key then chunk.2.numSamples else 0) + counted key chunks

theorem mem_of_split {α : Type} {items before after : List α} {item : α}
    (split : items = before ++ item :: after) : item ∈ items := by
  rw [split]
  exact List.mem_append_right _ List.mem_cons_self

theorem counted_append (key : Nat × Nat) (first second : List (Nat × SampChunk)) :
    counted key (first ++ second) = counted key first + counted key second := by
  induction first with
  | nil => simp only [List.nil_append, counted, Nat.zero_add]
  | cons chunk first ih => simp only [List.cons_append, counted, ih, Nat.add_assoc]

/-- A sub-stream that counts some samples has a last chunk, which ends there. -/
theorem counted_last {key : Nat × Nat} {chunks : List (Nat × SampChunk)}
    (some : 0 < counted key chunks) :
    ∃ before chunk after, chunks = before ++ chunk :: after ∧ streamKey chunk = key ∧
      counted key before + chunk.2.numSamples = counted key chunks := by
  induction chunks using List.reverseRecOn with
  | nil => exact absurd some (Nat.lt_irrefl 0)
  | append_singleton chunks last ih =>
      have total := counted_append key chunks [last]
      by_cases same : streamKey last = key
      · simp only [counted, if_pos same, Nat.add_zero] at total
        exact ⟨chunks, last, [], rfl, same, total.symm⟩
      · simp only [counted, if_neg same, Nat.add_zero] at total
        obtain ⟨before, chunk, after, rfl, keyed, ends⟩ := ih (by omega)
        exact ⟨before, chunk, after ++ [last], by simp, keyed, by omega⟩

theorem indexChunk_start (index : (Nat → Option Nat) × (Nat × Nat → Nat))
    (chunk : Nat × SampChunk) :
    (indexChunk index chunk).1 chunk.1 = some (index.2 (streamKey chunk)) :=
  Function.update_self _ _ _

theorem indexChunk_other (index : (Nat → Option Nat) × (Nat × Nat → Nat))
    {chunk : Nat × SampChunk} {offset : Nat} (other : chunk.1 ≠ offset) :
    (indexChunk index chunk).1 offset = index.1 offset :=
  Function.update_of_ne other.symm _ _

theorem indexChunk_count (index : (Nat → Option Nat) × (Nat × Nat → Nat))
    (chunk : Nat × SampChunk) (key : Nat × Nat) :
    (indexChunk index chunk).2 key =
      index.2 key + if streamKey chunk = key then chunk.2.numSamples else 0 := by
  by_cases same : streamKey chunk = key
  · rw [if_pos same, ← same]
    exact Function.update_self _ _ _
  · rw [if_neg same, Nat.add_zero]
    exact Function.update_of_ne (Ne.symm same) _ _

theorem foldl_counts (chunks : List (Nat × SampChunk)) (key : Nat × Nat)
    (index : (Nat → Option Nat) × (Nat × Nat → Nat)) :
    (chunks.foldl indexChunk index).2 key = index.2 key + counted key chunks := by
  induction chunks generalizing index with
  | nil => rfl
  | cons chunk chunks ih => rw [List.foldl_cons, ih, counted, indexChunk_count, Nat.add_assoc]

theorem foldl_keeps {chunks : List (Nat × SampChunk)} {offset : Nat}
    (fresh : ∀ chunk ∈ chunks, chunk.1 ≠ offset)
    (index : (Nat → Option Nat) × (Nat × Nat → Nat)) :
    (chunks.foldl indexChunk index).1 offset = index.1 offset := by
  induction chunks generalizing index with
  | nil => rfl
  | cons chunk chunks ih =>
      rw [List.foldl_cons, ih fun later member => fresh later (List.mem_cons_of_mem _ member)]
      exact indexChunk_other index (fresh chunk List.mem_cons_self)

theorem startSamples_eq {before after : List (Nat × SampChunk)} {chunk : Nat × SampChunk}
    (fresh : ∀ later ∈ after, later.1 ≠ chunk.1) :
    startSamples (before ++ chunk :: after) chunk.1 =
      some (counted (streamKey chunk) before) := by
  rw [startSamples, List.foldl_append, List.foldl_cons, foldl_keeps fresh, indexChunk_start,
    foldl_counts, Nat.zero_add]

/-! ## Chunks and the cursor -/

/-- An open file with SAMP chunks. -/
structure Indexed (s : RtsaSource) : Prop where
  standard : s.rawIqDataEndOffset = none
  seekable : s.Seekable
  inOrder : s.sampChunkOffsets.Pairwise fun a b => a.1 < b.1
  starts : s.sampChunkStartSamples = startSamples s.sampChunkOffsets

theorem Indexed.same {s s' : RtsaSource} (indexed : s.Indexed) (same : SameFile s s') :
    s'.Indexed where
  standard := same.rawIqDataEndOffset.trans indexed.standard
  seekable := indexed.seekable.same same
  inOrder := by
    rw [same.sampChunkOffsets]
    exact indexed.inOrder
  starts := by
    rw [same.sampChunkStartSamples, same.sampChunkOffsets]
    exact indexed.starts

theorem indexed_ofParse {parsed : RtsaParse} (standard : parsed.sampChunkOffsets ≠ [])
    (iqStreamId : Nat) : (ofParse parsed iqStreamId).Indexed where
  standard := by
    rw [ofParse, if_neg (by simpa using standard)]
  seekable := by
    intro chunk member
    have within := parsed.inFile chunk member
    have narrow := chunk.2.size_lt
    have bytes_lt := parsed.bytes_lt
    omega
  inOrder := parsed.inOrder
  starts := rfl

variable {s : RtsaSource}

theorem startOf_eq (indexed : s.Indexed) {before after : List (Nat × SampChunk)}
    {chunk : Nat × SampChunk} (split : s.sampChunkOffsets = before ++ chunk :: after) :
    s.startOf chunk.1 = counted (streamKey chunk) before := by
  have ordered := indexed.inOrder
  rw [split, List.pairwise_append, List.pairwise_cons] at ordered
  have fresh : ∀ later ∈ after, later.1 ≠ chunk.1 := fun later member =>
    Nat.ne_of_gt (ordered.2.1.1 later member)
  rw [startOf, indexed.starts, split, startSamples_eq fresh, Option.getD_some]

/-- A chunk that does not start its sub-stream starts where an earlier one ends. -/
theorem start_reached (indexed : s.Indexed) {before after : List (Nat × SampChunk)}
    {chunk : Nat × SampChunk} (split : s.sampChunkOffsets = before ++ chunk :: after)
    (late : 0 < s.startOf chunk.1) :
    ∃ earlier ∈ before, streamKey earlier = streamKey chunk ∧
      s.endOf earlier = s.startOf chunk.1 := by
  rw [startOf_eq indexed split] at late ⊢
  obtain ⟨first, earlier, rest, rfl, keyed, ends⟩ := counted_last late
  have earlierSplit : s.sampChunkOffsets = first ++ earlier :: (rest ++ chunk :: after) := by
    rw [split, List.append_assoc, List.cons_append]
  refine ⟨earlier, by simp, keyed, ?_⟩
  rw [endOf, startOf_eq indexed earlierSplit, keyed, ends]

/-- The chunk is of the stream played and ends past the cursor. -/
def ahead (s : RtsaSource) (chunk : Nat × SampChunk) : Bool :=
  decide (chunk.2.streamId = s.iqStreamId ∧ s.currentSampleIndex < s.endOf chunk)

theorem ahead_iff {chunk : Nat × SampChunk} :
    s.ahead chunk = true ↔
      chunk.2.streamId = s.iqStreamId ∧ s.currentSampleIndex < s.endOf chunk :=
  decide_eq_true_iff

/-- The chunk passes the filter of a read and ends past the cursor. -/
def aheadFor (s : RtsaSource) (subStreamId : Option Nat) (chunk : Nat × SampChunk) : Bool :=
  decide (chunk.2.streamId = s.iqStreamId ∧
    (subStreamId = none ∨ subStreamId = some chunk.2.subStreamId) ∧
    s.currentSampleIndex < s.endOf chunk)

theorem aheadFor_iff {subStreamId : Option Nat} {chunk : Nat × SampChunk} :
    s.aheadFor subStreamId chunk = true ↔
      chunk.2.streamId = s.iqStreamId ∧
        (subStreamId = none ∨ subStreamId = some chunk.2.subStreamId) ∧
        s.currentSampleIndex < s.endOf chunk :=
  decide_eq_true_iff

theorem aheadFor_none : s.aheadFor none = s.ahead := by
  funext chunk
  rw [Bool.eq_iff_iff, aheadFor_iff, ahead_iff]
  simp only [true_or, true_and]

/-- The first chunk passing the filter that ends past the cursor holds it. -/
theorem first_ahead_selected (indexed : s.Indexed) {subStreamId : Option Nat}
    {before after : List (Nat × SampChunk)} {chunk : Nat × SampChunk}
    (split : s.sampChunkOffsets = before ++ chunk :: after)
    (ended : ∀ earlier ∈ before, s.aheadFor subStreamId earlier = false)
    (ahead : s.aheadFor subStreamId chunk = true) : s.selects subStreamId chunk = true := by
  obtain ⟨stream, passes, past⟩ := aheadFor_iff.mp ahead
  apply selects_iff.mpr
  refine ⟨stream, passes, past, ?_⟩
  by_contra notYet
  obtain ⟨earlier, member, keyed, ends⟩ := start_reached indexed split (by omega)
  have subStream : earlier.2.subStreamId = chunk.2.subStreamId := congrArg Prod.snd keyed
  have earlierAhead : s.aheadFor subStreamId earlier = true :=
    aheadFor_iff.mpr ⟨(congrArg Prod.fst keyed).trans stream, subStream ▸ passes, by omega⟩
  rw [ended earlier member] at earlierAhead
  cases earlierAhead

/-- The scan left only ended chunks behind its hint. -/
def Caught (s : RtsaSource) : Prop :=
  ∀ chunk ∈ s.sampChunkOffsets.take s.chunkScanHint, s.ahead chunk = false

/-- The same for the scans of one filter. -/
def CaughtFor (s : RtsaSource) (subStreamId : Option Nat) : Prop :=
  ∀ chunk ∈ s.sampChunkOffsets.take s.chunkScanHint, s.aheadFor subStreamId chunk = false

theorem selects_aheadFor {subStreamId : Option Nat} {chunk : Nat × SampChunk}
    (selected : s.selects subStreamId chunk = true) : s.aheadFor subStreamId chunk = true := by
  obtain ⟨stream, passes, past, -⟩ := selects_iff.mp selected
  exact aheadFor_iff.mpr ⟨stream, passes, past⟩

theorem selects_ahead {chunk : Nat × SampChunk} (selected : s.selects none chunk = true) :
    s.ahead chunk = true :=
  aheadFor_none ▸ selects_aheadFor selected

theorem not_selected {subStreamId : Option Nat} {chunk : Nat × SampChunk}
    (ended : s.aheadFor subStreamId chunk = false) : s.selects subStreamId chunk = false := by
  cases selected : s.selects subStreamId chunk with
  | false => rfl
  | true =>
      rw [selects_aheadFor selected] at ended
      cases ended

/-- A search that starts late and wraps around finds what a search from the start
finds, if it starts behind nothing that fits. -/
theorem find?_wrapped {α : Type} {p : α → Bool} {items : List α} {hint : Nat}
    (behind : ∀ item ∈ items.take hint, p item = false) :
    (items.drop hint ++ items.take hint).find? p = items.find? p := by
  have missing : (items.take hint).find? p = none :=
    List.find?_eq_none.mpr fun item member => by
      rw [behind item member]
      exact Bool.false_ne_true
  conv_rhs => rw [← List.take_append_drop hint items, List.find?_append, missing, Option.none_or]
  rw [List.find?_append, missing, Option.or_none]

theorem findChunk_resumed {subStreamId : Option Nat} (caught : s.CaughtFor subStreamId) :
    s.findChunk subStreamId =
      s.sampChunkOffsets.zipIdx.find? fun entry => s.selects subStreamId entry.1 := by
  rw [findChunk]
  apply find?_wrapped
  intro entry taken
  rw [← List.take_eq_take_min] at taken
  have early : entry.1 ∈ (s.sampChunkOffsets.zipIdx.take s.chunkScanHint).map Prod.fst :=
    List.mem_map_of_mem taken
  rw [List.map_take, List.zipIdx_map_fst] at early
  exact not_selected (caught entry.1 early)

/-- A scan in file order finds the first chunk that ends past the cursor, or all
have ended. -/
theorem findChunk_firstFor (indexed : s.Indexed) {subStreamId : Option Nat}
    (caught : s.CaughtFor subStreamId) :
    (s.findChunk subStreamId = none ∧
        ∀ chunk ∈ s.sampChunkOffsets, s.aheadFor subStreamId chunk = false) ∨
      ∃ before chunk after, s.sampChunkOffsets = before ++ chunk :: after ∧
        (∀ earlier ∈ before, s.aheadFor subStreamId earlier = false) ∧
        s.selects subStreamId chunk = true ∧
        s.findChunk subStreamId = some (chunk, before.length) := by
  have resumed := findChunk_resumed caught
  cases first : s.sampChunkOffsets.find? (s.aheadFor subStreamId) with
  | none =>
      left
      have ended : ∀ chunk ∈ s.sampChunkOffsets, s.aheadFor subStreamId chunk = false :=
        fun chunk member => Bool.eq_false_of_not_eq_true (List.find?_eq_none.mp first chunk member)
      refine ⟨resumed.trans (List.find?_eq_none.mpr fun entry member => ?_), ended⟩
      rw [not_selected (ended entry.1 (List.mem_of_getElem?
        (List.mem_zipIdx_iff_getElem?.mp member)))]
      exact Bool.false_ne_true
  | some chunk =>
      right
      obtain ⟨ahead, before, after, split, skipped⟩ := List.find?_eq_some_iff_append.mp first
      have ended : ∀ earlier ∈ before, s.aheadFor subStreamId earlier = false :=
        fun earlier member => by simpa using skipped earlier member
      have selected := first_ahead_selected indexed split ended ahead
      refine ⟨before, chunk, after, split, ended, selected, ?_⟩
      have unselected : before.zipIdx.find? (fun entry => s.selects subStreamId entry.1) = none :=
        List.find?_eq_none.mpr fun entry member => by
          have earlier := List.mem_zipIdx' member
          rw [not_selected (ended entry.1 (earlier.2 ▸ List.getElem_mem earlier.1))]
          exact Bool.false_ne_true
      rw [resumed, split, List.zipIdx_append, List.find?_append, unselected, Option.none_or,
        List.zipIdx_cons, List.find?_cons]
      simp [selected]

theorem findChunk_first (indexed : s.Indexed) (caught : s.Caught) :
    (s.findChunk none = none ∧ ∀ chunk ∈ s.sampChunkOffsets, s.ahead chunk = false) ∨
      ∃ before chunk after, s.sampChunkOffsets = before ++ chunk :: after ∧
        (∀ earlier ∈ before, s.ahead earlier = false) ∧ s.selects none chunk = true ∧
        s.findChunk none = some (chunk, before.length) := by
  rw [← aheadFor_none]
  apply findChunk_firstFor indexed
  rw [CaughtFor, aheadFor_none]
  exact caught

end RtsaSource

end SdrAaronia
