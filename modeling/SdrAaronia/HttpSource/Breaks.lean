import SdrAaronia.HttpSource.Playback

/-! # Every break reaches the consumer, once

A gap pending `o` samples into the buffer stands for a break ahead of the
arrived sample it sits before, and the gap at the front for whatever happened
behind the last sample produced.
-/

namespace SdrAaronia

open HttpStreaming Marks

namespace HttpSource

variable {Sample : Type}

/-- The pending gaps are the breaks among the samples still buffered. -/
structure Tracks (s : HttpSource Sample) (left : Nat) (events : List BreakEvent)
    (last : Option Nat) : Prop where
  sink : s.breakSink = true
  sorted : Sorted s.pendingBreaks
  within : Within s.sampleBuffer.length s.pendingBreaks
  boundaries : ∀ p, .boundary p ∈ events → p ≤ left + s.sampleBuffer.length
  inner : ∀ o, 0 < o → ((o, .gap) ∈ s.pendingBreaks ↔ .boundary (left + o) ∈ events)
  earlier : ∀ p ∈ last, p < left
  front : ∀ p ∈ last, (0, .gap) ∈ s.pendingBreaks ↔ ∃ e ∈ events, e.Between p left

/-- Nothing but a boundary fits between neighbours. -/
theorem between_adjacent {events : List BreakEvent} {p : Nat} :
    (∃ e ∈ events, e.Between p (p + 1)) ↔ .boundary (p + 1) ∈ events := by
  constructor
  · rintro ⟨e, member, between⟩
    cases e with
    | boundary position =>
        have same : position = p + 1 := by
          unfold BreakEvent.Between at between
          omega
        exact same ▸ member
    | trim first count =>
        obtain ⟨q, -, -, above, below⟩ := between
        omega
  · intro member
    exact ⟨_, member, Nat.lt_succ_self p, Nat.le_refl _⟩

namespace Tracks

variable {s s' : HttpSource Sample} {left : Nat} {events : List BreakEvent} {last : Option Nat}

theorem of_same (t : s.Tracks left events last) (sink : s'.breakSink = s.breakSink)
    (buffer : s'.sampleBuffer.length = s.sampleBuffer.length)
    (pending : s'.pendingBreaks = s.pendingBreaks) : s'.Tracks left events last where
  sink := sink ▸ t.sink
  sorted := pending ▸ t.sorted
  within := by
    rw [pending, buffer]
    exact t.within
  boundaries := by
    rw [buffer]
    exact t.boundaries
  inner := by
    rw [pending]
    exact t.inner
  earlier := t.earlier
  front := by
    rw [pending]
    exact t.front

/-- A gap noted now is a break ahead of the next sample to arrive. -/
theorem note_gap (t : s.Tracks left events last) :
    (s.noteBreak .gap).Tracks left (events ++ [.boundary (left + s.sampleBuffer.length)]) last where
  sink := by
    rw [(s.noteBreak_keeps _).breakSink]
    exact t.sink
  sorted := sorted_noteBreak t.sorted t.within _
  within := by
    rw [(s.noteBreak_keeps _).sampleBuffer]
    exact within_noteBreak t.within _
  boundaries := by
    rw [(s.noteBreak_keeps _).sampleBuffer]
    intro p member
    rcases List.mem_append.mp member with before | new
    · exact t.boundaries p before
    · cases List.mem_singleton.mp new
      exact Nat.le_refl _
  inner := by
    intro o positive
    have place : o = s.sampleBuffer.length ↔ left + o = left + s.sampleBuffer.length := by omega
    rw [mem_noteBreak t.sink, t.inner o positive, List.mem_append, List.mem_singleton,
      Prod.mk.injEq, BreakEvent.boundary.injEq, ← place, and_iff_left rfl]
  earlier := t.earlier
  front := by
    intro p member
    have ahead := t.earlier p member
    rw [mem_noteBreak t.sink, t.front p member, Prod.mk.injEq, and_iff_left rfl]
    constructor
    · rintro (⟨e, inside, between⟩ | empty)
      · exact ⟨e, List.mem_append_left _ inside, between⟩
      · refine ⟨_, List.mem_append_right _ (List.mem_singleton_self _), ?_, ?_⟩ <;> omega
    · rintro ⟨e, inside, between⟩
      rcases List.mem_append.mp inside with before | new
      · exact .inl ⟨e, before, between⟩
      · cases List.mem_singleton.mp new
        have reach := between.2
        exact .inr (by omega)

theorem note_geometry (t : s.Tracks left events last) {cause : StreamDiscontinuity}
    (other : cause ≠ .gap) : (s.noteBreak cause).Tracks left events last := by
  have same : ∀ o, (o, .gap) ∈ (s.noteBreak cause).pendingBreaks ↔ (o, .gap) ∈ s.pendingBreaks := by
    intro o
    rw [mem_noteBreak t.sink, Prod.mk.injEq, or_iff_left]
    intro both
    exact other both.2.symm
  exact
    { sink := by
        rw [(s.noteBreak_keeps _).breakSink]
        exact t.sink
      sorted := sorted_noteBreak t.sorted t.within _
      within := by
        rw [(s.noteBreak_keeps _).sampleBuffer]
        exact within_noteBreak t.within _
      boundaries := by
        rw [(s.noteBreak_keeps _).sampleBuffer]
        exact t.boundaries
      inner := fun o positive => (same o).trans (t.inner o positive)
      earlier := t.earlier
      front := fun p member => (same 0).trans (t.front p member) }

theorem grow (t : s.Tracks left events last) {samples : List Sample} (sink : s'.breakSink = true)
    (buffer : s'.sampleBuffer = s.sampleBuffer ++ samples)
    (pending : s'.pendingBreaks = s.pendingBreaks) : s'.Tracks left events last := by
  have longer : s.sampleBuffer.length ≤ s'.sampleBuffer.length := by
    rw [buffer, List.length_append]
    exact Nat.le_add_right _ _
  exact
    { sink := sink
      sorted := pending ▸ t.sorted
      within := pending ▸ t.within.mono longer
      boundaries := fun p member => (t.boundaries p member).trans (Nat.add_le_add_left longer left)
      inner := by
        rw [pending]
        exact t.inner
      earlier := t.earlier
      front := by
        rw [pending]
        exact t.front }

/-- A trim leaves one gap at the front, for all it took. -/
theorem trim (t : s.Tracks left events last) {discarded : Nat} (some : 0 < discarded)
    (held : discarded ≤ s.sampleBuffer.length) (sink : s'.breakSink = true)
    (buffer : s'.sampleBuffer.length = s.sampleBuffer.length - discarded)
    (pending : s'.pendingBreaks = s.pendingBreaks) :
    (s'.noteTrim discarded).Tracks (left + discarded) (events ++ [.trim left discarded]) last where
  sink := by
    rw [(s'.noteTrim_keeps _).breakSink]
    exact sink
  sorted := by
    rw [noteTrim_pendingBreaks sink, pending, Sorted, List.pairwise_cons]
    exact ⟨fun mark _ => Nat.zero_le _,
      List.Pairwise.sublist List.filter_sublist (sorted_rebase t.sorted)⟩
  within := by
    rw [noteTrim_pendingBreaks sink, pending, (s'.noteTrim_keeps _).sampleBuffer, buffer]
    intro mark member
    rcases List.mem_cons.mp member with rfl | kept
    · exact Nat.zero_le _
    · exact within_rebase t.within mark (List.mem_of_mem_filter kept)
  boundaries := by
    rw [(s'.noteTrim_keeps _).sampleBuffer, buffer]
    intro p member
    rcases List.mem_append.mp member with before | new
    · have bound := t.boundaries p before
      omega
    · cases List.mem_singleton.mp new
  inner := by
    intro o positive
    have kept : (o, StreamDiscontinuity.gap) ∈ (s'.noteTrim discarded).pendingBreaks ↔
        (o + discarded, .gap) ∈ s.pendingBreaks := by
      rw [noteTrim_pendingBreaks sink, pending, List.mem_cons, List.mem_filter,
        mem_rebase_pos positive]
      simp [positive, Nat.ne_of_gt positive]
    have place : left + (o + discarded) = left + discarded + o := by omega
    rw [kept, t.inner _ (by omega), place]
    simp
  earlier := by
    intro p member
    have before := t.earlier p member
    omega
  front := by
    intro p member
    have ahead := t.earlier p member
    have gap : (0, StreamDiscontinuity.gap) ∈ (s'.noteTrim discarded).pendingBreaks := by
      rw [noteTrim_pendingBreaks sink]
      exact List.mem_cons_self
    refine iff_of_true gap ⟨_, List.mem_append_right _ (List.mem_singleton_self _), left, ?_⟩
    omega

theorem clear (t : s.Tracks left events last) :
    ({ s with sampleBuffer := [] } : HttpSource Sample).noteBufferCleared.Tracks
      (left + s.sampleBuffer.length)
      (events ++ [.boundary (left + s.sampleBuffer.length)]) last := by
  rw [noteBufferCleared_sink (s := { s with sampleBuffer := [] }) t.sink]
  exact
    { sink := t.sink
      sorted := List.pairwise_singleton _ _
      within := fun mark member => by
        rw [List.mem_singleton] at member
        rw [member]
        exact Nat.zero_le _
      boundaries := by
        intro p member
        rcases List.mem_append.mp member with before | new
        · exact (t.boundaries p before).trans (Nat.le_add_right _ _)
        · cases List.mem_singleton.mp new
          exact Nat.le_add_right _ _
      inner := by
        intro o positive
        refine iff_of_false ?_ ?_
        · intro member
          rw [List.mem_singleton, Prod.mk.injEq] at member
          omega
        · intro member
          rcases List.mem_append.mp member with before | new
          · have bound := t.boundaries _ before
            omega
          · have place := BreakEvent.boundary.inj (List.mem_singleton.mp new)
            omega
      earlier := fun p member => (t.earlier p member).trans_le (Nat.le_add_right _ _)
      front := by
        intro p member
        have ahead := t.earlier p member
        refine iff_of_true (List.mem_singleton_self _)
          ⟨_, List.mem_append_right _ (List.mem_singleton_self _), ?_, Nat.le_refl _⟩
        omega }

theorem publish (t : s.Tracks left events last) {count : Nat} (held : count ≤ s.sampleBuffer.length)
    (sink : s'.breakSink = true)
    (buffer : s'.sampleBuffer.length = s.sampleBuffer.length - count)
    (pending : s'.pendingBreaks = rebase count
      (publishLoop s.produced count s.publishedGeometry s.pendingBreaks).2.1) :
    s'.Tracks (left + count) events
      (if count = 0 then last else some (left + count - 1)) where
  sink := sink
  sorted := pending ▸ sorted_rebase (sorted_publishLoop_held t.sorted _)
  within := by
    rw [pending, buffer]
    apply within_rebase
    intro mark member
    exact t.within mark ((mem_publishLoop_held t.sorted _).mp member).1
  boundaries := by
    intro p member
    have bound := t.boundaries p member
    omega
  inner := by
    intro o positive
    have place : left + (o + count) = left + count + o := by omega
    rw [pending, mem_rebase_pos positive, mem_publishLoop_held t.sorted,
      and_iff_left (Nat.le_add_left _ _), t.inner _ (by omega), place]
  earlier := by
    intro p member
    split at member
    · exact (t.earlier p member).trans_le (Nat.le_add_right _ _)
    · cases member
      omega
  front := by
    intro p member
    have place : (0, StreamDiscontinuity.gap) ∈ s'.pendingBreaks ↔
        (count, .gap) ∈ s.pendingBreaks := by
      rw [pending, mem_rebase]
      constructor
      · rintro ⟨o, inside, front⟩
        obtain ⟨member, later⟩ := (mem_publishLoop_held t.sorted _).mp inside
        dsimp only at front member
        have same : o = count := by omega
        exact same ▸ member
      · intro inside
        exact ⟨count, (mem_publishLoop_held t.sorted _).mpr ⟨inside, Nat.le_refl _⟩,
          (Nat.sub_self count).symm⟩
    rw [place]
    split at member
    · rename_i none
      rw [none]
      exact t.front p member
    · cases member
      obtain ⟨n, whole⟩ : ∃ n, left + count = n + 1 := ⟨left + count - 1, by omega⟩
      rw [t.inner count (by omega), whole, Nat.add_sub_cancel, between_adjacent]

/-! ## Items -/

theorem continuity (t : s.Tracks left events last) (metadata : PacketMetadata) :
    (s.noteContinuity metadata).Tracks left
      (events ++ timingBreaks (left + s.sampleBuffer.length) (s.dropDetector.observe metadata).2)
      last := by
  have seen : ∀ (detector : DropDetector) (gap : F64),
      ({ s with dropDetector := detector, streamGapSeconds := gap } : HttpSource Sample).Tracks
        left events last := fun _ _ => t.of_same rfl rfl rfl
  unfold noteContinuity
  cases result : (s.dropDetector.observe metadata).2 with
  | continuous =>
      simp only [result, timingBreaks, List.append_nil]
      exact seen _ _
  | drop gapSeconds =>
      simp only [result, timingBreaks]
      exact (seen _ _).note_gap
  | backward overlapSeconds =>
      simp only [result, timingBreaks]
      exact (seen _ _).note_gap

theorem geometry (t : s.Tracks left events last) (packet : StreamPacket Sample) :
    (s.noteGeometry packet).Tracks left events last := by
  unfold noteGeometry
  dsimp only
  split
  · exact t
  · split
    · exact t
    · split
      · split
        · exact t
        · exact (t.note_geometry (by simp)).of_same rfl rfl rfl
      · exact (t.note_geometry (by simp)).of_same rfl rfl rfl

theorem append (t : s.Tracks left events last) {samples : List Sample}
    (appended : s.appendSamples samples = some s') :
    ∃ trimmed, s'.sampleBuffer = (s.sampleBuffer ++ samples).drop trimmed ∧
      trimmed ≤ s.sampleBuffer.length + samples.length ∧
      s'.Tracks (left + trimmed) (events ++ if trimmed = 0 then [] else [.trim left trimmed])
        last := by
  rcases appendSamples_cases appended with rfl | ⟨overflow, counted, positive, within, rfl⟩
  · refine ⟨0, rfl, Nat.zero_le _, ?_⟩
    rw [if_pos rfl, List.append_nil]
    exact t.grow t.sink rfl rfl
  · refine ⟨overflow, (noteTrim_keeps _ _).sampleBuffer, within, ?_⟩
    rw [if_neg (Nat.ne_of_gt positive)]
    have grown : ({ s with sampleBuffer := s.sampleBuffer ++ samples } : HttpSource Sample).Tracks
        left events last := t.grow t.sink rfl rfl
    refine grown.trim positive ?_ t.sink (List.length_drop ..) rfl
    exact within.trans_eq (List.length_append ..).symm

theorem lost (t : s.Tracks left events last) :
    s.noteLostPacket.Tracks left (events ++ [.boundary (left + s.sampleBuffer.length)]) last := by
  have counted : ∀ lost, ({ s with packetsLostToParseErrors := lost } :
      HttpSource Sample).Tracks left events last := fun _ => t.of_same rfl rfl rfl
  exact (counted (saturatingAdd s.packetsLostToParseErrors 1)).note_gap.of_same rfl rfl rfl

theorem cleanup (t : s.Tracks left events last) :
    s.cleanupStream.Tracks left (events ++ [.boundary (left + s.sampleBuffer.length)]) last := by
  have reset : ({ s with
      streamParser := s.streamParser.reset
      dropDetector := s.dropDetector.resync } : HttpSource Sample).Tracks left events last :=
    t.of_same rfl rfl rfl
  exact reset.note_gap

/-- One item of the stream: its own break, its samples, and what the append trims. -/
theorem item (t : s.Tracks left events last) {item : ParsedItem Sample}
    (processed : s.processItem item = some s') :
    ∃ trimmed, trimmed ≤ s.sampleBuffer.length + (arrivedBy item).length ∧
      s'.sampleBuffer =
        (s.sampleBuffer ++ (arrivedBy item).map Arrived.value).drop trimmed ∧
      s'.Tracks (left + trimmed)
        (events ++ itemBreaks s.dropDetector (left + s.sampleBuffer.length) item ++
          if trimmed = 0 then [] else [.trim left trimmed]) last := by
  cases item with
  | lost error =>
      cases processed
      refine ⟨0, Nat.zero_le _, ?_, ?_⟩
      · exact s.noteLostPacket_keeps.sampleBuffer.trans (List.append_nil _).symm
      · rw [if_pos rfl, List.append_nil]
        exact t.lost
  | skipped payload reason =>
      cases processed
      refine ⟨0, Nat.zero_le _, (List.append_nil _).symm, ?_⟩
      rw [if_pos rfl, List.append_nil, itemBreaks, List.append_nil]
      exact t.of_same rfl rfl rfl
  | packet packet =>
      by_cases iq : packet.metadata.payload = .iq
      · rw [processItem_iq iq] at processed
        have keeps := s.notePacket_keeps packet
        have adopted : ((s.noteContinuity packet.metadata).adoptConfig packet.sdrConfig).Tracks
            left _ last := (t.continuity packet.metadata).of_same rfl rfl rfl
        have noted := adopted.geometry packet
        obtain ⟨trimmed, kept, bound, tracks⟩ := Tracks.append noted processed
        have buffer : (((s.noteContinuity packet.metadata).adoptConfig
            packet.sdrConfig).noteGeometry packet).sampleBuffer = s.sampleBuffer :=
          keeps.sampleBuffer
        rw [buffer] at kept bound
        refine ⟨trimmed, (length_arrivedBy iq).symm ▸ bound, ?_, ?_⟩
        · rw [arrivedBy_values iq]
          exact kept
        · rw [itemBreaks, if_pos iq]
          exact tracks
      · rw [processItem_other iq] at processed
        cases processed
        refine ⟨0, Nat.zero_le _, ?_, ?_⟩
        · rw [arrivedBy, if_neg iq]
          exact (List.append_nil _).symm
        · rw [if_pos rfl, List.append_nil, itemBreaks, if_neg iq, List.append_nil]
          exact t.of_same rfl rfl rfl

end Tracks
end HttpSource

/-! ## Runs -/

/-- The event lies behind every sample that left the buffer. -/
def BreakEvent.Beyond (left : Nat) : BreakEvent → Prop
  | .boundary position => left ≤ position
  | .trim first _ => left ≤ first

theorem BreakEvent.Beyond.not_between {left before after : Nat} {e : BreakEvent}
    (beyond : e.Beyond left) (gone : after < left) : ¬ e.Between before after := by
  intro between
  cases e with
  | boundary position =>
      have reach := between.2
      unfold BreakEvent.Beyond at beyond
      omega
  | trim first count =>
      obtain ⟨p, from_first, -, -, inside⟩ := between
      unfold BreakEvent.Beyond at beyond
      omega

namespace Playback

open HttpSource

/-- The gaps recorded so far are the breaks between what was produced. -/
structure Reported (r : Playback Sample) : Prop where
  tracks : r.source.Tracks r.left r.events (r.outputs.getLast?.map Prod.fst)
  gaps : ∀ i before after, r.outputs[i]? = some before → r.outputs[i + 1]? = some after →
    ((∃ b ∈ r.records, b.record = ⟨i + 1, .gap⟩) ↔
      ∃ e ∈ r.events, e.Between before.1 after.1)
  ordered : (r.records.map Recorded.record).Pairwise InOrder
  placed : ∀ b ∈ r.records, (b.record.cause = .gap → b.record.index ≠ 0) ∧
    b.producedBefore ≤ b.record.index ∧ b.record.index < r.outputs.length

variable {Sample : Type} {r r' : Playback Sample}

/-- Without an output, events only add up behind what was produced. -/
theorem Reported.quiet (reported : r.Reported) (consistent : r.Consistent)
    (outputs : r'.outputs = r.outputs) (records : r'.records = r.records)
    {new : List BreakEvent} (events : r'.events = r.events ++ new)
    (beyond : ∀ e ∈ new, e.Beyond r.left)
    (tracks : r'.source.Tracks r'.left r'.events (r.outputs.getLast?.map Prod.fst)) :
    r'.Reported where
  tracks := outputs ▸ tracks
  gaps := by
    intro i before after first second
    rw [outputs] at first second
    rw [records, events, reported.gaps i before after first second]
    have gone := (consistent.truthful after (List.mem_of_getElem? second)).1
    constructor
    · rintro ⟨e, member, between⟩
      exact ⟨e, List.mem_append_left _ member, between⟩
    · rintro ⟨e, member, between⟩
      rcases List.mem_append.mp member with old | late
      · exact ⟨e, old, between⟩
      · exact absurd between ((beyond e late).not_between gone)
  ordered := records ▸ reported.ordered
  placed := by
    rw [records, outputs]
    exact reported.placed

/-- The gaps one output records, among the samples it puts out. -/
theorem Reported.produced_gaps (reported : r.Reported) (consistent : r.Consistent) (room : Nat) :
    let next := r.afterProduce room
    ∀ i before after, next.outputs[i]? = some before → next.outputs[i + 1]? = some after →
      ((∃ b ∈ next.records, b.record = ⟨i + 1, .gap⟩) ↔
        ∃ e ∈ next.events, e.Between before.1 after.1) := by
  intro next i before after first second
  have counted := consistent.counted
  have bound := Nat.min_le_left r.source.sampleBuffer.length room
  simp only [next, afterProduce_eq, produce_records reported.tracks.sink] at first second ⊢
  generalize min r.source.sampleBuffer.length room = count at *
  have split : (∃ b ∈ r.records ++ (publishLoop r.source.produced count r.source.publishedGeometry
        r.source.pendingBreaks).1.map (Recorded.mk r.outputs.length), b.record = ⟨i + 1, .gap⟩) ↔
      (∃ b ∈ r.records, b.record = ⟨i + 1, .gap⟩) ∨ ⟨i + 1, .gap⟩ ∈ (publishLoop r.source.produced
        count r.source.publishedGeometry r.source.pendingBreaks).1 := by
    simp only [List.mem_append, List.mem_map, or_and_right, exists_or, exists_exists_and_eq_and,
      exists_eq_right]
  rw [split]
  by_cases old : i + 1 < r.outputs.length
  · rw [List.getElem?_append_left old] at second
    rw [List.getElem?_append_left (by omega)] at first
    rw [← reported.gaps i before after first second, or_iff_left]
    intro member
    obtain ⟨o, c, -, -, place⟩ := publishLoop_place _ _ member
    dsimp only at place
    omega
  · obtain ⟨o, place⟩ : ∃ o, i + 1 = r.outputs.length + o := ⟨i + 1 - r.outputs.length, by omega⟩
    rw [place, getElem?_produced, Option.map_eq_some_iff] at second
    obtain ⟨value, found, rfl⟩ := second
    have inside : o < count := by
      by_contra outside
      rw [List.getElem?_take_eq_none (by omega)] at found
      cases found
    have fresh : ¬ ∃ b ∈ r.records, b.record = ⟨i + 1, .gap⟩ := by
      rintro ⟨b, member, same⟩
      have early := (reported.placed b member).2.2
      rw [same] at early
      dsimp only at early
      omega
    rw [or_iff_right fresh, place, ← counted,
      gap_mem_publishLoop reported.tracks.sorted _ inside, and_iff_left (by omega)]
    cases o with
    | zero =>
        have last : r.outputs.getLast? = some before := by
          rw [List.getElem?_append_left (by omega)] at first
          rw [List.getLast?_eq_getElem?, ← first]
          congr 1
          omega
        exact reported.tracks.front before.1 (by rw [last]; rfl)
    | succ o =>
        have here : i = r.outputs.length + o := by omega
        rw [here, getElem?_produced, Option.map_eq_some_iff] at first
        obtain ⟨value, -, rfl⟩ := first
        rw [reported.tracks.inner (o + 1) (Nat.succ_pos o)]
        exact between_adjacent.symm

/-- The last sample produced is the last one that left, once an output took any. -/
theorem last_produced (outputs : List (Nat × Sample)) (samples : List Sample) (left : Nat) :
    ((outputs ++ samples.zipIdx.map fun sample => (left + sample.2, sample.1)).getLast?.map
        Prod.fst) =
      if samples.length = 0 then outputs.getLast?.map Prod.fst
      else some (left + samples.length - 1) := by
  cases samples with
  | nil => simp
  | cons value samples =>
      rw [List.getLast?_eq_getElem?, List.length_append, List.length_map, List.length_zipIdx,
        List.length_cons, Nat.add_succ_sub_one, getElem?_produced, if_neg (Nat.succ_ne_zero _),
        List.getElem?_eq_getElem (by simp)]
      rfl

theorem Reported.afterProduce (reported : r.Reported) (consistent : r.Consistent) (room : Nat) :
    (r.afterProduce room).Reported := by
  have counted := consistent.counted
  have gaps := reported.produced_gaps consistent room
  have bound := Nat.min_le_left r.source.sampleBuffer.length room
  have tracks := reported.tracks.publish bound (produce_breakSink reported.tracks.sink room)
    (by rw [produce_sampleBuffer, List.length_drop])
    (produce_pendingBreaks reported.tracks.sink room)
  rw [afterProduce_eq] at gaps ⊢
  rw [produce_records reported.tracks.sink] at gaps ⊢
  exact
    { tracks := by
        dsimp only
        rw [last_produced, List.length_take_of_le bound]
        exact tracks
      gaps := gaps
      ordered := by
        dsimp only
        rw [List.map_append, List.map_map, List.pairwise_append]
        refine ⟨reported.ordered, ?_, ?_⟩
        · have inOrder := publishLoop_inOrder r.source.produced
            (min r.source.sampleBuffer.length room) reported.tracks.sorted
            r.source.publishedGeometry
          simpa only [Function.comp_def, List.map_id'] using inOrder
        · intro a old b new
          obtain ⟨entry, member, rfl⟩ := List.mem_map.mp old
          obtain ⟨record, fresh, rfl⟩ := List.mem_map.mp new
          obtain ⟨o, c, -, -, place⟩ := publishLoop_place _ _ fresh
          have early := (reported.placed entry member).2.2
          left
          dsimp only [Function.comp_apply]
          omega
      placed := by
        intro b member
        dsimp only at member ⊢
        rw [List.length_append, List.length_map, List.length_zipIdx,
          List.length_take_of_le bound]
        rcases List.mem_append.mp member with old | new
        · obtain ⟨nonzero, before, early⟩ := reported.placed b old
          exact ⟨nonzero, before, Nat.lt_add_right _ early⟩
        · obtain ⟨record, fresh, rfl⟩ := List.mem_map.mp new
          obtain ⟨o, c, -, inside, place⟩ := publishLoop_place _ _ fresh
          refine ⟨publishLoop_gap_index _ fresh, ?_, ?_⟩
          · dsimp only
            omega
          · dsimp only
            omega }

theorem Reported.step (reported : r.Reported) (consistent : r.Consistent)
    {action : SourceAction Sample} (stepped : r.step action = some r') : r'.Reported := by
  have size := consistent.length
  cases action with
  | learn parser chunkBytes outputItems =>
      obtain rfl := Option.some.inj stepped
      exact reported.quiet consistent rfl rfl (List.append_nil _).symm
        (fun e member => absurd member List.not_mem_nil) (reported.tracks.of_same rfl rfl rfl)
  | item item =>
      obtain ⟨next, processed, rfl⟩ := Option.map_eq_some_iff.mp stepped
      obtain ⟨trimmed, bound, kept, tracks⟩ := reported.tracks.item processed
      rw [afterItem_left bound kept]
      rw [size] at tracks
      refine reported.quiet consistent rfl rfl (List.append_assoc ..) ?_ tracks
      intro e member
      rcases List.mem_append.mp member with timing | trim
      · have place : ∀ e ∈ itemBreaks r.source.dropDetector r.arrived.length item,
            e = .boundary r.arrived.length := by
          intro e inside
          unfold itemBreaks timingBreaks at inside
          grind
        rw [place e timing]
        exact consistent.fits
      · split at trim
        · cases trim
        · cases List.mem_singleton.mp trim
          exact Nat.le_refl _
  | cleanup =>
      obtain rfl := Option.some.inj stepped
      refine reported.quiet consistent rfl rfl rfl ?_ (size ▸ reported.tracks.cleanup)
      intro e member
      cases List.mem_singleton.mp member
      exact consistent.fits
  | restart =>
      obtain rfl := Option.some.inj stepped
      have cleaned := reported.tracks.cleanup.clear
      rw [r.source.cleanupStream_sampleBuffer, size, List.append_assoc] at cleaned
      refine reported.quiet consistent rfl rfl rfl ?_ cleaned
      intro e member
      have place : e = .boundary r.arrived.length := by simpa using member
      rw [place]
      exact consistent.fits
  | produce room =>
      obtain rfl := Option.some.inj stepped
      exact reported.afterProduce consistent room

theorem Reach.reported {usable : ParsedItem Sample → Prop} (reached : Reach usable r) :
    r.Reported := by
  induction reached with
  | new format bufferSize scale centerHz rateHz =>
      constructor
      · constructor <;> simp [Playback.new, HttpSource.new, Sorted, Within]
      · intro i before after first
        cases first
      · exact List.Pairwise.nil
      · intro b member
        cases member
  | step reached _ stepped ih => exact ih.step reached.consistent stepped

/-- A gap is recorded just where the stream was broken, in order, once, never at
the start, and before the sample behind it. -/
theorem breaks_sound_and_complete (reached : Reach (fun _ => True) r) :
    (∀ o ∈ r.outputs, (r.arrived[o.1]?).map Arrived.value = some o.2) ∧
    (∀ i before after, r.outputs[i]? = some before → r.outputs[i + 1]? = some after →
      ((∃ b ∈ r.records, b.record = ⟨i + 1, .gap⟩) ↔
        ∃ e ∈ r.events, e.Between before.1 after.1)) ∧
    (r.records.map Recorded.record).Pairwise InOrder ∧
    (∀ b ∈ r.records, b.record.cause = .gap → b.record.index ≠ 0) ∧
    ∀ b ∈ r.records, b.producedBefore ≤ b.record.index ∧ b.record.index < r.outputs.length := by
  have consistent := reached.consistent
  have reported := reached.reported
  refine ⟨?_, reported.gaps, reported.ordered, ?_, ?_⟩
  · intro o member
    exact (consistent.truthful o member).2
  · intro b member
    exact (reported.placed b member).1
  · intro b member
    exact (reported.placed b member).2

/-- An IQ packet of one second a sample, from `start` on. -/
def secondsPacket (start : Nat) (centerHz : ℚ) (samples : List Nat) : StreamPacket Nat :=
  .new
    { startTime := .finite start
      endTime := .finite (start + samples.length)
      startFrequency := .finite (centerHz - 1)
      endFrequency := .finite (centerHz + 1)
      sampleFrequency := some 1
      samples := samples.length
      payload := .iq
      sampleSize := 2 }
    samples

/-- Two samples, one more behind a drop, two behind a lost packet and a cleanup. -/
def brokenRun : List (SourceAction Nat) :=
  [.item (.packet (secondsPacket 0 100 [10, 11])), .item (.packet (secondsPacket 5 100 [12])),
    .produce 2, .item (.lost (.protocol "bad payload")), .cleanup,
    .item (.packet (secondsPacket 6 100 [13, 14])), .produce 9]

theorem brokenRun_outcome :
    ((Playback.new .int16 1 none 0 0).run brokenRun).map (fun r => (r.outputs, r.records)) =
      some ([(0, 10), (1, 11), (2, 12), (3, 13), (4, 14)],
        [⟨0, ⟨0, .initial 100 1⟩⟩, ⟨2, ⟨2, .gap⟩⟩, ⟨2, ⟨3, .gap⟩⟩]) := by
  decide +kernel

theorem breaks_sound_and_complete_brokenRun :
    ∃ r, (Playback.new .int16 1 none 0 0).run brokenRun = some r ∧
      (∀ b ∈ r.records, b.record.cause = .gap → b.record.index ≠ 0) ∧
      ∃ e ∈ r.events, e.Between 1 2 := by
  obtain ⟨r, ran, outcome⟩ := Option.map_eq_some_iff.mp brokenRun_outcome
  obtain ⟨outputs, records⟩ := Prod.mk.inj outcome
  have reached : Reach (fun _ => True) r :=
    reach_run (.new _ _ _ _ _) (fun _ _ => trivial) ran
  obtain ⟨-, gaps, -, nonzero, -⟩ := breaks_sound_and_complete reached
  refine ⟨r, ran, nonzero, ?_⟩
  have recorded := gaps 1 (1, 11) (2, 12) (by rw [outputs]; rfl) (by rw [outputs]; rfl)
  apply recorded.mp
  rw [records]
  exact ⟨⟨2, ⟨2, .gap⟩⟩, by simp, rfl⟩

end Playback
end SdrAaronia
