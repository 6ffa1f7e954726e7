import SdrAaronia.HttpSource.Publish

/-! # Runs of the source

A run carries, next to the block's own state, every sample that ever arrived,
how many of them have left the buffer, the events that broke the stream, and
what the consumer was given.  Nothing the block does reads that history.
-/

namespace SdrAaronia

open HttpStreaming

/-- A sample as it arrived, with the geometry of its packet. -/
structure Arrived (Sample : Type) where
  value : Sample
  centerHz : F64
  rateHz : F64
  deriving DecidableEq, Repr

/-- A break of the stream, placed among the arrived samples. -/
inductive BreakEvent where
  /-- Ahead of the sample that arrives next: a drop, a backward step, a lost
  packet, a stream cleanup or a buffer clear. -/
  | boundary (position : Nat)
  /-- The trim discarded `count` samples from `first` on. -/
  | trim (first count : Nat)
  deriving DecidableEq, Repr

/-- The event separates the arrived samples `earlier` and `later`. -/
def BreakEvent.Between (earlier later : Nat) : BreakEvent → Prop
  | .boundary position => earlier < position ∧ position ≤ later
  | .trim first count => ∃ p, first ≤ p ∧ p < first + count ∧ earlier < p ∧ p < later

/-- A record, with the number of samples produced before it was made. -/
structure Recorded where
  producedBefore : Nat
  record : StreamBreak
  deriving DecidableEq, Repr

inductive SourceAction (Sample : Type) where
  /-- What is learned ahead of the items: the parser's next state, and the sizes
  of a chunk and of the output. -/
  | learn (parser : StreamParser) (chunkBytes outputItems : Nat)
  | item (item : ParsedItem Sample)
  | cleanup
  | restart
  /-- The output of one `work` with room for this many samples. -/
  | produce (room : Nat)

structure Playback (Sample : Type) where
  source : HttpSource Sample
  arrived : List (Arrived Sample)
  /-- Arrived samples no longer buffered: produced, trimmed or cleared. -/
  left : Nat
  events : List BreakEvent
  /-- The arrival number of every produced sample, with the sample. -/
  outputs : List (Nat × Sample)
  records : List Recorded

/-- The samples an item adds to the stream. -/
def arrivedBy {Sample : Type} : ParsedItem Sample → List (Arrived Sample)
  | .packet packet =>
      if packet.metadata.payload = .iq then
        packet.samples.map fun value =>
          ⟨value, packet.sdrConfig.centerFrequencyHz, packet.sdrConfig.sampleRateHz⟩
      else []
  | .lost _ | .skipped _ _ => []

theorem arrivedBy_values {Sample : Type} {packet : StreamPacket Sample}
    (iq : packet.metadata.payload = .iq) :
    (arrivedBy (.packet packet)).map Arrived.value = packet.samples := by
  simp [arrivedBy, iq, Function.comp_def]

theorem length_arrivedBy {Sample : Type} {packet : StreamPacket Sample}
    (iq : packet.metadata.payload = .iq) :
    (arrivedBy (.packet packet)).length = packet.samples.length := by
  rw [← arrivedBy_values iq, List.length_map]

/-- The break a packet's timing is. -/
def timingBreaks (position : Nat) : DropResult → List BreakEvent
  | .continuous => []
  | .drop _ | .backward _ => [.boundary position]

/-- The break an item is, ahead of its samples. -/
def itemBreaks {Sample : Type} (detector : DropDetector) (position : Nat) :
    ParsedItem Sample → List BreakEvent
  | .packet packet =>
      if packet.metadata.payload = .iq then
        timingBreaks position (detector.observe packet.metadata).2
      else []
  | .lost _ => [.boundary position]
  | .skipped _ _ => []

namespace Playback

variable {Sample : Type}

def new (format : StreamFormat) (bufferSize : Nat) (scale : Option F64) (centerHz rateHz : F64) :
    Playback Sample where
  source := .new format bufferSize scale centerHz rateHz true
  arrived := []
  left := 0
  events := []
  outputs := []
  records := []

/-- The history behind an item the block took. -/
def afterItem (r : Playback Sample) (item : ParsedItem Sample) (next : HttpSource Sample) :
    Playback Sample :=
  let added := arrivedBy item
  let trimmed := r.source.sampleBuffer.length + added.length - next.sampleBuffer.length
  { r with
    source := next
    arrived := r.arrived ++ added
    left := r.left + trimmed
    events := r.events ++ itemBreaks r.source.dropDetector r.arrived.length item ++
      if trimmed = 0 then [] else [.trim r.left trimmed] }

/-- The history behind one `work`'s output. -/
def afterProduce (r : Playback Sample) (room : Nat) : Playback Sample :=
  let (next, records, samples) := r.source.produce room
  { r with
    source := next
    left := r.left + samples.length
    outputs := r.outputs ++ samples.zipIdx.map fun sample => (r.left + sample.2, sample.1)
    records := r.records ++ records.map (Recorded.mk r.outputs.length) }

/-- One action; `none` where the block panics. -/
def step (r : Playback Sample) : SourceAction Sample → Option (Playback Sample)
  | .learn parser chunkBytes outputItems =>
      some { r with source := { r.source with
        streamParser := parser, maxChunkBytes := chunkBytes, downstreamCapacity := outputItems } }
  | .item item => (r.source.processItem item).map (r.afterItem item)
  | .cleanup =>
      some { r with
        source := r.source.cleanupStream
        events := r.events ++ [.boundary r.arrived.length] }
  | .restart =>
      some { r with
        source := r.source.restart
        left := r.arrived.length
        events := r.events ++ [.boundary r.arrived.length, .boundary r.arrived.length] }
  | .produce room => some (r.afterProduce room)

/-- One action after the other. -/
def run (r : Playback Sample) : List (SourceAction Sample) → Option (Playback Sample)
  | [] => some r
  | action :: actions => (r.step action).bind fun next => next.run actions

/-- The runs of a fresh source with a break sink, over items of a usable kind. -/
inductive Reach (usable : ParsedItem Sample → Prop) : Playback Sample → Prop where
  | new (format : StreamFormat) (bufferSize : Nat) (scale : Option F64) (centerHz rateHz : F64) :
      Reach usable (.new format bufferSize scale centerHz rateHz)
  | step {r r' : Playback Sample} {action : SourceAction Sample} (reached : Reach usable r)
      (allowed : ∀ item, action = .item item → usable item) (stepped : r.step action = some r') :
      Reach usable r'

theorem reach_run {usable : ParsedItem Sample → Prop} {actions : List (SourceAction Sample)}
    {r r' : Playback Sample} (reached : Reach usable r)
    (allowed : ∀ item, .item item ∈ actions → usable item) (ran : r.run actions = some r') :
    Reach usable r' := by
  induction actions generalizing r with
  | nil =>
      cases ran
      exact reached
  | cons action actions ih =>
      obtain ⟨next, stepped, rest⟩ := Option.bind_eq_some_iff.mp ran
      refine ih (reached.step ?_ stepped) ?_ rest
      · intro item same
        exact allowed item (same ▸ List.mem_cons_self)
      · intro item member
        exact allowed item (List.mem_cons_of_mem _ member)

/-! ## What was produced is what arrived -/

/-- An item's samples join the buffer at the back; the front may go. -/
theorem processItem_buffer {s s' : HttpSource Sample} {item : ParsedItem Sample}
    (processed : s.processItem item = some s') :
    s'.produced = s.produced ∧ ∃ trimmed ≤ s.sampleBuffer.length + (arrivedBy item).length,
      s'.sampleBuffer = (s.sampleBuffer ++ (arrivedBy item).map Arrived.value).drop trimmed := by
  have untouched : ∀ next, s.Keeps next → arrivedBy item = [] → next.produced = s.produced ∧
      ∃ trimmed ≤ s.sampleBuffer.length + (arrivedBy item).length, next.sampleBuffer =
        (s.sampleBuffer ++ (arrivedBy item).map Arrived.value).drop trimmed := by
    intro next keeps nothing
    refine ⟨keeps.produced, 0, Nat.zero_le _, ?_⟩
    rw [nothing, keeps.sampleBuffer]
    exact (List.append_nil _).symm
  cases item with
  | lost error =>
      cases processed
      exact untouched _ s.noteLostPacket_keeps rfl
  | skipped payload reason =>
      cases processed
      exact untouched _ s.noteNonIqPacket_keeps rfl
  | packet packet =>
      by_cases iq : packet.metadata.payload = .iq
      · rw [HttpSource.processItem_iq iq] at processed
        have keeps := s.notePacket_keeps packet
        rw [arrivedBy_values iq, length_arrivedBy iq, ← keeps.sampleBuffer, ← keeps.produced]
        rcases HttpSource.appendSamples_cases processed with
          rfl | ⟨overflow, counted, -, within, rfl⟩
        · exact ⟨rfl, 0, Nat.zero_le _, rfl⟩
        · exact ⟨(HttpSource.noteTrim_keeps _ _).produced, overflow, within,
            (HttpSource.noteTrim_keeps _ _).sampleBuffer⟩
      · rw [HttpSource.processItem_other iq] at processed
        cases processed
        exact untouched _ s.noteNonIqPacket_keeps (if_neg iq)

/-- The buffer holds what arrived and has not left; what was produced had left. -/
structure Consistent (r : Playback Sample) : Prop where
  buffer : r.source.sampleBuffer = (r.arrived.drop r.left).map Arrived.value
  fits : r.left ≤ r.arrived.length
  counted : r.source.produced = r.outputs.length
  truthful : ∀ o ∈ r.outputs, o.1 < r.left ∧ (r.arrived[o.1]?).map Arrived.value = some o.2

theorem Consistent.length {r : Playback Sample} (consistent : r.Consistent) :
    r.left + r.source.sampleBuffer.length = r.arrived.length := by
  have within := consistent.fits
  rw [consistent.buffer, List.length_map, List.length_drop]
  omega

/-- The samples of one output, with their arrival numbers. -/
theorem mem_produced {samples : List Sample} {left : Nat} {o : Nat × Sample}
    (member : o ∈ samples.zipIdx.map fun sample => (left + sample.2, sample.1)) :
    ∃ j, samples[j]? = some o.2 ∧ o.1 = left + j := by
  obtain ⟨⟨value, j⟩, inside, rfl⟩ := List.mem_map.mp member
  exact ⟨j, List.mk_mem_zipIdx_iff_getElem?.mp inside, rfl⟩

theorem getElem?_produced (outputs : List (Nat × Sample)) (samples : List Sample) (left j : Nat) :
    (outputs ++ samples.zipIdx.map fun sample => (left + sample.2, sample.1))[outputs.length + j]? =
      (samples[j]?).map fun value => (left + j, value) := by
  rw [List.getElem?_append_right (Nat.le_add_right _ _), Nat.add_sub_cancel_left,
    List.getElem?_map, List.getElem?_zipIdx, Option.map_map, Nat.zero_add]
  rfl

/-- What an item trimmed is told by the buffer's length. -/
theorem afterItem_left {r : Playback Sample} {item : ParsedItem Sample} {next : HttpSource Sample}
    {trimmed : Nat} (within : trimmed ≤ r.source.sampleBuffer.length + (arrivedBy item).length)
    (kept : next.sampleBuffer =
      (r.source.sampleBuffer ++ (arrivedBy item).map Arrived.value).drop trimmed) :
    r.afterItem item next =
      { r with
        source := next
        arrived := r.arrived ++ arrivedBy item
        left := r.left + trimmed
        events := r.events ++ itemBreaks r.source.dropDetector r.arrived.length item ++
          if trimmed = 0 then [] else [.trim r.left trimmed] } := by
  have gone : r.source.sampleBuffer.length + (arrivedBy item).length - next.sampleBuffer.length =
      trimmed := by
    rw [kept, List.length_drop, List.length_append, List.length_map]
    omega
  unfold afterItem
  dsimp only
  rw [gone]

theorem Consistent.afterItem {r : Playback Sample} (consistent : r.Consistent)
    {item : ParsedItem Sample} {next : HttpSource Sample}
    (processed : r.source.processItem item = some next) : (r.afterItem item next).Consistent := by
  have size := consistent.length
  have within := consistent.fits
  obtain ⟨produced, trimmed, bound, kept⟩ := processItem_buffer processed
  rw [afterItem_left bound kept]
  exact
    { buffer := by
        dsimp only
        rw [kept, consistent.buffer, ← List.map_append, ← List.map_drop,
          ← List.drop_append_of_le_length within, List.drop_drop]
      fits := by
        dsimp only
        rw [List.length_append]
        omega
      counted := produced.trans consistent.counted
      truthful := by
        intro o member
        obtain ⟨before, value⟩ := consistent.truthful o member
        refine ⟨Nat.lt_add_right _ before, ?_⟩
        rw [List.getElem?_append_left (by omega)]
        exact value }

/-- One output takes `count` samples off the front. -/
theorem afterProduce_eq (r : Playback Sample) (room : Nat) :
    r.afterProduce room =
      { r with
        source := (r.source.produce room).1
        left := r.left + min r.source.sampleBuffer.length room
        outputs := r.outputs ++
          (r.source.sampleBuffer.take (min r.source.sampleBuffer.length room)).zipIdx.map
            fun sample => (r.left + sample.2, sample.1)
        records := r.records ++
          (r.source.produce room).2.1.map (Recorded.mk r.outputs.length) } := by
  have count : (r.source.sampleBuffer.take (min r.source.sampleBuffer.length room)).length =
      min r.source.sampleBuffer.length room :=
    List.length_take_of_le (Nat.min_le_left _ _)
  unfold afterProduce
  dsimp only [HttpSource.produce]
  rw [count]

theorem Consistent.afterProduce {r : Playback Sample} (consistent : r.Consistent) (room : Nat) :
    (r.afterProduce room).Consistent := by
  have size := consistent.length
  have bound := Nat.min_le_left r.source.sampleBuffer.length room
  rw [afterProduce_eq]
  exact
    { buffer := by
        dsimp only
        rw [HttpSource.produce_sampleBuffer]
        generalize min r.source.sampleBuffer.length room = count
        rw [consistent.buffer, ← List.map_drop, List.drop_drop]
      fits := by
        dsimp only
        omega
      counted := by
        dsimp only
        rw [HttpSource.produce_produced, List.length_append, List.length_map, List.length_zipIdx,
          List.length_take_of_le bound, consistent.counted]
      truthful := by
        intro o member
        dsimp only at member ⊢
        rcases List.mem_append.mp member with before | new
        · obtain ⟨earlier, value⟩ := consistent.truthful o before
          exact ⟨Nat.lt_add_right _ earlier, value⟩
        · obtain ⟨j, found, place⟩ := mem_produced new
          rw [List.getElem?_take] at found
          split at found
          · rw [consistent.buffer, List.getElem?_map, List.getElem?_drop, ← place] at found
            exact ⟨by omega, found⟩
          · cases found }

theorem Consistent.step {r r' : Playback Sample} (consistent : r.Consistent)
    {action : SourceAction Sample} (stepped : r.step action = some r') : r'.Consistent := by
  cases action with
  | learn parser chunkBytes outputItems =>
      obtain rfl := Option.some.inj stepped
      exact ⟨consistent.buffer, consistent.fits, consistent.counted, consistent.truthful⟩
  | item item =>
      obtain ⟨next, processed, rfl⟩ := Option.map_eq_some_iff.mp stepped
      exact consistent.afterItem processed
  | cleanup =>
      obtain rfl := Option.some.inj stepped
      exact
        { buffer := r.source.cleanupStream_sampleBuffer.trans consistent.buffer
          fits := consistent.fits
          counted := r.source.cleanupStream_produced.trans consistent.counted
          truthful := consistent.truthful }
  | restart =>
      obtain rfl := Option.some.inj stepped
      exact
        { buffer := by
            dsimp only
            rw [List.drop_length]
            exact (HttpSource.noteBufferCleared_keeps _).sampleBuffer
          fits := Nat.le_refl _
          counted := by
            dsimp only [HttpSource.restart]
            rw [(HttpSource.noteBufferCleared_keeps _).produced]
            exact r.source.cleanupStream_produced.trans consistent.counted
          truthful := by
            intro o member
            obtain ⟨before, value⟩ := consistent.truthful o member
            exact ⟨before.trans_le consistent.fits, value⟩ }
  | produce room =>
      obtain rfl := Option.some.inj stepped
      exact consistent.afterProduce room

theorem Reach.consistent {usable : ParsedItem Sample → Prop} {r : Playback Sample}
    (reached : Reach usable r) : r.Consistent := by
  induction reached with
  | new format bufferSize scale centerHz rateHz =>
      exact ⟨rfl, Nat.le_refl _, rfl, fun o member => absurd member List.not_mem_nil⟩
  | step _ _ stepped ih => exact ih.step stepped

end Playback
end SdrAaronia
