import SdrAaronia.HttpSource.Breaks

/-! # Every sample is described by the geometry last announced

The geometries pending against the buffer and the one last reported tell, for
every buffered sample, what the consumer will have heard when it is produced.
-/

namespace SdrAaronia

open HttpStreaming Marks

namespace HttpSource

/-- A finite centre and a finite positive rate. -/
def Usable (geometry : F64 × F64) : Prop :=
  geometry.1.isFinite = true ∧ geometry.2.isFinite = true ∧ 0 < geometry.2

/-- An announcement close enough to a packet's geometry to stand for it. -/
def Describes (announcement : F64 × F64) (centerHz rateHz : F64) : Prop :=
  (announcement.1 - centerHz).abs ≤ centerChangeHz ∧
    (rateHz - announcement.2).abs / announcement.2 ≤ rateChangeBand

theorem describes_self {geometry : F64 × F64} (usable : Usable geometry) :
    Describes geometry geometry.1 geometry.2 := by
  obtain ⟨centerHz, rateHz⟩ := geometry
  obtain ⟨finite, rated, positive⟩ := usable
  obtain ⟨a, rfl⟩ := (F64.isFinite_iff _).mp finite
  obtain ⟨r, above, rfl⟩ := F64.positive_value _ rated positive
  constructor
  · simp [centerChangeHz]
  · simp [rateChangeBand, F64.finite_div _ _ above.ne']

/-- Where neither has moved, the older geometry still stands. -/
theorem describes_of_unmoved {geometry packet : F64 × F64} (usable : Usable geometry)
    (finite : Usable packet) (center : ¬ centerChangeHz < (geometry.1 - packet.1).abs)
    (rate : rateMoved geometry.2 packet.2 = false) :
    Describes geometry packet.1 packet.2 := by
  obtain ⟨centerHz, rateHz⟩ := geometry
  obtain ⟨packetCenter, packetRate⟩ := packet
  obtain ⟨known, rated, positive⟩ := usable
  obtain ⟨there, sampled, -⟩ := finite
  obtain ⟨a, rfl⟩ := (F64.isFinite_iff _).mp known
  obtain ⟨r, above, rfl⟩ := F64.positive_value _ rated positive
  obtain ⟨c, rfl⟩ := (F64.isFinite_iff _).mp there
  obtain ⟨q, rfl⟩ := (F64.isFinite_iff _).mp sampled
  rw [rateMoved_finite _ _ above, decide_eq_false_iff_not, not_lt] at rate
  constructor
  · simpa [centerChangeHz] using center
  · simpa [rateChangeBand, F64.finite_div _ _ above.ne'] using rate

variable {Sample : Type}

/-- What the consumer will have heard when it gets the sample at `o`. -/
def told (s : HttpSource Sample) (o : Nat) : Option (F64 × F64) :=
  (latest StreamDiscontinuity.geometry (o + 1) s.pendingBreaks).or s.publishedGeometry

/-- The buffered samples are described by what will have been told by then, and
the epoch is what will have been told at the buffer's end. -/
structure Tells (s : HttpSource Sample) (waiting : List (Arrived Sample)) : Prop where
  sink : s.breakSink = true
  sorted : Sorted s.pendingBreaks
  within : Within s.sampleBuffer.length s.pendingBreaks
  size : waiting.length = s.sampleBuffer.length
  described : ∀ o a, waiting[o]? = some a →
    ∃ g, s.told o = some g ∧ Describes g a.centerHz a.rateHz
  center : s.epochCenterHz = (s.told s.sampleBuffer.length).map Prod.fst
  rate : s.epochRateHz = (s.told s.sampleBuffer.length).map Prod.snd
  usable : ∀ o g, s.told o = some g → Usable g
  reported : ∀ g, s.publishedGeometry = some g → Usable g
  opens : Opens s.publishedGeometry.isSome (s.pendingBreaks.map Prod.snd)

/-- The consumer has heard the same of both, and will hear the same. -/
structure SameTold (s s' : HttpSource Sample) : Prop where
  sink : s'.breakSink = s.breakSink
  pending : s'.pendingBreaks = s.pendingBreaks
  published : s'.publishedGeometry = s.publishedGeometry
  center : s'.epochCenterHz = s.epochCenterHz
  rate : s'.epochRateHz = s.epochRateHz

theorem SameTold.told {s s' : HttpSource Sample} (same : s.SameTold s') : s'.told = s.told := by
  funext o
  rw [HttpSource.told, HttpSource.told, same.pending, same.published]

namespace Tells

variable {s s' : HttpSource Sample} {waiting : List (Arrived Sample)}

theorem of_same (t : s.Tells waiting) (buffer : s'.sampleBuffer.length = s.sampleBuffer.length)
    (same : s.SameTold s') : s'.Tells waiting := by
  constructor
  · exact same.sink.trans t.sink
  · exact same.pending ▸ t.sorted
  · rw [same.pending, buffer]
    exact t.within
  · exact t.size.trans buffer.symm
  · rw [same.told]
    exact t.described
  · rw [same.center, same.told, buffer]
    exact t.center
  · rw [same.rate, same.told, buffer]
    exact t.rate
  · rw [same.told]
    exact t.usable
  · rw [same.published]
    exact t.reported
  · rw [same.pending, same.published]
    exact t.opens

theorem below (t : s.Tells waiting) : ∀ m ∈ s.pendingBreaks, m.1 < s.sampleBuffer.length + 1 :=
  fun m member => Nat.lt_succ_of_le (t.within m member)

theorem told_end (t : s.Tells waiting) {o : Nat} (behind : s.sampleBuffer.length ≤ o) :
    s.told o = s.told s.sampleBuffer.length := by
  rw [told, told, latest_stable _ t.below (Nat.succ_le_succ behind)]

theorem told_isSome (t : s.Tells waiting) :
    (s.told s.sampleBuffer.length).isSome =
      opened s.publishedGeometry.isSome (s.pendingBreaks.map Prod.snd) := by
  rw [told, Option.isSome_or, latest_isSome _ t.below, opened, List.any_map, Bool.or_comm]
  rfl

/-- A break noted now is heard by whatever arrives next. -/
theorem told_noteBreak (sink : s.breakSink = true) (cause : StreamDiscontinuity) (o : Nat) :
    (s.noteBreak cause).told o =
      if s.sampleBuffer.length ≤ o then cause.geometry.or (s.told o) else s.told o := by
  have keeps := s.noteBreak_keeps cause
  rw [told, keeps.publishedGeometry]
  unfold noteBreak
  rw [if_neg (by simp [sink])]
  split
  · rename_i repeated
    rw [repeated.1]
    exact (ite_self (s.told o)).symm
  · rw [latest_append, latest, latest, Option.none_or, Option.or_assoc, ← told]
    by_cases reached : s.sampleBuffer.length ≤ o
    · rw [if_pos (by omega), if_pos reached]
    · rw [if_neg (by omega), if_neg reached, Option.none_or]

theorem opens_noteBreak {before : Bool} (opens : Opens before (s.pendingBreaks.map Prod.snd))
    {cause : StreamDiscontinuity}
    (next : Opens (opened before (s.pendingBreaks.map Prod.snd)) [cause]) :
    Opens before ((s.noteBreak cause).pendingBreaks.map Prod.snd) := by
  unfold noteBreak
  split
  · exact opens
  · split
    · exact opens
    · rw [List.map_append, opens_append]
      exact ⟨opens, next⟩

theorem note_gap (t : s.Tells waiting) : (s.noteBreak .gap).Tells waiting := by
  have keeps := s.noteBreak_keeps .gap
  have epoch := s.noteBreak_epoch .gap
  have same : (s.noteBreak .gap).told = s.told := by
    funext o
    rw [told_noteBreak t.sink]
    exact ite_self _
  constructor
  · exact keeps.breakSink.trans t.sink
  · exact sorted_noteBreak t.sorted t.within _
  · rw [keeps.sampleBuffer]
    exact within_noteBreak t.within _
  · rw [keeps.sampleBuffer]
    exact t.size
  · rw [same]
    exact t.described
  · rw [epoch.1, same, keeps.sampleBuffer]
    exact t.center
  · rw [epoch.2, same, keeps.sampleBuffer]
    exact t.rate
  · rw [same]
    exact t.usable
  · rw [keeps.publishedGeometry]
    exact t.reported
  · rw [keeps.publishedGeometry]
    exact opens_noteBreak t.opens trivial

theorem note_geometry (t : s.Tells waiting) {cause : StreamDiscontinuity} {g : F64 × F64}
    (announces : cause.geometry = some g) (usable : Usable g)
    (next : Opens (opened s.publishedGeometry.isSome (s.pendingBreaks.map Prod.snd)) [cause]) :
    let noted : HttpSource Sample :=
      { s.noteBreak cause with epochCenterHz := some g.1, epochRateHz := some g.2 }
    noted.Tells waiting ∧ noted.told s.sampleBuffer.length = some g := by
  intro noted
  have keeps := s.noteBreak_keeps cause
  have heard : ∀ o, noted.told o = if s.sampleBuffer.length ≤ o then some g else s.told o := by
    intro o
    have noted := told_noteBreak t.sink cause o
    rw [announces, Option.some_or] at noted
    exact noted
  have here := (heard s.sampleBuffer.length).trans (if_pos le_rfl)
  refine ⟨?_, here⟩
  constructor
  · exact keeps.breakSink.trans t.sink
  · exact sorted_noteBreak t.sorted t.within _
  · exact keeps.sampleBuffer.symm ▸ within_noteBreak t.within _
  · exact t.size.trans (congrArg List.length keeps.sampleBuffer.symm)
  · intro o a found
    have inside : o < s.sampleBuffer.length := t.size ▸ (List.getElem?_eq_some_iff.mp found).1
    rw [heard, if_neg (by omega)]
    exact t.described o a found
  · have buffer : noted.sampleBuffer = s.sampleBuffer := keeps.sampleBuffer
    rw [buffer, here]
    rfl
  · have buffer : noted.sampleBuffer = s.sampleBuffer := keeps.sampleBuffer
    rw [buffer, here]
    rfl
  · intro o g' found
    rw [heard] at found
    split at found
    · exact Option.some.inj found ▸ usable
    · exact t.usable o g' found
  · exact keeps.publishedGeometry.symm ▸ t.reported
  · exact keeps.publishedGeometry.symm ▸ opens_noteBreak t.opens next

/-- Comparing a packet's geometry leaves one that describes it at the buffer's end. -/
theorem geometry (t : s.Tells waiting) {packet : StreamPacket Sample}
    (iq : packet.metadata.payload = .iq)
    (usable : Usable (packet.sdrConfig.centerFrequencyHz, packet.sdrConfig.sampleRateHz)) :
    (s.noteGeometry packet).Tells waiting ∧
      ∃ g, (s.noteGeometry packet).told s.sampleBuffer.length = some g ∧
        Describes g packet.sdrConfig.centerFrequencyHz packet.sdrConfig.sampleRateHz := by
  have positive : ¬ packet.sdrConfig.sampleRateHz ≤ 0 := by
    obtain ⟨-, rated, above⟩ := usable
    obtain ⟨r, positive, same⟩ := F64.positive_value _ rated above
    dsimp only at same
    rw [same]
    simpa using positive
  have fresh := t.told_isSome
  unfold noteGeometry
  dsimp only
  rw [if_neg (by simp [t.sink, iq]), if_neg positive]
  cases epoch : s.told s.sampleBuffer.length with
  | none =>
      rw [t.center, t.rate, epoch]
      rw [epoch] at fresh
      have first : Opens (opened s.publishedGeometry.isSome (s.pendingBreaks.map Prod.snd))
          [.initial packet.sdrConfig.centerFrequencyHz packet.sdrConfig.sampleRateHz] :=
        ⟨fresh.symm, trivial⟩
      obtain ⟨tells, heard⟩ := t.note_geometry rfl usable first
      exact ⟨tells, _, heard, describes_self usable⟩
  | some g =>
      rw [t.center, t.rate, epoch]
      rw [epoch] at fresh
      dsimp only [Option.map_some]
      split
      · rename_i unmoved
        simp only [Bool.and_eq_true, Bool.not_eq_true', decide_eq_false_iff_not] at unmoved
        exact ⟨t, g, epoch, describes_of_unmoved (t.usable _ _ epoch) usable unmoved.1 unmoved.2⟩
      · have later : Opens (opened s.publishedGeometry.isSome (s.pendingBreaks.map Prod.snd))
            [.retune packet.sdrConfig.centerFrequencyHz packet.sdrConfig.sampleRateHz] :=
          ⟨fresh.symm, trivial⟩
        obtain ⟨tells, heard⟩ := t.note_geometry rfl usable later
        exact ⟨tells, _, heard, describes_self usable⟩

/-- Samples like the geometry at the buffer's end may join it. -/
theorem grow (t : s.Tells waiting) {added : List (Arrived Sample)}
    (described : ∀ a ∈ added, ∃ g, s.told s.sampleBuffer.length = some g ∧
      Describes g a.centerHz a.rateHz)
    (buffer : s'.sampleBuffer = s.sampleBuffer ++ added.map Arrived.value)
    (same : s.SameTold s') : s'.Tells (waiting ++ added) := by
  have longer : s.sampleBuffer.length ≤ s'.sampleBuffer.length := by
    rw [buffer, List.length_append]
    exact Nat.le_add_right _ _
  have ending : s'.told s'.sampleBuffer.length = s.told s.sampleBuffer.length := by
    rw [same.told]
    exact t.told_end longer
  constructor
  · exact same.sink.trans t.sink
  · exact same.pending ▸ t.sorted
  · exact same.pending ▸ t.within.mono longer
  · rw [buffer, List.length_append, List.length_append, List.length_map, t.size]
  · intro o a found
    rw [same.told]
    by_cases old : o < waiting.length
    · rw [List.getElem?_append_left old] at found
      exact t.described o a found
    · rw [List.getElem?_append_right (by omega)] at found
      rw [t.told_end (by rw [← t.size]; omega)]
      exact described a (List.mem_of_getElem? found)
  · rw [same.center, ending]
    exact t.center
  · rw [same.rate, ending]
    exact t.rate
  · rw [same.told]
    exact t.usable
  · rw [same.published]
    exact t.reported
  · rw [same.pending, same.published]
    exact t.opens

theorem told_noteTrim (sink : s.breakSink = true) (discarded o : Nat) :
    (s.noteTrim discarded).told o = s.told (o + discarded) := by
  have silent : ∀ m ∈ rebase discarded s.pendingBreaks,
      (decide (0 < m.1) || m.2 != .gap) = false → m.2.geometry = none := by
    intro m _ dropped
    have gap : m.2 = .gap := by simpa using (Bool.or_eq_false_iff.mp dropped).2
    rw [gap]
    rfl
  rw [told, told, (s.noteTrim_keeps discarded).publishedGeometry, noteTrim_pendingBreaks sink,
    latest, latest_filter _ _ _ silent, latest_rebase _ (Nat.succ_pos o), Nat.add_right_comm]
  simp only [StreamDiscontinuity.geometry, ite_self, Option.or_none]

/-- A trim leaves what is still buffered described. -/
theorem trim (t : s.Tells waiting) {discarded : Nat} (held : discarded ≤ s.sampleBuffer.length)
    (buffer : s'.sampleBuffer = s.sampleBuffer.drop discarded) (same : s.SameTold s') :
    (s'.noteTrim discarded).Tells (waiting.drop discarded) := by
  have keeps := s'.noteTrim_keeps discarded
  have epoch := s'.noteTrim_epoch discarded
  have sinks : s'.breakSink = true := same.sink.trans t.sink
  have size : s'.sampleBuffer.length = s.sampleBuffer.length - discarded := by
    rw [buffer, List.length_drop]
  have moved : ∀ o, (s'.noteTrim discarded).told o = s.told (o + discarded) := by
    intro o
    rw [told_noteTrim sinks, same.told]
  have ending : (s'.noteTrim discarded).told s'.sampleBuffer.length =
      s.told s.sampleBuffer.length := by
    rw [moved]
    congr 1
    omega
  constructor
  · exact keeps.breakSink.trans sinks
  · rw [noteTrim_pendingBreaks sinks, same.pending, Sorted, List.pairwise_cons]
    exact ⟨fun m _ => Nat.zero_le _,
      List.Pairwise.sublist List.filter_sublist (sorted_rebase t.sorted)⟩
  · rw [noteTrim_pendingBreaks sinks, same.pending, keeps.sampleBuffer, size]
    intro m member
    rcases List.mem_cons.mp member with rfl | kept
    · exact Nat.zero_le _
    · exact within_rebase t.within m (List.mem_of_mem_filter kept)
  · rw [keeps.sampleBuffer, size, List.length_drop, t.size]
  · intro o a found
    rw [List.getElem?_drop, Nat.add_comm] at found
    rw [moved]
    exact t.described _ a found
  · rw [epoch.1, same.center, keeps.sampleBuffer, ending]
    exact t.center
  · rw [epoch.2, same.rate, keeps.sampleBuffer, ending]
    exact t.rate
  · intro o g found
    rw [moved] at found
    exact t.usable _ g found
  · rw [keeps.publishedGeometry, same.published]
    exact t.reported
  · rw [noteTrim_pendingBreaks sinks, same.pending, keeps.publishedGeometry, same.published]
    have gaps : ∀ m ∈ rebase discarded s.pendingBreaks,
        (decide (0 < m.1) || m.2 != .gap) = false → m.2 = .gap := by
      intro m _ dropped
      simpa using (Bool.or_eq_false_iff.mp dropped).2
    rw [List.map_cons, Opens, opens_filter gaps, map_snd_rebase]
    exact t.opens

theorem clear (t : s.Tells waiting) :
    ({ s with sampleBuffer := [] } : HttpSource Sample).noteBufferCleared.Tells [] := by
  rw [noteBufferCleared_sink (s := { s with sampleBuffer := [] }) t.sink]
  have heard : ∀ o, told { s with
      sampleBuffer := ([] : List Sample)
      pendingBreaks := [(0, .gap)]
      epochCenterHz := s.publishedGeometry.map Prod.fst
      epochRateHz := s.publishedGeometry.map Prod.snd } o = s.publishedGeometry := by
    intro o
    simp only [told, latest, StreamDiscontinuity.geometry, ite_self, Option.or_none,
      Option.none_or]
  constructor
  · exact t.sink
  · exact List.pairwise_singleton _ _
  · intro m member
    rw [List.mem_singleton] at member
    rw [member]
    exact Nat.zero_le _
  · rfl
  · intro o a found
    cases found
  · rw [heard]
  · rw [heard]
  · intro o g found
    rw [heard] at found
    exact t.reported g found
  · exact t.reported
  · exact trivial

/-- An output leaves what stays described, now by what was reported as well. -/
theorem produce (t : s.Tells waiting) (room : Nat) :
    (s.produce room).1.Tells (waiting.drop (min s.sampleBuffer.length room)) := by
  have bound := Nat.min_le_left s.sampleBuffer.length room
  have size : (s.produce room).1.sampleBuffer.length =
      s.sampleBuffer.length - min s.sampleBuffer.length room := by
    rw [produce_sampleBuffer, List.length_drop]
  have queue := produce_pendingBreaks t.sink room
  have published := produce_publishedGeometry t.sink room
  have moved : ∀ o, (s.produce room).1.told o = s.told (o + min s.sampleBuffer.length room) := by
    intro o
    rw [told, told, queue, published, latest_rebase _ (Nat.succ_pos o),
      latest_held _ t.sorted _ (by omega), Nat.add_right_comm]
  have ending : (s.produce room).1.told (s.produce room).1.sampleBuffer.length =
      s.told s.sampleBuffer.length := by
    rw [moved]
    congr 1
    omega
  obtain ⟨-, -, opens, -⟩ := opens_publishLoop s.produced
    (min s.sampleBuffer.length room) t.opens
  constructor
  · exact produce_breakSink t.sink room
  · rw [queue]
    exact sorted_rebase (sorted_publishLoop_held t.sorted _)
  · rw [queue, size]
    apply within_rebase
    intro m member
    exact t.within m ((mem_publishLoop_held t.sorted _).mp member).1
  · rw [size, List.length_drop, t.size]
  · intro o a found
    rw [List.getElem?_drop, Nat.add_comm] at found
    rw [moved]
    exact t.described _ a found
  · rw [(s.produce_epoch room).1, ending]
    exact t.center
  · rw [(s.produce_epoch room).2, ending]
    exact t.rate
  · intro o g found
    rw [moved] at found
    exact t.usable _ g found
  · intro g found
    rw [published, publishLoop_heard t.sorted] at found
    cases count : min s.sampleBuffer.length room with
    | zero =>
        rw [count, latest_beyond _ fun m _ => Nat.zero_le _] at found
        exact t.reported g found
    | succ n =>
        rw [count] at found
        exact t.usable n g found
  · rw [queue, published, map_snd_rebase]
    exact opens

end Tells

/-! ## Items -/

/-- An IQ packet's geometry is usable. -/
def UsableItem : ParsedItem Sample → Prop
  | .packet packet =>
      packet.metadata.payload = .iq →
        Usable (packet.sdrConfig.centerFrequencyHz, packet.sdrConfig.sampleRateHz)
  | .lost _ | .skipped _ _ => True

namespace Tells

variable {s s' : HttpSource Sample} {waiting : List (Arrived Sample)}

theorem lost (t : s.Tells waiting) : s.noteLostPacket.Tells waiting := by
  have counted : ∀ lost, ({ s with packetsLostToParseErrors := lost } :
      HttpSource Sample).Tells waiting := fun _ => t.of_same rfl ⟨rfl, rfl, rfl, rfl, rfl⟩
  exact (counted (saturatingAdd s.packetsLostToParseErrors 1)).note_gap.of_same
    rfl ⟨rfl, rfl, rfl, rfl, rfl⟩

theorem cleanup (t : s.Tells waiting) : s.cleanupStream.Tells waiting := by
  have reset : ({ s with
      streamParser := s.streamParser.reset
      dropDetector := s.dropDetector.resync } : HttpSource Sample).Tells waiting :=
    t.of_same rfl ⟨rfl, rfl, rfl, rfl, rfl⟩
  exact reset.note_gap

theorem continuity (t : s.Tells waiting) (metadata : PacketMetadata) :
    (s.noteContinuity metadata).Tells waiting := by
  have seen : ∀ (detector : DropDetector) (gap : F64),
      ({ s with dropDetector := detector, streamGapSeconds := gap } : HttpSource Sample).Tells
        waiting := fun _ _ => t.of_same rfl ⟨rfl, rfl, rfl, rfl, rfl⟩
  unfold noteContinuity
  dsimp only
  split
  · exact seen _ _
  · exact (seen _ _).note_gap
  · exact (seen _ _).note_gap

/-- One item: its samples are described too, and what the append trims takes its
description along. -/
theorem item (t : s.Tells waiting) {item : ParsedItem Sample} (usable : UsableItem item)
    (processed : s.processItem item = some s') :
    s'.publishedGeometry = s.publishedGeometry ∧
    ∃ trimmed ≤ s.sampleBuffer.length + (arrivedBy item).length,
      s'.sampleBuffer = (s.sampleBuffer ++ (arrivedBy item).map Arrived.value).drop trimmed ∧
      s'.Tells ((waiting ++ arrivedBy item).drop trimmed) := by
  cases item with
  | lost error =>
      cases processed
      refine ⟨s.noteLostPacket_keeps.publishedGeometry, 0, Nat.zero_le _, ?_, ?_⟩
      · exact s.noteLostPacket_keeps.sampleBuffer.trans (List.append_nil _).symm
      · rw [arrivedBy, List.append_nil]
        exact t.lost
  | skipped payload reason =>
      cases processed
      refine ⟨rfl, 0, Nat.zero_le _, (List.append_nil _).symm, ?_⟩
      rw [arrivedBy, List.append_nil]
      exact t.of_same rfl ⟨rfl, rfl, rfl, rfl, rfl⟩
  | packet packet =>
      by_cases iq : packet.metadata.payload = .iq
      · rw [processItem_iq iq] at processed
        have keeps := s.notePacket_keeps packet
        have adopted : ((s.noteContinuity packet.metadata).adoptConfig packet.sdrConfig).Tells
            waiting := (t.continuity packet.metadata).of_same rfl ⟨rfl, rfl, rfl, rfl, rfl⟩
        obtain ⟨noted, g, heard, near⟩ := adopted.geometry iq (usable iq)
        have described : ∀ a ∈ arrivedBy (.packet packet), ∃ g,
            (s.notePacket packet).told (s.notePacket packet).sampleBuffer.length = some g ∧
              Describes g a.centerHz a.rateHz := by
          intro a member
          rw [arrivedBy, if_pos iq] at member
          obtain ⟨value, -, rfl⟩ := List.mem_map.mp member
          refine ⟨g, ?_, near⟩
          rw [keeps.sampleBuffer, ← (s.noteContinuity_keeps packet.metadata).sampleBuffer]
          exact heard
        have grown : ∀ size counted, ({ s.notePacket packet with
            maxPacketSamples := size
            overflowSamples := counted
            sampleBuffer := (s.notePacket packet).sampleBuffer ++ packet.samples } :
              HttpSource Sample).Tells (waiting ++ arrivedBy (.packet packet)) := by
          intro size counted
          refine Tells.grow (s := s.notePacket packet) noted described ?_ ⟨rfl, rfl, rfl, rfl, rfl⟩
          rw [arrivedBy_values iq]
        rw [arrivedBy_values iq, length_arrivedBy iq, ← keeps.sampleBuffer,
          ← keeps.publishedGeometry]
        rcases appendSamples_cases processed with rfl | ⟨overflow, counted, -, within, rfl⟩
        · exact ⟨rfl, 0, Nat.zero_le _, rfl, grown _ _⟩
        · refine ⟨(noteTrim_keeps _ _).publishedGeometry, overflow, within,
            (noteTrim_keeps _ _).sampleBuffer, ?_⟩
          exact (grown 0 counted).trim (within.trans_eq (List.length_append ..).symm) rfl
            ⟨rfl, rfl, rfl, rfl, rfl⟩
      · rw [processItem_other iq] at processed
        cases processed
        have nothing : arrivedBy (.packet packet) = [] := if_neg iq
        rw [nothing]
        refine ⟨rfl, 0, Nat.zero_le _, (List.append_nil _).symm, ?_⟩
        rw [List.append_nil]
        exact t.of_same rfl ⟨rfl, rfl, rfl, rfl, rfl⟩

end Tells
end HttpSource

/-! ## Runs -/

namespace Playback

open HttpSource

variable {Sample : Type} {r r' : Playback Sample}

/-- The records so far, as marks on the output. -/
def marks (r : Playback Sample) : List (Nat × StreamDiscontinuity) :=
  r.records.map fun b => mark b.record

/-- What has been announced describes what was produced. -/
structure Announced (r : Playback Sample) : Prop where
  tells : r.source.Tells (r.arrived.drop r.left)
  published : r.source.publishedGeometry =
    latest StreamDiscontinuity.geometry r.outputs.length r.marks
  described : ∀ (i : Nat) o, r.outputs[i]? = some o → ∃ a g, r.arrived[o.1]? = some a ∧
    latest StreamDiscontinuity.geometry (i + 1) r.marks = some g ∧
      Describes g a.centerHz a.rateHz
  opens : Opens false (r.records.map fun b => b.record.cause)
  opened : opened false (r.records.map fun b => b.record.cause) =
    r.source.publishedGeometry.isSome

/-- Without an output only the source's own side changes. -/
theorem Announced.quiet (announced : r.Announced) (outputs : r'.outputs = r.outputs)
    (records : r'.records = r.records)
    (published : r'.source.publishedGeometry = r.source.publishedGeometry)
    (kept : ∀ (p : Nat) a, r.arrived[p]? = some a → r'.arrived[p]? = some a)
    (tells : r'.source.Tells (r'.arrived.drop r'.left)) : r'.Announced where
  tells := tells
  published := by
    rw [published, announced.published, outputs, marks, marks, records]
  described := by
    intro i o found
    rw [outputs] at found
    obtain ⟨a, g, there, heard, near⟩ := announced.described i o found
    refine ⟨a, g, kept _ a there, ?_, near⟩
    rw [marks, records]
    exact heard
  opens := records ▸ announced.opens
  opened := by
    rw [records, published]
    exact announced.opened

theorem Announced.afterProduce (announced : r.Announced) (consistent : r.Consistent)
    (reported : r.Reported) (room : Nat) : (r.afterProduce room).Announced := by
  have sink := announced.tells.sink
  have sorted := announced.tells.sorted
  have counted := consistent.counted
  have bound := Nat.min_le_left r.source.sampleBuffer.length room
  have tells := announced.tells.produce room
  have published := produce_publishedGeometry sink room
  have records := produce_records sink room
  obtain ⟨opens, whole, -, -⟩ := opens_publishLoop r.source.produced
    (min r.source.sampleBuffer.length room) announced.tells.opens
  rw [afterProduce_eq]
  generalize min r.source.sampleBuffer.length room = count at *
  have old : ∀ m ∈ r.marks, m.1 < r.outputs.length := by
    intro m member
    obtain ⟨b, inside, rfl⟩ := List.mem_map.mp member
    exact (reported.placed b inside).2.2
  have new : ∀ m ∈ (r.source.produce room).2.1.map mark, r.outputs.length ≤ m.1 := by
    intro m member
    obtain ⟨b, inside, rfl⟩ := List.mem_map.mp member
    rw [records] at inside
    obtain ⟨o, c, -, -, place⟩ := publishLoop_place _ _ inside
    dsimp only [mark]
    omega
  have joined : (r.records ++ (r.source.produce room).2.1.map
      (Recorded.mk r.outputs.length)).map (fun b => mark b.record) =
        r.marks ++ (r.source.produce room).2.1.map mark := by
    rw [List.map_append, List.map_map]
    rfl
  have causes : (r.records ++ (r.source.produce room).2.1.map
      (Recorded.mk r.outputs.length)).map (fun b => b.record.cause) =
        r.records.map (fun b => b.record.cause) ++
          (r.source.produce room).2.1.map StreamBreak.cause := by
    rw [List.map_append, List.map_map]
    rfl
  exact
    { tells := by
        dsimp only
        rw [← List.drop_drop]
        exact tells
      published := by
        dsimp only [marks]
        rw [joined, latest_append, latest_stable _ old (by simp), ← announced.published, published,
          publishLoop_published, records, List.length_append, List.length_map,
          List.length_zipIdx, List.length_take_of_le bound, counted]
      described := by
        intro i o found
        dsimp only [marks] at found ⊢
        rw [joined, latest_append]
        by_cases before : i < r.outputs.length
        · rw [List.getElem?_append_left before] at found
          rw [latest_beyond _ fun m member => (Nat.succ_le_of_lt before).trans (new m member)]
          exact announced.described i o found
        · obtain ⟨j, place⟩ : ∃ j, i = r.outputs.length + j :=
            ⟨i - r.outputs.length, by omega⟩
          rw [place, getElem?_produced, Option.map_eq_some_iff] at found
          obtain ⟨value, taken, rfl⟩ := found
          rw [List.getElem?_take] at taken
          split at taken
          · rename_i inside
            rw [consistent.buffer, List.getElem?_map, List.getElem?_drop,
              Option.map_eq_some_iff] at taken
            obtain ⟨a, there, -⟩ := taken
            obtain ⟨g, heard, near⟩ := announced.tells.described j a
              (by rw [List.getElem?_drop]; exact there)
            refine ⟨a, g, there, ?_, near⟩
            rw [latest_stable _ old (by omega), ← announced.published, records, place,
              ← counted, latest_publishLoop sorted _ inside]
            exact heard
          · cases taken
      opens := by
        dsimp only
        rw [causes, opens_append, announced.opened, records]
        exact ⟨announced.opens, opens⟩
      opened := by
        dsimp only
        rw [causes, opened_append, announced.opened, records, whole, published] }

theorem Announced.step (announced : r.Announced) (consistent : r.Consistent)
    (reported : r.Reported) {action : SourceAction Sample}
    (allowed : ∀ item, action = .item item → UsableItem item)
    (stepped : r.step action = some r') : r'.Announced := by
  cases action with
  | learn parser chunkBytes outputItems =>
      obtain rfl := Option.some.inj stepped
      exact announced.quiet rfl rfl rfl (fun _ _ => id)
        (announced.tells.of_same rfl ⟨rfl, rfl, rfl, rfl, rfl⟩)
  | item item =>
      obtain ⟨next, processed, rfl⟩ := Option.map_eq_some_iff.mp stepped
      obtain ⟨published, trimmed, bound, kept, tells⟩ :=
        announced.tells.item (allowed item rfl) processed
      rw [afterItem_left bound kept]
      refine announced.quiet rfl rfl published ?_ ?_
      · intro p a found
        exact (List.getElem?_append_left (List.getElem?_eq_some_iff.mp found).1).trans found
      · rw [← List.drop_append_of_le_length consistent.fits, List.drop_drop] at tells
        exact tells
  | cleanup =>
      obtain rfl := Option.some.inj stepped
      exact announced.quiet rfl rfl r.source.cleanupStream_publishedGeometry (fun _ _ => id)
        announced.tells.cleanup
  | restart =>
      obtain rfl := Option.some.inj stepped
      refine announced.quiet rfl rfl ?_ (fun _ _ => id) ?_
      · exact (noteBufferCleared_keeps _).publishedGeometry.trans
          r.source.cleanupStream_publishedGeometry
      · dsimp only
        rw [List.drop_length]
        exact announced.tells.cleanup.clear
  | produce room =>
      obtain rfl := Option.some.inj stepped
      exact announced.afterProduce consistent reported room

theorem Reach.announced (reached : Reach UsableItem r) : r.Announced := by
  induction reached with
  | new format bufferSize scale centerHz rateHz =>
      constructor
      · constructor <;>
          simp [Playback.new, HttpSource.new, Sorted, Within, told, latest, Opens]
      · rfl
      · intro i o found
        cases found
      · exact trivial
      · rfl
  | step reached allowed stepped ih =>
      exact ih.step reached.consistent reached.reported allowed stepped

/-- The records that announce a geometry. -/
def announcements (r : Playback Sample) : List Recorded :=
  r.records.filter fun b => b.record.cause.geometry.isSome

theorem announcements_ordered (reported : r.Reported) :
    r.announcements.Pairwise fun a b => a.record.index ≤ b.record.index := by
  have ordered := List.pairwise_map.mp reported.ordered
  apply List.Pairwise.sublist List.filter_sublist
  apply ordered.imp
  intro a b inOrder
  rcases inOrder with earlier | same
  · exact Nat.le_of_lt earlier
  · exact Nat.le_of_eq same.1

/-- Once a sample was produced, an `initial` at its index leads the announcements. -/
theorem first_announcement (reached : Reach UsableItem r) (some : r.outputs ≠ []) :
    ∃ first rest, r.announcements = first :: rest ∧ first.record.index = 0 ∧
      first.record.cause.isInitial = true ∧ ∀ b ∈ rest, b.record.cause.isInitial = false := by
  have announced := reached.announced
  obtain ⟨o, others, produced⟩ := List.exists_cons_of_ne_nil some
  obtain ⟨a, g, -, heard, -⟩ := announced.described 0 o (by rw [produced]; rfl)
  obtain ⟨before, m, after, split, start, geometry, -⟩ := latest_eq_some _ heard
  have member : m ∈ r.marks := split ▸ List.mem_append_right _ List.mem_cons_self
  obtain ⟨b, inside, rfl⟩ := List.mem_map.mp member
  have told : b ∈ r.announcements :=
    List.mem_filter.mpr ⟨inside, Option.isSome_iff_exists.mpr ⟨g, geometry⟩⟩
  rcases opens_first announced.opens with nothing | ⟨first, rest, all, initial, later⟩
  · rw [announcements, nothing] at told
    cases told
  · refine ⟨first, rest, all, ?_, initial, later⟩
    have ordered := announcements_ordered reached.reported
    rw [announcements, all] at ordered told
    rcases List.mem_cons.mp told with rfl | behind
    · exact Nat.lt_one_iff.mp start
    · have le := (List.pairwise_cons.mp ordered).1 b behind
      exact Nat.le_zero.mp (le.trans (Nat.lt_succ_iff.mp start))

/-- Each produced sample is described by the announcement last made for it; the
first announcement, and no other, opens the stream. -/
theorem announcements_describe_output (reached : Reach UsableItem r) :
    (∀ (i : Nat) o, r.outputs[i]? = some o →
      ∃ a g before b after, r.arrived[o.1]? = some a ∧ a.value = o.2 ∧
        r.records = before ++ b :: after ∧ b.record.cause.geometry = some g ∧
        b.record.index ≤ i ∧ b.producedBefore ≤ i ∧
        (∀ later ∈ after, later.record.index ≤ i → later.record.cause.geometry = none) ∧
        Describes g a.centerHz a.rateHz) ∧
    (r.outputs = [] → r.announcements = []) ∧
    (r.outputs ≠ [] → ∃ first rest, r.announcements = first :: rest ∧ first.record.index = 0 ∧
      first.record.cause.isInitial = true ∧ ∀ b ∈ rest, b.record.cause.isInitial = false) := by
  have announced := reached.announced
  have reported := reached.reported
  refine ⟨?_, ?_, first_announcement reached⟩
  · intro i o found
    obtain ⟨a, g, there, heard, near⟩ := announced.described i o found
    obtain ⟨before, m, after, split, below, geometry, silent⟩ := latest_eq_some _ heard
    obtain ⟨early, rest, records, -, others⟩ := List.map_eq_append_iff.mp split
    obtain ⟨b, late, rfl, rfl, rfl⟩ := List.map_eq_cons_iff.mp others
    have value := (reached.consistent.truthful o (List.mem_of_getElem? found)).2
    rw [there] at value
    have member : b ∈ r.records := records ▸ List.mem_append_right _ List.mem_cons_self
    have index : b.record.index ≤ i := Nat.lt_succ_iff.mp below
    refine ⟨a, g, early, b, late, there, Option.some.inj value, records, geometry, index,
      (reported.placed b member).2.1.trans index, ?_, near⟩
    intro later inside within
    exact silent (mark later.record) (List.mem_map_of_mem inside) (Nat.lt_succ_of_le within)
  · intro nothing
    rw [announcements, List.filter_eq_nil_iff]
    intro b member
    have place := (reported.placed b member).2.2
    rw [nothing] at place
    exact absurd place (Nat.not_lt_zero _)

/-- A move announced behind a restart that discarded an earlier one. -/
def retunedRun : List (SourceAction Nat) :=
  [.item (.packet (secondsPacket 0 100 [10])), .produce 1,
    .item (.packet (secondsPacket 1 200 [])), .item (.packet (secondsPacket 1 300 [11, 12])),
    .restart, .item (.packet (secondsPacket 3 300 [13])), .produce 5]

theorem retunedRun_outcome :
    ((Playback.new .int16 1 none 0 0).run retunedRun).map (fun r => (r.outputs, r.records)) =
      some ([(0, 10), (3, 13)],
        [⟨0, ⟨0, .initial 100 1⟩⟩, ⟨1, ⟨1, .gap⟩⟩, ⟨1, ⟨1, .retune 300 1⟩⟩]) := by
  decide +kernel

theorem announcements_describe_output_retunedRun :
    ∃ r, (Playback.new .int16 1 none 0 0).run retunedRun = some r ∧
      ∃ first rest, r.announcements = first :: rest ∧ first.record.index = 0 ∧
        first.record.cause.isInitial = true ∧ ∀ b ∈ rest, b.record.cause.isInitial = false := by
  obtain ⟨r, ran, outcome⟩ := Option.map_eq_some_iff.mp retunedRun_outcome
  obtain ⟨outputs, -⟩ := Prod.mk.inj outcome
  have usable : ∀ start centerHz samples,
      UsableItem (.packet (secondsPacket start centerHz samples)) := by
    intro start centerHz samples _
    refine ⟨?_, rfl, ?_⟩
    · have center : (F64.finite (centerHz - 1) + F64.finite (centerHz + 1)) / F64.finite 2 =
          .finite ((centerHz - 1 + (centerHz + 1)) / 2) := by
        rw [F64.finite_add, F64.finite_div _ _ (by norm_num)]
      exact congrArg F64.isFinite center
    · exact (F64.finite_lt 0 1).mpr (by norm_num)
  have reached : Reach UsableItem r := by
    refine reach_run (.new _ _ _ _ _) ?_ ran
    intro item member
    simp only [retunedRun, List.mem_cons, SourceAction.item.injEq, reduceCtorEq, List.not_mem_nil,
      or_false, false_or] at member
    rcases member with rfl | rfl | rfl | rfl <;> exact usable _ _ _
  have produced : r.outputs ≠ [] := by
    rw [outputs]
    exact List.cons_ne_nil _ _
  exact ⟨r, ran, (announcements_describe_output reached).2.2 produced⟩

end Playback
end SdrAaronia
