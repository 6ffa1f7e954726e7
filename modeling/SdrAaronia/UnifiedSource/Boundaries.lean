import SdrAaronia.UnifiedSource.Session
import Mathlib.Tactic.NormNum
import Mathlib.Tactic.Positivity

/-! # A read stays inside one geometry

The samples of one read come from packets near the centre and rate the source
reports for it, and a gap lies ahead of the first of them or not at all.
-/

namespace SdrAaronia

open HttpStreaming Segments

/-- Centre and rate of the packet are the ones given, up to 1 Hz and the rate
band. -/
def ChannelPacket.Near {Sample : Type} (freqHz rateHz : F64) (packet : ChannelPacket Sample) :
    Prop :=
  (packet.frequencyHz - freqHz).abs ≤ 1 ∧ (packet.rateHz - rateHz).abs / rateHz ≤ rateChangeBand

/-- A packet with samples and a geometry. -/
structure ChannelPacket.Proper {Sample : Type} (packet : ChannelPacket Sample) : Prop where
  sampled : 0 < packet.size
  frequencyHz : packet.frequencyHz.Positive
  rateHz : packet.rateHz.Positive

section Geometry

variable {Sample : Type} {packet : ChannelPacket Sample}

theorem seeded_unset (fromPacket : F64) : seeded 0 fromPacket = fromPacket :=
  if_pos rfl

theorem seeded_known {known : F64} (positive : known.Positive) (fromPacket : F64) :
    seeded known fromPacket = known := by
  obtain ⟨value, above, rfl⟩ := positive.value
  have known : F64.finite value ≠ 0 := fun same => above.ne' (F64.finite.inj same)
  rw [seeded, if_neg known]

theorem near_self (proper : packet.Proper) : packet.Near packet.frequencyHz packet.rateHz := by
  obtain ⟨freq, _, freqHz⟩ := proper.frequencyHz.value
  obtain ⟨rate, above, rateHz⟩ := proper.rateHz.value
  simp only [ChannelPacket.Near, freqHz, rateHz, F64.finite_sub, sub_self, F64.finite_abs, abs_zero,
    F64.one_eq, F64.finite_le, rateChangeBand, F64.finite_div _ _ above.ne', zero_div]
  norm_num

/-- A packet that may follow the samples in hand is near their geometry. -/
theorem near_of_not_retuned {freqHz rateHz : F64} (freq : freqHz.Positive) (rate : rateHz.Positive)
    (proper : packet.Proper) (follows : ¬retuned freqHz rateHz packet) :
    packet.Near freqHz rateHz := by
  obtain ⟨f, positive, rfl⟩ := freq.value
  obtain ⟨r, above, rfl⟩ := rate.value
  obtain ⟨f', positive', freqHz⟩ := proper.frequencyHz.value
  obtain ⟨r', above', rateHz⟩ := proper.rateHz.value
  simp only [retuned, freqHz, rateHz, F64.zero_eq, F64.one_eq, F64.finite_lt, F64.finite_sub,
    F64.finite_abs, rateMoved_finite _ _ above, positive, positive', above, above', true_and,
    Bool.or_eq_true, Bool.and_eq_true, decide_eq_true_eq, not_or, not_lt] at follows
  simp only [ChannelPacket.Near, freqHz, rateHz, F64.finite_sub, F64.finite_abs, F64.one_eq,
    F64.finite_le, rateChangeBand, F64.finite_div _ _ above.ne']
  exact follows

end Geometry

/-! ## What is left over -/

section Stream

variable {Sample : Type}

/-- What is stashed ends the last packet and carries a geometry near that packet's. -/
def Labelled (received : List (ChannelPacket Sample)) (s : SpectranSource Sample) : Prop :=
  s.sampleBuffer ≠ [] → ∃ before last, received = before ++ [last] ∧
    s.sampleBuffer.length ≤ last.size ∧ last.Near s.sampleBufferFreqHz s.sampleBufferRateHz ∧
    s.sampleBufferFreqHz.Positive ∧ s.sampleBufferRateHz.Positive

/-- The packets of the `count` samples from `first` on are near one geometry, and
none of them that follows a gap starts behind the first sample. -/
def Unbroken (received : List (ChannelPacket Sample)) (first count : Nat) (freqHz rateHz : F64) :
    Prop :=
  ∀ position place packet, first ≤ position → position < first + count →
    Holds ChannelPacket.size received position place packet →
    packet.Near freqHz rateHz ∧ (packet.dropped → place ≤ first)

theorem labelled_empty {received : List (ChannelPacket Sample)} {s : SpectranSource Sample}
    (none : s.sampleBuffer = []) : Labelled received s :=
  fun some => absurd none some

/-- The last packet received. -/
theorem labelled_snoc {received : List (ChannelPacket Sample)} {packet : ChannelPacket Sample}
    {s : SpectranSource Sample} (short : s.sampleBuffer.length ≤ packet.size)
    (near : packet.Near s.sampleBufferFreqHz s.sampleBufferRateHz)
    (freq : s.sampleBufferFreqHz.Positive) (rate : s.sampleBufferRateHz.Positive) :
    Labelled (received ++ [packet]) s :=
  fun _ => ⟨received, packet, rfl, short, near, freq, rate⟩

theorem unbroken_none (received : List (ChannelPacket Sample)) (first : Nat) (freqHz rateHz : F64) :
    Unbroken received first 0 freqHz rateHz := by
  intro position place packet from_ below _
  omega

theorem Labelled.begin {received : List (ChannelPacket Sample)} {s : SpectranSource Sample}
    (labelled : Labelled received s) (buffer : List Sample) (maxSamples : Nat) :
    Labelled received (Batch.begin s buffer maxSamples).source := by
  intro some
  rw [Batch.begin_sampleBuffer] at some
  have leftover : s.sampleBuffer ≠ [] := fun none => some (by rw [none, List.drop_nil])
  obtain ⟨before, last, split, short, near⟩ := labelled leftover
  obtain ⟨freq, rate⟩ := Batch.begin_tags s buffer maxSamples
  rw [Batch.begin_sampleBuffer, List.length_drop, freq, rate]
  exact ⟨before, last, split, by omega, near⟩

/-- The samples a read takes from the stash. -/
theorem unbroken_leftover {received : List (ChannelPacket Sample)} {s : SpectranSource Sample}
    {returned : Nat} (labelled : Labelled received s) (some : s.sampleBuffer ≠ [])
    (ends : total ChannelPacket.size received = returned + s.sampleBuffer.length) (count : Nat) :
    Unbroken received returned count s.sampleBufferFreqHz s.sampleBufferRateHz := by
  obtain ⟨before, last, rfl, short, near, -, -⟩ := labelled some
  rw [total_append, total_cons, total_nil] at ends
  intro position place packet past _ holds
  rcases holds_snoc.mp holds with earlier | ⟨rfl, start, -⟩
  · have := earlier.within
    omega
  · exact ⟨near, fun _ => by omega⟩

/-- A packet joins the samples in hand. -/
theorem Unbroken.join {received : List (ChannelPacket Sample)} {first count : Nat}
    {freqHz rateHz freqHz' rateHz' : F64} {packet : ChannelPacket Sample}
    (unbroken : Unbroken received first count freqHz rateHz)
    (ends : total ChannelPacket.size received = first + count)
    (same : 0 < count → freqHz' = freqHz ∧ rateHz' = rateHz)
    (near : packet.Near freqHz' rateHz') (opens : packet.dropped → count = 0) (more : Nat) :
    Unbroken (received ++ [packet]) first (count + more) freqHz' rateHz' := by
  intro position place other past _ holds
  rcases holds_snoc.mp holds with earlier | ⟨rfl, start, -⟩
  · have inside : position < first + count := ends ▸ earlier.within
    obtain ⟨rfl, rfl⟩ := same (by omega)
    exact unbroken position place other past inside earlier
  · exact ⟨near, fun flagged => by have := opens flagged; omega⟩

/-- A packet that is held starts behind the samples in hand. -/
theorem Unbroken.hold {received : List (ChannelPacket Sample)} {first count : Nat}
    {freqHz rateHz : F64} {packet : ChannelPacket Sample}
    (unbroken : Unbroken received first count freqHz rateHz)
    (ends : total ChannelPacket.size received = first + count) :
    Unbroken (received ++ [packet]) first count freqHz rateHz := by
  intro position place other past inside holds
  rcases holds_snoc.mp holds with earlier | ⟨-, start, behind, -⟩
  · exact unbroken position place other past inside earlier
  · omega

end Stream

/-! ## One read -/

namespace Session

variable {Sample : Type}

/-- The batch of a read that has taken the packets `got`, within one geometry. -/
structure Uniform (r : Session Sample) (got : List (ChannelPacket Sample)) (b : Batch Sample) :
    Prop where
  unbroken : Unbroken (r.received ++ got) r.returned.length b.collected b.freqHz b.rateHz
  labelled : Labelled (r.received ++ got) b.source
  geometry : 0 < b.collected → b.freqHz.Positive ∧ b.rateHz.Positive

/-- The packets still to come are proper, and a batch without samples has no
geometry yet. -/
structure Assembling (r : Session Sample) (got : List (ChannelPacket Sample)) (b : Batch Sample)
    (arrivals : List (ChannelPacket Sample)) : Prop extends Uniform r got b where
  coming : ∀ packet ∈ arrivals, packet.Proper
  unset : b.collected = 0 → b.freqHz = 0 ∧ b.rateHz = 0

theorem begin_assembling {r : Session Sample} {maxSamples : Nat} {buffer : List Sample}
    {arrivals : List (ChannelPacket Sample)} (conserved : r.Conserved)
    (labelled : Labelled r.received r.source)
    (coming : ∀ packet ∈ arrivals, packet.Proper) :
    Assembling r [] (Batch.begin r.source buffer maxSamples) arrivals := by
  have ends : total ChannelPacket.size r.received =
      r.returned.length + r.source.sampleBuffer.length := by
    rw [ChannelPacket.size_total, ← conserved, List.length_append]
  by_cases some : 0 < min r.source.sampleBuffer.length maxSamples
  · have leftover : r.source.sampleBuffer ≠ [] :=
      List.length_pos_iff.mp (Nat.lt_of_lt_of_le some (Nat.min_le_left _ _))
    have freq : (Batch.begin r.source buffer maxSamples).freqHz = r.source.sampleBufferFreqHz :=
      if_pos some
    have rate : (Batch.begin r.source buffer maxSamples).rateHz = r.source.sampleBufferRateHz :=
      if_pos some
    exact {
      unbroken := by
        rw [List.append_nil, freq, rate]
        exact unbroken_leftover labelled leftover ends _
      labelled := by
        rw [List.append_nil]
        exact labelled.begin buffer maxSamples
      geometry := fun _ => by
        obtain ⟨before, last, split, short, near, positive⟩ := labelled leftover
        rw [freq, rate]
        exact positive
      coming
      unset := fun none => absurd none some.ne' }
  · have none : min r.source.sampleBuffer.length maxSamples = 0 := Nat.eq_zero_of_not_pos some
    exact {
      unbroken := by
        rw [Batch.begin_collected, none]
        exact unbroken_none _ _ _ _
      labelled := by
        rw [List.append_nil]
        exact labelled.begin buffer maxSamples
      geometry := fun more => absurd more some
      coming
      unset := fun _ => ⟨if_neg some, if_neg some⟩ }

theorem Assembling.join {r : Session Sample} {maxSamples : Nat} {buffer : List Sample}
    {got rest : List (ChannelPacket Sample)} {b : Batch Sample} {packet : ChannelPacket Sample}
    (conserved : r.Conserved) (gathered : Batch.Open r.source buffer maxSamples got b)
    (assembling : Assembling r got b (packet :: rest)) (room : b.collected < maxSamples)
    (joins : ¬(0 < b.collected ∧ (packet.dropped ∨ retuned b.freqHz b.rateHz packet))) :
    Assembling r (got ++ [packet]) ((b.joined packet).absorb maxSamples packet) rest := by
  obtain ⟨proper, coming⟩ := List.forall_mem_cons.mp assembling.coming
  have sampled : 0 < packet.samples.length := proper.sampled
  have ends := gathered.total conserved
  rw [gathered.drained room, List.length_nil, Nat.add_zero] at ends
  -- The first packet gives the batch its geometry; later ones are near it.
  have geometry : (seeded b.freqHz packet.frequencyHz).Positive ∧
      (seeded b.rateHz packet.rateHz).Positive ∧
      packet.Near (seeded b.freqHz packet.frequencyHz) (seeded b.rateHz packet.rateHz) := by
    rcases Nat.eq_zero_or_pos b.collected with none | some
    · obtain ⟨freq, rate⟩ := assembling.unset none
      rw [freq, rate, seeded_unset, seeded_unset]
      exact ⟨proper.frequencyHz, proper.rateHz, near_self proper⟩
    · obtain ⟨freq, rate⟩ := assembling.geometry some
      rw [seeded_known freq, seeded_known rate]
      exact ⟨freq, rate,
        near_of_not_retuned freq rate proper fun moved => joins ⟨some, .inr moved⟩⟩
  obtain ⟨freq, rate, near⟩ := geometry
  exact {
    unbroken := by
      rw [← List.append_assoc, Batch.absorb_collected, Batch.absorb_freqHz, Batch.absorb_rateHz]
      apply assembling.unbroken.join ends _ near
      · intro flagged
        by_contra some
        exact joins ⟨Nat.pos_of_ne_zero some, .inl flagged⟩
      · intro some
        obtain ⟨freq, rate⟩ := assembling.geometry some
        exact ⟨seeded_known freq _, seeded_known rate _⟩
    labelled := by
      rw [← List.append_assoc]
      by_cases exceeds : maxSamples - b.collected < packet.samples.length
      · obtain ⟨freqTag, rateTag⟩ := Batch.absorb_tags maxSamples (b.joined packet) packet exceeds
        apply labelled_snoc
        · rw [Batch.absorb_sampleBuffer, Batch.joined_sampleBuffer, gathered.drained room,
            List.nil_append, List.length_drop]
          exact Nat.sub_le _ _
        · rw [freqTag, rateTag]
          exact near
        · rw [freqTag]
          exact freq
        · rw [rateTag]
          exact rate
      · apply labelled_empty
        rw [Batch.absorb_sampleBuffer, Batch.joined_sampleBuffer, gathered.drained room,
          List.nil_append]
        exact List.drop_of_length_le (Nat.not_lt.mp exceeds)
    geometry := by
      intro _
      rw [Batch.absorb_freqHz, Batch.absorb_rateHz]
      exact ⟨freq, rate⟩
    coming
    unset := by
      intro none
      rw [Batch.absorb_collected, Batch.joined_collected] at none
      omega }

theorem Assembling.hold {r : Session Sample} {maxSamples : Nat} {buffer : List Sample}
    {got rest : List (ChannelPacket Sample)} {b : Batch Sample} {packet : ChannelPacket Sample}
    (conserved : r.Conserved) (gathered : Batch.Open r.source buffer maxSamples got b)
    (assembling : Assembling r got b (packet :: rest)) (room : b.collected < maxSamples) :
    Uniform r (got ++ [packet]) (b.held packet) := by
  obtain ⟨proper, -⟩ := List.forall_mem_cons.mp assembling.coming
  have ends := gathered.total conserved
  rw [gathered.drained room, List.length_nil, Nat.add_zero] at ends
  exact {
    unbroken := by
      rw [← List.append_assoc]
      exact assembling.unbroken.hold ends
    labelled := by
      rw [← List.append_assoc]
      apply labelled_snoc
      · rw [Batch.held_sampleBuffer, gathered.drained room, List.nil_append]
        exact Nat.le_refl _
      · exact near_self proper
      · exact proper.frequencyHz
      · exact proper.rateHz
    geometry := assembling.geometry }

/-- The batch a read ends with. -/
theorem read_uniform {r : Session Sample} {queue : List (ChannelPacket Sample)}
    (conserved : r.Conserved) (labelled : Labelled r.received r.source)
    (coming : ∀ packet ∈ queue, packet.Proper) (buffer : List Sample) (maxSamples inTime : Nat) :
    ∃ b halt rest taken,
      (Batch.begin r.source buffer maxSamples).receiveLoop maxSamples (queue.take inTime) =
          (b, halt, rest) ∧
        queue.take inTime = taken ++ rest ∧ Uniform r taken b ∧
        Batch.Gathered r.source buffer maxSamples taken b := by
  have inTime : ∀ packet ∈ queue.take inTime, packet.Proper :=
    fun packet member => coming packet (List.mem_of_mem_take member)
  obtain ⟨b, halt, rest, taken, loop, cut, gathered, final⟩ :=
    Batch.gather_rule r.source buffer maxSamples (Assembling r) (Uniform r)
      (fun _ _ _ _ gathered assembling room joins =>
        assembling.join conserved gathered room joins)
      (fun _ _ _ _ gathered assembling room _ _ => assembling.hold conserved gathered room)
      _ (begin_assembling conserved labelled inTime)
  refine ⟨b, halt, rest, taken, loop, cut, ?_, gathered⟩
  cases halt with
  | full => exact final.2.toUniform
  | waiting => exact final.2.2.2.toUniform
  | boundary => exact final.2

/-! ## Whole runs -/

/-- Every packet on its way is proper, and the stash is the end of the last one. -/
structure Tagged (r : Session Sample) : Prop where
  conserved : r.Conserved
  labelled : Labelled r.received r.source
  coming : ∀ packet ∈ r.source.httpReceiver.getD [], packet.Proper

/-- A packet put on the channel is proper. -/
def ProperAction : SessionAction Sample → Prop
  | .deliver packet => packet.Proper
  | _ => True

theorem Tagged.read {r : Session Sample} (tagged : Tagged r) (buffer : List Sample)
    (maxSamples inTime : Nat) : Tagged (r.step (.read buffer maxSamples inTime)) where
  conserved := conserved_step tagged.conserved _
  labelled := by
    cases channel : r.source.httpReceiver with
    | none =>
        simp only [step, afterRead, SpectranSource.readSamplesDeadline_unopened channel,
          ReadOutcome.taken, Nat.sub_self, List.take_zero, List.append_nil]
        exact tagged.labelled
    | some queue =>
        have coming := tagged.coming
        rw [channel, Option.getD_some] at coming
        obtain ⟨b, halt, rest, taken, loop, cut, uniform, -⟩ :=
          read_uniform tagged.conserved tagged.labelled coming buffer maxSamples inTime
        have freq := SpectranSource.read_keeps channel loop
          SpectranSource.sampleBufferFreqHz fun _ _ _ _ => rfl
        have rate := SpectranSource.read_keeps channel loop
          SpectranSource.sampleBufferRateHz fun _ _ _ _ => rfl
        have labelled := uniform.labelled
        simp only [Labelled, step, afterRead, SpectranSource.read_taken channel loop cut,
          SpectranSource.read_sampleBuffer channel loop, freq, rate] at labelled ⊢
        exact labelled
  coming := by
    have read := r.source.read_conserves buffer maxSamples inTime
    intro packet member
    exact tagged.coming packet (by
      rw [read.inOrder]
      exact List.mem_append_right _ member)

theorem tagged_step {r : Session Sample} (tagged : Tagged r) (action : SessionAction Sample)
    (proper : ProperAction action) : Tagged (r.step action) := by
  have conserved := conserved_step tagged.conserved action
  cases action with
  | deliver packet =>
      rw [step] at conserved ⊢
      split at conserved
      · next alive =>
        rw [if_pos alive]
        refine ⟨conserved, tagged.labelled, ?_⟩
        intro other member
        cases channel : r.source.httpReceiver with
        | none => simp [channel] at member
        | some queue =>
            have coming := tagged.coming
            rw [channel] at member coming
            rcases List.mem_append.mp member with waiting | last
            · exact coming other waiting
            · rw [List.mem_singleton.mp last]
              exact proper
      · next gone =>
        rw [if_neg gone]
        exact tagged
  | finish | observe | takeOverrun => exact ⟨conserved, tagged.labelled, tagged.coming⟩
  | stop => exact ⟨conserved, tagged.labelled, fun _ member => absurd member List.not_mem_nil⟩
  | read buffer maxSamples inTime => exact tagged.read buffer maxSamples inTime
  | start reached =>
      rw [step] at conserved ⊢
      split at conserved
      · next alive =>
        rw [if_pos alive]
        exact tagged
      · next gone =>
        rw [if_neg gone]
        refine ⟨conserved, ?_, ?_⟩
        · apply labelled_empty
          cases reached <;> simp [SpectranSource.startStreaming, gone,
            SpectranSource.initHttpSource]
        · cases reached with
          | ok =>
              intro packet member
              simp [SpectranSource.startStreaming, gone, SpectranSource.initHttpSource] at member
          | error error =>
              intro packet member
              apply tagged.coming packet
              simpa [SpectranSource.startStreaming, gone, SpectranSource.initHttpSource] using
                member

theorem tagged_run (configSampleRateHz : F64) {actions : List (SessionAction Sample)}
    (proper : ∀ action ∈ actions, ProperAction action) :
    Tagged (run (opened configSampleRateHz) actions) := by
  have start : Tagged (opened configSampleRateHz : Session Sample) :=
    ⟨rfl, labelled_empty rfl, fun _ member => absurd member List.not_mem_nil⟩
  exact run_induction start (fun _ action proper tagged => tagged_step tagged action proper) proper

/-- The sample at a position of a read is the one its packet has there. -/
theorem appended_sample {r : Session Sample} {taken : List (ChannelPacket Sample)}
    {appended leftover : List Sample} {i place : Nat} {packet : ChannelPacket Sample}
    (stream : (r.received ++ taken).flatMap ChannelPacket.samples =
      r.returned ++ (appended ++ leftover)) (inside : i < appended.length)
    (holds : Holds ChannelPacket.size (r.received ++ taken) (r.returned.length + i) place packet) :
    appended[i]? = packet.samples[r.returned.length + i - place]? := by
  obtain ⟨placed, behind, below⟩ := holds
  have within : r.returned.length + i - place < packet.samples.length := by
    rw [ChannelPacket.size] at below
    omega
  have position : place + (r.returned.length + i - place) = r.returned.length + i :=
    Nat.add_sub_cancel' behind
  rw [← Placed.getElem? ChannelPacket.samples placed within, position, stream,
    List.getElem?_append_right (Nat.le_add_right _ _), Nat.add_sub_cancel_left,
    List.getElem?_append_left inside]

theorem Tagged.one_geometry {r : Session Sample} (tagged : Tagged r) {buffer : List Sample}
    {maxSamples inTime i : Nat} {o : ReadOutcome Sample}
    (reads : o = r.source.readSamplesDeadline buffer maxSamples inTime)
    (inside : i < (o.appended buffer).length) :
    ∃ place packet,
      Holds ChannelPacket.size (r.received ++ o.taken r.source) (r.returned.length + i)
          place packet ∧
        (o.appended buffer)[i]? = packet.samples[r.returned.length + i - place]? ∧
        packet.Near o.source.captureFrequencyHz o.source.captureSampleRateHz ∧
        (packet.dropped → place = r.returned.length + i → i = 0) := by
  cases channel : r.source.httpReceiver with
  | none =>
      have none := ((r.source.read_conserves buffer maxSamples inTime).failed _ (by
        rw [SpectranSource.readSamplesDeadline_unopened channel])).1
      rw [reads, none] at inside
      exact absurd inside (Nat.not_lt_zero i)
  | some queue =>
      have coming := tagged.coming
      rw [channel, Option.getD_some] at coming
      obtain ⟨b, halt, rest, taken, loop, cut, uniform, gathered⟩ :=
        read_uniform tagged.conserved tagged.labelled coming buffer maxSamples inTime
      obtain ⟨appended, grown, count, stream⟩ := gathered.stream tagged.conserved
      have added : o.appended buffer = appended := by
        rw [ReadOutcome.appended, reads, SpectranSource.read_buffer channel loop, grown,
          List.drop_left]
      have took : o.taken r.source = taken := by
        rw [reads, SpectranSource.read_taken channel loop cut]
      rw [added] at inside
      have some : 0 < b.collected := by omega
      obtain ⟨freq, rate⟩ := uniform.geometry some
      obtain ⟨reportsFreq, reportsRate⟩ := SpectranSource.read_reports channel loop some freq.2
      have ends := gathered.total tagged.conserved
      have position : r.returned.length + i < total ChannelPacket.size (r.received ++ taken) := by
        omega
      obtain ⟨place, packet, holds⟩ := exists_holds position
      obtain ⟨near, opens⟩ := uniform.unbroken _ place packet (Nat.le_add_right _ i) (by omega)
        holds
      refine ⟨place, packet, took ▸ holds, ?_, ?_, fun flagged first => ?_⟩
      · rw [added]
        exact appended_sample stream inside holds
      · have reportedRate : o.source.captureSampleRateHz = b.rateHz := by
          rw [SpectranSource.captureSampleRateHz, reads, reportsRate]
          exact if_pos rate
        have reportedFreq : o.source.captureFrequencyHz = b.freqHz := by
          rw [SpectranSource.captureFrequencyHz, reads, reportsFreq]
        rw [reportedFreq, reportedRate]
        exact near
      · have ahead := opens flagged
        omega

/-- Each sample a read appends sits in a packet near the centre and rate the
source reports after the read, and one that opens a packet behind a gap is the
first of its read. -/
theorem reads_stay_in_one_geometry (configSampleRateHz : F64)
    (actions : List (SessionAction Sample)) (proper : ∀ action ∈ actions, ProperAction action)
    (buffer : List Sample) (maxSamples inTime : Nat) :
    let r := run (opened configSampleRateHz) actions
    let o := r.source.readSamplesDeadline buffer maxSamples inTime
    ∀ i < (o.appended buffer).length, ∃ place packet,
      Holds ChannelPacket.size (r.received ++ o.taken r.source) (r.returned.length + i)
          place packet ∧
        (o.appended buffer)[i]? = packet.samples[r.returned.length + i - place]? ∧
        packet.Near o.source.captureFrequencyHz o.source.captureSampleRateHz ∧
        (packet.dropped → place = r.returned.length + i → i = 0) :=
  fun _ inside => (tagged_run configSampleRateHz proper).one_geometry rfl inside

/-- A packet of a stream at 100 Hz and 10 samples a second, and one behind a gap. -/
def steadyRun : List (SessionAction Nat) :=
  [.deliver ⟨[1, 2, 3], false, 0, 0, 100, 10⟩, .read [] 2 9,
    .deliver ⟨[4, 5], true, 1, 0, 100, 10⟩]

theorem reads_stay_in_one_geometry_steadyRun :
    let r := run (opened 10) steadyRun
    let o := r.source.readSamplesDeadline [] 9 9
    (o.appended []).length = 1 ∧ ∀ i < (o.appended []).length, ∃ place packet,
      Holds ChannelPacket.size (r.received ++ o.taken r.source) (r.returned.length + i)
          place packet ∧
        (o.appended [])[i]? = packet.samples[r.returned.length + i - place]? ∧
        packet.Near o.source.captureFrequencyHz o.source.captureSampleRateHz ∧
        (packet.dropped → place = r.returned.length + i → i = 0) := by
  have positive : ∀ hz : ℚ, 0 < hz → (F64.finite hz).Positive :=
    fun hz above => ⟨rfl, (F64.finite_lt 0 hz).mpr above⟩
  refine ⟨by decide +kernel, reads_stay_in_one_geometry 10 steadyRun ?_ [] 9 9⟩
  refine List.forall_mem_cons.mpr ⟨⟨by decide, positive 100 ?_, positive 10 ?_⟩,
    List.forall_mem_cons.mpr ⟨trivial, List.forall_mem_cons.mpr
      ⟨⟨by decide, positive 100 ?_, positive 10 ?_⟩, List.forall_mem_nil _⟩⟩⟩ <;> norm_num

end Session

end SdrAaronia
