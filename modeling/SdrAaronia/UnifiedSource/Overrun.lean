import SdrAaronia.UnifiedSource.Session
import Mathlib.Data.List.TakeWhile

/-! # Which read reports a gap

`take_overrun` follows every read.  The flag it clears is to be set when the read
begins right behind a gap, and at no other time.
-/

namespace SdrAaronia

open Segments

section Gaps

variable {Sample : Type}

/-- A flagged packet lies between sample `first` of the stream and the one
before. -/
def GapBefore (received : List (ChannelPacket Sample)) (first : Nat) : Prop :=
  ∃ packet, Placed ChannelPacket.size received first packet ∧ packet.dropped = true

theorem not_gapBefore_nil (first : Nat) : ¬GapBefore ([] : List (ChannelPacket Sample)) first :=
  fun ⟨_, placed, _⟩ => not_placed_nil placed

theorem gapBefore_snoc {received : List (ChannelPacket Sample)} {packet : ChannelPacket Sample}
    {first : Nat} :
    GapBefore (received ++ [packet]) first ↔
      GapBefore received first ∨
        packet.dropped = true ∧ first = total ChannelPacket.size received := by
  simp only [GapBefore, placed_snoc]
  constructor
  · rintro ⟨other, earlier | ⟨rfl, start⟩, flagged⟩
    · exact .inl ⟨other, earlier, flagged⟩
    · exact .inr ⟨flagged, start⟩
  · rintro (⟨other, earlier, flagged⟩ | ⟨flagged, start⟩)
    · exact ⟨other, .inl earlier, flagged⟩
    · exact ⟨packet, .inr ⟨rfl, start⟩, flagged⟩

theorem GapBefore.within {received : List (ChannelPacket Sample)} {first : Nat}
    (gap : GapBefore received first) : first ≤ total ChannelPacket.size received := by
  obtain ⟨packet, placed, -⟩ := gap
  exact (Nat.le_add_right _ _).trans placed.within

end Gaps

/-! ## Rounds -/

/-- A read with samples in hand takes a flagged packet that has none: there is
then nothing to stash behind the gap. -/
def emptyGapReached {Sample : Type} (maxSamples : Nat) :
    Nat → F64 → F64 → List (ChannelPacket Sample) → Bool
  | _, _, _, [] => false
  | collected, freqHz, rateHz, packet :: rest =>
      if collected < maxSamples then
        if 0 < collected ∧ packet.dropped then packet.samples.isEmpty
        else if 0 < collected ∧ retuned freqHz rateHz packet then false
        else
          emptyGapReached maxSamples
            (collected + min (maxSamples - collected) packet.samples.length)
            (seeded freqHz packet.frequencyHz) (seeded rateHz packet.rateHz) rest
      else false

namespace Session

variable {Sample : Type}

/-- One call on the source, with the `take_overrun` that follows a read. -/
def round (r : Session Sample) (action : SessionAction Sample) : Session Sample :=
  match action with
  | .read _ _ _ => (r.step action).step .takeOverrun
  | _ => r.step action

/-- A read that returned samples reports an overrun exactly when a gap lies right
ahead of them. -/
def Attributed (r : Session Sample) (buffer : List Sample) (maxSamples inTime : Nat) : Prop :=
  let o := r.source.readSamplesDeadline buffer maxSamples inTime
  ∀ n, o.result = .ok n → 0 < n →
    (o.source.takeOverrun.1 = true ↔
      GapBefore (r.received ++ o.taken r.source) r.returned.length)

/-- Flagged packets without samples are taken only ahead of a read's first
sample, and no restart comes while a gap waits in the stash. -/
def Heeds (r : Session Sample) : SessionAction Sample → Prop
  | .read _ maxSamples inTime =>
      let arrivals := (r.source.httpReceiver.getD []).take inTime
      let fromBuffer := min r.source.sampleBuffer.length maxSamples
      emptyGapReached maxSamples fromBuffer
          (if 0 < fromBuffer then r.source.sampleBufferFreqHz else 0)
          (if 0 < fromBuffer then r.source.sampleBufferRateHz else 0) arrivals = false ∧
        (fromBuffer = 0 → 0 < maxSamples →
          (∃ packet ∈ arrivals.takeWhile (·.samples.isEmpty), packet.dropped = true) →
          ∃ packet ∈ arrivals, packet.samples ≠ [])
  | .start _ => r.source.readerAlive = false → r.source.sampleBufferAfterGap = false
  | _ => True

/-- The rounds of a source whose every step heeds the condition. -/
inductive Heeding : Session Sample → Prop where
  | opened (configSampleRateHz : F64) : Heeding (opened configSampleRateHz)
  | round {r : Session Sample} (action : SessionAction Sample) :
      Heeding r → r.Heeds action → Heeding (r.round action)

/-! ## What one read does to the flag -/

/-- Between rounds the stash's flag says whether a gap lies ahead of it, and no
other flag is set. -/
structure Latched (r : Session Sample) : Prop where
  conserved : r.Conserved
  quiet : r.source.pendingOverrun = false
  stashed : r.source.sampleBufferAfterGap = true → r.source.sampleBuffer ≠ []
  ahead : r.source.sampleBufferAfterGap = true ↔ GapBefore r.received r.returned.length
  /-- No gap lies inside the stash or behind it. -/
  upTo : r.source.sampleBuffer ≠ [] → ∀ place, GapBefore r.received place →
    place ≤ r.returned.length

/-- The flags of a read that has taken the packets `got`. -/
structure Flagged (r : Session Sample) (got : List (ChannelPacket Sample)) (b : Batch Sample) :
    Prop where
  pending : b.source.pendingOverrun = true ↔ GapBefore (r.received ++ got) r.returned.length
  stashed : b.source.sampleBufferAfterGap = true → b.source.sampleBuffer ≠ []
  ahead : 0 < b.collected → (b.source.sampleBufferAfterGap = true ↔
    GapBefore (r.received ++ got) (r.returned.length + b.collected))
  upTo : 0 < b.collected → ∀ place, GapBefore (r.received ++ got) place →
    place ≤ r.returned.length + b.collected

/-- The receive loop between packets. -/
structure Watching (r : Session Sample) (maxSamples : Nat) (got : List (ChannelPacket Sample))
    (b : Batch Sample) (arrivals : List (ChannelPacket Sample)) : Prop where
  pending : b.source.pendingOverrun = true ↔ GapBefore (r.received ++ got) r.returned.length
  calm : b.source.sampleBufferAfterGap = false
  past : 0 < b.collected → ∀ place, GapBefore (r.received ++ got) place →
    place < r.returned.length + b.collected
  empty : b.collected = 0 → ∀ packet ∈ got, packet.samples = []
  coming : emptyGapReached maxSamples b.collected b.freqHz b.rateHz arrivals = false

theorem Watching.flagged {r : Session Sample} {maxSamples : Nat}
    {got arrivals : List (ChannelPacket Sample)} {b : Batch Sample}
    (watching : Watching r maxSamples got b arrivals) : Flagged r got b where
  pending := watching.pending
  stashed set := absurd set (by rw [watching.calm]; exact Bool.false_ne_true)
  ahead some := by
    rw [watching.calm]
    exact ⟨fun set => absurd set Bool.false_ne_true,
      fun gap => absurd (watching.past some _ gap) (Nat.lt_irrefl _)⟩
  upTo some place gap := (watching.past some place gap).le

theorem begin_watching {r : Session Sample} {maxSamples inTime : Nat} (buffer : List Sample)
    (latched : Latched r) (asked : 0 < maxSamples)
    (heeds : r.Heeds (.read buffer maxSamples inTime)) :
    Watching r maxSamples [] (Batch.begin r.source buffer maxSamples)
      ((r.source.httpReceiver.getD []).take inTime) := by
  by_cases some : 0 < min r.source.sampleBuffer.length maxSamples
  · have leftover : r.source.sampleBuffer ≠ [] :=
      List.length_pos_iff.mp (Nat.lt_of_lt_of_le some (Nat.min_le_left _ _))
    obtain ⟨pending, calm⟩ := Batch.begin_flags_some r.source buffer maxSamples some
    exact {
      pending := by
        rw [pending, latched.quiet, Bool.or_false, List.append_nil]
        exact latched.ahead
      calm
      past := by
        intro _ place gap
        rw [List.append_nil] at gap
        have := latched.upTo leftover place gap
        rw [Batch.begin_collected]
        omega
      empty := fun _ _ member => absurd member List.not_mem_nil
      coming := heeds.1 }
  · have none : r.source.sampleBuffer = [] := by
      rw [← List.length_eq_zero_iff]
      omega
    have calm : r.source.sampleBufferAfterGap = false := by
      by_contra set
      exact latched.stashed (Bool.not_eq_false _ ▸ set) none
    obtain ⟨pending, after⟩ := Batch.begin_flags_none r.source buffer maxSamples some
    exact {
      pending := by
        rw [pending, latched.quiet, List.append_nil, ← latched.ahead, calm]
      calm := after.trans calm
      past := fun more => absurd more some
      empty := fun _ _ member => absurd member List.not_mem_nil
      coming := heeds.1 }

theorem Watching.join {r : Session Sample} {maxSamples : Nat} {buffer : List Sample}
    {got rest : List (ChannelPacket Sample)} {b : Batch Sample} {packet : ChannelPacket Sample}
    (conserved : r.Conserved) (gathered : Batch.Open r.source buffer maxSamples got b)
    (watching : Watching r maxSamples got b (packet :: rest)) (room : b.collected < maxSamples)
    (joins : ¬(0 < b.collected ∧ (packet.dropped ∨ retuned b.freqHz b.rateHz packet))) :
    Watching r maxSamples (got ++ [packet]) ((b.joined packet).absorb maxSamples packet) rest := by
  have ends := gathered.total conserved
  rw [gathered.drained room, List.length_nil, Nat.add_zero] at ends
  have opens : packet.dropped = true → b.collected = 0 := by
    intro flagged
    by_contra some
    exact joins ⟨Nat.pos_of_ne_zero some, .inl flagged⟩
  exact {
    pending := by
      rw [← List.append_assoc, gapBefore_snoc, ends, Batch.absorb_pendingOverrun,
        Batch.joined_pendingOverrun, Bool.or_eq_true, watching.pending, or_comm]
      constructor
      · rintro (gap | flagged)
        · exact .inl gap
        · exact .inr ⟨flagged, by rw [opens flagged, Nat.add_zero]⟩
      · exact Or.imp_right And.left
    calm := by
      rw [Batch.absorb_sampleBufferAfterGap, Batch.joined_sampleBufferAfterGap]
      exact watching.calm
    past := by
      intro some place gap
      rw [Batch.absorb_collected, Batch.joined_collected] at some ⊢
      rw [← List.append_assoc, gapBefore_snoc, ends] at gap
      rcases gap with earlier | ⟨flagged, rfl⟩
      · rcases Nat.eq_zero_or_pos b.collected with zero | before
        · have := earlier.within
          omega
        · have := watching.past before place earlier
          omega
      · have := opens flagged
        omega
    empty := by
      intro none
      rw [Batch.absorb_collected, Batch.joined_collected] at none
      have short : packet.samples = [] := by
        rw [← List.length_eq_zero_iff]
        omega
      exact List.forall_mem_append.mpr ⟨watching.empty (by omega), by simpa using short⟩
    coming := by
      have coming := watching.coming
      rw [emptyGapReached, if_pos room, if_neg fun both => joins ⟨both.1, .inl both.2⟩,
        if_neg fun both => joins ⟨both.1, .inr both.2⟩] at coming
      rw [Batch.absorb_collected, Batch.absorb_freqHz, Batch.absorb_rateHz]
      exact coming }

theorem Watching.hold {r : Session Sample} {maxSamples : Nat} {buffer : List Sample}
    {got rest : List (ChannelPacket Sample)} {b : Batch Sample} {packet : ChannelPacket Sample}
    (conserved : r.Conserved) (gathered : Batch.Open r.source buffer maxSamples got b)
    (watching : Watching r maxSamples got b (packet :: rest)) (room : b.collected < maxSamples)
    (some : 0 < b.collected) : Flagged r (got ++ [packet]) (b.held packet) := by
  have ends := gathered.total conserved
  rw [gathered.drained room, List.length_nil, Nat.add_zero] at ends
  have place := watching.past some
  exact {
    pending := by
      rw [← List.append_assoc, gapBefore_snoc, ends, Batch.held_pendingOverrun, watching.pending]
      constructor
      · exact Or.inl
      · rintro (gap | ⟨-, start⟩)
        · exact gap
        · omega
    stashed := by
      intro set
      rw [Batch.held_sampleBufferAfterGap, watching.calm, Bool.or_false] at set
      have coming := watching.coming
      rw [emptyGapReached, if_pos room, if_pos ⟨some, set⟩] at coming
      rw [Batch.held_sampleBuffer, gathered.drained room, List.nil_append]
      exact fun none => absurd coming (by rw [none]; exact Bool.noConfusion)
    ahead := by
      intro _
      rw [← List.append_assoc, gapBefore_snoc, ends, Batch.held_sampleBufferAfterGap,
        watching.calm, Bool.or_false, Batch.held_collected]
      constructor
      · exact fun flagged => .inr ⟨flagged, rfl⟩
      · rintro (gap | ⟨flagged, -⟩)
        · exact absurd (place _ gap) (Nat.lt_irrefl _)
        · exact flagged
    upTo := by
      intro _ other gap
      rw [← List.append_assoc, gapBefore_snoc, ends] at gap
      rcases gap with earlier | ⟨-, rfl⟩
      · exact (place other earlier).le
      · exact Nat.le_refl _ }

/-- The flags a read ends with. -/
theorem read_flagged {r : Session Sample} {queue : List (ChannelPacket Sample)}
    {buffer : List Sample} {maxSamples inTime : Nat} (latched : Latched r)
    (channel : r.source.httpReceiver = some queue) (asked : 0 < maxSamples)
    (heeds : r.Heeds (.read buffer maxSamples inTime)) :
    ∃ b halt rest taken,
      (Batch.begin r.source buffer maxSamples).receiveLoop maxSamples (queue.take inTime) =
          (b, halt, rest) ∧
        queue.take inTime = taken ++ rest ∧ Batch.Gathered r.source buffer maxSamples taken b ∧
        Flagged r taken b ∧
        (b.collected = 0 → b.source.sampleBufferAfterGap = false ∧ b.source.sampleBuffer = [] ∧
          ¬GapBefore (r.received ++ taken) r.returned.length) := by
  have start := begin_watching buffer latched asked heeds
  rw [channel, Option.getD_some] at start
  obtain ⟨b, halt, rest, taken, loop, cut, gathered, final⟩ :=
    Batch.gather_rule r.source buffer maxSamples (Watching r maxSamples) (Flagged r)
      (fun _ _ _ _ gathered watching room joins =>
        watching.join latched.conserved gathered room joins)
      (fun _ _ _ _ gathered watching room some _ =>
        watching.hold latched.conserved gathered room some)
      _ start
  refine ⟨b, halt, rest, taken, loop, cut, gathered, ?_⟩
  cases halt with
  | full => exact ⟨final.2.flagged, fun none => by omega⟩
  | boundary => exact ⟨final.2, fun none => absurd none final.1.ne'⟩
  | waiting =>
      obtain ⟨drained, room, rfl, watching⟩ := final
      refine ⟨watching.flagged, fun none => ⟨watching.calm, drained, fun gap => ?_⟩⟩
      -- Nothing was in the stash, and the packets taken are all without samples.
      have empty := watching.empty none
      obtain ⟨appended, -, count, kept⟩ := gathered.conserved
      have unstashed : r.source.sampleBuffer = [] := by
        rw [List.length_eq_zero_iff.mp (count.trans none), drained] at kept
        exact (List.append_eq_nil_iff.mp kept.symm).1
      obtain ⟨packet, placed, flagged⟩ := gap
      rcases placed_append placed with earlier | member
      · exact latched.stashed (latched.ahead.mpr ⟨packet, earlier, flagged⟩) unstashed
      · have arrivals : (r.source.httpReceiver.getD []).take inTime = taken := by
          rw [channel, Option.getD_some, cut, List.append_nil]
        have allEmpty : taken.takeWhile (·.samples.isEmpty) = taken :=
          List.takeWhile_eq_self_iff.mpr fun packet member =>
            List.isEmpty_iff.mpr (empty packet member)
        obtain ⟨other, taken, sampled⟩ := heeds.2 (by rw [unstashed]; exact Nat.zero_min _) asked
          ⟨packet, by rwa [arrivals, allEmpty], flagged⟩
        exact sampled (empty other (by rwa [arrivals] at taken))

/-- A read of nothing changes no flag and takes no packet. -/
theorem read_zero {r : Session Sample} {queue : List (ChannelPacket Sample)} (buffer : List Sample)
    (inTime : Nat) (channel : r.source.httpReceiver = some queue) :
    (r.source.readSamplesDeadline buffer 0 inTime).taken r.source = [] ∧
      (r.source.readSamplesDeadline buffer 0 inTime).source.pendingOverrun =
        r.source.pendingOverrun ∧
      (r.source.readSamplesDeadline buffer 0 inTime).source.sampleBufferAfterGap =
        r.source.sampleBufferAfterGap := by
  have loop := Batch.receiveLoop_zero (Batch.begin r.source buffer 0) (queue.take inTime)
  obtain ⟨pending, after⟩ := Batch.begin_flags_none r.source buffer 0 (by omega)
  refine ⟨SpectranSource.read_taken channel loop (List.nil_append _).symm, ?_, ?_⟩
  · rw [← pending]
    exact SpectranSource.read_keeps channel loop SpectranSource.pendingOverrun fun _ _ _ _ => rfl
  · rw [← after]
    exact SpectranSource.read_keeps channel loop SpectranSource.sampleBufferAfterGap
      fun _ _ _ _ => rfl

theorem Latched.round_read {r : Session Sample} {buffer : List Sample} {maxSamples inTime : Nat}
    (latched : Latched r) (heeds : r.Heeds (.read buffer maxSamples inTime)) :
    Latched (r.round (.read buffer maxSamples inTime)) := by
  have conserved : (r.round (.read buffer maxSamples inTime)).Conserved :=
    conserved_step (conserved_step latched.conserved _) _
  have read := r.source.read_conserves buffer maxSamples inTime
  cases channel : r.source.httpReceiver with
  | none =>
      have same : r.round (.read buffer maxSamples inTime) =
          { r with source := r.source.takeOverrun.2 } := by
        simp only [round, step, afterRead, ReadOutcome.taken, ReadOutcome.appended,
          SpectranSource.readSamplesDeadline_unopened channel, Nat.sub_self, List.take_zero,
          List.append_nil, List.drop_length]
      rw [same]
      exact ⟨latched.conserved, rfl, latched.stashed, latched.ahead, latched.upTo⟩
  | some queue =>
      rcases Nat.eq_zero_or_pos maxSamples with rfl | asked
      · obtain ⟨took, _, after⟩ := read_zero buffer inTime channel
        have none : (r.source.readSamplesDeadline buffer 0 inTime).appended buffer = [] :=
          List.length_eq_zero_iff.mp (Nat.le_zero.mp read.atMost)
        have stash := read.kept
        rw [none, took, List.nil_append, List.flatMap_nil, List.append_nil] at stash
        exact {
          conserved
          quiet := rfl
          stashed := by
            simp only [round, step, afterRead, SpectranSource.takeOverrun, after, stash]
            exact latched.stashed
          ahead := by
            simp only [round, step, afterRead, SpectranSource.takeOverrun, after, took, none,
              List.append_nil]
            exact latched.ahead
          upTo := by
            simp only [round, step, afterRead, SpectranSource.takeOverrun, stash, took, none,
              List.append_nil]
            exact latched.upTo }
      · obtain ⟨b, halt, rest, taken, loop, cut, gathered, flagged, idle⟩ :=
          read_flagged latched channel asked heeds
        have after := SpectranSource.read_keeps channel loop
          SpectranSource.sampleBufferAfterGap fun _ _ _ _ => rfl
        have stash := SpectranSource.read_sampleBuffer channel loop
        have took := SpectranSource.read_taken channel loop cut
        have count : (r.returned ++ (r.source.readSamplesDeadline buffer maxSamples
            inTime).appended buffer).length = r.returned.length + b.collected := by
          obtain ⟨appended, grown, count, -⟩ := gathered.conserved
          rw [ReadOutcome.appended, SpectranSource.read_buffer channel loop, grown, List.drop_left,
            List.length_append, count]
        exact {
          conserved
          quiet := rfl
          stashed := by
            intro set
            simp only [round, step, afterRead, SpectranSource.takeOverrun, after, stash] at set ⊢
            exact flagged.stashed set
          ahead := by
            simp only [round, step, afterRead, SpectranSource.takeOverrun, after, took, count]
            rcases Nat.eq_zero_or_pos b.collected with none | some
            · obtain ⟨calm, -, clear⟩ := idle none
              rw [calm, none, Nat.add_zero]
              exact ⟨fun set => absurd set Bool.false_ne_true, fun gap => absurd gap clear⟩
            · exact flagged.ahead some
          upTo := by
            simp only [round, step, afterRead, SpectranSource.takeOverrun, stash, took, count]
            intro leftover place gap
            rcases Nat.eq_zero_or_pos b.collected with none | some
            · exact absurd (idle none).2.1 leftover
            · exact flagged.upTo some place gap }

/-! ## Whole runs -/

theorem latched_round {r : Session Sample} {action : SessionAction Sample} (latched : Latched r)
    (heeds : r.Heeds action) : Latched (r.round action) := by
  cases action with
  | read buffer maxSamples inTime => exact latched.round_read heeds
  | deliver packet =>
      have conserved : (r.step (.deliver packet)).Conserved := conserved_step latched.conserved _
      change Latched (r.step (.deliver packet))
      rw [step] at conserved ⊢
      split at conserved
      · next alive =>
        rw [if_pos alive]
        exact ⟨conserved, latched.quiet, latched.stashed, latched.ahead, latched.upTo⟩
      · next gone =>
        rw [if_neg gone]
        exact latched
  | finish | observe | takeOverrun | stop =>
      exact ⟨latched.conserved, by first | exact latched.quiet | rfl, latched.stashed,
        latched.ahead, latched.upTo⟩
  | start reached =>
      change Latched (r.step (.start reached))
      rw [step]
      cases alive : r.source.readerAlive with
      | true =>
          rw [if_pos rfl]
          exact latched
      | false =>
          have calm := heeds alive
          rw [if_neg Bool.false_ne_true]
          cases reached <;>
            exact ⟨by simp [Conserved, SpectranSource.startStreaming, alive,
                SpectranSource.initHttpSource],
              by simp [SpectranSource.startStreaming, alive, SpectranSource.initHttpSource],
              by simp [SpectranSource.startStreaming, alive, SpectranSource.initHttpSource, calm],
              by simp [SpectranSource.startStreaming, alive, SpectranSource.initHttpSource, calm,
                not_gapBefore_nil],
              by simp [SpectranSource.startStreaming, alive, SpectranSource.initHttpSource]⟩

theorem Heeding.latched {r : Session Sample} (heeding : Heeding r) : Latched r := by
  induction heeding with
  | opened => exact ⟨rfl, rfl, nofun, ⟨nofun, fun gap => absurd gap (not_gapBefore_nil _)⟩,
      fun _ _ gap => absurd gap (not_gapBefore_nil _)⟩
  | round _ _ heeds latched => exact latched_round latched heeds

/-- In every run whose steps heed the condition, each read reports the gap it
begins behind and no other. -/
theorem overruns_report_gaps {r : Session Sample} (heeding : Heeding r) (buffer : List Sample)
    (maxSamples inTime : Nat) (heeds : r.Heeds (.read buffer maxSamples inTime)) :
    r.Attributed buffer maxSamples inTime := by
  intro n success some
  have latched := heeding.latched
  have read := r.source.read_conserves buffer maxSamples inTime
  have asked : 0 < maxSamples := by
    have counted := read.counted n success
    have atMost := read.atMost
    omega
  cases channel : r.source.httpReceiver with
  | none =>
      rw [SpectranSource.readSamplesDeadline_unopened channel] at success
      exact absurd success nofun
  | some queue =>
      obtain ⟨b, halt, rest, taken, loop, cut, -, flagged, -⟩ :=
        read_flagged latched channel asked heeds
      have pending := SpectranSource.read_keeps channel loop
        SpectranSource.pendingOverrun fun _ _ _ _ => rfl
      rw [SpectranSource.takeOverrun, pending, SpectranSource.read_taken channel loop cut]
      exact flagged.pending

/-- A gap between two reads of one stream. -/
def brokenRun : List (SessionAction Nat) :=
  [.deliver ⟨[1], false, 0, 0, 100, 10⟩, .deliver ⟨[2], true, 1, 0, 100, 10⟩, .read [] 5 9]

theorem overruns_report_gaps_brokenRun :
    let r := brokenRun.foldl round (opened 10)
    (r.source.readSamplesDeadline [] 5 9).result.toOption = some 1 ∧ r.Attributed [] 5 9 := by
  have first : ((opened 10).round (.deliver ⟨[1], false, 0, 0, 100, 10⟩)).Heeding :=
    .round _ (.opened 10) trivial
  have second := Heeding.round (.deliver ⟨[2], true, 1, 0, 100, 10⟩) first trivial
  have third := Heeding.round (.read [] 5 9) second
    ⟨by decide +kernel, fun _ _ flagged => absurd flagged (by decide +kernel)⟩
  exact ⟨by decide +kernel, overruns_report_gaps third [] 5 9
    ⟨by decide +kernel, fun some => absurd some (by decide +kernel)⟩⟩

/-- A gap waits in the stash when the source is stopped and started again. -/
def restartedRun : List (SessionAction Nat) :=
  [.deliver ⟨[1], false, 0, 0, 100, 10⟩, .deliver ⟨[2], true, 1, 0, 100, 10⟩, .read [] 5 9,
    .stop, .start (.ok ()), .deliver ⟨[3, 4], false, 0, 0, 100, 10⟩, .read [] 1 9]

/-- The restart leaves the stash's flag set: the second read of the new stream
reports a gap, and nothing was dropped on it. -/
theorem restartedRun_misattributed :
    ¬(restartedRun.foldl round (opened 10)).Attributed [] 1 9 := by
  intro attributed
  obtain ⟨packet, placed, flagged⟩ := (attributed 1 (by decide +kernel) Nat.one_pos).mp
    (by decide +kernel)
  have whole : ∀ packet ∈ (restartedRun.foldl round (opened 10)).received ++
      ((restartedRun.foldl round (opened 10)).source.readSamplesDeadline [] 1 9).taken
        (restartedRun.foldl round (opened 10)).source, packet.dropped = false := by
    decide +kernel
  rw [whole packet placed.mem] at flagged
  exact absurd flagged Bool.false_ne_true

end Session

end SdrAaronia
