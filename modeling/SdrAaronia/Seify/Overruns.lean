import SdrAaronia.Seify.Streamer

/-! # Overruns reach the seify user one read late

The source reports a gap with the read that begins behind it, and the streamer returns the error
only after that read.  So an error lies at its gap exactly when the read before the gap began behind
one too, and what is latched when an activation ends comes up in the next.
-/

namespace SdrAaronia

open Segments

variable {Sample : Type}

/-- Every packet carries a sample. -/
def AllSampled (packets : List (ChannelPacket Sample)) : Prop :=
  ∀ packet ∈ packets, packet.samples ≠ []

/-- Packets laid behind the sample at a position put no gap ahead of it. -/
theorem gapBefore_stable {received more : List (ChannelPacket Sample)} {first : Nat}
    (inside : first < total ChannelPacket.size received) :
    GapBefore (received ++ more) first ↔ GapBefore received first := by
  induction more using List.reverseRecOn with
  | nil => rw [List.append_nil]
  | append_singleton more last ih =>
      rw [← List.append_assoc, gapBefore_snoc, ih, total_append]
      refine or_iff_left fun flagged => ?_
      omega

theorem gapBefore_opening {received more : List (ChannelPacket Sample)}
    {packet : ChannelPacket Sample} (sampled : AllSampled received)
    (some : packet.samples ≠ []) :
    GapBefore (received ++ packet :: more) (total ChannelPacket.size received) ↔
      packet.dropped = true := by
  have size : 0 < packet.size := List.length_pos_iff.mpr some
  have cut : received ++ packet :: more = (received ++ [packet]) ++ more := by
    rw [List.append_assoc, List.singleton_append]
  rw [cut, gapBefore_stable (by rw [total_append, total_cons]; omega), gapBefore_snoc,
    and_iff_left rfl]
  refine or_iff_right ?_
  rintro ⟨other, placed, -⟩
  have within := placed.within
  have positive : 0 < other.size := List.length_pos_iff.mpr (sampled other placed.mem)
  omega

theorem emptyGapReached_sampled {maxSamples : Nat} {arrivals : List (ChannelPacket Sample)}
    (sampled : AllSampled arrivals) (collected : Nat) (freqHz rateHz : F64) :
    emptyGapReached maxSamples collected freqHz rateHz arrivals = false := by
  induction arrivals generalizing collected freqHz rateHz with
  | nil => rfl
  | cons packet rest ih =>
      obtain ⟨some, later⟩ := List.forall_mem_cons.mp sampled
      rw [emptyGapReached]
      split
      · split
        · cases samples : packet.samples with
          | nil => exact absurd samples some
          | cons => rfl
        · split
          · rfl
          · exact ih later _ _ _
      · rfl

namespace Session

/-- A read of packets with samples heeds what the source's own reports ask for. -/
theorem heeds_sampled {r : Session Sample}
    (sampled : AllSampled (r.source.httpReceiver.getD [])) (buffer : List Sample)
    (maxSamples inTime : Nat) : r.Heeds (.read buffer maxSamples inTime) := by
  have arrivals : AllSampled ((r.source.httpReceiver.getD []).take inTime) :=
    fun packet member => sampled packet (List.mem_of_mem_take member)
  refine ⟨emptyGapReached_sampled arrivals _ _ _, ?_⟩
  rintro - - ⟨packet, member, -⟩
  refine ⟨packet, ?_, ?_⟩
  · exact (List.takeWhile_prefix _).subset member
  · exact arrivals packet ((List.takeWhile_prefix _).subset member)

end Session

/-- Whether a gap lies ahead of the next sample, where one is at hand: the first left over, or the
first of the packets that come in time. -/
def SpectranSource.nextUp (s : SpectranSource Sample) (inTime : Nat) : Option Bool :=
  s.httpReceiver.bind fun queue =>
    if s.sampleBuffer.isEmpty then (queue.take inTime).head?.map ChannelPacket.dropped
    else some s.sampleBufferAfterGap

namespace Session

/-- The gap ahead of the sample at hand is the one ahead of all that the read returns. -/
theorem gapBefore_nextUp {r : Session Sample} (latched : Latched r)
    (received : AllSampled r.received) {queue taken rest : List (ChannelPacket Sample)}
    {inTime : Nat} (channel : r.source.httpReceiver = some queue)
    (waiting : AllSampled queue) (cut : queue.take inTime = taken ++ rest)
    (took : r.source.sampleBuffer = [] → taken ≠ []) {gap : Bool}
    (next : gap ∈ r.source.nextUp inTime) :
    GapBefore (r.received ++ taken) r.returned.length ↔ gap = true := by
  have stream := congrArg List.length latched.conserved
  rw [List.length_append, ← ChannelPacket.size_total] at stream
  rw [SpectranSource.nextUp, channel, Option.bind_some, Option.mem_def] at next
  by_cases empty : r.source.sampleBuffer = []
  · have drained : r.returned.length = total ChannelPacket.size r.received := by
      rw [← stream, empty]
      rfl
    cases taken with
    | nil => exact absurd rfl (took empty)
    | cons packet taken =>
        rw [empty, List.isEmpty_nil, if_pos rfl, cut, List.cons_append, List.head?_cons,
          Option.map_some, Option.some.injEq] at next
        have inside : packet ∈ queue := by
          apply List.mem_of_mem_take (i := inTime)
          rw [cut]
          exact List.mem_append_left _ List.mem_cons_self
        rw [drained, gapBefore_opening received (waiting packet inside), next]
  · have leftover : r.source.sampleBuffer.isEmpty = false := List.isEmpty_eq_false_iff.mpr empty
    have some := List.length_pos_iff.mpr empty
    rw [leftover, if_neg Bool.false_ne_true, Option.some.injEq] at next
    rw [gapBefore_stable (by omega), ← latched.ahead, next]

theorem collected_zero {s : SpectranSource Sample} {queue : List (ChannelPacket Sample)}
    {maxSamples inTime : Nat} (channel : s.httpReceiver = some queue) (waiting : AllSampled queue)
    (asked : 0 < maxSamples) {b : Batch Sample} {halt : Halt} {rest : List (ChannelPacket Sample)}
    (loop : (Batch.begin s [] maxSamples).receiveLoop maxSamples (queue.take inTime) =
      (b, halt, rest)) :
    b.collected = 0 ↔ s.nextUp inTime = none := by
  rw [SpectranSource.nextUp, channel, Option.bind_some]
  constructor
  · intro none
    obtain ⟨b', halt', rest', taken, same, cut, gathered, final⟩ :=
      Batch.gather_rule s [] maxSamples (fun _ _ _ => True) (fun _ _ => True)
        (fun _ _ _ _ _ _ _ _ => trivial) (fun _ _ _ _ _ _ _ _ _ => trivial)
        (queue.take inTime) trivial
    rw [loop] at same
    obtain ⟨rfl, rfl, rfl⟩ : b = b' ∧ halt = halt' ∧ rest = rest' := by
      simpa only [Prod.mk.injEq] using same
    cases halt with
    | full => exact absurd none (by have := final.1; omega)
    | boundary => exact absurd none final.1.ne'
    | waiting =>
        obtain ⟨drained, -, rfl, -⟩ := final
        obtain ⟨appended, -, count, kept⟩ := gathered.conserved
        rw [List.length_eq_zero_iff.mp (count.trans none), drained, List.append_nil] at kept
        obtain ⟨unstashed, untaken⟩ := List.append_eq_nil_iff.mp kept.symm
        rw [List.append_nil] at cut
        have nothing : queue.take inTime = [] := by
          rw [cut]
          by_contra some
          obtain ⟨packet, member⟩ := List.exists_mem_of_ne_nil taken some
          refine waiting packet ?_ (List.flatMap_eq_nil_iff.mp untaken packet member)
          exact List.mem_of_mem_take (i := inTime) (cut ▸ member)
        rw [unstashed, nothing]
        rfl
  · intro nothing
    by_cases empty : s.sampleBuffer.isEmpty
    · rw [if_pos empty, Option.map_eq_none_iff, List.head?_eq_none_iff] at nothing
      rw [nothing, Batch.receiveLoop] at loop
      obtain rfl : Batch.begin s [] maxSamples = b := congrArg Prod.fst loop
      rw [Batch.begin_collected, List.isEmpty_iff.mp empty]
      exact Nat.zero_min _
    · rw [if_neg empty] at nothing
      cases nothing

/-- What a read of packets with samples returns and reports. -/
structure Reports (r : Session Sample) (maxSamples inTime : Nat) : Prop where
  /-- Samples at hand are returned, with a report of the gap ahead of them. -/
  some : ∀ gap ∈ r.source.nextUp inTime, 0 < maxSamples →
    (∃ n, (r.source.readSamplesDeadline [] maxSamples inTime).result = .ok n ∧ 0 < n) ∧
    (r.source.readSamplesDeadline [] maxSamples inTime).source.pendingOverrun = gap ∧
    (GapBefore (r.received ++ (r.source.readSamplesDeadline [] maxSamples inTime).taken r.source)
      r.returned.length ↔ gap = true)
  /-- Otherwise nothing is returned or reported. -/
  none : r.source.nextUp inTime = none ∨ maxSamples = 0 →
    (∀ n, (r.source.readSamplesDeadline [] maxSamples inTime).result = .ok n → n = 0) ∧
      (r.source.readSamplesDeadline [] maxSamples inTime).source.pendingOverrun = false

theorem reports {r : Session Sample} (latched : Latched r) (received : AllSampled r.received)
    (waiting : AllSampled (r.source.httpReceiver.getD [])) (maxSamples inTime : Nat) :
    r.Reports maxSamples inTime := by
  have heeds := heeds_sampled waiting [] maxSamples inTime
  have read := r.source.read_conserves [] maxSamples inTime
  cases channel : r.source.httpReceiver with
  | none =>
      have shut : r.source.readSamplesDeadline [] maxSamples inTime =
          ⟨.error (.config "HTTP receiver not initialized"), [], r.source⟩ :=
        SpectranSource.readSamplesDeadline_unopened channel
      refine ⟨fun gap next => ?_, fun _ => ?_⟩
      · rw [SpectranSource.nextUp, channel] at next
        cases next
      · rw [shut]
        exact ⟨fun n returned => (by cases returned), latched.quiet⟩
  | some queue =>
      rw [channel, Option.getD_some] at waiting
      rcases Nat.eq_zero_or_pos maxSamples with rfl | asked
      · obtain ⟨-, pending, -⟩ := read_zero [] inTime channel
        refine ⟨fun _ _ none => absurd none (Nat.lt_irrefl 0), fun _ => ⟨?_, ?_⟩⟩
        · intro n returned
          have counted := read.counted n returned
          have atMost := read.atMost
          omega
        · rw [pending]
          exact latched.quiet
      · obtain ⟨b, halt, rest, taken, loop, cut, gathered, flagged, idle⟩ :=
          read_flagged latched channel asked heeds
        have zero := collected_zero channel waiting asked loop
        have pending := SpectranSource.read_keeps channel loop
          SpectranSource.pendingOverrun fun _ _ _ _ => rfl
        have took := SpectranSource.read_taken channel loop cut
        refine ⟨fun gap next _ => ?_, fun nothing => ?_⟩
        · have collected : b.collected ≠ 0 := by
            rw [ne_eq, zero, next]
            exact Option.some_ne_none gap
          have placed := gapBefore_nextUp latched received channel waiting cut
            (fun empty none => (by
            obtain ⟨appended, -, count, kept⟩ := gathered.conserved
            rw [none, empty, List.flatMap_nil, List.append_nil] at kept
            rw [(List.append_eq_nil_iff.mp kept).1] at count
            exact collected count.symm)) next
          rw [took, pending]
          refine ⟨?_, Bool.eq_iff_iff.mpr (flagged.pending.trans placed), placed⟩
          rcases SpectranSource.readSamplesDeadline_cases channel loop with
            ⟨_, none, _⟩ | ⟨_, ends⟩
          · exact absurd none collected
          · obtain ⟨appended, grown, count, -⟩ := gathered.conserved
            refine ⟨_, by rw [ends], ?_⟩
            rw [grown, List.nil_append, List.length_nil, count]
            exact Nat.pos_of_ne_zero collected
        · have collected : b.collected = 0 := by
            rcases nothing with none | unasked
            · exact zero.mpr none
            · exact absurd unasked asked.ne'
          refine ⟨fun n returned => ?_, ?_⟩
          · rcases SpectranSource.readSamplesDeadline_cases channel loop with
              ⟨_, _, _, ends⟩ | ⟨some, _⟩
            · rw [ends] at returned
              cases returned
            · exact absurd (some collected) asked.ne'
          · rw [pending]
            by_contra set
            exact (idle collected).2.2 (flagged.pending.mp (Bool.eq_true_of_not_eq_false set))

/-- A read fails only with nothing at hand, or nothing asked for. -/
theorem nothing_of_error {r : Session Sample} {maxSamples inTime : Nat}
    (reports : r.Reports maxSamples inTime) {error : Error}
    (failed : (r.source.readSamplesDeadline [] maxSamples inTime).result = .error error) :
    r.source.nextUp inTime = none ∨ maxSamples = 0 := by
  cases next : r.source.nextUp inTime with
  | none => exact .inl rfl
  | some gap =>
      refine .inr (Nat.eq_zero_of_not_pos fun room => ?_)
      obtain ⟨⟨n, succeeded, -⟩, -⟩ := reports.some gap next room
      cases failed.symm.trans succeeded

/-- A gap is reported only with samples. -/
theorem positive_of_pending {r : Session Sample} {maxSamples inTime : Nat}
    (reports : r.Reports maxSamples inTime) {n : Nat}
    (succeeded : (r.source.readSamplesDeadline [] maxSamples inTime).result = .ok n)
    (pending : (r.source.readSamplesDeadline [] maxSamples inTime).source.pendingOverrun = true) :
    0 < n := by
  by_cases nothing : r.source.nextUp inTime = none ∨ maxSamples = 0
  · rw [(reports.none nothing).2] at pending
    cases pending
  · obtain ⟨next, asked⟩ := not_or.mp nothing
    obtain ⟨gap, next⟩ := Option.ne_none_iff_exists'.mp next
    obtain ⟨⟨m, returned, positive⟩, -⟩ := reports.some gap next (Nat.pos_of_ne_zero asked)
    cases succeeded.symm.trans returned
    exact positive

end Session

namespace Seify.StreamerRun

/-! ## One read of the streamer -/

/-- A read that comes through to the source is the source's read and its report; what it returned
is marked, and the report is deferred. -/
structure Passed (s s' : StreamerRun Sample) (maxSamples inTime : Nat) : Prop where
  session : s'.session = s.session.round (.read [] maxSamples inTime)
  marked : ∀ gap ∈ s.streamer.source.nextUp inTime, 0 < maxSamples →
    s'.streamer.deferredOverrun = gap ∧ s'.reads = s.reads ++ [⟨s.returned.length, s.overruns⟩] ∧
      s'.overruns = 0
  unmarked : s.streamer.source.nextUp inTime = none ∨ maxSamples = 0 →
    s'.streamer.deferredOverrun = false ∧ s'.reads = s.reads ∧ s'.overruns = s.overruns

theorem read_failed {s : SpectranSeifyRxStreamer Sample} {buf : List Sample}
    {others : List (List Sample)} {timeoutUs : Int} {inTime : Nat → Nat} {o : ReadOutcome Sample}
    (undeferred : s.deferredOverrun = false)
    (reads : o = s.source.readSamplesDeadline [] buf.length (inTime (readTimeout timeoutUs)))
    {error : Error} (failed : o.result = .error error) :
    ∃ kind, kind ≠ .overrun ∧ s.read (buf :: others) timeoutUs inTime =
      ⟨{ s with source := o.source }, buf :: others, .error kind⟩ := by
  subst reads
  simp only [SpectranSeifyRxStreamer.read, undeferred, Bool.false_eq_true, if_false, failed]
  cases error with
  | timedOut message => exact ⟨.timeout, fun same => (by cases same), rfl⟩
  | protocol | streamClosed | fileFormat | unexpectedEof | invalidSeek | config | sdkApi | sdk =>
      exact ⟨.io _, fun same => (by cases same), rfl⟩

theorem read_succeeded {s : SpectranSeifyRxStreamer Sample} {buf : List Sample}
    {others : List (List Sample)} {timeoutUs : Int} {inTime : Nat → Nat} {o : ReadOutcome Sample}
    (undeferred : s.deferredOverrun = false)
    (reads : o = s.source.readSamplesDeadline [] buf.length (inTime (readTimeout timeoutUs)))
    {n : Nat} (succeeded : o.result = .ok n)
    (told : o.source.pendingOverrun = true → 0 < n) :
    s.read (buf :: others) timeoutUs inTime =
      ⟨⟨o.source.takeOverrun.2, o.source.pendingOverrun⟩,
        (o.buffer.take n ++ buf.drop n) :: others, .ok n⟩ := by
  subst reads
  simp only [SpectranSeifyRxStreamer.read, undeferred, Bool.false_eq_true, if_false, succeeded]
  cases pending : (s.source.readSamplesDeadline [] buf.length
      (inTime (readTimeout timeoutUs))).source.pendingOverrun with
  | true => simp only [SpectranSource.takeOverrun, pending, if_true, if_pos (told pending)]
  | false => simp only [SpectranSource.takeOverrun, pending, Bool.false_eq_true, if_false]

section Read

variable {s : StreamerRun Sample} {buf : List Sample} {others : List (List Sample)}
  {timeoutUs : Int} {inTime : Nat → Nat} {o : ReadOutcome Sample}

theorem round_read
    (reads : o = s.streamer.source.readSamplesDeadline [] buf.length
      (inTime (readTimeout timeoutUs))) :
    s.session.round (.read [] buf.length (inTime (readTimeout timeoutUs))) =
      ⟨o.source.takeOverrun.2, s.received ++ o.taken s.streamer.source,
        s.returned ++ o.buffer⟩ := by
  rw [reads]
  rfl

theorem passed_failed (undeferred : s.streamer.deferredOverrun = false)
    (reports : s.session.Reports buf.length (inTime (readTimeout timeoutUs)))
    (reads : o = s.streamer.source.readSamplesDeadline [] buf.length
      (inTime (readTimeout timeoutUs))) {error : Error} (failed : o.result = .error error) :
    s.Passed (s.step (.read (buf :: others) timeoutUs inTime)) buf.length
      (inTime (readTimeout timeoutUs)) := by
  have conserves := s.streamer.source.read_conserves [] buf.length (inTime (readTimeout timeoutUs))
  rw [← reads] at conserves
  have nothing : s.streamer.source.nextUp (inTime (readTimeout timeoutUs)) = none ∨
      buf.length = 0 := Session.nothing_of_error reports (reads ▸ failed)
  have quiet : o.source.pendingOverrun = false := reads ▸ (reports.none nothing).2
  have empty : o.buffer = [] := (conserves.failed error failed).1
  obtain ⟨kind, other, same⟩ : ∃ kind, kind ≠ SeifyError.overrun ∧
      s.streamer.read (buf :: others) timeoutUs inTime =
        ⟨{ s.streamer with source := o.source }, buf :: others, .error kind⟩ :=
    read_failed undeferred reads failed
  have stepped : s.step (.read (buf :: others) timeoutUs inTime) =
      ⟨{ s.streamer with source := o.source },
        s.received ++ takenOff s.streamer.source o.source, s.returned ++ [], s.reads,
        s.overruns⟩ := by
    simp only [step, afterRead, same, StreamerRead.samples]
  rw [stepped]
  refine ⟨?_, fun gap next room => ?_, fun _ => ⟨undeferred, rfl, rfl⟩⟩
  · have settled : o.source.takeOverrun.2 = o.source := by
      rw [SpectranSource.takeOverrun, ← quiet]
    rw [round_read reads, settled, empty]
    rfl
  · rcases nothing with none | unasked
    · rw [none] at next
      cases next
    · exact absurd unasked room.ne'

theorem passed_succeeded (undeferred : s.streamer.deferredOverrun = false)
    (reports : s.session.Reports buf.length (inTime (readTimeout timeoutUs)))
    (reads : o = s.streamer.source.readSamplesDeadline [] buf.length
      (inTime (readTimeout timeoutUs))) {n : Nat} (succeeded : o.result = .ok n) :
    s.Passed (s.step (.read (buf :: others) timeoutUs inTime)) buf.length
      (inTime (readTimeout timeoutUs)) := by
  have conserves := s.streamer.source.read_conserves [] buf.length (inTime (readTimeout timeoutUs))
  rw [← reads] at conserves
  have told : o.source.pendingOverrun = true → 0 < n := fun pending =>
    Session.positive_of_pending reports (reads ▸ succeeded) (reads ▸ pending)
  have same : s.streamer.read (buf :: others) timeoutUs inTime =
      ⟨⟨o.source.takeOverrun.2, o.source.pendingOverrun⟩,
        (o.buffer.take n ++ buf.drop n) :: others, .ok n⟩ :=
    read_succeeded undeferred reads succeeded told
  have counted : n = o.buffer.length := conserves.counted n succeeded
  have copied : (o.buffer.take n ++ buf.drop n).take n = o.buffer := by
    rw [counted, List.take_length, List.take_left]
  have stepped : s.step (.read (buf :: others) timeoutUs inTime) =
      ⟨⟨o.source.takeOverrun.2, o.source.pendingOverrun⟩,
        s.received ++ takenOff s.streamer.source o.source.takeOverrun.2,
        s.returned ++ o.buffer,
        if 0 < n then s.reads ++ [⟨s.returned.length, s.overruns⟩] else s.reads,
        if 0 < n then 0 else s.overruns⟩ := by
    simp only [step, afterRead, same, StreamerRead.samples, List.headD_cons, copied]
  rw [stepped]
  refine ⟨(round_read reads).symm, fun gap next room => ?_, fun nothing => ?_⟩
  · obtain ⟨⟨m, returned, positive⟩, pending, -⟩ := reports.some gap next room
    cases (reads ▸ succeeded).symm.trans returned
    exact ⟨reads ▸ pending, if_pos positive, if_pos positive⟩
  · obtain ⟨zero, quiet⟩ := reports.none nothing
    have unread : ¬0 < n := by
      rw [zero n (reads ▸ succeeded)]
      exact Nat.lt_irrefl 0
    exact ⟨reads ▸ quiet, if_neg unread, if_neg unread⟩

theorem read_passed (undeferred : s.streamer.deferredOverrun = false)
    (reports : s.session.Reports buf.length (inTime (readTimeout timeoutUs))) :
    s.Passed (s.step (.read (buf :: others) timeoutUs inTime)) buf.length
      (inTime (readTimeout timeoutUs)) := by
  cases result : (s.streamer.source.readSamplesDeadline [] buf.length
      (inTime (readTimeout timeoutUs))).result with
  | error error => exact passed_failed undeferred reports rfl result
  | ok n => exact passed_succeeded undeferred reports rfl result

end Read

/-! ## Whole runs -/

/-- The last read of the activation that returned samples began behind a gap. -/
def LastBehindGap (s : StreamerRun Sample) : Prop :=
  ∃ mark ∈ s.reads.getLast?, GapBefore s.received mark.position

/-- Of the reads of one activation that return samples all begin behind a gap, or none does; and
no activation begins with an overrun deferred or a gap ahead of samples thrown away. -/
def Heeds (s : StreamerRun Sample) : StreamerAction Sample → Prop
  | .activateAt _ =>
    s.streamer.source.readerAlive = false →
      s.streamer.deferredOverrun = false ∧ s.streamer.source.sampleBufferAfterGap = false
  | .read buffers timeoutUs inTime =>
    s.streamer.deferredOverrun = false → s.reads ≠ [] → ∀ buf ∈ buffers.head?, buf ≠ [] →
      ∀ gap ∈ s.streamer.source.nextUp (inTime (readTimeout timeoutUs)),
        (s.LastBehindGap ↔ gap = true)
  | _ => True

/-- The packets that the reader task sends carry samples. -/
def Sampled : StreamerAction Sample → Prop
  | .deliver packet => packet.samples ≠ []
  | _ => True

/-- What holds in every run whose steps heed the condition. -/
structure Settled (s : StreamerRun Sample) : Prop where
  latched : s.session.Latched
  received : AllSampled s.received
  waiting : AllSampled (s.streamer.source.httpReceiver.getD [])
  within : ∀ mark ∈ s.reads, mark.position < s.returned.length
  /-- The error for the last read's gap is deferred or has come. -/
  owed : s.streamer.deferredOverrun = true ∨ s.overruns = 1 ↔ s.LastBehindGap
  atMost : s.overruns ≤ 1
  once : s.streamer.deferredOverrun = true → s.overruns = 0
  atGaps : s.AtGaps

theorem Settled.stable {s : StreamerRun Sample} (settled : Settled s) {mark : ReadMark}
    (member : mark ∈ s.reads) (more : List (ChannelPacket Sample)) :
    GapBefore (s.received ++ more) mark.position ↔ GapBefore s.received mark.position := by
  apply gapBefore_stable
  have stream := congrArg List.length settled.latched.conserved
  rw [List.length_append, ← ChannelPacket.size_total] at stream
  have within := settled.within mark member
  have returned : s.session.returned.length = s.returned.length := rfl
  have received : total ChannelPacket.size s.session.received =
    total ChannelPacket.size s.received := rfl
  omega

/-- A read that takes packets and returns nothing changes none of the marks' gaps. -/
theorem AtGaps.more {s s' : StreamerRun Sample} (settled : Settled s)
    {more : List (ChannelPacket Sample)} (received : s'.received = s.received ++ more)
    (reads : s'.reads = s.reads) (overruns : s'.reads = [] → s'.overruns = 0) : s'.AtGaps where
  between := by
    intro mark member
    rw [reads] at member
    rw [received, settled.stable (List.mem_of_mem_tail member)]
    exact settled.atGaps.between mark member
  first := by
    rw [reads]
    exact settled.atGaps.first
  unread := overruns

theorem LastBehindGap.more {s s' : StreamerRun Sample} (settled : Settled s)
    {more : List (ChannelPacket Sample)} (received : s'.received = s.received ++ more)
    (reads : s'.reads = s.reads) : s'.LastBehindGap ↔ s.LastBehindGap := by
  rw [LastBehindGap, LastBehindGap, reads, received]
  refine exists_congr fun mark => and_congr_right fun last => ?_
  exact settled.stable (List.mem_of_getLast? last) more

/-- A read that returned samples lies behind a gap that came with its error exactly when the read
before it began behind one too. -/
theorem atGaps_marked {s s' : StreamerRun Sample} (settled : Settled s)
    (undeferred : s.streamer.deferredOverrun = false) {more : List (ChannelPacket Sample)}
    (received : s'.received = s.received ++ more)
    (reads : s'.reads = s.reads ++ [⟨s.returned.length, s.overruns⟩]) {gap : Bool}
    (placed : GapBefore s'.received s.returned.length ↔ gap = true) :
    s'.AtGaps ↔ (s.reads ≠ [] → (s.LastBehindGap ↔ gap = true)) := by
  have came : s.overruns = 1 ↔ s.LastBehindGap := by
    rw [← settled.owed, undeferred]
    exact (or_iff_right Bool.false_ne_true).symm
  have unread : s'.reads = [] → s'.overruns = 0 := by
    rw [reads]
    exact fun none => absurd none (List.append_ne_nil_of_right_ne_nil _ (List.cons_ne_nil _ _))
  cases marks : s.reads with
  | nil =>
      refine iff_of_true ⟨?_, ?_, unread⟩ fun some => absurd rfl some
      · rw [reads, marks]
        exact fun _ member => absurd member List.not_mem_nil
      · rw [reads, marks]
        rintro mark ⟨⟩
        exact settled.atGaps.unread marks
  | cons mark rest =>
      have tail : s'.reads.tail = s.reads.tail ++ [⟨s.returned.length, s.overruns⟩] := by
        rw [reads, marks]
        rfl
      constructor
      · intro atGaps _
        have last := (atGaps.between ⟨s.returned.length, s.overruns⟩ (by
          rw [tail]
          exact List.mem_append_right _ (List.mem_singleton_self _))).2
        rw [← came, ← placed]
        exact last
      · intro heeds
        refine ⟨?_, ?_, unread⟩
        · intro other member
          rw [tail] at member
          rcases List.mem_append.mp member with earlier | last
          · rw [received, settled.stable (List.mem_of_mem_tail earlier)]
            exact settled.atGaps.between other earlier
          · rw [List.mem_singleton.mp last]
            refine ⟨settled.atMost, ?_⟩
            rw [placed, ← heeds (List.cons_ne_nil mark rest)]
            exact came
        · rw [reads, marks]
          have first := settled.atGaps.first
          rw [marks] at first
          exact first

theorem Settled.passed {s s' : StreamerRun Sample} (settled : Settled s) {maxSamples inTime : Nat}
    (session : s'.session = s.session.round (.read [] maxSamples inTime)) :
    s'.session.Latched ∧ AllSampled s'.received ∧
      AllSampled (s'.streamer.source.httpReceiver.getD []) ∧
      s'.received = s.received ++
        (s.streamer.source.readSamplesDeadline [] maxSamples inTime).taken s.streamer.source ∧
      s'.returned = s.returned ++
        (s.streamer.source.readSamplesDeadline [] maxSamples inTime).buffer := by
  have read := s.streamer.source.read_conserves [] maxSamples inTime
  have received : s'.received = s.received ++
      (s.streamer.source.readSamplesDeadline [] maxSamples inTime).taken s.streamer.source :=
    congrArg Session.received session
  have queue : s'.streamer.source.httpReceiver =
      (s.streamer.source.readSamplesDeadline [] maxSamples inTime).source.httpReceiver :=
    congrArg (fun r => r.source.httpReceiver) session
  have waiting := settled.waiting
  rw [read.inOrder] at waiting
  refine ⟨?_, ?_, ?_, received, congrArg Session.returned session⟩
  · rw [session]
    exact Session.latched_round settled.latched
      (Session.heeds_sampled settled.waiting [] maxSamples inTime)
  · rw [received]
    intro packet member
    rcases List.mem_append.mp member with earlier | now
    · exact settled.received packet earlier
    · exact waiting packet (List.mem_append_left _ now)
  · rw [queue]
    exact fun packet member => waiting packet (List.mem_append_right _ member)

theorem takenOff_self (source : SpectranSource Sample) : takenOff source source = [] := by
  rw [takenOff, Nat.sub_self, List.take_zero]

/-- A deferred overrun is returned, and the source is not read. -/
theorem Settled.read_deferred {s : StreamerRun Sample} (settled : Settled s)
    (deferred : s.streamer.deferredOverrun = true) (buffers : List (List Sample))
    (timeoutUs : Int) (inTime : Nat → Nat) :
    Settled (s.step (.read buffers timeoutUs inTime)) := by
  have stepped : s.step (.read buffers timeoutUs inTime) =
      { s with
        streamer := { s.streamer with deferredOverrun := false }
        overruns := s.overruns + 1 } := by
    simp only [step, SpectranSeifyRxStreamer.read, deferred, if_true, afterRead,
      StreamerRead.samples, List.append_nil, takenOff_self]
  have owed := settled.owed.mp (.inl deferred)
  have once := settled.once deferred
  rw [stepped]
  exact {
    latched := settled.latched
    received := settled.received
    waiting := settled.waiting
    within := settled.within
    owed := iff_of_true (.inr (by rw [once])) owed
    atMost := by
      show s.overruns + 1 ≤ 1
      omega
    once := fun still => by cases still
    atGaps := by
      refine AtGaps.more settled (List.append_nil _).symm rfl fun none => ?_
      obtain ⟨mark, last, -⟩ := owed
      have none : s.reads = [] := none
      rw [none] at last
      cases last }

theorem read_unbuffered {s : StreamerRun Sample} (undeferred : s.streamer.deferredOverrun = false)
    (timeoutUs : Int) (inTime : Nat → Nat) : s.step (.read [] timeoutUs inTime) = s := by
  simp only [step, SpectranSeifyRxStreamer.read, undeferred, Bool.false_eq_true, if_false,
    afterRead, StreamerRead.samples, List.headD_nil, List.take_nil, List.append_nil,
    takenOff_self, Nat.lt_irrefl]

/-- A read that returns nothing leaves what the marks say. -/
theorem Settled.unmarked {s s' : StreamerRun Sample} (settled : Settled s)
    (undeferred : s.streamer.deferredOverrun = false) {maxSamples inTime : Nat}
    (passed : s.Passed s' maxSamples inTime)
    (nothing : s.streamer.source.nextUp inTime = none ∨ maxSamples = 0) : Settled s' := by
  obtain ⟨latched, sampled, waiting, received, returned⟩ := settled.passed passed.session
  obtain ⟨latch, reads, overruns⟩ := passed.unmarked nothing
  exact {
    latched
    received := sampled
    waiting
    within := by
      rw [reads, returned, List.length_append]
      intro mark member
      have within := settled.within mark member
      omega
    owed := by
      rw [latch, overruns, LastBehindGap.more settled received reads, ← settled.owed, undeferred]
    atMost := by
      rw [overruns]
      exact settled.atMost
    once := fun set => absurd set (by rw [latch]; exact Bool.false_ne_true)
    atGaps := AtGaps.more settled received reads fun none => by
      rw [overruns]
      exact settled.atGaps.unread (reads ▸ none) }

/-- A read that returns samples is marked, and keeps the errors at their gaps or not by what lay
ahead of the read before it. -/
theorem Settled.marked {s s' : StreamerRun Sample} (settled : Settled s)
    (undeferred : s.streamer.deferredOverrun = false) {maxSamples inTime : Nat}
    (passed : s.Passed s' maxSamples inTime) (reports : s.session.Reports maxSamples inTime)
    {gap : Bool} (next : gap ∈ s.streamer.source.nextUp inTime) (asked : 0 < maxSamples) :
    (s'.AtGaps ↔ (s.reads ≠ [] → (s.LastBehindGap ↔ gap = true))) ∧
      (s'.AtGaps → Settled s') := by
  obtain ⟨latched, sampled, waiting, received, returned⟩ := settled.passed passed.session
  obtain ⟨latch, reads, overruns⟩ := passed.marked gap next asked
  obtain ⟨⟨n, succeeded, positive⟩, -, placed⟩ := reports.some gap next asked
  have placed : GapBefore s'.received s.returned.length ↔ gap = true := by
    rw [received]
    exact placed
  have count := (s.streamer.source.read_conserves [] maxSamples inTime).counted n succeeded
  have grown : s.returned.length < s'.returned.length := by
    rw [returned, List.length_append]
    have added : 0 < (s.streamer.source.readSamplesDeadline [] maxSamples
      inTime).buffer.length := count ▸ positive
    omega
  refine ⟨atGaps_marked settled undeferred received reads placed, fun atGaps => ?_⟩
  exact {
    latched
    received := sampled
    waiting
    within := by
      rw [reads]
      intro mark member
      rcases List.mem_append.mp member with earlier | last
      · exact (settled.within mark earlier).trans grown
      · rw [List.mem_singleton.mp last]
        exact grown
    owed := by
      rw [latch, overruns, LastBehindGap, reads, List.getLast?_concat]
      simp only [Option.mem_def, Option.some.injEq, exists_eq_left', placed, Nat.zero_ne_one,
        or_false]
    atMost := by
      rw [overruns]
      exact Nat.zero_le 1
    once := fun _ => overruns
    atGaps }

theorem Settled.read {s : StreamerRun Sample} (settled : Settled s) (buffers : List (List Sample))
    (timeoutUs : Int) (inTime : Nat → Nat) :
    ((s.step (.read buffers timeoutUs inTime)).AtGaps ↔
      s.Heeds (.read buffers timeoutUs inTime)) ∧
    (s.Heeds (.read buffers timeoutUs inTime) →
      Settled (s.step (.read buffers timeoutUs inTime))) := by
  cases deferred : s.streamer.deferredOverrun with
  | true =>
      have next := settled.read_deferred deferred buffers timeoutUs inTime
      refine ⟨iff_of_true next.atGaps fun undeferred => ?_, fun _ => next⟩
      rw [deferred] at undeferred
      cases undeferred
  | false =>
      cases buffers with
      | nil =>
          rw [read_unbuffered deferred]
          refine ⟨iff_of_true settled.atGaps fun _ _ buf first => ?_, fun _ => settled⟩
          cases first
      | cons buf others =>
          have reports := Session.reports settled.latched settled.received settled.waiting
            buf.length (inTime (readTimeout timeoutUs))
          have passed : s.Passed (s.step (.read (buf :: others) timeoutUs inTime)) buf.length
            (inTime (readTimeout timeoutUs)) := read_passed deferred reports
          by_cases nothing : s.streamer.source.nextUp (inTime (readTimeout timeoutUs)) = none ∨
              buf.length = 0
          · have next := settled.unmarked deferred passed nothing
            refine ⟨iff_of_true next.atGaps ?_, fun _ => next⟩
            rintro - - buf ⟨⟩ some gap ahead
            rcases nothing with none | unasked
            · rw [none] at ahead
              cases ahead
            · exact absurd (List.eq_nil_of_length_eq_zero unasked) some
          · obtain ⟨ahead, asked⟩ := not_or.mp nothing
            obtain ⟨gap, ahead⟩ := Option.ne_none_iff_exists'.mp ahead
            have asked := Nat.pos_of_ne_zero asked
            obtain ⟨meets, next⟩ := settled.marked deferred passed reports ahead asked
            have heeds : s.Heeds (.read (buf :: others) timeoutUs inTime) ↔
                (s.reads ≠ [] → (s.LastBehindGap ↔ gap = true)) := by
              constructor
              · intro heeds some
                exact heeds deferred some buf rfl (List.length_pos_iff.mp asked) gap ahead
              · rintro heeds - some other ⟨⟩ - gap' ahead'
                cases ahead.symm.trans ahead'
                exact heeds some
            exact ⟨meets.trans heeds.symm, fun heeded => next (meets.mpr (heeds.mp heeded))⟩

theorem Settled.touched {s : StreamerRun Sample} (settled : Settled s)
    {source : SpectranSource Sample}
    (latched : Session.Latched ⟨source, s.received, s.returned⟩)
    (waiting : AllSampled (source.httpReceiver.getD [])) :
    Settled { s with streamer := { s.streamer with source } } :=
  { settled with
    latched
    waiting
    atGaps := ⟨settled.atGaps.between, settled.atGaps.first, settled.atGaps.unread⟩ }

theorem Settled.fresh {streamer : SpectranSeifyRxStreamer Sample}
    (latched : Session.Latched ⟨streamer.source, [], []⟩)
    (waiting : AllSampled (streamer.source.httpReceiver.getD []))
    (undeferred : streamer.deferredOverrun = false) : Settled ⟨streamer, [], [], [], 0⟩ where
  latched
  received _ member := absurd member List.not_mem_nil
  waiting
  within _ member := absurd member List.not_mem_nil
  owed := by
    refine iff_of_false ?_ ?_
    · rintro (deferred | came)
      · cases undeferred.symm.trans deferred
      · cases came
    · rintro ⟨mark, ⟨⟩, -⟩
  atMost := Nat.zero_le 1
  once _ := rfl
  atGaps := ⟨fun _ member => absurd member List.not_mem_nil, fun _ first => (by cases first),
    fun _ => rfl⟩

theorem Settled.opened (configSampleRateHz : F64) :
    Settled (opened configSampleRateHz : StreamerRun Sample) :=
  .fresh (Session.Heeding.opened configSampleRateHz).latched
    (fun _ member => absurd member List.not_mem_nil) rfl

/-- What the reader task sends waits in the channel, and nothing else does. -/
theorem Settled.delivered {s : StreamerRun Sample} (settled : Settled s)
    {packet : ChannelPacket Sample} (sampled : packet.samples ≠ []) :
    Settled (s.step (.deliver packet)) := by
  have latched : (s.session.step (.deliver packet)).Latched :=
    @Session.latched_round _ _ (.deliver packet) settled.latched trivial
  rw [step, fed]
  rw [Session.step] at latched ⊢
  by_cases running : s.session.source.httpTask = some .running
  · rw [if_pos running] at latched ⊢
    refine settled.touched latched ?_
    have waiting := settled.waiting
    change AllSampled ((s.streamer.source.httpReceiver.map (· ++ [packet])).getD [])
    cases channel : s.streamer.source.httpReceiver with
    | none => exact fun _ member => absurd member List.not_mem_nil
    | some queue =>
        rw [channel] at waiting
        intro other member
        rcases List.mem_append.mp member with earlier | last
        · exact waiting other earlier
        · rw [List.mem_singleton.mp last]
          exact sampled
  · rw [if_neg running]
    exact settled.touched settled.latched settled.waiting

theorem activateAt_source (s : SpectranSeifyRxStreamer Sample) (reached : Except Error Unit) :
    (s.activateAt reached).2 = { s with source := (s.source.startStreaming reached).2 } := by
  rw [SpectranSeifyRxStreamer.activateAt]
  rcases s.source.startStreaming reached with ⟨error | _, source⟩ <;> rfl

/-- An activation that finds the reader alive changes nothing. -/
theorem activateAt_alive {s : StreamerRun Sample} (alive : s.streamer.source.readerAlive = true)
    (reached : Except Error Unit) : s.step (.activateAt reached) = s := by
  simp only [step, activateAt_source, SpectranSource.startStreaming, alive, if_true]

theorem activateAt_gone {s : StreamerRun Sample} (gone : s.streamer.source.readerAlive = false)
    (reached : Except Error Unit) : s.step (.activateAt reached) =
      ⟨{ s.streamer with source := (s.streamer.source.startStreaming reached).2 },
        [], [], [], 0⟩ := by
  simp only [step, activateAt_source, gone, Bool.false_eq_true, if_false]

theorem Settled.activated {s : StreamerRun Sample} (settled : Settled s)
    {reached : Except Error Unit} (heeds : s.Heeds (.activateAt reached)) :
    Settled (s.step (.activateAt reached)) := by
  cases alive : s.streamer.source.readerAlive with
  | true =>
      rw [activateAt_alive alive]
      exact settled
  | false =>
      obtain ⟨undeferred, calm⟩ := heeds alive
      have latched : (s.session.step (.start reached)).Latched :=
        @Session.latched_round _ _ (.start reached) settled.latched fun _ => calm
      rw [Session.step, if_neg (by rw [session, alive]; exact Bool.false_ne_true)] at latched
      rw [activateAt_gone alive]
      refine .fresh latched ?_ undeferred
      rw [SpectranSource.startStreaming, if_neg (by rw [alive]; exact Bool.false_ne_true)]
      cases reached with
      | error error => exact settled.waiting
      | ok _ => exact fun _ member => absurd member List.not_mem_nil

theorem Settled.step {s : StreamerRun Sample} (settled : Settled s)
    {action : StreamerAction Sample} (sampled : Sampled action) (heeds : s.Heeds action) :
    Settled (s.step action) := by
  cases action with
  | deliver packet => exact settled.delivered sampled
  | finish =>
      exact settled.touched (@Session.latched_round _ _ .finish settled.latched trivial)
        settled.waiting
  | activateAt reached => exact settled.activated heeds
  | deactivateAt =>
      exact settled.touched (@Session.latched_round _ _ .stop settled.latched trivial)
        fun _ member => absurd member List.not_mem_nil
  | read buffers timeoutUs inTime => exact (settled.read buffers timeoutUs inTime).2 heeds

/-- The runs over packets with samples whose every step heeds the condition. -/
inductive Heeding : StreamerRun Sample → Prop where
  | opened (configSampleRateHz : F64) : Heeding (opened configSampleRateHz)
  | step {s : StreamerRun Sample} (action : StreamerAction Sample) :
      Heeding s → Sampled action → s.Heeds action → Heeding (s.step action)

theorem Heeding.settled {s : StreamerRun Sample} (heeding : Heeding s) : Settled s := by
  induction heeding with
  | opened configSampleRateHz => exact .opened configSampleRateHz
  | step action _ sampled heeds settled => exact settled.step sampled heeds

/-- Every overrun error since the last read that returned samples, and one still deferred, is for
the gap that this read of the same activation began behind. -/
def OwnOverruns (s : StreamerRun Sample) : Prop :=
  s.streamer.deferredOverrun = true ∨ 0 < s.overruns → s.LastBehindGap

/-- In a run whose steps heed the condition every overrun lies at its gap and is of its own
activation; the next read keeps to that exactly when it heeds the condition too, and an activation
that finds an overrun deferred is sure to return it. -/
theorem overruns_at_gaps_iff {s : StreamerRun Sample} (heeding : Heeding s) :
    s.AtGaps ∧ s.OwnOverruns ∧
      (∀ buffers timeoutUs inTime, (s.step (.read buffers timeoutUs inTime)).AtGaps ↔
        s.Heeds (.read buffers timeoutUs inTime)) ∧
      ∀ reached buffers timeoutUs inTime, s.streamer.source.readerAlive = false →
        s.streamer.deferredOverrun = true →
        ¬((s.step (.activateAt reached)).step (.read buffers timeoutUs inTime)).AtGaps := by
  have settled := heeding.settled
  refine ⟨settled.atGaps, ?_, fun buffers timeoutUs inTime =>
    (settled.read buffers timeoutUs inTime).1, ?_⟩
  · intro came
    refine settled.owed.mp (came.imp_right fun some => ?_)
    have atMost := settled.atMost
    omega
  · intro reached buffers timeoutUs inTime gone deferred atGaps
    rw [activateAt_gone gone] at atGaps
    have none := atGaps.unread (by
      simp only [StreamerRun.step, SpectranSeifyRxStreamer.read, deferred, if_true, afterRead])
    simp only [StreamerRun.step, SpectranSeifyRxStreamer.read, deferred, if_true, afterRead] at none
    cases none

/-- Two reads that both begin behind a gap, with the error between them. -/
theorem overruns_at_gaps_iff_gapped :
    let s : StreamerRun Nat := run (opened 10) [.deliver ⟨[1], true, 0, 0, 100, 10⟩,
      .deliver ⟨[2], true, 1, 0, 100, 10⟩, .read [[0, 0]] 0 fun _ => 9, .read [[0, 0]] 0 fun _ => 9,
      .read [[0, 0]] 0 fun _ => 9]
    s.reads = [⟨0, 0⟩, ⟨1, 1⟩] ∧ s.AtGaps := by
  have first := Heeding.step (.deliver ⟨[1], true, 0, 0, 100, 10⟩) (.opened 10)
    (List.cons_ne_nil 1 []) trivial
  have second := Heeding.step (.deliver ⟨[2], true, 1, 0, 100, 10⟩) first
    (List.cons_ne_nil 2 []) trivial
  have third := Heeding.step (.read [[0, 0]] 0 fun _ => 9) second trivial
    fun _ some => absurd rfl some
  have fourth := Heeding.step (.read [[0, 0]] 0 fun _ => 9) third trivial
    fun undeferred => absurd undeferred (by decide +kernel)
  have fifth := Heeding.step (.read [[0, 0]] 0 fun _ => 9) fourth trivial fun _ _ _ _ _ gap next =>
    iff_of_true ⟨⟨0, 0⟩, by decide +kernel, ⟨[1], true, 0, 0, 100, 10⟩,
      ⟨[], [⟨[2], true, 1, 0, 100, 10⟩], by decide +kernel, rfl⟩, rfl⟩
      (Option.some.inj ((by decide +kernel : some true = _).trans next)).symm
  exact ⟨by decide +kernel, (overruns_at_gaps_iff fifth).1⟩

/-- A gap between the first read and the second: the error comes behind the second. -/
def lateOverrun : List (StreamerAction Nat) :=
  [.deliver ⟨[1], false, 0, 0, 100, 10⟩, .deliver ⟨[2], true, 1, 0, 100, 10⟩,
    .read [[0, 0]] 0 fun _ => 9, .read [[0, 0]] 0 fun _ => 9, .read [[0, 0]] 0 fun _ => 9]

/-- An overrun is deferred when the streamer is deactivated and activated again. -/
def leakedOverrun : List (StreamerAction Nat) :=
  [.deliver ⟨[1], true, 0, 0, 100, 10⟩, .read [[0, 0]] 0 fun _ => 9, .deactivateAt,
    .activateAt (.ok ()), .read [[0, 0]] 0 fun _ => 9]

theorem lateOverrun_misplaced :
    (run (opened 10) lateOverrun).reads = [⟨0, 0⟩, ⟨1, 0⟩] ∧
      (run (opened 10) lateOverrun).overruns = 1 ∧ ¬(run (opened 10) lateOverrun).AtGaps ∧
      ((run (opened 10) leakedOverrun).received = [] ∧
        (run (opened 10) leakedOverrun).overruns = 1) ∧
      ¬(run (opened 10) leakedOverrun).AtGaps := by
  refine ⟨by decide +kernel, by decide +kernel, fun atGaps => ?_, by decide +kernel,
    fun atGaps => ?_⟩
  · have between := (atGaps.between ⟨1, 0⟩ (by decide +kernel)).2.mpr
      ⟨⟨[2], true, 1, 0, 100, 10⟩, ⟨[⟨[1], false, 0, 0, 100, 10⟩], [], by decide +kernel, rfl⟩, rfl⟩
    cases between
  · have came : (run (opened 10) leakedOverrun).overruns = 1 := by decide +kernel
    cases came.symm.trans (atGaps.unread (by decide +kernel))

end Seify.StreamerRun

end SdrAaronia
