import SdrAaronia.Lib.Segments
import SdrAaronia.UnifiedSource.State

/-! # Runs of the unified source

A session carries, next to the source's own state, the packets its reads took off
the channel and the samples they appended since the last restart.  Nothing the
source does reads that history.
-/

namespace SdrAaronia

structure Session (Sample : Type) where
  source : SpectranSource Sample
  received : List (ChannelPacket Sample)
  returned : List Sample

inductive SessionAction (Sample : Type) where
  /-- The reader task sends a packet. -/
  | deliver (packet : ChannelPacket Sample)
  /-- The reader task ends and drops its sender. -/
  | finish
  /-- The reader task stores the sample rate of the stream. -/
  | observe (rateHz : F64)
  | read (buffer : List Sample) (maxSamples inTime : Nat)
  | takeOverrun
  | start (reached : Except Error Unit)
  | stop

namespace ReadOutcome

variable {Sample : Type}

/-- The samples a read added behind what the caller's buffer held. -/
def appended (o : ReadOutcome Sample) (buffer : List Sample) : List Sample :=
  o.buffer.drop buffer.length

/-- The packets a read from `s` took off the channel. -/
def taken (o : ReadOutcome Sample) (s : SpectranSource Sample) : List (ChannelPacket Sample) :=
  let waiting := s.httpReceiver.getD []
  waiting.take (waiting.length - (o.source.httpReceiver.getD []).length)

end ReadOutcome

def ChannelPacket.size {Sample : Type} (packet : ChannelPacket Sample) : Nat :=
  packet.samples.length

theorem ChannelPacket.size_total {Sample : Type} (packets : List (ChannelPacket Sample)) :
    Segments.total size packets = (packets.flatMap samples).length :=
  Segments.total_flatMap samples packets

namespace Session

variable {Sample : Type}

/-- A source right after it was built. -/
def opened (configSampleRateHz : F64) : Session Sample where
  source := ((SpectranSource.new configSampleRateHz).initHttpSource (.ok ())).2
  received := []
  returned := []

def afterRead (r : Session Sample) (buffer : List Sample) (maxSamples inTime : Nat) :
    Session Sample :=
  let o := r.source.readSamplesDeadline buffer maxSamples inTime
  { source := o.source
    received := r.received ++ o.taken r.source
    returned := r.returned ++ o.appended buffer }

def step (r : Session Sample) : SessionAction Sample → Session Sample
  | .deliver packet =>
      if r.source.httpTask = some .running then
        { r with source :=
            { r.source with httpReceiver := r.source.httpReceiver.map (· ++ [packet]) } }
      else r
  | .finish =>
      { r with source := { r.source with httpTask := r.source.httpTask.map fun _ => .finished } }
  | .observe rateHz =>
      { r with source :=
          { r.source with httpRateBits := r.source.httpRateBits.map fun _ => rateHz } }
  | .read buffer maxSamples inTime => r.afterRead buffer maxSamples inTime
  | .takeOverrun => { r with source := r.source.takeOverrun.2 }
  | .start reached =>
      if r.source.readerAlive then r
      else ⟨(r.source.startStreaming reached).2, [], []⟩
  | .stop => { r with source := r.source.stopStreaming }

def run (r : Session Sample) (actions : List (SessionAction Sample)) : Session Sample :=
  actions.foldl step r

theorem run_induction {P : Session Sample → Prop} {allowed : SessionAction Sample → Prop}
    {actions : List (SessionAction Sample)} {r : Session Sample} (start : P r)
    (preserved : ∀ r action, allowed action → P r → P (step r action))
    (within : ∀ action ∈ actions, allowed action) : P (run r actions) := by
  induction actions generalizing r with
  | nil => exact start
  | cons action actions ih =>
      obtain ⟨first, others⟩ := List.forall_mem_cons.mp within
      exact ih (preserved r action first start) others

end Session

/-! ## What a read takes and gives -/

namespace Batch

variable {Sample : Type}

/-- The batch of a read from `s` that took the packets `got`. -/
structure Gathered (s : SpectranSource Sample) (buffer : List Sample) (maxSamples : Nat)
    (got : List (ChannelPacket Sample)) (b : Batch Sample) : Prop where
  conserved : ∃ appended, b.buffer = buffer ++ appended ∧ appended.length = b.collected ∧
    appended ++ b.source.sampleBuffer = s.sampleBuffer ++ got.flatMap ChannelPacket.samples
  atMost : b.collected ≤ maxSamples

/-- A batch with room left has nothing stashed. -/
structure Open (s : SpectranSource Sample) (buffer : List Sample) (maxSamples : Nat)
    (got : List (ChannelPacket Sample)) (b : Batch Sample) : Prop
    extends Gathered s buffer maxSamples got b where
  drained : b.collected < maxSamples → b.source.sampleBuffer = []

theorem begin_open (s : SpectranSource Sample) (buffer : List Sample) (maxSamples : Nat) :
    Open s buffer maxSamples [] (begin s buffer maxSamples) where
  conserved := by
    refine ⟨s.sampleBuffer.take maxSamples, begin_buffer s buffer maxSamples, ?_, ?_⟩
    · rw [List.length_take, begin_collected, Nat.min_comm]
    · rw [begin_sampleBuffer, List.take_append_drop, List.flatMap_nil, List.append_nil]
  atMost := Nat.min_le_right _ _
  drained room := by
    rw [begin_collected] at room
    rw [begin_sampleBuffer]
    exact List.drop_of_length_le (by omega)

theorem Open.join {s : SpectranSource Sample} {buffer : List Sample} {maxSamples : Nat}
    {got : List (ChannelPacket Sample)} {b : Batch Sample}
    (gathered : Open s buffer maxSamples got b)
    (room : b.collected < maxSamples) (packet : ChannelPacket Sample) :
    Open s buffer maxSamples (got ++ [packet]) ((b.joined packet).absorb maxSamples packet) where
  conserved := by
    obtain ⟨appended, grown, count, kept⟩ := gathered.conserved
    have fits : (packet.samples.take (maxSamples - b.collected)).length =
        min (maxSamples - b.collected) packet.samples.length := List.length_take
    refine ⟨appended ++ packet.samples.take (maxSamples - b.collected), ?_, ?_, ?_⟩
    · rw [absorb_buffer, joined_buffer, joined_collected, grown, List.append_assoc]
    · rw [absorb_collected, joined_collected, List.length_append, count, fits]
    · rw [gathered.drained room, List.append_nil] at kept
      rw [absorb_sampleBuffer, joined_sampleBuffer, joined_collected, gathered.drained room,
        List.nil_append, List.append_assoc, List.take_append_drop, kept, List.flatMap_append,
        List.flatMap_singleton, List.append_assoc]
  atMost := by
    rw [absorb_collected, joined_collected]
    omega
  drained still := by
    rw [absorb_collected, joined_collected] at still
    rw [absorb_sampleBuffer, joined_sampleBuffer, joined_collected, gathered.drained room,
      List.nil_append]
    exact List.drop_of_length_le (by omega)

/-- The samples in hand and the stash are the end of the stream received so far. -/
theorem Gathered.stream {s : SpectranSource Sample} {buffer : List Sample} {maxSamples : Nat}
    {got received : List (ChannelPacket Sample)} {returned : List Sample} {b : Batch Sample}
    (gathered : Gathered s buffer maxSamples got b)
    (conserved : returned ++ s.sampleBuffer = received.flatMap ChannelPacket.samples) :
    ∃ appended, b.buffer = buffer ++ appended ∧ appended.length = b.collected ∧
      (received ++ got).flatMap ChannelPacket.samples =
        returned ++ (appended ++ b.source.sampleBuffer) := by
  obtain ⟨appended, grown, count, kept⟩ := gathered.conserved
  refine ⟨appended, grown, count, ?_⟩
  rw [kept, List.flatMap_append, ← conserved, List.append_assoc]

theorem Gathered.total {s : SpectranSource Sample} {buffer : List Sample} {maxSamples : Nat}
    {got received : List (ChannelPacket Sample)} {returned : List Sample} {b : Batch Sample}
    (gathered : Gathered s buffer maxSamples got b)
    (conserved : returned ++ s.sampleBuffer = received.flatMap ChannelPacket.samples) :
    Segments.total ChannelPacket.size (received ++ got) =
      returned.length + b.collected + b.source.sampleBuffer.length := by
  obtain ⟨appended, -, count, whole⟩ := gathered.stream conserved
  rw [ChannelPacket.size_total, whole, List.length_append, List.length_append, count,
    Nat.add_assoc]

theorem Open.hold {s : SpectranSource Sample} {buffer : List Sample} {maxSamples : Nat}
    {got : List (ChannelPacket Sample)} {b : Batch Sample}
    (gathered : Open s buffer maxSamples got b)
    (packet : ChannelPacket Sample) :
    Gathered s buffer maxSamples (got ++ [packet]) (b.held packet) where
  conserved := by
    obtain ⟨appended, grown, count, kept⟩ := gathered.conserved
    refine ⟨appended, grown, count, ?_⟩
    rw [held_sampleBuffer, ← List.append_assoc, kept, List.flatMap_append, List.flatMap_singleton,
      List.append_assoc]
  atMost := gathered.atMost

/-- The rule for a read's receive loop, next to what the batch has gathered. -/
theorem gather_rule (s : SpectranSource Sample) (buffer : List Sample) (maxSamples : Nat)
    (Inv : List (ChannelPacket Sample) → Batch Sample → List (ChannelPacket Sample) → Prop)
    (Held : List (ChannelPacket Sample) → Batch Sample → Prop)
    (join : ∀ got b packet rest, Open s buffer maxSamples got b → Inv got b (packet :: rest) →
      b.collected < maxSamples →
      ¬(0 < b.collected ∧ (packet.dropped ∨ retuned b.freqHz b.rateHz packet)) →
      Inv (got ++ [packet]) ((b.joined packet).absorb maxSamples packet) rest)
    (hold : ∀ got b packet rest, Open s buffer maxSamples got b → Inv got b (packet :: rest) →
      b.collected < maxSamples → 0 < b.collected →
      packet.dropped ∨ retuned b.freqHz b.rateHz packet →
      Held (got ++ [packet]) (b.held packet))
    (arrivals : List (ChannelPacket Sample))
    (start : Inv [] (begin s buffer maxSamples) arrivals) :
    ∃ b halt rest taken,
      (begin s buffer maxSamples).receiveLoop maxSamples arrivals = (b, halt, rest) ∧
        arrivals = taken ++ rest ∧ Gathered s buffer maxSamples taken b ∧
        match halt with
        | .full => maxSamples ≤ b.collected ∧ Inv taken b rest
        | .waiting =>
            b.source.sampleBuffer = [] ∧ b.collected < maxSamples ∧ rest = [] ∧ Inv taken b rest
        | .boundary => 0 < b.collected ∧ Held taken b := by
  obtain ⟨b, halt, rest, taken, loop, cut, final⟩ :=
    receiveLoop_rule (fun got b rest => Open s buffer maxSamples got b ∧ Inv got b rest)
      (fun got b => Gathered s buffer maxSamples got b ∧ 0 < b.collected ∧ Held got b)
      (fun got b packet rest held room joins =>
        ⟨held.1.join room packet, join got b packet rest held.1 held.2 room joins⟩)
      (fun got b packet rest held room some breaks =>
        ⟨held.1.hold packet, some, hold got b packet rest held.1 held.2 room some breaks⟩)
      arrivals (begin s buffer maxSamples) [] ⟨begin_open s buffer maxSamples, start⟩
  refine ⟨b, halt, rest, taken, loop, cut, ?_⟩
  cases halt with
  | full => exact ⟨final.2.1.toGathered, final.1, final.2.2⟩
  | waiting =>
      obtain ⟨room, none, gathered, held⟩ := final
      exact ⟨gathered.toGathered, gathered.drained room, room, none, held⟩
  | boundary => exact final

/-- Where a read's receive loop comes to rest. -/
theorem receiveLoop_gathers (s : SpectranSource Sample) (buffer : List Sample) (maxSamples : Nat)
    (arrivals : List (ChannelPacket Sample)) :
    ∃ b halt rest taken,
      (begin s buffer maxSamples).receiveLoop maxSamples arrivals = (b, halt, rest) ∧
        arrivals = taken ++ rest ∧ Gathered s buffer maxSamples taken b ∧
        (b.collected = 0 → halt ≠ .waiting ∧ maxSamples = 0 ∨ b.source.sampleBuffer = []) := by
  obtain ⟨b, halt, rest, taken, loop, cut, gathered, final⟩ :=
    gather_rule s buffer maxSamples (fun _ _ _ => True) (fun _ _ => True)
      (fun _ _ _ _ _ _ _ _ => trivial) (fun _ _ _ _ _ _ _ _ _ => trivial) arrivals trivial
  refine ⟨b, halt, rest, taken, loop, cut, gathered, fun none => ?_⟩
  cases halt with
  | full => exact .inl ⟨nofun, by omega⟩
  | waiting => exact .inr final.1
  | boundary => exact absurd none final.1.ne'

/-- The loop comes by a waiting state for every packet it takes, with nothing
stashed. -/
theorem receiveLoop_drained {s : SpectranSource Sample} {buffer : List Sample} {maxSamples : Nat}
    {before : List (ChannelPacket Sample)} {b : Batch Sample}
    (loop : (begin s buffer maxSamples).receiveLoop maxSamples before = (b, .waiting, [])) :
    b.source.sampleBuffer = [] := by
  obtain ⟨b', halt, rest, taken, same, -, -, final⟩ :=
    gather_rule s buffer maxSamples (fun _ _ _ => True) (fun _ _ => True)
      (fun _ _ _ _ _ _ _ _ => trivial) (fun _ _ _ _ _ _ _ _ _ => trivial) before trivial
  rw [loop] at same
  obtain ⟨rfl, rfl, rfl⟩ : b = b' ∧ Halt.waiting = halt ∧ [] = rest := by
    simpa only [Prod.mk.injEq] using same
  exact final.1

/-- A read that goes on to take a packet waited for it behind those before. -/
theorem receiveLoop_waits {maxSamples : Nat} {before after rest : List (ChannelPacket Sample)}
    {packet : ChannelPacket Sample} {b b' : Batch Sample} {halt : Halt}
    (loop : b.receiveLoop maxSamples (before ++ packet :: after ++ rest) = (b', halt, rest)) :
    ∃ waiting, b.receiveLoop maxSamples before = (waiting, .waiting, []) := by
  have shorter : ∀ {more : List (ChannelPacket Sample)}, more.length ≠ rest.length →
      more ≠ rest := fun different same => different (congrArg List.length same)
  induction before generalizing b with
  | nil =>
      rw [List.nil_append, List.cons_append, receiveLoop] at loop
      by_cases room : b.collected < maxSamples
      · exact ⟨b, by rw [receiveLoop, if_pos room]⟩
      · rw [if_neg room] at loop
        have same := congrArg (fun out => out.2.2) loop
        exact absurd same (shorter (by simp only [List.length_cons, List.length_append]; omega))
  | cons first before ih =>
      rw [List.cons_append, List.cons_append, receiveLoop] at loop
      rw [receiveLoop]
      by_cases room : b.collected < maxSamples
      · rw [if_pos room] at loop ⊢
        cases received : b.receive maxSamples first with
        | mk b₁ flow =>
            rw [received] at loop
            cases flow with
            | next => exact ih loop
            | stop =>
                have same := congrArg (fun out => out.2.2) loop
                exact absurd same (shorter (by
                  simp only [List.length_append, List.length_cons]; omega))
      · rw [if_neg room] at loop
        have same := congrArg (fun out => out.2.2) loop
        exact absurd same (shorter (by simp only [List.length_cons, List.length_append]; omega))

end Batch

namespace SpectranSource

variable {Sample : Type} {s : SpectranSource Sample} {queue : List (ChannelPacket Sample)}
  {buffer : List Sample} {maxSamples inTime : Nat}

theorem readSamplesDeadline_unopened (channel : s.httpReceiver = none) :
    s.readSamplesDeadline buffer maxSamples inTime =
      ⟨.error (.config "HTTP receiver not initialized"), buffer, s⟩ := by
  simp only [readSamplesDeadline, channel]

section

variable {rest taken : List (ChannelPacket Sample)} {b : Batch Sample} {halt : Halt}
  (channel : s.httpReceiver = some queue)
  (loop : (Batch.begin s buffer maxSamples).receiveLoop maxSamples (queue.take inTime) =
    (b, halt, rest))
include channel loop

theorem read_queue :
    (s.readSamplesDeadline buffer maxSamples inTime).source.httpReceiver =
      some (rest ++ queue.drop inTime) := by
  rcases readSamplesDeadline_cases channel loop with ⟨_, _, _, ends⟩ | ⟨_, ends⟩
  · rw [ends]
  · rw [ends]
    rfl

theorem read_taken (cut : queue.take inTime = taken ++ rest) :
    (s.readSamplesDeadline buffer maxSamples inTime).taken s = taken := by
  have whole : queue = taken ++ (rest ++ queue.drop inTime) := by
    rw [← List.append_assoc, ← cut, List.take_append_drop]
  rw [ReadOutcome.taken, read_queue channel loop, channel, Option.getD_some, Option.getD_some]
  generalize rest ++ queue.drop inTime = left at whole
  rw [whole, List.length_append, Nat.add_sub_cancel, List.take_left]

theorem read_buffer :
    (s.readSamplesDeadline buffer maxSamples inTime).buffer = b.buffer := by
  rcases readSamplesDeadline_cases channel loop with ⟨_, _, _, ends⟩ | ⟨_, ends⟩ <;>
    rw [ends]

/-- What a read does not publish is as the batch left it. -/
theorem read_keeps {β : Type} (f : SpectranSource Sample → β)
    (ignores : ∀ (s : SpectranSource Sample) queue freqHz rateHz,
      f { s with
        httpReceiver := queue
        lastReadFrequencyHz := freqHz
        lastReadSampleRateHz := rateHz } = f s) :
    f (s.readSamplesDeadline buffer maxSamples inTime).source = f b.source := by
  rcases readSamplesDeadline_cases channel loop with ⟨_, _, _, ends⟩ | ⟨_, ends⟩
  · rw [ends]
    exact ignores b.source _ b.source.lastReadFrequencyHz b.source.lastReadSampleRateHz
  · rw [ends]
    exact ignores b.source _ _ _

theorem read_sampleBuffer :
    (s.readSamplesDeadline buffer maxSamples inTime).source.sampleBuffer =
      b.source.sampleBuffer :=
  read_keeps channel loop sampleBuffer fun _ _ _ _ => rfl

/-- A read that has collected samples reports their geometry. -/
theorem read_reports (some : 0 < b.collected) (freq : 0 < b.freqHz) :
    (s.readSamplesDeadline buffer maxSamples inTime).source.lastReadFrequencyHz = b.freqHz ∧
      (s.readSamplesDeadline buffer maxSamples inTime).source.lastReadSampleRateHz = b.rateHz := by
  rcases readSamplesDeadline_cases channel loop with ⟨_, none, _⟩ | ⟨_, ends⟩
  · exact absurd none some.ne'
  · rw [ends]
    exact ⟨if_pos freq, if_pos some⟩

end

end SpectranSource

/-! ## Conservation -/

/-- The contract of one read from `s`. -/
structure ReadOutcome.Conserves {Sample : Type} (s : SpectranSource Sample) (buffer : List Sample)
    (maxSamples : Nat) (o : ReadOutcome Sample) : Prop where
  grows : o.buffer = buffer ++ o.appended buffer
  atMost : (o.appended buffer).length ≤ maxSamples
  counted : ∀ n, o.result = .ok n → n = (o.appended buffer).length
  failed : ∀ error, o.result = .error error →
    o.appended buffer = [] ∧ o.source.sampleBuffer = s.sampleBuffer
  kept : o.appended buffer ++ o.source.sampleBuffer =
    s.sampleBuffer ++ (o.taken s).flatMap ChannelPacket.samples
  /-- The packets are taken in the order of the channel. -/
  inOrder : s.httpReceiver.getD [] = o.taken s ++ o.source.httpReceiver.getD []
  /-- Nothing is stashed while a packet is taken. -/
  drained : ∀ before packet after, o.taken s = before ++ packet :: after →
    ∃ b, (Batch.begin s buffer maxSamples).receiveLoop maxSamples before = (b, .waiting, []) ∧
      b.source.sampleBuffer = []

theorem SpectranSource.read_conserves {Sample : Type} (s : SpectranSource Sample)
    (buffer : List Sample) (maxSamples inTime : Nat) :
    (s.readSamplesDeadline buffer maxSamples inTime).Conserves s buffer maxSamples := by
  cases channel : s.httpReceiver with
  | none =>
      have none : (ReadOutcome.mk (.error (.config "HTTP receiver not initialized")) buffer s).appended
          buffer = [] := List.drop_length
      have untaken : (ReadOutcome.mk (.error (.config "HTTP receiver not initialized")) buffer s).taken
          s = [] := by rw [ReadOutcome.taken, Nat.sub_self, List.take_zero]
      rw [readSamplesDeadline_unopened channel]
      exact {
        grows := by rw [none, List.append_nil]
        atMost := by rw [none]; exact Nat.zero_le _
        counted := nofun
        failed := fun _ _ => ⟨none, rfl⟩
        kept := by rw [none, untaken, List.flatMap_nil, List.append_nil, List.nil_append]
        inOrder := by rw [untaken, List.nil_append]
        drained := fun before packet after cut => absurd (untaken.symm.trans cut).symm
          (List.append_ne_nil_of_right_ne_nil before (List.cons_ne_nil packet after)) }
  | some queue =>
      obtain ⟨b, halt, rest, taken, loop, cut, gathered, empty⟩ :=
        Batch.receiveLoop_gathers s buffer maxSamples (queue.take inTime)
      obtain ⟨appended, grown, count, kept⟩ := gathered.conserved
      have added : (s.readSamplesDeadline buffer maxSamples inTime).appended buffer = appended := by
        rw [ReadOutcome.appended, read_buffer channel loop, grown, List.drop_left]
      have took := read_taken channel loop cut
      exact {
        grows := by rw [read_buffer channel loop, grown, added]
        atMost := by rw [added, count]; exact gathered.atMost
        counted := by
          intro n success
          rw [added]
          rcases readSamplesDeadline_cases channel loop with ⟨_, _, _, ends⟩ | ⟨_, ends⟩
          · rw [ends] at success
            exact absurd success nofun
          · rw [ends, grown, List.length_append, Nat.add_sub_cancel_left] at success
            exact (Except.ok.inj success).symm
        failed := by
          intro error failure
          rw [added, read_sampleBuffer channel loop]
          rcases readSamplesDeadline_cases channel loop with ⟨_, nothing, asked, _⟩ | ⟨_, ends⟩
          · have drained : b.source.sampleBuffer = [] := by
              rcases empty nothing with ⟨full, zero⟩ | drained
              · rcases asked with waiting | room
                · exact absurd waiting full
                · omega
              · exact drained
            have short : appended = [] := List.length_eq_zero_iff.mp (count.trans nothing)
            rw [short, drained, List.nil_append] at kept
            exact ⟨short, drained.trans (List.append_eq_nil_iff.mp kept.symm).1.symm⟩
          · rw [ends] at failure
            exact absurd failure nofun
        kept := by rw [added, took, read_sampleBuffer channel loop, kept]
        inOrder := by
          rw [took, read_queue channel loop, channel, Option.getD_some, Option.getD_some,
            ← List.append_assoc, ← cut, List.take_append_drop]
        drained := by
          intro before packet after split
          rw [took] at split
          rw [cut, split] at loop
          obtain ⟨waiting, halts⟩ := Batch.receiveLoop_waits loop
          exact ⟨waiting, halts, Batch.receiveLoop_drained halts⟩ }

namespace Session

variable {Sample : Type}

/-- What the reads returned and what is left over is what was received. -/
def Conserved (r : Session Sample) : Prop :=
  r.returned ++ r.source.sampleBuffer = r.received.flatMap ChannelPacket.samples

theorem conserved_step {r : Session Sample} (conserved : Conserved r)
    (action : SessionAction Sample) : Conserved (r.step action) := by
  cases action with
  | deliver packet =>
      rw [step]
      split <;> exact conserved
  | finish | observe | takeOverrun | stop => exact conserved
  | read buffer maxSamples inTime =>
      have read := r.source.read_conserves buffer maxSamples inTime
      rw [Conserved] at conserved
      simp only [Conserved, step, afterRead, List.flatMap_append]
      rw [List.append_assoc, read.kept, ← List.append_assoc, conserved]
  | start reached =>
      rw [step]
      split
      · exact conserved
      · next gone =>
        cases reached <;> simp [Conserved, SpectranSource.startStreaming,
          SpectranSource.initHttpSource, gone]

/-- Over every run, what the reads appended since the last restart and what is
left over is what came off the channel; and every read keeps its contract. -/
theorem reads_conserve_samples (configSampleRateHz : F64) (actions : List (SessionAction Sample)) :
    let r := run (opened configSampleRateHz) actions
    r.returned ++ r.source.sampleBuffer = r.received.flatMap ChannelPacket.samples ∧
      ∀ buffer maxSamples inTime,
        (r.source.readSamplesDeadline buffer maxSamples inTime).Conserves
          r.source buffer maxSamples := by
  have conserved : Conserved (run (opened configSampleRateHz) actions) :=
    run_induction rfl (fun _ action _ held => conserved_step held action)
      (fun _ _ => trivial)
  exact ⟨conserved, fun buffer maxSamples inTime => SpectranSource.read_conserves _ _ _ _⟩

end Session

end SdrAaronia
