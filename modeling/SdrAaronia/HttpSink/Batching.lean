import Mathlib.Algebra.Order.Field.Basic
import Mathlib.Data.List.Chain
import SdrAaronia.HttpSink.State

/-! # Transmit batching

Whatever order the upstream, the block and the sender task act in, the batches handed over are
the input cut into full pieces, scheduled one after another, and every sample taken is
accepted, dropped, on its way or still buffered.
-/

namespace SdrAaronia.HttpSink

variable {Sample : Type}

/-- What one event can do, one constructor for each way it goes. -/
inductive Stepped (s : System Sample) : Event Sample → System Sample → Prop where
  | arrive (samples : List Sample) (unfinished : s.inputFinished = false) :
      Stepped s (.arrive samples)
        { s with input := s.input ++ samples, arrived := s.arrived ++ samples }
  | inputEnds (idle : s.activity = .idle) : Stepped s .inputEnds { s with inputFinished := true }
  | rests (now : ℚ) (unfinished : s.inputFinished = false) : Stepped s (.work now) s
  | flushes (now : ℚ) (idle : s.activity = .idle) (empty : s.input = [])
      (finished : s.inputFinished = true) : Stepped s (.work now) (s.pushBatch now .finish)
  | begins (now : ℚ) (idle : s.activity = .idle) :
      Stepped s (.work now) { s with activity := .draining s.input.length 0 }
  | fills (now : ℚ) {inputLen consumed : Nat} (draining : s.activity = .draining inputLen consumed)
      (more : consumed < inputLen) : Stepped s (.fill now) (s.fillBuffer now inputLen consumed)
  | leaves (now : ℚ) {inputLen consumed : Nat}
      (draining : s.activity = .draining inputLen consumed) (done : inputLen ≤ consumed)
      (unended : s.inputFinished = true → consumed ≠ inputLen) :
      Stepped s (.leave now) { s with input := s.input.drop consumed, activity := .idle }
  | finishes (now : ℚ) {inputLen : Nat} (draining : s.activity = .draining inputLen inputLen)
      (finished : s.inputFinished = true) :
      Stepped s (.leave now)
        (System.pushBatch { s with input := s.input.drop inputLen } now .finish)
  | sends {batch : Batch Sample} {resume : Resume} (sending : s.activity = .sending batch resume) :
      Stepped s .send { s.handedOver batch resume with queue := s.queue ++ [batch] }
  | sendFails {batch : Batch Sample} {resume : Resume}
      (sending : s.activity = .sending batch resume) :
      Stepped s .send { s.handedOver batch resume with
        droppedSamples := s.droppedSamples + batch.samples.length }
  | receives {batch : Batch Sample} {rest : List (Batch Sample)} (free : s.inFlight = none)
      (queued : s.queue = batch :: rest) :
      Stepped s .receive { s with inFlight := some batch, queue := rest }
  | pushAccepted {batch : Batch Sample} (flying : s.inFlight = some batch) :
      Stepped s (.pushEnds .accepted) { s with
        inFlight := none
        acceptedSamples := s.acceptedSamples + batch.samples.length }
  | pushDropped {batch : Batch Sample} (outcome : PushOutcome) (flying : s.inFlight = some batch) :
      Stepped s (.pushEnds outcome) { s with
        inFlight := none
        droppedSamples := s.droppedSamples + batch.samples.length }
  | senderStops : Stepped s .senderStops { s with senderLives := false }

theorem stepped_work {s s' : System Sample} {now : ℚ}
    (stepped : s.step (.work now) = some s') : Stepped s (.work now) s' := by
  simp only [System.step] at stepped
  split at stepped
  · rename_i idle
    split at stepped
    · rename_i empty
      split at stepped
      · rename_i finished
        cases stepped
        exact .flushes now idle (List.eq_nil_of_length_eq_zero empty) finished
      · rename_i unfinished
        cases stepped
        exact .rests now (Bool.eq_false_of_not_eq_true unfinished)
    · cases stepped
      exact .begins now idle
  · cases stepped

theorem stepped_leave {s s' : System Sample} {now : ℚ}
    (stepped : s.step (.leave now) = some s') : Stepped s (.leave now) s' := by
  simp only [System.step] at stepped
  split at stepped
  · rename_i draining
    split at stepped
    · cases stepped
    · rename_i done
      split at stepped
      · rename_i ended
        cases stepped
        obtain ⟨finished, rfl⟩ := ended
        exact .finishes now draining finished
      · rename_i unended
        cases stepped
        exact .leaves now draining (Nat.le_of_not_lt done)
          fun finished same => unended ⟨finished, same⟩
  · cases stepped

theorem stepped_send {s s' : System Sample}
    (stepped : s.step .send = some s') : Stepped s .send s' := by
  simp only [System.step] at stepped
  split at stepped
  · rename_i sending
    split at stepped
    · split at stepped
      · cases stepped
        exact .sends sending
      · cases stepped
    · cases stepped
      exact .sendFails sending
  · cases stepped

theorem stepped_pushEnds {s s' : System Sample} {outcome : PushOutcome}
    (stepped : s.step (.pushEnds outcome) = some s') : Stepped s (.pushEnds outcome) s' := by
  simp only [System.step] at stepped
  split at stepped
  · rename_i lives flying
    cases outcome with
    | accepted =>
        cases stepped
        exact .pushAccepted flying
    | failed | timedOut =>
        cases stepped
        exact .pushDropped _ flying
  · cases stepped

theorem step_stepped {s s' : System Sample} {event : Event Sample}
    (stepped : s.step event = some s') : Stepped s event s' := by
  cases event with
  | arrive samples =>
      simp only [System.step] at stepped
      split at stepped
      · cases stepped
      · rename_i unfinished
        cases stepped
        exact .arrive samples (Bool.eq_false_of_not_eq_true unfinished)
  | inputEnds =>
      simp only [System.step] at stepped
      split at stepped
      · rename_i idle
        cases stepped
        exact .inputEnds idle
      · cases stepped
  | work now => exact stepped_work stepped
  | fill now =>
      simp only [System.step] at stepped
      split at stepped
      · rename_i draining
        split at stepped
        · rename_i more
          cases stepped
          exact .fills now draining more
        · cases stepped
      · cases stepped
  | leave now => exact stepped_leave stepped
  | send => exact stepped_send stepped
  | receive =>
      simp only [System.step] at stepped
      split at stepped
      · rename_i lives free queued
        cases stepped
        exact .receives free queued
      · cases stepped
  | pushEnds outcome => exact stepped_pushEnds stepped
  | senderStops =>
      cases stepped
      exact .senderStops

/-- How far the call has read into the input. -/
def Activity.consumed : Activity Sample → Nat
  | .draining _ consumed | .sending _ (.loop _ consumed) => consumed
  | .idle | .sending _ .finish | .finished => 0

/-- The batch that waits for room in the channel. -/
def Activity.pending : Activity Sample → List (Batch Sample)
  | .sending batch _ => [batch]
  | .idle | .draining _ _ | .finished => []

def Resume.consumed : Resume → Nat
  | .loop _ consumed => consumed
  | .finish => 0

theorem Resume.activity_consumed (resume : Resume) :
    (resume.activity : Activity Sample).consumed = resume.consumed := by
  cases resume with
  | loop | finish => rfl

theorem Resume.sending_consumed (batch : Batch Sample) (resume : Resume) :
    (Activity.sending batch resume).consumed = resume.consumed := by
  cases resume with
  | loop | finish => rfl

/-- Handing over changes the schedule and where the block stands, nothing else. -/
theorem pushBatch_cases (s : System Sample) (now : ℚ) (resume : Resume) :
    (s.sink.sampleBuffer = [] ∧
      s.pushBatch now resume = { s with activity := resume.activity }) ∨
    (s.sink.sampleBuffer ≠ [] ∧
      s.pushBatch now resume =
        { s with
          sink := { s.sink with
            lastTransmissionEndTime := (s.sink.batch now).endTime + 1 / s.sink.sampleRateHz }
          activity := .sending (s.sink.batch now) resume }) := by
  rw [System.pushBatch]
  split
  · rename_i empty
    exact Or.inl ⟨List.isEmpty_iff.mp empty, rfl⟩
  · rename_i some
    exact Or.inr ⟨fun empty => some (List.isEmpty_iff.mpr empty), rfl⟩

/-! ## The stream of samples -/

/-- With so much of the input read: nothing is lost or reordered between the input, the buffer
and the batches handed over. -/
structure Streams (s : System Sample) (consumed : Nat) : Prop where
  order : s.sent.flatMap Batch.samples ++ s.sink.sampleBuffer = s.taken
  unread : s.taken ++ s.input.drop consumed = s.arrived
  within : consumed ≤ s.input.length

theorem Streams.pushBatch {s : System Sample} {resume : Resume}
    (streams : Streams s resume.consumed) (now : ℚ) :
    Streams (s.pushBatch now resume) (s.pushBatch now resume).activity.consumed := by
  obtain ⟨order, unread, within⟩ := streams
  rcases pushBatch_cases s now resume with ⟨_, pushed⟩ | ⟨_, pushed⟩
  · rw [pushed]
    simp only [Resume.activity_consumed]
    exact ⟨order, unread, within⟩
  · rw [pushed]
    simp only [Resume.sending_consumed]
    exact ⟨order, unread, within⟩

theorem Streams.filled {s : System Sample} {consumed : Nat} (streams : Streams s consumed)
    (inputLen : Nat) :
    Streams (s.filled inputLen consumed) (consumed + s.toTake consumed) where
  order := by
    show s.sent.flatMap Batch.samples ++ (s.sink.sampleBuffer ++ _) = s.taken ++ _
    rw [← List.append_assoc, streams.order]
  unread := by
    show s.taken ++ _ ++ s.input.drop _ = s.arrived
    rw [List.append_assoc, ← List.drop_drop, List.take_append_drop]
    exact streams.unread
  within := by
    have within := streams.within
    show consumed + s.toTake consumed ≤ s.input.length
    rw [System.toTake]
    omega

theorem Streams.fillBuffer {s : System Sample} {inputLen consumed : Nat}
    (streams : Streams s consumed) (now : ℚ) :
    Streams (s.fillBuffer now inputLen consumed)
      (s.fillBuffer now inputLen consumed).activity.consumed := by
  rw [System.fillBuffer]
  split
  · have filled : Streams (s.filled inputLen consumed)
        (Resume.loop inputLen (consumed + s.toTake consumed)).consumed := streams.filled inputLen
    exact filled.pushBatch now
  · exact streams.filled inputLen

theorem Streams.step {s s' : System Sample} {event : Event Sample}
    (streams : Streams s s.activity.consumed)
    (waiting : ∀ batch ∈ s.activity.pending, batch.samples = s.sink.sampleBuffer)
    (stepped : Stepped s event s') : Streams s' s'.activity.consumed := by
  obtain ⟨order, unread, within⟩ := streams
  cases stepped with
  | arrive samples unfinished =>
      refine ⟨order, ?_, ?_⟩
      · rw [List.drop_append_of_le_length within, ← List.append_assoc, unread]
      · simp only [List.length_append]
        omega
  | inputEnds | receives | pushAccepted | pushDropped | senderStops =>
      exact ⟨order, unread, within⟩
  | rests => exact ⟨order, unread, within⟩
  | flushes now idle empty finished =>
      rw [idle] at unread within
      have read : Streams s Resume.finish.consumed := ⟨order, unread, within⟩
      exact read.pushBatch now
  | begins now idle =>
      rw [idle] at unread
      exact ⟨order, unread, Nat.zero_le _⟩
  | fills now draining more =>
      rw [draining] at unread within
      exact Streams.fillBuffer ⟨order, unread, within⟩ now
  | leaves now draining done unended =>
      rw [draining] at unread
      exact ⟨order, unread, Nat.zero_le _⟩
  | @finishes now inputLen draining finished =>
      have unread : s.taken ++ s.input.drop inputLen = s.arrived := by
        rw [draining] at unread
        exact unread
      have read : Streams { s with input := s.input.drop inputLen } Resume.finish.consumed :=
        ⟨order, unread, Nat.zero_le _⟩
      exact read.pushBatch now
  | @sends batch resume sending | @sendFails batch resume sending =>
      have samples := waiting batch (by rw [sending]; exact List.mem_singleton_self batch)
      rw [sending, Resume.sending_consumed] at unread within
      simp only [System.handedOver, Resume.activity_consumed]
      refine ⟨?_, unread, within⟩
      rw [List.flatMap_append, List.flatMap_singleton, samples, List.append_nil]
      exact order

/-! ## The sizes of the batches -/

/-- What the buffer holds, by where the block stands. -/
def Room (size : Nat) (buffer : List Sample) : Activity Sample → Prop
  | .idle | .draining _ _ => buffer.length < size
  | .sending batch (.loop _ _) => batch.samples = buffer ∧ buffer.length = size
  | .sending batch .finish => batch.samples = buffer ∧ 0 < buffer.length ∧ buffer.length < size
  | .finished => buffer = []

/-- Only the last batch of a finished block may fall short. -/
def Full (size : Nat) (sent : List (Batch Sample)) : Activity Sample → Prop
  | .finished =>
    (∀ batch ∈ sent.dropLast, batch.samples.length = size) ∧
      ∀ batch ∈ sent, 0 < batch.samples.length ∧ batch.samples.length ≤ size
  | .idle | .draining _ _ | .sending _ _ => ∀ batch ∈ sent, batch.samples.length = size

structure Sized (size : Nat) (s : System Sample) : Prop where
  bufferSize : s.sink.bufferSize = size
  positive : 0 < size
  room : Room size s.sink.sampleBuffer s.activity
  full : Full size s.sent s.activity

theorem Room.pending {size : Nat} {buffer : List Sample} {activity : Activity Sample}
    (room : Room size buffer activity) : ∀ batch ∈ activity.pending, batch.samples = buffer := by
  intro batch inside
  cases activity with
  | idle | draining | finished => cases inside
  | sending waiting resume =>
      rw [List.mem_singleton.mp inside]
      cases resume with
      | loop inputLen consumed => exact room.1
      | finish => exact room.1

theorem Full.finished {size : Nat} (positive : 0 < size) {sent : List (Batch Sample)}
    (full : ∀ batch ∈ sent, batch.samples.length = size) :
    Full size sent (.finished : Activity Sample) := by
  refine ⟨fun batch inside => full batch (List.dropLast_subset _ inside), ?_⟩
  intro batch inside
  rw [full batch inside]
  exact ⟨positive, Nat.le_refl size⟩

/-- A flush hands over what is left, or finishes at once. -/
theorem Sized.flush {size : Nat} {s : System Sample} (bufferSize : s.sink.bufferSize = size)
    (positive : 0 < size) (room : s.sink.sampleBuffer.length < size)
    (full : ∀ batch ∈ s.sent, batch.samples.length = size) (now : ℚ) :
    Sized size (s.pushBatch now .finish) := by
  rcases pushBatch_cases s now .finish with ⟨empty, pushed⟩ | ⟨some, pushed⟩
  · rw [pushed]
    exact ⟨bufferSize, positive, empty, Full.finished positive full⟩
  · rw [pushed]
    exact ⟨bufferSize, positive, ⟨rfl, List.length_pos_iff.mpr some, room⟩, full⟩

theorem filled_length {size : Nat} {s : System Sample} (bufferSize : s.sink.bufferSize = size)
    (room : s.sink.sampleBuffer.length < size) (inputLen consumed : Nat) :
    (s.filled inputLen consumed).sink.sampleBuffer.length ≤ size := by
  show (s.sink.sampleBuffer ++ _).length ≤ size
  rw [List.length_append, List.length_take, System.toTake]
  omega

theorem Sized.fillBuffer {size : Nat} {s : System Sample} {inputLen consumed : Nat}
    (bufferSize : s.sink.bufferSize = size) (positive : 0 < size)
    (room : s.sink.sampleBuffer.length < size)
    (full : ∀ batch ∈ s.sent, batch.samples.length = size) (now : ℚ) :
    Sized size (s.fillBuffer now inputLen consumed) := by
  have fits := filled_length bufferSize room inputLen consumed
  rw [System.fillBuffer]
  split
  · rename_i enough
    rw [bufferSize] at enough
    rcases pushBatch_cases (s.filled inputLen consumed) now
        (.loop inputLen (consumed + s.toTake consumed)) with ⟨empty, _⟩ | ⟨_, pushed⟩
    · rw [empty, List.length_nil] at enough
      omega
    · rw [pushed]
      exact ⟨bufferSize, positive, ⟨rfl, Nat.le_antisymm fits enough⟩, full⟩
  · rename_i short
    rw [bufferSize] at short
    exact ⟨bufferSize, positive, Nat.lt_of_not_le short, full⟩

theorem Sized.step {size : Nat} {s s' : System Sample} {event : Event Sample}
    (sized : Sized size s) (stepped : Stepped s event s') : Sized size s' := by
  obtain ⟨bufferSize, positive, room, full⟩ := sized
  cases stepped with
  | arrive | inputEnds | rests | receives | pushAccepted | pushDropped | senderStops =>
      exact ⟨bufferSize, positive, room, full⟩
  | flushes now idle empty finished =>
      rw [idle] at room full
      exact Sized.flush bufferSize positive room full now
  | begins now idle =>
      rw [idle] at room full
      exact ⟨bufferSize, positive, room, full⟩
  | fills now draining more =>
      rw [draining] at room full
      exact Sized.fillBuffer bufferSize positive room full now
  | leaves now draining done unended =>
      rw [draining] at room full
      exact ⟨bufferSize, positive, room, full⟩
  | @finishes now inputLen draining finished =>
      rw [draining] at room full
      exact Sized.flush (s := { s with input := s.input.drop inputLen }) bufferSize positive room
        full now
  | @sends batch resume sending | @sendFails batch resume sending =>
      rw [sending] at room full
      cases resume with
      | loop inputLen consumed =>
          obtain ⟨same, whole⟩ := room
          refine ⟨bufferSize, positive, positive, ?_⟩
          intro other inside
          rcases List.mem_append.mp inside with earlier | last
          · exact full other earlier
          · rw [List.mem_singleton.mp last, same, whole]
      | finish =>
          obtain ⟨same, some, short⟩ := room
          refine ⟨bufferSize, positive, rfl, ?_, ?_⟩
          · rw [System.handedOver, List.dropLast_concat]
            exact full
          · intro other inside
            rcases List.mem_append.mp inside with earlier | last
            · rw [full other earlier]
              exact ⟨positive, Nat.le_refl size⟩
            · rw [List.mem_singleton.mp last, same]
              exact ⟨some, short.le⟩

theorem Sized.sizes {size : Nat} {s : System Sample} (sized : Sized size s) :
    (∀ batch ∈ s.sent, 0 < batch.samples.length ∧ batch.samples.length ≤ size) ∧
      (∀ batch ∈ s.sent.dropLast, batch.samples.length = size) ∧
      (s.activity ≠ .finished → ∀ batch ∈ s.sent, batch.samples.length = size) := by
  have positive := sized.positive
  have full := sized.full
  have among (whole : ∀ batch ∈ s.sent, batch.samples.length = size) :
      (∀ batch ∈ s.sent, 0 < batch.samples.length ∧ batch.samples.length ≤ size) ∧
        (∀ batch ∈ s.sent.dropLast, batch.samples.length = size) ∧
        (s.activity ≠ .finished → ∀ batch ∈ s.sent, batch.samples.length = size) := by
    have closed : Full size s.sent (.finished : Activity Sample) := Full.finished positive whole
    exact ⟨closed.2, closed.1, fun _ => whole⟩
  cases at_ : s.activity with
  | idle | draining | sending =>
      rw [at_] at full
      rw [at_] at among
      exact among full
  | finished =>
      rw [at_] at full
      exact ⟨full.2, full.1, fun unfinished => absurd rfl unfinished⟩

/-! ## The schedule -/

/-- Each batch waits for the delay and lasts its samples, one sample period after the batch
before it; the next may start one sample period after the last. -/
structure Scheduled (rate delay : ℚ) (batches : List (Batch Sample)) (next : ℚ) : Prop where
  each : ∀ batch ∈ batches, batch.clock + delay ≤ batch.startTime ∧
    batch.endTime = batch.startTime + batch.samples.length / rate
  apart : batches.IsChain fun earlier later => earlier.endTime + 1 / rate ≤ later.startTime
  next : ∀ batch ∈ batches.getLast?, next = batch.endTime + 1 / rate

theorem Scheduled.add {sink : HttpSink Sample} {batches : List (Batch Sample)}
    (scheduled : Scheduled sink.sampleRateHz sink.streamingDelay batches
      sink.lastTransmissionEndTime) (now : ℚ) :
    Scheduled sink.sampleRateHz sink.streamingDelay (batches ++ [sink.batch now])
      ((sink.batch now).endTime + 1 / sink.sampleRateHz) where
  each := by
    intro batch inside
    rcases List.mem_append.mp inside with earlier | last
    · exact scheduled.each batch earlier
    · rw [List.mem_singleton.mp last]
      exact ⟨le_max_left _ _, rfl⟩
  apart := by
    refine List.isChain_append.mpr ⟨scheduled.apart, List.isChain_singleton _, ?_⟩
    intro earlier last later first
    rw [List.head?_singleton, Option.mem_some_iff] at first
    rw [← first, ← scheduled.next earlier last]
    exact le_max_right _ _
  next := by
    intro batch last
    rw [List.getLast?_concat, Option.mem_some_iff] at last
    rw [last]

/-- The rate and the delay stay, and every batch so far is scheduled. -/
structure Timed (rate delay : ℚ) (s : System Sample) : Prop where
  rated : s.sink.sampleRateHz = rate
  delayed : s.sink.streamingDelay = delay
  scheduled : Scheduled rate delay (s.sent ++ s.activity.pending) s.sink.lastTransmissionEndTime

theorem Timed.pushBatch {rate delay : ℚ} {s : System Sample}
    (rated : s.sink.sampleRateHz = rate) (delayed : s.sink.streamingDelay = delay)
    (scheduled : Scheduled rate delay s.sent s.sink.lastTransmissionEndTime) (now : ℚ)
    (resume : Resume) : Timed rate delay (s.pushBatch now resume) := by
  subst rated delayed
  rcases pushBatch_cases s now resume with ⟨_, pushed⟩ | ⟨_, pushed⟩
  · rw [pushed]
    refine ⟨rfl, rfl, ?_⟩
    cases resume with
    | loop | finish =>
        simp only [Resume.activity, Activity.pending, List.append_nil]
        exact scheduled
  · rw [pushed]
    exact ⟨rfl, rfl, scheduled.add now⟩

theorem Timed.step {rate delay : ℚ} {s s' : System Sample} {event : Event Sample}
    (timed : Timed rate delay s) (stepped : Stepped s event s') : Timed rate delay s' := by
  obtain ⟨rated, delayed, scheduled⟩ := timed
  cases stepped with
  | arrive | inputEnds | rests | receives | pushAccepted | pushDropped | senderStops =>
      exact ⟨rated, delayed, scheduled⟩
  | flushes now idle empty finished =>
      rw [idle, Activity.pending, List.append_nil] at scheduled
      exact Timed.pushBatch rated delayed scheduled now .finish
  | begins now idle =>
      rw [idle] at scheduled
      exact ⟨rated, delayed, scheduled⟩
  | @fills now inputLen consumed draining more =>
      rw [draining, Activity.pending, List.append_nil] at scheduled
      rw [System.fillBuffer]
      split
      · exact Timed.pushBatch (s := s.filled inputLen consumed) rated delayed scheduled now _
      · refine ⟨rated, delayed, ?_⟩
        rw [System.filled, Activity.pending, List.append_nil]
        exact scheduled
  | leaves now draining done unended =>
      rw [draining] at scheduled
      exact ⟨rated, delayed, scheduled⟩
  | @finishes now inputLen draining finished =>
      rw [draining, Activity.pending, List.append_nil] at scheduled
      exact Timed.pushBatch (s := { s with input := s.input.drop inputLen }) rated delayed
        scheduled now .finish
  | @sends batch resume sending | @sendFails batch resume sending =>
      rw [sending] at scheduled
      refine ⟨rated, delayed, ?_⟩
      cases resume with
      | loop | finish =>
          simp only [System.handedOver, Resume.activity, Activity.pending, List.append_nil]
          exact scheduled

/-! ## Where every sample is -/

/-- The samples of some batches. -/
def sampleCount (batches : List (Batch Sample)) : Nat :=
  (batches.flatMap Batch.samples).length

/-- What was handed over is accepted, dropped, queued or in flight. -/
def Counted (s : System Sample) : Prop :=
  sampleCount s.sent =
    s.acceptedSamples + s.droppedSamples + sampleCount s.queue + sampleCount s.inFlight.toList

theorem sampleCount_append (earlier later : List (Batch Sample)) :
    sampleCount (earlier ++ later) = sampleCount earlier + sampleCount later := by
  rw [sampleCount, List.flatMap_append, List.length_append]
  rfl

theorem sampleCount_singleton (batch : Batch Sample) :
    sampleCount [batch] = batch.samples.length := by
  rw [sampleCount, List.flatMap_singleton]

theorem pushBatch_counted {s : System Sample} (now : ℚ) (resume : Resume) (counted : Counted s) :
    Counted (s.pushBatch now resume) := by
  rcases pushBatch_cases s now resume with ⟨_, pushed⟩ | ⟨_, pushed⟩
  · rw [pushed]
    exact counted
  · rw [pushed]
    exact counted

theorem counted_step {s s' : System Sample} {event : Event Sample} (counted : Counted s)
    (stepped : Stepped s event s') : Counted s' := by
  cases stepped with
  | arrive | inputEnds | rests | begins | leaves | senderStops => exact counted
  | flushes | finishes =>
      apply pushBatch_counted
      exact counted
  | fills =>
      rw [System.fillBuffer]
      split
      · apply pushBatch_counted
        exact counted
      · exact counted
  | sends sending =>
      rw [Counted] at counted ⊢
      simp only [System.handedOver, sampleCount_append, counted]
      omega
  | sendFails sending =>
      rw [Counted] at counted ⊢
      simp only [System.handedOver, sampleCount_append, sampleCount_singleton, counted]
      omega
  | @receives batch rest free queued =>
      rw [Counted, free, queued] at counted
      rw [Counted, counted, show batch :: rest = [batch] ++ rest from rfl, sampleCount_append]
      simp only [Option.toList]
      have none : sampleCount ([] : List (Batch Sample)) = 0 := rfl
      omega
  | @pushAccepted batch flying | @pushDropped batch outcome flying =>
      rw [Counted, flying] at counted
      simp only [Option.toList, sampleCount_singleton] at counted
      rw [Counted, counted]
      simp only [Option.toList]
      have none : sampleCount ([] : List (Batch Sample)) = 0 := rfl
      omega

/-! ## The end of the input -/

/-- A call reads what was there when it began; once the upstream is done, that is everything. -/
def Ending (input : List Sample) (inputFinished : Bool) : Activity Sample → Prop
  | .draining inputLen _ | .sending _ (.loop inputLen _) =>
    inputLen ≤ input.length ∧ (inputFinished = true → inputLen = input.length)
  | .sending _ .finish | .finished => input = [] ∧ inputFinished = true
  | .idle => True

theorem ending_pushBatch {s : System Sample} (now : ℚ) (resume : Resume)
    (ending : Ending s.input s.inputFinished (resume.activity : Activity Sample)) :
    Ending (s.pushBatch now resume).input (s.pushBatch now resume).inputFinished
      (s.pushBatch now resume).activity := by
  rcases pushBatch_cases s now resume with ⟨_, pushed⟩ | ⟨_, pushed⟩
  · rw [pushed]
    exact ending
  · rw [pushed]
    cases resume with
    | loop | finish => exact ending

/-- What arrives during a call is left to the next one. -/
theorem Ending.arrive {input : List Sample} {inputFinished : Bool} {activity : Activity Sample}
    (ending : Ending input inputFinished activity) (samples : List Sample)
    (unfinished : inputFinished = false) :
    Ending (input ++ samples) inputFinished activity := by
  subst unfinished
  have still {inputLen : Nat} (within : inputLen ≤ input.length) :
      inputLen ≤ (input ++ samples).length ∧
        (false = true → inputLen = (input ++ samples).length) := by
    refine ⟨?_, fun ended => absurd ended Bool.false_ne_true⟩
    rw [List.length_append]
    omega
  cases activity with
  | idle => trivial
  | draining inputLen consumed => exact still ending.1
  | finished => exact absurd ending.2 Bool.false_ne_true
  | sending batch resume =>
      cases resume with
      | loop inputLen consumed => exact still ending.1
      | finish => exact absurd ending.2 Bool.false_ne_true

theorem ending_step {s s' : System Sample} {event : Event Sample}
    (ending : Ending s.input s.inputFinished s.activity) (stepped : Stepped s event s') :
    Ending s'.input s'.inputFinished s'.activity := by
  cases stepped with
  | arrive samples unfinished =>
      exact ending.arrive samples unfinished
  | inputEnds idle =>
      simp only [idle]
      trivial
  | rests | receives | pushAccepted | pushDropped | senderStops => exact ending
  | flushes now idle empty finished => exact ending_pushBatch now .finish ⟨empty, finished⟩
  | begins now idle => exact ⟨Nat.le_refl _, fun _ => rfl⟩
  | fills now draining more =>
      rw [draining] at ending
      rw [System.fillBuffer]
      split
      · exact ending_pushBatch now _ ending
      · exact ending
  | leaves now draining done unended => trivial
  | @finishes now inputLen draining finished =>
      rw [draining] at ending
      refine ending_pushBatch (s := { s with input := s.input.drop inputLen }) now .finish
        ⟨?_, finished⟩
      rw [ending.2 finished]
      exact List.drop_length
  | @sends batch resume sending | @sendFails batch resume sending =>
      rw [sending] at ending
      cases resume with
      | loop | finish => exact ending

/-! ## Every call ends -/

/-- How many more events a call can take, the sender task's included. -/
def Activity.left : Activity Sample → Nat
  | .idle | .finished => 0
  | .draining inputLen consumed => 4 + 4 * (inputLen - consumed)
  | .sending _ (.loop inputLen consumed) => 7 + 4 * (inputLen - consumed)
  | .sending _ .finish => 3

def System.left (s : System Sample) : Nat :=
  s.activity.left + 2 * s.queue.length + s.inFlight.toList.length

/-- The events by which the block and the sender task go on. -/
def Event.goesOn : Event Sample → Bool
  | .fill _ | .leave _ | .send | .receive | .pushEnds _ => true
  | .arrive _ | .inputEnds | .work _ | .senderStops => false

/-- The events of one call: all but the beginning of the next. -/
def Event.withinCall : Event Sample → Bool
  | .work _ => false
  | _ => true

/-- All that holds along every run. -/
structure Batching (size : Nat) (rate delay : ℚ) (s : System Sample) : Prop where
  streams : Streams s s.activity.consumed
  sized : Sized size s
  timed : Timed rate delay s
  counted : Counted s
  ending : Ending s.input s.inputFinished s.activity

theorem Batching.start (rate : ℚ) (bufferSize : Nat) (delay now : ℚ) :
    Batching (max bufferSize 1) rate delay
      (System.start (HttpSink.new rate bufferSize delay now) : System Sample) where
  streams := ⟨rfl, rfl, Nat.le_refl 0⟩
  sized := {
    bufferSize := rfl
    positive := lt_max_of_lt_right Nat.one_pos
    room := lt_max_of_lt_right Nat.one_pos
    full := fun _ inside => absurd inside List.not_mem_nil }
  timed := {
    rated := rfl
    delayed := rfl
    scheduled := {
      each := fun _ inside => absurd inside List.not_mem_nil
      apart := .nil
      next := fun batch last => absurd last (Option.not_mem_none batch) } }
  counted := rfl
  ending := trivial

theorem Batching.step {size : Nat} {rate delay : ℚ} (s : System Sample) (event : Event Sample)
    (s' : System Sample) (batching : Batching size rate delay s)
    (stepped : s.step event = some s') : Batching size rate delay s' where
  streams := batching.streams.step batching.sized.room.pending (step_stepped stepped)
  sized := batching.sized.step (step_stepped stepped)
  timed := batching.timed.step (step_stepped stepped)
  counted := counted_step batching.counted (step_stepped stepped)
  ending := ending_step batching.ending (step_stepped stepped)

theorem Batching.run {size : Nat} {rate delay : ℚ} {s s' : System Sample}
    {events : List (Event Sample)} (batching : Batching size rate delay s)
    (ran : s.run events = some s') : Batching size rate delay s' :=
  Machine.run_keeps Batching.step batching ran

/-- A round of the loop takes at least one sample: the buffer has room between two rounds. -/
theorem Batching.toTake_pos {size : Nat} {rate delay : ℚ} {s : System Sample}
    (batching : Batching size rate delay s) {inputLen consumed : Nat}
    (draining : s.activity = .draining inputLen consumed) (more : consumed < inputLen) :
    0 < s.toTake consumed := by
  have room := batching.sized.room
  have ending := batching.ending
  rw [draining] at room ending
  have space : s.sink.sampleBuffer.length < s.sink.bufferSize := by
    rw [batching.sized.bufferSize]
    exact room
  have within := ending.1
  rw [System.toTake]
  omega

theorem pushBatch_left (s : System Sample) (now : ℚ) (resume : Resume) :
    (s.pushBatch now resume).left + s.activity.left ≤
      s.left + (resume.activity : Activity Sample).left + 3 := by
  rcases pushBatch_cases s now resume with ⟨_, pushed⟩ | ⟨_, pushed⟩
  · rw [pushed]
    simp only [System.left]
    omega
  · rw [pushed]
    cases resume with
    | loop | finish =>
        simp only [System.left, Resume.activity, Activity.left]
        omega

theorem handedOver_left (batch : Batch Sample) (resume : Resume) :
    (resume.activity : Activity Sample).left + 3 = (Activity.sending batch resume).left := by
  cases resume with
  | loop inputLen consumed =>
      simp only [Resume.activity, Activity.left]
      omega
  | finish => rfl

/-- Every event by which a call goes on brings its end nearer, and no other puts it off. -/
theorem Batching.spends {size : Nat} {rate delay : ℚ} (s : System Sample) (event : Event Sample)
    (s' : System Sample) (batching : Batching size rate delay s)
    (inCall : event.withinCall = true) (stepped : s.step event = some s') :
    s'.left + (if event.goesOn then 1 else 0) ≤ s.left := by
  cases step_stepped stepped with
  | rests | flushes | begins => cases inCall
  | arrive | inputEnds | senderStops => exact Nat.le_refl _
  | @fills now inputLen consumed draining more =>
      have taken := batching.toTake_pos draining more
      have here : s.left = 4 + 4 * (inputLen - consumed) + 2 * s.queue.length +
          s.inFlight.toList.length := by
        rw [System.left, draining, Activity.left]
      have filled : (s.filled inputLen consumed).left + 4 ≤ s.left := by
        rw [here]
        simp only [System.left, System.filled, Activity.left]
        omega
      rw [System.fillBuffer]
      split
      · have pushed := pushBatch_left (s.filled inputLen consumed) now
          (.loop inputLen (consumed + s.toTake consumed))
        have same : (s.filled inputLen consumed).activity =
          (Resume.loop inputLen (consumed + s.toTake consumed)).activity := rfl
        rw [same] at pushed
        simp only [Event.goesOn, if_true]
        omega
      · simp only [Event.goesOn, if_true]
        omega
  | @leaves now inputLen consumed draining done unended =>
      simp only [System.left, draining, Activity.left, Event.goesOn, if_true]
      omega
  | @finishes now inputLen draining finished =>
      have pushed := pushBatch_left { s with input := s.input.drop inputLen } now .finish
      simp only [System.left, draining, Activity.left, Resume.activity] at pushed
      simp only [System.left, draining, Activity.left, Event.goesOn, if_true]
      omega
  | @sends batch resume sending | @sendFails batch resume sending =>
      have here := handedOver_left batch resume
      simp only [System.left, System.handedOver, sending, Event.goesOn, if_true,
        List.length_append, List.length_singleton]
      omega
  | @receives batch rest free queued =>
      simp only [System.left, free, queued, Option.toList, Event.goesOn, if_true,
        List.length_cons, List.length_nil]
      omega
  | @pushAccepted batch flying | @pushDropped batch outcome flying =>
      simp only [System.left, flying, Option.toList, Event.goesOn, if_true, List.length_cons,
        List.length_nil]
      omega

/-- A call that is not over can go on: where the block waits for room in a full channel, the
sender task is the one to move. -/
theorem goes_on (s : System Sample) (idle : s.activity ≠ .idle)
    (unfinished : s.activity ≠ .finished) :
    ∃ event : Event Sample, event.goesOn = true ∧ (s.step event).isSome := by
  cases at_ : s.activity with
  | idle => exact absurd at_ idle
  | finished => exact absurd at_ unfinished
  | draining inputLen consumed =>
      by_cases more : consumed < inputLen
      · refine ⟨.fill 0, rfl, ?_⟩
        simp only [System.step, at_, if_pos more, Option.isSome_some]
      · refine ⟨.leave 0, rfl, ?_⟩
        simp only [System.step, at_, if_neg more]
        split
        · rfl
        · rfl
  | sending batch resume =>
      by_cases dead : s.senderLives = false
      · refine ⟨.send, rfl, ?_⟩
        simp [System.step, at_, dead]
      · have lives : s.senderLives = true := Bool.eq_true_of_not_eq_false dead
        by_cases room : s.queue.length < channelCapacity
        · refine ⟨.send, rfl, ?_⟩
          simp [System.step, at_, lives, room]
        · cases flying : s.inFlight with
          | some batch =>
              refine ⟨.pushEnds .accepted, rfl, ?_⟩
              simp [System.step, lives, flying]
          | none =>
              cases queued : s.queue with
              | nil =>
                  rw [queued] at room
                  exact absurd (Nat.zero_lt_succ 15) room
              | cons batch rest =>
                  refine ⟨.receive, rfl, ?_⟩
                  simp [System.step, lives, flying, queued]

theorem pushBatch_busy {s : System Sample} (now : ℚ) (resume : Resume) :
    (s.pushBatch now resume).activity ≠ .idle := by
  rcases pushBatch_cases s now resume with ⟨_, pushed⟩ | ⟨_, pushed⟩
  · rw [pushed]
    cases resume with
    | loop | finish => exact fun idle => by cases idle
  · rw [pushed]
    exact fun idle => by cases idle

/-- Once the upstream is done a call does not return without having finished the block. -/
theorem Batching.finishes {size : Nat} {rate delay : ℚ} {s s' : System Sample}
    {event : Event Sample} (batching : Batching size rate delay s)
    (finished : s.inputFinished = true) (stepped : s.step event = some s')
    (idle : s'.activity = .idle) : s.activity = .idle ∧ event.withinCall = true := by
  have within := batching.streams.within
  have ending := batching.ending
  cases step_stepped stepped with
  | arrive | inputEnds | receives | pushAccepted | pushDropped | senderStops =>
      exact ⟨idle, rfl⟩
  | rests now unfinished =>
      rw [finished] at unfinished
      cases unfinished
  | flushes | finishes => exact absurd idle (pushBatch_busy _ _)
  | begins => cases idle
  | fills =>
      rw [System.fillBuffer] at idle
      split at idle
      · exact absurd idle (pushBatch_busy _ _)
      · cases idle
  | @leaves now inputLen consumed draining done unended =>
      rw [draining] at within ending
      have whole := ending.2 finished
      have within : consumed ≤ s.input.length := within
      exact absurd (by omega) (unended finished)
  | @sends batch resume sending | @sendFails batch resume sending =>
      cases resume with
      | loop | finish => cases idle

/-- The batches are the input in order, cut to size, scheduled apart and accounted for, and every
call ends, the last one with an empty buffer. -/
theorem transmit_batching (sampleRateHz streamingDelay now : ℚ) (bufferSize : Nat)
    {events : List (Event Sample)} {s : System Sample}
    (ran : (System.start (HttpSink.new sampleRateHz bufferSize streamingDelay now)).run events =
      some s) :
    (s.sent.flatMap Batch.samples ++ s.sink.sampleBuffer = s.taken ∧ s.taken <+: s.arrived) ∧
      (s.activity = .finished → s.sent.flatMap Batch.samples = s.arrived ∧
        s.sink.sampleBuffer = []) ∧
      ((∀ batch ∈ s.sent, 0 < batch.samples.length ∧
          batch.samples.length ≤ max bufferSize 1) ∧
        (∀ batch ∈ s.sent.dropLast, batch.samples.length = max bufferSize 1) ∧
        (s.activity ≠ .finished → ∀ batch ∈ s.sent,
          batch.samples.length = max bufferSize 1)) ∧
      ((∀ batch ∈ s.sent, batch.clock + streamingDelay ≤ batch.startTime ∧
          batch.endTime = batch.startTime + batch.samples.length / sampleRateHz) ∧
        s.sent.IsChain fun earlier later =>
          earlier.endTime + 1 / sampleRateHz ≤ later.startTime) ∧
      s.taken.length = s.acceptedSamples + s.droppedSamples + sampleCount s.queue +
        sampleCount s.inFlight.toList + s.sink.sampleBuffer.length ∧
      (∀ (more : List (Event Sample)) (s' : System Sample),
        (∀ event ∈ more, event.withinCall = true) → s.run more = some s' →
          (more.filter Event.goesOn).length ≤ s.left) ∧
      (s.activity ≠ .idle → s.activity ≠ .finished →
        ∃ event : Event Sample, event.goesOn = true ∧ (s.step event).isSome) ∧
      (s.inputFinished = true → ∀ (event : Event Sample) (s' : System Sample),
        s.step event = some s' → s'.activity = .idle →
          s.activity = .idle ∧ event.withinCall = true) := by
  have batching := (Batching.start sampleRateHz bufferSize streamingDelay now).run ran
  have order := batching.streams.order
  have unread := batching.streams.unread
  refine ⟨⟨order, _, unread⟩, ?_, ?_, ⟨?_, ?_⟩, ?_, ?_, goes_on s, ?_⟩
  · intro finished
    have room := batching.sized.room
    have ending := batching.ending
    rw [finished] at room ending unread
    have empty : s.sink.sampleBuffer = [] := room
    rw [ending.1, List.drop_nil, List.append_nil] at unread
    rw [empty, List.append_nil, unread] at order
    exact ⟨order, empty⟩
  · exact batching.sized.sizes
  · intro batch inside
    exact batching.timed.scheduled.each batch (List.mem_append_left _ inside)
  · exact (List.isChain_append.mp batching.timed.scheduled.apart).1
  · have counted := batching.counted
    rw [Counted] at counted
    rw [← order, List.length_append, ← counted, sampleCount]
  · intro more s' inCall went
    have spent := Machine.run_spends Batching.step Batching.spends batching inCall went
    omega
  · intro finished event s' stepped idle
    exact batching.finishes finished stepped idle

/-- Three samples through a buffer of two, the last of them flushed at the upstream's end and
the first two lost to a push that timed out. -/
theorem transmit_batching_flush :
    ∃ s : System Nat, (System.start (HttpSink.new 1 2 1 0)).run
        [.arrive [5, 6, 7], .work 0, .fill 3, .send, .receive, .fill 3, .leave 3, .inputEnds,
          .work 4, .send, .pushEnds .timedOut] = some s ∧
      s.taken.length = s.acceptedSamples + s.droppedSamples + sampleCount s.queue +
        sampleCount s.inFlight.toList + s.sink.sampleBuffer.length ∧
      s.droppedSamples = 2 := by
  have dropped : ((System.start (HttpSink.new 1 2 1 0)).run
      [.arrive [5, 6, 7], .work 0, .fill 3, .send, .receive, .fill 3, .leave 3, .inputEnds,
        .work 4, .send, .pushEnds .timedOut]).map System.droppedSamples = some 2 := by
    decide +kernel
  obtain ⟨s, ran, two⟩ := Option.map_eq_some_iff.mp dropped
  exact ⟨s, ran, (transmit_batching 1 1 0 2 ran).2.2.2.2.1, two⟩

end SdrAaronia.HttpSink
