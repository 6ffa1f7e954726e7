import SdrAaronia.Error
import SdrAaronia.HttpStreaming.Metadata

/-! # The unified source over HTTP

A reader task drains the connection into a channel; a read takes packets off the
channel until it has enough samples, meets a boundary, or runs out of time.
-/

namespace SdrAaronia

open HttpStreaming

/-- One item of the reader channel. -/
structure ChannelPacket (Sample : Type) where
  samples : List Sample
  /-- The reader task's drop detector saw a gap ending at this packet. -/
  dropped : Bool
  cumulativeDrops : Nat
  timestampNs : Int
  frequencyHz : F64
  rateHz : F64
  deriving DecidableEq, Repr

inductive ReaderTask where
  | running
  | finished
  deriving DecidableEq, Repr

structure SpectranSource (Sample : Type) where
  configSampleRateHz : F64
  sampleBuffer : List Sample
  sampleBufferFreqHz : F64
  sampleBufferRateHz : F64
  /-- Whether the stashed samples begin right after a break in the stream. -/
  sampleBufferAfterGap : Bool
  lastReadFrequencyHz : F64
  lastReadSampleRateHz : F64
  httpRateBits : Option F64
  /-- The packets waiting in the channel, when there is a receiver. -/
  httpReceiver : Option (List (ChannelPacket Sample))
  httpTask : Option ReaderTask
  pendingOverrun : Bool
  cumulativeDrops : Nat
  lastTimestampNs : Int
  deriving DecidableEq, Repr

namespace SpectranSource

variable {Sample : Type}

def new (configSampleRateHz : F64) : SpectranSource Sample where
  configSampleRateHz
  sampleBuffer := []
  sampleBufferFreqHz := 0
  sampleBufferRateHz := 0
  sampleBufferAfterGap := false
  lastReadFrequencyHz := 0
  lastReadSampleRateHz := 0
  httpRateBits := none
  httpReceiver := none
  httpTask := none
  pendingOverrun := false
  cumulativeDrops := 0
  lastTimestampNs := 0

/-- `reached` is what the network made of the connection test and the initial
tuning; the reader task and its channel exist only once both went through. -/
def initHttpSource (s : SpectranSource Sample) (reached : Except Error Unit) :
    Except Error Unit × SpectranSource Sample :=
  match reached with
  | .error e => (.error e, s)
  | .ok () =>
      (.ok (), { s with
        httpRateBits := some 0
        httpReceiver := some []
        httpTask := some .running })

def readerAlive (s : SpectranSource Sample) : Bool :=
  s.httpReceiver.isSome && s.httpTask == some .running

def startStreaming (s : SpectranSource Sample) (reached : Except Error Unit) :
    Except Error Unit × SpectranSource Sample :=
  if s.readerAlive then
    (.ok (), s)
  else
    { s with httpTask := none, sampleBuffer := [], pendingOverrun := false }.initHttpSource reached

def stopStreaming (s : SpectranSource Sample) : SpectranSource Sample :=
  { s with httpTask := none, httpReceiver := none, httpRateBits := none }

def takeOverrun (s : SpectranSource Sample) : Bool × SpectranSource Sample :=
  (s.pendingOverrun, { s with pendingOverrun := false })

def sampleRateHz (s : SpectranSource Sample) : F64 :=
  let observed := s.httpRateBits.getD 0
  if 0 < observed then observed else s.configSampleRateHz

def captureFrequencyHz (s : SpectranSource Sample) : F64 :=
  s.lastReadFrequencyHz

def captureSampleRateHz (s : SpectranSource Sample) : F64 :=
  if s.lastReadSampleRateHz.isFinite ∧ 0 < s.lastReadSampleRateHz then
    s.lastReadSampleRateHz
  else
    s.sampleRateHz

/-- Hold samples for the next read, under the geometry given. -/
def stash (s : SpectranSource Sample) (samples : List Sample) (freqHz rateHz : F64) :
    SpectranSource Sample :=
  { s with
    sampleBuffer := s.sampleBuffer ++ samples
    sampleBufferFreqHz := freqHz
    sampleBufferRateHz := rateHz }

/-- The drop count and timestamp a packet carries. -/
def notePacket (s : SpectranSource Sample) (packet : ChannelPacket Sample) :
    SpectranSource Sample :=
  { s with
    cumulativeDrops := packet.cumulativeDrops
    lastTimestampNs := packet.timestampNs }

end SpectranSource

/-! ## One read -/

/-- The locals of a read in progress. -/
structure Batch (Sample : Type) where
  source : SpectranSource Sample
  buffer : List Sample
  collected : Nat
  freqHz : F64
  rateHz : F64

/-- Whether the receive loop goes on after a packet. -/
inductive Flow where
  | next
  | stop
  deriving DecidableEq, Repr

/-- What ended the receive loop. -/
inductive Halt where
  | full
  | boundary
  /-- The next `recv` has no packet to give. -/
  | waiting
  deriving DecidableEq, Repr

/-- A centre or rate that differs from the one of the samples in hand. -/
def retuned {Sample : Type} (freqHz rateHz : F64) (packet : ChannelPacket Sample) : Bool :=
  decide (0 < packet.frequencyHz ∧ 0 < freqHz ∧ 1 < (packet.frequencyHz - freqHz).abs) ||
    decide (0 < packet.rateHz ∧ 0 < rateHz) && rateMoved rateHz packet.rateHz

/-- A geometry still unset is set by the packet. -/
def seeded (known fromPacket : F64) : F64 :=
  if known = 0 then fromPacket else known

namespace Batch

variable {Sample : Type}

/-- The read starts with what the last one left over. -/
def begin (s : SpectranSource Sample) (buffer : List Sample) (maxSamples : Nat) : Batch Sample :=
  let fromBuffer := min s.sampleBuffer.length maxSamples
  let drained := { s with sampleBuffer := s.sampleBuffer.drop fromBuffer }
  { source :=
      if 0 < fromBuffer ∧ s.sampleBufferAfterGap then
        { drained with pendingOverrun := true, sampleBufferAfterGap := false }
      else
        drained
    buffer := buffer ++ s.sampleBuffer.take fromBuffer
    collected := fromBuffer
    freqHz := if 0 < fromBuffer then s.sampleBufferFreqHz else 0
    rateHz := if 0 < fromBuffer then s.sampleBufferRateHz else 0 }

/-- The packet, or as much of it as there is room for. -/
def absorb (maxSamples : Nat) (b : Batch Sample) (packet : ChannelPacket Sample) : Batch Sample :=
  let freqHz := seeded b.freqHz packet.frequencyHz
  let rateHz := seeded b.rateHz packet.rateHz
  let needed := maxSamples - b.collected
  if packet.samples.length ≤ needed then
    { source := b.source
      buffer := b.buffer ++ packet.samples
      collected := b.collected + packet.samples.length
      freqHz
      rateHz }
  else
    { source := b.source.stash (packet.samples.drop needed) freqHz rateHz
      buffer := b.buffer ++ packet.samples.take needed
      collected := b.collected + needed
      freqHz
      rateHz }

/-- One packet off the channel. -/
def receive (maxSamples : Nat) (b : Batch Sample) (packet : ChannelPacket Sample) :
    Batch Sample × Flow :=
  if packet.dropped ∧ 0 < b.collected then
    -- The gap is put on a read boundary: the packet opens the next read.
    let stashed := b.source.stash packet.samples packet.frequencyHz packet.rateHz
    ({ b with source := { stashed with sampleBufferAfterGap := true }.notePacket packet }, .stop)
  else
    let source := if packet.dropped then { b.source with pendingOverrun := true } else b.source
    let noted := source.notePacket packet
    if 0 < b.collected ∧ retuned b.freqHz b.rateHz packet then
      ({ b with source := noted.stash packet.samples packet.frequencyHz packet.rateHz }, .stop)
    else
      ({ b with source := noted }.absorb maxSamples packet, .next)

/-- A packet that breaks the batch, kept whole for the next read. -/
def held (b : Batch Sample) (packet : ChannelPacket Sample) : Batch Sample :=
  let noted := b.source.notePacket packet
  { b with source :=
      { noted.stash packet.samples packet.frequencyHz packet.rateHz with
        sampleBufferAfterGap := packet.dropped || b.source.sampleBufferAfterGap } }

/-- A packet that joins the batch, before its samples do. -/
def joined (b : Batch Sample) (packet : ChannelPacket Sample) : Batch Sample :=
  { b with source :=
      { b.source.notePacket packet with
        pendingOverrun := packet.dropped || b.source.pendingOverrun } }

/-- A packet is held when it may not follow the samples in hand, and joins them
otherwise. -/
theorem receive_eq (maxSamples : Nat) (b : Batch Sample) (packet : ChannelPacket Sample) :
    b.receive maxSamples packet =
      if 0 < b.collected ∧ (packet.dropped ∨ retuned b.freqHz b.rateHz packet) then
        (b.held packet, .stop)
      else
        ((b.joined packet).absorb maxSamples packet, .next) := by
  unfold receive
  by_cases collecting : 0 < b.collected
  · cases flagged : packet.dropped with
    | true => simp [collecting, flagged, held, SpectranSource.stash, SpectranSource.notePacket]
    | false =>
        simp [collecting, flagged, held, joined, SpectranSource.stash, SpectranSource.notePacket]
  · cases flagged : packet.dropped <;>
      simp [collecting, flagged, joined, SpectranSource.notePacket]

/-- The receive loop over the packets that come in time, with those it leaves. -/
def receiveLoop (maxSamples : Nat) :
    Batch Sample → List (ChannelPacket Sample) →
      Batch Sample × Halt × List (ChannelPacket Sample)
  | b, [] => (b, if b.collected < maxSamples then .waiting else .full, [])
  | b, packet :: rest =>
      if b.collected < maxSamples then
        match b.receive maxSamples packet with
        | (b', .next) => receiveLoop maxSamples b' rest
        | (b', .stop) => (b', .boundary, rest)
      else
        (b, .full, packet :: rest)

/-! What a packet does to the batch -/

@[simp] theorem held_buffer (b : Batch Sample) (packet : ChannelPacket Sample) :
    (b.held packet).buffer = b.buffer := rfl
@[simp] theorem held_collected (b : Batch Sample) (packet : ChannelPacket Sample) :
    (b.held packet).collected = b.collected := rfl
@[simp] theorem held_freqHz (b : Batch Sample) (packet : ChannelPacket Sample) :
    (b.held packet).freqHz = b.freqHz := rfl
@[simp] theorem held_rateHz (b : Batch Sample) (packet : ChannelPacket Sample) :
    (b.held packet).rateHz = b.rateHz := rfl
@[simp] theorem held_sampleBuffer (b : Batch Sample) (packet : ChannelPacket Sample) :
    (b.held packet).source.sampleBuffer = b.source.sampleBuffer ++ packet.samples := rfl
@[simp] theorem held_sampleBufferFreqHz (b : Batch Sample) (packet : ChannelPacket Sample) :
    (b.held packet).source.sampleBufferFreqHz = packet.frequencyHz := rfl
@[simp] theorem held_sampleBufferRateHz (b : Batch Sample) (packet : ChannelPacket Sample) :
    (b.held packet).source.sampleBufferRateHz = packet.rateHz := rfl
@[simp] theorem held_sampleBufferAfterGap (b : Batch Sample) (packet : ChannelPacket Sample) :
    (b.held packet).source.sampleBufferAfterGap =
      (packet.dropped || b.source.sampleBufferAfterGap) := rfl
@[simp] theorem held_pendingOverrun (b : Batch Sample) (packet : ChannelPacket Sample) :
    (b.held packet).source.pendingOverrun = b.source.pendingOverrun := rfl

@[simp] theorem joined_buffer (b : Batch Sample) (packet : ChannelPacket Sample) :
    (b.joined packet).buffer = b.buffer := rfl
@[simp] theorem joined_collected (b : Batch Sample) (packet : ChannelPacket Sample) :
    (b.joined packet).collected = b.collected := rfl
@[simp] theorem joined_freqHz (b : Batch Sample) (packet : ChannelPacket Sample) :
    (b.joined packet).freqHz = b.freqHz := rfl
@[simp] theorem joined_rateHz (b : Batch Sample) (packet : ChannelPacket Sample) :
    (b.joined packet).rateHz = b.rateHz := rfl
@[simp] theorem joined_sampleBuffer (b : Batch Sample) (packet : ChannelPacket Sample) :
    (b.joined packet).source.sampleBuffer = b.source.sampleBuffer := rfl
@[simp] theorem joined_sampleBufferAfterGap (b : Batch Sample) (packet : ChannelPacket Sample) :
    (b.joined packet).source.sampleBufferAfterGap = b.source.sampleBufferAfterGap := rfl
@[simp] theorem joined_pendingOverrun (b : Batch Sample) (packet : ChannelPacket Sample) :
    (b.joined packet).source.pendingOverrun = (packet.dropped || b.source.pendingOverrun) := rfl

section Absorb

variable (maxSamples : Nat) (b : Batch Sample) (packet : ChannelPacket Sample)

@[simp] theorem absorb_buffer :
    (b.absorb maxSamples packet).buffer =
      b.buffer ++ packet.samples.take (maxSamples - b.collected) := by
  by_cases fits : packet.samples.length ≤ maxSamples - b.collected
  · simp [absorb, fits, List.take_of_length_le fits]
  · simp [absorb, fits]

@[simp] theorem absorb_collected :
    (b.absorb maxSamples packet).collected =
      b.collected + min (maxSamples - b.collected) packet.samples.length := by
  by_cases fits : packet.samples.length ≤ maxSamples - b.collected
  · simp [absorb, fits]
  · simp [absorb, fits, Nat.le_of_not_le fits]

@[simp] theorem absorb_freqHz :
    (b.absorb maxSamples packet).freqHz = seeded b.freqHz packet.frequencyHz := by
  simp only [absorb, apply_ite Batch.freqHz, ite_self]

@[simp] theorem absorb_rateHz :
    (b.absorb maxSamples packet).rateHz = seeded b.rateHz packet.rateHz := by
  simp only [absorb, apply_ite Batch.rateHz, ite_self]

@[simp] theorem absorb_sampleBuffer :
    (b.absorb maxSamples packet).source.sampleBuffer =
      b.source.sampleBuffer ++ packet.samples.drop (maxSamples - b.collected) := by
  by_cases fits : packet.samples.length ≤ maxSamples - b.collected
  · simp [absorb, fits, List.drop_of_length_le fits]
  · simp [absorb, fits, SpectranSource.stash]

@[simp] theorem absorb_sampleBufferAfterGap :
    (b.absorb maxSamples packet).source.sampleBufferAfterGap =
      b.source.sampleBufferAfterGap := by
  by_cases fits : packet.samples.length ≤ maxSamples - b.collected <;>
    simp [absorb, fits, SpectranSource.stash]

@[simp] theorem absorb_pendingOverrun :
    (b.absorb maxSamples packet).source.pendingOverrun = b.source.pendingOverrun := by
  by_cases fits : packet.samples.length ≤ maxSamples - b.collected <;>
    simp [absorb, fits, SpectranSource.stash]

/-- What does not fit is held under the geometry of the batch. -/
theorem absorb_tags (exceeds : maxSamples - b.collected < packet.samples.length) :
    (b.absorb maxSamples packet).source.sampleBufferFreqHz =
        seeded b.freqHz packet.frequencyHz ∧
      (b.absorb maxSamples packet).source.sampleBufferRateHz = seeded b.rateHz packet.rateHz := by
  simp [absorb, Nat.not_le.mpr exceeds, SpectranSource.stash]

end Absorb

section Begin

variable (s : SpectranSource Sample) (buffer : List Sample) (maxSamples : Nat)

@[simp] theorem begin_collected :
    (begin s buffer maxSamples).collected = min s.sampleBuffer.length maxSamples := rfl

@[simp] theorem begin_buffer :
    (begin s buffer maxSamples).buffer = buffer ++ s.sampleBuffer.take maxSamples := by
  simp [begin, List.take_eq_take_iff, Nat.min_comm]

@[simp] theorem begin_sampleBuffer :
    (begin s buffer maxSamples).source.sampleBuffer = s.sampleBuffer.drop maxSamples := by
  have drained : s.sampleBuffer.drop (min s.sampleBuffer.length maxSamples) =
      s.sampleBuffer.drop maxSamples := by
    rcases Nat.le_total s.sampleBuffer.length maxSamples with short | long
    · rw [Nat.min_eq_left short, List.drop_length, List.drop_of_length_le short]
    · rw [Nat.min_eq_right long]
  simp only [begin, apply_ite SpectranSource.sampleBuffer, drained, ite_self]

/-- A stash behind a gap hands its flag to the read that begins with it. -/
theorem begin_flags_some (some : 0 < min s.sampleBuffer.length maxSamples) :
    (begin s buffer maxSamples).source.pendingOverrun =
        (s.sampleBufferAfterGap || s.pendingOverrun) ∧
      (begin s buffer maxSamples).source.sampleBufferAfterGap = false := by
  cases flagged : s.sampleBufferAfterGap <;> simp [begin, flagged, some]

theorem begin_flags_none (none : ¬0 < min s.sampleBuffer.length maxSamples) :
    (begin s buffer maxSamples).source.pendingOverrun = s.pendingOverrun ∧
      (begin s buffer maxSamples).source.sampleBufferAfterGap = s.sampleBufferAfterGap := by
  simp only [begin, none, false_and, if_false, and_self]

theorem begin_tags :
    (begin s buffer maxSamples).source.sampleBufferFreqHz = s.sampleBufferFreqHz ∧
      (begin s buffer maxSamples).source.sampleBufferRateHz = s.sampleBufferRateHz := by
  simp only [begin, apply_ite SpectranSource.sampleBufferFreqHz,
    apply_ite SpectranSource.sampleBufferRateHz, ite_self, and_self]

end Begin

/-! ## The loop -/

/-- A read of nothing takes nothing. -/
theorem receiveLoop_zero (b : Batch Sample) (arrivals : List (ChannelPacket Sample)) :
    b.receiveLoop 0 arrivals = (b, .full, arrivals) := by
  cases arrivals with
  | nil => rw [receiveLoop, if_neg (Nat.not_lt_zero _)]
  | cons packet rest => rw [receiveLoop, if_neg (Nat.not_lt_zero _)]

/-- The rule for the receive loop: an invariant of the packets taken, the batch,
and the packets still to come holds at the end, unless a packet was held; then
what holding it establishes does. -/
theorem receiveLoop_rule {maxSamples : Nat}
    (Inv : List (ChannelPacket Sample) → Batch Sample → List (ChannelPacket Sample) → Prop)
    (Held : List (ChannelPacket Sample) → Batch Sample → Prop)
    (join : ∀ got b packet rest, Inv got b (packet :: rest) → b.collected < maxSamples →
      ¬(0 < b.collected ∧ (packet.dropped ∨ retuned b.freqHz b.rateHz packet)) →
      Inv (got ++ [packet]) ((b.joined packet).absorb maxSamples packet) rest)
    (hold : ∀ got b packet rest, Inv got b (packet :: rest) → b.collected < maxSamples →
      0 < b.collected → packet.dropped ∨ retuned b.freqHz b.rateHz packet →
      Held (got ++ [packet]) (b.held packet))
    (arrivals : List (ChannelPacket Sample)) (b : Batch Sample)
    (got : List (ChannelPacket Sample)) (start : Inv got b arrivals) :
    ∃ b' halt rest taken, b.receiveLoop maxSamples arrivals = (b', halt, rest) ∧
      arrivals = taken ++ rest ∧
      match halt with
      | .full => maxSamples ≤ b'.collected ∧ Inv (got ++ taken) b' rest
      | .waiting => b'.collected < maxSamples ∧ rest = [] ∧ Inv (got ++ taken) b' rest
      | .boundary => Held (got ++ taken) b' := by
  induction arrivals generalizing b got with
  | nil =>
      rw [receiveLoop]
      by_cases room : b.collected < maxSamples
      · exact ⟨b, .waiting, [], [], by rw [if_pos room], rfl, room, rfl, by rwa [List.append_nil]⟩
      · exact ⟨b, .full, [], [], by rw [if_neg room], rfl, Nat.not_lt.mp room,
          by rwa [List.append_nil]⟩
  | cons packet rest ih =>
      rw [receiveLoop]
      by_cases room : b.collected < maxSamples
      · rw [if_pos room, receive_eq]
        by_cases breaks : 0 < b.collected ∧ (packet.dropped ∨ retuned b.freqHz b.rateHz packet)
        · rw [if_pos breaks]
          exact ⟨_, _, rest, [packet], rfl, rfl,
            hold got b packet rest start room breaks.1 breaks.2⟩
        · rw [if_neg breaks]
          obtain ⟨b', halt, left, taken, loop, cut, final⟩ :=
            ih _ _ (join got b packet rest start room breaks)
          rw [List.append_assoc] at final
          exact ⟨b', halt, left, packet :: taken, loop, by rw [cut, List.cons_append], final⟩
      · rw [if_neg room]
        exact ⟨b, .full, packet :: rest, [], rfl, rfl, Nat.not_lt.mp room,
          by rwa [List.append_nil]⟩

/-- The geometry a read that returns samples reports. -/
def report (b : Batch Sample) (source : SpectranSource Sample) : SpectranSource Sample :=
  { source with
    lastReadFrequencyHz := if 0 < b.freqHz then b.freqHz else source.lastReadFrequencyHz
    lastReadSampleRateHz := if 0 < b.collected then b.rateHz else source.lastReadSampleRateHz }

end Batch

structure ReadOutcome (Sample : Type) where
  result : Except Error Nat
  buffer : List Sample
  source : SpectranSource Sample

/-- A read whose deadline passes once it has taken `inTime` packets, if it has
to ask for more.  A channel without a packet is closed when its reader task is
gone. -/
def SpectranSource.readSamplesDeadline {Sample : Type} (s : SpectranSource Sample)
    (buffer : List Sample) (maxSamples inTime : Nat) : ReadOutcome Sample :=
  match s.httpReceiver with
  | none => ⟨.error (.config "HTTP receiver not initialized"), buffer, s⟩
  | some queue =>
      match (Batch.begin s buffer maxSamples).receiveLoop maxSamples (queue.take inTime) with
      | (b, halt, rest) =>
          let closed := decide (queue.length < inTime) && s.httpTask != some .running
          let source := { b.source with httpReceiver := some (rest ++ queue.drop inTime) }
          if halt = .waiting ∧ closed ∧ b.collected = 0 then
            ⟨.error (.streamClosed "HTTP sample stream closed (reader task ended)"),
              b.buffer, source⟩
          else if b.collected = 0 ∧ 0 < maxSamples then
            ⟨.error (.timedOut "no samples arrived within the read deadline"), b.buffer, source⟩
          else
            ⟨.ok (b.buffer.length - buffer.length), b.buffer, b.report source⟩

/-- How a read on an open channel ends. -/
theorem SpectranSource.readSamplesDeadline_cases {Sample : Type} {s : SpectranSource Sample}
    {queue rest : List (ChannelPacket Sample)} {b : Batch Sample} {halt : Halt}
    {buffer : List Sample} {maxSamples inTime : Nat} (channel : s.httpReceiver = some queue)
    (loop : (Batch.begin s buffer maxSamples).receiveLoop maxSamples (queue.take inTime) =
      (b, halt, rest)) :
    (∃ error, b.collected = 0 ∧ (halt = .waiting ∨ 0 < maxSamples) ∧
      s.readSamplesDeadline buffer maxSamples inTime =
        ⟨.error error, b.buffer,
          { b.source with httpReceiver := some (rest ++ queue.drop inTime) }⟩) ∨
      (b.collected = 0 → maxSamples = 0) ∧ s.readSamplesDeadline buffer maxSamples inTime =
        ⟨.ok (b.buffer.length - buffer.length), b.buffer,
          b.report { b.source with httpReceiver := some (rest ++ queue.drop inTime) }⟩ := by
  simp only [readSamplesDeadline, channel, loop]
  split
  · next shut => exact .inl ⟨_, shut.2.2, .inl shut.1, rfl⟩
  · split
    · next late => exact .inl ⟨_, late.1, .inr late.2, rfl⟩
    · next enough => exact .inr ⟨fun none => Nat.eq_zero_of_not_pos fun room =>
        enough ⟨none, room⟩, rfl⟩

end SdrAaronia
