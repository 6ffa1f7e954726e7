import Mathlib.Algebra.Order.Field.Rat
import Mathlib.Data.Rat.Defs
import SdrAaronia.Lib.Machine

/-! # The HTTP transmit sink

Three parties share the sink: the upstream block that fills its input, the calls of `work`
that cut the input into batches, and the sender task that pushes the batches.  Rates, delays
and clock readings are exact rationals, in hertz and seconds.
-/

namespace SdrAaronia

variable {Sample : Type}

/-- The block's own fields. -/
structure HttpSink (Sample : Type) where
  sampleRateHz : ℚ
  bufferSize : Nat
  sampleBuffer : List Sample
  lastTransmissionEndTime : ℚ
  streamingDelay : ℚ

namespace HttpSink

/-- A batch as the channel carries it, with the clock's reading when it was prepared. -/
structure Batch (Sample : Type) where
  samples : List Sample
  clock : ℚ
  startTime : ℚ
  endTime : ℚ

/-- An empty buffer can never fill, so a size of zero is clamped to one. -/
def new (sampleRateHz : ℚ) (bufferSize : Nat) (streamingDelay now : ℚ) :
    HttpSink Sample where
  sampleRateHz
  bufferSize := max bufferSize 1
  sampleBuffer := []
  lastTransmissionEndTime := now
  streamingDelay

/-- The batch of everything buffered: no sooner than the delay allows, nor than the schedule. -/
def batch (sink : HttpSink Sample) (now : ℚ) : Batch Sample :=
  let desiredStart := now + sink.streamingDelay
  let startTime := max desiredStart sink.lastTransmissionEndTime
  let duration := sink.sampleBuffer.length / sink.sampleRateHz
  { samples := sink.sampleBuffer, clock := now, startTime, endTime := startTime + duration }

/-- Where a call of `work` goes on after a batch is handed over. -/
inductive Resume where
  | loop (inputLen consumed : Nat)
  | finish
  deriving DecidableEq, Repr

/-- Where the block stands: between two calls, in the loop of one, waiting for room in the
channel, or finished. -/
inductive Activity (Sample : Type) where
  | idle
  | draining (inputLen consumed : Nat)
  | sending (batch : Batch Sample) (resume : Resume)
  | finished

def Resume.activity : Resume → Activity Sample
  | .loop inputLen consumed => .draining inputLen consumed
  | .finish => .finished

/-- The block, the channel and the sender task.  What was taken from the input, what arrived
there and what was handed over are kept for the record. -/
structure System (Sample : Type) where
  sink : HttpSink Sample
  activity : Activity Sample
  /-- The unread samples of the input reader. -/
  input : List Sample
  inputFinished : Bool
  queue : List (Batch Sample)
  inFlight : Option (Batch Sample)
  senderLives : Bool
  acceptedSamples : Nat
  droppedSamples : Nat
  taken : List Sample
  arrived : List Sample
  sent : List (Batch Sample)

/-- A sink as it is built, its input still empty. -/
def System.start (sink : HttpSink Sample) : System Sample where
  sink
  activity := .idle
  input := []
  inputFinished := false
  queue := []
  inFlight := none
  senderLives := true
  acceptedSamples := 0
  droppedSamples := 0
  taken := []
  arrived := []
  sent := []

def channelCapacity : Nat := 16

inductive PushOutcome where
  | accepted
  | failed
  | timedOut
  deriving DecidableEq, Repr

inductive Event (Sample : Type) where
  /-- The upstream block writes samples. -/
  | arrive (samples : List Sample)
  /-- The runtime tells the block, between two calls, that the upstream is done. -/
  | inputEnds
  | work (now : ℚ)
  /-- One round of the loop in `work`. -/
  | fill (now : ℚ)
  /-- The loop is over, and the call with it. -/
  | leave (now : ℚ)
  /-- The channel takes the batch. -/
  | send
  /-- The sender task takes a batch from the channel. -/
  | receive
  | pushEnds (outcome : PushOutcome)
  | senderStops

namespace System

/-- Hand over what is buffered, if anything is, and go on from there. -/
def pushBatch (s : System Sample) (now : ℚ) (resume : Resume) : System Sample :=
  if s.sink.sampleBuffer.isEmpty then { s with activity := resume.activity }
  else
    let batch := s.sink.batch now
    { s with
      sink := { s.sink with
        lastTransmissionEndTime := batch.endTime + 1 / s.sink.sampleRateHz }
      activity := .sending batch resume }

/-- How much of the input a round of the loop takes: what fits into the buffer. -/
def toTake (s : System Sample) (consumed : Nat) : Nat :=
  let availableSpace := s.sink.bufferSize - s.sink.sampleBuffer.length
  min availableSpace (s.input.length - consumed)

/-- The buffer after that. -/
def filled (s : System Sample) (inputLen consumed : Nat) : System Sample :=
  let piece := (s.input.drop consumed).take (s.toTake consumed)
  { s with
    sink := { s.sink with sampleBuffer := s.sink.sampleBuffer ++ piece }
    activity := .draining inputLen (consumed + s.toTake consumed)
    taken := s.taken ++ piece }

/-- One round of the loop: a full buffer is handed over. -/
def fillBuffer (s : System Sample) (now : ℚ) (inputLen consumed : Nat) : System Sample :=
  let filled := s.filled inputLen consumed
  if s.sink.bufferSize ≤ filled.sink.sampleBuffer.length then
    filled.pushBatch now (.loop inputLen (consumed + s.toTake consumed))
  else filled

/-- The send is over: the buffer is cleared whether the batch was taken or not. -/
def handedOver (s : System Sample) (batch : Batch Sample) (resume : Resume) : System Sample :=
  { s with
    sink := { s.sink with sampleBuffer := [] }
    activity := resume.activity
    sent := s.sent ++ [batch] }

def step (s : System Sample) : Event Sample → Option (System Sample)
  | .arrive samples =>
    if s.inputFinished then none
    else some { s with input := s.input ++ samples, arrived := s.arrived ++ samples }
  | .inputEnds =>
    match s.activity with
    | .idle => some { s with inputFinished := true }
    | _ => none
  | .work now =>
    match s.activity with
    | .idle =>
      if s.input.length = 0 then
        if s.inputFinished then some (s.pushBatch now .finish) else some s
      else some { s with activity := .draining s.input.length 0 }
    | _ => none
  | .fill now =>
    match s.activity with
    | .draining inputLen consumed =>
      if consumed < inputLen then some (s.fillBuffer now inputLen consumed) else none
    | _ => none
  | .leave now =>
    match s.activity with
    | .draining inputLen consumed =>
      if consumed < inputLen then none
      else
        let read : System Sample := { s with input := s.input.drop consumed }
        if s.inputFinished ∧ consumed = inputLen then some (read.pushBatch now .finish)
        else some { read with activity := .idle }
    | _ => none
  | .send =>
    match s.activity with
    | .sending batch resume =>
      if s.senderLives then
        if s.queue.length < channelCapacity then
          some { s.handedOver batch resume with queue := s.queue ++ [batch] }
        else none
      else
        some { s.handedOver batch resume with
          droppedSamples := s.droppedSamples + batch.samples.length }
    | _ => none
  | .receive =>
    match s.senderLives, s.inFlight, s.queue with
    | true, none, batch :: rest => some { s with inFlight := some batch, queue := rest }
    | _, _, _ => none
  | .pushEnds outcome =>
    match s.senderLives, s.inFlight with
    | true, some batch =>
      match outcome with
      | .accepted =>
        some { s with
          inFlight := none
          acceptedSamples := s.acceptedSamples + batch.samples.length }
      | .failed | .timedOut =>
        some { s with
          inFlight := none
          droppedSamples := s.droppedSamples + batch.samples.length }
    | _, _ => none
  | .senderStops => some { s with senderLives := false }

/-- Run a list of events, each of which must be possible where it comes. -/
def run (s : System Sample) (events : List (Event Sample)) : Option (System Sample) :=
  Machine.run step s events

end System

end HttpSink

end SdrAaronia
