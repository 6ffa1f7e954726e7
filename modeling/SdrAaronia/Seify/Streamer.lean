import SdrAaronia.UnifiedSource.Overrun

/-! # The seify receive streamer

A streamer shares the source and returns its samples or an error, never both: an overrun that a
read reports with its samples is deferred to the call after it.
-/

namespace SdrAaronia.Seify

variable {Sample : Type}

inductive SeifyError where
  | overrun
  | timeout
  | io (error : Error)
  deriving DecidableEq, Repr

structure SpectranSeifyRxStreamer (Sample : Type) where
  source : SpectranSource Sample
  deferredOverrun : Bool

/-- A read: the streamer and the caller's buffers after it, and what it returned. -/
structure StreamerRead (Sample : Type) where
  streamer : SpectranSeifyRxStreamer Sample
  buffers : List (List Sample)
  result : Except SeifyError Nat

/-- What the caller finds in its first buffer. -/
def StreamerRead.samples (read : StreamerRead Sample) : List Sample :=
  match read.result with
  | .ok n => (read.buffers.headD []).take n
  | .error _ => []

/-- The wait of a read, in microseconds: a timeout that is not positive gets a default. -/
def readTimeout (timeoutUs : Int) : Nat :=
  if 0 < timeoutUs then timeoutUs.toNat else 100000

namespace SpectranSeifyRxStreamer

def activateAt (s : SpectranSeifyRxStreamer Sample) (reached : Except Error Unit) :
    Except SeifyError Unit × SpectranSeifyRxStreamer Sample :=
  match s.source.startStreaming reached with
  | (.ok (), source) => (.ok (), { s with source })
  | (.error error, source) => (.error (.io error), { s with source })

def deactivateAt (s : SpectranSeifyRxStreamer Sample) :
    Except SeifyError Unit × SpectranSeifyRxStreamer Sample :=
  (.ok (), { s with source := s.source.stopStreaming })

/-- `inTime` is how many of the waiting packets come within a timeout. -/
def read (s : SpectranSeifyRxStreamer Sample) (buffers : List (List Sample)) (timeoutUs : Int)
    (inTime : Nat → Nat) : StreamerRead Sample :=
  if s.deferredOverrun then
    ⟨{ s with deferredOverrun := false }, buffers, .error .overrun⟩
  else
    match buffers with
    | [] => ⟨s, [], .ok 0⟩
    | buf :: others =>
      let o := s.source.readSamplesDeadline [] buf.length (inTime (readTimeout timeoutUs))
      match o.result with
      | .error (.timedOut _) => ⟨{ s with source := o.source }, buffers, .error .timeout⟩
      | .error error => ⟨{ s with source := o.source }, buffers, .error (.io error)⟩
      | .ok read =>
        let copied := o.buffer.take read ++ buf.drop read
        let (overrun, source) := o.source.takeOverrun
        if overrun then
          if 0 < read then ⟨⟨source, true⟩, copied :: others, .ok read⟩
          else ⟨{ s with source }, copied :: others, .error .overrun⟩
        else ⟨{ s with source }, copied :: others, .ok read⟩

end SpectranSeifyRxStreamer

/-! ## Runs -/

/-- A read that returned samples: how many its activation had returned before it, and how many
overrun errors came since the one before. -/
structure ReadMark where
  position : Nat
  overruns : Nat
  deriving DecidableEq, Repr

/-- A streamer with the history of its activation: the packets its reads took off the channel, the
samples they returned, the reads that returned some, and the overrun errors since the last. -/
structure StreamerRun (Sample : Type) where
  streamer : SpectranSeifyRxStreamer Sample
  received : List (ChannelPacket Sample)
  returned : List Sample
  reads : List ReadMark
  overruns : Nat

inductive StreamerAction (Sample : Type) where
  /-- The reader task sends a packet. -/
  | deliver (packet : ChannelPacket Sample)
  /-- The reader task ends. -/
  | finish
  | activateAt (reached : Except Error Unit)
  | deactivateAt
  | read (buffers : List (List Sample)) (timeoutUs : Int) (inTime : Nat → Nat)

namespace StreamerRun

def opened (configSampleRateHz : F64) : StreamerRun Sample where
  streamer := ⟨(Session.opened configSampleRateHz).source, false⟩
  received := []
  returned := []
  reads := []
  overruns := 0

def session (s : StreamerRun Sample) : Session Sample :=
  ⟨s.streamer.source, s.received, s.returned⟩

/-- What the reader task does to the source. -/
def fed (s : StreamerRun Sample) (action : SessionAction Sample) : StreamerRun Sample :=
  { s with streamer := { s.streamer with source := (s.session.step action).source } }

/-- The packets gone from the channel. -/
def takenOff (before after : SpectranSource Sample) : List (ChannelPacket Sample) :=
  let waiting := before.httpReceiver.getD []
  waiting.take (waiting.length - (after.httpReceiver.getD []).length)

def afterRead (s : StreamerRun Sample) (read : StreamerRead Sample) : StreamerRun Sample :=
  { streamer := read.streamer
    received := s.received ++ takenOff s.streamer.source read.streamer.source
    returned := s.returned ++ read.samples
    reads := match read.result with
      | .ok n => if 0 < n then s.reads ++ [⟨s.returned.length, s.overruns⟩] else s.reads
      | .error _ => s.reads
    overruns := match read.result with
      | .ok n => if 0 < n then 0 else s.overruns
      | .error .overrun => s.overruns + 1
      | .error _ => s.overruns }

def step (s : StreamerRun Sample) : StreamerAction Sample → StreamerRun Sample
  | .deliver packet => s.fed (.deliver packet)
  | .finish => s.fed .finish
  | .activateAt reached =>
    let streamer := (s.streamer.activateAt reached).2
    if s.streamer.source.readerAlive then { s with streamer } else ⟨streamer, [], [], [], 0⟩
  | .deactivateAt => { s with streamer := s.streamer.deactivateAt.2 }
  | .read buffers timeoutUs inTime => s.afterRead (s.streamer.read buffers timeoutUs inTime)

def run (s : StreamerRun Sample) (actions : List (StreamerAction Sample)) : StreamerRun Sample :=
  actions.foldl step s

/-- Between two reads of the activation one overrun error came when a gap lies between their
samples, and none otherwise; before its first read none did. -/
structure AtGaps (s : StreamerRun Sample) : Prop where
  between : ∀ mark ∈ s.reads.tail, mark.overruns ≤ 1 ∧
    (mark.overruns = 1 ↔ GapBefore s.received mark.position)
  first : ∀ mark ∈ s.reads.head?, mark.overruns = 0
  unread : s.reads = [] → s.overruns = 0

end StreamerRun

end SdrAaronia.Seify
