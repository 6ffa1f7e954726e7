import SdrAaronia.HttpSource.Capacity
import SdrAaronia.Lib.Channel
import SdrAaronia.Lib.Machine

/-! # The block and its reader task

The reader task drains a connection's body into the channel while `work` sweeps it,
parses, reconnects and restarts.  A run is any interleaving of the two.
-/

namespace SdrAaronia

open HttpStreaming

namespace HttpSource

/-- Where the block stands. -/
inductive Phase where
  /-- `init` starts the first stream. -/
  | starting
  | idle
  /-- Cleaned up and cleared for a new configuration, whose stream is being started. -/
  | restarting
  | entering
  /-- At the head of the refill loop, so many fetches from its end. -/
  | filling (below left : Nat)
  /-- Emptying the channel. -/
  | sweeping (below left : Nat) (chunks : List Bytes)
  /-- Waiting on the empty channel. -/
  | parking (below left : Nat)
  | flushing
  | reconnecting
  deriving DecidableEq, Repr

/-- The chunks a sweep has taken and not parsed yet. -/
def Phase.collected : Phase → List Bytes
  | .sweeping _ _ chunks => chunks
  | _ => []

inductive PipelineEvent where
  /-- The reader task takes a turn. -/
  | reader
  | call (restart : Bool)
  /-- `start_stream` returns, with a body to read unless it failed. -/
  | started (body : Option (List Bytes))
  | enter (outputLength maxItems : Nat)
  | fill
  | receive
  | timeout
  | flush (room : Nat)
  deriving DecidableEq, Repr

structure Pipeline (Sample : Type) where
  source : HttpSource Sample
  channel : Option (Channel Bytes chunkChannelDepth)
  phase : Phase
  /-- Bodies of the streams started since the last restart. -/
  bodies : List (List Bytes)
  /-- Samples put out since then. -/
  outputs : List Sample

namespace Pipeline

variable {Value Sample : Type}

def new (format : StreamFormat) (bufferSize : Nat) (scale : Option F64) (centerHz rateHz : F64)
    (breakSink : Bool) : Pipeline Sample where
  source := .new format bufferSize scale centerHz rateHz breakSink
  channel := none
  phase := .starting
  bodies := []
  outputs := []

/-- A started stream has its reader task spawned on the body. -/
def startStream (p : Pipeline Sample) (phase : Phase) : Option (List Bytes) → Pipeline Sample
  | none => { p with phase }
  | some body =>
      { p with
        channel := some (.spawn chunkChannelDepth body), phase, bodies := p.bodies ++ [body] }

variable (codec : WireCodec Value Sample)

/-- What the refill loop makes of a fetch's outcome. -/
def afterFetch (p : Pipeline Sample) (below left : Nat) (next : HttpSource Sample) :
    Except Error Nat → Pipeline Sample
  | .error _ => { p with source := next.cleanupStream, channel := none, phase := .reconnecting }
  | .ok 0 => { p with source := next, phase := .flushing }
  | .ok (_ + 1) => { p with source := next, phase := .filling below left }

/-- A fetch of the refill loop; `none` where the buffer panics. -/
def fetched (p : Pipeline Sample) (below left : Nat) (fetch : Fetch) : Option (Pipeline Sample) :=
  (p.source.fetchSamples codec p.source.sampleBuffer.isEmpty fetch).map fun (next, outcome, _) =>
    p.afterFetch below left next outcome

/-- One `try_recv` of a sweep, which ends where the channel is empty or the sweep full. -/
def sweep (p : Pipeline Sample) (below left : Nat) (chunks : List Bytes)
    (channel : Channel Bytes chunkChannelDepth) : Option (Pipeline Sample) :=
  let found := p.fetched codec below left
    { active := true, queued := chunks, ended := channel.disconnected, parked := none }
  if chunks.length < chunkChannelDepth then
    match channel.receive with
    | some (chunk, rest) =>
        some { p with channel := some rest, phase := .sweeping below left (chunks ++ [chunk]) }
    | none =>
        if chunks.isEmpty && !channel.disconnected && p.source.sampleBuffer.isEmpty then
          some { p with phase := .parking below left }
        else found
  else found

/-- The parked `recv` resolves: a chunk arrived, or the reader task ended. -/
def wake (p : Pipeline Sample) (below left : Nat) (channel : Channel Bytes chunkChannelDepth) :
    Option (Pipeline Sample) :=
  match channel.receive with
  | some (chunk, rest) =>
      { p with channel := some rest }.fetched codec below left
        { active := true, queued := [], ended := false, parked := some (some chunk) }
  | none =>
      if channel.disconnected then
        p.fetched codec below left
          { active := true, queued := [], ended := false, parked := some none }
      else none

/-- The parked `recv` loses to the timeout. -/
def giveUp (p : Pipeline Sample) (below left : Nat) (channel : Channel Bytes chunkChannelDepth) :
    Option (Pipeline Sample) :=
  if channel.receive.isNone && !channel.disconnected then
    p.fetched codec below left
      { active := true, queued := [], ended := false, parked := none }
  else none

/-- The head of the refill loop. -/
def fill (p : Pipeline Sample) (below : Nat) : Nat → Option (Pipeline Sample)
  | 0 => some { p with phase := .flushing }
  | left + 1 =>
      if p.source.sampleBuffer.length < below then
        match p.channel with
        | some _ => some { p with phase := .sweeping below left [] }
        | none =>
            p.fetched codec below left
              { active := false, queued := [], ended := false, parked := none }
      else some { p with phase := .flushing }

def begin (p : Pipeline Sample) (restart : Bool) : Pipeline Sample :=
  if restart then
    { source := p.source.restart, channel := none, phase := .restarting, bodies := [],
      outputs := [] }
  else { p with phase := .entering }

def enter (p : Pipeline Sample) (outputLength maxItems : Nat) : Pipeline Sample :=
  let source := p.source.learnOutput maxItems
  { p with source, phase := .filling (source.refillBelow outputLength) maxFetchesPerWork }

def flush (p : Pipeline Sample) (room : Nat) : Pipeline Sample :=
  let (source, _, samples) := p.source.produce room
  { p with source, phase := .idle, outputs := p.outputs ++ samples }

def step (p : Pipeline Sample) (event : PipelineEvent) : Option (Pipeline Sample) :=
  match event, p.phase, p.channel with
  | .reader, _, channel => some { p with channel := channel.map Channel.turn }
  | .started (some body), .starting, _ => some (p.startStream .idle (some body))
  | .started body, .restarting, _ => some (p.startStream .entering body)
  | .started body, .reconnecting, _ => some (p.startStream .idle body)
  | .call restart, .idle, _ => some (p.begin restart)
  | .enter outputLength maxItems, .entering, _ => some (p.enter outputLength maxItems)
  | .fill, .filling below left, _ => p.fill codec below left
  | .receive, .sweeping below left chunks, some channel => p.sweep codec below left chunks channel
  | .receive, .parking below left, some channel => p.wake codec below left channel
  | .timeout, .parking below left, some channel => p.giveUp codec below left channel
  | .flush room, .flushing, _ => some (p.flush room)
  | _, _, _ => none

end Pipeline
end HttpSource
end SdrAaronia
