import SdrAaronia.HttpStreaming.DropDetector
import SdrAaronia.HttpStreaming.Parser
import SdrAaronia.Lib.Marks
import SdrAaronia.StreamBreak

/-! # The HTTP source block

The block's sample buffer, the breaks pending against it, and what one parsed
item, a reconnect and one call's output do to them.
-/

namespace SdrAaronia

open HttpStreaming

namespace HttpSource

/-- Centre-frequency move that counts as a real retune rather than round-off. -/
def centerChangeHz : F64 := 1

/-- Packets the refill target never sits below. -/
def packetCapacityFactor : Nat := 4

/-- Chunks the reader task may queue, and one sweep takes at most. -/
def chunkChannelDepth : Nat := 64

/-- Fetches one `work` makes before yielding. -/
def maxFetchesPerWork : Nat := 16

/-- A `VecDeque` of eight-byte samples holds no more than this; growing past it panics. -/
def maxBufferedSamples : Nat := (2 ^ 63 - 1) / 8

/-- A pending break: samples still buffered ahead of it, and its cause. -/
abbrev PendingBreak := Nat × StreamDiscontinuity

end HttpSource

structure HttpSource (Sample : Type) where
  streamFormat : StreamFormat
  bufferSize : Nat
  streamParser : StreamParser
  dropDetector : DropDetector
  sampleBuffer : List Sample
  /-- Largest packet delivered so far, in samples. -/
  maxPacketSamples : Nat
  /-- Largest chunk the reader task has handed over, in bytes. -/
  maxChunkBytes : Nat
  /-- Items the connected output buffer holds, once learned. -/
  downstreamCapacity : Nat
  currentFrequency : F64
  currentSampleRate : F64
  /-- Latest finite rate the device reported. -/
  linkDeviceRate : Option F64
  overflowSamples : Nat
  streamGapSeconds : F64
  nonIqPacketsSkipped : Nat
  packetsLostToParseErrors : Nat
  /-- Whether anyone asked for breaks. -/
  breakSink : Bool
  pendingBreaks : List HttpSource.PendingBreak
  /-- Samples produced so far: the absolute index of the next one. -/
  produced : Nat
  /-- The geometry last queued. -/
  epochCenterHz : Option F64
  epochRateHz : Option F64
  /-- The geometry last reported. -/
  publishedGeometry : Option (F64 × F64)
  deriving DecidableEq, Repr

namespace HttpSource

variable {Sample : Type}

def new (format : StreamFormat) (bufferSize : Nat) (scale : Option F64) (centerHz rateHz : F64)
    (breakSink : Bool) : HttpSource Sample where
  streamFormat := format
  bufferSize := bufferSize
  streamParser := .new format scale
  dropDetector := .default
  sampleBuffer := []
  maxPacketSamples := 0
  maxChunkBytes := 0
  downstreamCapacity := 0
  currentFrequency := centerHz
  currentSampleRate := rateHz
  linkDeviceRate := none
  overflowSamples := 0
  streamGapSeconds := 0
  nonIqPacketsSkipped := 0
  packetsLostToParseErrors := 0
  breakSink := breakSink
  pendingBreaks := []
  produced := 0
  epochCenterHz := none
  epochRateHz := none
  publishedGeometry := none

/-! ## Capacities -/

/-- What `work` refills the buffer towards: the configured size, a few packets, or
what the consumer can take in one call, whichever is largest. -/
def refillCapacity (s : HttpSource Sample) : Nat :=
  let configured := max (saturatingMul s.bufferSize 2) 1
  let packetFloor := saturatingMul s.maxPacketSamples packetCapacityFactor
  let downstreamFloor := saturatingAdd s.downstreamCapacity s.maxPacketSamples
  max (max configured packetFloor) downstreamFloor

/-- Everything one sweep can add, in samples; zero until a chunk has arrived and
for formats without a fixed width. -/
def catchUpHeadroom (s : HttpSource Sample) : Nat :=
  if s.maxChunkBytes = 0 then 0
  else
    match s.streamFormat.iqBytesPerSample with
    | none => 0
    | some bytesPerSample =>
        saturatingAdd
          ((saturatingMul chunkChannelDepth s.maxChunkBytes + (bytesPerSample - 1)) /
            bytesPerSample)
          s.maxPacketSamples

/-- Above this the oldest samples are dropped. -/
def bufferCapacity (s : HttpSource Sample) : Nat :=
  saturatingAdd s.refillCapacity s.catchUpHeadroom

/-! ## Breaks -/

/-- All that a break noted, or a packet's configuration, leaves as it was. -/
structure Keeps (s s' : HttpSource Sample) : Prop where
  streamFormat : s'.streamFormat = s.streamFormat
  bufferSize : s'.bufferSize = s.bufferSize
  streamParser : s'.streamParser = s.streamParser
  sampleBuffer : s'.sampleBuffer = s.sampleBuffer
  maxPacketSamples : s'.maxPacketSamples = s.maxPacketSamples
  maxChunkBytes : s'.maxChunkBytes = s.maxChunkBytes
  downstreamCapacity : s'.downstreamCapacity = s.downstreamCapacity
  overflowSamples : s'.overflowSamples = s.overflowSamples
  breakSink : s'.breakSink = s.breakSink
  produced : s'.produced = s.produced
  publishedGeometry : s'.publishedGeometry = s.publishedGeometry

theorem Keeps.refl (s : HttpSource Sample) : s.Keeps s := by
  constructor <;> rfl

theorem Keeps.trans {s s' s'' : HttpSource Sample} (first : s.Keeps s') (second : s'.Keeps s'') :
    s.Keeps s'' where
  streamFormat := second.streamFormat.trans first.streamFormat
  bufferSize := second.bufferSize.trans first.bufferSize
  streamParser := second.streamParser.trans first.streamParser
  sampleBuffer := second.sampleBuffer.trans first.sampleBuffer
  maxPacketSamples := second.maxPacketSamples.trans first.maxPacketSamples
  maxChunkBytes := second.maxChunkBytes.trans first.maxChunkBytes
  downstreamCapacity := second.downstreamCapacity.trans first.downstreamCapacity
  overflowSamples := second.overflowSamples.trans first.overflowSamples
  breakSink := second.breakSink.trans first.breakSink
  produced := second.produced.trans first.produced
  publishedGeometry := second.publishedGeometry.trans first.publishedGeometry

/-- Record a break ahead of the samples not queued yet.  Repeated gaps at one
offset collapse. -/
def noteBreak (s : HttpSource Sample) (cause : StreamDiscontinuity) : HttpSource Sample :=
  if !s.breakSink then s
  else if cause = .gap ∧ s.pendingBreaks.getLast? = some (s.sampleBuffer.length, .gap) then s
  else { s with pendingBreaks := s.pendingBreaks ++ [(s.sampleBuffer.length, cause)] }

theorem noteBreak_keeps (s : HttpSource Sample) (cause : StreamDiscontinuity) :
    s.Keeps (s.noteBreak cause) := by
  unfold noteBreak
  split
  · exact .refl s
  · split
    · exact .refl s
    · constructor <;> rfl

theorem noteBreak_epoch (s : HttpSource Sample) (cause : StreamDiscontinuity) :
    (s.noteBreak cause).epochCenterHz = s.epochCenterHz ∧
      (s.noteBreak cause).epochRateHz = s.epochRateHz := by
  unfold noteBreak
  split
  · exact ⟨rfl, rfl⟩
  · split <;> exact ⟨rfl, rfl⟩

theorem mem_noteBreak {s : HttpSource Sample} (sink : s.breakSink = true)
    {cause : StreamDiscontinuity} {mark : PendingBreak} :
    mark ∈ (s.noteBreak cause).pendingBreaks ↔
      mark ∈ s.pendingBreaks ∨ mark = (s.sampleBuffer.length, cause) := by
  unfold noteBreak
  rw [if_neg (by simp [sink])]
  split
  · rename_i repeated
    have queued := List.mem_of_getLast? repeated.2
    constructor
    · exact .inl
    · rintro (member | rfl)
      · exact member
      · exact repeated.1 ▸ queued
  · simp only [List.mem_append, List.mem_singleton]

theorem sorted_noteBreak {s : HttpSource Sample} (sorted : Marks.Sorted s.pendingBreaks)
    (within : Marks.Within s.sampleBuffer.length s.pendingBreaks) (cause : StreamDiscontinuity) :
    Marks.Sorted (s.noteBreak cause).pendingBreaks := by
  unfold noteBreak
  split
  · exact sorted
  · split
    · exact sorted
    · exact Marks.sorted_snoc sorted within

theorem within_noteBreak {s : HttpSource Sample}
    (within : Marks.Within s.sampleBuffer.length s.pendingBreaks) (cause : StreamDiscontinuity) :
    Marks.Within s.sampleBuffer.length (s.noteBreak cause).pendingBreaks := by
  unfold noteBreak
  split
  · exact within
  · split
    · exact within
    · exact Marks.within_snoc within

/-- Account for `discarded` samples removed from the front of the buffer. -/
def noteTrim (s : HttpSource Sample) (discarded : Nat) : HttpSource Sample :=
  if !s.breakSink then s
  else
    -- one hole, one gap: those the rebase brought to the front are this one
    let kept := (Marks.rebase discarded s.pendingBreaks).filter fun mark =>
      decide (0 < mark.1) || mark.2 != .gap
    { s with pendingBreaks := (0, .gap) :: kept }

theorem noteTrim_keeps (s : HttpSource Sample) (discarded : Nat) :
    s.Keeps (s.noteTrim discarded) := by
  unfold noteTrim
  split
  · exact .refl s
  · constructor <;> rfl

theorem noteTrim_epoch (s : HttpSource Sample) (discarded : Nat) :
    (s.noteTrim discarded).epochCenterHz = s.epochCenterHz ∧
      (s.noteTrim discarded).epochRateHz = s.epochRateHz := by
  unfold noteTrim
  split <;> exact ⟨rfl, rfl⟩

theorem noteTrim_pendingBreaks {s : HttpSource Sample} (sink : s.breakSink = true)
    (discarded : Nat) :
    (s.noteTrim discarded).pendingBreaks =
      (0, .gap) :: (Marks.rebase discarded s.pendingBreaks).filter fun mark =>
        decide (0 < mark.1) || mark.2 != .gap := by
  unfold noteTrim
  rw [if_neg (by simp [sink])]

/-- Account for the whole buffer being discarded. -/
def noteBufferCleared (s : HttpSource Sample) : HttpSource Sample :=
  if !s.breakSink then s
  else
    { s with
      pendingBreaks := [(0, .gap)]
      epochCenterHz := s.publishedGeometry.map Prod.fst
      epochRateHz := s.publishedGeometry.map Prod.snd }

theorem noteBufferCleared_keeps (s : HttpSource Sample) : s.Keeps s.noteBufferCleared := by
  unfold noteBufferCleared
  split
  · exact .refl s
  · constructor <;> rfl

theorem noteBufferCleared_sink {s : HttpSource Sample} (sink : s.breakSink = true) :
    s.noteBufferCleared =
      { s with
        pendingBreaks := [(0, .gap)]
        epochCenterHz := s.publishedGeometry.map Prod.fst
        epochRateHz := s.publishedGeometry.map Prod.snd } := by
  unfold noteBufferCleared
  rw [if_neg (by simp [sink])]

/-- Compare a packet's geometry with the run so far and record what changed. -/
def noteGeometry (s : HttpSource Sample) (packet : StreamPacket Sample) : HttpSource Sample :=
  let centerHz := packet.sdrConfig.centerFrequencyHz
  let rateHz := packet.sdrConfig.sampleRateHz
  if !s.breakSink || packet.metadata.payload != .iq then s
  else if rateHz ≤ 0 then s
  else
    match s.epochCenterHz, s.epochRateHz with
    | some epochCenter, some epochRate =>
        let movedCenter := decide (centerChangeHz < (epochCenter - centerHz).abs)
        let movedRate := rateMoved epochRate rateHz
        if !movedCenter && !movedRate then s
        else
          { s.noteBreak (.retune centerHz rateHz) with
            epochCenterHz := some centerHz, epochRateHz := some rateHz }
    | _, _ =>
        { s.noteBreak (.initial centerHz rateHz) with
          epochCenterHz := some centerHz, epochRateHz := some rateHz }

theorem noteGeometry_keeps (s : HttpSource Sample) (packet : StreamPacket Sample) :
    s.Keeps (s.noteGeometry packet) := by
  have noted : ∀ (cause : StreamDiscontinuity) (centerHz rateHz : Option F64),
      s.Keeps { s.noteBreak cause with epochCenterHz := centerHz, epochRateHz := rateHz } :=
    fun cause _ _ => (s.noteBreak_keeps cause).trans (by constructor <;> rfl)
  unfold noteGeometry
  dsimp only
  split
  · exact .refl s
  · split
    · exact .refl s
    · split
      · split
        · exact .refl s
        · exact noted _ _ _
      · exact noted _ _ _

/-- What several geometries at one position come to: the last, which keeps the
`initial` kind when one was among them. -/
def mergeGeometry (geometry : Option StreamDiscontinuity) (cause : StreamDiscontinuity) :
    Option StreamDiscontinuity :=
  match cause, geometry with
  | .gap, geometry => geometry
  | cause, none => some cause
  | .initial centerHz rateHz, some (.initial _ _) => some (.initial centerHz rateHz)
  | .retune centerHz rateHz, some (.initial _ _) => some (.initial centerHz rateHz)
  | later, some _ => some later

/-- The records of one boundary: at most one gap, then at most one geometry. -/
def boundaryRecords (index : Nat) (causes : List StreamDiscontinuity) : List StreamBreak :=
  (if StreamDiscontinuity.gap ∈ causes ∧ index ≠ 0 then [⟨index, .gap⟩] else []) ++
    ((causes.foldl mergeGeometry none).map (StreamBreak.mk index)).toList

/-- Report the breaks below `count`; returns the records, the breaks held back,
and the geometry last reported. -/
def publishLoop (produced count : Nat) (published : Option (F64 × F64)) :
    List PendingBreak → List StreamBreak × List PendingBreak × Option (F64 × F64)
  | [] => ([], [], published)
  | (offset, cause) :: rest =>
      if count ≤ offset then ([], (offset, cause) :: rest, published)
      else
        let causes := cause :: (rest.takeWhile fun mark => mark.1 == offset).map Prod.snd
        let geometry := (causes.foldl mergeGeometry none).bind StreamDiscontinuity.geometry
        let (records, held, published) := publishLoop produced count (geometry.or published)
          (rest.dropWhile fun mark => mark.1 == offset)
        (boundaryRecords (produced + offset) causes ++ records, held, published)
termination_by pending => pending.length
decreasing_by
  exact Nat.lt_succ_of_le (List.dropWhile_sublist _).length_le

/-- Report every break that falls inside the `count` samples about to be published. -/
def publishBreaks (s : HttpSource Sample) (count : Nat) : HttpSource Sample × List StreamBreak :=
  if !s.breakSink then ({ s with produced := s.produced + count }, [])
  else
    let (records, held, published) :=
      publishLoop s.produced count s.publishedGeometry s.pendingBreaks
    ({ s with
        pendingBreaks := Marks.rebase count held
        publishedGeometry := published
        produced := s.produced + count }, records)

/-! ## Items -/

def noteLostPacket (s : HttpSource Sample) : HttpSource Sample :=
  let s := { s with
    packetsLostToParseErrors := saturatingAdd s.packetsLostToParseErrors 1 }
  let s := s.noteBreak .gap
  { s with dropDetector := s.dropDetector.resync }

/-- A spectra, histogram or category packet, decoded or not. -/
def noteNonIqPacket (s : HttpSource Sample) : HttpSource Sample :=
  { s with nonIqPacketsSkipped := saturatingAdd s.nonIqPacketsSkipped 1 }

/-- The break a packet's timing calls for. -/
def noteContinuity (s : HttpSource Sample) (metadata : PacketMetadata) : HttpSource Sample :=
  let (detector, result) := s.dropDetector.observe metadata
  let s := { s with dropDetector := detector }
  match result with
  | .continuous => s
  | .backward _ => s.noteBreak .gap
  | .drop gapSeconds =>
    { s with streamGapSeconds := s.streamGapSeconds + gapSeconds }.noteBreak .gap

theorem noteContinuity_keeps (s : HttpSource Sample) (metadata : PacketMetadata) :
    s.Keeps (s.noteContinuity metadata) := by
  have noted : ∀ (detector : DropDetector) (gap : F64),
      s.Keeps ({ s with dropDetector := detector, streamGapSeconds := gap }.noteBreak .gap) :=
    fun _ _ => .trans (by constructor <;> rfl) (noteBreak_keeps _ .gap)
  unfold noteContinuity
  dsimp only
  split
  · constructor <;> rfl
  · exact noted _ _
  · exact noted _ _

/-- The frequency and the rates adopted from a packet. -/
def adoptConfig (s : HttpSource Sample) (config : StreamingSdrConfig) : HttpSource Sample :=
  let inferredRate := config.sampleRateHz
  { s with
    currentFrequency :=
      if 0 < config.centerFrequencyHz then config.centerFrequencyHz else s.currentFrequency
    linkDeviceRate :=
      if inferredRate.isFinite && decide (0 < inferredRate) then some inferredRate
      else s.linkDeviceRate
    currentSampleRate :=
      if 0 < inferredRate ∧
          (s.currentSampleRate ≤ 0 ∨ rateMoved s.currentSampleRate inferredRate) then inferredRate
      else s.currentSampleRate }

/-- Raise the packet floor, then append. -/
def grown (s : HttpSource Sample) (samples : List Sample) : HttpSource Sample :=
  { s with
    maxPacketSamples := max s.maxPacketSamples samples.length
    sampleBuffer := s.sampleBuffer ++ samples }

/-- Append, and drop the oldest samples above the capacity.  `none` is the deque's
capacity panic. -/
def appendSamples (s : HttpSource Sample) (samples : List Sample) : Option (HttpSource Sample) :=
  if maxBufferedSamples < s.sampleBuffer.length + samples.length then none
  else
    let s := s.grown samples
    let capacity := s.bufferCapacity
    if capacity < s.sampleBuffer.length then
      let overflow := s.sampleBuffer.length - capacity
      some ({ s with
        sampleBuffer := s.sampleBuffer.drop overflow
        overflowSamples := saturatingAdd s.overflowSamples overflow }.noteTrim overflow)
    else some s

/-- The buffer grows by the samples; above the capacity its oldest samples go. -/
theorem appendSamples_cases {s s' : HttpSource Sample} {samples : List Sample}
    (appended : s.appendSamples samples = some s') :
    s' = s.grown samples ∨
    ∃ overflow counted, 0 < overflow ∧ overflow ≤ s.sampleBuffer.length + samples.length ∧
      s' = { s.grown samples with
        sampleBuffer := (s.sampleBuffer ++ samples).drop overflow
        overflowSamples := counted }.noteTrim overflow := by
  unfold appendSamples at appended
  split at appended
  · cases appended
  · dsimp only at appended
    split at appended
    · rename_i full
      refine .inr ⟨_, _, ?_, ?_, (Option.some.inj appended).symm⟩
      · omega
      · exact (Nat.sub_le _ _).trans_eq List.length_append
    · exact .inl (Option.some.inj appended).symm

/-- Below the capacity nothing goes. -/
theorem appendSamples_fits {s s' : HttpSource Sample} {samples : List Sample}
    (appended : s.appendSamples samples = some s')
    (fits : (s.grown samples).sampleBuffer.length ≤ maxBufferedSamples →
      (s.grown samples).sampleBuffer.length ≤ (s.grown samples).bufferCapacity) :
    s' = s.grown samples ∧ s'.sampleBuffer.length ≤ maxBufferedSamples := by
  unfold appendSamples at appended
  split at appended
  · cases appended
  · rename_i room
    have bounded : (s.grown samples).sampleBuffer.length ≤ maxBufferedSamples :=
      List.length_append.trans_le (Nat.le_of_not_lt room)
    have kept : ¬ (s.grown samples).bufferCapacity < (s.grown samples).sampleBuffer.length :=
      Nat.not_lt_of_le (fits bounded)
    dsimp only at appended
    rw [if_neg kept] at appended
    obtain rfl := Option.some.inj appended
    exact ⟨rfl, bounded⟩

/-- What a packet changes ahead of its samples. -/
def notePacket (s : HttpSource Sample) (packet : StreamPacket Sample) : HttpSource Sample :=
  ((s.noteContinuity packet.metadata).adoptConfig packet.sdrConfig).noteGeometry packet

theorem notePacket_keeps (s : HttpSource Sample) (packet : StreamPacket Sample) :
    s.Keeps (s.notePacket packet) := by
  have adopted : (s.noteContinuity packet.metadata).Keeps
      ((s.noteContinuity packet.metadata).adoptConfig packet.sdrConfig) := by
    constructor <;> rfl
  exact ((s.noteContinuity_keeps packet.metadata).trans adopted).trans (noteGeometry_keeps _ packet)

/-- One parsed item, in stream order. -/
def processItem (s : HttpSource Sample) : ParsedItem Sample → Option (HttpSource Sample)
  | .lost _ => some s.noteLostPacket
  | .skipped _ _ => some s.noteNonIqPacket
  | .packet packet =>
      if packet.metadata.payload ≠ .iq then some s.noteNonIqPacket
      else
        (s.notePacket packet).appendSamples packet.samples

theorem processItem_iq {s : HttpSource Sample} {packet : StreamPacket Sample}
    (iq : packet.metadata.payload = .iq) :
    s.processItem (.packet packet) = (s.notePacket packet).appendSamples packet.samples :=
  if_neg (not_not.mpr iq)

theorem processItem_other {s : HttpSource Sample} {packet : StreamPacket Sample}
    (other : packet.metadata.payload ≠ .iq) :
    s.processItem (.packet packet) = some s.noteNonIqPacket :=
  if_pos other

theorem noteLostPacket_keeps (s : HttpSource Sample) : s.Keeps s.noteLostPacket := by
  have counted : s.Keeps { s with
      packetsLostToParseErrors := saturatingAdd s.packetsLostToParseErrors 1 } := by
    constructor <;> rfl
  exact (counted.trans (noteBreak_keeps _ .gap)).trans (by constructor <;> rfl)

theorem noteNonIqPacket_keeps (s : HttpSource Sample) : s.Keeps s.noteNonIqPacket := by
  constructor <;> rfl

/-! ## Reconnects and output -/

/-- What `cleanup_stream` does besides the connection itself. -/
def cleanupStream (s : HttpSource Sample) : HttpSource Sample :=
  { s with
    streamParser := s.streamParser.reset
    dropDetector := s.dropDetector.resync }.noteBreak .gap

theorem cleanupStream_sampleBuffer (s : HttpSource Sample) :
    s.cleanupStream.sampleBuffer = s.sampleBuffer :=
  (noteBreak_keeps _ .gap).sampleBuffer

theorem cleanupStream_produced (s : HttpSource Sample) : s.cleanupStream.produced = s.produced :=
  (noteBreak_keeps _ .gap).produced

theorem cleanupStream_publishedGeometry (s : HttpSource Sample) :
    s.cleanupStream.publishedGeometry = s.publishedGeometry :=
  (noteBreak_keeps _ .gap).publishedGeometry

/-- A configuration restart: clean up, then clear the buffer. -/
def restart (s : HttpSource Sample) : HttpSource Sample :=
  { s.cleanupStream with sampleBuffer := [] }.noteBufferCleared

/-- The end of `work`: copy out up to `room` samples, their breaks reported first. -/
def produce (s : HttpSource Sample) (room : Nat) :
    HttpSource Sample × List StreamBreak × List Sample :=
  let count := min s.sampleBuffer.length room
  let (next, records) :=
    { s with sampleBuffer := s.sampleBuffer.drop count }.publishBreaks count
  (next, records, s.sampleBuffer.take count)

theorem publishBreaks_sampleBuffer (s : HttpSource Sample) (count : Nat) :
    (s.publishBreaks count).1.sampleBuffer = s.sampleBuffer := by
  unfold publishBreaks
  split <;> rfl

theorem publishBreaks_produced (s : HttpSource Sample) (count : Nat) :
    (s.publishBreaks count).1.produced = s.produced + count := by
  unfold publishBreaks
  split <;> rfl

theorem produce_sampleBuffer (s : HttpSource Sample) (room : Nat) :
    (s.produce room).1.sampleBuffer = s.sampleBuffer.drop (min s.sampleBuffer.length room) :=
  publishBreaks_sampleBuffer _ _

theorem produce_produced (s : HttpSource Sample) (room : Nat) :
    (s.produce room).1.produced = s.produced + min s.sampleBuffer.length room :=
  publishBreaks_produced _ _

theorem produce_epoch (s : HttpSource Sample) (room : Nat) :
    (s.produce room).1.epochCenterHz = s.epochCenterHz ∧
      (s.produce room).1.epochRateHz = s.epochRateHz := by
  unfold produce publishBreaks
  dsimp only
  split <;> exact ⟨rfl, rfl⟩

theorem produce_settings (s : HttpSource Sample) (room : Nat) :
    (s.produce room).1.streamFormat = s.streamFormat ∧
      (s.produce room).1.streamParser = s.streamParser ∧
      (s.produce room).1.overflowSamples = s.overflowSamples := by
  unfold produce publishBreaks
  dsimp only
  split <;> exact ⟨rfl, rfl, rfl⟩

/-! What an output does to the breaks, once someone asked for them. -/

section Sink

variable {s : HttpSource Sample} (sink : s.breakSink = true) (room : Nat)

include sink

theorem produce_records :
    (s.produce room).2.1 = (publishLoop s.produced (min s.sampleBuffer.length room)
      s.publishedGeometry s.pendingBreaks).1 := by
  unfold produce publishBreaks
  dsimp only
  rw [if_neg (by simp [sink])]

theorem produce_pendingBreaks :
    (s.produce room).1.pendingBreaks = Marks.rebase (min s.sampleBuffer.length room)
      (publishLoop s.produced (min s.sampleBuffer.length room) s.publishedGeometry
        s.pendingBreaks).2.1 := by
  unfold produce publishBreaks
  dsimp only
  rw [if_neg (by simp [sink])]

theorem produce_publishedGeometry :
    (s.produce room).1.publishedGeometry = (publishLoop s.produced
      (min s.sampleBuffer.length room) s.publishedGeometry s.pendingBreaks).2.2 := by
  unfold produce publishBreaks
  dsimp only
  rw [if_neg (by simp [sink])]

theorem produce_breakSink : (s.produce room).1.breakSink = true := by
  unfold produce publishBreaks
  dsimp only
  rw [if_neg (by simp [sink])]
  exact sink

end Sink

end HttpSource
end SdrAaronia
