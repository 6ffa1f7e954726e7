import SdrAaronia.HttpSource.Work
import SdrAaronia.LinkBudget

/-! # The passive link-budget check

The source together with the meter it feeds.  Everything but the check is as in the
source without it.
-/

namespace SdrAaronia

open HttpStreaming

/-- Instants in nanoseconds; a later reading is never earlier. -/
structure Clock where
  reading : Nat → Nat
  monotone : Monotone reading

/-- The check's lifecycle, with the running meter. -/
inductive MeteredCheck where
  | unmeasured
  | measuring (meter : ThroughputMeter)
  | done (verdict : Option LinkBudgetVerdict)
  deriving DecidableEq, Repr

namespace MeteredCheck

def linkCheckWindow : Nat := 2000000000

def linkBudgetTolerance : F64 := .finite (98 / 100)

def armedAt (opened : Nat) : MeteredCheck :=
  .measuring (.startingAt opened linkProbeSettle linkCheckWindow)

/-- What the shared statistics tell of the check. -/
def lifecycle : MeteredCheck → LinkCheck
  | .unmeasured => .unmeasured
  | .measuring _ => .measuring
  | .done verdict => .done verdict

/-- A running measurement or a verdict, which a moved rate invalidates. -/
def rearms : MeteredCheck → Bool
  | .measuring _ | .done (some _) => true
  | .unmeasured | .done none => false

end MeteredCheck

structure MeteredSource (Sample : Type) where
  source : HttpSource Sample
  rateReduction : Option Nat
  linkCheck : MeteredCheck
  /-- How often the clock was read. -/
  readings : Nat

namespace MeteredSource

variable {Value Sample : Type} (clock : Clock)

def new (source : HttpSource Sample) (rateReduction : Option Nat) : MeteredSource Sample where
  source := source
  rateReduction := rateReduction
  linkCheck := .unmeasured
  readings := 0

/-- Arm a fresh meter. -/
def armed (m : MeteredSource Sample) : MeteredSource Sample :=
  { m with
    linkCheck := .armedAt (clock.reading m.readings)
    readings := m.readings + 1 }

/-- Track the rate that the device reports; a move restarts the measurement. -/
def noteDeviceRate (m : MeteredSource Sample) (inferredRate : F64) : MeteredSource Sample :=
  if !inferredRate.isFinite || decide (inferredRate ≤ 0) then m
  else
    let moved := m.source.linkDeviceRate.any fun previous => rateMoved previous inferredRate
    let m := if moved && m.linkCheck.rearms then m.armed clock else m
    { m with source := { m.source with linkDeviceRate := some inferredRate } }

/-- What an item does to the check, ahead of its samples. -/
def noteItem (m : MeteredSource Sample) : ParsedItem Sample → MeteredSource Sample
  | .packet packet =>
      if packet.metadata.payload = .iq then m.noteDeviceRate clock packet.sdrConfig.sampleRateHz
      else m
  | .lost _ | .skipped _ _ => m

def processItem (m : MeteredSource Sample) (item : ParsedItem Sample) :
    Option (MeteredSource Sample) :=
  (m.source.processItem item).map fun next => { m.noteItem clock item with source := next }

/-- The items of one chunk; `none` where the buffer panics. -/
def processItems (m : MeteredSource Sample) :
    List (ParsedItem Sample) → Option (MeteredSource Sample)
  | [] => some m
  | item :: items => (m.processItem clock item).bind fun next => next.processItems items

variable (codec : WireCodec Value Sample)

/-- The items processed come along: the counts of samples are sums over them. -/
def processAdvancedStreamData (m : MeteredSource Sample) (data : Bytes) :
    Option (MeteredSource Sample × Except Error (List (ParsedItem Sample))) :=
  let (parser, outcome) := m.source.streamParser.processDataRecovering codec data
  let m := { m with source := { m.source with streamParser := parser } }
  match outcome with
  | .error e => some (m, .error e)
  | .ok items => (m.processItems clock items).map fun next => (next, .ok items)

/-- Parse the chunks of a sweep up to the first that fails, whose error is held. -/
def parseChunks (m : MeteredSource Sample) :
    List Bytes → Option (MeteredSource Sample × Option Error × List (ParsedItem Sample))
  | [] => some (m, none, [])
  | chunk :: chunks =>
      (m.processAdvancedStreamData clock codec chunk).bind fun (next, outcome) =>
        match outcome with
        | .error e => some (next, some e, [])
        | .ok items =>
            (next.parseChunks chunks).map fun (last, parseError, more) =>
              (last, parseError, items ++ more)

/-- When the meter is told of a sweep, and how many bytes of decoded IQ payload. -/
def told (m : MeteredSource Sample) (iqSamples : Nat) : Option (Nat × Nat) :=
  match m.linkCheck, m.source.streamFormat.iqBytesPerSample with
  | .measuring _, some bytesPerSample =>
      if 0 < iqSamples then
        some (clock.reading m.readings, saturatingMul iqSamples bytesPerSample)
      else none
  | _, _ => none

/-- Feed the meter with a sweep's decoded IQ payload. -/
def observeSweep (m : MeteredSource Sample) (iqSamples : Nat) : MeteredSource Sample :=
  match m.linkCheck, m.told clock iqSamples with
  | .measuring meter, some (instant, bytes) =>
      { m with
        linkCheck := .measuring (meter.observe instant bytes)
        readings := m.readings + 1 }
  | _, _ => m

/-- Mark a window in which the channel was full. -/
def noteFullChannel (m : MeteredSource Sample) (channelWasFull : Bool) : MeteredSource Sample :=
  match m.linkCheck with
  | .measuring meter =>
      if channelWasFull then
        { m with
          linkCheck := .measuring (meter.noteConsumerLimited (clock.reading m.readings))
          readings := m.readings + 1 }
      else m
  | _ => m

/-- Deliver the verdict, once, if it is ready. -/
def reportLinkBudget (m : MeteredSource Sample) :
    MeteredSource Sample × Option LinkBudgetVerdict :=
  match m.linkCheck with
  | .measuring meter =>
      if !meter.closed then (m, none)
      else if meter.consumerLimited then (m.armed clock, none)
      else
        let verdict := meter.finish.bind fun measured =>
          m.source.linkDeviceRate.bind fun rate =>
            LinkBudgetVerdict.judge rate m.source.streamFormat
              { measured with streamSampleRateHz := some rate } MeteredCheck.linkBudgetTolerance
        match verdict with
        | none => (m.armed clock, none)
        | some verdict => ({ m with linkCheck := .done (some verdict) }, some verdict)
  | _ => (m, none)

/-- What a sweep's chunks came to. -/
structure Swept (Sample : Type) where
  source : MeteredSource Sample
  parseError : Option Error
  items : List (ParsedItem Sample)
  told : Option (Nat × Nat)
  channelWasFull : Bool
  verdict : Option LinkBudgetVerdict

def iqSamples (items : List (ParsedItem Sample)) : Nat := (items.map HttpSource.addedSamples).sum

/-- Parse, then feed the meter, then report. -/
def sweepChunks (m : MeteredSource Sample) (chunks : List Bytes) : Option (Swept Sample) :=
  let largest := (chunks.map List.length).foldl max m.source.maxChunkBytes
  let widened := { m with source := { m.source with maxChunkBytes := largest } }
  let channelWasFull := decide (HttpSource.chunkChannelDepth ≤ chunks.length)
  (widened.parseChunks clock codec chunks).map fun (parsed, parseError, items) =>
    let observed := parsed.observeSweep clock (iqSamples items)
    let (reported, verdict) :=
      (observed.noteFullChannel clock channelWasFull).reportLinkBudget clock
    ⟨reported, parseError, items, parsed.told clock (iqSamples items), channelWasFull, verdict⟩

def cleanupStream (m : MeteredSource Sample) : MeteredSource Sample :=
  { m with source := m.source.cleanupStream }

/-- What a fetch comes to: a sweep, unless there is no stream or it ended. -/
inductive Fetched (Sample : Type) where
  | refused (source : MeteredSource Sample) (error : Error)
  | swept (swept : Swept Sample)

/-- Move queued chunks, at most one channel's depth, into the buffer. -/
def fetchSamples (m : MeteredSource Sample) (wait : Bool) (fetch : HttpSource.Fetch) :
    Option (Fetched Sample) :=
  let chunks := fetch.queued.take HttpSource.chunkChannelDepth
  if !fetch.active then some (.refused m HttpSource.noStreamError)
  else if !chunks.isEmpty then (m.sweepChunks clock codec chunks).map .swept
  else if fetch.ended then some (.refused m.cleanupStream HttpSource.readerEndedError)
  else if !wait then (m.sweepChunks clock codec []).map .swept
  else
    match fetch.parked with
    | none => (m.sweepChunks clock codec []).map .swept
    | some none => some (.refused m.cleanupStream HttpSource.readerEndedError)
    | some (some chunk) => (m.sweepChunks clock codec [chunk]).map .swept

def linkCheckMeasurable (m : MeteredSource Sample) : Bool :=
  m.source.streamFormat.iqBytesPerSample.isSome && m.rateReduction.all fun n => n == 1

/-- What an opened stream does to the check. -/
def startStream (m : MeteredSource Sample) : MeteredSource Sample :=
  match m.linkCheck with
  | .done _ => m
  | _ => if m.linkCheckMeasurable then m.armed clock else { m with linkCheck := .done none }

/-- A configuration restart, up to the new stream. -/
def restart (m : MeteredSource Sample) : MeteredSource Sample :=
  { m with source := m.source.restart, linkCheck := .unmeasured }

/-! ## The source behind the check -/

theorem noteDeviceRate_source (m : MeteredSource Sample) (rate : F64) :
    (m.noteDeviceRate clock rate).source =
      { m.source with linkDeviceRate :=
          if rate.isFinite && decide (0 < rate) then some rate else m.source.linkDeviceRate } := by
  have usable : (!rate.isFinite || decide (rate ≤ 0)) = !(rate.isFinite && decide (0 < rate)) := by
    cases rate with
    | finite value =>
        by_cases positive : 0 < value
        · simp [positive, not_le.mpr positive]
        · simp [positive, not_lt.mp positive]
    | inf | nan => rfl
  rw [noteDeviceRate, usable]
  cases rate.isFinite && decide (0 < rate) with
  | false => rfl
  | true =>
      simp only [Bool.not_true, Bool.false_eq_true, if_false, if_true]
      split <;> rfl

/-- The check leaves the source as it is without it. -/
theorem processItems_source (m : MeteredSource Sample) (items : List (ParsedItem Sample)) :
    (m.processItems clock items).map MeteredSource.source =
      (m.source.processItems items).map Prod.fst := by
  induction items generalizing m with
  | nil => rfl
  | cons item items ih =>
      rw [processItems, HttpSource.processItems, processItem]
      cases m.source.processItem item with
      | none => rfl
      | some next =>
          simp only [Option.map_some, Option.bind_some, Option.map_map]
          exact ih { m.noteItem clock item with source := next }

end MeteredSource

end SdrAaronia
