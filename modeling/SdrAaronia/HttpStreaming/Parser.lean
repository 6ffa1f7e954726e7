import SdrAaronia.HttpStreaming.Scan

/-! # The stream parser

`StreamParser` buffers HTTP chunks and parses every packet they complete.  Its
two deserialisers and its sample decoders are parameters (`WireCodec`); framing,
sizing, skipping and counting are the code's own.
-/

namespace SdrAaronia.HttpStreaming

/-- What the parser takes from serde and from the sample decoders. -/
structure WireCodec (Value Sample : Type) where
  /-- `serde_json::from_slice::<PacketMetadata>`, its error unread. -/
  metadata : Bytes → Option PacketMetadata
  /-- `serde_json::from_slice::<serde_json::Value>`. -/
  document : Bytes → Except String Value
  jsonSamples : PacketMetadata → Value → Except Error (List Sample)
  binarySamples : StreamFormat → Option F64 → PacketMetadata → Bytes → Except Error (List Sample)

/-- One outcome of `processDataRecovering`, in stream order. -/
inductive ParsedItem (Sample : Type) where
  | packet (packet : StreamPacket Sample)
  /-- Framed but not decoded: the samples it carried are gone. -/
  | lost (error : Error)
  /-- A non-IQ packet that could not be decoded; it costs an IQ consumer nothing. -/
  | skipped (payload : PayloadType) (reason : Error)
  deriving DecidableEq, Repr

/-- What one attempt at the front of the buffer produced. -/
inductive ParseStep (Sample : Type) where
  | packet (packet : StreamPacket Sample)
  | needMore
  | lost (error : Error)
  | undecoded (payload : PayloadType) (error : Error)
  deriving DecidableEq, Repr

/-- An undecodable IQ packet took samples with it; any other payload only itself. -/
def undecodedItem {Sample : Type} (payload : PayloadType) (error : Error) : ParsedItem Sample :=
  if payload = .iq then .lost error else .skipped payload error

namespace ParsedItem

variable {Sample : Type}

def isPacket : ParsedItem Sample → Bool
  | .packet _ => true
  | .lost _ | .skipped _ _ => false

end ParsedItem

def ParseStep.item {Sample : Type} : ParseStep Sample → Option (ParsedItem Sample)
  | .packet parsed => some (.packet parsed)
  | .needMore => none
  | .lost reason => some (.lost reason)
  | .undecoded payload reason => some (undecodedItem payload reason)

structure StatsCounters where
  packetsParsed : Nat := 0
  bytesProcessed : Nat := 0
  samplesDecoded : Nat := 0
  parseErrors : Nat := 0
  deriving DecidableEq, Repr

structure StreamParser where
  format : StreamFormat
  buffer : Bytes
  /-- Already-consumed bytes at the front of `buffer`. -/
  consumed : Nat
  within : consumed ≤ buffer.length
  /-- Bytes of a rejected (over-cap) payload still to arrive. -/
  skipBytes : Nat
  defaultEncodeScale : Option F64
  counters : StatsCounters
  deriving DecidableEq, Repr

/-- Upper bound on un-parseable data buffered while waiting for a header. -/
def maxJsonBuffer : Nat := 10 * 1024 * 1024

/-- Upper bound on a single packet's binary payload. -/
def maxBinaryPayload : Nat := 256 * 1024 * 1024

/-- The buffer is compacted once this many consumed bytes have accumulated. -/
def compactThreshold : Nat := 64 * 1024

def overCapError (expected : Nat) : Error :=
  .protocol s!"packet declares a binary payload of {expected} bytes (cap: {maxBinaryPayload})"

def unterminatedError : Error :=
  .protocol s!"packet JSON header exceeded {maxJsonBuffer} bytes without terminating"

def calculateBinarySize (format : StreamFormat) (metadata : PacketMetadata) : Except Error Nat :=
  match format.iqBytesPerSample with
  | none => .error (.protocol "JSON streams have no fixed-size binary payload to frame")
  | some bytesPerSample =>
      match metadata.payload with
      | .iq =>
          ((usizeOf metadata.samples).bind (checkedMul · bytesPerSample)).elim
            (.error (.protocol s!"IQ sample count {metadata.samples} overflows payload size")) .ok
      | .spectra | .histogram =>
          if metadata.Compressed then
            -- a compressed payload carries no byte length to frame it by
            .error (.protocol (metadata.payload.debugName ++ s!" packet with compression factor {metadata.compression.getD 0} carries no byte length; skipped and resynchronised on the next header"))
          else
            let depth := max (metadata.sampleDepth.getD 1) 1
            (usizeOf metadata.samples
              |>.bind (checkedMul · metadata.sampleSize)
              |>.bind (checkedMul · depth)
              |>.bind (checkedMul · (bytesPerSample / 2))).elim
              (.error (.protocol s!"spectra frame count {metadata.samples} × {metadata.sampleSize} bins overflows payload size"))
              .ok
      | .categories =>
          let numCategories := (metadata.categories.map List.length).getD metadata.sampleSize
          (usizeOf (max metadata.samples 1)
            |>.bind (checkedMul · numCategories)
            |>.bind (checkedMul · (bytesPerSample / 2))).elim
            (.error (.protocol "categories payload size overflows")) .ok

/-- The header declares a payload above the cap. -/
def OverCap (format : StreamFormat) (metadata : PacketMetadata) : Prop :=
  ∃ expected, calculateBinarySize format metadata = .ok expected ∧ maxBinaryPayload < expected

instance (format : StreamFormat) (metadata : PacketMetadata) :
    Decidable (OverCap format metadata) :=
  match sized : calculateBinarySize format metadata with
  | .ok expected =>
      decidable_of_iff (maxBinaryPayload < expected) (by simp [OverCap, sized])
  | .error _ => .isFalse (by simp [OverCap, sized])

namespace StreamParser

def new (format : StreamFormat) (scale : Option F64) : StreamParser where
  format := format
  buffer := []
  consumed := 0
  within := Nat.le_refl 0
  skipBytes := 0
  defaultEncodeScale := scale
  counters := {}

/-- Discard any partially buffered packet; the counters are kept. -/
def reset (p : StreamParser) : StreamParser :=
  { p with buffer := [], consumed := 0, within := Nat.le_refl 0, skipBytes := 0 }

/-- Un-consumed bytes: the parser's working view of the buffer. -/
def pending (p : StreamParser) : Bytes := p.buffer.drop p.consumed

/-- Mark `n` pending bytes as consumed, compacting past the threshold. -/
def consumeBuffer (p : StreamParser) (n : Nat) : StreamParser :=
  if within : p.consumed + n < p.buffer.length then
    if compactThreshold ≤ p.consumed + n then
      { p with buffer := p.buffer.drop (p.consumed + n), consumed := 0, within := Nat.zero_le _ }
    else { p with consumed := p.consumed + n, within := within.le }
  else { p with buffer := [], consumed := 0, within := Nat.le_refl 0 }

/-- Append to the buffer. -/
def extendBuffer (p : StreamParser) (data : Bytes) : StreamParser :=
  { p with
    buffer := p.buffer ++ data
    within := (Nat.le_add_right_of_le p.within).trans_eq List.length_append.symm }

def countErrors (p : StreamParser) (n : Nat) : StreamParser :=
  { p with counters := { p.counters with parseErrors := p.counters.parseErrors + n } }

def countPacket (p : StreamParser) (samples : Nat) : StreamParser :=
  { p with counters := { p.counters with
      packetsParsed := p.counters.packetsParsed + 1
      samplesDecoded := p.counters.samplesDecoded + samples } }

@[simp] theorem pending_new (format : StreamFormat) (scale : Option F64) :
    (new format scale).pending = [] := rfl

@[simp] theorem pending_reset (p : StreamParser) : p.reset.pending = [] := rfl

@[simp] theorem pending_countErrors (p : StreamParser) (n : Nat) :
    (p.countErrors n).pending = p.pending := rfl

@[simp] theorem pending_countPacket (p : StreamParser) (n : Nat) :
    (p.countPacket n).pending = p.pending := rfl

@[simp] theorem pending_consumeBuffer (p : StreamParser) (n : Nat) :
    (p.consumeBuffer n).pending = p.pending.drop n := by
  simp only [consumeBuffer, pending, List.drop_drop]
  split
  · split <;> simp only [List.drop_zero]
  · rename_i all
    rw [List.drop_nil, List.drop_of_length_le (by omega)]

@[simp] theorem pending_extendBuffer (p : StreamParser) (data : Bytes) :
    (p.extendBuffer data).pending = p.pending ++ data :=
  List.drop_append_of_le_length p.within

/-- What consuming bytes and counting leave alone. -/
structure SameSettings (p q : StreamParser) : Prop where
  format : q.format = p.format
  scale : q.defaultEncodeScale = p.defaultEncodeScale
  skip : q.skipBytes = p.skipBytes

namespace SameSettings

theorem refl (p : StreamParser) : SameSettings p p := ⟨rfl, rfl, rfl⟩

theorem trans {p q r : StreamParser} (first : SameSettings p q) (second : SameSettings q r) :
    SameSettings p r :=
  ⟨second.format.trans first.format, second.scale.trans first.scale,
    second.skip.trans first.skip⟩

theorem countErrors (p : StreamParser) (n : Nat) : SameSettings p (p.countErrors n) :=
  ⟨rfl, rfl, rfl⟩

theorem countPacket (p : StreamParser) (n : Nat) : SameSettings p (p.countPacket n) :=
  ⟨rfl, rfl, rfl⟩

theorem consumeBuffer (p : StreamParser) (n : Nat) : SameSettings p (p.consumeBuffer n) := by
  simp only [StreamParser.consumeBuffer]
  split
  · split <;> exact ⟨rfl, rfl, rfl⟩
  · exact ⟨rfl, rfl, rfl⟩

end SameSettings

variable {Value Sample : Type} (codec : WireCodec Value Sample)

/-- The pure-JSON branch of `tryParseCompletePacket`: the samples are inside the
header document. -/
def parseJsonPacket (p : StreamParser) (metadata : PacketMetadata) (json : Nat × Nat)
    (payloadStart : Nat) : StreamParser × Except Error (ParseStep Sample) :=
  match codec.document (slice p.pending json.1 json.2) with
  | .error e =>
      (p.consumeBuffer payloadStart,
        .ok (.lost (.protocol s!"packet header is not a JSON document: {e}")))
  | .ok value =>
      match codec.jsonSamples metadata value with
      | .error e => (p.consumeBuffer payloadStart, .ok (.undecoded metadata.payload e))
      | .ok samples =>
          let metadata := { metadata with samples := samples.length }
          ((p.countPacket samples.length).consumeBuffer payloadStart,
            .ok (.packet (.new metadata samples)))

/-- The binary branch: the payload is sized from the header and awaited. -/
def parseBinaryPacket (p : StreamParser) (metadata : PacketMetadata) (payloadStart : Nat) :
    StreamParser × Except Error (ParseStep Sample) :=
  match calculateBinarySize p.format metadata with
  | .error e => (p.consumeBuffer payloadStart, .ok (.undecoded metadata.payload e))
  | .ok expectedBytes =>
      if maxBinaryPayload < expectedBytes then
        let buffered := p.pending.length
        let payloadAlreadyHere := buffered - payloadStart
        (({ p with skipBytes := expectedBytes - payloadAlreadyHere }).consumeBuffer buffered,
          .ok (.lost (overCapError expectedBytes)))
      else
        let binaryEnd := payloadStart + expectedBytes
        if p.pending.length < binaryEnd then (p, .ok .needMore)
        else
          match codec.binarySamples p.format p.defaultEncodeScale metadata
              (slice p.pending payloadStart binaryEnd) with
          | .error e => (p.consumeBuffer binaryEnd, .ok (.undecoded metadata.payload e))
          | .ok samples =>
              ((p.countPacket samples.length).consumeBuffer binaryEnd,
                .ok (.packet (.new metadata samples)))

/-- Parse one complete packet from the front of the buffer, if present. -/
def tryParseCompletePacket (p : StreamParser) : StreamParser × Except Error (ParseStep Sample) :=
  match scanPacketHeader codec.metadata p.pending with
  | .incomplete skippable rejected =>
      let p := (p.countErrors rejected).consumeBuffer skippable
      if maxJsonBuffer < p.pending.length then (p, .error unterminatedError)
      else (p, .ok .needMore)
  | .header metadata json payloadStart rejected =>
      let p := p.countErrors rejected
      if p.format = .json then p.parseJsonPacket codec metadata json payloadStart
      else p.parseBinaryPacket codec metadata payloadStart

theorem payloadStartAt_pos (buf : Bytes) (stop : Nat) : 0 < payloadStartAt buf stop := by
  unfold payloadStartAt
  split <;> omega

/-- A header is found in a nonempty buffer and spends at least one byte. -/
theorem scanned_header {deserialize : Bytes → Option PacketMetadata} {buf : Bytes} {metadata json}
    {payloadStart rejected : Nat}
    (scanned : scanPacketHeader deserialize buf = .header metadata json payloadStart rejected) :
    0 < payloadStart ∧ 0 < buf.length := by
  rw [scanPacketHeader_eq, scanResult] at scanned
  split at scanned
  · rename_i m found
    obtain ⟨-, size, ⟨stop, rest, shape, -⟩, -, -⟩ :=
      (headerGrammar deserialize).firstMatch_layout found
    simp only [HeaderScan.header.injEq] at scanned
    refine ⟨scanned.2.2.1 ▸ payloadStartAt_pos _ _, ?_⟩
    have : 0 < m.rest.length := by simp [shape]
    simp only [List.drop_zero] at size
    omega
  · simp at scanned

theorem pending_consumeBuffer_lt {p : StreamParser} {n : Nat} (positive : 0 < n)
    (nonempty : 0 < p.pending.length) : (p.consumeBuffer n).pending.length < p.pending.length := by
  rw [pending_consumeBuffer, List.length_drop]
  omega

/-- Every attempt that yields an item consumes at least one pending byte. -/
theorem tryParse_progress {p q : StreamParser} {step : ParseStep Sample}
    {item : ParsedItem Sample} (tried : p.tryParseCompletePacket codec = (q, .ok step))
    (yielded : step.item = some item) : q.pending.length < p.pending.length := by
  unfold tryParseCompletePacket at tried
  split at tried
  · -- an incomplete scan yields no item
    rename_i skippable rejected scanned
    dsimp only at tried
    split at tried
    · simp at tried
    · simp only [Prod.mk.injEq, Except.ok.injEq] at tried
      rw [← tried.2] at yielded
      simp [ParseStep.item] at yielded
  · rename_i metadata json payloadStart rejected scanned
    obtain ⟨spends, nonempty⟩ := scanned_header scanned
    have nonempty' : 0 < (p.countErrors rejected).pending.length := nonempty
    have counted : (p.countErrors rejected).pending = p.pending := rfl
    rw [← counted]
    generalize p.countErrors rejected = p' at tried nonempty'
    dsimp only at tried
    split at tried
    · simp only [parseJsonPacket] at tried
      split at tried
      · obtain ⟨rfl, -⟩ := Prod.mk.inj tried
        exact pending_consumeBuffer_lt spends nonempty'
      · split at tried
        · obtain ⟨rfl, -⟩ := Prod.mk.inj tried
          exact pending_consumeBuffer_lt spends nonempty'
        · obtain ⟨rfl, -⟩ := Prod.mk.inj tried
          exact pending_consumeBuffer_lt (p := p'.countPacket _) spends nonempty'
    · simp only [parseBinaryPacket] at tried
      split at tried
      · obtain ⟨rfl, -⟩ := Prod.mk.inj tried
        exact pending_consumeBuffer_lt spends nonempty'
      · rename_i expectedBytes _
        split at tried
        · obtain ⟨rfl, -⟩ := Prod.mk.inj tried
          exact pending_consumeBuffer_lt (p := { p' with skipBytes := _ }) nonempty' nonempty'
        · split at tried
          · simp only [Prod.mk.injEq, Except.ok.injEq] at tried
            rw [← tried.2] at yielded
            simp [ParseStep.item] at yielded
          · split at tried
            · obtain ⟨rfl, -⟩ := Prod.mk.inj tried
              exact pending_consumeBuffer_lt (by omega) nonempty'
            · obtain ⟨rfl, -⟩ := Prod.mk.inj tried
              exact pending_consumeBuffer_lt (p := p'.countPacket _) (by omega) nonempty'

/-- The state after an item: everything but a packet counts as a parse error. -/
def countItem (p : StreamParser) (item : ParsedItem Sample) : StreamParser :=
  if item.isPacket then p else p.countErrors 1

@[simp] theorem pending_countItem (p : StreamParser) (item : ParsedItem Sample) :
    (p.countItem item).pending = p.pending := by
  unfold countItem
  split <;> rfl

theorem SameSettings.countItem (p : StreamParser) (item : ParsedItem Sample) :
    SameSettings p (p.countItem item) := by
  unfold StreamParser.countItem
  split
  · exact SameSettings.refl p
  · exact SameSettings.countErrors p 1

/-- The loop of `parseBuffered`: parse until more data is needed, or with
`stopAtLoss` until (and including) the first item that is not a packet. -/
def parseLoop (stopAtLoss : Bool) (p : StreamParser) :
    StreamParser × Except Error (List (ParsedItem Sample)) :=
  match _h : p.tryParseCompletePacket codec with
  | (q, .error e) => (q.countErrors 1, .error e)
  | (q, .ok step) =>
      match _i : step.item with
      | none => (q, .ok [])
      | some item =>
          if stopAtLoss && !item.isPacket then (q.countItem item, .ok [item])
          else
            let (r, items) := parseLoop stopAtLoss (q.countItem item)
            (r, items.map (item :: ·))
termination_by p.pending.length
decreasing_by
  rw [pending_countItem]
  exact tryParse_progress codec _h _i

theorem parseLoop_fail {stopAtLoss : Bool} {p q : StreamParser} {error : Error}
    (tried : p.tryParseCompletePacket codec = (q, .error error)) :
    p.parseLoop codec stopAtLoss = (q.countErrors 1, .error error) := by
  rw [parseLoop]
  split
  · rename_i here
    rw [tried] at here
    obtain ⟨rfl, rfl⟩ := by simpa using here
    rfl
  · rename_i here
    simp [tried] at here

theorem parseLoop_wait {stopAtLoss : Bool} {p q : StreamParser} {step : ParseStep Sample}
    (tried : p.tryParseCompletePacket codec = (q, .ok step)) (waits : step.item = none) :
    p.parseLoop codec stopAtLoss = (q, .ok []) := by
  rw [parseLoop]
  split
  · rename_i here
    simp [tried] at here
  · rename_i here
    rw [tried] at here
    obtain ⟨rfl, rfl⟩ := by simpa using here
    split
    · rfl
    · rename_i yielded
      simp [waits] at yielded

theorem parseLoop_yield {stopAtLoss : Bool} {p q : StreamParser} {step : ParseStep Sample}
    {item : ParsedItem Sample} (tried : p.tryParseCompletePacket codec = (q, .ok step))
    (yielded : step.item = some item) :
    p.parseLoop codec stopAtLoss =
      if stopAtLoss && !item.isPacket then (q.countItem item, .ok [item])
      else
        (((q.countItem item).parseLoop codec stopAtLoss).1,
          ((q.countItem item).parseLoop codec stopAtLoss).2.map (item :: ·)) := by
  rw [parseLoop]
  split
  · rename_i here
    simp [tried] at here
  · rename_i here
    rw [tried] at here
    obtain ⟨rfl, rfl⟩ := by simpa using here
    split
    · rename_i waits
      simp [yielded] at waits
    · rename_i item' yielded'
      obtain rfl : item' = item := Option.some.inj (yielded'.symm.trans yielded)
      rfl

theorem parseLoop_item {stopAtLoss : Bool} {p q : StreamParser} {step : ParseStep Sample}
    {item : ParsedItem Sample} (tried : p.tryParseCompletePacket codec = (q, .ok step))
    (yielded : step.item = some item) (onward : (stopAtLoss && !item.isPacket) = false) :
    p.parseLoop codec stopAtLoss =
      (((q.countItem item).parseLoop codec stopAtLoss).1,
        ((q.countItem item).parseLoop codec stopAtLoss).2.map (item :: ·)) := by
  rw [parseLoop_yield codec tried yielded, onward]
  rfl

theorem parseLoop_stop {stopAtLoss : Bool} {p q : StreamParser} {step : ParseStep Sample}
    {item : ParsedItem Sample} (tried : p.tryParseCompletePacket codec = (q, .ok step))
    (yielded : step.item = some item) (stops : (stopAtLoss && !item.isPacket) = true) :
    p.parseLoop codec stopAtLoss = (q.countItem item, .ok [item]) := by
  rw [parseLoop_yield codec tried yielded, stops]
  rfl

/-- Buffer `data` and parse every packet it completes. -/
def parseBuffered (stopAtLoss : Bool) (p : StreamParser) (data : Bytes) :
    StreamParser × Except Error (List (ParsedItem Sample)) :=
  let p := { p with counters := { p.counters with
    bytesProcessed := p.counters.bytesProcessed + data.length } }
  -- the tail of a rejected payload: drop it without buffering
  let skip := min p.skipBytes data.length
  let p := { p with skipBytes := p.skipBytes - skip }
  if 0 < skip ∧ skip = data.length then (p, .ok [])
  else (p.extendBuffer (data.drop skip)).parseLoop codec stopAtLoss

/-- A malformed packet costs only itself; `error` is kept for a header that never
terminates. -/
def processDataRecovering (p : StreamParser) (data : Bytes) :
    StreamParser × Except Error (List (ParsedItem Sample)) :=
  p.parseBuffered codec false data

/-- Feed chunks in order, collecting the items, until a call fails. -/
def feed (p : StreamParser) : List Bytes → Except Error (List (ParsedItem Sample) × StreamParser)
  | [] => .ok ([], p)
  | chunk :: chunks =>
      match p.processDataRecovering codec chunk with
      | (_, .error e) => .error e
      | (q, .ok items) =>
          match feed q chunks with
          | .error e => .error e
          | .ok (later, r) => .ok (items ++ later, r)

/-! ## What no call changes -/

/-- What a parser is made with and no call changes. -/
def tuning (p : StreamParser) : StreamFormat × Option F64 := (p.format, p.defaultEncodeScale)

theorem SameSettings.tuning {p q : StreamParser} (same : SameSettings p q) :
    q.tuning = p.tuning :=
  Prod.ext same.format same.scale

theorem tuning_parseJsonPacket (p : StreamParser) (metadata : PacketMetadata) (json : Nat × Nat)
    (payloadStart : Nat) :
    (p.parseJsonPacket codec metadata json payloadStart).1.tuning = p.tuning := by
  unfold parseJsonPacket
  split
  · exact (SameSettings.consumeBuffer p payloadStart).tuning
  · split
    · exact (SameSettings.consumeBuffer p payloadStart).tuning
    · exact (SameSettings.consumeBuffer _ payloadStart).tuning

theorem tuning_parseBinaryPacket (p : StreamParser) (metadata : PacketMetadata)
    (payloadStart : Nat) :
    (p.parseBinaryPacket codec metadata payloadStart).1.tuning = p.tuning := by
  unfold parseBinaryPacket
  dsimp only
  split
  · exact (SameSettings.consumeBuffer p payloadStart).tuning
  · split
    · exact (SameSettings.consumeBuffer _ _).tuning
    · split
      · rfl
      · split <;> exact (SameSettings.consumeBuffer _ _).tuning

theorem tuning_tryParse (p : StreamParser) :
    (p.tryParseCompletePacket codec).1.tuning = p.tuning := by
  unfold tryParseCompletePacket
  dsimp only
  split
  · split <;> exact (SameSettings.consumeBuffer _ _).tuning
  · split
    · exact tuning_parseJsonPacket codec _ _ _ _
    · exact tuning_parseBinaryPacket codec _ _ _

theorem tuning_parseLoop (stopAtLoss : Bool) (p : StreamParser) :
    (p.parseLoop codec stopAtLoss).1.tuning = p.tuning := by
  have tries : ∀ {p q : StreamParser} {outcome : Except Error (ParseStep Sample)},
      p.tryParseCompletePacket codec = (q, outcome) → q.tuning = p.tuning := by
    intro p q outcome tried
    rw [← tuning_tryParse codec p, tried]
  fun_induction p.parseLoop codec stopAtLoss with
  | case1 p q error tried =>
      have kept := tries tried
      exact kept
  | case2 p q step tried waits => exact tries tried
  | case3 p q step tried item yielded stops =>
      exact (SameSettings.countItem q item).tuning.trans (tries tried)
  | case4 p q step tried item yielded onward r items looped ih =>
      rw [looped] at ih
      exact ih.trans ((SameSettings.countItem q item).tuning.trans (tries tried))

theorem tuning_processDataRecovering (p : StreamParser) (data : Bytes) :
    (p.processDataRecovering codec data).1.tuning = p.tuning := by
  unfold processDataRecovering parseBuffered
  dsimp only
  split
  · rfl
  · exact tuning_parseLoop codec false _

end StreamParser
end SdrAaronia.HttpStreaming
