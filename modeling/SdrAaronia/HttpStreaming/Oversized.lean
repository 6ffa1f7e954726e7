import SdrAaronia.HttpStreaming.RoundTrip

/-! # Skipping an oversized payload

A header above the cap is reported lost at once and its payload is dropped as it
arrives.  Which bytes that drops depends on where the chunk holding the header's
terminator ends.
-/

namespace SdrAaronia.HttpStreaming

open Delimited Framing

/-- The parts of the chunks behind the first `n` bytes of the whole. -/
def partsAfter : Nat → List Bytes → List Bytes
  | _, [] => []
  | n, chunk :: chunks => chunk.drop n :: partsAfter (n - chunk.length) chunks

namespace StreamParser

/-- The parser without its counters, which decide nothing. -/
def plain (p : StreamParser) : StreamParser := { p with counters := {} }

@[simp] theorem plain_pending (p : StreamParser) : p.plain.pending = p.pending := rfl
@[simp] theorem plain_plain (p : StreamParser) : p.plain.plain = p.plain := rfl
@[simp] theorem plain_countErrors (p : StreamParser) (n : Nat) :
    (p.countErrors n).plain = p.plain := rfl
@[simp] theorem plain_countPacket (p : StreamParser) (n : Nat) :
    (p.countPacket n).plain = p.plain := rfl

@[simp] theorem plain_consumeBuffer (p : StreamParser) (n : Nat) :
    (p.consumeBuffer n).plain = p.plain.consumeBuffer n := by
  unfold consumeBuffer
  by_cases within : p.consumed + n < p.buffer.length
  · have within' : p.plain.consumed + n < p.plain.buffer.length := within
    rw [dif_pos within, dif_pos within']
    by_cases large : compactThreshold ≤ p.consumed + n
    · have large' : compactThreshold ≤ p.plain.consumed + n := large
      rw [if_pos large, if_pos large']
      rfl
    · have large' : ¬compactThreshold ≤ p.plain.consumed + n := large
      rw [if_neg large, if_neg large']
      rfl
  · have within' : ¬p.plain.consumed + n < p.plain.buffer.length := within
    rw [dif_neg within, dif_neg within']
    rfl

@[simp] theorem plain_countItem {Sample : Type} (p : StreamParser) (item : ParsedItem Sample) :
    (p.countItem item).plain = p.plain := by
  unfold countItem
  split <;> rfl

section Plain

variable {p q : StreamParser} (same : p.plain = q.plain)

include same

theorem pending_of_plain : p.pending = q.pending := by
  have kept : p.plain.pending = q.plain.pending := congrArg _ same
  exact kept

theorem format_of_plain : p.format = q.format := by
  have kept : p.plain.format = q.plain.format := congrArg _ same
  exact kept

theorem scale_of_plain : p.defaultEncodeScale = q.defaultEncodeScale := by
  have kept : p.plain.defaultEncodeScale = q.plain.defaultEncodeScale := congrArg _ same
  exact kept

theorem skipBytes_of_plain : p.skipBytes = q.skipBytes := by
  have kept : p.plain.skipBytes = q.plain.skipBytes := congrArg _ same
  exact kept

theorem withSkipBytes_of_plain (n : Nat) :
    ({ p with skipBytes := n } : StreamParser).plain =
      ({ q with skipBytes := n } : StreamParser).plain := by
  have kept : ({ p.plain with skipBytes := n } : StreamParser) =
      { q.plain with skipBytes := n } := by rw [same]
  exact kept

theorem extendBuffer_of_plain (data : Bytes) :
    (p.extendBuffer data).plain = (q.extendBuffer data).plain := by
  have kept : p.plain.extendBuffer data = q.plain.extendBuffer data := by rw [same]
  exact kept

end Plain

/-- Two outcomes that differ in counters only. -/
def Alike {Outcome : Type} (left right : StreamParser × Outcome) : Prop :=
  left.1.plain = right.1.plain ∧ left.2 = right.2

variable {Value Sample : Type} (codec : WireCodec Value Sample)

theorem parseJsonPacket_alike {p q : StreamParser} (same : p.plain = q.plain)
    (metadata : PacketMetadata) (json : Nat × Nat) (payloadStart : Nat) :
    Alike (p.parseJsonPacket codec metadata json payloadStart)
      (q.parseJsonPacket codec metadata json payloadStart) := by
  have pending := pending_of_plain same
  simp only [parseJsonPacket, pending]
  cases codec.document (slice q.pending json.1 json.2) with
  | error e => exact ⟨by simp only [plain_consumeBuffer, same], rfl⟩
  | ok value =>
      simp only
      cases codec.jsonSamples metadata value with
      | error e => exact ⟨by simp only [plain_consumeBuffer, same], rfl⟩
      | ok samples => exact ⟨by simp only [plain_consumeBuffer, plain_countPacket, same], rfl⟩

theorem parseBinaryPacket_alike {p q : StreamParser} (same : p.plain = q.plain)
    (metadata : PacketMetadata) (payloadStart : Nat) :
    Alike (p.parseBinaryPacket codec metadata payloadStart)
      (q.parseBinaryPacket codec metadata payloadStart) := by
  have pending := pending_of_plain same
  have format := format_of_plain same
  have scale := scale_of_plain same
  have skipping := withSkipBytes_of_plain same
  simp only [parseBinaryPacket, pending, format, scale]
  cases calculateBinarySize q.format metadata with
  | error e => exact ⟨by simp only [plain_consumeBuffer, same], rfl⟩
  | ok expected =>
      simp only
      by_cases large : maxBinaryPayload < expected
      · simp only [if_pos large]
        have skipped := skipping (expected - (q.pending.length - payloadStart))
        simp only [format, scale] at skipped
        exact ⟨by rw [plain_consumeBuffer, plain_consumeBuffer, skipped], rfl⟩
      · simp only [if_neg large]
        by_cases short : q.pending.length < payloadStart + expected
        · simp only [if_pos short]
          exact ⟨same, rfl⟩
        · simp only [if_neg short]
          cases codec.binarySamples q.format q.defaultEncodeScale metadata
              (slice q.pending payloadStart (payloadStart + expected)) with
          | error e => exact ⟨by simp only [plain_consumeBuffer, same], rfl⟩
          | ok samples =>
              exact ⟨by simp only [plain_consumeBuffer, plain_countPacket, same], rfl⟩

theorem tryParse_alike {p q : StreamParser} (same : p.plain = q.plain) :
    Alike (p.tryParseCompletePacket codec) (q.tryParseCompletePacket codec) := by
  have pending := pending_of_plain same
  have format := format_of_plain same
  simp only [tryParseCompletePacket, pending]
  cases scanPacketHeader codec.metadata q.pending with
  | incomplete skippable rejected =>
      have spent : ((p.countErrors rejected).consumeBuffer skippable).plain =
          ((q.countErrors rejected).consumeBuffer skippable).plain := by
        simp only [plain_consumeBuffer, plain_countErrors, same]
      simp only [pending_of_plain spent]
      split
      · exact ⟨spent, rfl⟩
      · exact ⟨spent, rfl⟩
  | header metadata json payloadStart rejected =>
      have counted : (p.countErrors rejected).plain = (q.countErrors rejected).plain := same
      have format' : (p.countErrors rejected).format = (q.countErrors rejected).format := format
      simp only [format']
      split
      · exact parseJsonPacket_alike codec counted metadata json payloadStart
      · exact parseBinaryPacket_alike codec counted metadata payloadStart

theorem parseLoop_alike (stopAtLoss : Bool) {p q : StreamParser} (same : p.plain = q.plain) :
    Alike (p.parseLoop codec stopAtLoss) (q.parseLoop codec stopAtLoss) := by
  induction size : p.pending.length using Nat.strong_induction_on generalizing p q with
  | _ n ih =>
      obtain ⟨states, outcomes⟩ := tryParse_alike codec same
      cases tried : p.tryParseCompletePacket codec with
      | mk p' outcome =>
      cases tried' : q.tryParseCompletePacket codec with
      | mk q' outcome' =>
      rw [tried, tried'] at states outcomes
      obtain rfl : outcome = outcome' := outcomes
      cases outcome with
      | error e =>
          rw [parseLoop_fail codec tried, parseLoop_fail codec tried']
          exact ⟨states, rfl⟩
      | ok step =>
          cases yielded : step.item with
          | none =>
              rw [parseLoop_wait codec tried yielded, parseLoop_wait codec tried' yielded]
              exact ⟨states, rfl⟩
          | some item =>
              have counted : (p'.countItem item).plain = (q'.countItem item).plain := by
                simpa only [plain_countItem] using states
              cases stops : stopAtLoss && !item.isPacket with
              | true =>
                  rw [parseLoop_stop codec tried yielded stops,
                    parseLoop_stop codec tried' yielded stops]
                  exact ⟨counted, rfl⟩
              | false =>
                  rw [parseLoop_item codec tried yielded stops,
                    parseLoop_item codec tried' yielded stops]
                  have shorter := tryParse_progress codec tried yielded
                  obtain ⟨later, items⟩ := ih _ (by rw [pending_countItem]; omega) counted rfl
                  exact ⟨later, congrArg (Except.map (item :: ·)) items⟩

/-- **Counters decide nothing.** -/
theorem processDataRecovering_alike {p q : StreamParser} (same : p.plain = q.plain)
    (data : Bytes) :
    Alike (p.processDataRecovering codec data) (q.processDataRecovering codec data) := by
  have counted : ({ p with counters := { p.counters with
      bytesProcessed := p.counters.bytesProcessed + data.length } } : StreamParser).plain =
      ({ q with counters := { q.counters with
        bytesProcessed := q.counters.bytesProcessed + data.length } } : StreamParser).plain := same
  simp only [processDataRecovering, parseBuffered, skipBytes_of_plain same]
  have skipped := withSkipBytes_of_plain counted (q.skipBytes - min q.skipBytes data.length)
  split
  · exact ⟨skipped, rfl⟩
  · exact parseLoop_alike codec false (extendBuffer_of_plain skipped _)

/-- What every call returns, a failed one not ending the run. -/
def calls (p : StreamParser) : List Bytes → List (Except Error (List (ParsedItem Sample)))
  | [] => []
  | chunk :: chunks =>
      (p.processDataRecovering codec chunk).2 ::
        calls (p.processDataRecovering codec chunk).1 chunks

theorem calls_alike {p q : StreamParser} (same : p.plain = q.plain) (chunks : List Bytes) :
    p.calls codec chunks = q.calls codec chunks := by
  induction chunks generalizing p q with
  | nil => rfl
  | cons chunk chunks ih =>
      obtain ⟨states, outcomes⟩ := processDataRecovering_alike codec same chunk
      simp only [calls, outcomes, ih states]

/-! ## An empty buffer -/

/-- A fresh parser that has `skip` bytes to drop. -/
def skipping (format : StreamFormat) (scale : Option F64) (skip : Nat) : StreamParser :=
  { new format scale with skipBytes := skip }

/-- Nothing is buffered; `skip` bytes are to be dropped. -/
def Empty (format : StreamFormat) (scale : Option F64) (skip : Nat) (p : StreamParser) : Prop :=
  p.plain = (skipping format scale skip).plain

theorem empty_new (format : StreamFormat) (scale : Option F64) :
    Empty format scale 0 (new format scale) := rfl

theorem consumeBuffer_all {p : StreamParser} {n : Nat} (all : p.pending.length ≤ n) :
    p.consumeBuffer n = { p with buffer := [], consumed := 0, within := Nat.le_refl 0 } := by
  have within := p.within
  rw [pending, List.length_drop] at all
  exact dif_neg (by omega)

theorem empty_consumeBuffer (p : StreamParser) {n : Nat} (all : p.pending.length ≤ n) :
    Empty p.format p.defaultEncodeScale p.skipBytes (p.consumeBuffer n) := by
  rw [consumeBuffer_all all]
  rfl

theorem tryParse_empty {format : StreamFormat} {scale : Option F64} {skip : Nat} {p : StreamParser}
    (empty : Empty format scale skip p) :
    ∃ q, Empty format scale skip q ∧ p.tryParseCompletePacket codec = (q, .ok .needMore) := by
  have pending : p.pending = [] := pending_of_plain empty
  have scanned : scanPacketHeader codec.metadata [] = .incomplete 0 0 := by
    rw [scanPacketHeader_eq]
    rfl
  refine ⟨(p.countErrors 0).consumeBuffer 0, ?_, ?_⟩
  · have none' : (p.countErrors 0).pending.length ≤ 0 := by simp [pending]
    rw [Empty, consumeBuffer_all none']
    have kept := empty
    simp only [Empty, plain] at kept ⊢
    simp_all [countErrors, skipping, new]
  · have short : ¬maxJsonBuffer < ((p.countErrors 0).consumeBuffer 0).pending.length := by
      simp [pending]
    simp only [tryParseCompletePacket, pending, scanned, if_neg short]

theorem parseLoop_empty {format : StreamFormat} {scale : Option F64} {skip : Nat}
    {p : StreamParser} (empty : Empty format scale skip p) :
    ∃ q, Empty format scale skip q ∧ p.parseLoop codec false = (q, .ok []) := by
  obtain ⟨q, emptied, tried⟩ := tryParse_empty codec empty
  exact ⟨q, emptied, parseLoop_wait codec tried rfl⟩

/-- A call with nothing in it, or with nothing but skipped bytes, returns nothing. -/
theorem processDataRecovering_skipped {format : StreamFormat} {scale : Option F64} {skip : Nat}
    {p : StreamParser} (empty : Empty format scale skip p) {data : Bytes}
    (covered : data.length ≤ skip) :
    ∃ q, Empty format scale (skip - data.length) q ∧
      p.processDataRecovering codec data = (q, .ok []) := by
  have skips : p.skipBytes = skip := skipBytes_of_plain empty
  have all : min skip data.length = data.length := Nat.min_eq_right covered
  have skipped := withSkipBytes_of_plain empty (skip - data.length)
  simp only [processDataRecovering, parseBuffered, skips, all, and_true]
  by_cases some' : 0 < data.length
  · rw [if_pos some']
    refine ⟨_, ?_, rfl⟩
    exact skipped
  · have none' : data = [] := List.length_eq_zero_iff.mp (by omega)
    subst none'
    rw [if_neg some']
    have extended := extendBuffer_of_plain skipped []
    exact parseLoop_empty codec extended

/-- Past the bytes to be skipped, a call is a call of a fresh parser. -/
theorem processDataRecovering_past {format : StreamFormat} {scale : Option F64} {skip : Nat}
    {p : StreamParser} (empty : Empty format scale skip p) {data : Bytes}
    (past : skip < data.length) :
    Alike (p.processDataRecovering codec data)
      ((new format scale).processDataRecovering codec (data.drop skip)) := by
  have skips : p.skipBytes = skip := skipBytes_of_plain empty
  have part : min skip data.length = skip := Nat.min_eq_left past.le
  have rest : ¬(0 < skip ∧ skip = data.length) := by omega
  have skipped := withSkipBytes_of_plain empty 0
  simp only [processDataRecovering, parseBuffered, skips, part, if_neg rest, Nat.sub_self]
  exact parseLoop_alike codec false (extendBuffer_of_plain skipped (data.drop skip))

theorem partsAfter_zero (chunks : List Bytes) : partsAfter 0 chunks = chunks := by
  induction chunks with
  | nil => rfl
  | cons chunk chunks ih =>
      rw [partsAfter, List.drop_zero, Nat.zero_sub, ih]

/-- **Skipping is feeding a fresh parser what lies behind the skipped bytes.** -/
theorem calls_skip {format : StreamFormat} {scale : Option F64} {skip : Nat} {p : StreamParser}
    (empty : Empty format scale skip p) (chunks : List Bytes) :
    p.calls codec chunks = (new format scale).calls codec (partsAfter skip chunks) := by
  induction chunks generalizing p skip with
  | nil => rfl
  | cons chunk chunks ih =>
      simp only [partsAfter, calls]
      by_cases covered : chunk.length ≤ skip
      · obtain ⟨q, left, skipped⟩ := processDataRecovering_skipped codec empty covered
        have no : ([] : Bytes).length ≤ 0 := le_rfl
        obtain ⟨fresh, still, nothing⟩ :=
          processDataRecovering_skipped codec (empty_new format scale) no
        rw [List.drop_of_length_le covered, skipped, nothing, ih left]
        have same : fresh.plain = (new format scale).plain := still
        rw [calls_alike codec same]
      · have past : skip < chunk.length := by omega
        obtain ⟨states, outcomes⟩ := processDataRecovering_past codec empty past
        have done : skip - chunk.length = 0 := by omega
        rw [outcomes, calls_alike codec states, done, partsAfter_zero]

/-! ## Up to the header and past it -/

/-- While the header's terminator is missing, a call keeps everything or gives up. -/
theorem processDataRecovering_unstopped {p : StreamParser} (idle : p.skipBytes = 0) {data : Bytes}
    (unstopped : (p.pending ++ data).any isTerminator = false)
    (opened : ∀ b ∈ (p.pending ++ data).head?, isBrace b = true) :
    ∃ q, SameSettings p q ∧ q.pending = p.pending ++ data ∧
      p.processDataRecovering codec data =
        if maxJsonBuffer < (p.pending ++ data).length then
          (q.countErrors 1, .error unterminatedError)
        else (q, .ok []) := by
  obtain ⟨started, entered, pending, looped⟩ := p.processDataRecovering_idle codec idle data
  have missing : (started.wire codec).firstMatch started.pending = none := by
    rw [pending]
    exact (started.wire codec).firstMatch_unstopped unstopped
  have spent : (started.wire codec).spent started.pending = 0 := by
    rw [pending]
    exact (started.wire codec).spent_opened unstopped opened
  obtain ⟨kept, same, left, tried⟩ := started.tryParse_missing codec missing
  rw [spent, List.drop_zero, pending] at left
  rw [left] at tried
  refine ⟨kept, entered.trans same, left, ?_⟩
  by_cases long : maxJsonBuffer < (p.pending ++ data).length
  · rw [if_pos long] at tried ⊢
    rw [looped, parseLoop_fail codec tried]
  · rw [if_neg long] at tried ⊢
    rw [looped, parseLoop_wait codec tried rfl]

/-- The calls ahead of the terminator: all quiet up to the buffer's bound. -/
theorem feed_unstopped {p : StreamParser} (idle : p.skipBytes = 0) (chunks : List Bytes)
    (unstopped : (p.pending ++ chunks.flatten).any isTerminator = false)
    (opened : ∀ b ∈ (p.pending ++ chunks.flatten).head?, isBrace b = true)
    (start : p.pending.length ≤ maxJsonBuffer) :
    if (p.pending ++ chunks.flatten).length ≤ maxJsonBuffer then
      ∃ q, p.feed codec chunks = .ok ([], q) ∧ SameSettings p q ∧
        q.pending = p.pending ++ chunks.flatten
    else p.feed codec chunks = .error unterminatedError := by
  induction chunks generalizing p with
  | nil =>
      rw [List.flatten_nil, List.append_nil, if_pos start]
      exact ⟨p, rfl, .refl p, rfl⟩
  | cons chunk chunks ih =>
      rw [List.flatten_cons, ← List.append_assoc] at unstopped opened ⊢
      have head : (p.pending ++ chunk).any isTerminator = false := by
        rw [List.any_append, Bool.or_eq_false_iff] at unstopped
        exact unstopped.1
      have opens : ∀ b ∈ (p.pending ++ chunk).head?, isBrace b = true := by
        intro b first
        exact opened b (by rw [List.head?_append, first]; rfl)
      obtain ⟨q, same, left, returned⟩ :=
        processDataRecovering_unstopped codec idle head opens
      have grows : (p.pending ++ chunk).length ≤
          (p.pending ++ chunk ++ chunks.flatten).length := by simp
      by_cases short : (p.pending ++ chunk).length ≤ maxJsonBuffer
      · have rest := ih (same.skip.trans idle) (by rwa [left]) (by rwa [left]) (by rwa [left])
        rw [left] at rest
        rw [if_neg (by omega)] at returned
        simp only [feed, returned]
        split at rest
        · rename_i fits
          obtain ⟨last, fed, settings, pending⟩ := rest
          rw [if_pos fits]
          exact ⟨last, by rw [fed]; rfl, same.trans settings, pending⟩
        · rename_i long
          rw [if_neg long, rest]
      · rw [if_neg (by omega)]
        rw [if_pos (by omega)] at returned
        simp only [feed, returned]

/-- An attempt at a header above the cap consumes the whole buffer. -/
theorem tryParse_overCap {p : StreamParser} (binary : p.format.Binary)
    {m : Match UInt8 PacketMetadata} (found : (p.wire codec).firstMatch p.pending = some m)
    {expected : Nat} (sized : calculateBinarySize p.format m.value = .ok expected)
    (large : maxBinaryPayload < expected) :
    ∃ q, Empty p.format p.defaultEncodeScale (expected - (p.pending.length -
        (m.before + m.text.length + (p.wire codec).separator m.rest))) q ∧
      p.tryParseCompletePacket codec = (q, .ok (.lost (overCapError expected))) := by
  obtain ⟨rejected, scanned⟩ := p.scan_found codec found
  have format : ¬(p.countErrors rejected).format = .json := binary
  have sized' : calculateBinarySize (p.countErrors rejected).format m.value = .ok expected := sized
  simp only [tryParseCompletePacket, scanned, if_neg format, parseBinaryPacket, sized',
    if_pos large, pending_countErrors]
  refine ⟨_, ?_, rfl⟩
  exact empty_consumeBuffer { p.countErrors rejected with skipBytes := _ } le_rfl

/-- The call that brings the terminator reports the loss and drops the buffer. -/
theorem processDataRecovering_overCap {p : StreamParser} (binary : p.format.Binary)
    (idle : p.skipBytes = 0) {data : Bytes} {m : Match UInt8 PacketMetadata}
    (found : (p.wire codec).firstMatch (p.pending ++ data) = some m) {expected : Nat}
    (sized : calculateBinarySize p.format m.value = .ok expected)
    (large : maxBinaryPayload < expected) :
    ∃ q, Empty p.format p.defaultEncodeScale (expected - ((p.pending ++ data).length -
        (m.before + m.text.length + (p.wire codec).separator m.rest))) q ∧
      p.processDataRecovering codec data = (q, .ok [.lost (overCapError expected)]) := by
  obtain ⟨started, entered, pending, looped⟩ := p.processDataRecovering_idle codec idle data
  have wire := entered.wire codec
  rw [← wire, ← pending] at found
  rw [← entered.format] at sized binary
  obtain ⟨dropped, empty, tried⟩ := tryParse_overCap codec binary found sized large
  rw [wire, pending, entered.format, entered.scale] at empty
  have counted : Empty p.format p.defaultEncodeScale (expected - ((p.pending ++ data).length -
      (m.before + m.text.length + (p.wire codec).separator m.rest)))
      (dropped.countItem (.lost (overCapError expected) : ParsedItem Sample)) := by
    rw [Empty, plain_countItem]
    exact empty
  obtain ⟨last, left, ended⟩ := parseLoop_empty codec counted
  refine ⟨last, left, ?_⟩
  rw [looped, parseLoop_item codec tried rfl rfl, ended]
  rfl

end StreamParser

/-! ## Exactly when the payload is skipped exactly -/

/-- A header above the cap, its separator and its payload. -/
structure OversizedPacket where
  header : Bytes
  metadata : PacketMetadata
  separator : Separator
  payload : Bytes

namespace OversizedPacket

/-- The bytes the packet takes up on the wire. -/
def extent (o : OversizedPacket) : Nat :=
  o.header.length + o.separator.bytes.length + o.payload.length

/-- What the parser goes on to skip when the terminator's chunk ends `arrived`
bytes into the stream: half a separator is taken for a whole one. -/
def skipLeft (o : OversizedPacket) (arrived : Nat) : Nat :=
  o.payload.length - (arrived - (o.header.length +
    if o.separator = .lineFeedRecord ∧ arrived - o.header.length = 1 then 1
    else o.separator.bytes.length))

def stream (o : OversizedPacket) (further : Bytes) : Bytes :=
  o.header ++ (o.separator.bytes ++ (o.payload ++ further))

structure Written (deserialize : Bytes → Option PacketMetadata) (format : StreamFormat)
    (o : OversizedPacket) : Prop where
  opened : o.header.head? = some openBrace
  clear : ∀ b ∈ o.header, isTerminator b = false
  deserializes : deserialize o.header = some o.metadata
  declares : calculateBinarySize format o.metadata = .ok o.payload.length
  large : maxBinaryPayload < o.payload.length
  separated : o.separator = .lineFeed → o.payload.head? ≠ some asciiRecordSeparator

end OversizedPacket

/-- Byte `n` of the whole arrives with `chunk`. -/
structure Arrival (n : Nat) (chunks before : List Bytes) (chunk : Bytes) (after : List Bytes) :
    Prop where
  whole : chunks = before ++ chunk :: after
  early : before.flatten.length ≤ n
  arrives : n < before.flatten.length + chunk.length

theorem Arrival.unique {n : Nat} {chunks before before' : List Bytes} {chunk chunk' : Bytes}
    {after after' : List Bytes} (left : Arrival n chunks before chunk after)
    (right : Arrival n chunks before' chunk' after') :
    before = before' ∧ chunk = chunk' ∧ after = after' := by
  obtain ⟨rfl, early, arrives⟩ := left
  obtain ⟨whole, early', arrives'⟩ := right
  induction before generalizing before' n with
  | nil =>
      cases before' with
      | nil => simpa using whole
      | cons first before' =>
          obtain ⟨rfl, -⟩ := List.cons.inj whole
          simp only [List.flatten_nil, List.length_nil, List.flatten_cons, List.length_append]
            at arrives early'
          omega
  | cons first before ih =>
      cases before' with
      | nil =>
          obtain ⟨rfl, -⟩ := List.cons.inj whole
          simp only [List.flatten_nil, List.length_nil, List.flatten_cons, List.length_append]
            at arrives' early
          omega
      | cons first' before' =>
          obtain ⟨rfl, rest⟩ := List.cons.inj whole
          simp only [List.flatten_cons, List.length_append] at early arrives early' arrives'
          obtain ⟨rfl, same⟩ := ih (n := n - first.length) (by omega) (by omega) rest (by omega)
            (by omega)
          exact ⟨rfl, same⟩

section Exact

variable {Value Sample : Type} (codec : WireCodec Value Sample) (format : StreamFormat)
  (scale : Option F64)

/-- One loss is reported, with the header's terminator; what is framed from then
on is exactly `further`; and the later calls are those of a fresh parser fed the
chunks' parts in it. -/
def SkipsExactly (o : OversizedPacket) (further : Bytes) (chunks : List Bytes) : Prop :=
  ∃ before chunk after q r, Arrival o.header.length chunks before chunk after ∧
    (StreamParser.new format scale).feed codec before = .ok ([], q) ∧
    q.processDataRecovering codec chunk = (r, .ok [.lost (overCapError o.payload.length)]) ∧
    r.pending ++ after.flatten.drop r.skipBytes = further ∧
    r.calls codec after = (StreamParser.new format scale).calls codec
      (partsAfter (o.extent - (before.flatten.length + chunk.length)) after)

/-- The chunk that brings the terminator ends neither inside a two-byte separator
nor behind the payload, and no more than the buffer's bound came before it. -/
def CutOutsideSkip (o : OversizedPacket) (chunks : List Bytes) : Prop :=
  ∃ before chunk after, Arrival o.header.length chunks before chunk after ∧
    before.flatten.length ≤ maxJsonBuffer ∧
    ¬(o.separator = .lineFeedRecord ∧
      before.flatten.length + chunk.length = o.header.length + 1) ∧
    before.flatten.length + chunk.length ≤ o.extent

variable {format} {o : OversizedPacket} {further : Bytes} {chunks before after : List Bytes}
  {chunk : Bytes}

theorem OversizedPacket.stream_length (o : OversizedPacket) (further : Bytes) :
    (o.stream further).length = o.extent + further.length := by
  simp only [OversizedPacket.stream, OversizedPacket.extent, List.length_append, Nat.add_assoc]

theorem OversizedPacket.stream_drop (o : OversizedPacket) (further : Bytes) :
    (o.stream further).drop o.extent = further := by
  have whole : o.stream further =
      (o.header ++ o.separator.bytes ++ o.payload) ++ further := by
    simp only [OversizedPacket.stream, List.append_assoc]
  have size : o.extent = (o.header ++ o.separator.bytes ++ o.payload).length := by
    simp only [OversizedPacket.extent, List.length_append]
  rw [whole, size, List.drop_left]

/-- What has arrived of the separator decides where the payload is taken to start. -/
theorem OversizedPacket.separator_seen (o : OversizedPacket) (further : Bytes)
    (written : o.Written codec.metadata format) {k : Nat}
    (some' : 0 < k) :
    ∃ stop rest, (o.separator.bytes ++ (o.payload ++ further)).take k = stop :: rest ∧
      isTerminator stop = true ∧ (wireFormat codec format scale).separator (stop :: rest) =
        if o.separator = .lineFeedRecord ∧ k = 1 then 1 else o.separator.bytes.length := by
  obtain ⟨k, rfl⟩ := Nat.exists_eq_add_of_lt some'
  rw [Nat.zero_add]
  cases kind : o.separator with
  | lineFeedRecord =>
      cases k with
      | zero => exact ⟨_, _, rfl, rfl, rfl⟩
      | succ k => exact ⟨_, _, rfl, rfl, rfl⟩
  | record =>
      refine ⟨_, _, rfl, rfl, ?_⟩
      rw [if_neg (by simp)]
      cases ((([] : Bytes) ++ (o.payload ++ further)).take k) <;> rfl
  | lineFeed =>
      refine ⟨_, _, rfl, rfl, ?_⟩
      rw [if_neg (by simp)]
      have alone := written.separated kind
      have large := written.large
      cases payload : o.payload with
      | nil => simp [payload] at large
      | cons follower rest =>
          have other : ¬follower = asciiRecordSeparator := by simpa [payload] using alone
          cases k with
          | zero => rfl
          | succ k => exact if_neg (by simp [wireFormat, separatorPairs, other])

/-- The calls ahead of the terminator's. -/
theorem feed_before (written : o.Written codec.metadata format)
    (cut : chunks.flatten = o.stream further)
    (arrival : Arrival o.header.length chunks before chunk after) :
    if before.flatten.length ≤ maxJsonBuffer then
      ∃ q, (StreamParser.new format scale).feed codec before = .ok ([], q) ∧
        StreamParser.SameSettings (.new format scale) q ∧ q.pending = before.flatten
    else (StreamParser.new format scale).feed codec before = .error unterminatedError := by
  obtain ⟨rfl, early, arrives⟩ := arrival
  rw [List.flatten_append, List.flatten_cons] at cut
  have ahead : before.flatten = o.header.take before.flatten.length := by
    have taken := congrArg (List.take before.flatten.length) cut
    rwa [List.take_left, OversizedPacket.stream, List.take_append_of_le_length early] at taken
  have unstopped : before.flatten.any isTerminator = false := by
    rw [List.any_eq_false]
    intro b member
    rw [ahead] at member
    simp [written.clear b (List.mem_of_mem_take member)]
  have opened : ∀ b ∈ before.flatten.head?, isBrace b = true := by
    intro b first
    rw [ahead, List.head?_take] at first
    split at first
    · simp at first
    · rw [written.opened] at first
      cases first
      rfl
  exact StreamParser.feed_unstopped codec (p := .new format scale) rfl before unstopped
    opened (Nat.zero_le _)

/-- The state after the terminator's call: how much it skips, wherever the cut. -/
theorem arrival_outcome (binary : format.Binary) (written : o.Written codec.metadata format)
    (cut : chunks.flatten = o.stream further)
    (arrival : Arrival o.header.length chunks before chunk after)
    (short : before.flatten.length ≤ maxJsonBuffer) :
    ∃ q r, (StreamParser.new format scale).feed codec before = .ok ([], q) ∧
      q.processDataRecovering codec chunk = (r, .ok [.lost (overCapError o.payload.length)]) ∧
      StreamParser.Empty format scale
        (o.skipLeft (before.flatten.length + chunk.length)) r := by
  have ahead := feed_before codec scale written cut arrival
  rw [if_pos short] at ahead
  obtain ⟨q, fed, settings, pending⟩ := ahead
  obtain ⟨rfl, early, arrives⟩ := arrival
  rw [List.flatten_append, List.flatten_cons] at cut
  have arrived : q.pending ++ chunk = o.header ++ (o.separator.bytes ++
      (o.payload ++ further)).take (before.flatten.length + chunk.length - o.header.length) := by
    have taken := congrArg (List.take (before.flatten ++ chunk).length) cut
    rw [← List.append_assoc, List.take_left, OversizedPacket.stream, List.take_append,
      List.length_append, List.take_of_length_le arrives.le] at taken
    rw [pending, taken]
  have some' : 0 < before.flatten.length + chunk.length - o.header.length := by omega
  obtain ⟨stop, rest, body, isStop, seen⟩ := o.separator_seen codec scale further written some'
  obtain ⟨first, quiet, text⟩ := List.exists_cons_of_ne_nil (l := o.header) (by
    intro empty
    simpa [empty] using written.opened)
  have opens : isBrace first = true := by simpa [text, isBrace] using written.opened
  have wire : q.wire codec = wireFormat codec format scale := settings.wire codec
  have found : (q.wire codec).firstMatch (q.pending ++ chunk) =
      some ⟨0, first :: quiet, o.metadata, stop :: rest⟩ := by
    rw [arrived, body, wire, text]
    exact (wireFormat codec format scale).firstMatch_written opens (text ▸ written.clear) isStop
      (text ▸ written.deserializes)
  have formatted : q.format = format := settings.format
  obtain ⟨r, empty, lost⟩ := StreamParser.processDataRecovering_overCap codec
    (formatted.symm ▸ binary) (settings.skip.trans rfl) found
    (formatted.symm ▸ written.declares) written.large
  refine ⟨q, r, fed, lost, ?_⟩
  rw [wire, settings.scale, formatted, List.length_append, pending, Nat.zero_add, ← text, seen]
    at empty
  exact empty

/-- Unless it was cut in half, the separator has arrived whole. -/
theorem OversizedPacket.separator_arrived (o : OversizedPacket) {arrived : Nat}
    (arrives : o.header.length < arrived)
    (whole : ¬(o.separator = .lineFeedRecord ∧ arrived - o.header.length = 1)) :
    o.header.length + o.separator.bytes.length ≤ arrived := by
  cases kind : o.separator with
  | lineFeedRecord =>
      have : ¬arrived - o.header.length = 1 := fun one => whole ⟨kind, one⟩
      simp only [Separator.bytes, List.length_cons, List.length_nil]
      omega
  | record | lineFeed =>
      simp only [Separator.bytes, List.length_cons, List.length_nil]
      omega

/-- The skip never reaches behind the payload. -/
theorem OversizedPacket.skipLeft_le (o : OversizedPacket) {arrived : Nat}
    (arrives : o.header.length < arrived) :
    arrived + o.skipLeft arrived ≤ max arrived o.extent := by
  have extent : o.extent = o.header.length + o.separator.bytes.length + o.payload.length := rfl
  by_cases half : o.separator = .lineFeedRecord ∧ arrived - o.header.length = 1
  · have two : o.separator.bytes.length = 2 := by rw [half.1]; rfl
    rw [skipLeft, if_pos half]
    omega
  · rw [skipLeft, if_neg half]
    have separated := o.separator_arrived arrives half
    omega

/-- The skip ends with the payload just where the cut is harmless. -/
theorem OversizedPacket.skipLeft_iff (o : OversizedPacket) {arrived : Nat}
    (arrives : o.header.length < arrived) :
    arrived + o.skipLeft arrived = o.extent ↔
      ¬(o.separator = .lineFeedRecord ∧ arrived = o.header.length + 1) ∧ arrived ≤ o.extent := by
  have extent : o.extent = o.header.length + o.separator.bytes.length + o.payload.length := rfl
  by_cases half : o.separator = .lineFeedRecord ∧ arrived - o.header.length = 1
  · have two : o.separator.bytes.length = 2 := by rw [half.1]; rfl
    have skip : o.skipLeft arrived = o.payload.length - (arrived - (o.header.length + 1)) := by
      rw [skipLeft, if_pos half]
    have only : arrived = o.header.length + 1 := by omega
    constructor
    · omega
    · exact fun harmless => absurd ⟨half.1, only⟩ harmless.1
  · have skip : o.skipLeft arrived =
        o.payload.length - (arrived - (o.header.length + o.separator.bytes.length)) := by
      rw [skipLeft, if_neg half]
    have whole : ¬(o.separator = .lineFeedRecord ∧ arrived = o.header.length + 1) :=
      fun both => half ⟨both.1, by omega⟩
    have separated := o.separator_arrived arrives half
    constructor
    · intro same
      exact ⟨whole, by omega⟩
    · rintro ⟨-, within⟩
      omega

/-- What is framed after the loss is `further` just where the cut is harmless. -/
theorem skipped_rest_iff (cut : chunks.flatten = o.stream further)
    (arrival : Arrival o.header.length chunks before chunk after) :
    after.flatten.drop (o.skipLeft (before.flatten.length + chunk.length)) = further ↔
      ¬(o.separator = .lineFeedRecord ∧
        before.flatten.length + chunk.length = o.header.length + 1) ∧
      before.flatten.length + chunk.length ≤ o.extent := by
  obtain ⟨rfl, early, arrives⟩ := arrival
  rw [← o.skipLeft_iff arrives]
  rw [List.flatten_append, List.flatten_cons, ← List.append_assoc] at cut
  have rest : after.flatten = (o.stream further).drop (before.flatten.length + chunk.length) := by
    rw [← cut, ← List.length_append, List.drop_left]
  have total := congrArg List.length cut
  rw [List.length_append, List.length_append, o.stream_length] at total
  constructor
  · intro same
    have size := congrArg List.length same
    rw [List.length_drop] at size
    have reach := o.skipLeft_le arrives
    omega
  · intro reach
    rw [rest, List.drop_drop, reach, o.stream_drop]

theorem SkipsExactly.cutOutsideSkip (binary : format.Binary)
    (written : o.Written codec.metadata format) (cut : chunks.flatten = o.stream further)
    (skips : SkipsExactly codec format scale o further chunks) : CutOutsideSkip o chunks := by
  obtain ⟨before, chunk, after, q, r, arrival, fed, lost, kept, -⟩ := skips
  have ahead := feed_before codec scale written cut arrival
  by_cases short : before.flatten.length ≤ maxJsonBuffer
  · obtain ⟨q', r', fed', lost', empty⟩ :=
      arrival_outcome codec scale binary written cut arrival short
    obtain rfl : q = q' := by simpa [fed] using fed'
    obtain rfl : r = r' := by simpa [lost] using lost'
    have pending : r.pending = [] := StreamParser.pending_of_plain empty
    have skip := StreamParser.skipBytes_of_plain empty
    rw [pending, List.nil_append, skip] at kept
    obtain ⟨whole, within⟩ := (skipped_rest_iff cut arrival).mp kept
    exact ⟨before, chunk, after, arrival, short, whole, within⟩
  · rw [if_neg short, fed] at ahead
    exact absurd ahead (by simp)

theorem CutOutsideSkip.skipsExactly (binary : format.Binary)
    (written : o.Written codec.metadata format) (cut : chunks.flatten = o.stream further)
    (harmless : CutOutsideSkip o chunks) : SkipsExactly codec format scale o further chunks := by
  obtain ⟨before, chunk, after, arrival, short, whole, within⟩ := harmless
  obtain ⟨q, r, fed, lost, empty⟩ := arrival_outcome codec scale binary written cut arrival short
  have pending : r.pending = [] := StreamParser.pending_of_plain empty
  have skip := StreamParser.skipBytes_of_plain empty
  have kept := (skipped_rest_iff cut arrival).mpr ⟨whole, within⟩
  refine ⟨before, chunk, after, q, r, arrival, fed, lost, ?_, ?_⟩
  · rw [pending, List.nil_append, skip]
    exact kept
  · have reach := (o.skipLeft_iff arrival.arrives).mpr ⟨whole, within⟩
    have left : o.skipLeft (before.flatten.length + chunk.length) =
        o.extent - (before.flatten.length + chunk.length) := by omega
    rw [StreamParser.calls_skip codec empty, left]

end Exact

/-- **An oversized payload is skipped exactly just when the cut is harmless.** -/
theorem oversized_skipsExactly_iff {Value Sample : Type} (codec : WireCodec Value Sample)
    (format : StreamFormat) (binary : format.Binary) (scale : Option F64) (o : OversizedPacket)
    (written : o.Written codec.metadata format) (further : Bytes) (chunks : List Bytes)
    (cut : chunks.flatten = o.stream further) :
    SkipsExactly codec format scale o further chunks ↔ CutOutsideSkip o chunks :=
  ⟨SkipsExactly.cutOutsideSkip codec scale binary written cut,
    CutOutsideSkip.skipsExactly codec scale binary written cut⟩

/-- An IQ packet one sample above the cap, its payload ending in an open brace. -/
def overCapPacket (zeros : Nat) : OversizedPacket where
  header := [123, 125]
  metadata := iqMetadata 67108865
  separator := .lineFeedRecord
  payload := List.replicate zeros 0 ++ [openBrace]

theorem overCapPacket_length (zeros : Nat) :
    (overCapPacket zeros).payload.length = zeros + 1 := by
  simp [overCapPacket]

theorem overCapPacket_written (zeros : Nat) (size : zeros = 268435459) :
    (overCapPacket zeros).Written (emptyHeaderCodec (iqMetadata 67108865)).metadata .int16 where
  opened := rfl
  clear := List.forall_mem_cons.mpr ⟨rfl, List.forall_mem_singleton.mpr rfl⟩
  deserializes := rfl
  declares := by
    rw [overCapPacket_length, size]
    decide
  large := by
    rw [overCapPacket_length, size]
    decide
  separated := fun lineFeed => Separator.noConfusion lineFeed

/-- The packet and the rest of a header, cut behind the separator. -/
def wholeCut (zeros : Nat) : List Bytes :=
  [[123, 125, 10, 30], (overCapPacket zeros).payload ++ [125, 10]]

/-- The same stream, cut inside the separator. -/
def halfCut (zeros : Nat) : List Bytes :=
  [[123, 125, 10], 30 :: ((overCapPacket zeros).payload ++ [125, 10])]

theorem halfCut_flatten (zeros : Nat) :
    (halfCut zeros).flatten = (overCapPacket zeros).stream [125, 10] := by
  simp [halfCut, OversizedPacket.stream, overCapPacket, Separator.bytes, asciiLineFeed,
    asciiRecordSeparator]

theorem halfCut_arrival (zeros : Nat) :
    Arrival (overCapPacket zeros).header.length (halfCut zeros) [] [123, 125, 10]
      [30 :: ((overCapPacket zeros).payload ++ [125, 10])] :=
  ⟨rfl, Nat.zero_le _, by simp [overCapPacket]⟩

theorem wholeCut_flatten (zeros : Nat) :
    (wholeCut zeros).flatten = (overCapPacket zeros).stream [125, 10] := by
  simp [wholeCut, OversizedPacket.stream, overCapPacket, Separator.bytes, asciiLineFeed,
    asciiRecordSeparator]

theorem wholeCut_cutOutsideSkip (zeros : Nat) :
    CutOutsideSkip (overCapPacket zeros) (wholeCut zeros) := by
  refine ⟨[], [123, 125, 10, 30], [(overCapPacket zeros).payload ++ [125, 10]], ?_, ?_, ?_, ?_⟩
  · exact ⟨rfl, Nat.zero_le _, by simp [overCapPacket]⟩
  · exact Nat.zero_le _
  · rintro ⟨-, half⟩
    simp [overCapPacket] at half
  · rw [OversizedPacket.extent, overCapPacket_length]
    simp [overCapPacket, Separator.bytes]

theorem oversized_skipsExactly_iff_wholeCut :
    SkipsExactly (emptyHeaderCodec (iqMetadata 67108865)) .int16 none (overCapPacket 268435459)
      [125, 10] (wholeCut 268435459) :=
  (oversized_skipsExactly_iff _ _ (by decide) _ _ (overCapPacket_written 268435459 rfl) _ _
    (wholeCut_flatten 268435459)).mpr (wholeCut_cutOutsideSkip 268435459)

theorem halfCut_not_skipsExactly (zeros : Nat) (size : zeros = 268435459) :
    ¬SkipsExactly (emptyHeaderCodec (iqMetadata 67108865)) .int16 none (overCapPacket zeros)
      [125, 10] (halfCut zeros) := by
  intro skips
  obtain ⟨before, chunk, after, arrival, -, whole, -⟩ := SkipsExactly.cutOutsideSkip _ _
    (by decide) (overCapPacket_written zeros size) (halfCut_flatten zeros) skips
  obtain ⟨rfl, rfl, -⟩ := (halfCut_arrival zeros).unique arrival
  exact whole ⟨rfl, rfl⟩

theorem halfCut_leaked (zeros : Nat) :
    (30 :: ((overCapPacket zeros).payload ++ [125, 10])).drop (zeros + 1) = [123, 125, 10] := by
  simp [overCapPacket, openBrace]

/-- The payload's last byte is framed: the brace it ends in makes a second header
of what follows. -/
theorem halfCut_calls (zeros : Nat) (size : zeros = 268435459) :
    (StreamParser.new .int16 none).calls (emptyHeaderCodec (iqMetadata 67108865)) (halfCut zeros) =
      [.ok [.lost (overCapError 268435460)], .ok [.lost (overCapError 268435460)]] := by
  obtain ⟨q, r, fed, lost, empty⟩ := arrival_outcome _ none (by decide)
    (overCapPacket_written zeros size) (halfCut_flatten zeros) (halfCut_arrival zeros)
    (Nat.zero_le _)
  obtain rfl : StreamParser.new .int16 none = q := by simpa [StreamParser.feed] using fed
  have skip : (overCapPacket zeros).skipLeft 3 = zeros + 1 := by
    rw [OversizedPacket.skipLeft, overCapPacket_length]
    simp [overCapPacket]
  have rest : (StreamParser.new .int16 none).calls (emptyHeaderCodec (iqMetadata 67108865))
      [[123, 125, 10]] = [.ok [.lost (overCapError 268435460)]] := by
    decide +kernel
  have error : overCapError (overCapPacket zeros).payload.length = overCapError 268435460 := by
    rw [overCapPacket_length, size]
  have empty : StreamParser.Empty .int16 none ((overCapPacket zeros).skipLeft 3) r := empty
  rw [skip] at empty
  rw [error] at lost
  rw [halfCut, StreamParser.calls, lost]
  dsimp only
  rw [StreamParser.calls_skip _ empty, partsAfter, halfCut_leaked]
  exact congrArg _ rest

/-- The cut inside the separator, against the fresh parser it should equal. -/
theorem oversized_halfCut_leaks :
    ¬SkipsExactly (emptyHeaderCodec (iqMetadata 67108865)) .int16 none (overCapPacket 268435459)
      [125, 10] (halfCut 268435459) ∧
    (StreamParser.new .int16 none).calls (emptyHeaderCodec (iqMetadata 67108865))
        (halfCut 268435459) =
      [.ok [.lost (overCapError 268435460)], .ok [.lost (overCapError 268435460)]] ∧
    (StreamParser.new .int16 none).calls (emptyHeaderCodec (iqMetadata 67108865)) [[125, 10]] =
      [.ok []] :=
  ⟨halfCut_not_skipsExactly 268435459 rfl, halfCut_calls 268435459 rfl, by decide +kernel⟩

end SdrAaronia.HttpStreaming
