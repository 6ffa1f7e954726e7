import SdrAaronia.HttpStreaming.Parser

/-! # The parser reads the wire format

`wireFormat` says what a stream is: headers, separators and payloads of the
declared size, with no buffer and no chunk in sight.  The parser's attempts and
its loop read exactly the frames of that format, as long as no header declares a
payload above the cap: such a payload is skipped before it has arrived.
-/

namespace SdrAaronia.HttpStreaming

open Delimited Framing

/-- Payload bytes a header announces; a header that cannot be sized has none. -/
def packetSize (format : StreamFormat) (metadata : PacketMetadata) : Nat :=
  match calculateBinarySize format metadata with
  | .ok expected => expected
  | .error _ => 0

variable {Value Sample : Type} (codec : WireCodec Value Sample)

/-- What a framed packet of a pure-JSON stream yields. -/
def jsonItem (metadata : PacketMetadata) (text : Bytes) : ParsedItem Sample :=
  match codec.document text with
  | .error e => .lost (.protocol s!"packet header is not a JSON document: {e}")
  | .ok value =>
      match codec.jsonSamples metadata value with
      | .error e => undecodedItem metadata.payload e
      | .ok samples => .packet (.new { metadata with samples := samples.length } samples)

/-- What a framed packet of a binary stream yields. -/
def binaryItem (format : StreamFormat) (scale : Option F64) (metadata : PacketMetadata)
    (payload : Bytes) : ParsedItem Sample :=
  match calculateBinarySize format metadata with
  | .error e => undecodedItem metadata.payload e
  | .ok expected =>
      if maxBinaryPayload < expected then .lost (overCapError expected)
      else
        match codec.binarySamples format scale metadata payload with
        | .error e => undecodedItem metadata.payload e
        | .ok samples => .packet (.new metadata samples)

def wireFormat (format : StreamFormat) (scale : Option F64) :
    Framing.Format UInt8 PacketMetadata (ParsedItem Sample) where
  toGrammar := headerGrammar codec.metadata
  pairs := separatorPairs
  size := packetSize format
  item := fun metadata text payload =>
    if format = .json then jsonItem codec metadata text
    else binaryItem codec format scale metadata payload
  pairs_shut := separatorPairs_shut

theorem packetSize_json (metadata : PacketMetadata) : packetSize .json metadata = 0 := rfl

theorem payloadStartAt_eq (format : StreamFormat) (scale : Option F64) {buf rest : Bytes}
    {stop : Nat} {first : UInt8} (shape : buf.drop stop = first :: rest) :
    payloadStartAt buf stop = stop + (wireFormat codec format scale).separator (first :: rest) := by
  have at' : ∀ k, buf[stop + k]? = (first :: rest)[k]? := by
    intro k
    rw [← shape, List.getElem?_drop]
  have head : buf[stop]? = some first := at' 0
  have next : buf[stop + 1]? = rest.head? := by
    rw [at' 1, List.getElem?_cons_succ, List.head?_eq_getElem?]
  simp only [payloadStartAt, head, next, Option.some.injEq]
  cases rest with
  | nil => simp [Format.separator]
  | cons follower rest =>
      simp only [List.head?_cons, Option.some.injEq, Format.separator, wireFormat, separatorPairs,
        Bool.and_eq_true, beq_iff_eq]
      split <;> rfl

namespace StreamParser

variable (p : StreamParser)

/-- The wire format this parser reads. -/
def wire : Framing.Format UInt8 PacketMetadata (ParsedItem Sample) :=
  wireFormat codec p.format p.defaultEncodeScale

theorem SameSettings.wire {p q : StreamParser} (same : SameSettings p q) :
    q.wire codec = p.wire codec := by
  simp only [StreamParser.wire, same.format, same.scale]

theorem scan_found {m : Match UInt8 PacketMetadata}
    (found : (p.wire codec).firstMatch p.pending = some m) :
    ∃ rejected, scanPacketHeader codec.metadata p.pending =
      .header m.value (m.before, m.before + m.text.length)
        (m.before + m.text.length + (p.wire codec).separator m.rest) rejected := by
  obtain ⟨layout, size, ⟨stop, rest, shape, -⟩, -, -⟩ := (p.wire codec).firstMatch_layout found
  have after : p.pending.drop (m.before + m.text.length) = stop :: rest := by
    rw [← List.drop_drop, layout, List.drop_left, shape]
  have start := payloadStartAt_eq codec p.format p.defaultEncodeScale after
  refine ⟨(headerGrammar codec.metadata).rejections p.pending, ?_⟩
  have found' : (headerGrammar codec.metadata).firstMatch p.pending = some m := found
  rw [scanPacketHeader_eq, scanResult]
  simp only [List.drop_zero, found', Nat.zero_add, start, shape]
  rfl

theorem scan_missing (missing : (p.wire codec).firstMatch p.pending = none) :
    ∃ rejected, scanPacketHeader codec.metadata p.pending =
      .incomplete ((p.wire codec).spent p.pending) rejected := by
  refine ⟨(headerGrammar codec.metadata).rejections p.pending, ?_⟩
  have missing' : (headerGrammar codec.metadata).firstMatch p.pending = none := missing
  rw [scanPacketHeader_eq, scanResult]
  simp only [List.drop_zero, missing', Nat.zero_add]
  rfl

theorem match_slices {m : Match UInt8 PacketMetadata}
    (found : (p.wire codec).firstMatch p.pending = some m) :
    slice p.pending m.before (m.before + m.text.length) = m.text ∧
      (∀ n, p.pending.drop (m.before + m.text.length + n) = m.rest.drop n) ∧
      p.pending.length = m.before + m.text.length + m.rest.length := by
  obtain ⟨layout, size, -, -, -⟩ := (p.wire codec).firstMatch_layout found
  refine ⟨?_, ?_, size.symm⟩
  · rw [slice, List.drop_take, layout]
    simp
  · intro n
    rw [← List.drop_drop, ← List.drop_drop, layout, List.drop_left]

theorem parseJsonPacket_reads (metadata : PacketMetadata) (json : Nat × Nat) (payloadStart : Nat) :
    ∃ q step, p.parseJsonPacket codec metadata json payloadStart = (q, .ok step) ∧
      SameSettings p q ∧
      step.item = some (jsonItem codec metadata (slice p.pending json.1 json.2)) ∧
      q.pending = p.pending.drop payloadStart := by
  have left : ∀ q : StreamParser, q.pending = p.pending →
      (q.consumeBuffer payloadStart).pending = p.pending.drop payloadStart := fun q same => by
    rw [pending_consumeBuffer, same]
  rw [parseJsonPacket, jsonItem]
  cases codec.document (slice p.pending json.1 json.2) with
  | error e =>
      exact ⟨_, _, rfl, .consumeBuffer _ _, rfl, left _ rfl⟩
  | ok value =>
      simp only
      cases codec.jsonSamples metadata value with
      | error e =>
          exact ⟨_, _, rfl, .consumeBuffer _ _, rfl, left _ rfl⟩
      | ok samples =>
          exact ⟨_, _, rfl, (SameSettings.countPacket _ _).trans (.consumeBuffer _ _), rfl,
            left _ rfl⟩

/-- The payload is awaited as long as its declared size is not buffered. -/
theorem parseBinaryPacket_reads {metadata : PacketMetadata} {payloadStart : Nat}
    (inside : payloadStart ≤ p.pending.length) (small : ¬OverCap p.format metadata) :
    ∃ q step, p.parseBinaryPacket codec metadata payloadStart = (q, .ok step) ∧
      SameSettings p q ∧
      if p.pending.length < payloadStart + packetSize p.format metadata then
        step.item = none ∧ q.pending = p.pending
      else
        step.item = some (binaryItem codec p.format p.defaultEncodeScale metadata
          ((p.pending.drop payloadStart).take (packetSize p.format metadata))) ∧
        q.pending = p.pending.drop (payloadStart + packetSize p.format metadata) := by
  have left : ∀ (q : StreamParser) (count : Nat), q.pending = p.pending →
      (q.consumeBuffer count).pending = p.pending.drop count := fun q count same => by
    rw [pending_consumeBuffer, same]
  rw [parseBinaryPacket, packetSize, binaryItem]
  cases sized : calculateBinarySize p.format metadata with
  | error e =>
      simp only [Nat.add_zero, if_neg (Nat.not_lt.mpr inside)]
      exact ⟨_, _, rfl, .consumeBuffer _ _, rfl, left _ _ rfl⟩
  | ok expected =>
      have cap : ¬maxBinaryPayload < expected := fun large => small ⟨expected, sized, large⟩
      simp only [if_neg cap]
      split
      · exact ⟨_, _, rfl, .refl _, rfl, rfl⟩
      · rw [slice, List.drop_take, Nat.add_sub_cancel_left]
        cases codec.binarySamples p.format p.defaultEncodeScale metadata
            ((p.pending.drop payloadStart).take expected) with
        | error e =>
            exact ⟨_, _, rfl, .consumeBuffer _ _, rfl, left _ _ rfl⟩
        | ok samples =>
            exact ⟨_, _, rfl, (SameSettings.countPacket _ _).trans (.consumeBuffer _ _), rfl,
              left _ _ rfl⟩

/-- **One attempt reads one frame**: it yields the frame's item and leaves the
bytes behind it, or it waits and leaves the pending bytes alone. -/
theorem tryParse_found {m : Match UInt8 PacketMetadata}
    (found : (p.wire codec).firstMatch p.pending = some m) (small : ¬OverCap p.format m.value) :
    ∃ q step, p.tryParseCompletePacket codec = (q, .ok step) ∧ SameSettings p q ∧
      match (p.wire codec).next p.pending with
      | some (frame, rest) => step.item = some frame.item ∧ q.pending = rest
      | none => step.item = none ∧ q.pending = p.pending := by
  obtain ⟨rejected, scanned⟩ := p.scan_found codec found
  obtain ⟨text, behind, total⟩ := p.match_slices codec found
  obtain ⟨-, -, ⟨stop, after, shape, -⟩, -, -⟩ := (p.wire codec).firstMatch_layout found
  have counted := SameSettings.countErrors p rejected
  have fits : (p.wire codec).separator m.rest ≤ m.rest.length := by
    rw [shape]
    cases after with
    | nil => exact le_refl _
    | cons follower after =>
        simp only [Format.separator, List.length_cons]
        split <;> omega
  have size : (p.wire codec).size m.value = packetSize p.format m.value := rfl
  have bodyAt : ∀ n, p.pending.drop
      (m.before + m.text.length + (p.wire codec).separator m.rest + n) =
        (m.rest.drop ((p.wire codec).separator m.rest)).drop n := by
    intro n
    rw [Nat.add_assoc, behind, List.drop_drop]
  simp only [tryParseCompletePacket, scanned]
  by_cases json : p.format = .json
  · have item : ∀ payload, (p.wire codec).item m.value m.text payload =
        jsonItem codec m.value m.text := fun _ => if_pos json
    have unsized : (p.wire codec).size m.value = 0 := by
      rw [size, json, packetSize_json]
    have here := (p.wire codec).next_eq_some found (by rw [unsized]; exact Nat.zero_le _)
    obtain ⟨q, step, parsed, settings, yielded, left⟩ :=
      parseJsonPacket_reads codec (p.countErrors rejected) m.value
        (m.before, m.before + m.text.length)
        (m.before + m.text.length + (p.wire codec).separator m.rest)
    have format : (p.countErrors rejected).format = .json := json
    rw [if_pos format, here]
    refine ⟨q, step, parsed, counted.trans settings, ?_, ?_⟩
    · rw [yielded, pending_countErrors, text, item]
    · rw [left, pending_countErrors, unsized]
      exact bodyAt 0
  · have format : ¬(p.countErrors rejected).format = .json := json
    have item : ∀ payload, (p.wire codec).item m.value m.text payload =
        binaryItem codec p.format p.defaultEncodeScale m.value payload := fun _ => if_neg json
    have length : (m.rest.drop ((p.wire codec).separator m.rest)).length =
        m.rest.length - (p.wire codec).separator m.rest := List.length_drop
    obtain ⟨q, step, parsed, settings, reads⟩ :=
      parseBinaryPacket_reads codec (p.countErrors rejected)
        (show m.before + m.text.length + (p.wire codec).separator m.rest ≤ p.pending.length by
          omega) small
    rw [if_neg format]
    refine ⟨q, step, parsed, counted.trans settings, ?_⟩
    change if p.pending.length < m.before + m.text.length + (p.wire codec).separator m.rest +
      packetSize p.format m.value then _ else _ at reads
    split at reads
    · rename_i short
      have waits : (p.wire codec).next p.pending = none := by
        simp only [Format.next, found]
        rw [if_neg]
        rw [length, size]
        omega
      rw [waits]
      exact reads
    · rename_i whole
      have here := (p.wire codec).next_eq_some found (by rw [length, size]; omega)
      rw [here]
      obtain ⟨yielded, left⟩ := reads
      refine ⟨?_, ?_⟩
      · rw [yielded, item, pending_countErrors]
        exact congrArg _ (congrArg _ (congrArg _ (bodyAt 0)))
      · rw [left, pending_countErrors]
        exact bodyAt _

/-- Without a header the attempt discards what is spent and waits, or gives up
on a header that never terminates. -/
theorem tryParse_missing (missing : (p.wire codec).firstMatch p.pending = none) :
    ∃ q, SameSettings p q ∧ q.pending = p.pending.drop ((p.wire codec).spent p.pending) ∧
      p.tryParseCompletePacket codec =
        if maxJsonBuffer < q.pending.length then (q, .error unterminatedError)
        else (q, .ok .needMore) := by
  obtain ⟨rejected, scanned⟩ := p.scan_missing codec missing
  refine ⟨(p.countErrors rejected).consumeBuffer ((p.wire codec).spent p.pending),
    (SameSettings.countErrors p rejected).trans (.consumeBuffer _ _), ?_, ?_⟩
  · rw [pending_consumeBuffer, pending_countErrors]
  · simp only [tryParseCompletePacket, scanned]

variable {p codec}

/-- No header found in `stream` declares a payload above the cap. -/
def NoOverCap (f : Framing.Format UInt8 PacketMetadata (ParsedItem Sample)) (format : StreamFormat)
    (stream : Bytes) : Prop :=
  ∀ metadata ∈ f.headers stream, ¬OverCap format metadata

theorem NoOverCap.next {f : Framing.Format UInt8 PacketMetadata (ParsedItem Sample)}
    {format : StreamFormat} {stream rest : Bytes}
    {frame : Frame PacketMetadata (ParsedItem Sample)} (small : NoOverCap f format stream)
    (here : f.next stream = some (frame, rest)) : NoOverCap f format rest := by
  intro metadata member
  refine small metadata ?_
  rw [Format.headers, f.frames_next here, Format.waiting, f.remainder_next here]
  exact List.mem_cons_of_mem _ member

/-- No header is found and what could still begin one is too long to keep. -/
def Unterminated (f : Framing.Format UInt8 PacketMetadata (ParsedItem Sample)) (buffer : Bytes) :
    Prop :=
  f.firstMatch buffer = none ∧ maxJsonBuffer < (buffer.drop (f.spent buffer)).length

/-- What the loop does with a buffer whose frames and remainder are known. -/
inductive LoopReads (f : Framing.Format UInt8 PacketMetadata (ParsedItem Sample))
    (p : StreamParser) : StreamParser × Except Error (List (ParsedItem Sample)) → Prop where
  | read {q : StreamParser} (settings : SameSettings p q)
      (kept : f.Same q.pending (f.remainder p.pending))
      (bounded : ¬Unterminated f (f.remainder p.pending)) :
      LoopReads f p (q, .ok ((f.frames p.pending).map Frame.item))
  | lost {q : StreamParser} (endless : Unterminated f (f.remainder p.pending)) :
      LoopReads f p (q, .error unterminatedError)

theorem LoopReads.after {f : Framing.Format UInt8 PacketMetadata (ParsedItem Sample)}
    {p q : StreamParser} {frame : Frame PacketMetadata (ParsedItem Sample)} {rest : Bytes}
    {outcome : StreamParser × Except Error (List (ParsedItem Sample))}
    (here : f.next p.pending = some (frame, rest)) (settings : SameSettings p q)
    (pending : q.pending = rest) (reads : LoopReads f q outcome) :
    LoopReads f p (outcome.1, outcome.2.map (frame.item :: ·)) := by
  have remainder := f.remainder_next here
  cases reads with
  | read later kept bounded =>
      rw [pending, ← remainder] at kept bounded
      have whole := LoopReads.read (settings.trans later) kept bounded
      rwa [f.frames_next here, List.map_cons, ← pending] at whole
  | lost endless =>
      rw [pending, ← remainder] at endless
      exact .lost endless

/-- **The loop reads every frame of the buffer**, in order, and keeps the remainder,
unless the remainder is a header that never terminates. -/
theorem parseLoop_reads (small : NoOverCap (p.wire codec) p.format p.pending) :
    LoopReads (p.wire codec) p (p.parseLoop codec false) := by
  induction size : p.pending.length using Nat.strong_induction_on generalizing p with
  | _ n ih =>
      cases found : (p.wire codec).firstMatch p.pending with
      | none =>
          obtain ⟨kept, same, pending, tried⟩ := p.tryParse_missing codec found
          have settled : (p.wire codec).Settled p.pending := by
            simp only [Format.Settled, Format.next, found]
          have remainder := (p.wire codec).remainder_of_settled settled
          split at tried
          · rename_i long
            rw [parseLoop_fail codec tried]
            refine .lost ?_
            rw [remainder]
            exact ⟨found, pending ▸ long⟩
          · rename_i short
            rw [parseLoop_wait codec tried rfl]
            have nothing := (p.wire codec).frames_settled settled
            have here : LoopReads (p.wire codec) p
                (kept, .ok (((p.wire codec).frames p.pending).map Frame.item)) := by
              refine .read same ?_ ?_
              · rw [remainder, pending]
                exact (p.wire codec).same_drop_spent found
              · rw [remainder]
                exact fun endless => short (pending ▸ endless.2)
            rwa [nothing] at here
      | some m =>
          have listed := (p.wire codec).firstMatch_header found
          obtain ⟨kept, step, tried, same, reads⟩ := p.tryParse_found codec found (small _ listed)
          cases here : (p.wire codec).next p.pending with
          | none =>
              simp only [here] at reads
              rw [parseLoop_wait codec tried reads.1]
              have remainder := (p.wire codec).remainder_of_settled here
              have nothing := (p.wire codec).frames_settled here
              have waits : LoopReads (p.wire codec) p
                  (kept, .ok (((p.wire codec).frames p.pending).map Frame.item)) := by
                refine .read same ?_ ?_
                · rw [remainder, reads.2]
                  exact Format.Same.refl _ _
                · rw [remainder]
                  exact fun endless => by simp [endless.1] at found
              rwa [nothing] at waits
          | some read =>
              simp only [here] at reads
              obtain ⟨yielded, pending⟩ := reads
              rw [parseLoop_item codec tried yielded rfl]
              have onward := same.trans (SameSettings.countItem kept read.1.item)
              have wire := onward.wire codec
              have shorter := (p.wire codec).next_length here
              have left : (kept.countItem read.1.item).pending = read.2 := by
                rw [pending_countItem, pending]
              have smaller : NoOverCap ((kept.countItem read.1.item).wire codec)
                  (kept.countItem read.1.item).format (kept.countItem read.1.item).pending := by
                rw [wire, onward.format, left]
                exact small.next here
              have later := ih _ (by rw [left]; omega) smaller rfl
              rw [wire] at later
              exact .after here onward left later

variable (codec) in
/-- The parser has read `stream`: it holds what is left of it and skips nothing. -/
structure Behind (f : Framing.Format UInt8 PacketMetadata (ParsedItem Sample))
    (format : StreamFormat) (stream : Bytes) (p : StreamParser) : Prop where
  wire : p.wire codec = f
  formatted : p.format = format
  idle : p.skipBytes = 0
  same : f.Same p.pending (f.remainder stream)

variable {f : Framing.Format UInt8 PacketMetadata (ParsedItem Sample)} {format : StreamFormat}

variable (codec) in
theorem behind_new (format : StreamFormat) (scale : Option F64) :
    Behind codec (wireFormat codec format scale) format [] (.new format scale) := by
  refine ⟨rfl, rfl, rfl, ?_⟩
  rw [Format.remainder_of_settled _ (Format.settled_nil _)]
  exact Format.Same.refl _ _

variable (codec) in
theorem processDataRecovering_idle {p : StreamParser} (idle : p.skipBytes = 0) (data : Bytes) :
    ∃ started, SameSettings p started ∧ started.pending = p.pending ++ data ∧
      p.processDataRecovering codec data = started.parseLoop codec false := by
  have same : SameSettings p
      (extendBuffer { p with
        counters := { p.counters with bytesProcessed := p.counters.bytesProcessed + data.length }
        skipBytes := 0 } data) := ⟨rfl, rfl, idle.symm⟩
  refine ⟨_, same, pending_extendBuffer _ _, ?_⟩
  simp only [processDataRecovering, parseBuffered, idle, Nat.zero_min, Nat.lt_irrefl, false_and,
    if_false, List.drop_zero, Nat.sub_zero]

variable (codec) in
theorem processDataRecovering_new (format : StreamFormat) (scale : Option F64) (data : Bytes)
    (small : NoOverCap (wireFormat codec format scale) format data) :
    ∃ q, (¬Unterminated (wireFormat codec format scale)
          ((wireFormat codec format scale).remainder data) ∧
        (new format scale).processDataRecovering codec data =
          (q, .ok (((wireFormat codec format scale).frames data).map Frame.item))) ∨
      (Unterminated (wireFormat codec format scale)
          ((wireFormat codec format scale).remainder data) ∧
        (new format scale).processDataRecovering codec data = (q, .error unterminatedError)) := by
  obtain ⟨started, entered, pending, looped⟩ :=
    (new format scale).processDataRecovering_idle codec rfl data
  have wire : started.wire codec = wireFormat codec format scale := entered.wire codec
  rw [pending_new, List.nil_append] at pending
  have smaller : NoOverCap (started.wire codec) started.format started.pending := by
    rw [wire, pending, entered.format]
    exact small
  have reads := parseLoop_reads smaller
  rw [wire] at reads
  rw [looped]
  cases loop : started.parseLoop codec false with
  | mk q outcome =>
      rw [loop] at reads
      rw [← pending]
      refine ⟨q, ?_⟩
      cases reads with
      | read settings kept bounded => exact .inl ⟨bounded, rfl⟩
      | lost endless => exact .inr ⟨endless, rfl⟩

/-- **One call reads on where the last one stopped.** -/
theorem processDataRecovering_reads {stream data : Bytes} {p q : StreamParser}
    {items : List (ParsedItem Sample)} (behind : Behind codec f format stream p)
    (small : NoOverCap f format (stream ++ data))
    (processed : p.processDataRecovering codec data = (q, .ok items)) :
    items = (f.frames (f.remainder stream ++ data)).map Frame.item ∧
      Behind codec f format (stream ++ data) q := by
  obtain ⟨wire, formatted, idle, same⟩ := behind
  obtain ⟨started, entered, pending, looped⟩ := processDataRecovering_idle codec idle data
  have wireStarted : started.wire codec = f := (entered.wire codec).trans wire
  have formatStarted : started.format = format := entered.format.trans formatted
  have here : f.Same started.pending (f.remainder stream ++ data) := pending ▸ same.append data
  have smaller : NoOverCap (started.wire codec) started.format started.pending := by
    rw [wireStarted, formatStarted]
    intro metadata member
    rw [here.headers] at member
    exact small metadata (f.headers_append stream data ▸ List.mem_append_right _ member)
  have reads := parseLoop_reads smaller
  rw [wireStarted, ← looped, processed] at reads
  cases reads with
  | read settings kept bounded =>
      refine ⟨by rw [here.frames], ?_, settings.format.trans formatStarted,
        settings.skip.trans (entered.skip.trans idle), ?_⟩
      · exact (settings.wire codec).trans wireStarted
      · exact kept.trans (here.remainder.trans (f.same_remainder_append stream data))

/-- **Any run of calls reads the frames of what it was fed.** -/
theorem feed_reads {stream : Bytes} {chunks : List Bytes} {p q : StreamParser}
    {items : List (ParsedItem Sample)} (behind : Behind codec f format stream p)
    (small : NoOverCap f format (stream ++ chunks.flatten))
    (fed : p.feed codec chunks = .ok (items, q)) :
    items = (f.frames (f.remainder stream ++ chunks.flatten)).map Frame.item ∧
      Behind codec f format (stream ++ chunks.flatten) q := by
  induction chunks generalizing p stream items with
  | nil =>
      obtain ⟨rfl, rfl⟩ := by simpa [feed] using fed
      have settled := f.frames_settled (f.remainder_settled stream)
      simpa [settled] using behind
  | cons chunk chunks ih =>
      rw [List.flatten_cons, ← List.append_assoc stream] at small ⊢
      simp only [feed] at fed
      split at fed
      · simp at fed
      · rename_i middle read processed
        split at fed
        · simp at fed
        · rename_i later last fedLater
          obtain ⟨rfl, rfl⟩ := by simpa using fed
          have smaller : NoOverCap f format (stream ++ chunk) :=
            fun metadata member => small metadata (f.headers_prefix member _)
          obtain ⟨here, next⟩ := processDataRecovering_reads behind smaller processed
          obtain ⟨there, last'⟩ := ih next small fedLater
          refine ⟨?_, last'⟩
          -- the remainder of what was read so far starts the next call
          have reread := (f.same_remainder_append stream chunk).append chunks.flatten
          rw [here, there, ← List.map_append, ← reread.frames, ← f.frames_append,
            List.append_assoc]

end StreamParser
end SdrAaronia.HttpStreaming
