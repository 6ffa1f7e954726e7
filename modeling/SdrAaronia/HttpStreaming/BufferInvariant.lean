import SdrAaronia.HttpStreaming.PacketStream

/-! # What the parser's buffer keeps to

Consumption is lazy and compaction deferred, but no call leaves much in front of the pending bytes,
and while a rejected payload is skipped none are pending.  A call that recovers leaves as many as an
unterminated header may have, or a header whose payload has not all come.
-/

namespace SdrAaronia.HttpStreaming

variable {Value Sample : Type}

inductive ParserCall where
  | processData (data : Bytes)
  | processDataRecovering (data : Bytes)
  | reset

namespace StreamParser

def call (codec : WireCodec Value Sample) (p : StreamParser) : ParserCall → StreamParser
  | .processData data => (p.processData codec data).1
  | .processDataRecovering data => (p.processDataRecovering codec data).1
  | .reset => p.reset

def run (codec : WireCodec Value Sample) (p : StreamParser) (calls : List ParserCall) :
    StreamParser :=
  calls.foldl (call codec) p

structure Buffered (p : StreamParser) : Prop where
  within : p.consumed ≤ p.buffer.length
  compacted : p.consumed < compactThreshold
  /-- Nothing is pending while a rejected payload is skipped. -/
  skipping : 0 < p.skipBytes → p.pending = []

/-- Behind the rejected candidates the pending bytes begin with a header whose payload, within the
cap, has not all come. -/
def Awaits (codec : WireCodec Value Sample) (p : StreamParser) : Prop :=
  ∃ metadata json payloadStart rejected expected,
    scanPacketHeader codec.metadata p.pending = .header metadata json payloadStart rejected ∧
      calculateBinarySize p.format metadata = .ok expected ∧ expected ≤ maxBinaryPayload ∧
      p.pending.length < payloadStart + expected

def Bounded (codec : WireCodec Value Sample) (p : StreamParser) : Prop :=
  p.pending.length ≤ maxJsonBuffer ∨ p.Awaits codec

/-- The loop turns from `p` to `q`: its step yielded an item. -/
def Turns (codec : WireCodec Value Sample) (p q : StreamParser) : Prop :=
  ∃ r step item, p.tryParseCompletePacket codec = (r, .ok step) ∧ step.item = some item ∧
    q = r.countItem item

/-! ## One step -/

theorem compactThreshold_pos : 0 < compactThreshold := by decide

theorem consumed_consumeBuffer (p : StreamParser) (n : Nat) :
    (p.consumeBuffer n).consumed < compactThreshold := by
  rw [consumeBuffer]
  split
  · split
    · exact compactThreshold_pos
    · rename_i few
      exact Nat.lt_of_not_le few
  · exact compactThreshold_pos

namespace Buffered

variable {p : StreamParser}

theorem empty (p : StreamParser) (none : p.buffer = []) (fresh : p.consumed = 0) : Buffered p where
  within := p.within
  compacted := by
    rw [fresh]
    exact compactThreshold_pos
  skipping _ := by
    rw [pending, none, List.drop_nil]

theorem counters (buffered : Buffered p) (counters : StatsCounters) :
    Buffered { p with counters } :=
  ⟨buffered.within, buffered.compacted, buffered.skipping⟩

theorem countErrors (buffered : Buffered p) (n : Nat) : Buffered (p.countErrors n) :=
  buffered.counters _

theorem countPacket (buffered : Buffered p) (n : Nat) : Buffered (p.countPacket n) :=
  buffered.counters _

theorem countItem (buffered : Buffered p) (item : ParsedItem Sample) :
    Buffered (p.countItem item) := by
  rw [StreamParser.countItem]
  split
  · exact buffered
  · exact buffered.countErrors 1

theorem consumeBuffer (buffered : Buffered p) (n : Nat) : Buffered (p.consumeBuffer n) where
  within := (p.consumeBuffer n).within
  compacted := consumed_consumeBuffer p n
  skipping := by
    rw [(SameSettings.consumeBuffer p n).skip, pending_consumeBuffer]
    intro skipping
    rw [buffered.skipping skipping, List.drop_nil]

/-- Whatever is to be skipped, nothing is pending once all is consumed. -/
theorem consumeAll (p : StreamParser) (skipBytes : Nat) :
    Buffered (({ p with skipBytes }).consumeBuffer p.pending.length) where
  within := StreamParser.within _
  compacted := consumed_consumeBuffer _ _
  skipping _ := by
    rw [pending_consumeBuffer]
    exact List.drop_length

theorem parseJsonPacket (codec : WireCodec Value Sample) (buffered : Buffered p)
    (metadata : PacketMetadata) (json : Nat × Nat) (payloadStart : Nat) :
    Buffered (p.parseJsonPacket codec metadata json payloadStart).1 := by
  rw [StreamParser.parseJsonPacket]
  split
  · exact buffered.consumeBuffer payloadStart
  · split
    · exact buffered.consumeBuffer payloadStart
    · exact (buffered.countPacket _).consumeBuffer payloadStart

theorem parseBinaryPacket (codec : WireCodec Value Sample) (buffered : Buffered p)
    (metadata : PacketMetadata) (payloadStart : Nat) :
    Buffered (p.parseBinaryPacket codec metadata payloadStart).1 := by
  rw [StreamParser.parseBinaryPacket]
  split
  · exact buffered.consumeBuffer payloadStart
  · split
    · exact consumeAll p _
    · simp only
      split
      · exact buffered
      · split
        · exact buffered.consumeBuffer _
        · exact (buffered.countPacket _).consumeBuffer _

/-- Every exit of a step keeps the invariant. -/
theorem tryParse (codec : WireCodec Value Sample) (buffered : Buffered p) :
    Buffered (p.tryParseCompletePacket codec).1 := by
  rw [tryParseCompletePacket]
  split
  · simp only
    split <;> exact (buffered.countErrors _).consumeBuffer _
  · simp only
    split
    · exact (buffered.countErrors _).parseJsonPacket codec _ _ _
    · exact (buffered.countErrors _).parseBinaryPacket codec _ _

end Buffered

theorem item_none {step : ParseStep Sample} : step.item = none ↔ step = .needMore := by
  cases step with
  | needMore => exact iff_of_true rfl rfl
  | packet | lost | undecoded => exact iff_of_false nofun nofun

theorem tryParse_shrinks {codec : WireCodec Value Sample} {p q : StreamParser}
    {step : ParseStep Sample} (tried : p.tryParseCompletePacket codec = (q, .ok step))
    (onward : step ≠ .needMore) : q.pending.length < p.pending.length := by
  obtain ⟨item, yielded⟩ := Option.ne_none_iff_exists'.mp fun none => onward (item_none.mp none)
  exact tryParse_progress codec tried yielded

theorem parseJsonPacket_not_needMore {codec : WireCodec Value Sample} {p q : StreamParser}
    {metadata : PacketMetadata} {json : Nat × Nat} {payloadStart : Nat} :
    p.parseJsonPacket codec metadata json payloadStart ≠ (q, .ok .needMore) := by
  intro waits
  rw [parseJsonPacket] at waits
  split at waits
  · cases congrArg Prod.snd waits
  · split at waits <;> cases congrArg Prod.snd waits

theorem parseBinaryPacket_waits {codec : WireCodec Value Sample} {p q : StreamParser}
    {metadata : PacketMetadata} {payloadStart : Nat}
    (waits : p.parseBinaryPacket codec metadata payloadStart = (q, .ok .needMore)) :
    q = p ∧ ∃ expected, calculateBinarySize p.format metadata = .ok expected ∧
      expected ≤ maxBinaryPayload ∧ p.pending.length < payloadStart + expected := by
  rw [parseBinaryPacket] at waits
  cases sized : calculateBinarySize p.format metadata with
  | error e =>
      rw [sized] at waits
      cases congrArg Prod.snd waits
  | ok expected =>
      simp only [sized] at waits
      split at waits
      · cases congrArg Prod.snd waits
      · rename_i small
        split at waits
        · rename_i short
          exact ⟨(congrArg Prod.fst waits).symm, expected, rfl, Nat.le_of_not_lt small, short⟩
        · split at waits <;> cases congrArg Prod.snd waits

/-- A step that waits for more leaves the pending bytes within their bound. -/
theorem tryParse_waits {codec : WireCodec Value Sample} {p q : StreamParser}
    (waits : p.tryParseCompletePacket codec = (q, .ok .needMore)) : q.Bounded codec := by
  rw [tryParseCompletePacket] at waits
  split at waits
  · simp only at waits
    split at waits
    · cases congrArg Prod.snd waits
    · rename_i few
      obtain rfl : _ = q := congrArg Prod.fst waits
      exact .inl (Nat.le_of_not_lt few)
  · rename_i metadata json payloadStart rejected scanned
    simp only at waits
    split at waits
    · exact absurd waits parseJsonPacket_not_needMore
    · obtain ⟨rfl, expected, sized, small, short⟩ := parseBinaryPacket_waits waits
      exact .inr ⟨metadata, json, payloadStart, rejected, expected, scanned, sized, small, short⟩

/-! ## The loop -/

theorem turns_wellFounded (codec : WireCodec Value Sample) :
    WellFounded fun q p : StreamParser => p.Turns codec q := by
  refine Subrelation.wf ?_ (measure fun p : StreamParser => p.pending.length).wf
  rintro q p ⟨r, step, item, tried, yielded, rfl⟩
  change (r.countItem item).pending.length < p.pending.length
  rw [pending_countItem]
  exact tryParse_progress codec tried yielded

theorem parseLoop_buffered (codec : WireCodec Value Sample) (stopAtLoss : Bool) {p : StreamParser}
    (buffered : Buffered p) : Buffered (p.parseLoop codec stopAtLoss).1 := by
  induction p using (turns_wellFounded codec).induction with
  | _ p ih =>
      have kept := buffered.tryParse codec
      cases tried : p.tryParseCompletePacket codec with
      | mk q outcome =>
          rw [tried] at kept
          cases outcome with
          | error e =>
              rw [parseLoop_fail codec tried]
              exact kept.countErrors 1
          | ok step =>
              cases yielded : step.item with
              | none =>
                  rw [parseLoop_wait codec tried yielded]
                  exact kept
              | some item =>
                  cases stops : stopAtLoss && !item.isPacket with
                  | true =>
                      rw [parseLoop_stop codec tried yielded stops]
                      exact kept.countItem item
                  | false =>
                      rw [parseLoop_item codec tried yielded stops]
                      exact ih _ ⟨q, step, item, tried, yielded, rfl⟩ (kept.countItem item)

/-- The loop that does not stop at a loss ends with a step that waits for more. -/
theorem parseLoop_bounded (codec : WireCodec Value Sample) {p q : StreamParser}
    {items : List (ParsedItem Sample)} (parsed : p.parseLoop codec false = (q, .ok items)) :
    q.Bounded codec := by
  induction p using (turns_wellFounded codec).induction generalizing items with
  | _ p ih =>
      cases tried : p.tryParseCompletePacket codec with
      | mk r outcome =>
          cases outcome with
          | error e =>
              rw [parseLoop_fail codec tried] at parsed
              cases congrArg Prod.snd parsed
          | ok step =>
              cases yielded : step.item with
              | none =>
                  rw [parseLoop_wait codec tried yielded] at parsed
                  obtain rfl : r = q := congrArg Prod.fst parsed
                  rw [item_none.mp yielded] at tried
                  exact tryParse_waits tried
              | some item =>
                  rw [parseLoop_item codec tried yielded (Bool.false_and _)] at parsed
                  cases later : (r.countItem item).parseLoop codec false with
                  | mk q' rest =>
                      rw [later] at parsed
                      obtain rfl : q' = q := congrArg Prod.fst parsed
                      cases rest with
                      | error e => cases congrArg Prod.snd parsed
                      | ok items' => exact ih _ ⟨r, step, item, tried, yielded, rfl⟩ later

/-! ## Calls -/

/-- What a call buffers: nothing of a payload that is being skipped. -/
theorem Buffered.extend {p : StreamParser} (buffered : Buffered p) (data : Bytes) :
    Buffered (({ p with skipBytes := p.skipBytes - min p.skipBytes data.length }).extendBuffer
      (data.drop (min p.skipBytes data.length))) where
  within := StreamParser.within _
  compacted := buffered.compacted
  skipping := by
    intro more
    change 0 < p.skipBytes - min p.skipBytes data.length at more
    have none : p.pending = [] := buffered.skipping (by omega)
    rw [pending_extendBuffer, List.drop_eq_nil_of_le (by omega), List.append_nil]
    exact none

theorem parseBuffered_buffered (codec : WireCodec Value Sample) (stopAtLoss : Bool)
    {p : StreamParser} (buffered : Buffered p) (data : Bytes) :
    Buffered (p.parseBuffered codec stopAtLoss data).1 := by
  have counted := buffered.counters
    { p.counters with bytesProcessed := p.counters.bytesProcessed + data.length }
  rw [parseBuffered]
  simp only
  split
  · refine ⟨buffered.within, buffered.compacted, fun more => ?_⟩
    exact buffered.skipping (Nat.lt_of_lt_of_le more (Nat.sub_le _ _))
  · exact parseLoop_buffered codec stopAtLoss (counted.extend data)

theorem processDataRecovering_bounded (codec : WireCodec Value Sample) {p q : StreamParser}
    (buffered : Buffered p) {data : Bytes} {items : List (ParsedItem Sample)}
    (parsed : p.processDataRecovering codec data = (q, .ok items)) : q.Bounded codec := by
  rw [processDataRecovering, parseBuffered] at parsed
  simp only at parsed
  split at parsed
  · -- all of the data was skipped, with nothing pending
    rename_i skipped
    obtain rfl : _ = q := congrArg Prod.fst parsed
    have none : p.pending = [] := buffered.skipping (by omega)
    left
    change p.pending.length ≤ maxJsonBuffer
    rw [none]
    exact Nat.zero_le _
  · exact parseLoop_bounded codec parsed

theorem Buffered.call (codec : WireCodec Value Sample) {p : StreamParser} (buffered : Buffered p)
    (c : ParserCall) : Buffered (p.call codec c) := by
  cases c with
  | processDataRecovering data => exact parseBuffered_buffered codec false buffered data
  | reset => exact .empty p.reset rfl rfl
  | processData data =>
      have kept := parseBuffered_buffered codec true buffered data
      rw [StreamParser.call, processData]
      cases parsed : p.parseBuffered codec true data with
      | mk q outcome =>
          rw [parsed] at kept
          cases outcome <;> exact kept

theorem Buffered.run (codec : WireCodec Value Sample) {p : StreamParser} (buffered : Buffered p)
    (calls : List ParserCall) : Buffered (p.run codec calls) := by
  induction calls generalizing p with
  | nil => exact buffered
  | cons c calls ih => exact ih (buffered.call codec c)

/-- After any calls on a new parser, whatever they returned: the invariant holds, a recovering call
that returns `Ok` leaves the pending bytes bounded, every step that does not wait consumes at least
one of them, and so the loop cannot turn for ever. -/
theorem buffer_invariant (codec : WireCodec Value Sample) (format : StreamFormat)
    (scale : Option F64) (calls : List ParserCall) :
    Buffered ((new format scale).run codec calls) ∧
      (∀ data q items,
        ((new format scale).run codec calls).processDataRecovering codec data = (q, .ok items) →
          q.Bounded codec) ∧
      (∀ (p q : StreamParser) (step : ParseStep Sample),
        p.tryParseCompletePacket codec = (q, .ok step) → step ≠ .needMore →
          q.pending.length < p.pending.length) ∧
      WellFounded fun q p : StreamParser => p.Turns codec q := by
  have buffered : Buffered ((new format scale).run codec calls) :=
    (Buffered.empty (new format scale) rfl rfl).run codec calls
  exact ⟨buffered, fun _ _ _ parsed => processDataRecovering_bounded codec buffered parsed,
    fun _ _ _ tried onward => tryParse_shrinks tried onward, turns_wellFounded codec⟩

end StreamParser

end SdrAaronia.HttpStreaming
