import SdrAaronia.HttpStreaming.Chunking

/-! # The parser's counters

What a run of calls adds to the counters: the packets and samples of the frames, an error
for every frame that is no packet, and an error for every malformed header candidate, again
at every call that finds it still pending.
-/

namespace SdrAaronia.HttpStreaming

open Framing

variable {Value Sample : Type}

/-- Samples an item decoded to. -/
def decodedSamples : ParsedItem Sample → Nat
  | .packet packet => packet.samples.length
  | .lost _ | .skipped _ _ => 0

/-- The counters behind these items and this many malformed candidates. -/
def StatsCounters.add (counters : StatsCounters) (rejected : Nat)
    (items : List (ParsedItem Sample)) : StatsCounters where
  packetsParsed := counters.packetsParsed + items.countP (·.isPacket)
  bytesProcessed := counters.bytesProcessed
  samplesDecoded := counters.samplesDecoded + (items.map decodedSamples).sum
  parseErrors := counters.parseErrors + rejected + items.countP (!·.isPacket)

theorem StatsCounters.add_add (counters : StatsCounters) (first second : Nat)
    (items later : List (ParsedItem Sample)) :
    (counters.add first items).add second later =
      counters.add (first + second) (items ++ later) := by
  simp only [StatsCounters.add, List.countP_append, List.map_append, List.sum_append,
    StatsCounters.mk.injEq]
  refine ⟨?_, trivial, ?_, ?_⟩ <;> omega

namespace StreamParser

variable (codec : WireCodec Value Sample) {p q : StreamParser}

@[simp] theorem counters_consumeBuffer (p : StreamParser) (n : Nat) :
    (p.consumeBuffer n).counters = p.counters := by
  unfold consumeBuffer
  split
  · split <;> rfl
  · rfl

@[simp] theorem counters_extendBuffer (p : StreamParser) (data : Bytes) :
    (p.extendBuffer data).counters = p.counters := rfl

theorem counters_countItem (p : StreamParser) (item : ParsedItem Sample) :
    (p.countItem item).counters = { p.counters with
      parseErrors := p.counters.parseErrors + if item.isPacket then 0 else 1 } := by
  unfold countItem
  split <;> rfl

/-- What an attempt counts: the candidates rejected, and the packet if there is one. -/
def attempted (counters : StatsCounters) (rejected : Nat) : ParseStep Sample → StatsCounters
  | .packet packet => { counters with
      packetsParsed := counters.packetsParsed + 1
      samplesDecoded := counters.samplesDecoded + packet.samples.length
      parseErrors := counters.parseErrors + rejected }
  | .needMore | .lost _ | .undecoded _ _ =>
      { counters with parseErrors := counters.parseErrors + rejected }

/-- An item counted behind its attempt. -/
theorem attempted_item {counters : StatsCounters} {rejected : Nat} {step : ParseStep Sample}
    {item : ParsedItem Sample} (yielded : step.item = some item)
    (tried : q.counters = attempted counters rejected step) :
    (q.countItem item).counters = counters.add rejected [item] := by
  rw [counters_countItem, tried]
  cases step with
  | needMore => cases yielded
  | packet packet =>
      cases yielded
      rfl
  | lost error =>
      cases yielded
      rfl
  | undecoded payload error =>
      cases yielded
      rw [undecodedItem]
      split <;> rfl

theorem tryParse_counters {step : ParseStep Sample}
    (tried : p.tryParseCompletePacket codec = (q, .ok step)) :
    q.counters = attempted p.counters ((headerGrammar codec.metadata).rejections p.pending)
      step := by
  rw [tryParseCompletePacket, scanPacketHeader_eq, scanResult, List.drop_zero, Nat.zero_add]
    at tried
  split at tried
  · rename_i skippable rejected scanned
    have same : rejected = (headerGrammar codec.metadata).rejections p.pending := by
      split at scanned
      · cases scanned
      · obtain ⟨-, rfl⟩ := HeaderScan.incomplete.inj scanned
        rfl
    dsimp only at tried
    split at tried
    · cases tried
    · cases tried
      rw [counters_consumeBuffer, ← same]
      rfl
  · rename_i metadata json payloadStart rejected scanned
    have same : rejected = (headerGrammar codec.metadata).rejections p.pending := by
      split at scanned
      · obtain ⟨-, -, -, rfl⟩ := HeaderScan.header.inj scanned
        rfl
      · cases scanned
    rw [← same]
    dsimp only at tried
    split at tried
    · rw [parseJsonPacket] at tried
      split at tried
      · cases tried
        rw [counters_consumeBuffer]
        rfl
      · split at tried
        · cases tried
          rw [counters_consumeBuffer]
          rfl
        · cases tried
          rw [counters_consumeBuffer]
          rfl
    · rw [parseBinaryPacket] at tried
      split at tried
      · cases tried
        rw [counters_consumeBuffer]
        rfl
      · dsimp only at tried
        split at tried
        · cases tried
          rw [counters_consumeBuffer]
          rfl
        · split at tried
          · cases tried
            rfl
          · split at tried
            · cases tried
              rw [counters_consumeBuffer]
              rfl
            · cases tried
              rw [counters_consumeBuffer]
              rfl

variable {codec}

/-- The loop counts every candidate that fails in the buffer, and keeps what is worth it. -/
theorem parseLoop_counts {items : List (ParsedItem Sample)}
    (small : NoOverCap (p.wire codec) p.format p.pending)
    (looped : p.parseLoop codec false = (q, .ok items)) :
    q.counters = p.counters.add ((p.wire codec).rejected p.pending) items ∧
      q.pending = (p.wire codec).kept ((p.wire codec).remainder p.pending) := by
  induction size : p.pending.length using Nat.strong_induction_on generalizing p items with
  | _ n ih =>
      have rejections : (headerGrammar codec.metadata).rejections p.pending =
          (p.wire codec).rejections p.pending := rfl
      cases found : (p.wire codec).firstMatch p.pending with
      | none =>
          obtain ⟨after, -, pending, tried⟩ := p.tryParse_missing codec found
          have settled : (p.wire codec).Settled p.pending := by
            simp only [Format.Settled, Format.next, found]
          have missing : ¬ ((p.wire codec).firstMatch p.pending).isSome = true := by
            rw [found]
            exact Bool.false_ne_true
          rw [(p.wire codec).rejected_settled settled, (p.wire codec).remainder_of_settled settled,
            Format.kept, if_neg missing]
          split at tried
          · rw [parseLoop_fail codec tried] at looped
            cases looped
          · rw [parseLoop_wait codec tried rfl] at looped
            cases looped
            exact ⟨tryParse_counters codec tried, pending⟩
      | some m =>
          have listed := (p.wire codec).firstMatch_header found
          obtain ⟨after, step, tried, same, reads⟩ := p.tryParse_found codec found (small _ listed)
          have counted := tryParse_counters codec tried
          rw [rejections] at counted
          cases here : (p.wire codec).next p.pending with
          | none =>
              simp only [here] at reads
              rw [parseLoop_wait codec tried reads.1] at looped
              cases looped
              have waits : ((p.wire codec).firstMatch p.pending).isSome = true := by
                rw [found]
                rfl
              rw [(p.wire codec).rejected_settled here, (p.wire codec).remainder_of_settled here,
                Format.kept, if_pos waits]
              refine ⟨?_, reads.2⟩
              rw [counted]
              cases step with
              | needMore => rfl
              | packet | lost | undecoded => cases reads.1
          | some read =>
              simp only [here] at reads
              obtain ⟨yielded, pending⟩ := reads
              rw [parseLoop_item codec tried yielded rfl] at looped
              obtain ⟨last, later, rest⟩ : ∃ last later,
                  (after.countItem read.1.item).parseLoop codec false = (last, later) :=
                ⟨_, _, rfl⟩
              rw [rest] at looped
              cases later with
              | error e => cases looped
              | ok later =>
                  cases looped
                  have onward := same.trans (SameSettings.countItem after read.1.item)
                  have shorter := (p.wire codec).next_length here
                  have left : (after.countItem read.1.item).pending = read.2 := by
                    rw [pending_countItem, pending]
                  have smaller : NoOverCap ((after.countItem read.1.item).wire codec)
                      (after.countItem read.1.item).format
                      (after.countItem read.1.item).pending := by
                    rw [onward.wire codec, onward.format, left]
                    exact small.next here
                  obtain ⟨counters, kept⟩ := ih _ (by rw [left]; omega) smaller rest rfl
                  rw [onward.wire codec, left] at counters kept
                  rw [(p.wire codec).rejected_next here, (p.wire codec).remainder_next here]
                  refine ⟨?_, kept⟩
                  rw [counters, attempted_item yielded counted, StatsCounters.add_add]
                  rfl

/-- The parser has read `stream`, and what is pending tells what will be counted. -/
structure Tallies (codec : WireCodec Value Sample)
    (f : Framing.Format UInt8 PacketMetadata (ParsedItem Sample)) (format : StreamFormat)
    (stream : Bytes) (p : StreamParser) : Prop extends Behind codec f format stream p where
  honest : ∀ more, f.rejected (stream ++ more) + f.rejected p.pending =
    f.rejected stream + f.rejected (p.pending ++ more)

variable {f : Framing.Format UInt8 PacketMetadata (ParsedItem Sample)} {format : StreamFormat}
  {stream data : Bytes} {items : List (ParsedItem Sample)}

theorem Tallies.settled (tallies : Tallies codec f format stream p) : f.Settled p.pending :=
  tallies.same.next.trans (f.remainder_settled stream)

theorem tallies_new (codec : WireCodec Value Sample) (format : StreamFormat) (scale : Option F64) :
    Tallies codec (wireFormat codec format scale) format [] (.new format scale) where
  toBehind := behind_new codec format scale
  honest := fun _ => Nat.add_comm _ _

variable (codec) in
/-- A call with nothing to skip counts its bytes and runs the loop. -/
theorem processDataRecovering_started {p : StreamParser} (idle : p.skipBytes = 0) (data : Bytes) :
    ∃ started, SameSettings p started ∧ started.pending = p.pending ++ data ∧
      started.counters = { p.counters with
        bytesProcessed := p.counters.bytesProcessed + data.length } ∧
      p.processDataRecovering codec data = started.parseLoop codec false := by
  refine ⟨extendBuffer { p with
      counters := { p.counters with bytesProcessed := p.counters.bytesProcessed + data.length }
      skipBytes := 0 } data, ⟨rfl, rfl, idle.symm⟩, pending_extendBuffer _ _, rfl, ?_⟩
  simp only [processDataRecovering, parseBuffered, idle, Nat.zero_min, Nat.lt_irrefl, false_and,
    if_false, List.drop_zero, Nat.sub_zero]

/-- **One call counts what fails in what is pending and given.** -/
theorem Tallies.call (tallies : Tallies codec f format stream p)
    (small : NoOverCap f format (stream ++ data))
    (processed : p.processDataRecovering codec data = (q, .ok items)) :
    q.counters = { p.counters with
        bytesProcessed := p.counters.bytesProcessed + data.length }.add
          (f.rejected (p.pending ++ data)) items ∧
      Tallies codec f format (stream ++ data) q := by
  obtain ⟨-, behind⟩ := processDataRecovering_reads tallies.toBehind small processed
  obtain ⟨started, entered, pending, counters, looped⟩ :=
    processDataRecovering_started codec tallies.idle data
  have wire : started.wire codec = f := (entered.wire codec).trans tallies.wire
  have formatted : started.format = format := entered.format.trans tallies.formatted
  have alike : f.Same started.pending (f.remainder stream ++ data) :=
    pending ▸ tallies.same.append data
  have smaller : NoOverCap (started.wire codec) started.format started.pending := by
    rw [wire, formatted]
    intro metadata member
    rw [alike.headers] at member
    exact small metadata (f.headers_append stream data ▸ List.mem_append_right _ member)
  rw [looped] at processed
  obtain ⟨counted, kept⟩ := parseLoop_counts smaller processed
  rw [wire, pending] at counted kept
  refine ⟨by rw [counted, counters], behind, fun more => ?_⟩
  have first := tallies.honest data
  have whole := tallies.honest (data ++ more)
  have split := f.rejected_append (p.pending ++ data) more
  have left := f.rejected_kept (f.remainder_settled (p.pending ++ data)) more
  rw [← kept] at left
  rw [← List.append_assoc, ← List.append_assoc] at whole
  omega

/-- The candidates that each of these calls finds pending, and counts again. -/
def recounted (codec : WireCodec Value Sample) (p : StreamParser) : List Bytes → Nat
  | [] => 0
  | chunk :: chunks =>
      (headerGrammar codec.metadata).rejections p.pending +
        recounted codec (p.processDataRecovering codec chunk).1 chunks

theorem feed_cons_ok {chunk : Bytes} {chunks : List Bytes}
    (fed : p.feed codec (chunk :: chunks) = .ok (items, q)) :
    ∃ mid read later, p.processDataRecovering codec chunk = (mid, .ok read) ∧
      mid.feed codec chunks = .ok (later, q) ∧ items = read ++ later := by
  simp only [feed] at fed
  split at fed
  · cases fed
  · rename_i mid read processed
    split at fed
    · cases fed
    · rename_i later last fedLater
      cases fed
      exact ⟨mid, read, later, processed, fedLater, rfl⟩

/-- **A run of calls counts the whole stream once**, and what it recounts on top. -/
theorem Tallies.feed {chunks : List Bytes} (tallies : Tallies codec f format stream p)
    (small : NoOverCap f format (stream ++ chunks.flatten))
    (fed : p.feed codec chunks = .ok (items, q)) :
    ∃ rejected, q.counters = { p.counters with
        bytesProcessed := p.counters.bytesProcessed + chunks.flatten.length }.add rejected items ∧
      rejected + f.rejected stream =
        f.rejected (stream ++ chunks.flatten) + recounted codec p chunks := by
  induction chunks generalizing p stream items with
  | nil =>
      cases fed
      refine ⟨0, rfl, ?_⟩
      rw [List.flatten_nil, List.append_nil, recounted]
      omega
  | cons chunk chunks ih =>
      obtain ⟨mid, read, later, processed, fedLater, rfl⟩ := feed_cons_ok fed
      rw [List.flatten_cons, ← List.append_assoc] at small ⊢
      have smaller : NoOverCap f format (stream ++ chunk) :=
        fun metadata member => small metadata (f.headers_prefix member _)
      obtain ⟨counted, tallies'⟩ := tallies.call smaller processed
      obtain ⟨rejected, counters, total⟩ := ih tallies' small fedLater
      have honest := tallies.honest chunk
      have again : f.rejected p.pending = (headerGrammar codec.metadata).rejections p.pending := by
        rw [f.rejected_settled tallies.settled, ← tallies.wire]
        rfl
      refine ⟨f.rejected (p.pending ++ chunk) + rejected, ?_, ?_⟩
      · rw [counters, counted, ← StatsCounters.add_add, List.length_append, ← Nat.add_assoc]
        rfl
      · rw [recounted, processed]
        dsimp only
        omega

/-- No call of this cut finds a malformed candidate still pending: one that it, or a call
before it, counted already. -/
def NothingPending (codec : WireCodec Value Sample) (p : StreamParser) (chunks : List Bytes) :
    Prop :=
  ∀ before chunk after items mid, chunks = before ++ chunk :: after →
    p.feed codec before = .ok (items, mid) →
      (headerGrammar codec.metadata).rejections mid.pending = 0

theorem recounted_eq_zero_iff {chunks : List Bytes}
    (fed : p.feed codec chunks = .ok (items, q)) :
    recounted codec p chunks = 0 ↔ NothingPending codec p chunks := by
  induction chunks generalizing p items with
  | nil =>
      refine iff_of_true rfl fun before chunk after items mid split _ => ?_
      exact absurd split (List.append_ne_nil_of_right_ne_nil _ (List.cons_ne_nil _ _)).symm
  | cons chunk chunks ih =>
      obtain ⟨mid, read, later, processed, fedLater, rfl⟩ := feed_cons_ok fed
      rw [recounted, processed, Nat.add_eq_zero_iff, ih fedLater]
      constructor
      · rintro ⟨first, rest⟩ before chunk' after items mid' split reached
        cases before with
        | nil =>
            cases reached
            exact first
        | cons chunk'' before =>
            obtain ⟨rfl, split'⟩ := List.cons.inj split
            obtain ⟨mid'', read', later', processed', reached', -⟩ := feed_cons_ok reached
            rw [processed] at processed'
            cases processed'
            exact rest before chunk' after later' mid' split' reached'
      · intro nothing
        refine ⟨nothing [] chunk chunks [] p rfl rfl, ?_⟩
        intro before chunk' after items mid' split reached
        refine nothing (chunk :: before) chunk' after (read ++ items) mid' ?_ ?_
        · rw [split, List.cons_append]
        · simp only [feed, processed, reached]

end StreamParser

open StreamParser

/-- **A malformed candidate is counted again at every call that finds it pending.**  Two
cuts leave the same counters, with one error for each malformed candidate and for each
frame that is no packet, exactly when no call of either finds such a candidate. -/
theorem counters_chunking_iff (codec : WireCodec Value Sample) (format : StreamFormat)
    (scale : Option F64) (stream : Bytes) (left right : List Bytes)
    (itemsLeft itemsRight : List (ParsedItem Sample)) (endLeft endRight : StreamParser)
    (cutLeft : left.flatten = stream) (cutRight : right.flatten = stream)
    (small : ∀ metadata ∈ headersFound codec format scale stream, ¬OverCap format metadata)
    (fedLeft : (StreamParser.new format scale).feed codec left = .ok (itemsLeft, endLeft))
    (fedRight : (StreamParser.new format scale).feed codec right = .ok (itemsRight, endRight)) :
    (endLeft.counters = endRight.counters ∧ endLeft.counters.parseErrors =
      (wireFormat codec format scale).rejected stream +
        ((wireFormat codec format scale).frames stream).countP fun frame =>
          !frame.item.isPacket) ↔
      NothingPending codec (.new format scale) left ∧
        NothingPending codec (.new format scale) right := by
  have fresh := tallies_new codec format scale
  have whole : ∀ {chunks : List Bytes} {items : List (ParsedItem Sample)} {last : StreamParser},
      chunks.flatten = stream → (StreamParser.new format scale).feed codec chunks =
        .ok (items, last) →
      items = ((wireFormat codec format scale).frames stream).map Frame.item ∧
        last.counters = StatsCounters.add { bytesProcessed := stream.length }
          ((wireFormat codec format scale).rejected stream +
            recounted codec (.new format scale) chunks) items := by
    rintro chunks items last rfl fed
    obtain ⟨read, -⟩ := feed_reads fresh.toBehind small fed
    obtain ⟨rejected, counters, total⟩ := fresh.feed small fed
    have none' : (wireFormat codec format scale).rejected [] = 0 :=
      (wireFormat codec format scale).rejected_settled (wireFormat codec format scale).settled_nil
    rw [(wireFormat codec format scale).remainder_of_settled
      (wireFormat codec format scale).settled_nil, List.nil_append] at read
    rw [none', Nat.add_zero, List.nil_append] at total
    rw [total] at counters
    refine ⟨read, counters.trans ?_⟩
    simp only [StreamParser.new, Nat.zero_add]
  obtain ⟨readLeft, countLeft⟩ := whole cutLeft fedLeft
  obtain ⟨readRight, countRight⟩ := whole cutRight fedRight
  rw [← recounted_eq_zero_iff fedLeft, ← recounted_eq_zero_iff fedRight, countLeft, countRight,
    readLeft, readRight]
  simp only [StatsCounters.add, StatsCounters.mk.injEq, List.countP_map, Function.comp_def,
    true_and, Nat.zero_add]
  omega

/-- A malformed candidate `{1}` in front of a packet. -/
def strayCandidate : Bytes := [123, 1, 125, 10, 123, 125, 10, 30, 7, 7, 7, 7]

/-- Cuts that leave nothing malformed pending. -/
def strayCuts : List Bytes × List Bytes :=
  ([strayCandidate], [[123, 1, 125, 10], [123, 125, 10, 30, 7], [7, 7, 7]])

/-- A cut inside the payload, whose header arrived with the candidate. -/
def strayPending : List Bytes := [[123, 1, 125, 10, 123, 125, 10, 30, 7], [7, 7, 7]]

theorem counters_chunking_iff_stray :
    ∃ itemsLeft itemsRight endLeft endRight,
      (StreamParser.new .int16 none).feed (emptyHeaderCodec (iqMetadata 1)) strayCuts.1 =
        .ok (itemsLeft, endLeft) ∧
      (StreamParser.new .int16 none).feed (emptyHeaderCodec (iqMetadata 1)) strayCuts.2 =
        .ok (itemsRight, endRight) ∧
      endLeft.counters.parseErrors = 1 ∧
      NothingPending (emptyHeaderCodec (iqMetadata 1)) (.new .int16 none) strayCuts.1 ∧
        NothingPending (emptyHeaderCodec (iqMetadata 1)) (.new .int16 none) strayCuts.2 := by
  have left : (StreamParser.new .int16 none).feed (emptyHeaderCodec (iqMetadata 1)) strayCuts.1 =
      .ok ([.packet (.new (iqMetadata 1) [7, 7, 7, 7])],
        { StreamParser.new .int16 none with counters := ⟨1, 12, 4, 1⟩ }) := by
    decide +kernel
  have right : (StreamParser.new .int16 none).feed (emptyHeaderCodec (iqMetadata 1)) strayCuts.2 =
      .ok ([.packet (.new (iqMetadata 1) [7, 7, 7, 7])],
        { StreamParser.new .int16 none with counters := ⟨1, 12, 4, 1⟩ }) := by
    decide +kernel
  refine ⟨_, _, _, _, left, right, rfl, (counters_chunking_iff _ _ _ strayCandidate strayCuts.1
    strayCuts.2 _ _ _ _ rfl rfl (by decide +kernel) left right).mp ⟨rfl, by decide +kernel⟩⟩

/-- The candidate is counted once in one cut, and twice in another. -/
theorem strayPending_counts_twice :
    ¬ ∀ (stream : Bytes) (left right : List Bytes) (itemsLeft itemsRight : List (ParsedItem UInt8))
      (endLeft endRight : StreamParser), left.flatten = stream → right.flatten = stream →
        (∀ metadata ∈ headersFound (emptyHeaderCodec (iqMetadata 1)) .int16 none stream,
          ¬OverCap .int16 metadata) →
        (StreamParser.new .int16 none).feed (emptyHeaderCodec (iqMetadata 1)) left =
          .ok (itemsLeft, endLeft) →
        (StreamParser.new .int16 none).feed (emptyHeaderCodec (iqMetadata 1)) right =
          .ok (itemsRight, endRight) → endLeft.counters = endRight.counters := by
  intro same
  have whole : (StreamParser.new .int16 none).feed (emptyHeaderCodec (iqMetadata 1))
      [strayCandidate] = .ok ([.packet (.new (iqMetadata 1) [7, 7, 7, 7])],
        { StreamParser.new .int16 none with counters := ⟨1, 12, 4, 1⟩ }) := by
    decide +kernel
  have cut : (StreamParser.new .int16 none).feed (emptyHeaderCodec (iqMetadata 1))
      strayPending = .ok ([.packet (.new (iqMetadata 1) [7, 7, 7, 7])],
        { StreamParser.new .int16 none with counters := ⟨1, 12, 4, 2⟩ }) := by
    decide +kernel
  have counted := same strayCandidate [strayCandidate] strayPending _ _ _ _ rfl rfl
    (by decide +kernel) whole cut
  revert counted
  decide

end SdrAaronia.HttpStreaming
