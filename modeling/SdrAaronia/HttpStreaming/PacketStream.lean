import SdrAaronia.HttpStreaming.Oversized
import SdrAaronia.Lib.Backlog

/-! # The packet stream

`startStream` hands each chunk to `processData`, which stops at the first bad
packet: what it completed in front of that packet is lost with the `Err`, and what
follows stays buffered for the next chunk.  Seen from the items the chunks
complete, it is a queue whose calls stop at the first bad item.
-/

namespace SdrAaronia.HttpStreaming

open Delimited Framing

variable {Value Sample : Type}

namespace ParsedItem

/-- The packet of an item that is one. -/
def packet? : ParsedItem Sample → Option (StreamPacket Sample)
  | .packet parsed => some parsed
  | .lost _ | .skipped _ _ => none

def isBad (item : ParsedItem Sample) : Bool := !item.isPacket

/-- A header that declared a payload above the cap. -/
def OverCap (item : ParsedItem Sample) : Prop :=
  ∃ expected, maxBinaryPayload < expected ∧ item = .lost (overCapError expected)

theorem OverCap.isBad {item : ParsedItem Sample} (large : item.OverCap) : item.isBad = true := by
  obtain ⟨expected, -, rfl⟩ := large
  rfl

end ParsedItem

/-- The loop of `processData`: the packets, or the error of the first item that is none. -/
def collectPackets : List (ParsedItem Sample) → Except Error (List (StreamPacket Sample))
  | [] => .ok []
  | .packet parsed :: rest => (collectPackets rest).map (parsed :: ·)
  | .lost error :: _ | .skipped _ error :: _ => .error error

namespace StreamParser

/-- Process incoming stream data and return completed packets. -/
def processData (codec : WireCodec Value Sample) (p : StreamParser) (data : Bytes) :
    StreamParser × Except Error (List (StreamPacket Sample)) :=
  match p.parseBuffered codec true data with
  | (q, .error error) => (q, .error error)
  | (q, .ok items) => (q, collectPackets items)

/-- The stream's items, one `Err` for a chunk that failed or was not all good. -/
def packetStream (codec : WireCodec Value Sample) (p : StreamParser) :
    List (Except String Bytes) → List (Except Error (StreamPacket Sample))
  | [] => []
  | .ok chunk :: chunks =>
      match p.processData codec chunk with
      | (q, .ok packets) => packets.map .ok ++ packetStream codec q chunks
      | (q, .error error) => .error error :: packetStream codec q chunks
  | .error e :: chunks =>
      .error (.protocol s!"Stream chunk error: {e}") :: packetStream codec p chunks

theorem processData_parsed {codec : WireCodec Value Sample} {p q : StreamParser} {data : Bytes}
    {items : List (ParsedItem Sample)} (parsed : p.parseBuffered codec true data = (q, .ok items)) :
    p.processData codec data = (q, collectPackets items) := by
  rw [processData, parsed]

theorem packetStream_ok {codec : WireCodec Value Sample} {p q : StreamParser} {chunk : Bytes}
    {packets : List (StreamPacket Sample)}
    (processed : p.processData codec chunk = (q, .ok packets))
    (chunks : List (Except String Bytes)) :
    p.packetStream codec (.ok chunk :: chunks) =
      packets.map .ok ++ q.packetStream codec chunks := by
  rw [packetStream, processed]

theorem packetStream_error {codec : WireCodec Value Sample} {p q : StreamParser} {chunk : Bytes}
    {error : Error} (processed : p.processData codec chunk = (q, .error error))
    (chunks : List (Except String Bytes)) :
    p.packetStream codec (.ok chunk :: chunks) = .error error :: q.packetStream codec chunks := by
  rw [packetStream, processed]

end StreamParser

/-- What `HttpEndpointsClient::start_stream` yields for the response's chunks. -/
def startStream (codec : WireCodec Value Sample) (format : StreamFormat) (scale : Option F64)
    (chunks : List (Except String Bytes)) : List (Except Error (StreamPacket Sample)) :=
  (StreamParser.new format scale).packetStream codec chunks

namespace StreamParser

variable (codec : WireCodec Value Sample)

/-! ## Parsers that go on alike -/

/-- Whatever arrives, both read the same items from it. -/
structure Near (p q : StreamParser) : Prop where
  settings : SameSettings p q
  same : (p.wire codec).Same p.pending q.pending
  ends : (p.wire codec).SameEnd p.pending q.pending

theorem SameSettings.symm {p q : StreamParser} (same : SameSettings p q) : SameSettings q p :=
  ⟨same.format.symm, same.scale.symm, same.skip.symm⟩

variable {codec}

theorem Near.of_pending {p q : StreamParser} (settings : SameSettings p q)
    (pending : p.pending = q.pending) : Near codec p q := by
  refine ⟨settings, ?_, ?_⟩
  · rw [pending]
    exact Format.Same.refl _ _
  · intro more
    rw [pending]

theorem Near.of_plain {p q : StreamParser} (same : p.plain = q.plain) : Near codec p q :=
  .of_pending ⟨(format_of_plain same).symm, (scale_of_plain same).symm,
    (skipBytes_of_plain same).symm⟩ (pending_of_plain same)

theorem Near.refl (p : StreamParser) : Near codec p p := .of_plain rfl

theorem Near.symm {p q : StreamParser} (near : Near codec p q) : Near codec q p := by
  have wire := near.settings.wire codec
  refine ⟨near.settings.symm, ?_, ?_⟩
  · rw [wire]
    exact near.same.symm
  · intro more
    rw [wire]
    exact (near.ends more).symm

theorem Near.trans {p q r : StreamParser} (first : Near codec p q) (second : Near codec q r) :
    Near codec p r := by
  have wire := first.settings.wire codec
  refine ⟨first.settings.trans second.settings, ?_, ?_⟩
  · exact first.same.trans (wire ▸ second.same)
  · intro more
    have further := second.ends more
    rw [wire] at further
    exact (first.ends more).trans further

theorem Near.countItem {p q : StreamParser} (near : Near codec p q) (item : ParsedItem Sample) :
    Near codec (p.countItem item) (q.countItem item) := by
  have left : Near codec (p.countItem item) p := .of_plain (plain_countItem p item)
  have right : Near codec q (q.countItem item) := .of_plain (plain_countItem q item).symm
  exact left.trans (near.trans right)

theorem Near.extendBuffer {p q : StreamParser} (near : Near codec p q) (data : Bytes) :
    Near codec (p.extendBuffer data) (q.extendBuffer data) := by
  refine ⟨⟨near.settings.format, near.settings.scale, near.settings.skip⟩, ?_, ?_⟩
  · rw [pending_extendBuffer, pending_extendBuffer]
    exact near.same.append data
  · rw [pending_extendBuffer, pending_extendBuffer]
    exact near.ends.append data

/-- A header that is over the cap belongs to a binary stream. -/
theorem binary_of_overCap {format : StreamFormat} {metadata : PacketMetadata}
    (large : OverCap format metadata) : format.Binary := by
  obtain ⟨expected, sized, -⟩ := large
  intro json
  rw [json] at sized
  cases sized

/-- What one attempt finds, whatever it is. -/
inductive Finds (codec : WireCodec Value Sample) (p : StreamParser) : Prop where
  | nothing (missing : (p.wire codec).firstMatch p.pending = none)
  | small {m : Match UInt8 PacketMetadata}
      (found : (p.wire codec).firstMatch p.pending = some m)
      (small : ¬HttpStreaming.OverCap p.format m.value)
  | large {m : Match UInt8 PacketMetadata}
      (found : (p.wire codec).firstMatch p.pending = some m) {expected : Nat}
      (sized : calculateBinarySize p.format m.value = .ok expected)
      (above : maxBinaryPayload < expected)

variable (codec) in
theorem finds (p : StreamParser) : Finds codec p := by
  cases found : (p.wire codec).firstMatch p.pending with
  | none => exact .nothing found
  | some m =>
      by_cases large : HttpStreaming.OverCap p.format m.value
      · obtain ⟨expected, sized, above⟩ := large
        exact .large found sized above
      · exact .small found large

/-- An over-cap header: everything buffered goes, and the rest of the payload is skipped. -/
theorem tryParse_large {p : StreamParser} {m : Match UInt8 PacketMetadata}
    (found : (p.wire codec).firstMatch p.pending = some m) {expected : Nat}
    (sized : calculateBinarySize p.format m.value = .ok expected)
    (above : maxBinaryPayload < expected) :
    ∃ q, Empty p.format p.defaultEncodeScale
        (expected - (m.rest.length - (p.wire codec).separator m.rest)) q ∧
      p.tryParseCompletePacket codec = (q, .ok (.lost (overCapError expected))) := by
  obtain ⟨q, empty, tried⟩ :=
    tryParse_overCap codec (binary_of_overCap ⟨expected, sized, above⟩) found sized above
  obtain ⟨-, -, total⟩ := p.match_slices codec found
  refine ⟨q, ?_, tried⟩
  have behind : p.pending.length - (m.before + m.text.length + (p.wire codec).separator m.rest) =
      m.rest.length - (p.wire codec).separator m.rest := by omega
  rwa [behind] at empty

/-- Attempts on near parsers come to the same and leave near parsers. -/
theorem Near.tryParse {p q : StreamParser} (near : Near codec p q) :
    ∃ p' q', Near codec p' q' ∧
      ((∃ error, p.tryParseCompletePacket codec = (p', .error error) ∧
          q.tryParseCompletePacket codec = (q', .error error)) ∨
        ∃ left right, p.tryParseCompletePacket codec = (p', .ok left) ∧
          q.tryParseCompletePacket codec = (q', .ok right) ∧ left.item = right.item) := by
  have wire : q.wire codec = p.wire codec := near.settings.wire codec
  have format : q.format = p.format := near.settings.format
  have matched := near.same.firstMatch
  cases p.finds codec with
  | nothing missing =>
      have missing' : (q.wire codec).firstMatch q.pending = none := by
        rw [missing, Option.map_none] at matched
        rw [wire]
        exact Option.map_eq_none_iff.mp matched.symm
      obtain ⟨p', settings, pending, tried⟩ := p.tryParse_missing codec missing
      obtain ⟨q', settings', pending', tried'⟩ := q.tryParse_missing codec missing'
      have alike : p'.pending = q'.pending := by
        rw [pending, pending', wire]
        exact near.ends.leftover
      have onward : SameSettings p' q' := settings.symm.trans (near.settings.trans settings')
      refine ⟨p', q', .of_pending onward alike, ?_⟩
      rw [tried, tried', alike]
      split
      · exact .inl ⟨_, rfl, rfl⟩
      · exact .inr ⟨_, _, rfl, rfl, rfl⟩
  | small found small =>
      rename_i m
      rw [found, Option.map_some] at matched
      obtain ⟨m', found', same⟩ := Option.map_eq_some_iff.mp matched.symm
      have value : m'.unplaced.value = m.unplaced.value := congrArg Match.value same
      rw [Match.unplaced_value, Match.unplaced_value] at value
      rw [← wire] at found'
      have small' : ¬HttpStreaming.OverCap q.format m'.value := by rwa [value, format]
      obtain ⟨p', left, tried, settings, reads⟩ := p.tryParse_found codec found small
      obtain ⟨q', right, tried', settings', reads'⟩ := q.tryParse_found codec found' small'
      rw [wire, ← near.same.next] at reads'
      have onward : SameSettings p' q' := settings.symm.trans (near.settings.trans settings')
      cases here : (p.wire codec).next p.pending with
      | none =>
          simp only [here] at reads reads'
          have alike : Near codec p' p := .of_pending settings.symm reads.2
          have alike' : Near codec q q' := .of_pending settings' reads'.2.symm
          exact ⟨p', q', alike.trans (near.trans alike'), .inr ⟨left, right, tried, tried',
            reads.1.trans reads'.1.symm⟩⟩
      | some read =>
          simp only [here] at reads reads'
          exact ⟨p', q', .of_pending onward (reads.2.trans reads'.2.symm),
            .inr ⟨left, right, tried, tried', reads.1.trans reads'.1.symm⟩⟩
  | large found sized above =>
      rename_i m expected
      rw [found, Option.map_some] at matched
      obtain ⟨m', found', same⟩ := Option.map_eq_some_iff.mp matched.symm
      have value : m'.unplaced.value = m.unplaced.value := congrArg Match.value same
      have rest : m'.unplaced.rest = m.unplaced.rest := congrArg Match.rest same
      rw [Match.unplaced_value, Match.unplaced_value] at value
      rw [Match.unplaced_rest, Match.unplaced_rest] at rest
      rw [← wire] at found'
      obtain ⟨p', empty, tried⟩ := tryParse_large found sized above
      obtain ⟨q', empty', tried'⟩ :=
        tryParse_large found' (by rw [format, value]; exact sized) above
      rw [format, near.settings.scale, rest, wire] at empty'
      exact ⟨p', q', .of_plain (empty.trans empty'.symm), .inr ⟨_, _, tried, tried', rfl⟩⟩

/-- An attempt that yields nothing leaves a parser that goes on as before. -/
theorem near_wait {p q : StreamParser} {step : ParseStep Sample}
    (tried : p.tryParseCompletePacket codec = (q, .ok step)) (waits : step.item = none) :
    Near codec p q := by
  cases p.finds codec with
  | nothing missing =>
      obtain ⟨q', settings, pending, tried'⟩ := p.tryParse_missing codec missing
      rw [tried] at tried'
      have same : q = q' := by
        split at tried'
        · cases (Prod.mk.inj tried').2
        · exact (Prod.mk.inj tried').1
      cases same
      have left : q.pending = (p.wire codec).leftover p.pending := pending
      refine ⟨settings, ?_, ?_⟩
      · rw [pending]
        exact ((p.wire codec).same_drop_spent missing).symm
      · intro more
        rw [left, Grammar.leftover_append]
  | small found small =>
      obtain ⟨q', step', tried', settings, reads⟩ := p.tryParse_found codec found small
      rw [tried] at tried'
      obtain ⟨rfl, same⟩ := Prod.mk.inj tried'
      cases same
      cases here : (p.wire codec).next p.pending with
      | none =>
          simp only [here] at reads
          exact .of_pending settings reads.2.symm
      | some read =>
          simp only [here] at reads
          rw [reads.1] at waits
          cases waits
  | large found sized above =>
      obtain ⟨q', empty, tried'⟩ := tryParse_large found sized above
      rw [tried] at tried'
      cases (Prod.mk.inj tried').2
      cases waits

/-- A yielded item that is not over the cap: the frame read, now or with more behind it. -/
theorem near_extend_item {p q : StreamParser} {step : ParseStep Sample} {item : ParsedItem Sample}
    (tried : p.tryParseCompletePacket codec = (q, .ok step)) (yielded : step.item = some item)
    (small : ¬item.OverCap) (data : Bytes) :
    SameSettings p q ∧ ∃ q' step', (p.extendBuffer data).tryParseCompletePacket codec =
        (q', .ok step') ∧ step'.item = some item ∧ Near codec q' (q.extendBuffer data) := by
  cases p.finds codec with
  | nothing missing =>
      obtain ⟨q', -, -, tried'⟩ := p.tryParse_missing codec missing
      rw [tried] at tried'
      split at tried'
      · cases (Prod.mk.inj tried').2
      · cases (Prod.mk.inj tried').2
        cases yielded
  | large found sized above =>
      obtain ⟨q', -, tried'⟩ := tryParse_large found sized above
      rw [tried] at tried'
      cases (Prod.mk.inj tried').2
      cases yielded
      exact absurd ⟨_, above, rfl⟩ small
  | small found small' =>
      rename_i m
      obtain ⟨q', step', tried', settings, reads⟩ := p.tryParse_found codec found small'
      rw [tried] at tried'
      obtain ⟨rfl, same⟩ := Prod.mk.inj tried'
      cases same
      refine ⟨settings, ?_⟩
      cases here : (p.wire codec).next p.pending with
      | none =>
          simp only [here, yielded] at reads
          cases reads.1
      | some read =>
          simp only [here, yielded] at reads
          obtain ⟨isItem, pending⟩ := reads
          have extended : (p.extendBuffer data).pending = p.pending ++ data :=
            pending_extendBuffer p data
          have behind : (q.extendBuffer data).pending = read.2 ++ data := by
            rw [pending_extendBuffer, pending]
          have found' :
              ((p.extendBuffer data).wire codec).firstMatch (p.extendBuffer data).pending =
              some (m.extend data) := by
            rw [extended]
            exact (p.wire codec).firstMatch_append found data
          obtain ⟨last, step', tried'', settings', reads'⟩ :=
            (p.extendBuffer data).tryParse_found codec found' small'
          have onward : SameSettings last (q.extendBuffer data) := by
            refine settings'.symm.trans ⟨settings.format, settings.scale, settings.skip⟩
          have wire : (p.extendBuffer data).wire codec = p.wire codec := rfl
          rw [extended, wire] at reads'
          refine ⟨last, step', tried'', ?_⟩
          rcases (p.wire codec).next_append here data with same
            | ⟨follower, tail, rfl, none', shut, same⟩
          · rw [same] at reads'
            exact ⟨reads'.1.trans isItem.symm, .of_pending onward (reads'.2.trans behind.symm)⟩
          · -- the other half of a separator is consumed with the item
            rw [same] at reads'
            rw [none', List.nil_append] at behind
            have wire : last.wire codec = p.wire codec := settings'.wire codec
            refine ⟨reads'.1.trans isItem.symm, onward, ?_, ?_⟩
            · rw [reads'.2, behind, wire]
              exact ((p.wire codec).same_shut shut tail).symm
            · intro more
              rw [reads'.2, behind, wire, List.cons_append]
              exact ((p.wire codec).leftover_shut shut (tail ++ more)).symm

/-! ## Runs of attempts -/

variable (codec) in
/-- Attempts that yield these items, one after another. -/
inductive Chain : StreamParser → List (ParsedItem Sample) → StreamParser → Prop where
  | nil (p : StreamParser) : Chain p [] p
  | cons {p q r : StreamParser} {step : ParseStep Sample} {item : ParsedItem Sample}
      {items : List (ParsedItem Sample)}
      (tried : p.tryParseCompletePacket codec = (q, .ok step)) (yielded : step.item = some item)
      (onward : Chain (q.countItem item) items r) : Chain p (item :: items) r

theorem Chain.append {p q r : StreamParser} {left right : List (ParsedItem Sample)}
    (first : Chain codec p left q) (second : Chain codec q right r) :
    Chain codec p (left ++ right) r := by
  induction first with
  | nil => exact second
  | cons tried yielded _ ih => exact .cons tried yielded (ih second)

theorem Chain.near {p q r : StreamParser} {items : List (ParsedItem Sample)}
    (chain : Chain codec p items r) (near : Near codec p q) :
    ∃ s, Chain codec q items s ∧ Near codec r s := by
  induction chain generalizing q with
  | nil => exact ⟨q, .nil q, near⟩
  | cons tried yielded _ ih =>
      rename_i item items _
      obtain ⟨p', q', near', ⟨error, failed, -⟩ | ⟨left, right, here, there, same⟩⟩ := near.tryParse
      · rw [tried] at failed
        cases (Prod.mk.inj failed).2
      · rw [tried] at here
        obtain ⟨rfl, alike⟩ := Prod.mk.inj here
        cases alike
        obtain ⟨s, chain, last⟩ := ih (near'.countItem item)
        exact ⟨s, .cons there (same.symm.trans yielded) chain, last⟩

/-- The loop that never stops at a loss is a run of attempts up to one that waits. -/
theorem chain_of_loop {p r : StreamParser} {items : List (ParsedItem Sample)}
    (looped : p.parseLoop codec false = (r, .ok items)) :
    ∃ m step, Chain codec p items m ∧ m.tryParseCompletePacket codec = (r, .ok step) ∧
      step.item = none := by
  induction size : p.pending.length using Nat.strong_induction_on generalizing p items with
  | _ n ih =>
      cases tried : p.tryParseCompletePacket codec with
      | mk q outcome =>
          cases outcome with
          | error error =>
              rw [parseLoop_fail codec tried] at looped
              cases (Prod.mk.inj looped).2
          | ok step =>
              cases yielded : step.item with
              | none =>
                  rw [parseLoop_wait codec tried yielded] at looped
                  obtain ⟨rfl, same⟩ := Prod.mk.inj looped
                  cases same
                  exact ⟨p, step, .nil p, tried, yielded⟩
              | some item =>
                  rw [parseLoop_item codec tried yielded rfl] at looped
                  obtain ⟨ended, mapped⟩ := Prod.mk.inj looped
                  cases rest : ((q.countItem item).parseLoop codec false).2 with
                  | error error =>
                      rw [rest] at mapped
                      cases mapped
                  | ok later =>
                      rw [rest] at mapped
                      cases mapped
                      have shorter := tryParse_progress codec tried yielded
                      rw [← pending_countItem q item] at shorter
                      obtain ⟨m, last, chain, waits, none'⟩ :=
                        ih _ (size ▸ shorter) (Prod.ext ended rest) rfl
                      exact ⟨m, last, .cons tried yielded chain, waits, none'⟩

/-- Without a bad item the loop that stops at one reads everything. -/
theorem Chain.loop_good {p m r : StreamParser} {items : List (ParsedItem Sample)}
    (chain : Chain codec p items m) (clean : ∀ item ∈ items, item.isBad = false)
    {step : ParseStep Sample} (tried : m.tryParseCompletePacket codec = (r, .ok step))
    (waits : step.item = none) : p.parseLoop codec true = (r, .ok items) := by
  induction chain with
  | nil => exact parseLoop_wait codec tried waits
  | cons here yielded _ ih =>
      have isGood := clean _ List.mem_cons_self
      have rest := ih (fun item member => clean item (List.mem_cons_of_mem _ member)) tried
      rw [parseLoop_item codec here yielded (by rw [Bool.true_and]; exact isGood), rest]
      rfl

/-- With one it reads up to it, and the run goes on from there. -/
theorem Chain.loop_bad {p m : StreamParser} {front later : List (ParsedItem Sample)}
    {stop : ParsedItem Sample} (chain : Chain codec p (front ++ stop :: later) m)
    (clean : ∀ item ∈ front, item.isBad = false) (isBad : stop.isBad = true) :
    ∃ q, p.parseLoop codec true = (q, .ok (front ++ [stop])) ∧ Chain codec q later m := by
  induction front generalizing p with
  | nil =>
      cases chain with
      | cons tried yielded onward =>
          exact ⟨_, parseLoop_stop codec tried yielded (by rw [Bool.true_and]; exact isBad), onward⟩
  | cons item front ih =>
      cases chain with
      | cons tried yielded onward =>
          have isGood := clean item List.mem_cons_self
          obtain ⟨q, looped, rest⟩ :=
            ih onward fun item member => clean item (List.mem_cons_of_mem _ member)
          refine ⟨q, ?_, rest⟩
          rw [parseLoop_item codec tried yielded (by rw [Bool.true_and]; exact isGood), looped]
          rfl

/-- More bytes behind a run of attempts leave it as it is. -/
theorem Chain.extend {p m : StreamParser} {items : List (ParsedItem Sample)}
    (chain : Chain codec p items m) (small : ∀ item ∈ items, ¬item.OverCap) (data : Bytes) :
    SameSettings p m ∧
      ∃ m', Chain codec (p.extendBuffer data) items m' ∧ Near codec m' (m.extendBuffer data) := by
  induction chain with
  | nil p => exact ⟨.refl p, _, .nil _, .refl _⟩
  | cons tried yielded _ ih =>
      rename_i p q r step item items onward
      obtain ⟨settings, q', step', tried', yielded', near⟩ :=
        near_extend_item tried yielded (small item List.mem_cons_self) data
      obtain ⟨rest, m', chain, last⟩ :=
        ih fun item member => small item (List.mem_cons_of_mem _ member)
      have counted : Near codec ((q.countItem item).extendBuffer data) (q'.countItem item) := by
        have plain : ((q.countItem item).extendBuffer data).plain =
            ((q.extendBuffer data).countItem item).plain := by
          rw [plain_countItem]
          exact extendBuffer_of_plain (plain_countItem q item) data
        exact (Near.of_plain plain).trans (near.symm.countItem item)
      obtain ⟨s, chain', near'⟩ := chain.near counted
      exact ⟨settings.trans ((SameSettings.countItem q item).trans rest), s,
        .cons tried' yielded' chain', near'.symm.trans last⟩

/-! ## The stopping parser behind the recovering one -/

variable (codec) in
theorem tryParse_nil {p : StreamParser} (nothing : p.pending = []) :
    ∃ q, q.pending = [] ∧ p.tryParseCompletePacket codec = (q, .ok .needMore) := by
  have missing : (p.wire codec).firstMatch p.pending = none := by
    rw [nothing]
    rfl
  obtain ⟨q, -, pending, tried⟩ := p.tryParse_missing codec missing
  rw [nothing, List.drop_nil] at pending
  rw [pending] at tried
  exact ⟨q, pending, tried⟩

theorem Chain.of_nil {p m : StreamParser} {items : List (ParsedItem Sample)}
    (chain : Chain codec p items m) (nothing : p.pending = []) : items = [] ∧ m = p := by
  cases chain with
  | nil => exact ⟨rfl, rfl⟩
  | cons tried yielded =>
      obtain ⟨q, -, tried'⟩ := tryParse_nil codec nothing
      rw [tried] at tried'
      cases (Prod.mk.inj tried').2
      cases yielded

/-- Bytes are left to skip only right behind a header above the cap. -/
theorem Chain.idle {p m : StreamParser} {items : List (ParsedItem Sample)}
    (chain : Chain codec p items m) (idle : p.skipBytes = 0) :
    m.skipBytes = 0 ∨ m.pending = [] ∧ ∃ last, items.getLast? = some last ∧ last.OverCap := by
  induction chain with
  | nil => exact .inl idle
  | cons tried yielded onward ih =>
      rename_i p q r step item items
      have further (settings : SameSettings p q) : r.skipBytes = 0 ∨ r.pending = [] ∧
          ∃ last, (item :: items).getLast? = some last ∧ last.OverCap := by
        rcases ih ((SameSettings.countItem q item).skip.trans (settings.skip.trans idle)) with
          none' | ⟨pending, last, ending, large⟩
        · exact .inl none'
        · exact .inr ⟨pending, last, by rw [List.getLast?_cons, ending]; rfl, large⟩
      cases p.finds codec with
      | nothing missing =>
          obtain ⟨q', settings, -, tried'⟩ := p.tryParse_missing codec missing
          rw [tried] at tried'
          split at tried'
          · cases (Prod.mk.inj tried').2
          · cases (Prod.mk.inj tried').2
            cases yielded
      | small found small =>
          obtain ⟨q', step', tried', settings, -⟩ := p.tryParse_found codec found small
          rw [tried] at tried'
          cases (Prod.mk.inj tried').1
          exact further settings
      | large found sized above =>
          obtain ⟨q', empty, tried'⟩ := tryParse_large found sized above
          rw [tried] at tried'
          obtain ⟨rfl, same⟩ := Prod.mk.inj tried'
          cases same
          cases yielded
          have nothing : q.pending = [] := pending_of_plain empty
          obtain ⟨rfl, rfl⟩ := onward.of_nil ((pending_countItem q _).trans nothing)
          exact .inr ⟨(pending_countItem q _).trans nothing, _, rfl, _, above, rfl⟩

/-- A chunk's bytes counted and its skipped part taken off, before the rest is buffered. -/
def received (p : StreamParser) (n : Nat) : StreamParser :=
  { p with
    counters := { p.counters with bytesProcessed := p.counters.bytesProcessed + n }
    skipBytes := p.skipBytes - min p.skipBytes n }

variable (codec) in
theorem parseBuffered_eq (stopAtLoss : Bool) (p : StreamParser) (data : Bytes) :
    p.parseBuffered codec stopAtLoss data =
      if 0 < min p.skipBytes data.length ∧ min p.skipBytes data.length = data.length then
        (p.received data.length, .ok [])
      else ((p.received data.length).extendBuffer
        (data.drop (min p.skipBytes data.length))).parseLoop codec stopAtLoss := rfl

theorem received_idle {p : StreamParser} (idle : p.skipBytes = 0) (n : Nat) :
    (p.received n).plain = p.plain := by
  simp only [received, plain, idle, Nat.zero_sub]

theorem Near.received {p q : StreamParser} (near : Near codec p q) (n : Nat) :
    Near codec (p.received n) (q.received n) := by
  refine ⟨⟨near.settings.format, near.settings.scale, ?_⟩, near.same, near.ends⟩
  simp only [StreamParser.received, near.settings.skip]

variable (codec) in
/-- `p` has the items of `queue` still to parse to be where `r` is. -/
structure Trails (queue : List (ParsedItem Sample)) (p r : StreamParser) : Prop where
  chain : ∃ m, Chain codec p queue m ∧ Near codec m r
  small : ∀ item ∈ queue, ¬item.OverCap
  idle : r.skipBytes = 0 ∨ queue = [] ∧ r.pending = []

theorem Trails.skip {queue : List (ParsedItem Sample)} {p r : StreamParser}
    (trails : Trails codec queue p r) : p.skipBytes = r.skipBytes := by
  obtain ⟨m, chain, near⟩ := trails.chain
  exact ((chain.extend trails.small []).1.skip.symm).trans near.settings.skip.symm

theorem Trails.received {queue : List (ParsedItem Sample)} {p r : StreamParser}
    (trails : Trails codec queue p r) (n : Nat) :
    ∃ m, Chain codec (p.received n) queue m ∧ Near codec m (r.received n) := by
  obtain ⟨m, chain, near⟩ := trails.chain
  rcases trails.idle with idle | ⟨rfl, -⟩
  · have idle' : p.skipBytes = 0 := trails.skip.trans idle
    obtain ⟨m', chain', near'⟩ := chain.near (.of_plain (received_idle idle' n).symm)
    exact ⟨m', chain', near'.symm.trans (near.trans (.of_plain (received_idle idle n).symm))⟩
  · cases chain
    exact ⟨_, .nil _, near.received n⟩

/-- What a call of the recovering parser shows of the stopping one: nothing is read yet,
or the queue and the new items are in front of it. -/
inductive Faces (codec : WireCodec Value Sample) (line : List (ParsedItem Sample))
    (p : StreamParser)
    (data : Bytes) (r' : StreamParser) : Prop where
  | skipped {p' : StreamParser} (nothing : line = [])
      (parsed : p.parseBuffered codec true data = (p', .ok [])) (trails : Trails codec [] p' r')
  | read {start m last : StreamParser} {step : ParseStep Sample}
      (parsed : p.parseBuffered codec true data = start.parseLoop codec true)
      (chain : Chain codec start line m)
      (tried : m.tryParseCompletePacket codec = (last, .ok step)) (waits : step.item = none)
      (near : Near codec last r')
      (idle : r'.skipBytes = 0 ∨ r'.pending = [] ∧
        (line = [] ∨ ∃ item, line.getLast? = some item ∧ item.OverCap))

theorem Trails.faces {queue items : List (ParsedItem Sample)} {p r r' : StreamParser}
    (trails : Trails codec queue p r) {data : Bytes}
    (read : r.processDataRecovering codec data = (r', .ok items)) :
    Faces codec (queue ++ items) p data r' := by
  rw [processDataRecovering, parseBuffered_eq] at read
  have parsed := p.parseBuffered_eq codec true data
  rw [trails.skip] at parsed
  by_cases all : 0 < min r.skipBytes data.length ∧ min r.skipBytes data.length = data.length
  · rw [if_pos all] at read parsed
    obtain ⟨rfl, same⟩ := Prod.mk.inj read
    cases same
    have busy : r.skipBytes ≠ 0 := by omega
    obtain ⟨rfl, pending⟩ := trails.idle.resolve_left busy
    refine .skipped rfl parsed ⟨trails.received data.length, ?_, .inr ⟨rfl, pending⟩⟩
    exact fun _ member => absurd member List.not_mem_nil
  · rw [if_neg all] at read parsed
    set fresh := data.drop (min r.skipBytes data.length) with isFresh
    obtain ⟨m, chain, near⟩ := trails.received data.length
    obtain ⟨-, m', chain', near'⟩ := chain.extend trails.small fresh
    obtain ⟨reached, step, onward, tried, waits⟩ := chain_of_loop read
    obtain ⟨s, chain'', near''⟩ := onward.near ((near'.trans (near.extendBuffer fresh)).symm)
    obtain ⟨last, last', alike, ⟨error, failed, -⟩ | ⟨left, right, here, there, same⟩⟩ :=
      near''.tryParse
    · rw [tried] at failed
      cases (Prod.mk.inj failed).2
    · rw [tried] at here
      obtain ⟨rfl, matched⟩ := Prod.mk.inj here
      cases matched
      refine .read parsed (chain'.append chain'') there (same.symm.trans waits) alike.symm ?_
      have settled : Near codec reached r' := near_wait tried waits
      by_cases idle : (r.received data.length).skipBytes = 0
      · rcases onward.idle (p := (r.received data.length).extendBuffer fresh) idle with
          none' | ⟨pending, item, ending, large⟩
        · exact .inl (settled.settings.skip.trans none')
        · obtain ⟨q, nothing, tried'⟩ := tryParse_nil codec pending
          rw [tried] at tried'
          refine .inr ⟨(Prod.mk.inj tried').1 ▸ nothing, .inr ⟨item, ?_, large⟩⟩
          rw [List.getLast?_append, ending]
          rfl
      · -- still skipping: the chunk was empty
        have busy : r.skipBytes ≠ 0 := fun none' => idle (by
          simp only [StreamParser.received, none', Nat.zero_sub])
        have empty : data.length = 0 := by
          simp only [StreamParser.received] at idle
          omega
        obtain ⟨rfl, pending⟩ := trails.idle.resolve_left busy
        have nothing : ((r.received data.length).extendBuffer fresh).pending = [] := by
          rw [pending_extendBuffer, isFresh, List.eq_nil_of_length_eq_zero empty, List.drop_nil,
            List.append_nil]
          exact pending
        obtain ⟨rfl, rfl⟩ := onward.of_nil nothing
        obtain ⟨q, nothing', tried'⟩ := tryParse_nil codec nothing
        rw [tried] at tried'
        exact .inr ⟨(Prod.mk.inj tried').1 ▸ nothing', .inl rfl⟩

/-- A line without a bad item is parsed whole. -/
theorem Faces.good {line : List (ParsedItem Sample)} {p r' : StreamParser} {data : Bytes}
    (faces : Faces codec line p data r') (clean : ∀ item ∈ line, item.isBad = false) :
    ∃ p', p.parseBuffered codec true data = (p', .ok line) ∧ Trails codec [] p' r' := by
  cases faces with
  | skipped nothing parsed trails => exact ⟨_, nothing ▸ parsed, trails⟩
  | read parsed chain tried waits near idle =>
      refine ⟨_, parsed.trans (chain.loop_good clean tried waits), ⟨_, .nil _, near⟩, ?_, ?_⟩
      · exact fun _ member => absurd member List.not_mem_nil
      · exact idle.imp_right fun still => ⟨rfl, still.1⟩

/-- Otherwise the line is parsed up to its first bad item, and the rest stays queued. -/
theorem Faces.bad {front later : List (ParsedItem Sample)} {stop : ParsedItem Sample}
    {p r' : StreamParser} {data : Bytes} (faces : Faces codec (front ++ stop :: later) p data r')
    (clean : ∀ item ∈ front, item.isBad = false) (isBad : stop.isBad = true)
    (small : ∀ item ∈ later, ¬item.OverCap) :
    ∃ p', p.parseBuffered codec true data = (p', .ok (front ++ [stop])) ∧
      Trails codec later p' r' := by
  cases faces with
  | skipped nothing =>
      exact absurd nothing (List.append_ne_nil_of_right_ne_nil _ (List.cons_ne_nil _ _))
  | read parsed chain tried waits near idle =>
      obtain ⟨q, looped, rest⟩ := chain.loop_bad clean isBad
      refine ⟨q, parsed.trans looped, ⟨_, rest, (near_wait tried waits).trans near⟩, small, ?_⟩
      rcases idle with none' | ⟨pending, nothing | ⟨item, ending, large⟩⟩
      · exact .inl none'
      · exact absurd nothing (List.append_ne_nil_of_right_ne_nil _ (List.cons_ne_nil _ _))
      · refine .inr ⟨?_, pending⟩
        cases later with
        | nil => rfl
        | cons next later =>
            rw [List.getLast?_append, List.getLast?_cons_cons, Option.or_eq_left_of_isSome rfl]
              at ending
            exact absurd large (small item (List.mem_of_getLast? ending))

end StreamParser

end SdrAaronia.HttpStreaming
