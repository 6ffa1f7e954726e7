import SdrAaronia.HttpStreaming.Decoding
import SdrAaronia.HttpStreaming.Oversized

/-! # Bytes behind the decoded samples

A decoded IQ packet holds no more samples than its payload's bytes, and of the
packets one call completes all but the first lie within the bytes it was given.
-/

namespace SdrAaronia.HttpStreaming

open Framing

variable {Value Real Sample : Type}

/-- Bytes of payload the IQ samples of an item stand for. -/
def iqBytes (width : Nat) : ParsedItem Sample → Nat
  | .packet packet => if packet.metadata.payload = .iq then packet.samples.length * width else 0
  | .lost _ | .skipped _ _ => 0

def totalIqBytes (width : Nat) (items : List (ParsedItem Sample)) : Nat :=
  (items.map (iqBytes width)).sum

@[simp] theorem totalIqBytes_nil (width : Nat) :
    totalIqBytes width ([] : List (ParsedItem Sample)) = 0 := rfl

@[simp] theorem totalIqBytes_cons (width : Nat) (item : ParsedItem Sample)
    (items : List (ParsedItem Sample)) :
    totalIqBytes width (item :: items) = iqBytes width item + totalIqBytes width items :=
  List.sum_cons

@[simp] theorem iqBytes_undecoded (width : Nat) (payload : PayloadType) (error : Error) :
    iqBytes width (undecodedItem payload error : ParsedItem Sample) = 0 := by
  unfold undecodedItem
  split <;> rfl

/-- What a framed payload decodes to fits in the payload. -/
theorem iqBytes_binaryItem (codec : WireCodec Value Sample) (decoder : SampleDecoder Real Sample)
    {format : StreamFormat} {width : Nat} (wide : format.iqBytesPerSample = some width)
    (scale : Option F64) (metadata : PacketMetadata) (payload : Bytes) :
    iqBytes width (binaryItem (codec.decodedBy decoder) format scale metadata payload) ≤
      payload.length := by
  unfold binaryItem
  split
  · simp
  · split
    · exact Nat.zero_le _
    · split
      · simp
      · rename_i samples decoded
        by_cases iq : metadata.payload = .iq
        · obtain ⟨samples', parsed, bound⟩ :=
            decoder.parseIqSamples_ok wide scale metadata payload
          have same : decoder.parseBinarySamples format scale metadata payload = .ok samples' := by
            rw [SampleDecoder.parseBinarySamples, iq]
            exact parsed
          obtain rfl : samples = samples' := Except.ok.inj (decoded.symm.trans same)
          exact (if_pos iq).trans_le bound
        · exact (if_neg iq).trans_le (Nat.zero_le _)

namespace StreamParser

/-- No attempt on what is pending would yield an item. -/
def Settled (codec : WireCodec Value Sample) (p : StreamParser) : Prop :=
  (p.wire codec).Settled p.pending

/-- What one attempt does to the bytes. -/
inductive Attempt (codec : WireCodec Value Sample) (width : Nat) (p : StreamParser) :
    StreamParser × Except Error (ParseStep Sample) → Prop where
  | failed {q : StreamParser} {error : Error} (format : q.format = p.format) :
      Attempt codec width p (q, .error error)
  | waits {q : StreamParser} {step : ParseStep Sample} (format : q.format = p.format)
      (nothing : step.item = none)
      (settled : q.Settled codec) (fewer : q.pending.length ≤ p.pending.length) :
      Attempt codec width p (q, .ok step)
  | yields {q : StreamParser} {step : ParseStep Sample} {item : ParsedItem Sample}
      (format : q.format = p.format) (yielded : step.item = some item)
      (bytes : iqBytes width item + q.pending.length ≤ p.pending.length)
      (late : ∀ old more, p.pending = old ++ more → (p.wire codec).Settled old →
        q.pending.length ≤ more.length)
      (fresh : p.Settled codec → iqBytes width item = 0) :
      Attempt codec width p (q, .ok step)

section Account

variable (codec : WireCodec Value Sample) (decoder : SampleDecoder Real Sample) {width : Nat}
  {p : StreamParser} (wide : p.format.iqBytesPerSample = some width)

include wide

theorem binary_of_wide : p.format.Binary := by
  intro json
  rw [json] at wide
  cases wide

theorem tryParse_attempt :
    Attempt (codec.decodedBy decoder) width p
      (p.tryParseCompletePacket (codec.decodedBy decoder)) := by
  cases found : (p.wire (codec.decodedBy decoder)).firstMatch p.pending with
  | none =>
      obtain ⟨q, same, pending, tried⟩ := p.tryParse_missing _ found
      rw [tried]
      split
      · exact .failed same.format
      · refine .waits same.format rfl ?_ ?_
        · have alike := (p.wire (codec.decodedBy decoder)).same_drop_spent found
          rw [Settled, same.wire, pending, Format.Settled, alike.next, Format.next, found]
        · rw [pending, List.length_drop]
          exact Nat.sub_le _ _
  | some m =>
      by_cases large : OverCap p.format m.value
      · obtain ⟨expected, sized, above⟩ := large
        obtain ⟨q, empty, tried⟩ :=
          tryParse_overCap _ (binary_of_wide wide) found sized above
        have nothing : q.pending = [] := pending_of_plain empty
        rw [tried]
        have format : q.format = p.format := (format_of_plain empty).trans rfl
        refine .yields format rfl ?_ ?_ fun _ => rfl
        · rw [nothing, iqBytes]
          exact Nat.zero_le _
        · rw [nothing]
          exact fun _ _ _ _ => Nat.zero_le _
      · obtain ⟨q, step, tried, same, reads⟩ := p.tryParse_found _ found large
        rw [tried]
        cases here : (p.wire (codec.decodedBy decoder)).next p.pending with
        | none =>
            simp only [here] at reads
            refine .waits same.format reads.1 ?_ (le_of_eq (congrArg _ reads.2))
            rw [Settled, same.wire, reads.2]
            exact here
        | some read =>
            obtain ⟨frame, rest⟩ := read
            simp only [here] at reads
            obtain ⟨yielded, pending⟩ := reads
            refine .yields same.format yielded ?_ ?_ fun settled => ?_
            · have used := (p.wire (codec.decodedBy decoder)).next_length here
              obtain ⟨m', -, header, complete, item, -⟩ :=
                (p.wire (codec.decodedBy decoder)).next_cases here
              have decoded : frame.item = binaryItem (codec.decodedBy decoder) p.format
                  p.defaultEncodeScale m'.value _ :=
                item.trans (if_neg (binary_of_wide wide))
              have fits := iqBytes_binaryItem codec decoder wide p.defaultEncodeScale m'.value
                ((m'.rest.drop ((p.wire (codec.decodedBy decoder)).separator m'.rest)).take
                  ((p.wire (codec.decodedBy decoder)).size m'.value))
              rw [List.length_take, ← decoded, ← header] at fits
              rw [pending]
              omega
            · intro old more split settled
              rw [pending]
              exact Format.next_late _ settled (split ▸ here)
            · cases settled.symm.trans here

end Account

/-- What a loop or a call does to `given` bytes behind those already pending. -/
structure Read (codec : WireCodec Value Sample) (width : Nat) (p q : StreamParser) (given : Nat)
    (items : List (ParsedItem Sample)) : Prop where
  settled : q.Settled codec
  bytes : totalIqBytes width items + q.pending.length ≤ p.pending.length + given
  /-- Once an item was completed, the others lie in what was given. -/
  late : ∀ first rest, items = first :: rest →
    totalIqBytes width rest + q.pending.length ≤ given
  /-- Nothing given, nothing decoded. -/
  fresh : given = 0 → ∀ first rest, items = first :: rest → iqBytes width first = 0

/-- The outcome of reading: settings are kept, and the bytes are accounted for. -/
inductive Accounts (codec : WireCodec Value Sample) (width : Nat) (p : StreamParser)
    (given : Nat) : StreamParser × Except Error (List (ParsedItem Sample)) → Prop where
  | failed {q : StreamParser} {error : Error} (format : q.format = p.format) :
      Accounts codec width p given (q, .error error)
  | read {q : StreamParser} {items : List (ParsedItem Sample)} (format : q.format = p.format)
      (account : Read codec width p q given items) : Accounts codec width p given (q, .ok items)

section Loop

variable (codec : WireCodec Value Sample) (decoder : SampleDecoder Real Sample) {width : Nat}

/-- The loop over a buffer `old` that held no item, and `more` behind it. -/
theorem parseLoop_accounts {p : StreamParser} (wide : p.format.iqBytesPerSample = some width) :
    ∃ q outcome, p.parseLoop (codec.decodedBy decoder) false = (q, outcome) ∧
      q.format = p.format ∧ ∀ items, outcome = .ok items →
        q.Settled (codec.decodedBy decoder) ∧
        totalIqBytes width items + q.pending.length ≤ p.pending.length ∧
        ∀ old more, p.pending = old ++ more →
          (p.wire (codec.decodedBy decoder)).Settled old →
          ∀ first rest, items = first :: rest →
            totalIqBytes width rest + q.pending.length ≤ more.length ∧
            (more = [] → iqBytes width first = 0) := by
  induction size : p.pending.length using Nat.strong_induction_on generalizing p with
  | _ n ih =>
      have attempt := tryParse_attempt codec decoder wide
      cases tried : p.tryParseCompletePacket (codec.decodedBy decoder) with
      | mk q result =>
          rw [tried] at attempt
          cases attempt with
          | failed format =>
              refine ⟨_, _, parseLoop_fail _ tried, format, ?_⟩
              intro items same
              cases same
          | waits format nothing settled fewer =>
              refine ⟨_, _, parseLoop_wait _ tried nothing, format, ?_⟩
              intro items same
              obtain rfl := Except.ok.inj same
              refine ⟨settled, by simpa [size] using fewer, ?_⟩
              intro old more split before first rest some
              cases some
          | @yields _ step item format yielded bytes late fresh =>
              have progress := tryParse_progress _ tried yielded
              have counted := SameSettings.countItem q item
              have wide' : (q.countItem item).format.iqBytesPerSample = some width := by
                rw [counted.format, format]
                exact wide
              obtain ⟨last, outcome, looped, kept, account⟩ := ih _
                (by rw [pending_countItem]; omega) wide' rfl
              rw [pending_countItem] at account
              refine ⟨last, outcome.map (item :: ·), ?_, kept.trans (counted.format.trans format),
                ?_⟩
              · rw [parseLoop_item _ tried yielded rfl, looped]
              · intro items same
                cases outcome with
                | error e => cases same
                | ok later =>
                    obtain rfl : item :: later = items := Except.ok.inj same
                    obtain ⟨settled, bytes', -⟩ := account later rfl
                    refine ⟨settled, ?_, ?_⟩
                    · rw [totalIqBytes_cons]
                      omega
                    · intro old more split before first rest some
                      obtain ⟨rfl, rfl⟩ := List.cons.inj some
                      refine ⟨bytes'.trans (late old more split before), ?_⟩
                      rintro rfl
                      rw [List.append_nil] at split
                      apply fresh
                      rw [Settled, split]
                      exact before

/-- One call: what it completes was pending or is given now. -/
theorem processDataRecovering_accounts {p : StreamParser}
    (wide : p.format.iqBytesPerSample = some width)
    (settled : p.Settled (codec.decodedBy decoder)) (data : Bytes) :
    Accounts (codec.decodedBy decoder) width p data.length
      (p.processDataRecovering (codec.decodedBy decoder) data) := by
  unfold processDataRecovering parseBuffered
  dsimp only
  have fewer : min p.skipBytes data.length ≤ data.length := Nat.min_le_right _ _
  generalize min p.skipBytes data.length = skip at fewer
  split
  · refine .read rfl ⟨settled, ?_, ?_, ?_⟩
    · rw [totalIqBytes_nil, Nat.zero_add]
      exact Nat.le_add_right _ _
    · intro first rest some
      cases some
    · intro _ first rest some
      cases some
  · set started := (extendBuffer { p with
        counters := { p.counters with bytesProcessed := p.counters.bytesProcessed + data.length }
        skipBytes := p.skipBytes - skip } (data.drop skip)) with isStarted
    have pending : started.pending = p.pending ++ data.drop skip := pending_extendBuffer _ _
    have format : started.format = p.format := rfl
    have wire : started.wire (codec.decodedBy decoder) = p.wire (codec.decodedBy decoder) := rfl
    obtain ⟨q, outcome, looped, kept, account⟩ :=
      parseLoop_accounts codec decoder (p := started) (format ▸ wide)
    rw [looped]
    cases outcome with
    | error e => exact .failed (kept.trans format)
    | ok items =>
        obtain ⟨rest, bytes, late⟩ := account items rfl
        rw [pending, List.length_append, List.length_drop] at bytes
        refine .read (kept.trans format) ⟨rest, by omega, ?_, ?_⟩
        · intro first others some
          have inside := (late _ _ pending (wire ▸ settled) first others some).1
          rw [List.length_drop] at inside
          omega
        · intro nothing first others some
          apply (late _ _ pending (wire ▸ settled) first others some).2
          rw [List.length_eq_zero_iff.mp nothing, List.drop_nil]

end Loop
end StreamParser
end SdrAaronia.HttpStreaming
