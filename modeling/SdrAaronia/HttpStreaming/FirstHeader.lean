import SdrAaronia.HttpStreaming.Scan

/-! # The header scan, index by index

The naive scan has no regions: it asks of every index whether a brace is there,
where that brace's terminator is and whether the bytes between deserialise, and
takes the smallest index of which all this holds.
-/

namespace SdrAaronia.HttpStreaming

open Delimited

/-- The first terminator at or after `start`. -/
structure FirstTerminator (buf : Bytes) (start stop : Nat) : Prop where
  behind : start ≤ stop
  ends : ∃ b, buf[stop]? = some b ∧ isTerminator b = true
  first : ∀ k b, start ≤ k → k < stop → buf[k]? = some b → isTerminator b = false

/-- A candidate that is a header. -/
structure HeaderAt (deserialize : Bytes → Option PacketMetadata) (buf : Bytes)
    (candidate stop : Nat) (metadata : PacketMetadata) : Prop where
  opens : buf[candidate]? = some openBrace
  ends : FirstTerminator buf candidate stop
  parses : deserialize (slice buf candidate stop) = some metadata

/-- The candidate of the naive scan. -/
structure FirstHeader (deserialize : Bytes → Option PacketMetadata) (buf : Bytes)
    (candidate stop : Nat) (metadata : PacketMetadata) : Prop extends
    HeaderAt deserialize buf candidate stop metadata where
  smallest : ∀ earlier < candidate, ∀ stop metadata,
    ¬HeaderAt deserialize buf earlier stop metadata

/-- The terminated candidates below an index. -/
def terminatedBraces (buf : Bytes) (n : Nat) : Nat :=
  (List.range n).countP fun c => buf[c]? == some openBrace && (buf.drop c).any isTerminator

/-- The result of a scan that began `bytes` bytes and `rejected` rejections earlier. -/
def HeaderScan.shifted (bytes rejected : Nat) : HeaderScan → HeaderScan
  | .header metadata json payloadStart rejected' =>
      .header metadata (bytes + json.1, bytes + json.2) (bytes + payloadStart)
        (rejected + rejected')
  | .incomplete skippable rejected' => .incomplete (bytes + skippable) (rejected + rejected')

theorem FirstTerminator.region {buf : Bytes} {start stop : Nat}
    (first : FirstTerminator buf start stop) : Region buf start stop := by
  obtain ⟨behind, ⟨b, here, isStop⟩, before⟩ := first
  obtain ⟨inside, rfl⟩ := List.getElem?_eq_some_iff.mp here
  refine ⟨inside, behind, ?_, isStop⟩
  intro c member
  obtain ⟨k, small, rfl⟩ := List.mem_iff_getElem.mp member
  rw [slice_length inside.le] at small
  apply before (start + k) _ (by omega) (by omega)
  simp only [slice, List.getElem_drop, List.getElem_take]
  exact List.getElem?_eq_getElem _

theorem Region.firstTerminator {buf : Bytes} {start stop : Nat} (region : Region buf start stop) :
    FirstTerminator buf start stop := by
  refine ⟨region.ordered, ⟨_, List.getElem?_eq_getElem region.inside, region.ends⟩, ?_⟩
  intro k b atLeast below here
  obtain ⟨inside, rfl⟩ := List.getElem?_eq_some_iff.mp here
  apply region.clear
  apply List.mem_iff_getElem.mpr
  refine ⟨k - start, ?_, ?_⟩
  · rw [slice_length region.inside.le]
    omega
  · simp only [slice, List.getElem_drop, List.getElem_take]
    congr 1
    omega

variable (deserialize : Bytes → Option PacketMetadata)

theorem opened_of_brace {buf : Bytes} {c : Nat} (opens : buf[c]? = some openBrace) :
    buf.drop c = openBrace :: buf.drop (c + 1) := by
  obtain ⟨inside, here⟩ := List.getElem?_eq_some_iff.mp opens
  rw [List.drop_eq_getElem_cons inside, here]

theorem head_of_drop {buf rest : Bytes} {c : Nat} {b : UInt8} (dropped : buf.drop c = b :: rest) :
    buf[c]? = some b := by
  rw [← List.head?_drop, dropped]
  rfl

/-- The grammar's candidate at an index, in terms of the buffer. -/
theorem candidate_some_iff {buf : Bytes} {c : Nat} {metadata : PacketMetadata} :
    (headerGrammar deserialize).candidate (buf.drop c) = some metadata ↔
      ∃ stop, HeaderAt deserialize buf c stop metadata := by
  constructor
  · intro good
    have stopped := (headerGrammar deserialize).candidate_stopped good
    have opens : buf[c]? = some openBrace := by
      cases dropped : buf.drop c with
      | nil => simp [dropped] at stopped
      | cons b rest =>
          rw [dropped] at good
          have brace : isBrace b = true := by
            cases brace : isBrace b with
            | true => rfl
            | false =>
                rw [(headerGrammar deserialize).candidate_shut brace] at good
                exact absurd good (by simp)
          rw [head_of_drop dropped, beq_iff_eq.mp brace]
    cases found : position isTerminator (buf.drop c) with
    | none =>
        have quiet := position_none found
        obtain ⟨b, member, isStop⟩ := List.any_eq_true.mp stopped
        exact absurd isStop (by simp [headerGrammar, quiet b member])
    | some k =>
        have region : Region buf c (c + k) := .of_position found
        refine ⟨c + k, opens, region.firstTerminator, ?_⟩
        rw [← region.candidate_eq deserialize (opened_of_brace opens), good]
  · rintro ⟨stop, opens, ends, parses⟩
    rw [ends.region.candidate_eq deserialize (opened_of_brace opens), parses]

theorem no_candidate {buf : Bytes} {c : Nat}
    (failed : (headerGrammar deserialize).candidate (buf.drop c) = none) (stop : Nat)
    (metadata : PacketMetadata) : ¬HeaderAt deserialize buf c stop metadata := by
  intro header
  rw [(candidate_some_iff deserialize).mpr ⟨stop, header⟩] at failed
  exact absurd failed (by simp)

theorem terminatedBelow_eq (buf : Bytes) (n : Nat) :
    (headerGrammar deserialize).terminatedBelow buf n = terminatedBraces buf n := by
  refine List.countP_congr fun c _ => ?_
  suffices same : (headerGrammar deserialize).terminated (buf.drop c) =
      (buf[c]? == some openBrace && (buf.drop c).any isTerminator) by rw [same]
  cases dropped : buf.drop c with
  | nil => simp [Grammar.terminated]
  | cons b rest =>
      rw [head_of_drop dropped]
      rfl

theorem payloadStartAt_drop {buf : Bytes} {n : Nat} (inside : n ≤ buf.length) (more : Bytes)
    (stop : Nat) :
    payloadStartAt (buf ++ more) (n + stop) = n + payloadStartAt (buf.drop n ++ more) stop := by
  have whole : ∀ k, (buf.drop n ++ more)[k]? = (buf ++ more)[n + k]? := fun k => by
    rw [← List.drop_append_of_le_length inside, List.getElem?_drop]
  simp only [payloadStartAt, whole, ← Nat.add_assoc]
  split <;> rfl

/-- A scan that found no header goes on behind what it may skip as if it had seen
everything. -/
theorem scanPacketHeader_drop_spent {buf : Bytes}
    (missing : (headerGrammar deserialize).firstMatch buf = none) (more : Bytes) :
    scanPacketHeader deserialize (buf ++ more) =
      (scanPacketHeader deserialize
        (buf.drop ((headerGrammar deserialize).spent buf) ++ more)).shifted
        ((headerGrammar deserialize).spent buf) ((headerGrammar deserialize).rejections buf) := by
  have search := (headerGrammar deserialize).firstMatch_drop_spent missing more
  obtain ⟨spent, rejected⟩ := (headerGrammar deserialize).drop_spent_counts missing more
  have inside := (headerGrammar deserialize).spent_le buf
  simp only [scanPacketHeader_eq, scanResult, List.drop_zero, search, spent, rejected]
  cases (headerGrammar deserialize).firstMatch
      (buf.drop ((headerGrammar deserialize).spent buf) ++ more) with
  | none => simp only [Option.map_none, HeaderScan.shifted, Nat.zero_add]
  | some m =>
      simp only [Option.map_some, HeaderScan.shifted, Match.shift_value, Match.shift_before,
        Match.shift_text, Nat.zero_add, Nat.add_assoc, payloadStartAt_drop inside]

/-- **The scan is the naive scan.**  It returns the header at the smallest index
that holds one, with the terminated candidates ahead of it counted as rejected;
with no such index it counts them all, and what it offers to skip changes nothing
for any later scan but the places. -/
theorem scanPacketHeader_naive (buf : Bytes) :
    (∃ candidate stop metadata, FirstHeader deserialize buf candidate stop metadata ∧
      scanPacketHeader deserialize buf =
        .header metadata (candidate, stop)
          (if buf[stop]? = some asciiLineFeed ∧ buf[stop + 1]? = some asciiRecordSeparator
            then stop + 2 else stop + 1)
          (terminatedBraces buf candidate)) ∨
    ((∀ candidate stop metadata, ¬HeaderAt deserialize buf candidate stop metadata) ∧
      ∃ skippable ≤ buf.length,
        scanPacketHeader deserialize buf =
          .incomplete skippable (terminatedBraces buf buf.length) ∧
        ∀ more, scanPacketHeader deserialize (buf ++ more) =
          (scanPacketHeader deserialize (buf.drop skippable ++ more)).shifted skippable
            (terminatedBraces buf buf.length)) := by
  cases found : (headerGrammar deserialize).firstMatch buf with
  | some m =>
      left
      have here := (headerGrammar deserialize).firstMatch_candidate found
      have before := (headerGrammar deserialize).firstMatch_before found
      have count := (headerGrammar deserialize).rejections_found found
      obtain ⟨-, -, -, isText, -⟩ := (headerGrammar deserialize).firstMatch_layout found
      obtain ⟨stop, header⟩ := (candidate_some_iff deserialize).mp here
      have region := header.ends.region
      have ends : m.before + m.text.length = stop := by
        rw [isText, region.text_eq, slice_length region.inside.le]
        have := region.ordered
        omega
      refine ⟨m.before, stop, m.value, ⟨header, fun k ahead => ?_⟩, ?_⟩
      · exact no_candidate deserialize (before k ahead)
      · rw [terminatedBelow_eq] at count
        simp only [scanPacketHeader_eq, scanResult, List.drop_zero, found, Nat.zero_add, ends,
          count]
        rfl
  | none =>
      right
      have count := (headerGrammar deserialize).rejections_missing found
      rw [terminatedBelow_eq] at count
      refine ⟨fun k => ?_, (headerGrammar deserialize).spent buf,
        (headerGrammar deserialize).spent_le buf, ?_, fun more => ?_⟩
      · exact no_candidate deserialize ((headerGrammar deserialize).firstMatch_missing found k)
      · simp only [scanPacketHeader_eq, scanResult, List.drop_zero, found, Nat.zero_add, count]
      · rw [← count]
        exact scanPacketHeader_drop_spent deserialize found more

end SdrAaronia.HttpStreaming
