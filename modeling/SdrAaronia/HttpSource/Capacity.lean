import SdrAaronia.HttpSource.Work
import SdrAaronia.HttpStreaming.Accounting
import Mathlib.Algebra.Order.BigOperators.Group.List

/-! # A sweep always fits

With a fixed sample width, a sweep that starts below the refill target cannot
reach the capacity: one packet was carried over, and every other sample it adds
took its bytes from the sweep's own chunks.
-/

namespace SdrAaronia

open HttpStreaming StreamParser

namespace HttpSource

variable {Value Real Sample : Type}

/-- What an untrimmed append leaves alone; the packet floor may rise. -/
structure Steady (s s' : HttpSource Sample) : Prop where
  streamFormat : s'.streamFormat = s.streamFormat
  bufferSize : s'.bufferSize = s.bufferSize
  maxChunkBytes : s'.maxChunkBytes = s.maxChunkBytes
  downstreamCapacity : s'.downstreamCapacity = s.downstreamCapacity
  maxPacketSamples : s.maxPacketSamples ≤ s'.maxPacketSamples
  overflowSamples : s'.overflowSamples = s.overflowSamples

theorem Steady.refl (s : HttpSource Sample) : s.Steady s :=
  ⟨rfl, rfl, rfl, rfl, Nat.le_refl _, rfl⟩

theorem Steady.trans {s s' s'' : HttpSource Sample} (first : s.Steady s') (second : s'.Steady s'') :
    s.Steady s'' where
  streamFormat := second.streamFormat.trans first.streamFormat
  bufferSize := second.bufferSize.trans first.bufferSize
  maxChunkBytes := second.maxChunkBytes.trans first.maxChunkBytes
  downstreamCapacity := second.downstreamCapacity.trans first.downstreamCapacity
  maxPacketSamples := first.maxPacketSamples.trans second.maxPacketSamples
  overflowSamples := second.overflowSamples.trans first.overflowSamples

theorem Keeps.steady {s s' : HttpSource Sample} (keeps : s.Keeps s') : s.Steady s' where
  streamFormat := keeps.streamFormat
  bufferSize := keeps.bufferSize
  maxChunkBytes := keeps.maxChunkBytes
  downstreamCapacity := keeps.downstreamCapacity
  maxPacketSamples := Nat.le_of_eq keeps.maxPacketSamples.symm
  overflowSamples := keeps.overflowSamples

theorem saturatingAdd_mono {a b c d : Nat} (first : a ≤ b) (second : c ≤ d) :
    saturatingAdd a c ≤ saturatingAdd b d :=
  min_le_min (Nat.add_le_add first second) (Nat.le_refl _)

theorem saturatingMul_mono {a b : Nat} (less : a ≤ b) (c : Nat) :
    saturatingMul a c ≤ saturatingMul b c :=
  min_le_min (Nat.mul_le_mul_right c less) (Nat.le_refl _)

/-- The refill target never falls. -/
theorem Steady.refillCapacity {s s' : HttpSource Sample} (steady : s.Steady s') :
    s.refillCapacity ≤ s'.refillCapacity := by
  unfold HttpSource.refillCapacity
  rw [steady.bufferSize, steady.downstreamCapacity]
  exact max_le_max (max_le_max (Nat.le_refl _) (saturatingMul_mono steady.maxPacketSamples _))
    (saturatingAdd_mono (Nat.le_refl _) steady.maxPacketSamples)

/-- Behind the packet carried over, the buffer holds samples whose bytes were among
the `given`, of which `held` are not decoded yet. -/
def Covered (s : HttpSource Sample) (below width given held : Nat) : Prop :=
  ∃ first rest, first ≤ s.maxPacketSamples ∧ (given = 0 → first = 0) ∧
    s.sampleBuffer.length ≤ below + first + rest ∧ rest * width + held ≤ given

/-- What is covered fits below the capacity. -/
theorem Covered.fits {s : HttpSource Sample} {below width given held : Nat}
    (covered : s.Covered below width given held)
    (wide : s.streamFormat.iqBytesPerSample = some width)
    (target : below ≤ s.refillCapacity) (swept : given ≤ chunkChannelDepth * s.maxChunkBytes)
    (bounded : s.sampleBuffer.length ≤ maxBufferedSamples) :
    s.sampleBuffer.length ≤ s.bufferCapacity := by
  obtain ⟨first, rest, carried, idle, size, bytes⟩ := covered
  have width' : width = 4 ∨ width = 8 := by
    cases format : s.streamFormat <;> rw [format] at wide <;>
      simp_all [StreamFormat.iqBytesPerSample]
  have words : maxBufferedSamples < wordSize - 1 := by decide
  unfold bufferCapacity saturatingAdd
  refine Nat.le_min.mpr ⟨?_, bounded.trans words.le⟩
  unfold catchUpHeadroom
  split
  · rename_i none
    rw [none, Nat.mul_zero] at swept
    have start := idle (Nat.le_zero.mp swept)
    rcases width' with rfl | rfl <;> omega
  · simp only [wide]
    have room : s.sampleBuffer.length - below - first ≤
        (saturatingMul chunkChannelDepth s.maxChunkBytes + (width - 1)) / width := by
      have bits : maxBufferedSamples * 8 ≤ wordSize - 1 := by decide
      unfold saturatingMul
      generalize chunkChannelDepth * s.maxChunkBytes = total at swept
      rcases width' with rfl | rfl <;> omega
    unfold saturatingAdd
    omega

theorem iqBytes_eq (width : Nat) (item : ParsedItem Sample) :
    iqBytes width item = addedSamples item * width := by
  cases item with
  | lost | skipped => exact (Nat.zero_mul width).symm
  | packet packet =>
      simp only [iqBytes, addedSamples]
      split
      · rfl
      · exact (Nat.zero_mul width).symm

/-- A sweep in progress: its target, and what its chunks have given so far. -/
structure Sweeping (s : HttpSource Sample) (below width given : Nat) : Prop where
  wide : s.streamFormat.iqBytesPerSample = some width
  target : below ≤ s.refillCapacity
  swept : given ≤ chunkChannelDepth * s.maxChunkBytes

theorem Sweeping.steady {s s' : HttpSource Sample} {below width given : Nat}
    (sweeping : s.Sweeping below width given) (steady : s.Steady s') :
    s'.Sweeping below width given where
  wide := steady.streamFormat.symm ▸ sweeping.wide
  target := sweeping.target.trans steady.refillCapacity
  swept := steady.maxChunkBytes.symm ▸ sweeping.swept

/-! ## One sweep -/

section Sweep

variable {s next : HttpSource Sample} {below width given held : Nat}

/-- An item that leaves the buffer covered is appended whole. -/
theorem processItem_covered {item : ParsedItem Sample} (sweeping : s.Sweeping below width given)
    (covered : ∀ grown : HttpSource Sample, s.maxPacketSamples ≤ grown.maxPacketSamples →
      addedSamples item ≤ grown.maxPacketSamples →
      grown.sampleBuffer.length = s.sampleBuffer.length + addedSamples item →
      grown.Covered below width given held)
    (processed : s.processItem item = some next) :
    s.Steady next ∧ next.streamParser = s.streamParser ∧ next.Covered below width given held ∧
      ∀ check ∈ s.trimCheck item, check.length ≤ check.capacity := by
  have untouched : ∀ next, s.Keeps next → addedSamples item = 0 → s.trimCheck item = [] →
      s.Steady next ∧ next.streamParser = s.streamParser ∧ next.Covered below width given held ∧
        ∀ check ∈ s.trimCheck item, check.length ≤ check.capacity := by
    intro next keeps nothing unchecked
    refine ⟨keeps.steady, keeps.streamParser, ?_, ?_⟩
    · apply covered
      · exact Nat.le_of_eq keeps.maxPacketSamples.symm
      · rw [nothing]
        exact Nat.zero_le _
      · rw [keeps.sampleBuffer, nothing, Nat.add_zero]
    · rw [unchecked]
      exact fun check member => absurd member List.not_mem_nil
  cases item with
  | lost error =>
      cases processed
      exact untouched _ s.noteLostPacket_keeps rfl rfl
  | skipped payload reason =>
      cases processed
      exact untouched _ s.noteNonIqPacket_keeps rfl rfl
  | packet packet =>
      by_cases iq : packet.metadata.payload = .iq
      · have keeps := s.notePacket_keeps packet
        have added : addedSamples (.packet packet) = packet.samples.length := if_pos iq
        have grows : (s.notePacket packet).Steady ((s.notePacket packet).grown packet.samples) :=
          ⟨rfl, rfl, rfl, rfl, Nat.le_max_left _ _, rfl⟩
        have steady := keeps.steady.trans grows
        have grown : ((s.notePacket packet).grown packet.samples).Covered below width given
            held := by
          apply covered _ steady.maxPacketSamples
          · rw [added]
            exact Nat.le_max_right _ _
          · rw [added, ← keeps.sampleBuffer]
            exact List.length_append
        have later := sweeping.steady steady
        have fits := grown.fits later.wide later.target later.swept
        rw [processItem_iq iq] at processed
        obtain ⟨rfl, bounded⟩ := appendSamples_fits processed fits
        refine ⟨steady, keeps.streamParser, grown, ?_⟩
        intro check member
        rw [trimCheck, if_pos iq, List.mem_singleton] at member
        rw [member]
        exact fits bounded
      · rw [processItem_other iq] at processed
        cases processed
        exact untouched _ s.noteNonIqPacket_keeps (if_neg iq) (if_neg iq)

/-- The items whose bytes were given are appended whole. -/
theorem processItems_covered {items : List (ParsedItem Sample)} {added : Nat}
    {checks : List TrimCheck} (sweeping : s.Sweeping below width given)
    (covered : s.Covered below width given (totalIqBytes width items + held))
    (processed : s.processItems items = some (next, added, checks)) :
    s.Steady next ∧ next.streamParser = s.streamParser ∧ next.Covered below width given held ∧
      ∀ check ∈ checks, check.length ≤ check.capacity := by
  induction items generalizing s added checks with
  | nil =>
      cases processed
      rw [totalIqBytes_nil, Nat.zero_add] at covered
      exact ⟨.refl _, rfl, covered, fun check member => absurd member List.not_mem_nil⟩
  | cons item items ih =>
      obtain ⟨middle, first, rest⟩ := Option.bind_eq_some_iff.mp processed
      obtain ⟨⟨last, more, others⟩, later, same⟩ := Option.map_eq_some_iff.mp rest
      cases same
      have appended : ∀ grown : HttpSource Sample, s.maxPacketSamples ≤ grown.maxPacketSamples →
          addedSamples item ≤ grown.maxPacketSamples →
          grown.sampleBuffer.length = s.sampleBuffer.length + addedSamples item →
          grown.Covered below width given (totalIqBytes width items + held) := by
        intro grown raised _ size
        obtain ⟨carried, fresh, small, idle, length, bytes⟩ := covered
        rw [totalIqBytes_cons, iqBytes_eq] at bytes
        refine ⟨carried, fresh + addedSamples item, small.trans raised, idle, by omega, ?_⟩
        rw [Nat.add_mul]
        omega
      obtain ⟨steady, parser, onward, checked⟩ := processItem_covered sweeping appended first
      obtain ⟨steady', parser', covered', checked'⟩ := ih (sweeping.steady steady) onward later
      refine ⟨steady.trans steady', parser'.trans parser, covered', ?_⟩
      intro check member
      rcases List.mem_append.mp member with here | there
      · exact checked check here
      · exact checked' check there

/-- The first packet a sweep completes may have been carried over. -/
theorem processItems_fresh {first : ParsedItem Sample} {rest : List (ParsedItem Sample)}
    {added : Nat} {checks : List TrimCheck} (sweeping : s.Sweeping below width given)
    (small : s.sampleBuffer.length ≤ below) (idle : given = 0 → addedSamples first = 0)
    (bytes : totalIqBytes width rest + held ≤ given)
    (processed : s.processItems (first :: rest) = some (next, added, checks)) :
    s.Steady next ∧ next.streamParser = s.streamParser ∧ next.Covered below width given held ∧
      ∀ check ∈ checks, check.length ≤ check.capacity := by
  obtain ⟨middle, done, others⟩ := Option.bind_eq_some_iff.mp processed
  obtain ⟨⟨last, more, later⟩, remaining, same⟩ := Option.map_eq_some_iff.mp others
  cases same
  have appended : ∀ grown : HttpSource Sample, s.maxPacketSamples ≤ grown.maxPacketSamples →
      addedSamples first ≤ grown.maxPacketSamples →
      grown.sampleBuffer.length = s.sampleBuffer.length + addedSamples first →
      grown.Covered below width given (totalIqBytes width rest + held) := by
    intro grown _ wider size
    refine ⟨addedSamples first, 0, wider, idle, by omega, ?_⟩
    rw [Nat.zero_mul, Nat.zero_add]
    exact bytes
  obtain ⟨steady, parser, onward, checked⟩ := processItem_covered sweeping appended done
  obtain ⟨steady', parser', covered, checked'⟩ :=
    processItems_covered (sweeping.steady steady) onward remaining
  refine ⟨steady.trans steady', parser'.trans parser, covered, ?_⟩
  intro check member
  rcases List.mem_append.mp member with here | there
  · exact checked check here
  · exact checked' check there

end Sweep

/-- No packet of this sweep is complete yet, or the buffer is covered. -/
def Fetching (s : HttpSource Sample) (below width given : Nat) : Prop :=
  s.sampleBuffer.length ≤ below ∨
    s.Covered below width given s.streamParser.pending.length

/-- Between chunks the parser has nothing more to yield, and nothing was trimmed. -/
structure Ready (codec : WireCodec Value Sample) (s : HttpSource Sample) : Prop where
  formatted : s.streamParser.format = s.streamFormat
  settled : s.streamParser.Settled codec
  untrimmed : s.overflowSamples = 0

section Chunks

variable (codec : WireCodec Value Sample) (decoder : SampleDecoder Real Sample)
  {s next : HttpSource Sample} {below width given : Nat} {outcome : Except Error Nat}
  {checks : List TrimCheck}

theorem processAdvancedStreamData_covered {data : Bytes}
    (sweeping : s.Sweeping below width (given + data.length))
    (ready : s.Ready (codec.decodedBy decoder)) (fetching : s.Fetching below width given)
    (processed : s.processAdvancedStreamData (codec.decodedBy decoder) data =
      some (next, outcome, checks)) :
    s.Steady next ∧ next.streamParser.format = next.streamFormat ∧
      (∀ added, outcome = .ok added → next.Ready (codec.decodedBy decoder) ∧
        next.Fetching below width (given + data.length)) ∧
      ∀ check ∈ checks, check.length ≤ check.capacity := by
  have wide : s.streamParser.format.iqBytesPerSample = some width :=
    ready.formatted ▸ sweeping.wide
  have positive : 0 < width := by
    obtain ⟨wide', same, cases⟩ := (binary_of_wide wide).iqBytes
    obtain rfl : width = wide' := Option.some.inj (wide.symm.trans same)
    omega
  have accounts := processDataRecovering_accounts codec decoder wide ready.settled data
  unfold processAdvancedStreamData at processed
  cases call : s.streamParser.processDataRecovering (codec.decodedBy decoder) data with
  | mk parser result =>
      rw [call] at accounts processed
      have parsed : s.Steady { s with streamParser := parser } :=
        ⟨rfl, rfl, rfl, rfl, Nat.le_refl _, rfl⟩
      cases accounts with
      | failed format =>
          cases processed
          refine ⟨parsed, format.trans ready.formatted, ?_, ?_⟩
          · intro added same
            cases same
          · exact fun check member => absurd member List.not_mem_nil
      | @read _ items format account =>
          obtain ⟨settled, bytes, late, fresh⟩ := account
          obtain ⟨⟨last, added, compared⟩, appended, same⟩ := Option.map_eq_some_iff.mp processed
          cases same
          suffices goal : Steady { s with streamParser := parser } next ∧
              next.streamParser = parser ∧
              next.Fetching below width (given + data.length) ∧
              ∀ check ∈ checks, check.length ≤ check.capacity by
            obtain ⟨steady, kept, onward, checked⟩ := goal
            have formatted : next.streamParser.format = next.streamFormat := by
              rw [kept, format, ready.formatted]
              exact steady.streamFormat.symm
            refine ⟨parsed.trans steady, formatted, ?_, checked⟩
            intro _ _
            refine ⟨⟨formatted, kept.symm ▸ settled, ?_⟩, onward⟩
            exact steady.overflowSamples.trans ready.untrimmed
          have sweeping' := sweeping.steady parsed
          cases items with
          | nil =>
              cases appended
              rw [totalIqBytes_nil, Nat.zero_add] at bytes
              refine ⟨.refl _, rfl, ?_, fun check member => absurd member List.not_mem_nil⟩
              rcases fetching with small | ⟨first, rest, carried, idle, length, covered⟩
              · exact .inl small
              · refine .inr ⟨first, rest, carried, fun nothing => idle (by omega), length, ?_⟩
                dsimp only
                omega
          | cons first rest =>
              rcases fetching with small | ⟨carried, rest', low, idle, length, covered⟩
              · have given' : totalIqBytes width rest + parser.pending.length ≤
                    given + data.length :=
                  (late first rest rfl).trans (Nat.le_add_left _ _)
                have idle' : given + data.length = 0 → addedSamples first = 0 := by
                  intro nothing
                  have zero := fresh (by omega) first rest rfl
                  rw [iqBytes_eq] at zero
                  exact (Nat.mul_eq_zero.mp zero).resolve_right positive.ne'
                obtain ⟨steady, kept, onward, checked⟩ :=
                  processItems_fresh sweeping' small idle' given' appended
                exact ⟨steady, kept, .inr (kept.symm ▸ onward), checked⟩
              · have whole : Covered { s with streamParser := parser } below width
                    (given + data.length)
                    (totalIqBytes width (first :: rest) + parser.pending.length) :=
                  ⟨carried, rest', low, fun nothing => idle (by omega), length, by omega⟩
                obtain ⟨steady, kept, onward, checked⟩ :=
                  processItems_covered sweeping' whole appended
                exact ⟨steady, kept, .inr (kept.symm ▸ onward), checked⟩

theorem parseChunks_covered {chunks : List Bytes}
    (sweeping : s.Sweeping below width (given + (chunks.map List.length).sum))
    (ready : s.Ready (codec.decodedBy decoder)) (fetching : s.Fetching below width given)
    (processed : s.parseChunks (codec.decodedBy decoder) chunks = some (next, outcome, checks)) :
    s.Steady next ∧ next.streamParser.format = next.streamFormat ∧
      (∀ added, outcome = .ok added → next.Ready (codec.decodedBy decoder)) ∧
      ∀ check ∈ checks, check.length ≤ check.capacity := by
  induction chunks generalizing s given outcome checks with
  | nil =>
      cases processed
      exact ⟨.refl _, ready.formatted, fun _ _ => ready,
        fun check member => absurd member List.not_mem_nil⟩
  | cons chunk chunks ih =>
      rw [List.map_cons, List.sum_cons, ← Nat.add_assoc] at sweeping
      obtain ⟨⟨middle, result, first⟩, here, rest⟩ := Option.bind_eq_some_iff.mp processed
      have sweeping' : s.Sweeping below width (given + chunk.length) :=
        ⟨sweeping.wide, sweeping.target, (Nat.le_add_right _ _).trans sweeping.swept⟩
      obtain ⟨steady, formatted, onward, checked⟩ :=
        processAdvancedStreamData_covered codec decoder sweeping' ready fetching here
      cases result with
      | error e =>
          cases rest
          refine ⟨steady, formatted, ?_, checked⟩
          intro added same
          cases same
      | ok added =>
          obtain ⟨⟨last, ending, more⟩, later, same⟩ := Option.map_eq_some_iff.mp rest
          cases same
          obtain ⟨ready', fetching'⟩ := onward added rfl
          obtain ⟨steady', formatted', settled, checked'⟩ :=
            ih (sweeping.steady steady) ready' fetching' later
          refine ⟨steady.trans steady', formatted', ?_, ?_⟩
          · intro total same
            cases ending with
            | error e => cases same
            | ok others => exact settled others rfl
          · intro check member
            rcases List.mem_append.mp member with before | behind
            · exact checked check before
            · exact checked' check behind

end Chunks

/-! ## Calls -/

/-- What one fetch, or one call, may change of the refill's conditions. -/
structure Onward (s s' : HttpSource Sample) : Prop where
  streamFormat : s'.streamFormat = s.streamFormat
  refillCapacity : s.refillCapacity ≤ s'.refillCapacity
  overflowSamples : s'.overflowSamples = s.overflowSamples

theorem Steady.onward {s s' : HttpSource Sample} (steady : s.Steady s') : s.Onward s' :=
  ⟨steady.streamFormat, steady.refillCapacity, steady.overflowSamples⟩

theorem Onward.trans {s s' s'' : HttpSource Sample} (first : s.Onward s')
    (second : s'.Onward s'') : s.Onward s'' :=
  ⟨second.streamFormat.trans first.streamFormat,
    first.refillCapacity.trans second.refillCapacity,
    second.overflowSamples.trans first.overflowSamples⟩

/-- What a fetch leaves behind: ready for the next one if it did not fail, and every
check it made covered. -/
structure Fetches (codec : WireCodec Value Sample) (s next : HttpSource Sample)
    (outcome : Except Error Nat) (checks : List TrimCheck) : Prop where
  onward : s.Onward next
  formatted : next.streamParser.format = next.streamFormat
  ready : ∀ added, outcome = .ok added → next.Ready codec
  checked : ∀ check ∈ checks, check.length ≤ check.capacity

theorem le_foldl_max (sizes : List Nat) (start : Nat) :
    start ≤ sizes.foldl max start ∧ ∀ size ∈ sizes, size ≤ sizes.foldl max start := by
  induction sizes generalizing start with
  | nil => exact ⟨Nat.le_refl _, fun size member => absurd member List.not_mem_nil⟩
  | cons size sizes ih =>
      obtain ⟨above, all⟩ := ih (max start size)
      refine ⟨(Nat.le_max_left _ _).trans above, ?_⟩
      intro other member
      rcases List.mem_cons.mp member with rfl | inside
      · exact (Nat.le_max_right _ _).trans above
      · exact all other inside

theorem cleanupStream_steady (s : HttpSource Sample) : s.Steady s.cleanupStream := by
  have reset : s.Steady { s with
      streamParser := s.streamParser.reset
      dropDetector := s.dropDetector.resync } := ⟨rfl, rfl, rfl, rfl, Nat.le_refl _, rfl⟩
  exact reset.trans (noteBreak_keeps _ .gap).steady

/-- A cleanup settles the parser: nothing is pending any more. -/
theorem cleanupStream_ready (codec : WireCodec Value Sample) {s : HttpSource Sample}
    (formatted : s.streamParser.format = s.streamFormat) (untrimmed : s.overflowSamples = 0) :
    s.cleanupStream.Ready codec := by
  have steady := s.cleanupStream_steady
  have parser : s.cleanupStream.streamParser = s.streamParser.reset :=
    (noteBreak_keeps _ .gap).streamParser
  refine ⟨?_, ?_, steady.overflowSamples.trans untrimmed⟩
  · rw [parser, steady.streamFormat]
    exact formatted
  · rw [parser]
    exact Framing.Format.settled_nil _

section Calls

variable (codec : WireCodec Value Sample) (decoder : SampleDecoder Real Sample)
  {s next : HttpSource Sample} {below width : Nat} {outcome : Except Error Nat}
  {checks : List TrimCheck} (wide : s.streamFormat.iqBytesPerSample = some width)
  (ready : s.Ready (codec.decodedBy decoder)) (target : below ≤ s.refillCapacity)

include wide ready target

/-- A sweep of at most one channel's depth that starts below its target. -/
theorem sweepChunks_covered {chunks : List Bytes} (few : chunks.length ≤ chunkChannelDepth)
    (small : s.sampleBuffer.length ≤ below)
    (swept : s.sweepChunks (codec.decodedBy decoder) chunks = some (next, outcome, checks)) :
    s.Fetches (codec.decodedBy decoder) next outcome checks := by
  obtain ⟨-, largest⟩ := le_foldl_max (chunks.map List.length) s.maxChunkBytes
  unfold sweepChunks at swept
  generalize (chunks.map List.length).foldl max s.maxChunkBytes = most at largest swept
  have total : (chunks.map List.length).sum ≤ chunkChannelDepth * most := by
    have each := List.sum_le_card_nsmul _ most largest
    rw [List.length_map] at each
    exact each.trans (Nat.mul_le_mul_right most few)
  have raised : s.Onward { s with maxChunkBytes := most } := ⟨rfl, Nat.le_refl _, rfl⟩
  have sweeping : ({ s with maxChunkBytes := most } : HttpSource Sample).Sweeping below width
      (0 + (chunks.map List.length).sum) :=
    ⟨wide, target, (Nat.zero_add _).trans_le total⟩
  obtain ⟨steady, formatted, settled, checked⟩ := parseChunks_covered codec decoder sweeping
    ⟨ready.formatted, ready.settled, ready.untrimmed⟩ (.inl small) swept
  exact ⟨raised.trans steady.onward, formatted, settled, checked⟩

theorem fetchSamples_covered {wait : Bool} {fetch : Fetch} (small : s.sampleBuffer.length ≤ below)
    (fetched : s.fetchSamples (codec.decodedBy decoder) wait fetch =
      some (next, outcome, checks)) :
    s.Fetches (codec.decodedBy decoder) next outcome checks := by
  have sweep : ∀ chunks : List Bytes, chunks.length ≤ chunkChannelDepth →
      s.sweepChunks (codec.decodedBy decoder) chunks = some (next, outcome, checks) →
      s.Fetches (codec.decodedBy decoder) next outcome checks :=
    fun _ few swept => sweepChunks_covered codec decoder wide ready target few small swept
  have unread : ∀ (kept : HttpSource Sample) (error : Error), s.Onward kept →
      kept.streamParser.format = kept.streamFormat →
      some (kept, Except.error error, []) = some (next, outcome, checks) →
      s.Fetches (codec.decodedBy decoder) next outcome checks := by
    intro kept error onward formatted same
    cases same
    refine ⟨onward, formatted, ?_, fun check member => absurd member List.not_mem_nil⟩
    intro added ok
    cases ok
  have cleaned := (cleanupStream_ready (codec.decodedBy decoder) ready.formatted
    ready.untrimmed).formatted
  unfold fetchSamples at fetched
  dsimp only at fetched
  split at fetched
  · exact unread _ _ (Steady.refl s).onward ready.formatted fetched
  · split at fetched
    · exact sweep _ (List.length_take_le _ _) fetched
    · split at fetched
      · exact unread _ _ s.cleanupStream_steady.onward cleaned fetched
      · split at fetched
        · exact sweep [] (Nat.zero_le _) fetched
        · split at fetched
          · exact sweep [] (Nat.zero_le _) fetched
          · exact unread _ _ s.cleanupStream_steady.onward cleaned fetched
          · exact sweep [_] (Nat.succ_le_succ (Nat.zero_le 63)) fetched

theorem refill_covered {fetches : Nat → Fetch} {left : Nat} {alive : Bool}
    (refilled :
      s.refill (codec.decodedBy decoder) below fetches left = some (next, alive, checks)) :
    s.Onward next ∧ next.Ready (codec.decodedBy decoder) ∧
      ∀ check ∈ checks, check.length ≤ check.capacity := by
  induction left generalizing s checks with
  | zero =>
      cases refilled
      exact ⟨(Steady.refl _).onward, ready, fun check member => absurd member List.not_mem_nil⟩
  | succ left ih =>
      rw [refill] at refilled
      split at refilled
      · rename_i small
        obtain ⟨⟨middle, outcome, first⟩, fetched, rest⟩ := Option.bind_eq_some_iff.mp refilled
        obtain ⟨onward, formatted, settled, checked⟩ :=
          fetchSamples_covered codec decoder wide ready target (Nat.le_of_lt small) fetched
        have untrimmed := onward.overflowSamples.trans ready.untrimmed
        cases outcome with
        | error e =>
            cases rest
            exact ⟨onward.trans middle.cleanupStream_steady.onward,
              cleanupStream_ready _ formatted untrimmed, checked⟩
        | ok added =>
            have ready' := settled added rfl
            cases added with
            | zero =>
                cases rest
                exact ⟨onward, ready', checked⟩
            | succ added =>
                obtain ⟨⟨last, ending, more⟩, later, same⟩ := Option.map_eq_some_iff.mp rest
                cases same
                obtain ⟨onward', ready'', checked'⟩ := ih (onward.streamFormat.symm ▸ wide) ready'
                  (target.trans onward.refillCapacity) later
                refine ⟨onward.trans onward', ready'', ?_⟩
                intro check member
                rcases List.mem_append.mp member with before | behind
                · exact checked check before
                · exact checked' check behind
      · cases refilled
        exact ⟨(Steady.refl _).onward, ready, fun check member => absurd member List.not_mem_nil⟩

end Calls

theorem restart_ready (codec : WireCodec Value Sample) {s : HttpSource Sample}
    (ready : s.Ready codec) : s.restart.Ready codec ∧ s.restart.streamFormat = s.streamFormat := by
  have cleaned := cleanupStream_ready codec ready.formatted ready.untrimmed
  have keeps := noteBufferCleared_keeps
    ({ s.cleanupStream with sampleBuffer := [] } : HttpSource Sample)
  have format : s.restart.streamFormat = s.streamFormat :=
    keeps.streamFormat.trans s.cleanupStream_steady.streamFormat
  have parser : s.restart.streamParser = s.cleanupStream.streamParser := keeps.streamParser
  refine ⟨⟨?_, ?_, keeps.overflowSamples.trans cleaned.untrimmed⟩, format⟩
  · rw [parser, cleaned.formatted, format]
    exact s.cleanupStream_steady.streamFormat
  · rw [parser]
    exact cleaned.settled

theorem learnOutput_ready (codec : WireCodec Value Sample) {s : HttpSource Sample}
    (ready : s.Ready codec) (maxItems : Nat) :
    (s.learnOutput maxItems).Ready codec ∧
      (s.learnOutput maxItems).streamFormat = s.streamFormat := by
  unfold learnOutput
  split
  · exact ⟨⟨ready.formatted, ready.settled, ready.untrimmed⟩, rfl⟩
  · exact ⟨ready, rfl⟩

theorem refillBelow_le (s : HttpSource Sample) (outputLength : Nat) :
    s.refillBelow outputLength ≤ s.refillCapacity :=
  Nat.min_le_right _ _

/-- One call of `work` trims nothing. -/
theorem work_covered (codec : WireCodec Value Sample) (decoder : SampleDecoder Real Sample)
    {s : HttpSource Sample} {width : Nat} (wide : s.streamFormat.iqBytesPerSample = some width)
    (ready : s.Ready (codec.decodedBy decoder)) {call : Call} {worked : Worked Sample}
    (done : s.work (codec.decodedBy decoder) call = some worked) :
    worked.source.Ready (codec.decodedBy decoder) ∧
      worked.source.streamFormat = s.streamFormat ∧
      ∀ check ∈ worked.checks, check.length ≤ check.capacity := by
  obtain ⟨⟨next, alive, checks⟩, refilled, rfl⟩ := Option.map_eq_some_iff.mp done
  have started : (if call.restart then s.restart else s).Ready (codec.decodedBy decoder) ∧
      (if call.restart then s.restart else s).streamFormat = s.streamFormat := by
    split
    · exact restart_ready _ ready
    · exact ⟨ready, rfl⟩
  generalize (if call.restart then s.restart else s) = start at started refilled
  obtain ⟨learned, format⟩ := learnOutput_ready _ started.1 call.maxItems
  obtain ⟨onward, ready', checked⟩ := refill_covered codec decoder
    ((format.trans started.2).symm ▸ wide) learned (refillBelow_le _ _) refilled
  have format' := onward.streamFormat.trans (format.trans started.2)
  cases alive with
  | false => exact ⟨ready', format', checked⟩
  | true =>
      obtain ⟨kept, parser, untrimmed⟩ := next.produce_settings call.room
      refine ⟨⟨?_, ?_, untrimmed.trans ready'.untrimmed⟩, kept.trans format', checked⟩
      · dsimp only
        rw [if_pos rfl, parser, kept]
        exact ready'.formatted
      · dsimp only
        rw [if_pos rfl, parser]
        exact ready'.settled

/-- The runs of `work` from a new source, with every check their appends made. -/
inductive Works (codec : WireCodec Value Sample) (format : StreamFormat) :
    HttpSource Sample → List TrimCheck → Prop where
  | new (bufferSize : Nat) (scale : Option F64) (centerHz rateHz : F64) (breakSink : Bool) :
      Works codec format (.new format bufferSize scale centerHz rateHz breakSink) []
  | call {s : HttpSource Sample} {checks : List TrimCheck} {call : Call} {worked : Worked Sample}
      (works : Works codec format s checks) (done : s.work codec call = some worked) :
      Works codec format worked.source (checks ++ worked.checks)

/-- **Every append of a binary stream fits below the capacity**, so no sample is
ever trimmed. -/
theorem capacity_never_trims (codec : WireCodec Value Sample) (decoder : SampleDecoder Real Sample)
    {format : StreamFormat} (binary : format.Binary) {s : HttpSource Sample}
    {checks : List TrimCheck} (works : Works (codec.decodedBy decoder) format s checks) :
    (∀ check ∈ checks, check.length ≤ check.capacity) ∧ s.overflowSamples = 0 := by
  obtain ⟨width, wide, -⟩ := binary.iqBytes
  suffices whole : s.Ready (codec.decodedBy decoder) ∧ s.streamFormat = format ∧
      ∀ check ∈ checks, check.length ≤ check.capacity from
    ⟨whole.2.2, whole.1.untrimmed⟩
  induction works with
  | new bufferSize scale centerHz rateHz breakSink =>
      exact ⟨⟨rfl, Framing.Format.settled_nil _, rfl⟩, rfl,
        fun check member => absurd member List.not_mem_nil⟩
  | call works done ih =>
      obtain ⟨ready, same, checked⟩ := ih
      obtain ⟨ready', format', checked'⟩ := work_covered codec decoder (same ▸ wide) ready done
      refine ⟨ready', format'.trans same, ?_⟩
      intro check member
      rcases List.mem_append.mp member with before | behind
      · exact checked check before
      · exact checked' check behind

/-- A call that finds these chunks at its first fetch and an idle channel behind them. -/
def callWith (chunks : List Bytes) : Call where
  restart := false
  outputLength := 0
  maxItems := 2
  fetches := fun left =>
    { active := true
      queued := if left + 1 = maxFetchesPerWork then chunks else []
      ended := false
      parked := none }
  room := 0

/-- A packet carried over to a second call, and another behind it. -/
theorem capacity_never_trims_carried :
    ∃ first second : Worked (Bytes × Bytes),
      (HttpSource.new .int16 0 none 0 0 true).work
        ((twoHeaderCodec (iqMetadata 1) (compressedMetadata .spectra)).decodedBy rawDecoder)
        (callWith [[123, 125, 10], [30, 1, 2]]) = some first ∧
      first.source.work
        ((twoHeaderCodec (iqMetadata 1) (compressedMetadata .spectra)).decodedBy rawDecoder)
        (callWith [[3, 4, 123, 125, 10, 30], [5, 6, 7, 8]]) = some second ∧
      second.checks = [⟨1, 101⟩, ⟨2, 101⟩] ∧ second.source.overflowSamples = 0 := by
  have ran : ((HttpSource.new .int16 0 none 0 0 true).work
      ((twoHeaderCodec (iqMetadata 1) (compressedMetadata .spectra)).decodedBy rawDecoder)
      (callWith [[123, 125, 10], [30, 1, 2]])).bind (fun first => (first.source.work
        ((twoHeaderCodec (iqMetadata 1) (compressedMetadata .spectra)).decodedBy rawDecoder)
        (callWith [[3, 4, 123, 125, 10, 30], [5, 6, 7, 8]])).map Worked.checks) =
      some [⟨1, 101⟩, ⟨2, 101⟩] := by
    decide +kernel
  obtain ⟨first, called, rest⟩ := Option.bind_eq_some_iff.mp ran
  obtain ⟨second, again, checks⟩ := Option.map_eq_some_iff.mp rest
  refine ⟨first, second, called, again, checks, ?_⟩
  exact (capacity_never_trims _ rawDecoder (by decide)
    ((Works.new 0 none 0 0 true).call called |>.call again)).2

end HttpSource
end SdrAaronia
