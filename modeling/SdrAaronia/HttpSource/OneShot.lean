import SdrAaronia.HttpSource.Pipeline

/-! # What the block puts out

Whatever the reader task and the calls of `work` do in whatever order, the block puts
out what a decoder handed each connection's body in one piece would.
-/

namespace SdrAaronia

open HttpStreaming StreamParser Framing

namespace HttpSource

variable {Value Real Sample : Type}

/-! ## What a stream decodes to -/

/-- The IQ samples of an item. -/
def iqSamples : ParsedItem Sample → List Sample
  | .packet packet => if packet.metadata.payload = .iq then packet.samples else []
  | .lost _ | .skipped _ _ => []

/-- The IQ samples of a stream handed over in one piece. -/
def decoded (codec : WireCodec Value Sample) (format : StreamFormat) (scale : Option F64)
    (stream : Bytes) : List Sample :=
  ((wireFormat codec format scale).frames stream).flatMap fun frame => iqSamples frame.item

/-- A parser that has read some chunks gives up on the next one. -/
def Refuses (codec : WireCodec Value Sample) (format : StreamFormat) (scale : Option F64)
    (chunks : List Bytes) (refused : Bytes) : Prop :=
  ∃ p, Behind codec (wireFormat codec format scale) format chunks.flatten p ∧
    (p.processDataRecovering codec refused).2 = .error unterminatedError

/-- A body that was left behind: read to its end, or up to a chunk no parser takes. -/
inductive Ended (codec : WireCodec Value Sample) (format : StreamFormat) (scale : Option F64)
    (body : List Bytes) : List Bytes → Prop where
  | drained : Ended codec format scale body body
  | refused {chunks rest : List Bytes} {chunk : Bytes} (shape : body = chunks ++ chunk :: rest)
      (refuses : Refuses codec format scale chunks chunk) : Ended codec format scale body chunks

/-- What was parsed of each body.  All but the last have ended; the parser is behind what was
parsed of the last one, whose rest is collected, on the channel, or unread. -/
inductive Hears (codec : WireCodec Value Sample) (format : StreamFormat) (scale : Option F64) :
    Option (Channel Bytes chunkChannelDepth) → List Bytes → StreamParser → List (List Bytes) →
      List (List Bytes) → Prop where
  | silent {parser : StreamParser} {bodies heard : List (List Bytes)}
      (ended : List.Forall₂ (Ended codec format scale) bodies heard)
      (fresh : Behind codec (wireFormat codec format scale) format [] parser) :
      Hears codec format scale none [] parser bodies heard
  | live {parser : StreamParser} {bodies heard : List (List Bytes)}
      {body parsed collected : List Bytes} {channel : Channel Bytes chunkChannelDepth}
      (ended : List.Forall₂ (Ended codec format scale) bodies heard)
      (shape : body = parsed ++ collected ++ channel.pending)
      (behind : Behind codec (wireFormat codec format scale) format parsed.flatten parser) :
      Hears codec format scale (some channel) collected parser (bodies ++ [body])
        (heard ++ [parsed])

section Hearing

variable {codec : WireCodec Value Sample} {format : StreamFormat} {scale : Option F64}
  {collected : List Bytes} {parser : StreamParser} {bodies heard : List (List Bytes)}

theorem Hears.of_none (hears : Hears codec format scale none collected parser bodies heard) :
    collected = [] ∧ List.Forall₂ (Ended codec format scale) bodies heard := by
  cases hears with
  | silent ended fresh => exact ⟨rfl, ended⟩

theorem Hears.of_some {channel : Channel Bytes chunkChannelDepth}
    (hears : Hears codec format scale (some channel) collected parser bodies heard) :
    ∃ earlier before body parsed, bodies = earlier ++ [body] ∧ heard = before ++ [parsed] ∧
      List.Forall₂ (Ended codec format scale) earlier before ∧
      body = parsed ++ collected ++ channel.pending ∧
      Behind codec (wireFormat codec format scale) format parsed.flatten parser := by
  cases hears with
  | live ended shape behind => exact ⟨_, _, _, _, rfl, rfl, ended, shape, behind⟩

end Hearing

/-! ## What a sweep adds -/

section Reads

variable {codec : WireCodec Value Sample} {format : StreamFormat} {scale : Option F64}

theorem decoded_append {stream data : Bytes} {items : List (ParsedItem Sample)}
    (read : items = ((wireFormat codec format scale).frames
      ((wireFormat codec format scale).remainder stream ++ data)).map Frame.item) :
    decoded codec format scale (stream ++ data) =
      decoded codec format scale stream ++ items.flatMap iqSamples := by
  rw [decoded, Format.frames_append, List.flatMap_append, read, List.flatMap_map]
  rfl

/-- A call that fails has met a header that never ends. -/
theorem processDataRecovering_refuses {stream data : Bytes} {p q : StreamParser} {error : Error}
    (behind : Behind codec (wireFormat codec format scale) format stream p)
    (small : NoOverCap (wireFormat codec format scale) format (stream ++ data))
    (failed : p.processDataRecovering codec data = (q, .error error)) :
    error = unterminatedError := by
  obtain ⟨wire, formatted, idle, same⟩ := behind
  obtain ⟨started, entered, pending, looped⟩ := processDataRecovering_idle codec idle data
  have wireStarted : started.wire codec = wireFormat codec format scale :=
    (entered.wire codec).trans wire
  have formatStarted : started.format = format := entered.format.trans formatted
  have here := pending ▸ same.append data
  have smaller : NoOverCap (started.wire codec) started.format started.pending := by
    rw [wireStarted, formatStarted]
    intro metadata member
    rw [here.headers] at member
    apply small metadata
    rw [Format.headers_append]
    exact List.mem_append_right _ member
  have reads := parseLoop_reads smaller
  rw [← looped, failed] at reads
  cases reads
  rfl

end Reads

/-- Unless it trimmed something, an append only appends. -/
theorem appendSamples_adds {s next : HttpSource Sample} {samples : List Sample}
    (appended : s.appendSamples samples = some next) (untrimmed : next.overflowSamples = 0) :
    s.overflowSamples = 0 ∧ next.streamParser = s.streamParser ∧
      next.sampleBuffer = s.sampleBuffer ++ samples := by
  unfold appendSamples at appended
  split at appended
  · cases appended
  · dsimp only at appended
    split at appended
    · rename_i full
      obtain rfl := Option.some.inj appended
      rw [(noteTrim_keeps _ _).overflowSamples] at untrimmed
      simp only [saturatingAdd, wordSize] at untrimmed
      omega
    · obtain rfl := Option.some.inj appended
      exact ⟨untrimmed, rfl, rfl⟩

theorem processItem_adds {s next : HttpSource Sample} {item : ParsedItem Sample}
    (processed : s.processItem item = some next) (untrimmed : next.overflowSamples = 0) :
    s.overflowSamples = 0 ∧ next.streamParser = s.streamParser ∧
      next.sampleBuffer = s.sampleBuffer ++ iqSamples item := by
  have untouched : ∀ next, s.Keeps next → next.overflowSamples = 0 → iqSamples item = [] →
      s.overflowSamples = 0 ∧ next.streamParser = s.streamParser ∧
      next.sampleBuffer = s.sampleBuffer ++ iqSamples item := by
    intro next keeps untrimmed nothing
    rw [nothing, List.append_nil]
    exact ⟨keeps.overflowSamples.symm.trans untrimmed, keeps.streamParser, keeps.sampleBuffer⟩
  cases item with
  | lost error =>
      cases processed
      exact untouched _ s.noteLostPacket_keeps untrimmed rfl
  | skipped payload reason =>
      cases processed
      exact untouched _ s.noteNonIqPacket_keeps untrimmed rfl
  | packet packet =>
      by_cases iq : packet.metadata.payload = .iq
      · have keeps := s.notePacket_keeps packet
        rw [processItem_iq iq] at processed
        have added := appendSamples_adds processed untrimmed
        rwa [keeps.overflowSamples, keeps.streamParser, keeps.sampleBuffer,
          ← (if_pos iq : iqSamples (.packet packet) = packet.samples)] at added
      · rw [processItem_other iq] at processed
        cases processed
        exact untouched _ s.noteNonIqPacket_keeps untrimmed (if_neg iq)

theorem processItems_adds {s next : HttpSource Sample} {items : List (ParsedItem Sample)}
    {added : Nat} {checks : List TrimCheck}
    (processed : s.processItems items = some (next, added, checks))
    (untrimmed : next.overflowSamples = 0) :
    s.overflowSamples = 0 ∧ next.streamParser = s.streamParser ∧
      next.sampleBuffer = s.sampleBuffer ++ items.flatMap iqSamples := by
  induction items generalizing s added checks with
  | nil =>
      cases processed
      exact ⟨untrimmed, rfl, (List.append_nil _).symm⟩
  | cons item items ih =>
      obtain ⟨middle, first, rest⟩ := Option.bind_eq_some_iff.mp processed
      obtain ⟨⟨last, more, others⟩, later, same⟩ := Option.map_eq_some_iff.mp rest
      cases same
      obtain ⟨clear, kept, grown⟩ := ih later
      obtain ⟨clear', kept', grown'⟩ := processItem_adds first clear
      refine ⟨clear', kept.trans kept', ?_⟩
      rw [grown, grown', List.flatMap_cons, List.append_assoc]

section Sweeps

variable {codec : WireCodec Value Sample} {format : StreamFormat} {scale : Option F64}
  {s next : HttpSource Sample} {parsed chunks : List Bytes} {outcome : Except Error Nat}
  {checks : List TrimCheck}

variable (codec format scale) in
/-- What parsing some chunks behind others comes to: the buffer grew by what they decode to,
all of them or those ahead of the one refused. -/
inductive Swept (buffer : List Sample) (next : HttpSource Sample) (parsed chunks : List Bytes) :
    Except Error Nat → Prop where
  | read {samples : List Sample} {added : Nat}
      (behind : Behind codec (wireFormat codec format scale) format (parsed ++ chunks).flatten
        next.streamParser)
      (decodes : decoded codec format scale (parsed ++ chunks).flatten =
        decoded codec format scale parsed.flatten ++ samples)
      (grown : next.sampleBuffer = buffer ++ samples) :
      Swept buffer next parsed chunks (.ok added)
  | refused {good rest : List Bytes} {chunk : Bytes} {samples : List Sample} {error : Error}
      (shape : chunks = good ++ chunk :: rest)
      (refuses : Refuses codec format scale (parsed ++ good) chunk)
      (decodes : decoded codec format scale (parsed ++ good).flatten =
        decoded codec format scale parsed.flatten ++ samples)
      (grown : next.sampleBuffer = buffer ++ samples) :
      Swept buffer next parsed chunks (.error error)

theorem processAdvancedStreamData_untrimmed {data : Bytes}
    (processed : s.processAdvancedStreamData codec data = some (next, outcome, checks))
    (untrimmed : next.overflowSamples = 0) : s.overflowSamples = 0 := by
  unfold processAdvancedStreamData at processed
  dsimp only at processed
  split at processed
  · cases processed
    exact untrimmed
  · obtain ⟨⟨last, added, compared⟩, appended, same⟩ := Option.map_eq_some_iff.mp processed
    cases same
    exact (processItems_adds appended untrimmed).1

theorem parseChunks_untrimmed
    (ran : s.parseChunks codec chunks = some (next, outcome, checks))
    (untrimmed : next.overflowSamples = 0) : s.overflowSamples = 0 := by
  induction chunks generalizing s outcome checks with
  | nil =>
      cases ran
      exact untrimmed
  | cons chunk chunks ih =>
      obtain ⟨⟨middle, result, first⟩, here, rest⟩ := Option.bind_eq_some_iff.mp ran
      cases result with
      | error e =>
          cases rest
          exact processAdvancedStreamData_untrimmed here untrimmed
      | ok added =>
          obtain ⟨⟨last, ending, more⟩, later, same⟩ := Option.map_eq_some_iff.mp rest
          cases same
          exact processAdvancedStreamData_untrimmed here (ih later)

theorem processAdvancedStreamData_reads {data : Bytes}
    (behind : Behind codec (wireFormat codec format scale) format parsed.flatten s.streamParser)
    (small : NoOverCap (wireFormat codec format scale) format (parsed ++ [data]).flatten)
    (processed : s.processAdvancedStreamData codec data = some (next, outcome, checks))
    (untrimmed : next.overflowSamples = 0) :
    next.streamParser.tuning = s.streamParser.tuning ∧
      Swept codec format scale s.sampleBuffer next parsed [data] outcome := by
  have joined : (parsed ++ [data]).flatten = parsed.flatten ++ data := by
    rw [List.flatten_append, List.flatten_singleton]
  rw [joined] at small
  have tuned := tuning_processDataRecovering codec s.streamParser data
  unfold processAdvancedStreamData at processed
  cases called : s.streamParser.processDataRecovering codec data with
  | mk parser result =>
      rw [called] at processed tuned
      cases result with
      | error e =>
          cases processed
          obtain rfl := processDataRecovering_refuses behind small called
          refine ⟨tuned, .refused (List.nil_append [data]).symm ?_ ?_
            (List.append_nil _).symm⟩
          · rw [List.append_nil]
            exact ⟨s.streamParser, behind, by rw [called]⟩
          · rw [List.append_nil, List.append_nil]
      | ok items =>
          obtain ⟨⟨last, added, compared⟩, appended, same⟩ := Option.map_eq_some_iff.mp processed
          cases same
          obtain ⟨-, kept, grown⟩ := processItems_adds appended untrimmed
          obtain ⟨read, behind'⟩ := processDataRecovering_reads behind small called
          refine ⟨(congrArg tuning kept).trans tuned, .read ?_ ?_ grown⟩
          · rw [joined, kept]
            exact behind'
          · rw [joined]
            exact decoded_append read

theorem parseChunks_reads
    (behind : Behind codec (wireFormat codec format scale) format parsed.flatten s.streamParser)
    (small : NoOverCap (wireFormat codec format scale) format (parsed ++ chunks).flatten)
    (ran : s.parseChunks codec chunks = some (next, outcome, checks))
    (untrimmed : next.overflowSamples = 0) :
    next.streamParser.tuning = s.streamParser.tuning ∧
      Swept codec format scale s.sampleBuffer next parsed chunks outcome := by
  induction chunks generalizing s parsed outcome checks with
  | nil =>
      cases ran
      rw [← List.append_nil parsed] at behind
      exact ⟨rfl, .read behind (by rw [List.append_nil, List.append_nil])
        (List.append_nil _).symm⟩
  | cons chunk chunks ih =>
      obtain ⟨⟨middle, result, first⟩, here, rest⟩ := Option.bind_eq_some_iff.mp ran
      have regroup : parsed ++ chunk :: chunks = parsed ++ [chunk] ++ chunks := by
        rw [List.append_assoc, List.singleton_append]
      have smaller : NoOverCap (wireFormat codec format scale) format
          (parsed ++ [chunk]).flatten := by
        intro metadata member
        apply small metadata
        rw [regroup, List.flatten_append]
        exact Format.headers_prefix _ member _
      cases result with
      | error e =>
          cases rest
          obtain ⟨tuned, swept⟩ := processAdvancedStreamData_reads behind smaller here untrimmed
          cases swept with
          | @refused good after failing _ _ shape refuses decodes buffer =>
              have shape' : chunk :: chunks = good ++ failing :: (after ++ chunks) := by
                rw [← List.singleton_append, shape, List.append_assoc, List.cons_append]
              exact ⟨tuned, .refused shape' refuses decodes buffer⟩
      | ok added =>
          obtain ⟨⟨last, ending, more⟩, later, same⟩ := Option.map_eq_some_iff.mp rest
          cases same
          have clear := parseChunks_untrimmed later untrimmed
          obtain ⟨tuned, swept⟩ := processAdvancedStreamData_reads behind smaller here clear
          cases swept with
          | read behind' decodes buffer =>
              obtain ⟨tuned', swept'⟩ := ih behind' (regroup ▸ small) later
              refine ⟨tuned'.trans tuned, ?_⟩
              cases swept' with
              | read behind'' decodes' buffer' =>
                  rw [decodes, List.append_assoc (decoded _ _ _ _)] at decodes'
                  rw [buffer, List.append_assoc s.sampleBuffer] at buffer'
                  rw [← regroup] at behind'' decodes'
                  exact .read behind'' decodes' buffer'
              | refused shape refuses decodes' buffer' =>
                  rw [decodes, List.append_assoc (decoded _ _ _ _)] at decodes'
                  rw [buffer, List.append_assoc s.sampleBuffer] at buffer'
                  rw [List.append_assoc, List.singleton_append] at refuses decodes'
                  exact .refused (congrArg (chunk :: ·) shape) refuses decodes' buffer'

theorem sweepChunks_reads
    (behind : Behind codec (wireFormat codec format scale) format parsed.flatten s.streamParser)
    (small : NoOverCap (wireFormat codec format scale) format (parsed ++ chunks).flatten)
    (swept : s.sweepChunks codec chunks = some (next, outcome, checks))
    (untrimmed : next.overflowSamples = 0) :
    next.streamParser.tuning = s.streamParser.tuning ∧
      Swept codec format scale s.sampleBuffer next parsed chunks outcome :=
  parseChunks_reads (s := { s with
    maxChunkBytes := (chunks.map List.length).foldl max s.maxChunkBytes }) behind small swept
    untrimmed

end Sweeps

/-! ## What every step keeps -/

/-- What a phase says about the source and the connection. -/
def Phase.Fits (s : HttpSource Sample) (connected : Bool) : Phase → Prop
  | .filling below _ => below ≤ s.refillCapacity
  | .sweeping below _ chunks =>
      connected = true ∧ s.sampleBuffer.length ≤ below ∧ below ≤ s.refillCapacity ∧
        chunks.length ≤ chunkChannelDepth
  | .parking below _ => connected = true ∧ s.sampleBuffer = [] ∧ below ≤ s.refillCapacity
  | .starting | .restarting | .reconnecting => connected = false
  | .idle | .entering | .flushing => True

theorem behind_reset (codec : WireCodec Value Sample) {format : StreamFormat}
    {scale : Option F64} {p : StreamParser} (tuned : p.tuning = (format, scale)) :
    Behind codec (wireFormat codec format scale) format [] p.reset := by
  obtain ⟨formatted, scaled⟩ := Prod.mk.inj tuned
  refine ⟨?_, formatted, rfl, ?_⟩
  · rw [← formatted, ← scaled]
    rfl
  · rw [Format.remainder_of_settled _ (Format.settled_nil _)]
    exact Format.Same.refl _ _

theorem cleanupStream_streamParser (s : HttpSource Sample) :
    s.cleanupStream.streamParser = s.streamParser.reset :=
  (noteBreak_keeps _ .gap).streamParser

namespace Pipeline

/-- Put out and buffered is what was parsed of each body decodes to. -/
structure Delivers (codec : WireCodec Value Sample) (format : StreamFormat) (scale : Option F64)
    (p : Pipeline Sample) : Prop where
  ready : p.source.Ready codec
  formatted : p.source.streamFormat = format
  tuned : p.source.streamParser.tuning = (format, scale)
  fits : p.phase.Fits p.source p.channel.isSome
  small : ∀ body ∈ p.bodies, NoOverCap (wireFormat codec format scale) format body.flatten
  heard : ∃ heard, Hears codec format scale p.channel p.phase.collected p.source.streamParser
      p.bodies heard ∧
    p.outputs ++ p.source.sampleBuffer =
      heard.flatMap fun chunks => decoded codec format scale chunks.flatten

section Steps

variable {codec : WireCodec Value Sample} {decoder : SampleDecoder Real Sample}
  {format : StreamFormat} {scale : Option F64} {p : Pipeline Sample}

/-- Cleaning up leaves nothing pending, and every body ended. -/
theorem delivers_closed {next : HttpSource Sample} {heard : List (List Bytes)}
    (paired : next.streamParser.format = next.streamFormat) (formatted : next.streamFormat = format)
    (tuned : next.streamParser.tuning = (format, scale)) (untrimmed : next.overflowSamples = 0)
    (small : ∀ body ∈ p.bodies, NoOverCap (wireFormat codec format scale) format body.flatten)
    (ended : List.Forall₂ (Ended codec format scale) p.bodies heard)
    (content : p.outputs ++ next.sampleBuffer =
      heard.flatMap fun chunks => decoded codec format scale chunks.flatten) :
    Delivers codec format scale
      { p with source := next.cleanupStream, channel := none, phase := .reconnecting } where
  ready := cleanupStream_ready codec paired untrimmed
  formatted := next.cleanupStream_steady.streamFormat.trans formatted
  tuned := (congrArg tuning next.cleanupStream_streamParser).trans tuned
  fits := rfl
  small := small
  heard := by
    refine ⟨heard, .silent ended ?_, ?_⟩
    · rw [cleanupStream_streamParser]
      exact behind_reset codec tuned
    · rw [cleanupStream_sampleBuffer]
      exact content

/-- A sweep's chunks are parsed, all of them or up to one that is refused. -/
theorem delivers_swept {next : HttpSource Sample} {below left : Nat} {chunks : List Bytes}
    {outcome : Except Error Nat} {checks : List TrimCheck} (binary : format.Binary)
    (delivers : Delivers (codec.decodedBy decoder) format scale p)
    (sweeping : p.phase = .sweeping below left chunks)
    (swept : p.source.sweepChunks (codec.decodedBy decoder) chunks =
      some (next, outcome, checks)) :
    Delivers (codec.decodedBy decoder) format scale (p.afterFetch below left next outcome) := by
  obtain ⟨ready, formatted, tuned, fits, small, heard, hears, content⟩ := delivers
  rw [sweeping] at fits hears
  obtain ⟨connected, short, target, few⟩ := fits
  obtain ⟨width, wide, -⟩ := binary.iqBytes
  obtain ⟨onward, paired, settled, -⟩ := sweepChunks_covered codec decoder
    (formatted.symm ▸ wide) ready target few short swept
  have untrimmed := onward.overflowSamples.trans ready.untrimmed
  have formatted' := onward.streamFormat.trans formatted
  obtain ⟨channel, shared⟩ := Option.isSome_iff_exists.mp connected
  rw [shared] at hears
  obtain ⟨earlier, before, body, parsed, split, rfl, ended, shape, behind⟩ := hears.of_some
  have within : NoOverCap (wireFormat (codec.decodedBy decoder) format scale) format
      (parsed ++ chunks).flatten := by
    intro metadata member
    apply small body (split ▸ List.mem_append_right _ List.mem_cons_self)
    rw [shape, List.flatten_append]
    exact Format.headers_prefix _ member _
  obtain ⟨tuned', read⟩ := sweepChunks_reads behind within swept untrimmed
  have grows : ∀ {samples : List Sample} {more : List Bytes},
      next.sampleBuffer = p.source.sampleBuffer ++ samples →
      decoded (codec.decodedBy decoder) format scale more.flatten =
        decoded (codec.decodedBy decoder) format scale parsed.flatten ++ samples →
      p.outputs ++ next.sampleBuffer = (before ++ [more]).flatMap fun chunks =>
        decoded (codec.decodedBy decoder) format scale chunks.flatten := by
    intro samples more buffer decodes
    rw [buffer, ← List.append_assoc, content]
    simp [decodes]
  cases read with
  | @read samples added behind' decodes buffer =>
      have continues : ∀ phase : Phase, phase.collected = [] →
          phase.Fits next (some channel).isSome →
          Delivers (codec.decodedBy decoder) format scale { p with source := next, phase } := by
        intro phase nothing fits
        refine ⟨settled added rfl, formatted', tuned'.trans tuned, shared.symm ▸ fits, small,
          before ++ [parsed ++ chunks], ?_, grows buffer decodes⟩
        rw [shared, nothing]
        dsimp only
        rw [split]
        refine .live ended ?_ behind'
        rw [shape, List.append_nil]
        rfl
      cases added with
      | zero => exact continues .flushing rfl trivial
      | succ added =>
          exact continues (.filling below left) rfl (target.trans onward.refillCapacity)
  | @refused good rest chunk _ _ cut refuses decodes buffer =>
      have shape' : body = (parsed ++ good) ++ chunk :: (rest ++ channel.pending) := by
        rw [shape]
        simp [Phase.collected, cut]
      refine delivers_closed paired formatted' (tuned'.trans tuned) untrimmed small ?_
        (grows buffer decodes)
      rw [split]
      exact List.rel_append ended (.cons (.refused shape' refuses) .nil)

/-- The reader task ended and everything it sent was parsed. -/
theorem delivers_drained {below left : Nat} {error : Error}
    {channel : Channel Bytes chunkChannelDepth}
    (delivers : Delivers codec format scale p) (shared : p.channel = some channel)
    (nothing : p.phase.collected = []) (gone : channel.disconnected = true) :
    Delivers codec format scale
      (p.afterFetch below left p.source.cleanupStream (.error error)) := by
  obtain ⟨ready, formatted, tuned, fits, small, heard, hears, content⟩ := delivers
  have cleaned := cleanupStream_ready codec ready.formatted ready.untrimmed
  rw [shared, nothing] at hears
  obtain ⟨earlier, before, body, parsed, split, rfl, ended, shape, behind⟩ := hears.of_some
  refine delivers_closed cleaned.formatted
    (p.source.cleanupStream_steady.streamFormat.trans formatted)
    ((congrArg tuning p.source.cleanupStream_streamParser).trans tuned) cleaned.untrimmed small ?_
    ((congrArg (p.outputs ++ ·) p.source.cleanupStream_sampleBuffer).trans content)
  rw [split]
  refine List.rel_append ended (.cons ?_ .nil)
  rw [shape, channel.pending_disconnected gone, List.append_nil, List.append_nil]
  exact .drained

/-- Moving on to a phase that has collected nothing. -/
theorem Delivers.moved (delivers : Delivers codec format scale p) {phase : Phase}
    (nothing : p.phase.collected = []) (nothing' : phase.collected = [])
    (fits : phase.Fits p.source p.channel.isSome) :
    Delivers codec format scale { p with phase } := by
  obtain ⟨ready, formatted, tuned, -, small, heard, hears, content⟩ := delivers
  refine ⟨ready, formatted, tuned, fits, small, heard, ?_, content⟩
  rw [nothing] at hears
  rw [nothing']
  exact hears

/-- A chunk taken from the channel is collected. -/
theorem Delivers.taken (delivers : Delivers codec format scale p)
    {channel rest : Channel Bytes chunkChannelDepth} {chunk : Bytes} {phase : Phase}
    (shared : p.channel = some channel) (received : channel.receive = some (chunk, rest))
    (collected : phase.collected = p.phase.collected ++ [chunk])
    (fits : phase.Fits p.source true) :
    Delivers codec format scale { p with channel := some rest, phase } := by
  obtain ⟨ready, formatted, tuned, -, small, heard, hears, content⟩ := delivers
  refine ⟨ready, formatted, tuned, fits, small, heard, ?_, content⟩
  rw [shared] at hears
  obtain ⟨earlier, before, body, parsed, split, rfl, ended, shape, behind⟩ := hears.of_some
  dsimp only
  rw [split, collected]
  refine .live ended ?_ behind
  rw [shape, Channel.receive_pending received]
  simp

/-- A turn of the reader task moves chunks along the connection. -/
theorem Delivers.turned (delivers : Delivers codec format scale p) :
    Delivers codec format scale { p with channel := p.channel.map Channel.turn } := by
  obtain ⟨ready, formatted, tuned, fits, small, heard, hears, content⟩ := delivers
  refine ⟨ready, formatted, tuned, ?_, small, heard, ?_, content⟩
  · dsimp only
    rw [Option.isSome_map]
    exact fits
  · generalize p.channel = channel at hears
    cases channel with
    | none => exact hears
    | some channel =>
        obtain ⟨earlier, before, body, parsed, split, rfl, ended, shape, behind⟩ := hears.of_some
        dsimp only [Option.map_some]
        rw [split]
        refine .live ended ?_ behind
        rw [Channel.pending_turn]
        exact shape

/-- A stream started with no connection open. -/
theorem Delivers.started (delivers : Delivers codec format scale p) {phase : Phase}
    (nothing : p.phase.collected = []) (closed : p.channel.isSome = false)
    (free : ∀ connected, phase.Fits p.source connected) (nothing' : phase.collected = [])
    {body : Option (List Bytes)} (small : ∀ chunks, body = some chunks →
      NoOverCap (wireFormat codec format scale) format chunks.flatten) :
    Delivers codec format scale (p.startStream phase body) := by
  cases body with
  | none => exact delivers.moved nothing nothing' (free _)
  | some chunks =>
      obtain ⟨ready, formatted, tuned, -, others, heard, hears, content⟩ := delivers
      rw [Option.not_isSome_iff_eq_none.mp (ne_true_of_eq_false closed), nothing] at hears
      obtain ⟨-, ended⟩ := hears.of_none
      have fresh :
          Behind codec (wireFormat codec format scale) format [] p.source.streamParser := by
        cases hears with
        | silent ended fresh => exact fresh
      refine ⟨ready, formatted, tuned, free _, ?_, heard ++ [[]], ?_, ?_⟩
      · intro body member
        rcases List.mem_append.mp member with earlier | here
        · exact others body earlier
        · rw [List.mem_singleton.mp here]
          exact small chunks rfl
      · rw [startStream, nothing']
        exact .live ended rfl fresh
      · have nothing : decoded codec format scale [] = [] := by
          rw [decoded, Format.frames_settled _ (Format.settled_nil _)]
          rfl
        rw [List.flatMap_append, ← content]
        simp [startStream, nothing]

/-- A fetch reads neither the phase nor the channel. -/
theorem fetched_phase (p : Pipeline Sample) (phase : Phase) (below left : Nat) (fetch : Fetch) :
    { p with phase }.fetched codec below left fetch = p.fetched codec below left fetch := by
  unfold fetched
  congr 1

/-- A fetch that comes to a sweep of the collected chunks. -/
theorem Delivers.fetched {below left : Nat} {chunks : List Bytes} {fetch : Fetch}
    {after : Pipeline Sample} (binary : format.Binary)
    (delivers : Delivers (codec.decodedBy decoder) format scale p)
    (sweeping : p.phase = .sweeping below left chunks)
    (sweeps : p.source.fetchSamples (codec.decodedBy decoder) p.source.sampleBuffer.isEmpty fetch =
      p.source.sweepChunks (codec.decodedBy decoder) chunks)
    (found : p.fetched (codec.decodedBy decoder) below left fetch = some after) :
    Delivers (codec.decodedBy decoder) format scale after := by
  unfold Pipeline.fetched at found
  rw [sweeps] at found
  obtain ⟨⟨next, outcome, checks⟩, swept, rfl⟩ := Option.map_eq_some_iff.mp found
  exact delivers_swept binary delivers sweeping swept

/-- A fetch that finds the channel disconnected. -/
theorem Delivers.disconnected {below left : Nat} {fetch : Fetch} {after : Pipeline Sample}
    {channel : Channel Bytes chunkChannelDepth} (delivers : Delivers codec format scale p)
    (shared : p.channel = some channel) (nothing : p.phase.collected = [])
    (gone : channel.disconnected = true)
    (ends : p.source.fetchSamples codec p.source.sampleBuffer.isEmpty fetch =
      some (p.source.cleanupStream, .error readerEndedError, []))
    (found : p.fetched codec below left fetch = some after) :
    Delivers codec format scale after := by
  unfold Pipeline.fetched at found
  rw [ends] at found
  cases found
  exact delivers_drained delivers shared nothing gone

theorem sweep_delivers {below left : Nat} {chunks : List Bytes} {after : Pipeline Sample}
    {channel : Channel Bytes chunkChannelDepth} (binary : format.Binary)
    (delivers : Delivers (codec.decodedBy decoder) format scale p)
    (sweeping : p.phase = .sweeping below left chunks) (shared : p.channel = some channel)
    (stepped : p.sweep (codec.decodedBy decoder) below left chunks channel = some after) :
    Delivers (codec.decodedBy decoder) format scale after := by
  have fits := delivers.fits
  rw [sweeping] at fits
  obtain ⟨connected, short, target, few⟩ := fits
  have settles : p.fetched (codec.decodedBy decoder) below left
        { active := true, queued := chunks, ended := channel.disconnected, parked := none } =
      some after → Delivers (codec.decodedBy decoder) format scale after := by
    intro found
    by_cases empty : chunks = []
    · subst empty
      by_cases gone : channel.disconnected = true
      · refine delivers.disconnected shared (congrArg Phase.collected sweeping) gone ?_ found
        simp [fetchSamples, gone]
      · refine delivers.fetched binary sweeping ?_ found
        simp [fetchSamples, gone]
    · refine delivers.fetched binary sweeping ?_ found
      simp [fetchSamples, List.take_of_length_le few, empty]
  unfold sweep at stepped
  dsimp only at stepped
  split at stepped
  · rename_i more
    split at stepped
    · rename_i chunk rest received
      cases stepped
      refine delivers.taken shared received ?_ ?_
      · rw [sweeping]
        rfl
      · refine ⟨rfl, short, target, ?_⟩
        rw [List.length_append]
        exact more
    · split at stepped
      · rename_i idle
        cases stepped
        simp only [Bool.and_eq_true, List.isEmpty_iff] at idle
        obtain ⟨⟨rfl, -⟩, empty⟩ := idle
        exact delivers.moved (congrArg Phase.collected sweeping) rfl ⟨connected, empty, target⟩
      · exact settles stepped
  · exact settles stepped

theorem wake_delivers {below left : Nat} {after : Pipeline Sample}
    {channel : Channel Bytes chunkChannelDepth} (binary : format.Binary)
    (delivers : Delivers (codec.decodedBy decoder) format scale p)
    (parking : p.phase = .parking below left) (shared : p.channel = some channel)
    (stepped : p.wake (codec.decodedBy decoder) below left channel = some after) :
    Delivers (codec.decodedBy decoder) format scale after := by
  have fits := delivers.fits
  rw [parking] at fits
  obtain ⟨connected, empty, target⟩ := fits
  have short : p.source.sampleBuffer.length ≤ below := empty ▸ Nat.zero_le below
  unfold wake at stepped
  split at stepped
  · rename_i chunk rest received
    have fits : (Phase.sweeping below left [chunk]).Fits p.source true :=
      ⟨rfl, short, target, Nat.succ_le_succ (Nat.zero_le 63)⟩
    have taken := delivers.taken shared received (by rw [parking]; rfl) fits
    rw [← fetched_phase _ (.sweeping below left [chunk])] at stepped
    refine taken.fetched binary rfl ?_ stepped
    simp [fetchSamples, empty]
  · split at stepped
    · rename_i gone
      refine delivers.disconnected shared (congrArg Phase.collected parking) gone ?_ stepped
      simp [fetchSamples, empty]
    · cases stepped

theorem giveUp_delivers {below left : Nat} {after : Pipeline Sample}
    {channel : Channel Bytes chunkChannelDepth} (binary : format.Binary)
    (delivers : Delivers (codec.decodedBy decoder) format scale p)
    (parking : p.phase = .parking below left)
    (stepped : p.giveUp (codec.decodedBy decoder) below left channel = some after) :
    Delivers (codec.decodedBy decoder) format scale after := by
  have fits := delivers.fits
  rw [parking] at fits
  obtain ⟨connected, empty, target⟩ := fits
  have short : p.source.sampleBuffer.length ≤ below := empty ▸ Nat.zero_le below
  unfold giveUp at stepped
  split at stepped
  · have fits : (Phase.sweeping below left []).Fits p.source p.channel.isSome :=
      ⟨connected, short, target, Nat.zero_le _⟩
    have moved := delivers.moved (congrArg Phase.collected parking) rfl fits
    rw [← fetched_phase _ (.sweeping below left [])] at stepped
    refine moved.fetched binary rfl ?_ stepped
    simp [fetchSamples, empty]
  · cases stepped

theorem fill_delivers {below left : Nat} {after : Pipeline Sample}
    (delivers : Delivers codec format scale p) (filling : p.phase = .filling below left)
    (stepped : p.fill codec below left = some after) : Delivers codec format scale after := by
  have fits := delivers.fits
  have nothing := congrArg Phase.collected filling
  rw [filling] at fits
  unfold fill at stepped
  split at stepped
  · cases stepped
    exact delivers.moved nothing rfl trivial
  · split at stepped
    · rename_i short
      split at stepped
      · rename_i channel shared
        cases stepped
        refine delivers.moved nothing rfl ⟨?_, Nat.le_of_lt short, fits, Nat.zero_le _⟩
        rw [shared]
        rfl
      · rename_i closed
        cases stepped
        obtain ⟨ready, formatted, tuned, -, small, heard, hears, content⟩ := delivers
        rw [closed] at hears
        exact delivers_closed ready.formatted formatted tuned ready.untrimmed small hears.of_none.2
          content
    · cases stepped
      exact delivers.moved nothing rfl trivial

theorem begin_delivers (delivers : Delivers codec format scale p) (idle : p.phase = .idle)
    (restart : Bool) : Delivers codec format scale (p.begin restart) := by
  unfold begin
  split
  · obtain ⟨ready, kept⟩ := restart_ready codec delivers.ready
    have keeps := noteBufferCleared_keeps
      ({ p.source.cleanupStream with sampleBuffer := [] } : HttpSource Sample)
    have parser : p.source.restart.streamParser = p.source.streamParser.reset :=
      keeps.streamParser.trans p.source.cleanupStream_streamParser
    refine ⟨ready, kept.trans delivers.formatted, ?_, rfl,
      fun body member => absurd member List.not_mem_nil, [], .silent .nil ?_, ?_⟩
    · rw [parser]
      exact delivers.tuned
    · rw [parser]
      exact behind_reset codec delivers.tuned
    · exact keeps.sampleBuffer
  · exact delivers.moved (congrArg Phase.collected idle) rfl trivial

theorem enter_delivers (delivers : Delivers codec format scale p) (entering : p.phase = .entering)
    (outputLength maxItems : Nat) :
    Delivers codec format scale (p.enter outputLength maxItems) := by
  obtain ⟨ready, formatted, tuned, -, small, heard, hears, content⟩ := delivers
  obtain ⟨ready', formatted'⟩ := learnOutput_ready codec ready maxItems
  have kept : (p.source.learnOutput maxItems).streamParser = p.source.streamParser ∧
      (p.source.learnOutput maxItems).sampleBuffer = p.source.sampleBuffer := by
    unfold learnOutput
    split <;> exact ⟨rfl, rfl⟩
  rw [entering] at hears
  refine ⟨ready', formatted'.trans formatted, ?_, refillBelow_le _ _, small, heard, ?_, ?_⟩
  · exact (congrArg tuning kept.1).trans tuned
  · dsimp only [enter]
    rw [kept.1]
    exact hears
  · dsimp only [enter]
    rw [kept.2]
    exact content

theorem flush_delivers (delivers : Delivers codec format scale p) (flushing : p.phase = .flushing)
    (room : Nat) : Delivers codec format scale (p.flush room) := by
  obtain ⟨ready, formatted, tuned, -, small, heard, hears, content⟩ := delivers
  obtain ⟨kept, parser, untrimmed⟩ := p.source.produce_settings room
  rw [flushing] at hears
  refine ⟨⟨?_, ?_, untrimmed.trans ready.untrimmed⟩, kept.trans formatted, ?_, trivial, small,
    heard, ?_, ?_⟩
  · dsimp only [flush]
    rw [parser, kept]
    exact ready.formatted
  · dsimp only [flush]
    rw [parser]
    exact ready.settled
  · exact (congrArg tuning parser).trans tuned
  · dsimp only [flush]
    rw [parser]
    exact hears
  · have put : (p.source.produce room).2.2 ++ (p.source.produce room).1.sampleBuffer =
        p.source.sampleBuffer := by
      rw [produce_sampleBuffer]
      exact List.take_append_drop _ _
    dsimp only [flush]
    rw [List.append_assoc, put]
    exact content

/-- **Every step delivers.** -/
theorem step_delivers {event : PipelineEvent} {after : Pipeline Sample} (binary : format.Binary)
    (small : ∀ body, event = .started (some body) →
      NoOverCap (wireFormat (codec.decodedBy decoder) format scale) format body.flatten)
    (delivers : Delivers (codec.decodedBy decoder) format scale p)
    (stepped : p.step (codec.decodedBy decoder) event = some after) :
    Delivers (codec.decodedBy decoder) format scale after := by
  have fits := delivers.fits
  have starts : ∀ {phase : Phase} {body : Option (List Bytes)}, event = .started body →
      p.phase.collected = [] → p.channel.isSome = false →
      (∀ connected, phase.Fits p.source connected) → phase.collected = [] →
      Delivers (codec.decodedBy decoder) format scale (p.startStream phase body) := by
    intro phase body same nothing closed free nothing'
    refine delivers.started nothing closed free nothing' ?_
    intro chunks here
    exact small chunks (same.trans (congrArg PipelineEvent.started here))
  unfold step at stepped
  split at stepped
  · cases stepped
    exact delivers.turned
  · have here : p.phase = .starting := ‹_›
    cases stepped
    exact starts rfl (congrArg Phase.collected here) (here ▸ fits :) (fun _ => trivial) rfl
  · have here : p.phase = .restarting := ‹_›
    cases stepped
    exact starts rfl (congrArg Phase.collected here) (here ▸ fits :) (fun _ => trivial) rfl
  · have here : p.phase = .reconnecting := ‹_›
    cases stepped
    exact starts rfl (congrArg Phase.collected here) (here ▸ fits :) (fun _ => trivial) rfl
  · cases stepped
    exact begin_delivers delivers ‹_› _
  · cases stepped
    exact enter_delivers delivers ‹_› _ _
  · exact fill_delivers delivers ‹_› stepped
  · exact sweep_delivers binary delivers ‹_› ‹_› stepped
  · exact wake_delivers binary delivers ‹_› ‹_› stepped
  · exact giveUp_delivers binary delivers ‹_› stepped
  · cases stepped
    exact flush_delivers delivers ‹_› _
  · cases stepped

theorem delivers_new (codec : WireCodec Value Sample) (format : StreamFormat) (bufferSize : Nat)
    (scale : Option F64) (centerHz rateHz : F64) (breakSink : Bool) :
    Delivers codec format scale
      (Pipeline.new format bufferSize scale centerHz rateHz breakSink : Pipeline Sample) where
  ready := ⟨rfl, Format.settled_nil _, rfl⟩
  formatted := rfl
  tuned := rfl
  fits := rfl
  small := fun _ member => absurd member List.not_mem_nil
  heard := ⟨[], .silent .nil (behind_new codec format scale), rfl⟩

end Steps

/-- **The block puts out what a one-shot decoder would**, whatever the interleaving of the
reader task, the calls, the reconnects and the restarts.  In every run of a binary stream
without a header above the cap nothing is ever trimmed, and what was put out since the last
restart, with what is buffered, is what the bytes parsed of each connection decode to in one
piece: all of them on a connection that ended, unless a chunk of it was refused. -/
theorem delivers_one_shot (codec : WireCodec Value Sample) (decoder : SampleDecoder Real Sample)
    {format : StreamFormat} (binary : format.Binary) (bufferSize : Nat) (scale : Option F64)
    (centerHz rateHz : F64) (breakSink : Bool) {events : List PipelineEvent}
    {after : Pipeline Sample}
    (small : ∀ body, PipelineEvent.started (some body) ∈ events →
      ∀ metadata ∈ headersFound (codec.decodedBy decoder) format scale body.flatten,
        ¬OverCap format metadata)
    (ran : Machine.run (step (codec.decodedBy decoder))
      (.new format bufferSize scale centerHz rateHz breakSink) events = some after) :
    after.source.overflowSamples = 0 ∧
      ∃ heard, Hears (codec.decodedBy decoder) format scale after.channel after.phase.collected
          after.source.streamParser after.bodies heard ∧
        after.outputs ++ after.source.sampleBuffer =
          heard.flatMap fun chunks =>
            decoded (codec.decodedBy decoder) format scale chunks.flatten := by
  have fresh := delivers_new (codec.decodedBy decoder) format bufferSize scale centerHz rateHz
    breakSink
  have each : ∀ event ∈ events, ∀ body, event = .started (some body) →
      NoOverCap (wireFormat (codec.decodedBy decoder) format scale) format body.flatten := by
    rintro event member body rfl
    exact small body member
  have delivers := Machine.run_keeps_only (fun _ _ _ => step_delivers binary) each fresh ran
  exact ⟨delivers.ready.untrimmed, delivers.heard⟩

/-- A packet cut in three, the end of its connection behind half a header, and another
connection that starts with the other half. -/
def reconnectRun : List PipelineEvent :=
  [.started (some [[123, 125, 10], [30, 1, 2], [3, 4, 123]]), .reader, .reader,
    .call false, .enter 4 2, .fill, .receive, .reader, .reader, .receive, .receive, .flush 8,
    .call false, .enter 4 2, .fill, .receive, .reader, .reader, .receive, .reader, .fill,
    .receive,
    .started (some [[125, 10], [123, 125, 10, 30, 5, 6, 7, 8]]), .reader, .reader, .reader,
    .reader, .call false, .enter 4 2, .fill, .receive, .receive, .receive, .fill, .receive,
    .flush 8]

theorem delivers_one_shot_reconnectRun :
    ∃ after, Machine.run (step
        ((twoHeaderCodec (iqMetadata 1) (compressedMetadata .spectra)).decodedBy rawDecoder))
        (.new .int16 2 none 0 0 true) reconnectRun = some after ∧
      after.outputs = [([1, 2], [3, 4]), ([5, 6], [7, 8])] ∧
      after.source.overflowSamples = 0 := by
  have ran : (Machine.run (step
      ((twoHeaderCodec (iqMetadata 1) (compressedMetadata .spectra)).decodedBy rawDecoder))
      (.new .int16 2 none 0 0 true) reconnectRun).map Pipeline.outputs =
      some [([1, 2], [3, 4]), ([5, 6], [7, 8])] := by
    decide +kernel
  obtain ⟨after, run, outputs⟩ := Option.map_eq_some_iff.mp ran
  refine ⟨after, run, outputs, (delivers_one_shot _ rawDecoder (by decide) 2 none 0 0 true ?_
    run).1⟩
  intro body member
  simp only [reconnectRun, List.mem_cons, PipelineEvent.started.injEq, Option.some.injEq,
    reduceCtorEq, List.not_mem_nil, or_false, false_or] at member
  rcases member with rfl | rfl <;> decide +kernel

end Pipeline
end HttpSource
end SdrAaronia
