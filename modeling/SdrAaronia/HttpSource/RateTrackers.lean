import SdrAaronia.HttpSource.LinkCheck

/-! # The rates the source compares packets with

Three trackers are fed from the same headers: the rate last announced, the rate adopted
and the rate of the link check.  A rate that is no number, or infinite, in any of them
would silence its comparison for good.
-/

namespace SdrAaronia

open HttpStreaming

namespace HttpSource

variable {Sample : Type}

/-- Each tracker that a packet has set holds a finite positive rate. -/
structure BaselinesSound (requestedHz : F64) (s : HttpSource Sample) : Prop where
  epoch : ∀ rate, s.epochRateHz = some rate → rate.Positive
  device : ∀ rate, s.linkDeviceRate = some rate → rate.Positive
  current : s.currentSampleRate = requestedHz ∨ s.currentSampleRate.Positive

/-- So does every geometry that the epoch can fall back to. -/
structure Tracked (requestedHz : F64) (s : HttpSource Sample) : Prop extends
    s.BaselinesSound requestedHz where
  paired : s.epochCenterHz.isSome = s.epochRateHz.isSome
  pending : ∀ mark ∈ s.pendingBreaks, ∀ geometry, mark.2.geometry = some geometry →
    geometry.2.Positive
  published : ∀ geometry, s.publishedGeometry = some geometry → geometry.2.Positive

variable {requestedHz : F64} {s s' : HttpSource Sample}

/-- What the trackers do not read. -/
theorem Tracked.of_same (tracked : s.Tracked requestedHz)
    (pending : ∀ mark ∈ s'.pendingBreaks, mark.2.geometry.isSome →
      ∃ place, (place, mark.2) ∈ s.pendingBreaks)
    (center : s'.epochCenterHz = s.epochCenterHz) (rate : s'.epochRateHz = s.epochRateHz)
    (device : s'.linkDeviceRate = s.linkDeviceRate)
    (current : s'.currentSampleRate = s.currentSampleRate)
    (published : s'.publishedGeometry = s.publishedGeometry) : s'.Tracked requestedHz where
  epoch := rate ▸ tracked.epoch
  device := device ▸ tracked.device
  current := current ▸ tracked.current
  paired := by rw [center, rate]; exact tracked.paired
  pending := by
    intro mark member geometry told
    obtain ⟨place, before⟩ := pending mark member (by rw [told]; rfl)
    exact tracked.pending _ before geometry told
  published := published ▸ tracked.published

theorem mem_of_noteBreak {cause : StreamDiscontinuity} {mark : PendingBreak}
    (member : mark ∈ (s.noteBreak cause).pendingBreaks) :
    mark ∈ s.pendingBreaks ∨ mark.2 = cause := by
  unfold noteBreak at member
  split at member
  · exact Or.inl member
  · split at member
    · exact Or.inl member
    · cases List.mem_append.mp member with
      | inl before => exact Or.inl before
      | inr last => exact Or.inr (congrArg Prod.snd (List.mem_singleton.mp last))

theorem noteBreak_rates (s : HttpSource Sample) (cause : StreamDiscontinuity) :
    (s.noteBreak cause).linkDeviceRate = s.linkDeviceRate ∧
      (s.noteBreak cause).currentSampleRate = s.currentSampleRate := by
  unfold noteBreak
  split
  · exact ⟨rfl, rfl⟩
  · split <;> exact ⟨rfl, rfl⟩

theorem Tracked.gap (tracked : s.Tracked requestedHz) : (s.noteBreak .gap).Tracked requestedHz := by
  refine tracked.of_same ?_ (noteBreak_epoch s .gap).1 (noteBreak_epoch s .gap).2
    (noteBreak_rates s .gap).1 (noteBreak_rates s .gap).2 (noteBreak_keeps s .gap).publishedGeometry
  intro mark member told
  cases mem_of_noteBreak member with
  | inl before => exact ⟨mark.1, before⟩
  | inr last =>
      rw [last] at told
      cases told

theorem Tracked.unread (tracked : s.Tracked requestedHz)
    (pending : s'.pendingBreaks = s.pendingBreaks)
    (center : s'.epochCenterHz = s.epochCenterHz) (rate : s'.epochRateHz = s.epochRateHz)
    (device : s'.linkDeviceRate = s.linkDeviceRate)
    (current : s'.currentSampleRate = s.currentSampleRate)
    (published : s'.publishedGeometry = s.publishedGeometry) : s'.Tracked requestedHz :=
  tracked.of_same (fun mark member _ => ⟨mark.1, pending ▸ member⟩) center rate device current
    published

theorem Tracked.continuity (tracked : s.Tracked requestedHz) (metadata : PacketMetadata) :
    (s.noteContinuity metadata).Tracked requestedHz := by
  have seen : ∀ (detector : DropDetector) (gap : F64),
      ({ s with dropDetector := detector, streamGapSeconds := gap } :
        HttpSource Sample).Tracked requestedHz := fun _ _ => tracked.unread rfl rfl rfl rfl rfl rfl
  unfold noteContinuity
  dsimp only
  split
  · exact seen _ s.streamGapSeconds
  · exact (seen _ s.streamGapSeconds).gap
  · exact (seen _ _).gap

theorem Tracked.adopt (tracked : s.Tracked requestedHz) {config : StreamingSdrConfig}
    (held : config.sampleRateHz ≠ .inf false) : (s.adoptConfig config).Tracked requestedHz where
  epoch := tracked.epoch
  device := by
    intro rate told
    rw [adoptConfig] at told
    dsimp only at told
    split at told
    · rename_i usable
      obtain ⟨finite, positive⟩ := (Bool.and_eq_true _ _).mp usable
      cases told
      exact ⟨finite, of_decide_eq_true positive⟩
    · exact tracked.device rate told
  current := by
    rw [adoptConfig]
    dsimp only
    split
    · rename_i adopted
      refine Or.inr ⟨?_, adopted.1⟩
      cases rate : config.sampleRateHz with
      | finite value => rfl
      | inf negative =>
          cases negative with
          | false => exact absurd rate held
          | true =>
              rw [rate] at adopted
              exact absurd adopted.1 (by decide)
      | nan =>
          rw [rate] at adopted
          exact absurd adopted.1 (by decide)
    · exact tracked.current
  paired := tracked.paired
  pending := tracked.pending
  published := tracked.published

/-! ## Packets that the trackers can hold -/

/-- The packet's rate is not infinite, and where it is no number the geometry last
queued is there and its centre has not moved. -/
def Fits (s : HttpSource Sample) (packet : StreamPacket Sample) : Prop :=
  packet.sdrConfig.sampleRateHz ≠ .inf false ∧
    (packet.sdrConfig.sampleRateHz = .nan → s.breakSink = true →
      ∃ center rate, s.epochCenterHz = some center ∧ s.epochRateHz = some rate ∧
        ¬ centerChangeHz < (center - packet.sdrConfig.centerFrequencyHz).abs)

theorem rateMoved_nan (previous : F64) : rateMoved previous .nan = false := by
  cases previous with
  | finite | inf | nan => rfl

theorem rateMoved_inf {previous : ℚ} (positive : 0 < previous) :
    rateMoved (.finite previous) (.inf false) = true := by
  have sign : decide (previous < 0) = false := decide_eq_false (not_lt.mpr positive.le)
  have quotient : (F64.inf false - .finite previous).abs / .finite previous = .inf false :=
    congrArg (fun negative => F64.inf (false != negative)) sign
  rw [rateMoved, quotient]
  rfl

/-- A rate above zero that is neither infinite nor no number. -/
theorem positive_of_above {rate : F64} (above : ¬ rate ≤ 0) (finite : rate ≠ .inf false)
    (number : rate ≠ .nan) : rate.Positive := by
  cases rate with
  | finite value =>
      refine ⟨rfl, (F64.finite_lt _ _).mpr (not_le.mp fun small => above ?_)⟩
      exact (F64.finite_le _ _).mpr small
  | inf negative =>
      cases negative with
      | false => exact absurd rfl finite
      | true => exact absurd (by decide) above
  | nan => exact absurd rfl number

/-- A geometry queued with a finite positive rate. -/
theorem Tracked.queue (tracked : s.Tracked requestedHz) {cause : StreamDiscontinuity}
    {centerHz rateHz : F64} (tells : cause.geometry = some (centerHz, rateHz))
    (positive : rateHz.Positive) :
    ({ s.noteBreak cause with
        epochCenterHz := some centerHz, epochRateHz := some rateHz } :
      HttpSource Sample).Tracked requestedHz where
  epoch := by
    intro rate told
    cases told
    exact positive
  device := by
    intro rate told
    exact tracked.device rate ((noteBreak_rates s cause).1 ▸ told)
  current := by
    have same := (noteBreak_rates s cause).2
    exact same ▸ tracked.current
  paired := rfl
  pending := by
    intro mark member geometry told
    cases mem_of_noteBreak member with
    | inl before => exact tracked.pending mark before geometry told
    | inr last =>
        rw [last, tells] at told
        cases told
        exact positive
  published := by
    have same := (noteBreak_keeps s cause).publishedGeometry
    exact same ▸ tracked.published

theorem Tracked.geometry (tracked : s.Tracked requestedHz) {packet : StreamPacket Sample}
    (fits : s.Fits packet) : (s.noteGeometry packet).Tracked requestedHz := by
  obtain ⟨finite, number⟩ := fits
  unfold noteGeometry
  dsimp only
  split
  · exact tracked
  · rename_i asked
    have sink : s.breakSink = true := by
      cases on : s.breakSink with
      | true => rfl
      | false =>
          rw [on] at asked
          exact absurd rfl asked
    split
    · exact tracked
    · rename_i above
      split
      · rename_i epochCenter epochRate center rate
        split
        · exact tracked
        · rename_i moved
          refine tracked.queue rfl (positive_of_above above finite fun nan => ?_)
          obtain ⟨center', rate', centered, -, unmoved⟩ := number nan sink
          rw [center] at centered
          cases centered
          rw [nan, rateMoved_nan, decide_eq_false unmoved] at moved
          exact moved rfl
      · rename_i fresh
        refine tracked.queue rfl (positive_of_above above finite fun nan => ?_)
        obtain ⟨center, rate, centered, rated, -⟩ := number nan sink
        exact fresh center rate centered rated

theorem Tracked.trim (tracked : s.Tracked requestedHz) (discarded : Nat) :
    (s.noteTrim discarded).Tracked requestedHz := by
  unfold noteTrim
  split
  · exact tracked
  · refine tracked.of_same ?_ rfl rfl rfl rfl rfl
    intro mark member told
    cases List.mem_cons.mp member with
    | inl gap =>
        rw [gap] at told
        cases told
    | inr kept =>
        obtain ⟨place, before, -⟩ := Marks.mem_rebase.mp (List.mem_filter.mp kept).1
        exact ⟨place, before⟩

theorem Tracked.append (tracked : s.Tracked requestedHz) {samples : List Sample}
    (appended : s.appendSamples samples = some s') : s'.Tracked requestedHz := by
  rcases appendSamples_cases appended with rfl | ⟨overflow, counted, -, -, rfl⟩
  · exact tracked.unread rfl rfl rfl rfl rfl rfl
  · refine Tracked.trim ?_ overflow
    exact tracked.unread rfl rfl rfl rfl rfl rfl

theorem noteContinuity_rates (s : HttpSource Sample) (metadata : PacketMetadata) :
    (s.noteContinuity metadata).epochCenterHz = s.epochCenterHz ∧
      (s.noteContinuity metadata).epochRateHz = s.epochRateHz ∧
      (s.noteContinuity metadata).linkDeviceRate = s.linkDeviceRate ∧
      (s.noteContinuity metadata).currentSampleRate = s.currentSampleRate := by
  have noted : ∀ seen : HttpSource Sample,
      (seen.noteBreak .gap).epochCenterHz = seen.epochCenterHz ∧
        (seen.noteBreak .gap).epochRateHz = seen.epochRateHz ∧
        (seen.noteBreak .gap).linkDeviceRate = seen.linkDeviceRate ∧
        (seen.noteBreak .gap).currentSampleRate = seen.currentSampleRate := fun seen =>
    ⟨(noteBreak_epoch seen .gap).1, (noteBreak_epoch seen .gap).2, (noteBreak_rates seen .gap).1,
      (noteBreak_rates seen .gap).2⟩
  unfold noteContinuity
  dsimp only
  split
  · exact ⟨rfl, rfl, rfl, rfl⟩
  · exact noted _
  · exact noted _

theorem Tracked.item (tracked : s.Tracked requestedHz) {item : ParsedItem Sample}
    (fits : ∀ packet, item = .packet packet → packet.metadata.payload = .iq → s.Fits packet)
    (processed : s.processItem item = some s') : s'.Tracked requestedHz := by
  cases item with
  | lost error =>
      cases processed
      have counted : ∀ lost, ({ s with packetsLostToParseErrors := lost } :
          HttpSource Sample).Tracked requestedHz := fun _ => tracked.unread rfl rfl rfl rfl rfl rfl
      exact (counted _).gap.unread rfl rfl rfl rfl rfl rfl
  | skipped payload reason =>
      cases processed
      exact tracked.unread rfl rfl rfl rfl rfl rfl
  | packet packet =>
      by_cases iq : packet.metadata.payload = .iq
      · rw [processItem_iq iq] at processed
        have fit := fits packet rfl iq
        obtain ⟨center, rate, -, -⟩ := noteContinuity_rates s packet.metadata
        have asked := (noteContinuity_keeps s packet.metadata).breakSink
        have fit' : ((s.noteContinuity packet.metadata).adoptConfig packet.sdrConfig).Fits
            packet := by
          refine ⟨fit.1, fun nan sink => ?_⟩
          rw [adoptConfig, center, rate]
          exact fit.2 nan (asked ▸ sink)
        exact (((tracked.continuity packet.metadata).adopt fit.1).geometry fit').append processed
      · rw [processItem_other iq] at processed
        cases processed
        exact tracked.unread rfl rfl rfl rfl rfl rfl

theorem Tracked.cleanup (tracked : s.Tracked requestedHz) :
    s.cleanupStream.Tracked requestedHz := by
  have reset : ({ s with
      streamParser := s.streamParser.reset
      dropDetector := s.dropDetector.resync } : HttpSource Sample).Tracked requestedHz :=
    tracked.unread rfl rfl rfl rfl rfl rfl
  exact reset.gap

theorem Tracked.clear (tracked : s.Tracked requestedHz) :
    s.noteBufferCleared.Tracked requestedHz := by
  unfold noteBufferCleared
  split
  · exact tracked
  · constructor
    · constructor
      · intro rate told
        obtain ⟨geometry, reported, rfl⟩ := Option.map_eq_some_iff.mp told
        exact tracked.published geometry reported
      · exact tracked.device
      · exact tracked.current
    · dsimp only
      rw [Option.isSome_map, Option.isSome_map]
    · intro mark member geometry told
      rw [List.mem_singleton.mp member] at told
      cases told
    · exact tracked.published

theorem Tracked.restart (tracked : s.Tracked requestedHz) : s.restart.Tracked requestedHz := by
  have emptied : ({ s.cleanupStream with sampleBuffer := [] } :
      HttpSource Sample).Tracked requestedHz := tracked.cleanup.unread rfl rfl rfl rfl rfl rfl
  exact emptied.clear

/-- A merged geometry is one of those merged. -/
theorem announced_mem {causes : List StreamDiscontinuity} {merged : Option StreamDiscontinuity}
    {geometry : F64 × F64}
    (told : (causes.foldl mergeGeometry merged).bind StreamDiscontinuity.geometry = some geometry) :
    merged.bind StreamDiscontinuity.geometry = some geometry ∨
      ∃ cause ∈ causes, cause.geometry = some geometry := by
  induction causes generalizing merged with
  | nil => exact Or.inl told
  | cons cause causes ih =>
      cases ih told with
      | inl first =>
          rw [mergeGeometry_geometry] at first
          cases Option.or_eq_some_iff.mp first with
          | inl here => exact Or.inr ⟨cause, List.mem_cons_self, here⟩
          | inr before => exact Or.inl before.2
      | inr later =>
          obtain ⟨cause', member, here⟩ := later
          exact Or.inr ⟨cause', List.mem_cons_of_mem _ member, here⟩

/-- What publishing reports and holds back was pending or reported before. -/
theorem publishLoop_tells {Tells : F64 × F64 → Prop} (produced count : Nat)
    {pending : List PendingBreak} {published : Option (F64 × F64)}
    (queued : ∀ mark ∈ pending, ∀ geometry, mark.2.geometry = some geometry → Tells geometry)
    (reported : ∀ geometry, published = some geometry → Tells geometry) :
    (∀ mark ∈ (publishLoop produced count published pending).2.1, ∀ geometry,
        mark.2.geometry = some geometry → Tells geometry) ∧
      ∀ geometry, (publishLoop produced count published pending).2.2 = some geometry →
        Tells geometry := by
  induction pending using boundary_induction count generalizing published with
  | nil =>
      rw [publishLoop_nil]
      exact ⟨queued, reported⟩
  | held offset cause rest later =>
      rw [publishLoop_held later]
      exact ⟨queued, reported⟩
  | due offset cause rest due ih =>
      rw [publishLoop_due due]
      refine ih (fun mark member => ?_) (fun geometry told => ?_)
      · exact queued mark (List.mem_cons_of_mem _ ((List.dropWhile_sublist _).subset member))
      · cases Option.or_eq_some_iff.mp told with
        | inr before => exact reported geometry before.2
        | inl merged =>
            cases announced_mem merged with
            | inl nothing => cases nothing
            | inr among =>
                obtain ⟨cause', member, here⟩ := among
                cases List.mem_cons.mp member with
                | inl same => exact queued _ List.mem_cons_self geometry (same ▸ here)
                | inr later =>
                    obtain ⟨mark, taken, rfl⟩ := List.mem_map.mp later
                    exact queued mark (List.mem_cons_of_mem _
                      ((List.takeWhile_sublist _).subset taken)) geometry here

theorem Tracked.produce (tracked : s.Tracked requestedHz) (room : Nat) :
    (s.produce room).1.Tracked requestedHz := by
  unfold HttpSource.produce publishBreaks
  dsimp only
  split
  · exact tracked.unread rfl rfl rfl rfl rfl rfl
  · obtain ⟨held, reported⟩ := publishLoop_tells s.produced (min s.sampleBuffer.length room)
      tracked.pending tracked.published
    refine ⟨⟨tracked.epoch, tracked.device, tracked.current⟩, tracked.paired, ?_, reported⟩
    intro mark member geometry told
    obtain ⟨place, before, -⟩ := Marks.mem_rebase.mp member
    exact held _ before geometry told

end HttpSource

/-! ## Runs -/

/-- What the block does, one parsed item or one end of a sweep at a time. -/
inductive MeterAction (Sample : Type) where
  | learn (parser : StreamParser) (chunkBytes outputItems : Nat)
  | item (item : ParsedItem Sample)
  | endSweep (iqSamples : Nat) (channelWasFull : Bool)
  | start
  | cleanup
  | restart
  | produce (room : Nat)

namespace MeteredSource

open HttpSource

variable {Sample : Type} (clock : Clock)

/-- One action; `none` where the buffer panics. -/
def act (m : MeteredSource Sample) : MeterAction Sample → Option (MeteredSource Sample)
  | .learn parser chunkBytes outputItems =>
      some { m with source := { m.source with
        streamParser := parser, maxChunkBytes := chunkBytes, downstreamCapacity := outputItems } }
  | .item item => m.processItem clock item
  | .endSweep iqSamples channelWasFull =>
      some (((m.observeSweep clock iqSamples).noteFullChannel clock
        channelWasFull).reportLinkBudget clock).1
  | .start => some (m.startStream clock)
  | .cleanup => some m.cleanupStream
  | .restart => some m.restart
  | .produce room => some { m with source := (m.source.produce room).1 }

def run (m : MeteredSource Sample) : List (MeterAction Sample) → Option (MeteredSource Sample)
  | [] => some m
  | action :: actions => (m.act clock action).bind fun next => next.run actions

theorem run_append (m : MeteredSource Sample) (first second : List (MeterAction Sample)) :
    m.run clock (first ++ second) = (m.run clock first).bind fun next => next.run clock second := by
  induction first generalizing m with
  | nil => rfl
  | cons action first ih =>
      rw [List.cons_append, run, run]
      cases m.act clock action with
      | none => rfl
      | some next => exact ih next

/-! Every sweep is a run of actions. -/

theorem processItems_run (m : MeteredSource Sample) (items : List (ParsedItem Sample)) :
    m.processItems clock items = m.run clock (items.map .item) := by
  induction items generalizing m with
  | nil => rfl
  | cons item items ih =>
      rw [processItems, List.map_cons, run]
      exact congrArg _ (funext fun next => ih next)

theorem run_trans {m mid next : MeteredSource Sample}
    (first : ∃ actions, m.run clock actions = some mid)
    (second : ∃ actions, mid.run clock actions = some next) :
    ∃ actions, m.run clock actions = some next := by
  obtain ⟨actions, ran⟩ := first
  obtain ⟨actions', ran'⟩ := second
  refine ⟨actions ++ actions', ?_⟩
  rw [run_append, ran]
  exact ran'

theorem learn_run (m : MeteredSource Sample) (parser : StreamParser) (chunkBytes : Nat) :
    ∃ actions, m.run clock actions = some { m with source := { m.source with
      streamParser := parser, maxChunkBytes := chunkBytes } } :=
  ⟨[.learn parser chunkBytes m.source.downstreamCapacity], rfl⟩

theorem processAdvancedStreamData_run {Value : Type} (codec : WireCodec Value Sample)
    {m next : MeteredSource Sample} {data : Bytes}
    {outcome : Except Error (List (ParsedItem Sample))}
    (processed : m.processAdvancedStreamData clock codec data = some (next, outcome)) :
    ∃ actions, m.run clock actions = some next := by
  rw [processAdvancedStreamData] at processed
  dsimp only at processed
  have learned := learn_run clock m (m.source.streamParser.processDataRecovering codec data).1
    m.source.maxChunkBytes
  split at processed
  · cases processed
    exact learned
  · obtain ⟨last, ran, same⟩ := Option.map_eq_some_iff.mp processed
    cases same
    rw [processItems_run] at ran
    exact run_trans clock learned ⟨_, ran⟩

theorem parseChunks_run {Value : Type} (codec : WireCodec Value Sample)
    {m next : MeteredSource Sample} {chunks : List Bytes} {parseError : Option Error}
    {items : List (ParsedItem Sample)}
    (parsed : m.parseChunks clock codec chunks = some (next, parseError, items)) :
    ∃ actions, m.run clock actions = some next := by
  induction chunks generalizing m next parseError items with
  | nil =>
      cases parsed
      exact ⟨[], rfl⟩
  | cons chunk chunks ih =>
      obtain ⟨⟨mid, outcome⟩, processed, rest⟩ := Option.bind_eq_some_iff.mp parsed
      have ran := processAdvancedStreamData_run clock codec processed
      cases outcome with
      | error e =>
          cases rest
          exact ran
      | ok items =>
          obtain ⟨⟨last, parseError', more⟩, onward, same⟩ := Option.map_eq_some_iff.mp rest
          cases same
          exact run_trans clock ran (ih onward)

theorem sweepChunks_run {Value : Type} (codec : WireCodec Value Sample)
    {m : MeteredSource Sample} {chunks : List Bytes} {swept : Swept Sample}
    (done : m.sweepChunks clock codec chunks = some swept) :
    ∃ actions, m.run clock actions = some swept.source := by
  obtain ⟨⟨parsed, parseError, items⟩, through, rfl⟩ := Option.map_eq_some_iff.mp done
  have widened := learn_run clock m m.source.streamParser
    ((chunks.map List.length).foldl max m.source.maxChunkBytes)
  exact run_trans clock widened (run_trans clock (parseChunks_run clock codec through)
    ⟨[.endSweep (iqSamples items) (decide (chunkChannelDepth ≤ chunks.length))], rfl⟩)

/-- Only items, starts of a stream and the like touch the source; a sweep's end does not. -/
theorem endSweep_source (m : MeteredSource Sample) (iqSamples : Nat) (channelWasFull : Bool) :
    (((m.observeSweep clock iqSamples).noteFullChannel clock
      channelWasFull).reportLinkBudget clock).1.source = m.source := by
  have observed : (m.observeSweep clock iqSamples).source = m.source := by
    unfold observeSweep
    split <;> rfl
  have marked : ∀ m : MeteredSource Sample,
      (m.noteFullChannel clock channelWasFull).source = m.source := by
    intro m
    unfold noteFullChannel
    split
    · split <;> rfl
    · rfl
  have reported : ∀ m : MeteredSource Sample, (m.reportLinkBudget clock).1.source = m.source := by
    intro m
    unfold reportLinkBudget
    split
    · split
      · rfl
      · split
        · rfl
        · dsimp only
          split <;> rfl
    · rfl
  rw [reported, marked, observed]

theorem startStream_source (m : MeteredSource Sample) :
    (m.startStream clock).source = m.source := by
  unfold startStream
  split
  · rfl
  · split <;> rfl

variable {requestedHz : F64} {m next : MeteredSource Sample}

theorem act_tracked {action : MeterAction Sample} (tracked : m.source.Tracked requestedHz)
    (fits : ∀ packet, action = .item (.packet packet) → packet.metadata.payload = .iq →
      m.source.Fits packet) (acted : m.act clock action = some next) :
    next.source.Tracked requestedHz := by
  cases action with
  | learn parser chunkBytes outputItems =>
      cases acted
      exact tracked.unread rfl rfl rfl rfl rfl rfl
  | item item =>
      obtain ⟨source, processed, rfl⟩ := Option.map_eq_some_iff.mp acted
      exact tracked.item (fun packet same => fits packet (congrArg MeterAction.item same)) processed
  | endSweep iqSamples channelWasFull =>
      cases acted
      rw [endSweep_source]
      exact tracked
  | start =>
      cases acted
      rw [startStream_source]
      exact tracked
  | cleanup =>
      cases acted
      exact tracked.cleanup
  | restart =>
      cases acted
      exact tracked.restart
  | produce room =>
      cases acted
      exact tracked.produce room

/-! ## Recognising a change -/

/-- A rate away from the baseline by more than the band. -/
def Differs : F64 → ℚ → Prop
  | .finite baseline, rate => baseline / 10 < |rate - baseline|
  | .inf _, _ | .nan, _ => True

/-- A packet whose rate differs from a baseline that a packet has set is taken for a
change: a retune is queued, the rate is adopted, the check re-arms. -/
structure Recognises (m : MeteredSource Sample) (requestedHz : F64) (packet : StreamPacket Sample)
    (rate : ℚ) : Prop where
  retune : m.source.breakSink = true → ∀ baseline, m.source.epochRateHz = some baseline →
    Differs baseline rate →
      (m.source.sampleBuffer.length, .retune packet.sdrConfig.centerFrequencyHz (.finite rate)) ∈
        (m.source.notePacket packet).pendingBreaks
  adopted : m.source.currentSampleRate ≠ requestedHz ∨ requestedHz.isFinite = true →
    Differs m.source.currentSampleRate rate →
      (m.source.notePacket packet).currentSampleRate = .finite rate
  rearmed : ∀ baseline, m.source.linkDeviceRate = some baseline → Differs baseline rate →
    m.linkCheck.rearms = true →
      (m.noteItem clock (.packet packet)).linkCheck = .armedAt (clock.reading m.readings)

/-- The trackers hold finite positive rates and recognise every change. -/
structure Tracks (m : MeteredSource Sample) (requestedHz : F64) : Prop where
  sound : m.source.BaselinesSound requestedHz
  recognises : ∀ packet rate, packet.metadata.payload = .iq →
    packet.sdrConfig.sampleRateHz = .finite rate → 0 < rate →
      m.Recognises clock requestedHz packet rate

theorem rateMoved_differs {baseline rate : ℚ} (positive : 0 < baseline)
    (differs : Differs (.finite baseline) rate) :
    rateMoved (.finite baseline) (.finite rate) = true := by
  rw [rateMoved_finite _ _ positive, decide_eq_true_eq, lt_div_iff₀ positive]
  have band : baseline / 10 < |rate - baseline| := differs
  linarith

theorem notePacket_currentSampleRate (s : HttpSource Sample) (packet : StreamPacket Sample) :
    (s.notePacket packet).currentSampleRate =
      ((s.noteContinuity packet.metadata).adoptConfig packet.sdrConfig).currentSampleRate := by
  unfold notePacket noteGeometry
  dsimp only
  split
  · rfl
  · split
    · rfl
    · split
      · split
        · rfl
        · exact (noteBreak_rates _ _).2
      · exact (noteBreak_rates _ _).2

variable {packet : StreamPacket Sample} {rate : ℚ}

theorem noteGeometry_moved {s : HttpSource Sample} (sink : s.breakSink = true)
    (iq : packet.metadata.payload = .iq) (rated : packet.sdrConfig.sampleRateHz = .finite rate)
    (positive : 0 < rate) {center baseline : F64} (centered : s.epochCenterHz = some center)
    (based : s.epochRateHz = some baseline) (moved : rateMoved baseline (.finite rate) = true) :
    (s.noteGeometry packet).pendingBreaks =
      (s.noteBreak (.retune packet.sdrConfig.centerFrequencyHz (.finite rate))).pendingBreaks := by
  have above : ¬ (F64.finite rate ≤ 0) := fun small =>
    absurd ((F64.finite_le _ _).mp small) (not_le.mpr positive)
  unfold noteGeometry
  simp only [sink, iq, rated, above, centered, based, moved, Bool.not_true, bne_self_eq_false,
    Bool.or_self, Bool.false_eq_true, if_false, Bool.and_false]

theorem retune_queued {s : HttpSource Sample} (sink : s.breakSink = true)
    (iq : packet.metadata.payload = .iq) (rated : packet.sdrConfig.sampleRateHz = .finite rate)
    (positive : 0 < rate) {center baseline : F64} (centered : s.epochCenterHz = some center)
    (based : s.epochRateHz = some baseline) (moved : rateMoved baseline (.finite rate) = true) :
    (s.sampleBuffer.length, .retune packet.sdrConfig.centerFrequencyHz (.finite rate)) ∈
      (s.notePacket packet).pendingBreaks := by
  have keeps := noteContinuity_keeps s packet.metadata
  obtain ⟨sameCenter, sameRate, -, -⟩ := noteContinuity_rates s packet.metadata
  have asked : ((s.noteContinuity packet.metadata).adoptConfig packet.sdrConfig).breakSink = true :=
    keeps.breakSink.trans sink
  rw [notePacket, noteGeometry_moved asked iq rated positive (sameCenter.trans centered)
    (sameRate.trans based) moved, mem_noteBreak asked]
  exact Or.inr (congrArg (fun buffer : List Sample => (buffer.length, _)) keeps.sampleBuffer.symm)

theorem recognises_of_tracked (tracked : m.source.Tracked requestedHz)
    (iq : packet.metadata.payload = .iq) (rated : packet.sdrConfig.sampleRateHz = .finite rate)
    (positive : 0 < rate) : m.Recognises clock requestedHz packet rate where
  retune := by
    intro sink baseline based differs
    obtain ⟨value, above, rfl⟩ := (tracked.epoch baseline based).value
    have paired := tracked.paired
    rw [based] at paired
    obtain ⟨center, centered⟩ := Option.isSome_iff_exists.mp paired
    exact retune_queued sink iq rated positive centered based (rateMoved_differs above differs)
  adopted := by
    intro setByPacket differs
    have finite : ∃ value, m.source.currentSampleRate = .finite value := by
      cases tracked.current with
      | inl requested =>
          cases setByPacket with
          | inl other => exact absurd requested other
          | inr finite => exact requested ▸ (F64.isFinite_iff _).mp finite
      | inr sound => exact (F64.isFinite_iff _).mp sound.1
    obtain ⟨value, current⟩ := finite
    rw [notePacket_currentSampleRate, adoptConfig]
    dsimp only
    obtain ⟨-, -, -, same⟩ := noteContinuity_rates m.source packet.metadata
    rw [current] at differs
    rw [rated, same, current]
    refine if_pos ⟨(F64.finite_lt _ _).mpr positive, ?_⟩
    by_cases above : 0 < value
    · exact Or.inr (rateMoved_differs above differs)
    · exact Or.inl ((F64.finite_le _ _).mpr (not_lt.mp above))
  rearmed := by
    intro baseline based differs running
    obtain ⟨value, above, rfl⟩ := (tracked.device baseline based).value
    have usable : (!(F64.finite rate).isFinite || decide (F64.finite rate ≤ 0)) = false :=
      decide_eq_false fun small => absurd ((F64.finite_le _ _).mp small) (not_le.mpr positive)
    rw [noteItem, if_pos iq, rated, noteDeviceRate, usable]
    simp only [Bool.false_eq_true, if_false, based, Option.any_some,
      rateMoved_differs above differs, running, Bool.and_self, if_true]
    rfl

theorem tracks_of_tracked (tracked : m.source.Tracked requestedHz) : m.Tracks clock requestedHz :=
  ⟨tracked.toBaselinesSound, fun _ _ iq rated positive =>
    recognises_of_tracked clock tracked iq rated positive⟩

theorem tracked_new (format : StreamFormat) (bufferSize : Nat) (scale : Option F64)
    (centerHz : F64) (breakSink : Bool) :
    (HttpSource.new format bufferSize scale centerHz requestedHz breakSink :
      HttpSource Sample).Tracked requestedHz where
  epoch := by
    intro rate told
    cases told
  device := by
    intro rate told
    cases told
  current := Or.inl rfl
  paired := rfl
  pending := fun _ member => absurd member List.not_mem_nil
  published := by
    intro geometry told
    cases told

/-! ## Packets that the trackers cannot hold -/

theorem appendSamples_rates {s s' : HttpSource Sample} {samples : List Sample}
    (appended : s.appendSamples samples = some s') :
    s'.epochRateHz = s.epochRateHz ∧ s'.currentSampleRate = s.currentSampleRate := by
  rcases appendSamples_cases appended with rfl | ⟨overflow, counted, -, -, rfl⟩
  · exact ⟨rfl, rfl⟩
  · refine ⟨(noteTrim_epoch _ _).2, ?_⟩
    unfold noteTrim
    split <;> rfl

/-- An infinite rate is adopted over every finite one. -/
theorem adoptConfig_inf {s : HttpSource Sample} {value : ℚ}
    (current : s.currentSampleRate = .finite value) {config : StreamingSdrConfig}
    (infinite : config.sampleRateHz = .inf false) :
    (s.adoptConfig config).currentSampleRate = .inf false := by
  rw [adoptConfig]
  dsimp only
  rw [infinite, current]
  refine if_pos ⟨by decide, ?_⟩
  by_cases above : 0 < value
  · exact Or.inr (rateMoved_inf above)
  · exact Or.inl ((F64.finite_le _ _).mpr (not_lt.mp above))

/-- A rate that is no number is queued, unless the geometry stands. -/
theorem noteGeometry_nan {s : HttpSource Sample} (sink : s.breakSink = true)
    (iq : packet.metadata.payload = .iq) (nan : packet.sdrConfig.sampleRateHz = .nan)
    (fresh : ¬ ∃ center rate, s.epochCenterHz = some center ∧ s.epochRateHz = some rate ∧
      ¬ centerChangeHz < (center - packet.sdrConfig.centerFrequencyHz).abs) :
    (s.noteGeometry packet).epochRateHz = some .nan := by
  unfold noteGeometry
  dsimp only
  have asked : ¬ (!s.breakSink || packet.metadata.payload != .iq) = true := by
    rw [sink, iq]
    decide
  have above : ¬ (F64.nan ≤ 0) := by decide
  rw [if_neg asked, nan, if_neg above]
  split
  · rename_i center rate centered rated
    split
    · rename_i unmoved
      rw [Bool.and_eq_true, Bool.not_eq_true', decide_eq_false_iff_not] at unmoved
      exact absurd ⟨center, rate, centered, rated, unmoved.1⟩ fresh
    · rfl
  · rfl

/-- A packet that does not fit leaves a baseline that is not finite and positive. -/
theorem not_sound_of_not_fits (sound : m.source.BaselinesSound requestedHz)
    (finite : requestedHz.isFinite = true) (iq : packet.metadata.payload = .iq)
    (misfit : ¬ m.source.Fits packet) (acted : m.act clock (.item (.packet packet)) = some next) :
    ¬ next.source.BaselinesSound requestedHz := by
  intro sound'
  obtain ⟨source, processed, rfl⟩ := Option.map_eq_some_iff.mp acted
  rw [processItem_iq iq] at processed
  obtain ⟨epoch, current⟩ := appendSamples_rates processed
  obtain ⟨center, rate, -, same⟩ := noteContinuity_rates m.source packet.metadata
  by_cases infinite : packet.sdrConfig.sampleRateHz = .inf false
  · have held : ∃ value, m.source.currentSampleRate = .finite value := by
      cases sound.current with
      | inl requested => exact requested ▸ (F64.isFinite_iff _).mp finite
      | inr positive => exact (F64.isFinite_iff _).mp positive.1
    obtain ⟨value, before⟩ := held
    have adopted : source.currentSampleRate = .inf false := by
      rw [current, notePacket_currentSampleRate]
      exact adoptConfig_inf (same.trans before) infinite
    cases sound'.current with
    | inl requested =>
        rw [← requested, adopted] at finite
        cases finite
    | inr positive =>
        rw [adopted] at positive
        cases positive.1
  · have unnumbered : packet.sdrConfig.sampleRateHz = .nan ∧ m.source.breakSink = true ∧
        ¬ ∃ center rate, m.source.epochCenterHz = some center ∧ m.source.epochRateHz = some rate ∧
          ¬ centerChangeHz < (center - packet.sdrConfig.centerFrequencyHz).abs := by
      by_contra otherwise
      refine misfit ⟨infinite, fun nan sink => ?_⟩
      by_contra fresh
      exact otherwise ⟨nan, sink, fresh⟩
    obtain ⟨nan, sink, fresh⟩ := unnumbered
    have asked : ((m.source.noteContinuity packet.metadata).adoptConfig
        packet.sdrConfig).breakSink = true :=
      (noteContinuity_keeps m.source packet.metadata).breakSink.trans sink
    rw [← center, ← rate] at fresh
    have stored : source.epochRateHz = some .nan :=
      epoch.trans (noteGeometry_nan asked iq nan fresh)
    cases (sound'.epoch .nan stored).1

/-! ## Every sequence of packets -/

theorem run_tracked {actions : List (MeterAction Sample)}
    (tracked : m.source.Tracked requestedHz)
    (fits : ∀ before packet after mid, actions = before ++ .item (.packet packet) :: after →
      m.run clock before = some mid → packet.metadata.payload = .iq → mid.source.Fits packet)
    (ran : m.run clock actions = some next) : next.source.Tracked requestedHz := by
  induction actions generalizing m with
  | nil =>
      cases ran
      exact tracked
  | cons action actions ih =>
      obtain ⟨mid, acted, rest⟩ := Option.bind_eq_some_iff.mp ran
      refine ih (act_tracked clock tracked ?_ acted) ?_ rest
      · rintro packet rfl iq
        exact fits [] packet actions m rfl rfl iq
      · rintro before packet after mid' rfl reached iq
        refine fits (action :: before) packet after mid' rfl ?_ iq
        rw [run, acted]
        exact reached

/-- **One packet with an infinite rate silences the comparisons.**  Along every run the
baselines that packets have set are finite and positive, and every change is recognised,
as long as each IQ packet fits; and, from a request with a finite rate, only as long. -/
theorem rateTrackers_track_iff (format : StreamFormat) (bufferSize : Nat) (scale : Option F64)
    (centerHz requestedHz : F64) (breakSink : Bool) (rateReduction : Option Nat)
    (actions : List (MeterAction Sample)) (m : MeteredSource Sample)
    (ran : (new (.new format bufferSize scale centerHz requestedHz breakSink)
      rateReduction).run clock actions = some m) :
    let start : MeteredSource Sample :=
      new (.new format bufferSize scale centerHz requestedHz breakSink) rateReduction
    let Tracking := ∀ before after mid, actions = before ++ after →
      start.run clock before = some mid → mid.Tracks clock requestedHz
    let Fitting := ∀ before packet after mid, actions = before ++ .item (.packet packet) :: after →
      start.run clock before = some mid → packet.metadata.payload = .iq → mid.source.Fits packet
    (Fitting → Tracking) ∧ (requestedHz.isFinite = true → Tracking → Fitting) := by
  intro start Tracking Fitting
  constructor
  · intro fits before after mid split reached
    refine tracks_of_tracked clock (run_tracked clock (tracked_new _ _ _ _ _) ?_ reached)
    rintro first packet rest mid' rfl reached' iq
    refine fits first packet (rest ++ after) mid' ?_ reached' iq
    rw [split, List.append_assoc, List.cons_append]
  · intro finite tracks before packet after mid split reached iq
    by_contra misfit
    rw [split, run_append, reached, Option.bind_some] at ran
    obtain ⟨next, acted, rest⟩ := Option.bind_eq_some_iff.mp ran
    have reached' : start.run clock (before ++ [.item (.packet packet)]) = some next := by
      rw [run_append, reached, Option.bind_some, run, acted]
      rfl
    have sound := (tracks before _ mid split reached).sound
    have sound' := (tracks (before ++ [.item (.packet packet)]) after next
      (by rw [split, List.append_assoc, List.singleton_append]) reached').sound
    exact not_sound_of_not_fits clock sound finite iq misfit acted sound'

/-- What the doubles make of an exact quotient: past the largest of them, an infinity. -/
def overflowed : F64 → F64
  | .finite value =>
      if 2 ^ 1024 - 2 ^ 970 ≤ |value| then .inf (decide (value < 0)) else .finite value
  | other => other

/-- An IQ packet of one sample whose header gives this duration and no rate. -/
def derivedPacket (duration : ℚ) : StreamPacket Nat :=
  let metadata : PacketMetadata :=
    { startTime := 0
      endTime := .finite duration
      startFrequency := .finite 99500000
      endFrequency := .finite 100500000
      samples := 1
      payload := .iq
      sampleSize := 2 }
  let config := StreamingSdrConfig.fromMetadata metadata
  ⟨metadata, [0], { config with sampleRateHz := overflowed config.sampleRateHz }⟩

/-- A clock that goes on by a nanosecond a reading. -/
def tickingClock : Clock := ⟨id, monotone_id⟩

def fromOneMegahertz : MeteredSource Nat := new (.new .int16 1 none 0 (.finite 1000000) true) none

theorem rateTrackers_track_iff_derived :
    ∃ m, fromOneMegahertz.run tickingClock
        [.item (.packet (derivedPacket 1)), .item (.packet (derivedPacket (1 / 2)))] = some m ∧
      m.Tracks tickingClock (.finite 1000000) := by
  have ran : (fromOneMegahertz.run tickingClock
      [.item (.packet (derivedPacket 1)), .item (.packet (derivedPacket (1 / 2)))]).isSome := by
    decide +kernel
  obtain ⟨m, reached⟩ := Option.isSome_iff_exists.mp ran
  refine ⟨m, reached, (rateTrackers_track_iff tickingClock _ _ _ _ _ _ _ _ m reached).1 ?_ _ []
    m (List.append_nil _).symm reached⟩
  intro before packet after mid split _ _
  have member : .item (.packet packet) ∈ [MeterAction.item (.packet (derivedPacket 1)),
      .item (.packet (derivedPacket (1 / 2)))] := by
    rw [split]
    exact List.mem_append_right _ List.mem_cons_self
  have rated : packet.sdrConfig.sampleRateHz = .finite 1 ∨
      packet.sdrConfig.sampleRateHz = .finite 2 := by
    simp only [List.mem_cons, MeterAction.item.injEq, ParsedItem.packet.injEq, List.not_mem_nil,
      or_false] at member
    rcases member with rfl | rfl
    · exact Or.inl (by decide +kernel)
    · exact Or.inr (by decide +kernel)
  constructor
  · rcases rated with rated | rated <;> exact fun infinite => by cases rated.symm.trans infinite
  · rcases rated with rated | rated <;> exact fun nan => by cases rated.symm.trans nan

/-- Behind a packet whose rate overflows, neither the rate adopted nor the rate announced
is finite. -/
theorem derivedPacket_silences :
    ¬ ∀ (actions : List (MeterAction Nat)) (m : MeteredSource Nat),
      fromOneMegahertz.run tickingClock actions = some m →
        m.Tracks tickingClock (.finite 1000000) := by
  intro tracks
  have outcome : (fromOneMegahertz.run tickingClock
      [.item (.packet (derivedPacket (1 / (2 ^ 1040 : Nat))))]).map
        (fun m => (m.source.currentSampleRate, m.source.epochRateHz)) =
      some (.inf false, some (.inf false)) := by
    decide +kernel
  obtain ⟨m, reached, kept⟩ := Option.map_eq_some_iff.mp outcome
  have sound := (tracks _ m reached).sound.epoch (.inf false) (Prod.mk.inj kept).2
  cases sound.1

end MeteredSource

end SdrAaronia
