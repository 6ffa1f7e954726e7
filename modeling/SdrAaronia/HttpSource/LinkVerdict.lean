import SdrAaronia.HttpSource.LinkRates
import SdrAaronia.HttpSource.LinkWindow
import SdrAaronia.HttpStreaming.Chunking

/-! # What a link verdict was measured on

A run keeps, next to the source, the sweeps it made, those that the meter has counted
since its mark, and every verdict published with the sweeps it counts.
-/

namespace SdrAaronia

open HttpStreaming HttpSource

/-- A verdict, the sweeps made up to the one that closed its window, and those counted. -/
structure Published where
  verdict : LinkBudgetVerdict
  sweeps : List Sweep
  counted : List Sweep

namespace Published

/-- The verdict counts the bytes of the sweeps between its mark and its close, none of
which found the channel full. -/
structure Measured (published : Published) : Prop where
  rated : published.verdict.sampleRateHz.Positive
  bytes : published.verdict.measured.bytes = Sweep.totalBytes published.counted
  between : ∃ earlier marking closing mark last,
    published.sweeps = earlier ++ marking :: published.counted ++ [closing] ∧
      marking.toldAt = some mark ∧ (∃ sweep ∈ published.counted, sweep.toldAt = some last) ∧
      published.verdict.measured.window = last - mark ∧
      ∀ sweep ∈ marking :: published.counted, sweep.channelWasFull = false

/-- The verdict belongs to one configuration: every packet that brought it bytes had its
rate, up to the band. -/
structure Belongs (published : Published) : Prop extends published.Measured where
  rates : ∀ sweep ∈ published.counted, ∀ packet ∈ sweep.packets, 0 < packet.2 →
    rateMoved published.verdict.sampleRateHz packet.1 = false

end Published

namespace MeteredSource

variable {Sample : Type} (clock : Clock)

/-- A marked meter. -/
def counting (m : MeteredSource Sample) : Bool :=
  match m.linkCheck with
  | .measuring meter => meter.mark.isSome
  | .unmeasured | .done _ => false

/-- A sweep now would be past the window, which holds a usable measurement. -/
def verdictDue (m : MeteredSource Sample) : Bool :=
  match m.linkCheck with
  | .measuring meter =>
      meter.mark.any (fun mark => decide (meter.window ≤ clock.reading m.readings - mark)) &&
        m.source.streamFormat.iqBytesPerSample.isSome && !meter.consumerLimited &&
        { meter with closed := true }.finish.isSome
  | .unmeasured | .done _ => false

def Swept.sweep (swept : Swept Sample) : Sweep where
  packets := iqPackets swept.items
  told := swept.told
  channelWasFull := swept.channelWasFull

end MeteredSource

structure LinkRun (Sample : Type) where
  metered : MeteredSource Sample
  sweeps : List Sweep
  /-- Those behind the meter's mark. -/
  counted : List Sweep
  published : List Published

/-- What the block does, one fetch at a time. -/
inductive LinkAction where
  | fetch (wait : Bool) (fetch : Fetch)
  | learn (outputItems : Nat)
  | start
  | cleanup
  | restart
  | produce (room : Nat)

namespace LinkRun

variable {Value Sample : Type} (clock : Clock) (codec : WireCodec Value Sample)

def new (metered : MeteredSource Sample) : LinkRun Sample := ⟨metered, [], [], []⟩

/-- A sweep's end, written down. -/
def afterSweep (run : LinkRun Sample) (swept : MeteredSource.Swept Sample) : LinkRun Sample where
  metered := swept.source
  sweeps := run.sweeps ++ [swept.sweep]
  counted :=
    if run.metered.counting &&
        !movesIn run.metered.source.linkDeviceRate (iqPackets swept.items) then
      run.counted ++ [swept.sweep]
    else []
  published := run.published ++ (swept.verdict.map fun verdict =>
    ⟨verdict, run.sweeps ++ [swept.sweep], run.counted⟩).toList

def act (run : LinkRun Sample) : LinkAction → Option (LinkRun Sample)
  | .fetch wait fetch =>
      (run.metered.fetchSamples clock codec wait fetch).map fun
        | .refused metered _ => { run with metered }
        | .swept swept => run.afterSweep swept
  | .learn outputItems =>
      some { run with metered := { run.metered with
        source := { run.metered.source with downstreamCapacity := outputItems } } }
  | .start => some { run with metered := run.metered.startStream clock }
  | .cleanup => some { run with metered := run.metered.cleanupStream }
  | .restart => some { run with metered := run.metered.restart }
  | .produce room =>
      some { run with metered := { run.metered with
        source := (run.metered.source.produce room).1 } }

/-- A list of actions; `none` where the buffer panics. -/
def actAll (run : LinkRun Sample) : List LinkAction → Option (LinkRun Sample)
  | [] => some run
  | action :: actions => (run.act clock codec action).bind fun next => next.actAll actions

/-- Where a verdict is due, and no packet clears the band against the packet before it,
the last packet does not clear it against those counted. -/
def Steady (run : LinkRun Sample) (packets : List (F64 × Nat)) : Prop :=
  run.metered.verdictDue clock = true → 0 < (packets.map Prod.snd).sum →
    movesIn run.metered.source.linkDeviceRate packets = false →
      ∀ last ∈ packets.getLast?, ∀ sweep ∈ run.counted, ∀ packet ∈ sweep.packets,
        0 < packet.2 → rateMoved last.1 packet.1 = false

/-- The sweep of this action, if it makes one, is steady. -/
def Steadied (run : LinkRun Sample) (action : LinkAction) : Prop :=
  ∀ wait fetch swept, action = .fetch wait fetch →
    run.metered.fetchSamples clock codec wait fetch = some (.swept swept) →
      run.Steady clock (iqPackets swept.items)

end LinkRun

/-! ## The end of a sweep -/

theorem LinkBudgetVerdict.judge_isSome {rate tolerance : F64} {format : StreamFormat}
    (positive : rate.Positive) (wide : format.iqBytesPerSample.isSome = true)
    (measured : ThroughputMeasurement) : (judge rate format measured tolerance).isSome = true := by
  obtain ⟨width, same⟩ := Option.isSome_iff_exists.mp wide
  obtain ⟨value, above, rfl⟩ := positive.value
  have usable : (!(F64.finite value).isFinite || decide (F64.finite value ≤ 0)) = false :=
    decide_eq_false fun small => absurd ((F64.finite_le _ _).mp small) (not_le.mpr above)
  rw [judge, same, Option.bind_some, requiredByteRateForFormat, usable, same]
  rfl

namespace MeteredSource

variable {Value Sample : Type} {clock : Clock} {m : MeteredSource Sample} {meter : ThroughputMeter}

theorem told_reading {iqSamples instant bytes : Nat}
    (told : m.told clock iqSamples = some (instant, bytes)) :
    instant = clock.reading m.readings ∧ 0 < iqSamples ∧
      m.source.streamFormat.iqBytesPerSample.isSome = true := by
  rw [MeteredSource.told] at told
  split at told
  · rename_i wide
    obtain ⟨some', same⟩ := Option.ite_none_right_eq_some.mp told
    cases same
    exact ⟨rfl, some', by rw [wide]; rfl⟩
  · cases told

theorem told_some (measuring : m.linkCheck = .measuring meter)
    (wide : m.source.streamFormat.iqBytesPerSample.isSome = true) {iqSamples : Nat}
    (brought : 0 < iqSamples) :
    (m.told clock iqSamples).map Prod.fst = some (clock.reading m.readings) := by
  obtain ⟨width, same⟩ := Option.isSome_iff_exists.mp wide
  rw [MeteredSource.told, measuring, same]
  simp only [if_pos brought, Option.map_some]

theorem fed (clock : Clock) (measuring : m.linkCheck = .measuring meter)
    (packets : List (F64 × Nat))
    (iqSamples : Nat) (full : Bool) :
    ∃ limitedAt readings,
      (m.observeSweep clock iqSamples).noteFullChannel clock full =
        { m with
          linkCheck := .measuring
            (meter.afterSweep ⟨packets, m.told clock iqSamples, full⟩ limitedAt)
          readings } ∧
      clock.reading m.readings ≤ limitedAt ∧ limitedAt ≤ clock.reading readings := by
  have observed : ∃ readings, m.observeSweep clock iqSamples =
      { m with linkCheck := .measuring (meter.tell (m.told clock iqSamples)), readings } ∧
        m.readings ≤ readings := by
    rw [observeSweep, measuring]
    cases m.told clock iqSamples with
    | none =>
        have same : { m with linkCheck := .measuring meter } = m := by rw [← measuring]
        exact ⟨m.readings, same.symm, Nat.le_refl _⟩
    | some observation => exact ⟨m.readings + 1, rfl, Nat.le_succ _⟩
  obtain ⟨readings, same, later⟩ := observed
  rw [same, noteFullChannel]
  cases full with
  | true =>
      exact ⟨clock.reading readings, readings + 1, rfl, clock.monotone later,
        clock.monotone (Nat.le_succ _)⟩
  | false => exact ⟨clock.reading readings, readings, rfl, clock.monotone later, Nat.le_refl _⟩

theorem reportLinkBudget_open (measuring : m.linkCheck = .measuring meter)
    (running : meter.closed = false) : m.reportLinkBudget clock = (m, none) := by
  rw [reportLinkBudget, measuring]
  simp only [running, Bool.not_false, if_true]

/-- A closed meter gives a verdict, or a fresh meter where it cannot. -/
theorem reportLinkBudget_closed (clock : Clock) (measuring : m.linkCheck = .measuring meter)
    (closed : meter.closed = true) :
    (∃ verdict measured rate,
      m.reportLinkBudget clock = ({ m with linkCheck := .done (some verdict) }, some verdict) ∧
        meter.consumerLimited = false ∧ meter.finish = some measured ∧
        m.source.linkDeviceRate = some rate ∧ verdict.sampleRateHz = rate ∧
        verdict.measured = { measured with streamSampleRateHz := some rate }) ∨
    (m.reportLinkBudget clock = (m.armed clock, none) ∧
      (meter.consumerLimited = false → meter.finish.isSome = true →
        ∀ rate, m.source.linkDeviceRate = some rate → rate.Positive →
          m.source.streamFormat.iqBytesPerSample.isSome = false)) := by
  rw [reportLinkBudget, measuring]
  simp only [closed, Bool.not_true, Bool.false_eq_true, if_false]
  cases limited : meter.consumerLimited with
  | true =>
      refine Or.inr ⟨rfl, fun never => ?_⟩
      cases never
  | false =>
      simp only [Bool.false_eq_true, if_false]
      split
      · rename_i none
        refine Or.inr ⟨rfl, fun _ finished rate rated positive => ?_⟩
        obtain ⟨measured, done⟩ := Option.isSome_iff_exists.mp finished
        rw [done, rated, Option.bind_some, Option.bind_some] at none
        by_contra wide
        have judged : (LinkBudgetVerdict.judge rate m.source.streamFormat
            { measured with streamSampleRateHz := some rate }
            MeteredCheck.linkBudgetTolerance).isSome = true :=
          LinkBudgetVerdict.judge_isSome positive (Bool.eq_true_of_not_eq_false wide) _
        rw [none] at judged
        cases judged
      · rename_i verdict some'
        obtain ⟨measured, finished, rest⟩ := Option.bind_eq_some_iff.mp some'
        obtain ⟨rate, rated, judged⟩ := Option.bind_eq_some_iff.mp rest
        obtain ⟨sampleRate, same⟩ := LinkBudgetVerdict.judge_some judged
        exact Or.inl ⟨verdict, measured, rate, rfl, trivial, finished, rated, sampleRate, same⟩

theorem reportLinkBudget_idle (idle : ∀ meter, m.linkCheck ≠ .measuring meter) (iqSamples : Nat)
    (full : Bool) :
    ((m.observeSweep clock iqSamples).noteFullChannel clock full).reportLinkBudget clock =
      (m, none) := by
  rw [observeSweep]
  cases check : m.linkCheck with
  | measuring meter => exact absurd check (idle meter)
  | unmeasured | done =>
      simp only
      rw [noteFullChannel, check]
      simp only
      rw [reportLinkBudget, check]

variable {codec : WireCodec Value Sample}

/-- What a sweep comes to, from its parsed chunks on. -/
theorem sweepChunks_parsed {chunks : List Bytes} {swept : Swept Sample}
    (usable : ∀ packet ∈ iqPackets swept.items, packet.1.Positive)
    (done : m.sweepChunks clock codec chunks = some swept) :
    ∃ parsed : MeteredSource Sample, Heard clock m (iqPackets swept.items) parsed ∧
      (swept.source, swept.verdict) = ((parsed.observeSweep clock (iqSamples
        swept.items)).noteFullChannel clock swept.channelWasFull).reportLinkBudget clock ∧
      swept.told = parsed.told clock (iqSamples swept.items) := by
  obtain ⟨⟨parsed, parseError, items⟩, through, same⟩ := Option.map_eq_some_iff.mp done
  cases same
  have widened : Heard clock m [] { m with source := { m.source with
      maxChunkBytes := (chunks.map List.length).foldl max m.source.maxChunkBytes } } :=
    .of_same rfl rfl rfl rfl
  exact ⟨parsed, widened.trans (parseChunks_heard usable through), rfl, rfl⟩

theorem verdictDue_iff {meter : ThroughputMeter} (check : m.linkCheck = .measuring meter) :
    m.verdictDue clock = true ↔
      (∃ mark, meter.mark = some mark ∧ meter.window ≤ clock.reading m.readings - mark) ∧
        m.source.streamFormat.iqBytesPerSample.isSome = true ∧ meter.consumerLimited = false ∧
          { meter with closed := true }.finish.isSome = true := by
  rw [verdictDue, check]
  simp only [Bool.and_eq_true, Bool.not_eq_true', Option.any_eq_true, decide_eq_true_eq,
    and_assoc]

theorem verdictDue_measuring (due : m.verdictDue clock = true) :
    ∃ meter mark, m.linkCheck = .measuring meter ∧ meter.mark = some mark ∧
      meter.window ≤ clock.reading m.readings - mark ∧
      m.source.streamFormat.iqBytesPerSample.isSome = true ∧ meter.consumerLimited = false ∧
      { meter with closed := true }.finish.isSome = true := by
  cases check : m.linkCheck with
  | unmeasured | done =>
      rw [verdictDue, check] at due
      cases due
  | measuring meter =>
      obtain ⟨⟨mark, marked, past⟩, wide, unlimited, finished⟩ := (verdictDue_iff check).mp due
      exact ⟨meter, mark, rfl, marked, past, wide, unlimited, finished⟩

end MeteredSource

namespace LinkRun

variable {Value Sample : Type} {clock : Clock} {codec : WireCodec Value Sample}
  {run mid next : LinkRun Sample}

/-- A running meter has counted what the run has written down. -/
def Counting (clock : Clock) (run : LinkRun Sample) : Prop :=
  ∀ meter, run.metered.linkCheck = .measuring meter →
    meter.Counts (clock.reading run.metered.readings) run.sweeps run.counted

/-- What an action leads to: what it publishes belongs, if the action meets its condition
and only then. -/
structure Goes (clock : Clock) (run next : LinkRun Sample) (condition : Prop) : Prop where
  counting : next.Counting clock
  publishes : ∃ new, next.published = run.published ++ new ∧
    ((∀ published ∈ new, published.Belongs) ↔ condition)

/-- A meter behind the parse phase: the one before it, or a fresh one. -/
theorem Counting.parsed (counting : run.Counting clock) {packets : List (F64 × Nat)}
    {parsed : MeteredSource Sample} (heard : run.metered.Heard clock packets parsed)
    {meter : ThroughputMeter} (measuring : parsed.linkCheck = .measuring meter) :
    meter.Counts (clock.reading parsed.readings) run.sweeps run.counted ∧
      meter.mark.isSome = (run.metered.counting &&
        !movesIn run.metered.source.linkDeviceRate packets) := by
  cases moved : movesIn run.metered.source.linkDeviceRate packets with
  | true =>
      rcases heard.rearmed moved with ⟨never, check⟩ | ⟨reading, -, -, check⟩
      · rw [← check, measuring] at never
        cases never
      · rw [measuring] at check
        cases check
        exact ⟨ThroughputMeter.counts_startingAt _ _ _ _ _ _, (Bool.and_false _).symm⟩
  | false =>
      obtain ⟨check, readings⟩ := heard.kept moved
      rw [measuring] at check
      refine ⟨readings ▸ counting meter check.symm, ?_⟩
      rw [MeteredSource.counting, ← check]
      exact (Bool.and_true _).symm

theorem Goes.quiet {swept : MeteredSource.Swept Sample} (silent : swept.verdict = none)
    (counting : (run.afterSweep swept).Counting clock)
    (steady : run.Steady clock (iqPackets swept.items)) :
    Goes clock run (run.afterSweep swept) (run.Steady clock (iqPackets swept.items)) where
  counting := counting
  publishes := by
    refine ⟨[], ?_, iff_of_true (fun _ member => absurd member List.not_mem_nil) steady⟩
    rw [afterSweep, silent]
    rfl

theorem last_of_told {packets : List (F64 × Nat)} (brought : 0 < (packets.map Prod.snd).sum)
    (previous : Option F64) :
    ∃ last, packets.getLast? = some last ∧ last ∈ packets ∧
      lastRate previous packets = some last.1 := by
  cases last : packets.getLast? with
  | none =>
      rw [List.getLast?_eq_none_iff.mp last] at brought
      exact absurd brought (Nat.lt_irrefl 0)
  | some packet =>
      refine ⟨packet, rfl, List.mem_of_getLast? last, ?_⟩
      rw [lastRate, last]
      rfl

/-- The measurement behind a verdict, told by the sweeps its meter counted. -/
theorem measured_of_counts {now : Nat} {meter : ThroughputMeter} {sweeps counted : List Sweep}
    (counts : meter.Counts now sweeps counted) (unlimited : meter.consumerLimited = false)
    {measured : ThroughputMeasurement}
    (finished : { meter with closed := true }.finish = some measured)
    {verdict : LinkBudgetVerdict} (rated : verdict.sampleRateHz.Positive)
    (bytes : verdict.measured.bytes = measured.bytes)
    (window : verdict.measured.window = measured.window) (closing : Sweep) :
    Published.Measured ⟨verdict, sweeps ++ [closing], counted⟩ := by
  obtain ⟨mark, last, marked, lastCounted, total, width⟩ :=
    ThroughputMeter.finish_some finished
  obtain ⟨-, -, counted', lastTold, earlier, marking, whole, toldAt, clear⟩ :=
    counts.marked mark marked
  refine ⟨rated, (bytes.trans total).trans counted', earlier, marking, closing, mark, last, ?_,
    toldAt, lastTold last lastCounted, window.trans width, clear unlimited⟩
  rw [whole]

variable {swept : MeteredSource.Swept Sample} {parsed : MeteredSource Sample}
  {meter : ThroughputMeter}

theorem Counting.closing (counting : run.Counting clock)
    (usable : ∀ packet ∈ iqPackets swept.items, packet.1.Positive)
    (heard : run.metered.Heard clock (iqPackets swept.items) parsed)
    (told : swept.told = parsed.told clock (MeteredSource.iqSamples swept.items))
    (check : parsed.linkCheck = .measuring meter)
    (shut : meter.ClosedBy { meter with closed := true } swept.sweep) (readings : Nat)
    (reported : (swept.source, swept.verdict) = MeteredSource.reportLinkBudget clock
      { parsed with linkCheck := .measuring { meter with closed := true }, readings }) :
    Goes clock run (run.afterSweep swept) (run.Steady clock (iqPackets swept.items)) := by
  obtain ⟨mark, marked, past⟩ := shut.past
  obtain ⟨counts, ghost⟩ := counting.parsed heard check
  rw [marked, Option.isSome_some] at ghost
  obtain ⟨-, unmoved⟩ := (Bool.and_eq_true _ _).mp ghost.symm
  have still : movesIn run.metered.source.linkDeviceRate (iqPackets swept.items) = false :=
    Bool.not_eq_true' _ ▸ unmoved
  obtain ⟨same, sameReadings⟩ := heard.kept still
  have checked : run.metered.linkCheck = .measuring meter := same.symm.trans check
  obtain ⟨⟨instant, bytes⟩, observation⟩ := Option.isSome_iff_exists.mp shut.told
  have toldAt : swept.sweep.toldAt = some instant := by
    rw [Sweep.toldAt, observation]
    rfl
  obtain ⟨atReading, brought, wide⟩ := MeteredSource.told_reading (told.symm.trans observation)
  rw [iqSamples_eq] at brought
  obtain ⟨last, atLast, member, lastRated⟩ :=
    last_of_told brought run.metered.source.linkDeviceRate
  have device : parsed.source.linkDeviceRate = some last.1 := heard.device.trans lastRated
  have due : { meter with closed := true }.finish.isSome = true →
      meter.consumerLimited = false → run.metered.verdictDue clock = true := by
    intro finished unlimited
    have reached := past instant toldAt
    rw [atReading, sameReadings] at reached
    rw [heard.format] at wide
    exact (MeteredSource.verdictDue_iff checked).mpr
      ⟨⟨mark, marked, reached⟩, wide, unlimited, finished⟩
  rcases MeteredSource.reportLinkBudget_closed clock (m := { parsed with
      linkCheck := .measuring { meter with closed := true }, readings }) rfl rfl with
    ⟨verdict, measured, rate, gives, unlimited, finished, rated, sampleRate, carried⟩ |
      ⟨fresh, unfinished⟩
  · -- a verdict, judged against the last packet's rate
    rw [gives] at reported
    obtain ⟨source, some'⟩ := Prod.mk.inj reported
    have same : rate = last.1 := Option.some.inj (rated.symm.trans device)
    refine ⟨fun other measuring => ?_, [⟨verdict, run.sweeps ++ [swept.sweep], run.counted⟩],
      ?_, ?_⟩
    · have finished' : swept.source.linkCheck = .measuring other := measuring
      rw [source] at finished'
      cases finished'
    · rw [afterSweep, some']
      rfl
    · have judged : verdict.sampleRateHz = last.1 := sampleRate.trans same
      have whole : Published.Measured ⟨verdict, run.sweeps ++ [swept.sweep], run.counted⟩ :=
        measured_of_counts counts unlimited finished (judged ▸ usable last member)
          (by rw [carried]) (by rw [carried]) swept.sweep
      constructor
      · intro belong _ _ _ packet atEnd sweep counted other member' positive
        rw [Option.mem_def, atLast] at atEnd
        cases atEnd
        rw [← judged]
        exact (belong _ (List.mem_singleton_self _)).rates sweep counted other member' positive
      · intro steady published among
        rw [List.mem_singleton.mp among]
        refine ⟨whole, fun sweep counted other member' positive => ?_⟩
        rw [judged]
        exact steady (due (finished ▸ rfl) unlimited) brought still last atLast sweep counted
          other member' positive
  · -- no usable measurement: the check starts afresh
    rw [fresh] at reported
    obtain ⟨source, silent⟩ := Prod.mk.inj reported
    refine .quiet silent (fun other measuring => ?_) ?_
    · have fresh' : swept.source.linkCheck = .measuring other := measuring
      rw [source] at fresh'
      cases fresh'
      exact ThroughputMeter.counts_startingAt _ _ _ _ _ _
    · intro duly
      obtain ⟨meter', -, checked', -, -, -, unlimited, finished⟩ :=
        MeteredSource.verdictDue_measuring duly
      rw [checked] at checked'
      cases checked'
      have narrow := unfinished unlimited finished last.1 device (usable last member)
      rw [wide] at narrow
      cases narrow

/-- A sweep keeps the count, and what it publishes belongs if it was steady. -/
theorem Counting.sweep (counting : run.Counting clock) {chunks : List Bytes}
    (usable : ∀ packet ∈ iqPackets swept.items, packet.1.Positive)
    (done : run.metered.sweepChunks clock codec chunks = some swept) :
    Goes clock run (run.afterSweep swept) (run.Steady clock (iqPackets swept.items)) := by
  obtain ⟨parsed, heard, reported, told⟩ := MeteredSource.sweepChunks_parsed usable done
  by_cases idle : ∀ meter, parsed.linkCheck ≠ .measuring meter
  · rw [MeteredSource.reportLinkBudget_idle idle] at reported
    obtain ⟨source, silent⟩ := Prod.mk.inj reported
    refine .quiet silent (fun meter measuring => ?_) ?_
    · have same : swept.source.linkCheck = .measuring meter := measuring
      rw [source] at same
      exact absurd same (idle meter)
    · intro due _ still
      obtain ⟨meter, mark, checked, -⟩ := MeteredSource.verdictDue_measuring due
      exact absurd ((heard.kept still).1.trans checked) (idle meter)
  · push Not at idle
    obtain ⟨meter, check⟩ := idle
    obtain ⟨counts, ghost⟩ := counting.parsed heard check
    obtain ⟨limitedAt, readings, feeds, later, early⟩ := MeteredSource.fed clock check
      (iqPackets swept.items) (MeteredSource.iqSamples swept.items) swept.channelWasFull
    rw [feeds, ← told] at reported
    have inOrder : ∀ instant, swept.sweep.toldAt = some instant →
        instant = clock.reading parsed.readings := by
      intro instant toldAt
      obtain ⟨⟨instant', bytes⟩, observation, rfl⟩ := Option.map_eq_some_iff.mp toldAt
      exact (MeteredSource.told_reading (told.symm.trans observation)).1
    have feed : (meter.afterSweep swept.sweep limitedAt).Counts (clock.reading readings)
          (run.sweeps ++ [swept.sweep])
          (if meter.mark.isSome then run.counted ++ [swept.sweep] else []) ∨
        meter.ClosedBy (meter.afterSweep swept.sweep limitedAt) swept.sweep := by
      refine counts.afterSweep (fun instant toldAt => ?_) later early
      rw [inOrder instant toldAt]
      exact ⟨Nat.le_refl _, later⟩
    rcases feed with open' | shut
    · rw [MeteredSource.reportLinkBudget_open rfl open'.running] at reported
      obtain ⟨source, silent⟩ := Prod.mk.inj reported
      refine .quiet silent (fun other measuring => ?_) ?_
      · have same : swept.source.linkCheck = .measuring other := measuring
        rw [source] at same
        cases same
        rw [ghost] at open'
        rw [afterSweep, source]
        exact open'
      · intro due brought still
        obtain ⟨meter', mark, checked, marked, past, wide, -⟩ :=
          MeteredSource.verdictDue_measuring due
        obtain ⟨same, sameReadings⟩ := heard.kept still
        rw [← same, check] at checked
        cases checked
        rw [← iqSamples_eq] at brought
        have toldAt : swept.sweep.toldAt = some (clock.reading parsed.readings) := by
          rw [Sweep.toldAt, MeteredSource.Swept.sweep, told]
          exact MeteredSource.told_some check (heard.format ▸ wide) brought
        have closed := counts.closes marked toldAt (sameReadings ▸ past) (Nat.le_refl _) limitedAt
        rw [open'.running] at closed
        cases closed
    · have closed := shut.shut
      rw [closed] at shut
      have sweepIs : swept.sweep = ⟨iqPackets swept.items, swept.told, swept.channelWasFull⟩ := rfl
      rw [← sweepIs, closed] at reported
      exact counting.closing usable heard told check shut readings reported

/-! ## Runs -/

/-- What leaves the check alone, or starts it afresh, publishes nothing. -/
theorem Goes.still {condition : Prop} (holds : condition) (counting : next.Counting clock)
    (published : next.published = run.published) :
    Goes clock run next condition where
  counting := counting
  publishes := ⟨[], published.trans (List.append_nil _).symm,
    iff_of_true (fun _ member => absurd member List.not_mem_nil) holds⟩

theorem Counting.kept (counting : run.Counting clock) {metered : MeteredSource Sample}
    (check : metered.linkCheck = run.metered.linkCheck)
    (readings : metered.readings = run.metered.readings) :
    ({ run with metered } : LinkRun Sample).Counting clock := by
  intro meter measuring
  rw [check] at measuring
  rw [readings]
  exact counting meter measuring

/-- A fetch that goes through is refused or makes a sweep. -/
theorem fetchSamples_cases {m : MeteredSource Sample} {wait : Bool} {fetch : Fetch}
    {fetched : MeteredSource.Fetched Sample}
    (done : m.fetchSamples clock codec wait fetch = some fetched) :
    (∃ metered e, fetched = .refused metered e ∧ metered.linkCheck = m.linkCheck ∧
      metered.readings = m.readings) ∨
    ∃ chunks swept, fetched = .swept swept ∧ m.sweepChunks clock codec chunks = some swept := by
  have sweeps : ∀ chunks, (m.sweepChunks clock codec chunks).map .swept = some fetched →
      ∃ chunks swept, fetched = .swept swept ∧
        m.sweepChunks clock codec chunks = some swept := by
    intro chunks mapped
    obtain ⟨swept, through, same⟩ := Option.map_eq_some_iff.mp mapped
    exact ⟨chunks, swept, same.symm, through⟩
  rw [MeteredSource.fetchSamples] at done
  split at done
  · cases done
    exact Or.inl ⟨m, noStreamError, rfl, rfl, rfl⟩
  · split at done
    · exact Or.inr (sweeps _ done)
    · split at done
      · cases done
        exact Or.inl ⟨m.cleanupStream, readerEndedError, rfl, rfl, rfl⟩
      · split at done
        · exact Or.inr (sweeps _ done)
        · split at done
          · exact Or.inr (sweeps _ done)
          · cases done
            exact Or.inl ⟨m.cleanupStream, readerEndedError, rfl, rfl, rfl⟩
          · exact Or.inr (sweeps _ done)

theorem startStream_cases (clock : Clock) (m : MeteredSource Sample) :
    m.startStream clock = m ∧ (∃ verdict, m.linkCheck = .done verdict) ∨
      m.startStream clock = m.armed clock ∨
      m.startStream clock = { m with linkCheck := .done none } := by
  rw [MeteredSource.startStream]
  split
  · rename_i verdict done
    exact Or.inl ⟨rfl, verdict, done⟩
  · split
    · exact Or.inr (Or.inl rfl)
    · exact Or.inr (Or.inr rfl)

theorem Counting.act {action : LinkAction} (counting : run.Counting clock)
    (usable : ∀ sweep ∈ next.sweeps, ∀ packet ∈ sweep.packets, packet.1.Positive)
    (acted : run.act clock codec action = some next) :
    Goes clock run next (run.Steadied clock codec action) := by
  have other : ∀ {action}, (∀ wait fetch, action ≠ .fetch wait fetch) →
      run.Steadied clock codec action := by
    intro action none wait fetch swept same
    exact absurd same (none wait fetch)
  cases action with
  | fetch wait fetch =>
      obtain ⟨fetched, through, same⟩ := Option.map_eq_some_iff.mp acted
      rcases fetchSamples_cases through with
        ⟨metered, e, rfl, check, readings⟩ | ⟨chunks, swept, rfl, done⟩
      · cases same
        refine .still ?_ (counting.kept check readings) rfl
        intro wait' fetch' swept same fetched
        cases same
        rw [through] at fetched
        cases fetched
      · cases same
        have goes := counting.sweep (fun packet member => usable swept.sweep
          (List.mem_append_right _ (List.mem_singleton_self _)) packet member) done
        refine ⟨goes.counting, ?_⟩
        obtain ⟨new, published, belongs⟩ := goes.publishes
        refine ⟨new, published, belongs.trans ⟨fun steady => ?_, fun steadied => ?_⟩⟩
        · intro wait' fetch' swept' same fetched
          cases same
          rw [through] at fetched
          cases fetched
          exact steady
        · exact steadied wait fetch swept rfl through
  | learn outputItems =>
      cases acted
      exact .still (other fun _ _ never => (by cases never)) (counting.kept rfl rfl) rfl
  | start =>
      cases acted
      refine .still (other fun _ _ never => (by cases never)) ?_ rfl
      intro meter measuring
      rcases startStream_cases clock run.metered with ⟨same, verdict, done⟩ | same | same
      · rw [same, done] at measuring
        cases measuring
      · rw [same] at measuring
        cases measuring
        exact ThroughputMeter.counts_startingAt _ _ _ _ _ _
      · rw [same] at measuring
        cases measuring
  | cleanup =>
      cases acted
      exact .still (other fun _ _ never => (by cases never)) (counting.kept rfl rfl) rfl
  | restart =>
      cases acted
      refine .still (other fun _ _ never => (by cases never)) ?_ rfl
      intro meter measuring
      cases measuring
  | produce room =>
      cases acted
      exact .still (other fun _ _ never => (by cases never)) (counting.kept rfl rfl) rfl

theorem act_sweeps {action : LinkAction} (acted : run.act clock codec action = some next) :
    run.sweeps ⊆ next.sweeps := by
  cases action with
  | fetch wait fetch =>
      obtain ⟨fetched, -, same⟩ := Option.map_eq_some_iff.mp acted
      cases fetched with
      | refused metered e =>
          cases same
          exact List.Subset.refl _
      | swept swept =>
          cases same
          exact List.subset_append_left _ _
  | learn | start | cleanup | restart | produce =>
      cases acted
      exact List.Subset.refl _

theorem actAll_sweeps {actions : List LinkAction}
    (ran : run.actAll clock codec actions = some next) : run.sweeps ⊆ next.sweeps := by
  induction actions generalizing run with
  | nil =>
      cases ran
      exact List.Subset.refl _
  | cons action actions ih =>
      obtain ⟨mid, acted, rest⟩ := Option.bind_eq_some_iff.mp ran
      exact List.Subset.trans (act_sweeps acted) (ih rest)

/-- Every sweep of these actions is steady in the state it meets. -/
def AllSteadied (clock : Clock) (codec : WireCodec Value Sample) (run : LinkRun Sample)
    (actions : List LinkAction) : Prop :=
  ∀ before action after mid, actions = before ++ action :: after →
    run.actAll clock codec before = some mid → mid.Steadied clock codec action

theorem allSteadied_cons {action : LinkAction} {actions : List LinkAction}
    (acted : run.act clock codec action = some mid) :
    run.AllSteadied clock codec (action :: actions) ↔
      run.Steadied clock codec action ∧ mid.AllSteadied clock codec actions := by
  constructor
  · intro steadied
    refine ⟨steadied [] action actions run rfl rfl, ?_⟩
    intro before action' after mid' split reached
    refine steadied (action :: before) action' after mid' (congrArg _ split) ?_
    rw [actAll, acted]
    exact reached
  · rintro ⟨first, rest⟩ before action' after mid' split reached
    cases before with
    | nil =>
        cases split
        cases reached
        exact first
    | cons action'' before =>
        obtain ⟨rfl, split'⟩ := List.cons.inj split
        rw [actAll, acted] at reached
        exact rest before action' after mid' split' reached

theorem Counting.actAll {actions : List LinkAction} (counting : run.Counting clock)
    (usable : ∀ sweep ∈ next.sweeps, ∀ packet ∈ sweep.packets, packet.1.Positive)
    (ran : run.actAll clock codec actions = some next) :
    Goes clock run next (run.AllSteadied clock codec actions) := by
  induction actions generalizing run with
  | nil =>
      cases ran
      refine .still ?_ counting rfl
      intro before action after mid split
      exact absurd split (List.append_ne_nil_of_right_ne_nil _ (List.cons_ne_nil _ _)).symm
  | cons action actions ih =>
      obtain ⟨mid, acted, rest⟩ := Option.bind_eq_some_iff.mp ran
      have first := counting.act (fun sweep member => usable sweep (actAll_sweeps rest member))
        acted
      have later := ih first.counting rest
      obtain ⟨new, published, belong⟩ := first.publishes
      obtain ⟨new', published', belong'⟩ := later.publishes
      refine ⟨later.counting, new ++ new', ?_, ?_⟩
      · rw [published', published, List.append_assoc]
      · rw [List.forall_mem_append, belong, belong', allSteadied_cons acted]

/-- **A drifting rate gives a verdict on bytes of another configuration.**  Every verdict
of a run belongs to one configuration exactly when, wherever a verdict is due and no
packet clears the band against the packet before it, the last packet stays within the
band of the packets counted. -/
theorem linkVerdicts_belong_iff (clock : Clock) (codec : WireCodec Value Sample)
    (source : HttpSource Sample) (rateReduction : Option Nat) (actions : List LinkAction)
    (final : LinkRun Sample)
    (ran : (new (.new source rateReduction)).actAll clock codec actions = some final)
    (usable : ∀ sweep ∈ final.sweeps, ∀ packet ∈ sweep.packets, packet.1.Positive) :
    (∀ published ∈ final.published, published.Belongs) ↔
      ∀ before action after mid, actions = before ++ action :: after →
        (new (.new source rateReduction)).actAll clock codec before = some mid →
          mid.Steadied clock codec action := by
  have counting : (new (.new source rateReduction)).Counting clock := by
    intro meter measuring
    cases measuring
  obtain ⟨published, same, belong⟩ := (counting.actAll usable ran).publishes
  rw [same]
  exact belong

/-- A codec that reads a header `{r}` as one IQ sample at `r` samples a second. -/
def rateCodec : WireCodec Unit Bytes where
  metadata := fun text =>
    match text with
    | [123, rate, 125] => some { iqMetadata 1 with sampleFrequency := some (.finite rate.toNat) }
    | _ => none
  document := fun _ => .error "no document"
  jsonSamples := fun _ _ => .ok []
  binarySamples := fun _ _ _ payload => .ok [payload]

/-- A fetch that finds one packet of one sample at this rate. -/
def fetchAt (rate : UInt8) : LinkAction :=
  .fetch false ⟨true, [[123, rate, 125, 10, 30, 0, 0, 0, 0]], false, none⟩

/-- A clock that goes on by 600 ms a reading. -/
def slowClock : Clock := ⟨fun n => 600000000 * n, fun _ _ less => Nat.mul_le_mul_left _ less⟩

def unmetered : MeteredSource Bytes :=
  .new (.new .int16 1024 none (.finite 100000000) (.finite 100) false) none

/-- A stream whose rate jitters around 100 samples a second. -/
def jittering : List LinkAction :=
  [.start, fetchAt 100, fetchAt 100, fetchAt 104, fetchAt 98, fetchAt 101]

/-- One whose rate drifts, each packet within the band of the packet before it. -/
def drifting : List LinkAction :=
  [.start, fetchAt 100, fetchAt 100, fetchAt 109, fetchAt 109, fetchAt 118]

/-- A sweep of one packet, told of at this reading. -/
def oneSample (rate : ℚ) (reading : Nat) : Sweep :=
  ⟨[(.finite rate, 1)], some (slowClock.reading reading, 4), false⟩

theorem linkVerdicts_belong_iff_jittering :
    ∃ final published, (new unmetered).actAll slowClock rateCodec jittering = some final ∧
      final.published = [published] ∧ published.Belongs ∧
      ∀ before action after mid, jittering = before ++ action :: after →
        (new unmetered).actAll slowClock rateCodec before = some mid →
          mid.Steadied slowClock rateCodec action := by
  have outcome : ((new unmetered).actAll slowClock rateCodec jittering).map (fun final =>
      (final.sweeps, final.published.map fun published =>
        (published.verdict.sampleRateHz, published.counted))) =
      some ([oneSample 100 1, oneSample 100 2, oneSample 104 3, oneSample 98 4, oneSample 101 5],
        [(.finite 101, [oneSample 100 2, oneSample 104 3, oneSample 98 4])]) := by
    decide +kernel
  obtain ⟨final, ran, told⟩ := Option.map_eq_some_iff.mp outcome
  have outcome' : ((new unmetered).actAll slowClock rateCodec jittering).map (fun final =>
      final.published.map fun published => (published.verdict.measured.bytes,
        published.verdict.measured.window, published.sweeps)) =
      some [(12, 1800000000, [oneSample 100 1, oneSample 100 2, oneSample 104 3, oneSample 98 4,
        oneSample 101 5])] := by
    decide +kernel
  rw [ran] at outcome'
  obtain ⟨sweeps, verdicts⟩ := Prod.mk.inj told
  obtain ⟨published, one, told'⟩ := List.map_eq_singleton_iff.mp verdicts
  rw [Option.map_some, one] at outcome'
  simp only [List.map_cons, List.map_nil, Option.some.injEq, List.cons.injEq, and_true,
    Prod.mk.injEq] at outcome' told'
  obtain ⟨rate, counted⟩ := told'
  obtain ⟨bytes, window, made⟩ := outcome'
  have belongs : published.Belongs := by
    refine ⟨⟨?_, ?_, [], oneSample 100 1, oneSample 101 5, 600000000, 2400000000, ?_⟩, ?_⟩
    · rw [rate]
      exact ⟨rfl, by decide +kernel⟩
    · rw [bytes, counted]
      rfl
    · rw [made, counted, window]
      exact ⟨rfl, rfl, ⟨oneSample 98 4, by decide +kernel, rfl⟩, rfl, by decide +kernel⟩
    · rw [rate, counted]
      decide +kernel
  refine ⟨final, published, ran, one, belongs,
    (linkVerdicts_belong_iff slowClock rateCodec _ none jittering final ran ?_).mp ?_⟩
  · rw [sweeps]
    decide +kernel
  · rw [one]
    intro other member
    rw [List.mem_singleton.mp member]
    exact belongs

/-- A verdict at 118 samples a second, on bytes that arrived at 100. -/
theorem drifting_misjudges :
    ¬ ∀ (actions : List LinkAction) (final : LinkRun Bytes),
      (new unmetered).actAll slowClock rateCodec actions = some final →
        (∀ sweep ∈ final.sweeps, ∀ packet ∈ sweep.packets, packet.1.Positive) →
          ∀ published ∈ final.published, published.Belongs := by
  intro belong
  have outcome : ((new unmetered).actAll slowClock rateCodec drifting).map (fun final =>
      (final.sweeps, final.published.map fun published =>
        (published.verdict.sampleRateHz, published.counted))) =
      some ([oneSample 100 1, oneSample 100 2, oneSample 109 3, oneSample 109 4, oneSample 118 5],
        [(.finite 118, [oneSample 100 2, oneSample 109 3, oneSample 109 4])]) := by
    decide +kernel
  obtain ⟨final, ran, told⟩ := Option.map_eq_some_iff.mp outcome
  obtain ⟨sweeps, verdicts⟩ := Prod.mk.inj told
  obtain ⟨published, one, told'⟩ := List.map_eq_singleton_iff.mp verdicts
  obtain ⟨rate, counted⟩ := Prod.mk.inj told'
  have belongs := belong drifting final ran (by rw [sweeps]; decide +kernel) published
    (by rw [one]; exact List.mem_singleton_self _)
  have within := belongs.rates (oneSample 100 2) (by rw [counted]; decide +kernel)
    (.finite 100, 1) (List.mem_singleton_self _) Nat.one_pos
  rw [rate] at within
  exact absurd within (by decide +kernel)

end LinkRun

end SdrAaronia
