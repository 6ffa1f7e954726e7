import SdrAaronia.HttpSource.Playback

/-! # Fetching and working

One sweep of the reader's channel, and one call of the block's `work`.  What the
channel, the output and the consumer do is given from outside.
-/

namespace SdrAaronia

open HttpStreaming

namespace HttpSource

/-- What one fetch finds. -/
structure Fetch where
  /-- A stream is connected. -/
  active : Bool
  /-- The chunks queued on its channel. -/
  queued : List Bytes
  /-- The reader task ended behind them. -/
  ended : Bool
  /-- What parking on the empty channel comes to: a chunk, its end, or the timeout. -/
  parked : Option (Option Bytes)

/-- What one call of `work` meets. -/
structure Call where
  restart : Bool
  /-- Free output space when the call starts. -/
  outputLength : Nat
  /-- The connected buffer's size; the largest word on an unconnected writer. -/
  maxItems : Nat
  fetches : Nat → Fetch
  /-- Free output space once the buffer is refilled. -/
  room : Nat

/-- The buffer's length and its capacity when an append decides whether to trim. -/
structure TrimCheck where
  length : Nat
  capacity : Nat
  deriving DecidableEq, Repr

variable {Value Sample : Type}

/-- The check the append of an item makes. -/
def trimCheck (s : HttpSource Sample) : ParsedItem Sample → List TrimCheck
  | .packet packet =>
      if packet.metadata.payload = .iq then
        let grown := (s.notePacket packet).grown packet.samples
        [⟨grown.sampleBuffer.length, grown.bufferCapacity⟩]
      else []
  | .lost _ | .skipped _ _ => []

/-- Samples an item adds, before any trim. -/
def addedSamples : ParsedItem Sample → Nat
  | .packet packet => if packet.metadata.payload = .iq then packet.samples.length else 0
  | .lost _ | .skipped _ _ => 0

/-- The items of one chunk; `none` where the buffer panics. -/
def processItems (s : HttpSource Sample) :
    List (ParsedItem Sample) → Option (HttpSource Sample × Nat × List TrimCheck)
  | [] => some (s, 0, [])
  | item :: items =>
      (s.processItem item).bind fun next =>
        (next.processItems items).map fun (last, added, checks) =>
          (last, addedSamples item + added, s.trimCheck item ++ checks)

variable (codec : WireCodec Value Sample)

def processAdvancedStreamData (s : HttpSource Sample) (data : Bytes) :
    Option (HttpSource Sample × Except Error Nat × List TrimCheck) :=
  let (parser, outcome) := s.streamParser.processDataRecovering codec data
  let s := { s with streamParser := parser }
  match outcome with
  | .error e => some (s, .error e, [])
  | .ok items =>
      (s.processItems items).map fun (next, added, checks) => (next, .ok added, checks)

/-- Parse the chunks of a sweep, up to the first that fails. -/
def parseChunks (s : HttpSource Sample) :
    List Bytes → Option (HttpSource Sample × Except Error Nat × List TrimCheck)
  | [] => some (s, .ok 0, [])
  | chunk :: chunks =>
      (s.processAdvancedStreamData codec chunk).bind fun (next, outcome, checks) =>
        match outcome with
        | .error e => some (next, .error e, checks)
        | .ok added =>
            (next.parseChunks chunks).map fun (last, outcome, more) =>
              (last, outcome.map (added + ·), checks ++ more)

def noStreamError : Error := .protocol "No active stream"

def readerEndedError : Error := .streamClosed "stream reader task ended"

/-- Raise the largest chunk seen, then parse. -/
def sweepChunks (s : HttpSource Sample) (chunks : List Bytes) :
    Option (HttpSource Sample × Except Error Nat × List TrimCheck) :=
  { s with maxChunkBytes :=
      (chunks.map List.length).foldl max s.maxChunkBytes }.parseChunks codec chunks

/-- Move queued chunks, at most one channel's depth, into the buffer. -/
def fetchSamples (s : HttpSource Sample) (wait : Bool) (fetch : Fetch) :
    Option (HttpSource Sample × Except Error Nat × List TrimCheck) :=
  let chunks := fetch.queued.take chunkChannelDepth
  if !fetch.active then some (s, .error noStreamError, [])
  else if !chunks.isEmpty then s.sweepChunks codec chunks
  else if fetch.ended then some (s.cleanupStream, .error readerEndedError, [])
  else if !wait then s.sweepChunks codec []
  else
    match fetch.parked with
    | none => s.sweepChunks codec []
    | some none => some (s.cleanupStream, .error readerEndedError, [])
    | some (some chunk) => s.sweepChunks codec [chunk]

/-- Refill while the buffer is below the target; an error cleans up and ends the call. -/
def refill (below : Nat) (fetches : Nat → Fetch) :
    Nat → HttpSource Sample → Option (HttpSource Sample × Bool × List TrimCheck)
  | 0, s => some (s, true, [])
  | left + 1, s =>
      if s.sampleBuffer.length < below then
        (s.fetchSamples codec s.sampleBuffer.isEmpty (fetches left)).bind
          fun (next, outcome, checks) =>
            match outcome with
            | .error _ => some (next.cleanupStream, false, checks)
            | .ok 0 => some (next, true, checks)
            | .ok (_ + 1) =>
                (refill below fetches left next).map fun (last, alive, more) =>
                  (last, alive, checks ++ more)
      else some (s, true, [])

/-- What a call reports, puts out, and asks of the scheduler. -/
structure Worked (Sample : Type) where
  source : HttpSource Sample
  records : List StreamBreak
  samples : List Sample
  callAgain : Bool
  checks : List TrimCheck

/-- The connected buffer's size, learned once. -/
def learnOutput (s : HttpSource Sample) (maxItems : Nat) : HttpSource Sample :=
  if s.downstreamCapacity = 0 ∧ maxItems ≠ wordSize - 1 then
    { s with downstreamCapacity := maxItems }
  else s

/-- Where a call stops refilling. -/
def refillBelow (s : HttpSource Sample) (outputLength : Nat) : Nat :=
  min (max (s.refillCapacity / 2) outputLength) s.refillCapacity

def work (s : HttpSource Sample) (call : Call) : Option (Worked Sample) :=
  let s := if call.restart then s.restart else s
  let s := s.learnOutput call.maxItems
  (s.refill codec (s.refillBelow call.outputLength) call.fetches maxFetchesPerWork).map
    fun (next, alive, checks) =>
      if alive then
        let (last, records, samples) := next.produce call.room
        ⟨last, records, samples, last.sampleBuffer.isEmpty, checks⟩
      else ⟨next, [], [], true, checks⟩

/-! ## Every call is a run of actions -/

/-- Some actions lead from one state to the other and put nothing out. -/
def Leads (s s' : HttpSource Sample) : Prop :=
  ∀ r : Playback Sample, r.source = s → ∃ actions r', r.run actions = some r' ∧
    r'.source = s' ∧ r'.outputs = r.outputs ∧ r'.records = r.records

theorem Leads.refl (s : HttpSource Sample) : s.Leads s :=
  fun r same => ⟨[], r, rfl, same, rfl, rfl⟩

theorem run_append {r r' : Playback Sample} {first : List (SourceAction Sample)}
    (ran : r.run first = some r') (second : List (SourceAction Sample)) :
    r.run (first ++ second) = r'.run second := by
  induction first generalizing r with
  | nil =>
      cases ran
      rfl
  | cons action first ih =>
      obtain ⟨next, stepped, rest⟩ := Option.bind_eq_some_iff.mp ran
      rw [List.cons_append, Playback.run, stepped]
      exact ih rest

theorem Leads.trans {s s' s'' : HttpSource Sample} (first : s.Leads s') (second : s'.Leads s'') :
    s.Leads s'' := by
  intro r same
  obtain ⟨actions, r', ran, source, outputs, records⟩ := first r same
  obtain ⟨others, r'', ran', source', outputs', records'⟩ := second r' source
  exact ⟨actions ++ others, r'', (run_append ran others).trans ran', source',
    outputs'.trans outputs, records'.trans records⟩

theorem leads_item {s next : HttpSource Sample} {item : ParsedItem Sample}
    (processed : s.processItem item = some next) : s.Leads next := by
  rintro r rfl
  refine ⟨[.item item], r.afterItem item next, ?_, rfl, rfl, rfl⟩
  simp [Playback.run, Playback.step, processed]

theorem leads_learn (s : HttpSource Sample) (parser : StreamParser)
    (chunkBytes outputItems : Nat) :
    s.Leads { s with
      streamParser := parser, maxChunkBytes := chunkBytes, downstreamCapacity := outputItems } := by
  rintro r rfl
  exact ⟨[.learn parser chunkBytes outputItems], _, rfl, rfl, rfl, rfl⟩

theorem leads_cleanup (s : HttpSource Sample) : s.Leads s.cleanupStream := by
  rintro r rfl
  exact ⟨[.cleanup], _, rfl, rfl, rfl, rfl⟩

theorem leads_items {s next : HttpSource Sample} {items : List (ParsedItem Sample)} {added : Nat}
    {checks : List TrimCheck} (processed : s.processItems items = some (next, added, checks)) :
    s.Leads next := by
  induction items generalizing s added checks with
  | nil =>
      cases processed
      exact .refl _
  | cons item items ih =>
      obtain ⟨middle, first, rest⟩ := Option.bind_eq_some_iff.mp processed
      obtain ⟨⟨last, more, others⟩, later, same⟩ := Option.map_eq_some_iff.mp rest
      cases same
      exact (leads_item first).trans (ih later)

theorem leads_chunk {s next : HttpSource Sample} {data : Bytes} {outcome : Except Error Nat}
    {checks : List TrimCheck}
    (processed : s.processAdvancedStreamData codec data = some (next, outcome, checks)) :
    s.Leads next := by
  have parsed := fun parser => s.leads_learn parser s.maxChunkBytes s.downstreamCapacity
  unfold processAdvancedStreamData at processed
  dsimp only at processed
  split at processed
  · cases processed
    exact parsed _
  · obtain ⟨⟨last, added, compared⟩, appended, same⟩ := Option.map_eq_some_iff.mp processed
    cases same
    exact (parsed _).trans (leads_items appended)

theorem leads_chunks {s next : HttpSource Sample} {chunks : List Bytes}
    {outcome : Except Error Nat} {checks : List TrimCheck}
    (processed : s.parseChunks codec chunks = some (next, outcome, checks)) : s.Leads next := by
  induction chunks generalizing s outcome checks with
  | nil =>
      cases processed
      exact .refl _
  | cons chunk chunks ih =>
      obtain ⟨⟨middle, result, first⟩, here, rest⟩ := Option.bind_eq_some_iff.mp processed
      cases result with
      | error e =>
          cases rest
          exact leads_chunk codec here
      | ok added =>
          obtain ⟨⟨last, ending, more⟩, later, same⟩ := Option.map_eq_some_iff.mp rest
          cases same
          exact (leads_chunk codec here).trans (ih later)

theorem leads_fetch {s next : HttpSource Sample} {wait : Bool} {fetch : Fetch}
    {outcome : Except Error Nat} {checks : List TrimCheck}
    (fetched : s.fetchSamples codec wait fetch = some (next, outcome, checks)) : s.Leads next := by
  have swept : ∀ chunks, s.sweepChunks codec chunks = some (next, outcome, checks) →
      s.Leads next := fun chunks parsed =>
    (s.leads_learn s.streamParser _ s.downstreamCapacity).trans (leads_chunks codec parsed)
  have ended : ∀ kept (error : Error), s.Leads kept →
      some (kept, Except.error error, []) = some (next, outcome, checks) → s.Leads next := by
    intro kept error leads same
    cases same
    exact leads
  unfold fetchSamples at fetched
  dsimp only at fetched
  split at fetched
  · exact ended _ _ (.refl s) fetched
  · split at fetched
    · exact swept _ fetched
    · split at fetched
      · exact ended _ _ s.leads_cleanup fetched
      · split at fetched
        · exact swept _ fetched
        · split at fetched
          · exact swept _ fetched
          · exact ended _ _ s.leads_cleanup fetched
          · exact swept _ fetched

theorem leads_refill {s next : HttpSource Sample} {below left : Nat} {fetches : Nat → Fetch}
    {alive : Bool} {checks : List TrimCheck}
    (refilled : s.refill codec below fetches left = some (next, alive, checks)) :
    s.Leads next := by
  induction left generalizing s checks with
  | zero =>
      cases refilled
      exact .refl _
  | succ left ih =>
      rw [refill] at refilled
      split at refilled
      · obtain ⟨⟨middle, outcome, first⟩, fetched, rest⟩ := Option.bind_eq_some_iff.mp refilled
        have fetch := leads_fetch codec fetched
        cases outcome with
        | error e =>
            cases rest
            exact fetch.trans middle.leads_cleanup
        | ok added =>
            cases added with
            | zero =>
                cases rest
                exact fetch
            | succ added =>
                obtain ⟨⟨last, ending, more⟩, later, same⟩ := Option.map_eq_some_iff.mp rest
                cases same
                exact fetch.trans (ih later)
      · cases refilled
        exact .refl _

/-- **A call of `work` is a run**: whatever it reports and puts out, a run of the
source from the same state reports and puts out. -/
theorem work_run {r : Playback Sample} {call : Call} {worked : Worked Sample}
    (done : r.source.work codec call = some worked) :
    ∃ actions r', r.run actions = some r' ∧ r'.source = worked.source ∧
      r'.outputs.map Prod.snd = r.outputs.map Prod.snd ++ worked.samples ∧
      r'.records.map Recorded.record = r.records.map Recorded.record ++ worked.records := by
  obtain ⟨⟨next, alive, checks⟩, refilled, rfl⟩ := Option.map_eq_some_iff.mp done
  have started : r.source.Leads (if call.restart then r.source.restart else r.source) := by
    split
    · rintro r' same
      exact ⟨[.restart], _, rfl, by rw [← same], rfl, rfl⟩
    · exact .refl _
  generalize (if call.restart then r.source.restart else r.source) = start at started refilled
  have learned : start.Leads (start.learnOutput call.maxItems) := by
    unfold learnOutput
    split
    · exact start.leads_learn start.streamParser start.maxChunkBytes call.maxItems
    · exact .refl _
  obtain ⟨actions, r', ran, rfl, outputs, records⟩ :=
    (started.trans learned).trans (leads_refill codec refilled) r rfl
  cases alive with
  | false =>
      refine ⟨actions, r', ran, rfl, ?_, ?_⟩
      · rw [outputs]
        exact (List.append_nil _).symm
      · rw [records]
        exact (List.append_nil _).symm
  | true =>
      refine ⟨actions ++ [.produce call.room], r'.afterProduce call.room, ?_, rfl, ?_, ?_⟩
      · rw [run_append ran]
        rfl
      · unfold Playback.afterProduce
        rw [outputs, List.map_append, List.map_map]
        congr 1
        exact List.zipIdx_map_fst _ _
      · unfold Playback.afterProduce
        rw [records, List.map_append, List.map_map]
        congr 1
        exact List.map_id _

end HttpSource
end SdrAaronia
