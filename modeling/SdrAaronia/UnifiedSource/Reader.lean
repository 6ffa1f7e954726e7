import SdrAaronia.HttpStreaming.DropDetector
import SdrAaronia.UnifiedSource.Session

/-! # The reader task and the drop total

The task that drains the connection counts the gaps it sees and sends the count
with every packet.  It keeps its detector over reconnects; a restart of the
source starts another task.
-/

namespace SdrAaronia

open HttpStreaming

def maxReconnectAttempts : Nat := 5

def maxConsecutiveStreamErrors : Nat := 5

structure ReaderState where
  dropDetector : DropDetector := .default
  reconnects : Nat := 0
  /-- The first packet behind a reconnect reports the gap. -/
  flagOverrunAfterGap : Bool := false
  deliveredAny : Bool := false
  /-- There is a connection. -/
  connected : Bool := false
  consecutiveErrors : Nat := 0
  deriving DecidableEq, Repr

/-- What the network does to the task.  A connection is healthy when it has been
up for long enough to earn back the reconnect budget. -/
inductive StreamEvent (Sample : Type) where
  | connected
  | refused
  | packet (packet : StreamPacket Sample)
  | failed (healthy : Bool)
  | ended (healthy : Bool)

/-- The task after an event, the packet it sent, and whether it goes on. -/
structure ReaderStep (Sample : Type) where
  state : ReaderState
  sent : Option (ChannelPacket Sample) := none
  observedRateHz : Option F64 := none
  finished : Bool := false

namespace ReaderState

variable {Sample : Type}

/-- Another attempt, counted, while reconnecting is on and within budget. -/
def shouldReconnect (s : ReaderState) (autoReconnect : Bool) : Option ReaderState :=
  if autoReconnect ∧ s.reconnects < maxReconnectAttempts then
    some { s with reconnects := s.reconnects + 1 }
  else none

/-- The connection is gone. -/
def lost (s : ReaderState) (autoReconnect healthy : Bool) : ReaderStep Sample :=
  let settled := if healthy then { s with reconnects := 0 } else s
  match settled.shouldReconnect autoReconnect with
  | none => { state := settled, finished := true }
  | some again =>
      { state := { again with
          dropDetector := again.dropDetector.resync
          flagOverrunAfterGap := true
          connected := false } }

/-- An IQ packet on its way to the channel.  The pending flag is taken only when
the detector saw no break itself. -/
def forward (s : ReaderState) (packet : StreamPacket Sample) : ReaderStep Sample :=
  let (detector, result) := s.dropDetector.observe packet.metadata
  let broken := match result with
    | .drop _ | .backward _ => true
    | .continuous => false
  { state := { s with
      dropDetector := detector
      flagOverrunAfterGap := broken && s.flagOverrunAfterGap
      deliveredAny := true }
    sent := some {
      samples := packet.samples
      dropped := broken || s.flagOverrunAfterGap
      cumulativeDrops := detector.drops
      timestampNs := (packet.metadata.startTime * .finite 1000000000).toI64
      frequencyHz := packet.sdrConfig.centerFrequencyHz
      rateHz := packet.sdrConfig.sampleRateHz }
    observedRateHz :=
      if 0 < packet.sdrConfig.sampleRateHz then some packet.sdrConfig.sampleRateHz else none }

/-- One event; one that does not fit the connection's state changes nothing. -/
def step (s : ReaderState) (autoReconnect : Bool) : StreamEvent Sample → ReaderStep Sample
  | .connected =>
      { state := if s.connected then s else { s with connected := true, consecutiveErrors := 0 } }
  | .refused =>
      if s.connected then { state := s }
      else
        match s.shouldReconnect autoReconnect with
        | none => { state := s, finished := true }
        | some again => { state := { again with flagOverrunAfterGap := s.deliveredAny } }
  | .packet packet =>
      if s.connected then
        let calmed := { s with consecutiveErrors := 0 }
        if packet.metadata.payload = .iq then calmed.forward packet else { state := calmed }
      else { state := s }
  | .failed healthy =>
      if s.connected then
        let counted := { s with consecutiveErrors := s.consecutiveErrors + 1 }
        if maxConsecutiveStreamErrors ≤ counted.consecutiveErrors then
          counted.lost autoReconnect healthy
        else { state := counted }
      else { state := s }
  | .ended healthy => if s.connected then s.lost autoReconnect healthy else { state := s }

end ReaderState

/-- A session with the reader task that feeds it. -/
structure LiveSession (Sample : Type) where
  session : Session Sample
  reader : ReaderState
  autoReconnect : Bool

inductive LiveAction (Sample : Type) where
  | stream (event : StreamEvent Sample)
  | read (buffer : List Sample) (maxSamples inTime : Nat)
  | takeOverrun
  | start (reached : Except Error Unit)
  | stop

namespace LiveSession

variable {Sample : Type}

def opened (configSampleRateHz : F64) (autoReconnect : Bool) : LiveSession Sample where
  session := .opened configSampleRateHz
  reader := {}
  autoReconnect

/-- What a step of the task does to the source it feeds. -/
def published (session : Session Sample) (out : ReaderStep Sample) : List (SessionAction Sample) :=
  out.observedRateHz.toList.map .observe ++ out.sent.toList.map .deliver ++
    if out.finished ∨ (out.sent.isSome ∧ session.source.httpReceiver = none) then [.finish] else []

def step (l : LiveSession Sample) : LiveAction Sample → LiveSession Sample
  | .stream event =>
      if l.session.source.httpTask = some .running then
        let out := l.reader.step l.autoReconnect event
        { l with session := l.session.run (published l.session out), reader := out.state }
      else l
  | .read buffer maxSamples inTime =>
      { l with session := l.session.step (.read buffer maxSamples inTime) }
  | .takeOverrun => { l with session := l.session.step .takeOverrun }
  | .start reached =>
      if l.session.source.readerAlive then l
      else
        { l with
          session := l.session.step (.start reached)
          reader := match reached with
            | .ok () => {}
            | .error _ => l.reader }
  | .stop => { l with session := l.session.step .stop }

def run (l : LiveSession Sample) (actions : List (LiveAction Sample)) : LiveSession Sample :=
  actions.foldl step l

/-- The number of gaps seen since the source was created. -/
def cumulativeDrops (l : LiveSession Sample) : Nat :=
  l.session.source.cumulativeDrops

end LiveSession

/-! ## The counts a read copies -/

theorem HttpStreaming.DropDetector.drops_observe (d : DropDetector) (metadata : PacketMetadata) :
    d.drops ≤ (d.observe metadata).1.drops := by
  rw [DropDetector.observe]
  cases d.lastEndTime with
  | none => exact Nat.le_refl _
  | some prevEnd =>
      dsimp only
      split
      · exact Nat.le_succ _
      · split <;> exact Nat.le_refl _

section Counts

variable {Sample : Type}

/-- The drop total of a source, and the ones on their way to it. -/
def SpectranSource.counts (s : SpectranSource Sample) : List Nat :=
  s.cumulativeDrops :: (s.httpReceiver.getD []).map ChannelPacket.cumulativeDrops

theorem Batch.absorb_keeps {β : Type} (f : SpectranSource Sample → β)
    (ignores : ∀ (s : SpectranSource Sample) samples freqHz rateHz,
      f { s with
        sampleBuffer := samples
        sampleBufferFreqHz := freqHz
        sampleBufferRateHz := rateHz } = f s)
    (maxSamples : Nat) (b : Batch Sample) (packet : ChannelPacket Sample) :
    f (b.absorb maxSamples packet).source = f b.source := by
  rw [absorb]
  split
  · rfl
  · exact ignores _ _ _ _

/-- A read ends with the count of the last packet it took. -/
theorem SpectranSource.read_cumulativeDrops (s : SpectranSource Sample) (buffer : List Sample)
    (maxSamples inTime : Nat) :
    let o := s.readSamplesDeadline buffer maxSamples inTime
    o.source.cumulativeDrops =
        ((o.taken s).map ChannelPacket.cumulativeDrops).getLastD s.cumulativeDrops ∧
      o.source.httpTask = s.httpTask := by
  cases channel : s.httpReceiver with
  | none =>
      simp only [readSamplesDeadline_unopened channel, ReadOutcome.taken, Nat.sub_self,
        List.take_zero, List.map_nil, List.getLastD_nil, and_self]
  | some queue =>
      have count : ∀ (s : SpectranSource Sample) samples freqHz rateHz,
          ({ s with
            sampleBuffer := samples
            sampleBufferFreqHz := freqHz
            sampleBufferRateHz := rateHz }).cumulativeDrops = s.cumulativeDrops :=
        fun _ _ _ _ => rfl
      obtain ⟨b, halt, rest, taken, loop, cut, final⟩ :=
        Batch.receiveLoop_rule
          (fun got b _ => b.source.cumulativeDrops =
              (got.map ChannelPacket.cumulativeDrops).getLastD s.cumulativeDrops ∧
            b.source.httpTask = s.httpTask)
          (fun got b => b.source.cumulativeDrops =
              (got.map ChannelPacket.cumulativeDrops).getLastD s.cumulativeDrops ∧
            b.source.httpTask = s.httpTask)
          (fun got b packet _ held _ _ => by
            rw [Batch.absorb_keeps cumulativeDrops count,
              Batch.absorb_keeps httpTask fun _ _ _ _ => rfl, List.map_append, List.map_singleton,
              List.getLastD_concat]
            exact ⟨rfl, held.2⟩)
          (fun got b packet _ held _ _ _ => by
            rw [List.map_append, List.map_singleton, List.getLastD_concat]
            exact ⟨rfl, held.2⟩)
          (queue.take inTime) (Batch.begin s buffer maxSamples) []
          (by constructor <;> rw [Batch.begin] <;> dsimp only <;> split <;> rfl)
      have ends : b.source.cumulativeDrops =
          (taken.map ChannelPacket.cumulativeDrops).getLastD s.cumulativeDrops ∧
          b.source.httpTask = s.httpTask := by
        cases halt with
        | full => exact final.2
        | waiting => exact final.2.2
        | boundary => exact final
      dsimp only
      rw [read_keeps channel loop cumulativeDrops fun _ _ _ _ => rfl,
        read_keeps channel loop httpTask fun _ _ _ _ => rfl, read_taken channel loop cut]
      exact ends

/-- Taking a part off the front of an ordered list leaves its last element ahead of
an ordered rest. -/
theorem pairwise_getLastD {first : Nat} {front back : List Nat}
    (sorted : (first :: (front ++ back)).Pairwise (· ≤ ·)) :
    first ≤ front.getLastD first ∧ (front.getLastD first :: back).Pairwise (· ≤ ·) := by
  induction front generalizing first with
  | nil => exact ⟨Nat.le_refl _, sorted⟩
  | cons next front ih =>
      obtain ⟨below, others⟩ := List.pairwise_cons.mp sorted
      obtain ⟨grows, kept⟩ := ih others
      rw [List.getLastD_cons]
      exact ⟨(below next List.mem_cons_self).trans grows, kept⟩

end Counts

namespace ReaderState

variable {Sample : Type}

/-- The detector's total does not fall, and a packet is sent with the total. -/
def CountsOn (s : ReaderState) (out : ReaderStep Sample) : Prop :=
  s.dropDetector.drops ≤ out.state.dropDetector.drops ∧
    ∀ packet, out.sent = some packet → packet.cumulativeDrops = out.state.dropDetector.drops

theorem CountsOn.of_unsent {s : ReaderState} {out : ReaderStep Sample}
    (grows : s.dropDetector.drops ≤ out.state.dropDetector.drops) (unsent : out.sent = none) :
    s.CountsOn out := by
  refine ⟨grows, ?_⟩
  intro packet sent
  rw [unsent] at sent
  cases sent

theorem shouldReconnect_dropDetector {s again : ReaderState} {autoReconnect : Bool}
    (decided : s.shouldReconnect autoReconnect = some again) :
    again.dropDetector = s.dropDetector := by
  rw [shouldReconnect, Option.ite_none_right_eq_some, Option.some.injEq] at decided
  rw [← decided.2]

theorem lost_countsOn (s : ReaderState) (autoReconnect healthy : Bool) :
    s.CountsOn (s.lost autoReconnect healthy : ReaderStep Sample) := by
  have settled : (if healthy then { s with reconnects := 0 } else s).dropDetector =
      s.dropDetector := by
    cases healthy <;> rfl
  rw [lost]
  split
  · exact .of_unsent (by rw [settled]) rfl
  · next again decided =>
    apply CountsOn.of_unsent _ rfl
    rw [← settled, ← shouldReconnect_dropDetector decided]
    exact Nat.le_refl _

theorem forward_countsOn (s : ReaderState) (packet : StreamPacket Sample) :
    s.CountsOn (s.forward packet) := by
  refine ⟨DropDetector.drops_observe _ _, ?_⟩
  intro sent same
  rw [← Option.some.inj same]
  rfl

theorem step_drops (s : ReaderState) (autoReconnect : Bool) (event : StreamEvent Sample) :
    s.CountsOn (s.step autoReconnect event) := by
  have still : s.CountsOn ({ state := s } : ReaderStep Sample) := .of_unsent (Nat.le_refl _) rfl
  cases event with
  | connected =>
      apply CountsOn.of_unsent _ rfl
      rw [step]
      split <;> exact Nat.le_refl _
  | refused =>
      rw [step]
      split
      · exact still
      · split
        · exact .of_unsent (Nat.le_refl _) rfl
        · next again decided =>
          exact .of_unsent (shouldReconnect_dropDetector decided ▸ Nat.le_refl _) rfl
  | packet packet =>
      rw [step]
      split
      · split
        · exact forward_countsOn { s with consecutiveErrors := 0 } packet
        · exact .of_unsent (Nat.le_refl _) rfl
      · exact still
  | failed healthy =>
      rw [step]
      split
      · dsimp only
        split
        · exact lost_countsOn { s with consecutiveErrors := s.consecutiveErrors + 1 }
            autoReconnect healthy
        · exact .of_unsent (Nat.le_refl _) rfl
      · exact still
  | ended healthy =>
      rw [step]
      split
      · exact lost_countsOn s autoReconnect healthy
      · exact still

end ReaderState

namespace LiveSession

variable {Sample : Type}

/-! ## Whole runs -/

/-- The totals on their way are in order, none above the running detector's. -/
structure Counted (l : LiveSession Sample) : Prop where
  sorted : l.session.source.counts.Pairwise (· ≤ ·)
  bounded : l.session.source.httpTask = some .running →
    ∀ n ∈ l.session.source.counts, n ≤ l.reader.dropDetector.drops

/-- A restart that reconnects comes while no gap has been counted. -/
def Heeds (l : LiveSession Sample) : LiveAction Sample → Prop
  | .start reached =>
      l.session.source.readerAlive = false → reached = .ok () → l.cumulativeDrops = 0
  | _ => True

/-- The runs whose every step heeds the condition. -/
inductive Heeding (configSampleRateHz : F64) (autoReconnect : Bool) : LiveSession Sample →
    Prop where
  | opened : Heeding configSampleRateHz autoReconnect (opened configSampleRateHz autoReconnect)
  | step {l : LiveSession Sample} (action : LiveAction Sample) :
      Heeding configSampleRateHz autoReconnect l → l.Heeds action →
      Heeding configSampleRateHz autoReconnect (l.step action)

/-- What the task publishes puts its packet on the channel and may end the task. -/
theorem published_source (session : Session Sample) (out : ReaderStep Sample)
    (running : session.source.httpTask = some .running) :
    (session.run (published session out)).source.cumulativeDrops = session.source.cumulativeDrops ∧
      (session.run (published session out)).source.httpReceiver =
        session.source.httpReceiver.map (· ++ out.sent.toList) := by
  obtain ⟨state, sent, observed, finished⟩ := out
  cases observed <;> cases sent <;> cases channel : session.source.httpReceiver <;>
    cases finished <;>
    simp [published, Session.run, Session.step, running, channel]

theorem Counted.stream {l : LiveSession Sample} (counted : Counted l) (event : StreamEvent Sample) :
    Counted (l.step (.stream event)) ∧
      l.cumulativeDrops ≤ (l.step (.stream event)).cumulativeDrops := by
  rw [step]
  split
  · next running =>
    obtain ⟨grows, sent⟩ := l.reader.step_drops l.autoReconnect event
    generalize l.reader.step l.autoReconnect event = out at grows sent ⊢
    obtain ⟨same, queue⟩ := published_source l.session out running
    have bounded := counted.bounded running
    have counts : (l.session.run (published l.session out)).source.counts =
          l.session.source.counts ∨
        ∃ n ≤ out.state.dropDetector.drops,
          (l.session.run (published l.session out)).source.counts =
            l.session.source.counts ++ [n] ∧ out.state.dropDetector.drops ≤ n := by
      rw [SpectranSource.counts, SpectranSource.counts, same, queue]
      cases l.session.source.httpReceiver with
      | none => exact .inl rfl
      | some waiting =>
          cases delivered : out.sent with
          | none => exact .inl (by simp)
          | some packet =>
              have total := sent packet delivered
              exact .inr ⟨packet.cumulativeDrops, total.le, by simp, total.ge⟩
    refine ⟨⟨?_, fun _ => ?_⟩, same.ge⟩
    · rcases counts with kept | ⟨n, -, grown, most⟩
      · simp only [kept]
        exact counted.sorted
      · simp only [grown]
        rw [List.pairwise_append]
        refine ⟨counted.sorted, List.pairwise_singleton _ _, fun a before b last => ?_⟩
        rw [List.mem_singleton.mp last]
        exact ((bounded a before).trans grows).trans most
    · rcases counts with kept | ⟨n, least, grown, -⟩
      · simp only [kept]
        exact fun a before => (bounded a before).trans grows
      · simp only [grown]
        intro a member
        rcases List.mem_append.mp member with before | last
        · exact (bounded a before).trans grows
        · rw [List.mem_singleton.mp last]
          exact least
  · exact ⟨counted, Nat.le_refl _⟩

theorem Counted.read {l : LiveSession Sample} (counted : Counted l) (buffer : List Sample)
    (maxSamples inTime : Nat) :
    Counted (l.step (.read buffer maxSamples inTime)) ∧
      l.cumulativeDrops ≤ (l.step (.read buffer maxSamples inTime)).cumulativeDrops := by
  obtain ⟨count, task⟩ := l.session.source.read_cumulativeDrops buffer maxSamples inTime
  have read := l.session.source.read_conserves buffer maxSamples inTime
  have sorted := counted.sorted
  have queue := congrArg (List.map ChannelPacket.cumulativeDrops) read.inOrder
  rw [List.map_append] at queue
  rw [SpectranSource.counts, queue] at sorted
  obtain ⟨grows, kept⟩ := pairwise_getLastD sorted
  rw [← count] at grows kept
  refine ⟨⟨kept, fun running n member => ?_⟩, grows⟩
  have bounded := counted.bounded (task.symm.trans running)
  rw [SpectranSource.counts, queue] at bounded
  rcases List.mem_cons.mp member with rfl | waiting
  · apply count.le.trans
    rcases List.mem_cons.mp List.getLastD_mem_cons with first | taken
    · rw [first]
      exact bounded _ List.mem_cons_self
    · exact bounded _ (List.mem_cons_of_mem _ (List.mem_append_left _ taken))
  · exact bounded n (List.mem_cons_of_mem _ (List.mem_append_right _ waiting))

theorem counted_step {l : LiveSession Sample} {action : LiveAction Sample} (counted : Counted l)
    (heeds : l.Heeds action) :
    Counted (l.step action) ∧ l.cumulativeDrops ≤ (l.step action).cumulativeDrops := by
  cases action with
  | stream event => exact counted.stream event
  | read buffer maxSamples inTime => exact counted.read buffer maxSamples inTime
  | takeOverrun => exact ⟨⟨counted.sorted, counted.bounded⟩, Nat.le_refl _⟩
  | stop =>
      refine ⟨⟨List.pairwise_singleton _ _, fun running => ?_⟩, Nat.le_refl _⟩
      exact absurd running (Option.some_ne_none _).symm
  | start reached =>
      cases alive : l.session.source.readerAlive with
      | true =>
          have same : l.step (.start reached) = l := by cases reached <;> simp [step, alive]
          rw [same]
          exact ⟨counted, Nat.le_refl _⟩
      | false =>
          cases reached with
          | ok =>
              have zero : l.session.source.cumulativeDrops = 0 := heeds alive rfl
              have source : (l.step (.start (.ok ()))).session.source.counts = [0] := by
                simp [step, Session.step, alive, SpectranSource.startStreaming,
                  SpectranSource.initHttpSource, SpectranSource.counts, zero]
              refine ⟨⟨source ▸ List.pairwise_singleton _ _, fun _ n member => ?_⟩, ?_⟩
              · rw [source] at member
                rw [List.mem_singleton.mp member]
                exact Nat.zero_le _
              · rw [cumulativeDrops, zero]
                exact Nat.zero_le _
          | error e =>
              have source : (l.step (.start (.error e))).session.source.counts =
                  l.session.source.counts ∧
                  (l.step (.start (.error e))).session.source.httpTask = none := by
                simp [step, Session.step, alive, SpectranSource.startStreaming,
                  SpectranSource.initHttpSource, SpectranSource.counts]
              refine ⟨⟨source.1 ▸ counted.sorted, fun running => ?_⟩, ?_⟩
              · exact absurd (source.2.symm.trans running) (Option.some_ne_none _).symm
              · exact (List.cons.inj source.1).1.ge

theorem Heeding.counted {configSampleRateHz : F64} {autoReconnect : Bool} {l : LiveSession Sample}
    (heeding : Heeding configSampleRateHz autoReconnect l) : Counted l := by
  induction heeding with
  | opened =>
      refine ⟨List.pairwise_singleton _ _, fun _ n member => ?_⟩
      rw [List.mem_singleton.mp member]
      exact Nat.zero_le _
  | step _ _ heeds counted => exact (counted_step counted heeds).1

/-- In every run whose steps heed the condition, the drop total never falls. -/
theorem cumulativeDrops_monotone {configSampleRateHz : F64} {autoReconnect : Bool}
    {l : LiveSession Sample} (heeding : Heeding configSampleRateHz autoReconnect l)
    (action : LiveAction Sample) (heeds : l.Heeds action) :
    l.cumulativeDrops ≤ (l.step action).cumulativeDrops :=
  (counted_step heeding.counted heeds).2

/-- An IQ packet of one second. -/
def secondPacket (start : ℚ) (samples : List Nat) : StreamPacket Nat :=
  .new { startTime := .finite start, endTime := .finite (start + 1), startFrequency := 0,
         endFrequency := 2, samples := samples.length, payload := .iq, sampleSize := 2 } samples

/-- A gap is counted, and waits to be read. -/
def brokenRun : List (LiveAction Nat) :=
  [.stream .connected, .stream (.packet (secondPacket 0 [1])),
    .stream (.packet (secondPacket 9 [2])), .read [] 1 9]

theorem cumulativeDrops_monotone_brokenRun :
    (run (opened 10 true) brokenRun).cumulativeDrops ≤
      ((run (opened 10 true) brokenRun).step (.read [] 1 9)).cumulativeDrops := by
  have heeding : Heeding 10 true (run (opened 10 true) brokenRun) :=
    .step (.read [] 1 9) (.step (.stream (.packet (secondPacket 9 [2])))
      (.step (.stream (.packet (secondPacket 0 [1]))) (.step (.stream .connected) .opened trivial)
        trivial) trivial) trivial
  exact cumulativeDrops_monotone heeding (.read [] 1 9) trivial

/-- A gap is counted and read; then the source is stopped and started again. -/
def restartedRun : List (LiveAction Nat) :=
  [.stream .connected, .stream (.packet (secondPacket 0 [1])),
    .stream (.packet (secondPacket 9 [2])), .read [] 1 9, .read [] 1 9, .stop, .start (.ok ()),
    .stream .connected, .stream (.packet (secondPacket 20 [3]))]

/-- The new task's detector starts from nothing, and the next read takes its total. -/
theorem restartedRun_falls :
    (run (opened 10 true) restartedRun).cumulativeDrops = 1 ∧
      ((run (opened 10 true) restartedRun).step (.read [] 1 9)).cumulativeDrops = 0 := by
  decide +kernel

end LiveSession

end SdrAaronia
