import Mathlib.Data.List.Chain
import SdrAaronia.UnifiedSource.Overrun
import SdrAaronia.UnifiedSource.Reader

/-! # Reads and connections

The reader task goes from one connection to the next and feeds one channel.  A
ledger notes, next to a live session, which packets the network handed to the task
and over which connection, what the reads returned, and what each restart and each
stop threw away.  Nothing the source does reads it, and nothing in it is erased.
-/

namespace SdrAaronia

open HttpStreaming Segments

/-! ## The ledger -/

/-- The IQ packet that the task takes from an event. -/
def ReaderState.arrival {Sample : Type} (s : ReaderState) :
    StreamEvent Sample → Option (StreamPacket Sample)
  | .packet packet => if s.connected ∧ packet.metadata.payload = .iq then some packet else none
  | .connected | .refused | .failed _ | .ended _ => none

/-- The event opens a connection. -/
def ReaderState.opens {Sample : Type} (s : ReaderState) : StreamEvent Sample → Bool
  | .connected => !s.connected
  | .packet _ | .refused | .failed _ | .ended _ => false

/-- A stream that a restart has put an end to. -/
structure PastStream (Sample : Type) where
  arrived : List (Nat × StreamPacket Sample)
  returned : List Sample
  /-- What the restart threw away. -/
  discarded : List Sample

structure Ledger (Sample : Type) where
  live : LiveSession Sample
  /-- The connections that the running task has opened. -/
  connections : Nat
  /-- The IQ packets of the stream, each with the number of its connection. -/
  arrived : List (Nat × StreamPacket Sample)
  /-- The same packets as they were put on the channel. -/
  sent : List (Nat × ChannelPacket Sample)
  /-- What a stop has left on the channel. -/
  unread : List (ChannelPacket Sample)
  past : List (PastStream Sample)
  /-- The IQ packets of all streams. -/
  delivered : List (StreamPacket Sample)
  /-- What all reads have returned. -/
  handed : List Sample

namespace Ledger

variable {Sample : Type}

def opened (configSampleRateHz : F64) (autoReconnect : Bool) : Ledger Sample where
  live := .opened configSampleRateHz autoReconnect
  connections := 0
  arrived := []
  sent := []
  unread := []
  past := []
  delivered := []
  handed := []

/-- One event met by the running task. -/
def note (l : Ledger Sample) (event : StreamEvent Sample) : Ledger Sample :=
  let reader := l.live.reader
  let connections := if reader.opens event then l.connections + 1 else l.connections
  { l with
    live := l.live.step (.stream event)
    connections
    arrived := l.arrived ++ (reader.arrival event).toList.map (connections, ·)
    sent := l.sent ++
      (reader.step l.live.autoReconnect event).sent.toList.map (connections, ·)
    delivered := l.delivered ++ (reader.arrival event).toList }

/-- The samples stashed, those on the channel, and those that a stop left there. -/
def waiting (l : Ledger Sample) : List Sample :=
  let source := l.live.session.source
  source.sampleBuffer ++
    (source.httpReceiver.getD [] ++ l.unread).flatMap ChannelPacket.samples

/-- The source is not alive and connects anew.  That begins a new stream, and throws away all that
waits; where it fails, it throws away the stash and leaves the old channel to be read. -/
def restart (l : Ledger Sample) (live : LiveSession Sample) : Except Error Unit → Ledger Sample
  | .ok () =>
      { l with
        live
        connections := 0
        arrived := []
        sent := []
        unread := []
        past := l.past ++ [⟨l.arrived, l.live.session.returned, l.waiting⟩] }
  | .error _ =>
      let received := l.live.session.received.length
      { l with
        live
        arrived := l.arrived.drop received
        sent := l.sent.drop received
        past := l.past ++ [⟨l.arrived.take received, l.live.session.returned,
          l.live.session.source.sampleBuffer⟩] }

def step (l : Ledger Sample) : LiveAction Sample → Ledger Sample
  | .stream event =>
      if l.live.session.source.httpTask = some .running then l.note event else l
  | .start reached =>
      let live := l.live.step (.start reached)
      if l.live.session.source.readerAlive then { l with live } else l.restart live reached
  | .read buffer maxSamples inTime =>
      let outcome := l.live.session.source.readSamplesDeadline buffer maxSamples inTime
      { l with
        live := l.live.step (.read buffer maxSamples inTime)
        handed := l.handed ++ outcome.appended buffer }
  | .takeOverrun => { l with live := l.live.step .takeOverrun }
  | .stop =>
      { l with
        live := l.live.step .stop
        unread := l.live.session.source.httpReceiver.getD [] ++ l.unread }

def run (l : Ledger Sample) (actions : List (LiveAction Sample)) : Ledger Sample :=
  actions.foldl step l

/-- The ledger goes along with the session and does not steer it. -/
theorem run_live (l : Ledger Sample) (actions : List (LiveAction Sample)) :
    (l.run actions).live = l.live.run actions := by
  induction actions generalizing l with
  | nil => rfl
  | cons action actions ih =>
      have here : (l.step action).live = l.live.step action := by
        cases action with
        | stream event =>
            rw [step]
            split
            · rfl
            · next gone => rw [LiveSession.step, if_neg gone]
        | start reached =>
            simp only [step]
            split
            · rfl
            · cases reached <;> rfl
        | read | takeOverrun | stop => rfl
      rw [run, List.foldl_cons, ← run, ih, here]
      rfl

end Ledger

namespace ReaderState

variable {Sample : Type}

theorem lost_sent (s : ReaderState) (autoReconnect healthy : Bool) :
    (s.lost autoReconnect healthy : ReaderStep Sample).sent = none := by
  rw [lost]
  split <;> rfl

theorem step_sends (s : ReaderState) (autoReconnect : Bool) (event : StreamEvent Sample) :
    (s.step autoReconnect event).sent.map ChannelPacket.samples =
        (s.arrival event).map StreamPacket.samples ∧
      ∀ packet, (s.step autoReconnect event).sent = some packet →
        s.connected = true ∧ (s.step autoReconnect event).state.connected = true ∧
          (s.step autoReconnect event).state.deliveredAny = true ∧
          (s.flagOverrunAfterGap = true → packet.dropped = true) := by
  cases event with
  | packet packet =>
      rw [step, arrival]
      by_cases connected : s.connected = true
      · by_cases iq : packet.metadata.payload = .iq
        · rw [if_pos connected, if_pos iq, if_pos ⟨connected, iq⟩]
          refine ⟨rfl, fun sent same => ⟨connected, connected, rfl, fun flagged => ?_⟩⟩
          cases same
          exact Bool.or_eq_true_iff.mpr (.inr flagged)
        · rw [if_pos connected, if_neg iq, if_neg fun both => iq both.2]
          exact ⟨rfl, fun _ same => by cases same⟩
      · rw [if_neg connected, if_neg fun both => connected both.1]
        exact ⟨rfl, fun _ same => by cases same⟩
  | connected => exact ⟨rfl, fun _ same => by cases same⟩
  | refused =>
      have unsent : (s.step autoReconnect (.refused : StreamEvent Sample)).sent = none := by
        grind [step]
      rw [unsent]
      exact ⟨rfl, fun _ same => by cases same⟩
  | failed healthy =>
      have unsent : (s.step autoReconnect (.failed healthy : StreamEvent Sample)).sent = none := by
        grind [step, lost_sent]
      rw [unsent]
      exact ⟨rfl, fun _ same => by cases same⟩
  | ended healthy =>
      have unsent : (s.step autoReconnect (.ended healthy : StreamEvent Sample)).sent = none := by
        grind [step, lost_sent]
      rw [unsent]
      exact ⟨rfl, fun _ same => by cases same⟩

/-- An event that puts nothing on the channel ends the task, keeps the connection, or
leaves the gap to be reported. -/
theorem step_silent (s : ReaderState) (autoReconnect : Bool) (event : StreamEvent Sample)
    (silent : (s.step autoReconnect event).sent = none)
    (goes : (s.step autoReconnect event).finished = false) :
    (s.step autoReconnect event).state.deliveredAny = s.deliveredAny ∧
      (s.connected = true → (s.step autoReconnect event).state.connected = true ∨
        (s.step autoReconnect event).state.flagOverrunAfterGap = true) ∧
      (s.deliveredAny = true → s.flagOverrunAfterGap = true →
        (s.step autoReconnect event).state.flagOverrunAfterGap = true) := by
  cases event with
  | connected => grind [step]
  | refused => grind [step, shouldReconnect]
  | packet packet => grind [step, forward]
  | failed healthy => grind [step, lost, shouldReconnect]
  | ended healthy => grind [step, lost, shouldReconnect]

/-! ### The reconnect budget -/

/-- The connections that the task opens over these events, until it ends. -/
def connectionsOver (autoReconnect : Bool) : ReaderState → List (StreamEvent Sample) → Nat
  | _, [] => 0
  | s, event :: events =>
      let out := s.step autoReconnect event
      (if s.opens event then 1 else 0) +
        if out.finished then 0 else connectionsOver autoReconnect out.state events

/-- The event loses a connection that was up long enough. -/
def losesHealthy (s : ReaderState) (autoReconnect : Bool) (event : StreamEvent Sample) : Bool :=
  s.connected && !(s.step autoReconnect event).state.connected &&
    match event with
    | .failed healthy | .ended healthy => healthy
    | .connected | .refused | .packet _ => false

/-- The connections up long enough that the task loses over these events, until it ends. -/
def healthyOver (autoReconnect : Bool) : ReaderState → List (StreamEvent Sample) → Nat
  | _, [] => 0
  | s, event :: events =>
      let out := s.step autoReconnect event
      (if s.losesHealthy autoReconnect event then 1 else 0) +
        if out.finished then 0 else healthyOver autoReconnect out.state events

/-- The connections that the task may still open without losing a healthy one. -/
def budget (s : ReaderState) : Nat :=
  maxReconnectAttempts - s.reconnects + if s.connected then 0 else 1

/-- Opening a connection spends the budget, and only the loss of a healthy one refills it. -/
theorem step_budget (s : ReaderState) (autoReconnect : Bool) (event : StreamEvent Sample)
    (within : s.reconnects ≤ maxReconnectAttempts) :
    (s.opens event → 0 < s.budget) ∧
      ((s.step autoReconnect event).finished = false →
        (s.step autoReconnect event).state.reconnects ≤ maxReconnectAttempts ∧
        (s.step autoReconnect event).state.budget + (if s.opens event then 1 else 0) ≤
          s.budget + if s.losesHealthy autoReconnect event then maxReconnectAttempts else 0) := by
  cases event with
  | connected => grind [step, opens, budget, losesHealthy]
  | refused => grind [step, shouldReconnect, opens, budget, losesHealthy]
  | packet packet => grind [step, forward, opens, budget, losesHealthy]
  | failed healthy => grind [step, lost, shouldReconnect, opens, budget, losesHealthy]
  | ended healthy => grind [step, lost, shouldReconnect, opens, budget, losesHealthy]

theorem connectionsOver_le (autoReconnect : Bool) (s : ReaderState)
    (events : List (StreamEvent Sample)) (within : s.reconnects ≤ maxReconnectAttempts) :
    connectionsOver autoReconnect s events ≤
      s.budget + maxReconnectAttempts * healthyOver autoReconnect s events := by
  induction events generalizing s with
  | nil => exact Nat.zero_le _
  | cons event events ih =>
      obtain ⟨affords, goes⟩ := s.step_budget autoReconnect event within
      rw [connectionsOver, healthyOver, Nat.mul_add]
      cases finished : (s.step autoReconnect event).finished with
      | true =>
          have one : (if s.opens event then 1 else 0) ≤ s.budget := by
            split
            · next opening => exact affords opening
            · exact Nat.zero_le _
          rw [if_pos rfl]
          exact one.trans (Nat.le_add_right _ _)
      | false =>
          obtain ⟨within', spends⟩ := goes finished
          have later := ih _ within'
          rw [if_neg Bool.false_ne_true, if_neg Bool.false_ne_true]
          cases healthy : s.losesHealthy autoReconnect event with
          | true =>
              rw [healthy, if_pos rfl] at spends
              rw [if_pos rfl]
              omega
          | false =>
              rw [healthy, if_neg Bool.false_ne_true] at spends
              rw [if_neg Bool.false_ne_true]
              omega

/-- **A server that never stays up is given up**: the task opens six connections at the
most, and five more for every one of them that it lost after it had been up long enough. -/
theorem reconnects_bounded (autoReconnect : Bool) (events : List (StreamEvent Sample)) :
    connectionsOver autoReconnect {} events ≤
      (maxReconnectAttempts + 1) + maxReconnectAttempts * healthyOver autoReconnect {} events :=
  connectionsOver_le autoReconnect {} events (Nat.zero_le _)

end ReaderState

/-! ## Gaps and reads -/

namespace Session

variable {Sample : Type}

/-- No gap lies behind the samples returned so far. -/
def CaughtUp (r : Session Sample) : Prop :=
  ∀ place, GapBefore r.received place → place ≤ r.returned.length

/-- The gaps among the packets that a read takes lie ahead of its samples or behind
them, not between two of them. -/
theorem CaughtUp.read_gaps {r : Session Sample} (caughtUp : CaughtUp r) (conserved : r.Conserved)
    (buffer : List Sample) (maxSamples inTime : Nat) :
    let o := r.source.readSamplesDeadline buffer maxSamples inTime
    ∀ place, GapBefore (r.received ++ o.taken r.source) place →
      place ≤ r.returned.length ∨ place = r.returned.length + (o.appended buffer).length := by
  intro o place gap
  cases channel : r.source.httpReceiver with
  | none =>
      refine .inl (caughtUp place ?_)
      simpa only [o, ReadOutcome.taken, SpectranSource.readSamplesDeadline_unopened channel,
        Nat.sub_self, List.take_zero, List.append_nil] using gap
  | some queue =>
      have place_snoc : ∀ {got : List (ChannelPacket Sample)} {b : Batch Sample},
          Batch.Open r.source buffer maxSamples got b → b.collected < maxSamples →
          total ChannelPacket.size (r.received ++ got) = r.returned.length + b.collected := by
        intro got b gathered room
        rw [gathered.total conserved, gathered.drained room, List.length_nil, Nat.add_zero]
      obtain ⟨b, halt, rest, taken, loop, cut, gathered, final⟩ :=
        Batch.gather_rule r.source buffer maxSamples
          (fun got _ _ => ∀ place, GapBefore (r.received ++ got) place →
            place ≤ r.returned.length)
          (fun got b => ∀ place, GapBefore (r.received ++ got) place →
            place ≤ r.returned.length ∨ place = r.returned.length + b.collected)
          (by
            intro got b packet rest gathered before room joins place gap
            rw [← List.append_assoc, gapBefore_snoc] at gap
            rcases gap with earlier | ⟨flagged, here⟩
            · exact before place earlier
            · -- a flagged packet joins only a batch that has no samples yet
              have none : b.collected = 0 := by
                by_contra some
                exact joins ⟨Nat.pos_of_ne_zero some, .inl flagged⟩
              rw [here, place_snoc gathered room, none]
              exact Nat.le_refl _)
          (by
            intro got b packet rest gathered before room _ _ place gap
            rw [← List.append_assoc, gapBefore_snoc] at gap
            rcases gap with earlier | ⟨-, here⟩
            · exact .inl (before place earlier)
            · have ends := place_snoc gathered room
              exact .inr (here.trans ends))
          (queue.take inTime)
          (by
            intro place gap
            rw [List.append_nil] at gap
            exact caughtUp place gap)
      obtain ⟨appended, grown, count, -⟩ := gathered.conserved
      have added : (o.appended buffer).length = b.collected := by
        rw [ReadOutcome.appended, SpectranSource.read_buffer channel loop, grown, List.drop_left,
          count]
      have took : o.taken r.source = taken := SpectranSource.read_taken channel loop cut
      rw [took] at gap
      rw [added]
      cases halt with
      | full => exact .inl (final.2 place gap)
      | waiting => exact .inl (final.2.2.2 place gap)
      | boundary => exact final.2 place gap

theorem CaughtUp.read {r : Session Sample} (caughtUp : CaughtUp r) (conserved : r.Conserved)
    (buffer : List Sample) (maxSamples inTime : Nat) :
    CaughtUp (r.step (.read buffer maxSamples inTime)) := by
  intro place gap
  have ahead := caughtUp.read_gaps conserved buffer maxSamples inTime place gap
  simp only [step, afterRead, List.length_append]
  omega

end Session

theorem SpectranSource.read_isSome {Sample : Type} (s : SpectranSource Sample)
    (buffer : List Sample) (maxSamples inTime : Nat) :
    (s.readSamplesDeadline buffer maxSamples inTime).source.httpReceiver.isSome =
      s.httpReceiver.isSome := by
  cases channel : s.httpReceiver with
  | none => rw [readSamplesDeadline_unopened channel, channel]
  | some queue =>
      obtain ⟨b, halt, rest, taken, loop, -⟩ :=
        Batch.receiveLoop_gathers s buffer maxSamples (queue.take inTime)
      rw [read_queue channel loop]
      rfl

/-! ## What the ledger says of the stream -/

namespace Ledger

variable {Sample : Type}

/-- A packet that comes over another connection than the one before reports the gap. -/
def Marked (sent : List (Nat × ChannelPacket Sample)) : Prop :=
  sent.IsChain fun before after => before.1 ≠ after.1 → after.2.dropped = true

theorem Marked.between {first last : Nat × ChannelPacket Sample}
    {middle after : List (Nat × ChannelPacket Sample)}
    (marked : Marked (first :: (middle ++ last :: after))) (apart : first.1 ≠ last.1) :
    ∃ ahead flagged behind, middle ++ last :: after = ahead ++ flagged :: behind ∧
      flagged.2.dropped = true ∧ ahead <+: middle := by
  induction middle generalizing first with
  | nil =>
      rw [List.nil_append, Marked, List.isChain_cons_cons] at marked
      exact ⟨[], last, after, rfl, marked.1 apart, List.nil_prefix⟩
  | cons next middle ih =>
      rw [List.cons_append, Marked, List.isChain_cons_cons] at marked
      by_cases same : first.1 = next.1
      · obtain ⟨ahead, flagged, behind, cut, dropped, short⟩ := ih marked.2 (same ▸ apart)
        exact ⟨next :: ahead, flagged, behind, by rw [List.cons_append, cut, List.cons_append],
          dropped, List.cons_prefix_cons.mpr ⟨rfl, short⟩⟩
      · exact ⟨[], next, middle ++ last :: after, rfl, marked.1 same, List.nil_prefix⟩

theorem Marked.drop {sent : List (Nat × ChannelPacket Sample)} (marked : Marked sent)
    (count : Nat) : Marked (sent.drop count) :=
  List.IsChain.drop marked count

theorem Marked.snoc {sent : List (Nat × ChannelPacket Sample)} {entry : Nat × ChannelPacket Sample}
    (marked : Marked sent)
    (follows : ∀ last, sent.getLast? = some last → last.1 ≠ entry.1 → entry.2.dropped = true) :
    Marked (sent ++ [entry]) := by
  refine List.IsChain.append marked (List.IsChain.singleton entry) ?_
  intro last ends next first
  obtain rfl : entry = next := by simpa using first
  exact follows last ends

/-- The running task will report a gap unless it goes on over the last packet's
connection. -/
def Continues (l : Ledger Sample) : Prop :=
  ∀ last, l.sent.getLast? = some last →
    l.live.reader.connected = true ∧ last.1 = l.connections ∨
      l.live.reader.flagOverrunAfterGap = true

/-- The samples that packets carry. -/
def samplesOf (arrived : List (Nat × StreamPacket Sample)) : List Sample :=
  arrived.flatMap fun entry => entry.2.samples

structure Sound (l : Ledger Sample) : Prop where
  conserved : l.live.session.Conserved
  caughtUp : l.live.session.CaughtUp
  same : l.sent.map (fun entry => (entry.1, entry.2.samples)) =
    l.arrived.map fun entry => (entry.1, entry.2.samples)
  /-- Stopping loses what waits on the channel, and nothing else is lost. -/
  queued : l.sent.map Prod.snd =
    l.live.session.received ++ (l.live.session.source.httpReceiver.getD [] ++ l.unread)
  attached : l.live.session.source.httpReceiver.isSome → l.unread = []
  receives : l.live.session.source.httpTask = some .running →
    l.live.session.source.httpReceiver.isSome
  marked : Marked l.sent
  continues : l.live.session.source.httpTask = some .running → l.Continues
  delivered : l.live.session.source.httpTask = some .running → l.sent ≠ [] →
    l.live.reader.deliveredAny = true
  settled : ∀ stream ∈ l.past, samplesOf stream.arrived = stream.returned ++ stream.discarded
  whole : l.delivered = (l.past.flatMap PastStream.arrived ++ l.arrived).map Prod.snd
  handed : l.handed = l.past.flatMap PastStream.returned ++ l.live.session.returned

theorem sound_opened (configSampleRateHz : F64) (autoReconnect : Bool) :
    Sound (opened configSampleRateHz autoReconnect : Ledger Sample) where
  conserved := rfl
  caughtUp := fun place gap => absurd gap (not_gapBefore_nil place)
  same := rfl
  queued := rfl
  attached := fun _ => rfl
  receives := fun _ => rfl
  marked := List.IsChain.nil
  continues := fun _ last ends => by cases ends
  delivered := fun _ some => absurd rfl some
  settled := fun _ member => absurd member List.not_mem_nil
  whole := rfl
  handed := rfl

/-- What arrived is what the reads took, what is on the channel and what a stop left there. -/
theorem Sound.samples {l : Ledger Sample} (sound : Sound l) :
    samplesOf l.arrived = (l.live.session.received ++
      (l.live.session.source.httpReceiver.getD [] ++ l.unread)).flatMap
        ChannelPacket.samples := by
  have labels := congrArg (fun labels => labels.flatMap Prod.snd) sound.same
  have sent := congrArg (fun packets => packets.flatMap ChannelPacket.samples) sound.queued
  simp only [List.flatMap_map] at labels sent
  rw [samplesOf, ← labels, ← sent]

theorem Sound.samples_take {l : Ledger Sample} (sound : Sound l) :
    samplesOf (l.arrived.take l.live.session.received.length) =
      l.live.session.received.flatMap ChannelPacket.samples := by
  have labels := congrArg (fun labels =>
    (labels.take l.live.session.received.length).flatMap Prod.snd) sound.same
  have sent := congrArg (fun packets =>
    (packets.take l.live.session.received.length).flatMap ChannelPacket.samples) sound.queued
  simp only [← List.map_take, List.flatMap_map, List.take_left] at labels sent
  rw [samplesOf, ← labels, ← sent]

theorem published_session (session : Session Sample) (out : ReaderStep Sample)
    (running : session.source.httpTask = some .running)
    (receives : session.source.httpReceiver.isSome) :
    let after := session.run (LiveSession.published session out)
    after.received = session.received ∧ after.returned = session.returned ∧
      after.source.sampleBuffer = session.source.sampleBuffer ∧
      after.source.httpReceiver = session.source.httpReceiver.map (· ++ out.sent.toList) ∧
      (after.source.httpTask = some .running → out.finished = false) := by
  obtain ⟨state, sent, observed, finished⟩ := out
  obtain ⟨queue, channel⟩ := Option.isSome_iff_exists.mp receives
  cases observed <;> cases sent <;> cases finished <;>
    simp [LiveSession.published, Session.run, Session.step, running, channel]

theorem opens_connected {s : ReaderState} {event : StreamEvent Sample}
    (connected : s.connected = true) : s.opens event = false := by
  cases event <;> simp [ReaderState.opens, connected]

theorem note_live {l : Ledger Sample} (event : StreamEvent Sample)
    (running : l.live.session.source.httpTask = some .running) :
    (l.note event).live = { l.live with
      session := l.live.session.run (LiveSession.published l.live.session
        (l.live.reader.step l.live.autoReconnect event))
      reader := (l.live.reader.step l.live.autoReconnect event).state } := by
  rw [Ledger.note, LiveSession.step, if_pos running]

/-- An event that puts nothing on the channel leaves the last packet's connection, or the gap to
be reported. -/
theorem Sound.silent {l : Ledger Sample} (sound : Sound l) {event : StreamEvent Sample}
    (running : l.live.session.source.httpTask = some .running)
    (out : (l.live.reader.step l.live.autoReconnect event).sent = none)
    (goesOn : (l.note event).live.session.source.httpTask = some .running) :
    (l.note event).Continues ∧
      ((l.note event).sent ≠ [] → (l.note event).live.reader.deliveredAny = true) := by
  have live := note_live event running
  have sent : (l.note event).sent = l.sent := by simp [Ledger.note, out]
  obtain ⟨-, -, -, -, goes⟩ := published_session l.live.session
    (l.live.reader.step l.live.autoReconnect event) running (sound.receives running)
  rw [live] at goesOn
  obtain ⟨keeps, stays, leads⟩ :=
    l.live.reader.step_silent l.live.autoReconnect event out (goes goesOn)
  rw [Continues, sent, live]
  refine ⟨fun last ends => ?_, fun some => keeps.trans (sound.delivered running some)⟩
  have some : l.sent ≠ [] := by
    intro empty
    rw [empty] at ends
    cases ends
  rcases sound.continues running last ends with ⟨connected, onSame⟩ | flagged
  · rcases stays connected with still | flagged
    · refine .inl ⟨still, onSame.trans ?_⟩
      simp [Ledger.note, opens_connected connected]
    · exact .inr flagged
  · exact .inr (leads (sound.delivered running some) flagged)

/-- A packet that is put on the channel reports the gap if it comes over a new connection. -/
theorem Sound.sends {l : Ledger Sample} (sound : Sound l) {event : StreamEvent Sample}
    (running : l.live.session.source.httpTask = some .running) {packet : ChannelPacket Sample}
    (out : (l.live.reader.step l.live.autoReconnect event).sent = some packet) :
    Marked (l.note event).sent ∧ (l.note event).Continues ∧
      (l.note event).live.reader.deliveredAny = true := by
  obtain ⟨-, sends⟩ := l.live.reader.step_sends l.live.autoReconnect event
  obtain ⟨connected, still, counted, flags⟩ := sends packet out
  have same : (l.note event).connections = l.connections := by
    simp [Ledger.note, opens_connected connected]
  have sent : (l.note event).sent = l.sent ++ [(l.connections, packet)] := by
    simp [Ledger.note, out, opens_connected connected]
  rw [Continues, sent, note_live event running, same]
  refine ⟨sound.marked.snoc fun last ends apart => ?_, fun last ends => ?_, counted⟩
  · rcases sound.continues running last ends with ⟨-, onSame⟩ | flagged
    · exact absurd onSame apart
    · exact flags flagged
  · rw [List.getLast?_concat] at ends
    cases ends
    exact .inl ⟨still, rfl⟩

theorem Sound.stream {l : Ledger Sample} (sound : Sound l) (event : StreamEvent Sample)
    (running : l.live.session.source.httpTask = some .running) : Sound (l.note event) := by
  have receives := sound.receives running
  obtain ⟨received, returned, stash, channel, -⟩ := published_session l.live.session
    (l.live.reader.step l.live.autoReconnect event) running receives
  obtain ⟨samples, -⟩ := l.live.reader.step_sends l.live.autoReconnect event
  have live := note_live event running
  have none := sound.attached receives
  have queued := sound.queued
  rw [none, List.append_nil] at queued
  obtain ⟨queue, waiting⟩ := Option.isSome_iff_exists.mp receives
  have marks : Marked (l.note event).sent ∧
      ((l.note event).live.session.source.httpTask = some .running →
        (l.note event).Continues ∧
          ((l.note event).sent ≠ [] → (l.note event).live.reader.deliveredAny = true)) := by
    cases out : (l.live.reader.step l.live.autoReconnect event).sent with
    | none =>
        have sent : (l.note event).sent = l.sent := by simp [Ledger.note, out]
        exact ⟨sent ▸ sound.marked, sound.silent running out⟩
    | some packet =>
        obtain ⟨marked, continues, delivered⟩ := sound.sends running out
        exact ⟨marked, fun _ => ⟨continues, fun _ => delivered⟩⟩
  exact {
    conserved := by
      rw [Session.Conserved, live, returned, stash, received]
      exact sound.conserved
    caughtUp := by
      rw [Session.CaughtUp, live, returned, received]
      exact sound.caughtUp
    same := by
      have here := congrArg (fun taken => (taken.toList.map
        fun samples => ((l.note event).connections, samples))) samples
      simp only [Option.toList_map, List.map_map] at here
      simp only [Ledger.note, List.map_append, List.map_map, sound.same]
      exact congrArg _ here
    queued := by
      rw [waiting, Option.getD_some] at queued
      rw [live, channel, waiting]
      simp [Ledger.note, received, queued, none]
    attached := fun _ => none
    receives := fun _ => by
      rw [live, channel, Option.isSome_map]
      exact receives
    marked := marks.1
    continues := fun goesOn => (marks.2 goesOn).1
    delivered := fun goesOn => (marks.2 goesOn).2
    settled := sound.settled
    whole := by simp [Ledger.note, sound.whole, Function.comp_def]
    handed := by
      rw [live, returned]
      exact sound.handed }

theorem Sound.read {l : Ledger Sample} (sound : Sound l) (buffer : List Sample)
    (maxSamples inTime : Nat) : Sound (l.step (.read buffer maxSamples inTime)) := by
  have read := l.live.session.source.read_conserves buffer maxSamples inTime
  obtain ⟨-, task⟩ := l.live.session.source.read_cumulativeDrops buffer maxSamples inTime
  have channel : (l.live.session.source.readSamplesDeadline buffer maxSamples
      inTime).source.httpReceiver.isSome = l.live.session.source.httpReceiver.isSome :=
    SpectranSource.read_isSome _ _ _ _
  have queued := sound.queued
  rw [read.inOrder] at queued
  exact {
    conserved := Session.conserved_step sound.conserved _
    caughtUp := sound.caughtUp.read sound.conserved buffer maxSamples inTime
    same := sound.same
    queued := by
      simp only [step, LiveSession.step, Session.step, Session.afterRead, queued,
        List.append_assoc]
    attached := fun some => sound.attached (channel ▸ some)
    receives := fun running => channel ▸ sound.receives (task ▸ running)
    marked := sound.marked
    continues := fun running => sound.continues (task ▸ running)
    delivered := fun running => sound.delivered (task ▸ running)
    settled := sound.settled
    whole := sound.whole
    handed := by
      simp only [step, LiveSession.step, Session.step, Session.afterRead, sound.handed,
        List.append_assoc] }

theorem Sound.stop {l : Ledger Sample} (sound : Sound l) : Sound (l.step .stop) := by
  have idle : (l.step .stop).live.session.source.httpTask ≠ some .running := by
    intro running
    cases running
  have closed : (l.step .stop).live.session.source.httpReceiver.isSome ≠ true := by
    intro opened
    cases opened
  exact ⟨sound.conserved, sound.caughtUp, sound.same, sound.queued,
    fun opened => absurd opened closed, fun running => absurd running idle, sound.marked,
    fun running => absurd running idle, fun running => absurd running idle, sound.settled,
    sound.whole, sound.handed⟩

theorem Sound.settled_next {l : Ledger Sample} (sound : Sound l) {ended : PastStream Sample}
    (accounted : samplesOf ended.arrived = ended.returned ++ ended.discarded) :
    ∀ stream ∈ l.past ++ [ended],
      samplesOf stream.arrived = stream.returned ++ stream.discarded := by
  intro stream member
  rcases List.mem_append.mp member with earlier | now
  · exact sound.settled stream earlier
  · rw [List.mem_singleton.mp now]
    exact accounted

theorem Sound.restart_ok {l : Ledger Sample} (sound : Sound l)
    (dead : l.live.session.source.readerAlive = false) :
    Sound (l.restart (l.live.step (.start (.ok ()))) (.ok ())) := by
  have started : (l.live.step (.start (.ok ()))).session.source.httpReceiver = some [] ∧
      (l.live.step (.start (.ok ()))).session.received = [] ∧
      (l.live.step (.start (.ok ()))).session.returned = [] ∧
      (l.live.step (.start (.ok ()))).session.source.sampleBuffer = [] := by
    simp [LiveSession.step, Session.step, SpectranSource.startStreaming, dead,
      SpectranSource.initHttpSource]
  obtain ⟨channel, received, returned, stash⟩ := started
  exact {
    conserved := by
      rw [Session.Conserved, restart, received, returned, stash]
      rfl
    caughtUp := by
      intro place gap
      rw [restart, received] at gap
      exact absurd gap (not_gapBefore_nil place)
    same := rfl
    queued := by
      rw [restart, received, channel]
      rfl
    attached := fun _ => rfl
    receives := fun _ => by
      rw [restart, channel]
      rfl
    marked := List.IsChain.nil
    continues := fun _ last ends => by cases ends
    delivered := fun _ some => absurd rfl some
    settled := sound.settled_next (by
      rw [sound.samples, List.flatMap_append, ← sound.conserved, List.append_assoc]
      rfl)
    whole := by simp [restart, sound.whole]
    handed := by simp [restart, sound.handed, returned] }

theorem Sound.restart_error {l : Ledger Sample} (sound : Sound l) (error : Error)
    (dead : l.live.session.source.readerAlive = false) :
    Sound (l.restart (l.live.step (.start (.error error))) (.error error)) := by
  have started : (l.live.step (.start (.error error))).session.source.httpTask = none ∧
      (l.live.step (.start (.error error))).session.source.httpReceiver =
        l.live.session.source.httpReceiver ∧
      (l.live.step (.start (.error error))).session.received = [] ∧
      (l.live.step (.start (.error error))).session.returned = [] ∧
      (l.live.step (.start (.error error))).session.source.sampleBuffer = [] := by
    simp [LiveSession.step, Session.step, SpectranSource.startStreaming, dead,
      SpectranSource.initHttpSource]
  obtain ⟨task, channel, received, returned, stash⟩ := started
  have idle : (l.live.step (.start (.error error))).session.source.httpTask ≠ some .running := by
    rw [task]
    intro running
    cases running
  exact {
    conserved := by
      rw [Session.Conserved, restart, received, returned, stash]
      rfl
    caughtUp := by
      intro place gap
      rw [restart, received] at gap
      exact absurd gap (not_gapBefore_nil place)
    same := by simp only [restart, List.map_drop, sound.same]
    queued := by
      simp only [restart, List.map_drop, sound.queued, List.drop_left, received, channel,
        List.nil_append]
    attached := fun some => sound.attached (channel ▸ some)
    receives := fun running => absurd running idle
    marked := sound.marked.drop _
    continues := fun running => absurd running idle
    delivered := fun running => absurd running idle
    settled := sound.settled_next (by
      have taken := sound.samples_take
      rw [← sound.conserved] at taken
      exact taken)
    whole := by simp [restart, sound.whole]
    handed := by simp [restart, sound.handed, returned] }

theorem sound_step {l : Ledger Sample} (sound : Sound l) (action : LiveAction Sample) :
    Sound (l.step action) := by
  cases action with
  | stream event =>
      rw [step]
      split
      · next running => exact sound.stream event running
      · exact sound
  | read buffer maxSamples inTime => exact sound.read buffer maxSamples inTime
  | takeOverrun =>
      exact ⟨sound.conserved, sound.caughtUp, sound.same, sound.queued, sound.attached,
        sound.receives, sound.marked, sound.continues, sound.delivered, sound.settled,
        sound.whole, sound.handed⟩
  | stop => exact sound.stop
  | start reached =>
      cases alive : l.live.session.source.readerAlive with
      | true =>
          have unchanged : l.step (.start reached) = l := by
            simp [step, LiveSession.step, alive]
          rw [unchanged]
          exact sound
      | false =>
          simp only [step, alive, Bool.false_eq_true, if_false]
          cases reached with
          | ok => exact sound.restart_ok alive
          | error error => exact sound.restart_error error alive

theorem sound_run (configSampleRateHz : F64) (autoReconnect : Bool)
    (actions : List (LiveAction Sample)) :
    Sound ((opened configSampleRateHz autoReconnect).run actions) := by
  suffices onward : ∀ l : Ledger Sample, Sound l → Sound (l.run actions) from
    onward _ (sound_opened configSampleRateHz autoReconnect)
  intro l sound
  induction actions generalizing l with
  | nil => exact sound
  | cons action actions ih => exact ih _ (sound_step sound action)

theorem Sound.taken {l : Ledger Sample} (sound : Sound l) (buffer : List Sample)
    (maxSamples inTime : Nat) :
    let o := l.live.session.source.readSamplesDeadline buffer maxSamples inTime
    ∃ later, l.sent.map Prod.snd =
      l.live.session.received ++ o.taken l.live.session.source ++ later := by
  intro o
  have read := l.live.session.source.read_conserves buffer maxSamples inTime
  refine ⟨o.source.httpReceiver.getD [] ++ l.unread, ?_⟩
  rw [sound.queued, read.inOrder, List.append_assoc, List.append_assoc]

theorem Sound.reach {l : Ledger Sample} (sound : Sound l) (buffer : List Sample)
    (maxSamples inTime : Nat) :
    let o := l.live.session.source.readSamplesDeadline buffer maxSamples inTime
    l.live.session.returned.length + (o.appended buffer).length ≤
      total ChannelPacket.size (l.live.session.received ++ o.taken l.live.session.source) := by
  dsimp only
  have conserved := Session.conserved_step sound.conserved (.read buffer maxSamples inTime)
  have whole := congrArg List.length conserved
  rw [ChannelPacket.size_total]
  simp only [Session.step, Session.afterRead, List.length_append] at whole
  omega

/-- Two samples of one read came over the same connection. -/
theorem Sound.one_connection {l : Ledger Sample} (sound : Sound l) {buffer : List Sample}
    {maxSamples inTime position position' place place' : Nat}
    {first last : Nat × ChannelPacket Sample}
    (begins : l.live.session.returned.length ≤ position) (ordered : position ≤ position')
    (ends : position' < l.live.session.returned.length +
      ((l.live.session.source.readSamplesDeadline buffer maxSamples inTime).appended
        buffer).length)
    (earlier : Holds (ChannelPacket.size ∘ Prod.snd) l.sent position place first)
    (later : Holds (ChannelPacket.size ∘ Prod.snd) l.sent position' place' last) :
    first.1 = last.1 := by
  rcases earlier.order later ordered with ⟨-, rfl⟩ | ⟨before, middle, after, cut, start, start'⟩
  · rfl
  · by_contra apart
    have marked : Marked (first :: (middle ++ last :: after)) := by
      have whole := sound.marked.drop before.length
      rwa [cut, List.drop_left] at whole
    obtain ⟨ahead, flagged, behind, inside, dropped, rest, rfl⟩ := marked.between apart
    -- the flagged packet starts behind the first of the two samples, not behind the last
    let gap := total (ChannelPacket.size ∘ Prod.snd) (before ++ first :: ahead)
    have placed : Placed ChannelPacket.size (l.sent.map Prod.snd) gap flagged.2 :=
      placed_map.mpr ⟨flagged, ⟨before ++ first :: ahead, behind, by rw [cut, inside]; simp,
        rfl⟩, rfl⟩
    have behindFirst : place + first.2.size ≤ gap := by
      simp only [gap, total_append, total_cons, start, Function.comp_apply]
      omega
    have aheadOfLast : gap ≤ place' := by
      simp only [gap, total_append, total_cons, start, start', Function.comp_apply]
      omega
    have above := earlier.2.2
    have below := later.2.1
    rw [Function.comp_apply] at above
    obtain ⟨rest, sent⟩ := sound.taken buffer maxSamples inTime
    have reach := sound.reach buffer maxSamples inTime
    rw [sent] at placed
    have taken := placed.front (by omega)
    have clear := sound.caughtUp.read_gaps sound.conserved buffer maxSamples inTime gap
      ⟨flagged.2, taken, dropped⟩
    omega

theorem Sound.holds_sent {l : Ledger Sample} (sound : Sound l) {position place : Nat}
    {entry : Nat × StreamPacket Sample}
    (holds : Holds (fun entry => entry.2.samples.length) l.arrived position place entry) :
    ∃ packet, Holds (ChannelPacket.size ∘ Prod.snd) l.sent position place (entry.1, packet) := by
  have labelled : Holds (fun label : Nat × List Sample => label.2.length)
      (l.arrived.map fun entry => (entry.1, entry.2.samples)) position place
      (entry.1, entry.2.samples) := holds_map.mpr ⟨entry, holds, rfl⟩
  rw [← sound.same] at labelled
  obtain ⟨⟨connection, packet⟩, holds', same⟩ := holds_map.mp labelled
  cases congrArg Prod.fst same
  exact ⟨packet, holds'⟩

theorem Sound.samples_read {l : Ledger Sample} (sound : Sound l) (buffer : List Sample)
    (maxSamples inTime : Nat) :
    let r := l.live.session
    let o := r.source.readSamplesDeadline buffer maxSamples inTime
    samplesOf l.arrived = r.returned ++ o.appended buffer ++ o.source.sampleBuffer ++
      (o.source.httpReceiver.getD []).flatMap ChannelPacket.samples ++
        l.unread.flatMap ChannelPacket.samples := by
  intro r o
  have read := r.source.read_conserves buffer maxSamples inTime
  have conserved : r.returned ++ r.source.sampleBuffer =
      r.received.flatMap ChannelPacket.samples := sound.conserved
  rw [sound.samples, List.flatMap_append, ← conserved,
    List.append_assoc r.returned (o.appended buffer), read.kept, read.inOrder]
  simp only [List.flatMap_append, List.append_assoc]
  rfl

theorem Sound.found {l : Ledger Sample} (sound : Sound l) (buffer : List Sample)
    (maxSamples inTime : Nat) :
    let r := l.live.session
    let o := r.source.readSamplesDeadline buffer maxSamples inTime
    ∀ i < (o.appended buffer).length, ∃ place entry,
      Holds (fun entry => entry.2.samples.length) l.arrived (r.returned.length + i) place entry ∧
        (o.appended buffer)[i]? = entry.2.samples[r.returned.length + i - place]? := by
  intro r o i inside
  have whole : samplesOf l.arrived =
      r.returned ++ o.appended buffer ++ o.source.sampleBuffer ++ _ ++ _ :=
    sound.samples_read buffer maxSamples inTime
  have size : total (fun entry => entry.2.samples.length) l.arrived =
      (samplesOf l.arrived).length := total_flatMap _ _
  have reached : r.returned.length + i < total (fun entry => entry.2.samples.length)
      l.arrived := by
    rw [size, whole]
    simp only [List.length_append]
    omega
  obtain ⟨place, entry, holds⟩ := exists_holds reached
  refine ⟨place, entry, holds, ?_⟩
  obtain ⟨placed, below, above⟩ := holds
  have within : r.returned.length + i - place < entry.2.samples.length := by
    dsimp only at above
    omega
  have position : place + (r.returned.length + i - place) = r.returned.length + i :=
    Nat.add_sub_cancel' below
  rw [← Placed.getElem? (fun entry : Nat × StreamPacket Sample => entry.2.samples) placed
    within, position, ← samplesOf, whole]
  simp only [List.append_assoc]
  rw [List.getElem?_append_right (Nat.le_add_right _ _), Nat.add_sub_cancel_left,
    List.getElem?_append_left inside]

/-- **The reads return the samples of the network's packets in order**, over all
reconnects and restarts.  Of the streams that a restart has ended, what it threw away is missing,
and of the stream that goes on, what a stop has left on the channel; and every sample of one read
came over one connection. -/
theorem reads_keep_to_one_connection (configSampleRateHz : F64) (autoReconnect : Bool)
    (actions : List (LiveAction Sample)) (buffer : List Sample) (maxSamples inTime : Nat) :
    let l := (opened configSampleRateHz autoReconnect).run actions
    let r := l.live.session
    let o := r.source.readSamplesDeadline buffer maxSamples inTime
    l.live = (LiveSession.opened configSampleRateHz autoReconnect).run actions ∧
      l.delivered = (l.past.flatMap PastStream.arrived ++ l.arrived).map Prod.snd ∧
      l.handed = l.past.flatMap PastStream.returned ++ r.returned ∧
      (∀ stream ∈ l.past,
        samplesOf stream.arrived = stream.returned ++ stream.discarded) ∧
      samplesOf l.arrived = r.returned ++ o.appended buffer ++ o.source.sampleBuffer ++
        (o.source.httpReceiver.getD []).flatMap ChannelPacket.samples ++
          l.unread.flatMap ChannelPacket.samples ∧
      (r.source.httpReceiver.isSome → l.unread = []) ∧
      ∃ connection, ∀ i < (o.appended buffer).length, ∃ place packet,
        Holds (fun entry => entry.2.samples.length) l.arrived (r.returned.length + i) place
          (connection, packet) ∧
        (o.appended buffer)[i]? = packet.samples[r.returned.length + i - place]? := by
  intro l r o
  have sound : Sound l := sound_run configSampleRateHz autoReconnect actions
  have found := sound.found buffer maxSamples inTime
  refine ⟨run_live _ actions, sound.whole, sound.handed, sound.settled,
    sound.samples_read buffer maxSamples inTime, sound.attached, ?_⟩
  rcases Nat.eq_zero_or_pos (o.appended buffer).length with none | some
  · exact ⟨0, fun i inside => by omega⟩
  · obtain ⟨place, first, holds, -⟩ := found 0 some
    refine ⟨first.1, fun i inside => ?_⟩
    obtain ⟨place', entry, holds', sample⟩ := found i inside
    obtain ⟨sentFirst, earlier⟩ := sound.holds_sent holds
    obtain ⟨sentLast, later⟩ := sound.holds_sent holds'
    have same : first.1 = entry.1 :=
      sound.one_connection (Nat.le_add_right _ _) (Nat.add_le_add_left (Nat.zero_le i) _)
        (Nat.add_lt_add_left inside _) earlier later
    exact ⟨place', entry.2, same ▸ holds', sample⟩

end Ledger

end SdrAaronia
