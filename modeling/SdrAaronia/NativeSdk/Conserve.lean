import SdrAaronia.NativeSdk.Read

/-! # Reads conserve samples

A session's reads are a queue of samples: what they have handed out and what they
hold over is, in order, what the packets they consumed carried.  A packet consumed
for nothing is counted and flagged.
-/

namespace SdrAaronia.NativeSdk

variable {Real Item : Type}

/-- The vendor's calls succeed whenever this poll makes them. -/
def Poll.Succeeds (poll : Poll Real) : Prop := poll.getError = none ∧ poll.consumeError = none

namespace NativeSdkSource

theorem heedFlags_counts (s : NativeSdkSource Real) (p : Packet Real) :
    s.dropEvents ≤ (s.heedFlags p).dropEvents := by
  cases flags : p.flagsDrop with
  | true => simp only [heedFlags, flags, if_true, Nat.le_add_right]
  | false => simp only [heedFlags, flags, Bool.false_eq_true, if_false, le_refl]

theorem heedFlags_flags (s : NativeSdkSource Real) (p : Packet Real)
    (pending : s.overrunPending = true) : (s.heedFlags p).overrunPending = true := by
  simp only [heedFlags, pending, Bool.true_or]

end NativeSdkSource

namespace Reading

variable {path : ReadPath Real Item}

/-- A packet that is lost raises the drop count, and none lowers it. -/
theorem account_counts (path : ReadPath Real Item) (r : Reading Real Item) (p : Packet Real) :
    r.source.dropEvents + (if (path.handling p).loses then 1 else 0) ≤
      (r.account path p).source.dropEvents := by
  have heeded := r.source.heedFlags_counts p
  cases handled : path.handling p with
  | take items =>
      simp only [account, handled, Handling.loses, Bool.false_eq_true, if_false]
      exact heeded
  | skip =>
      simp only [account, handled, Handling.loses, Bool.false_eq_true, if_false, Nat.add_zero]
      cases path.heedsAll with
      | true => exact heeded
      | false => exact le_refl _
  | lose | stop | fail =>
      simp only [account, handled, Handling.loses, if_true, NativeSdkSource.countLoss,
        Nat.add_le_add_iff_right]
      cases path.heedsAll with
      | true => exact heeded
      | false => exact le_refl _

/-- A packet that is lost sets the overrun flag, and none clears it. -/
theorem account_flags (r : Reading Real Item) (p : Packet Real)
    (lost : r.source.overrunPending = true ∨ (path.handling p).loses = true) :
    (r.account path p).source.overrunPending = true := by
  cases handled : path.handling p with
  | take items =>
      rw [handled] at lost
      cases lost with
      | inl pending =>
          simp only [account, handled]
          exact r.source.heedFlags_flags p pending
      | inr loses => cases loses
  | skip =>
      rw [handled] at lost
      cases lost with
      | inl pending =>
          simp only [account, handled]
          cases path.heedsAll with
          | true => exact r.source.heedFlags_flags p pending
          | false => exact pending
      | inr loses => cases loses
  | lose | stop | fail => simp only [account, handled, NativeSdkSource.countLoss]

/-! ## What a round keeps -/

/-- The books of a read that entered with these drops and this queue. -/
structure Balanced (path : ReadPath Real Item) (drops : Nat) (queue : List (Packet Real))
    (r : Reading Real Item) : Prop where
  /-- Only a filled read leaves samples behind. -/
  drained : r.remaining ≠ 0 → r.carry = []
  flow : r.out ++ r.carry = r.consumed.flatMap fun p => (path.handling p).items
  order : queue ++ r.arrived = r.consumed ++ r.queue
  polledEmpty : ∀ held ∈ r.held, held = 0
  counted : drops + r.consumed.countP (fun p => (path.handling p).loses) ≤ r.source.dropEvents
  flagged : (∃ p ∈ r.consumed, (path.handling p).loses = true) → r.source.overrunPending = true

theorem Balanced.polled {drops : Nat} {queue : List (Packet Real)} {r : Reading Real Item}
    (balanced : Balanced path drops queue r) (wanting : r.remaining ≠ 0) (poll : Poll Real) :
    Balanced path drops queue (r.polled poll) := by
  obtain ⟨drained, flow, order, polledEmpty, counted, flagged⟩ := balanced
  refine ⟨drained, flow, ?_, ?_, counted, flagged⟩
  · simp only [Reading.polled]
    rw [← List.append_assoc, order, List.append_assoc]
  · intro held member
    cases List.mem_append.mp member with
    | inl earlier => exact polledEmpty held earlier
    | inr now =>
        rw [List.mem_singleton.mp now, drained wanting]
        rfl

theorem Balanced.consumed {drops : Nat} {queue : List (Packet Real)} {r : Reading Real Item}
    {p : Packet Real} {rest : List (Packet Real)} (balanced : Balanced path drops queue r)
    (wanting : r.remaining ≠ 0) (next : r.queue = p :: rest) :
    Balanced path drops queue ((r.account path p).consume p rest) := by
  obtain ⟨drained, flow, order, polledEmpty, counted, flagged⟩ := balanced
  have empty := drained wanting
  rw [empty, List.append_nil] at flow
  refine ⟨?_, ?_, ?_, ?_, ?_, ?_⟩
  · exact account_drained path r p drained wanting
  · simp only [consume, account_out, account_carry, account_consumed, empty, List.nil_append,
      List.append_assoc, List.take_append_drop, List.flatMap_append, List.flatMap_cons,
      List.flatMap_nil, List.append_nil, flow]
  · simp only [consume, account_arrived, account_consumed, order, next, List.append_assoc,
      List.cons_append, List.nil_append]
  · simp only [consume, account_held]
    exact polledEmpty
  · have counts := account_counts path r p
    simp only [consume, account_consumed, List.countP_append, List.countP_singleton]
    omega
  · simp only [consume, account_consumed]
    rintro ⟨lost, member, loses⟩
    apply account_flags
    cases List.mem_append.mp member with
    | inl earlier => exact .inl (flagged ⟨lost, earlier, loses⟩)
    | inr now => exact .inr (List.mem_singleton.mp now ▸ loses)

theorem Balanced.step {drops pollBudget : Nat} {queue : List (Packet Real)} {r : Reading Real Item}
    {poll : Poll Real} (givesBack : poll.consumeError = none) (wanting : r.remaining ≠ 0)
    (balanced : Balanced path drops queue r) :
    Balanced path drops queue (r.step path pollBudget poll).1 := by
  have polled := balanced.polled wanting poll
  have stepped := step_stepped path pollBudget r poll
  generalize r.step path pollBudget poll = stepTo at stepped ⊢
  cases stepped with
  | getFailed code failed => exact polled
  | dry found empty done => exact polled
  | waits found empty first => exact polled
  | boundary found next got moved => exact polled
  | kept code found next same failed => cases failed.symm.trans givesBack
  | consumed found next same given => exact polled.consumed wanting next

end Reading

/-! ## What a call keeps -/

namespace ReadPath

variable (path : ReadPath Real Item)

theorem keep_dropEvents (s : NativeSdkSource Real) (items : List Item) :
    (path.keep s items).dropEvents = s.dropEvents := by
  have same := congrArg NativeSdkSource.dropEvents (path.keep_bare s items)
  exact same

theorem keep_overrunPending (s : NativeSdkSource Real) (items : List Item) :
    (path.keep s items).overrunPending = s.overrunPending := by
  have same := congrArg NativeSdkSource.overrunPending (path.keep_bare s items)
  exact same

/-- The books of a call made on this source and queue. -/
structure Balances (s : NativeSdkSource Real) (queue : List (Packet Real))
    (call : ReadCall Real Item) : Prop where
  flow : call.out ++ path.carry call.source =
    path.carry s ++ call.consumed.flatMap fun p => (path.handling p).items
  order : queue ++ call.arrived = call.consumed ++ call.queue
  polledEmpty : ∀ held ∈ call.held, held = 0
  counted : s.dropEvents + call.consumed.countP (fun p => (path.handling p).loses) ≤
    call.source.dropEvents
  flagged : (∃ p ∈ call.consumed, (path.handling p).loses = true) →
    call.source.overrunPending = true

variable {path} {s : NativeSdkSource Real} {queue : List (Packet Real)}

/-- A call that did not poll only moved samples from the carry-over to the caller. -/
theorem Balances.unpolled {source : NativeSdkSource Real} {out : List Item}
    (outcome : Except Error Nat) (flow : out ++ path.carry source = path.carry s)
    (counted : s.dropEvents ≤ source.dropEvents) :
    path.Balances s queue (.unpolled source queue out outcome) where
  flow := flow.trans (List.append_nil _).symm
  order := List.append_nil _
  polledEmpty _ member := absurd member List.not_mem_nil
  counted := counted
  flagged := by
    rintro ⟨p, member, -⟩
    exact absurd member List.not_mem_nil

theorem readWithin_balances (path : ReadPath Real Item) (s : NativeSdkSource Real)
    (queue : List (Packet Real)) (maxSamples pollBudget : Nat) {polls : List (Poll Real)}
    (giveBack : ∀ poll ∈ polls, poll.consumeError = none) :
    path.Balances s queue (path.readWithin s queue maxSamples pollBudget polls) := by
  have entered := path.enter_entered s queue maxSamples
  simp only [readWithin]
  generalize path.enter s queue maxSamples = entry at entered ⊢
  cases entered with
  | refused error => exact .unpolled _ (List.nil_append _) (le_refl _)
  | served active mode enough =>
      apply Balances.unpolled
      · rw [path.carry_keep, List.take_append_drop]
      · exact (path.keep_dropEvents (path.latch s) _).ge
  | noDevice mode wanting empty missing =>
      apply Balances.unpolled
      · rw [path.carry_keep, empty, List.nil_append]
      · exact (path.keep_dropEvents (path.latch s) _).ge
  | polls active mode wanting empty present =>
      have start : Reading.Balanced path s.dropEvents queue (path.begun s queue maxSamples) :=
        ⟨fun _ => rfl, rfl, List.append_nil _, fun _ member => absurd member List.not_mem_nil,
          le_refl _, fun lost => absurd lost.choose_spec.1 List.not_mem_nil⟩
      have balanced : Reading.Balanced path s.dropEvents queue
          (Reading.run path pollBudget _ polls).1 :=
        Reading.run_keeps
          (fun r poll member wanting balanced => balanced.step (giveBack poll member) wanting) start
      refine ⟨?_, balanced.order, balanced.polledEmpty, ?_, ?_⟩
      · rw [path.carry_keep, empty, List.nil_append]
        exact balanced.flow
      · rw [path.keep_dropEvents]
        exact balanced.counted
      · rw [path.keep_overrunPending]
        exact balanced.flagged

/-- Samples held over, or nothing asked for: no packet is polled. -/
theorem readWithin_unpolled {maxSamples : Nat} (pollBudget : Nat) (polls : List (Poll Real))
    (enough : maxSamples = 0 ∨ path.carry s ≠ []) :
    (path.readWithin s queue maxSamples pollBudget polls).held = [] ∧
      (path.readWithin s queue maxSamples pollBudget polls).queue = queue := by
  have entered := path.enter_entered s queue maxSamples
  simp only [readWithin]
  generalize path.enter s queue maxSamples = entry at entered ⊢
  cases entered with
  | refused | served | noDevice => exact ⟨rfl, rfl⟩
  | polls active mode wanting empty present =>
      cases enough with
      | inl zero => exact absurd zero wanting
      | inr held => exact absurd empty held

end ReadPath

/-! ## Sessions -/

/-- One read as the caller asks for it, with what its polls find. -/
structure ReadRequest (Real : Type) where
  maxSamples : Nat
  pollBudget : Nat
  polls : List (Poll Real)

def ReadRequest.Succeeds (request : ReadRequest Real) : Prop :=
  ∀ poll ∈ request.polls, poll.Succeeds

/-- A session between two reads: all its reads appended, saw arrive and consumed. -/
structure ReadSession (Real Item : Type) where
  source : NativeSdkSource Real
  queue : List (Packet Real)
  out : List Item
  arrived : List (Packet Real)
  consumed : List (Packet Real)

def ReadSession.after (session : ReadSession Real Item) (call : ReadCall Real Item) :
    ReadSession Real Item :=
  ⟨call.source, call.queue, session.out ++ call.out, session.arrived ++ call.arrived,
    session.consumed ++ call.consumed⟩

/-- A read function of the source: its queue, the samples wanted, the poll budget, its polls. -/
abbrev ReadFunction (Real Item : Type) :=
  NativeSdkSource Real → List (Packet Real) → Nat → Nat → List (Poll Real) → ReadCall Real Item

def ReadSession.call (session : ReadSession Real Item) (read : ReadFunction Real Item)
    (request : ReadRequest Real) : ReadCall Real Item :=
  read session.source session.queue request.maxSamples request.pollBudget request.polls

/-- The sessions one read function leads to from a source and queue, the vendor's calls
succeeding. -/
inductive Reached (read : ReadFunction Real Item) (source : NativeSdkSource Real)
    (queue : List (Packet Real)) : ReadSession Real Item → Prop where
  | start : Reached read source queue ⟨source, queue, [], queue, []⟩
  | read {session : ReadSession Real Item} (request : ReadRequest Real)
      (reached : Reached read source queue session) (succeeds : request.Succeeds)
      (returned : (session.call read request).outcome ≠ none) :
      Reached read source queue (session.after (session.call read request))

/-- Nothing is lost or reordered between the packets consumed and the samples handed out. -/
theorem Reached.flow (path : ReadPath Real Item) {source : NativeSdkSource Real}
    {queue : List (Packet Real)} {session : ReadSession Real Item} (clean : path.carry source = [])
    (reached : Reached path.readWithin source queue session) :
    session.out ++ path.carry session.source =
        session.consumed.flatMap (fun p => (path.handling p).items) ∧
      session.arrived = session.consumed ++ session.queue := by
  induction reached with
  | start => exact ⟨clean, rfl⟩
  | @read session request reached succeeds returned ih =>
      obtain ⟨flow, order⟩ := ih
      have balances := path.readWithin_balances session.source session.queue request.maxSamples
        request.pollBudget fun poll member => (succeeds poll member).2
      constructor
      · simp only [ReadSession.after, ReadSession.call, List.append_assoc, balances.flow,
          List.flatMap_append]
        rw [← List.append_assoc, flow]
      · simp only [ReadSession.after, ReadSession.call, order, List.append_assoc, balances.order]

/-- What a call made from a session does to the queue and to the loss report. -/
structure Accounts (wellFormed : Packet Real → Prop) [DecidablePred wellFormed] (carry : List Item)
    (session : ReadSession Real Item) (request : ReadRequest Real) (call : ReadCall Real Item) :
    Prop where
  polledEmpty : ∀ held ∈ call.held, held = 0
  unpolled : request.maxSamples = 0 ∨ carry ≠ [] → call.held = [] ∧ call.queue = session.queue
  counted : session.source.dropEvents +
    call.consumed.countP (fun p => p.HasData ∧ ¬wellFormed p) ≤ call.source.dropEvents
  flagged : (∃ p ∈ call.consumed, p.HasData ∧ ¬wellFormed p) → call.source.overrunPending = true

theorem readWithin_accounts (path : ReadPath Real Item) {wellFormed : Packet Real → Prop}
    [DecidablePred wellFormed] (session : ReadSession Real Item) {request : ReadRequest Real}
    (loses : ∀ p : Packet Real, p.HasData → ¬wellFormed p → (path.handling p).loses = true)
    (succeeds : request.Succeeds) :
    Accounts wellFormed (path.carry session.source) session request
      (session.call path.readWithin request) := by
  have balances := path.readWithin_balances session.source session.queue request.maxSamples
    request.pollBudget fun poll member => (succeeds poll member).2
  refine ⟨balances.polledEmpty, ReadPath.readWithin_unpolled _ _, ?_, ?_⟩
  · refine le_trans (Nat.add_le_add_left ?_ _) balances.counted
    apply List.countP_mono_left
    intro p _ lost
    have malformed := of_decide_eq_true lost
    exact loses p malformed.1 malformed.2
  · rintro ⟨p, member, data, malformed⟩
    exact balances.flagged ⟨p, member, loses p data malformed⟩

/-- On either path, the reads of a session hand out and hold over exactly the samples of the
well-formed packets they consumed, and account for every packet they could not read. -/
theorem nativeReads_conserve (source : NativeSdkSource Real) (queue : List (Packet Real))
    (drained : source.Drained) :
    (∀ session, Reached NativeSdkSource.readSamplesWithin source queue session →
      session.out ++ session.source.sampleBuffer =
          session.consumed.flatMap (fun p => if p.MonoWellFormed then p.monoSamples else []) ∧
        session.arrived = session.consumed ++ session.queue ∧
        ∀ request : ReadRequest Real, request.Succeeds →
          Accounts Packet.MonoWellFormed session.source.sampleBuffer session request
            (session.call NativeSdkSource.readSamplesWithin request)) ∧
    (∀ session, Reached NativeSdkSource.readSamplesDualWithin source queue session →
      session.out ++ session.source.dualSampleBuffer =
          session.consumed.flatMap (fun p => if p.DualWellFormed then p.dualSamples else []) ∧
        session.arrived = session.consumed ++ session.queue ∧
        ∀ request : ReadRequest Real, request.Succeeds →
          Accounts Packet.DualWellFormed session.source.dualSampleBuffer session request
              (session.call NativeSdkSource.readSamplesDualWithin request) ∧
            (session.call NativeSdkSource.readSamplesDualWithin request).rx1.length =
              (session.call NativeSdkSource.readSamplesDualWithin request).rx2.length) := by
  constructor
  · intro session reached
    obtain ⟨flow, order⟩ := Reached.flow monoPath drained.1 reached
    refine ⟨?_, order, ?_⟩
    · simp only [← Packet.monoHandling_items]
      exact flow
    · intro request succeeds
      exact readWithin_accounts monoPath session
        (fun _ data malformed => Packet.monoHandling_loses data malformed) succeeds
  · intro session reached
    obtain ⟨flow, order⟩ := Reached.flow dualPath drained.2 reached
    refine ⟨?_, order, ?_⟩
    · simp only [← Packet.dualHandling_items]
      exact flow
    · intro request succeeds
      constructor
      · exact readWithin_accounts dualPath session
          (fun _ data malformed => Packet.dualHandling_loses data malformed) succeeds
      · have grown := DualBuffers.empty.extend_lengths
          (session.call NativeSdkSource.readSamplesDualWithin request).out
        exact grown.1.trans grown.2.symm

/-- A streaming source with nothing held over. -/
def streaming : NativeSdkSource Nat :=
  ⟨some 0, some 0, some .raw, true, true, [], [], none, none, none, none, 0, false, 0⟩

/-- A packet of some samples at this stride and frequency. -/
def packetOf (num stride : Int) (startFrequency : F64) : Packet Nat :=
  ⟨0, 1, startFrequency, 8, 4, num, stride, some id⟩

/-- Two of a packet's three samples read, with a packet of stride 1 queued behind it. -/
def midPacket : ReadSession Nat (PacketSample Nat) :=
  let session : ReadSession Nat (PacketSample Nat) :=
    ⟨streaming, [packetOf 3 2 10, packetOf 3 1 10],
    [], [packetOf 3 2 10, packetOf 3 1 10], []⟩
  session.after (session.call NativeSdkSource.readSamplesWithin ⟨2, 0, [⟨[], none, none, 0⟩]⟩)

theorem nativeReads_conserve_midPacket :
    midPacket.out.length = 2 ∧
      midPacket.out ++ midPacket.source.sampleBuffer =
        midPacket.consumed.flatMap (fun p => if p.MonoWellFormed then p.monoSamples else []) := by
  refine ⟨by decide +kernel, ?_⟩
  refine ((nativeReads_conserve streaming [packetOf 3 2 10, packetOf 3 1 10] ⟨rfl, rfl⟩).1
    midPacket ?_).1
  refine .read ⟨2, 0, [⟨[], none, none, 0⟩]⟩ .start ?_ ?_
  · intro poll member
    rw [List.mem_singleton.mp member]
    exact ⟨rfl, rfl⟩
  · decide +kernel

end SdrAaronia.NativeSdk
