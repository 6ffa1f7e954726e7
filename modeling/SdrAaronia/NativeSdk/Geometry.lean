import SdrAaronia.NativeSdk.Read

/-! # One read, one geometry

A read leaves the first packet of a new geometry in the queue, so what it hands out
came with one geometry, and that is the one the source then reports.  Which packet a
read takes first can be told from the queue and the polls alone.
-/

namespace SdrAaronia.NativeSdk

variable {Real Item : Type}

/-- The fields a source reports of a geometry. -/
def IqGeometry.declared (g : Option IqGeometry) : Option F64 × Option F64 × Option F64 :=
  (g.map sampleRateHz, g.bind bandwidthHz, g.bind centerFrequencyHz)

theorem IqGeometry.declared_inj {g g' : Option IqGeometry} (same : declared g = declared g') :
    g = g' := by
  cases g with
  | none =>
      cases g' with
      | none => rfl
      | some b => cases congrArg Prod.fst same
  | some a =>
      cases g' with
      | none => cases congrArg Prod.fst same
      | some b =>
          cases a
          cases b
          simp only [declared, Option.map_some, Option.bind_some, Prod.mk.injEq,
            Option.some.injEq] at same
          obtain ⟨rfl, rfl, rfl⟩ := same
          rfl

namespace NativeSdkSource

/-- The sample rate, bandwidth and centre the source reports. -/
def observed (s : NativeSdkSource Real) : Option F64 × Option F64 × Option F64 :=
  (s.observedSampleRateHz, s.observedBandwidthHz, s.observedCenterFrequencyHz)

end NativeSdkSource

/-- Which geometry the items of a path came with. -/
structure Origin (path : ReadPath Real Item) where
  From : Option IqGeometry → Item → Prop
  handed : ∀ p, ∀ item ∈ (path.handling p).items, From p.geometry item
  unique : ∀ {g g' item}, From g item → From g' item → g = g'
  some : ∀ {p items}, path.handling p = .take items → items ≠ []

/-- The packet a read takes its first samples from: the head of the queue, or one behind packets it
skips, which then must declare no geometry. -/
def ReadPath.firstTaken (path : ReadPath Real Item) (pollBudget : Nat) :
    Bool → List (Packet Real) → List (Poll Real) → Option (Packet Real)
  | _, _, [] => none
  | got, queue, poll :: polls =>
      match poll.getError, queue ++ poll.arrived with
      | some _, _ => none
      | none, [] =>
          if got ∨ pollBudget ≤ poll.elapsed then none
          else path.firstTaken pollBudget got [] polls
      | none, p :: rest =>
          if got ∧ none ≠ p.geometry then none
          else
            match path.handling p with
            | .take _ => some p
            | .skip | .lose =>
                if poll.consumeError = none then path.firstTaken pollBudget true rest polls
                else none
            | .stop | .fail _ => none

namespace Reading

variable {path : ReadPath Real Item} (origin : Origin path)

/-- A read that has taken no packet yet. -/
structure EmptyHanded (source : NativeSdkSource Real) (r : Reading Real Item) : Prop where
  out : r.out = []
  carry : r.carry = []
  fresh : r.readGeometry = none
  observed : r.source.observed = source.observed

/-- A read that holds samples of one geometry. -/
structure InHand (g : Option IqGeometry) (r : Reading Real Item) : Prop where
  some : r.out ≠ []
  got : r.gotPacket = true
  geometry : r.readGeometry = g
  observed : r.source.observed = IqGeometry.declared g
  out : ∀ item ∈ r.out, origin.From g item
  carry : ∀ item ∈ r.carry, origin.From g item

theorem account_untaken {r : Reading Real Item} {p : Packet Real}
    (untaken : ∀ items, path.handling p ≠ .take items) :
    (r.account path p).out = r.out ∧ (r.account path p).carry = r.carry ∧
      (r.account path p).readGeometry = r.readGeometry ∧
      (r.account path p).source.observed = r.source.observed := by
  cases handled : path.handling p with
  | take items => exact absurd handled (untaken items)
  | skip | lose | stop | fail =>
      simp only [account, handled, true_and]
      cases path.heedsAll with
      | true | false => rfl

theorem account_taken {r : Reading Real Item} {p : Packet Real} {items : List Item}
    (taken : path.handling p = .take items) :
    (r.account path p).readGeometry = p.geometry ∧
      (r.account path p).source.observed = IqGeometry.declared p.geometry := by
  constructor
  · simp only [account, taken, copyOut]
  · simp only [account, taken, copyOut]
    rfl

variable {origin}

/-- The first packet taken settles the geometry. -/
theorem EmptyHanded.taken {source : NativeSdkSource Real} {r : Reading Real Item}
    (empty : EmptyHanded source r) (wanting : r.remaining ≠ 0) {p : Packet Real} {items : List Item}
    (taken : path.handling p = .take items) :
    InHand origin p.geometry (r.account path p) := by
  have handed := origin.handed p
  rw [taken] at handed
  obtain ⟨geometry, observed⟩ := account_taken (r := r) taken
  refine ⟨?_, account_gotPacket path r p, geometry, observed, ?_, ?_⟩
  · rw [account_out, taken, empty.out, List.nil_append]
    exact mt List.take_eq_nil_iff.mp (not_or.mpr ⟨wanting, origin.some taken⟩)
  · rw [account_out, taken, empty.out, List.nil_append]
    exact fun item member => handed item (List.mem_of_mem_take member)
  · rw [account_carry, taken, empty.carry, List.nil_append]
    exact fun item member => handed item (List.mem_of_mem_drop member)

theorem EmptyHanded.untaken {source : NativeSdkSource Real} {r : Reading Real Item}
    (empty : EmptyHanded source r) {p : Packet Real}
    (untaken : ∀ items, path.handling p ≠ .take items) :
    EmptyHanded source (r.account path p) := by
  obtain ⟨out, carry, geometry, observed⟩ := account_untaken (r := r) untaken
  exact ⟨out.trans empty.out, carry.trans empty.carry, geometry.trans empty.fresh,
    observed.trans empty.observed⟩

/-- A packet of the geometry in hand adds samples of that geometry, or none. -/
theorem InHand.accounted {g : Option IqGeometry} {r : Reading Real Item}
    (inHand : InHand origin g r)
    {p : Packet Real} (same : r.readGeometry = p.geometry) :
    InHand origin g (r.account path p) := by
  have geometry : p.geometry = g := same.symm.trans inHand.geometry
  have handed := origin.handed p
  rw [geometry] at handed
  have kept : (r.account path p).readGeometry = g ∧
      (r.account path p).source.observed = IqGeometry.declared g := by
    by_cases taken : ∃ items, path.handling p = .take items
    · obtain ⟨items, taken⟩ := taken
      exact geometry ▸ account_taken taken
    · obtain ⟨-, -, geometry, observed⟩ :=
        account_untaken (r := r) (fun items handled => taken ⟨items, handled⟩)
      exact ⟨geometry.trans inHand.geometry, observed.trans inHand.observed⟩
  refine ⟨?_, account_gotPacket path r p, kept.1, kept.2, ?_, ?_⟩
  · rw [account_out]
    exact List.append_ne_nil_of_left_ne_nil inHand.some _
  · rw [account_out]
    intro item member
    cases List.mem_append.mp member with
    | inl earlier => exact inHand.out item earlier
    | inr now => exact handed item (List.mem_of_mem_take now)
  · rw [account_carry]
    intro item member
    cases List.mem_append.mp member with
    | inl earlier => exact inHand.carry item earlier
    | inr now => exact handed item (List.mem_of_mem_drop now)

theorem InHand.consume {g : Option IqGeometry} {r : Reading Real Item} (inHand : InHand origin g r)
    {p : Packet Real} {rest : List (Packet Real)} : InHand origin g (r.consume p rest) :=
  ⟨inHand.some, inHand.got, inHand.geometry, inHand.observed, inHand.out, inHand.carry⟩

theorem EmptyHanded.consume {source : NativeSdkSource Real} {r : Reading Real Item}
    (empty : EmptyHanded source r) {p : Packet Real} {rest : List (Packet Real)} :
    EmptyHanded source (r.consume p rest) :=
  ⟨empty.out, empty.carry, empty.fresh, empty.observed⟩

theorem InHand.step {g : Option IqGeometry} {r : Reading Real Item} (inHand : InHand origin g r)
    (pollBudget : Nat) (poll : Poll Real) :
    InHand origin g (r.step path pollBudget poll).1 := by
  obtain ⟨some, got, geometry, observed, out, carry⟩ := inHand
  have polled : InHand origin g (r.polled poll) := ⟨some, got, geometry, observed, out, carry⟩
  have stepped := step_stepped path pollBudget r poll
  generalize r.step path pollBudget poll = stepTo at stepped ⊢
  cases stepped with
  | getFailed | dry | waits | boundary => exact polled
  | kept code found next same failed => exact polled.accounted (same got)
  | consumed found next same given => exact (polled.accounted (same got)).consume

theorem InHand.run {g : Option IqGeometry} {r : Reading Real Item} (inHand : InHand origin g r)
    (pollBudget : Nat) (polls : List (Poll Real)) :
    InHand origin g (r.run path pollBudget polls).1 :=
  run_keeps (fun _ poll _ _ kept => kept.step pollBudget poll) inHand

/-- A read whose first packet taken is this one, if there is one. -/
def Settled (origin : Origin path) (source : NativeSdkSource Real) (r : Reading Real Item) :
    Option (Packet Real) → Prop
  | none => EmptyHanded source r
  | some p => InHand origin p.geometry r

theorem run_settled (origin : Origin path) (pollBudget : Nat) (polls : List (Poll Real))
    {source : NativeSdkSource Real} {r : Reading Real Item} (empty : EmptyHanded source r)
    (wanting : r.remaining ≠ 0) :
    Settled origin source (r.run path pollBudget polls).1
      (path.firstTaken pollBudget r.gotPacket r.queue polls) := by
  induction polls generalizing r with
  | nil => exact empty
  | cons poll polls ih =>
      have polled : EmptyHanded source (r.polled poll) :=
        ⟨empty.out, empty.carry, empty.fresh, empty.observed⟩
      have stepped := step_stepped path pollBudget r poll
      simp only [run, if_neg wanting, ReadPath.firstTaken]
      generalize r.step path pollBudget poll = stepTo at stepped ⊢
      cases stepped with
      | getFailed code failed =>
          simp only [failed]
          exact polled
      | dry found next done =>
          rw [show r.queue ++ poll.arrived = [] from next]
          simp only [found, if_pos done]
          exact polled
      | waits found next first =>
          have later := ih polled wanting
          rw [show (r.polled poll).queue = [] from next] at later
          rw [show r.queue ++ poll.arrived = [] from next]
          simp only [found, if_neg first]
          exact later
      | @boundary p rest found next got moved =>
          rw [empty.fresh] at moved
          rw [show r.queue ++ poll.arrived = p :: rest from next]
          simp only [found, got, moved, true_and, if_true, not_false_eq_true, ne_eq]
          exact polled
      | @kept p rest code found next same failed =>
          have near : ¬(r.gotPacket = true ∧ none ≠ p.geometry) :=
            fun moved => moved.2 (empty.fresh ▸ same moved.1)
          rw [show r.queue ++ poll.arrived = p :: rest from next]
          simp only [found, if_neg near]
          cases handled : path.handling p with
          | take items => exact polled.taken wanting handled
          | skip | lose =>
              rw [failed]
              exact polled.untaken (by simp [handled])
          | stop | fail => exact polled.untaken (by simp [handled])
      | @consumed p rest found next same given =>
          have near : ¬(r.gotPacket = true ∧ none ≠ p.geometry) :=
            fun moved => moved.2 (empty.fresh ▸ same moved.1)
          rw [show r.queue ++ poll.arrived = p :: rest from next]
          simp only [found, if_neg near]
          cases handled : path.handling p with
          | take items => exact (polled.taken wanting handled).consume.run pollBudget polls
          | skip | lose =>
              have other : ∀ items, path.handling p ≠ .take items := by simp [handled]
              have untaken := polled.untaken other
              have left : (((r.polled poll).account path p).consume p rest).remaining ≠ 0 := by
                simp only [consume, account_remaining, handled, Handling.items, List.length_nil]
                exact wanting
              have later := ih untaken.consume left
              rw [show (((r.polled poll).account path p).consume p rest).gotPacket = true from
                account_gotPacket path _ p] at later
              rw [if_pos given]
              exact later
          | stop | fail =>
              exact (polled.untaken (by simp [handled])).consume

end Reading

namespace ReadPath

variable (path : ReadPath Real Item)

theorem keep_observed (s : NativeSdkSource Real) (items : List Item) :
    (path.keep s items).observed = s.observed := by
  have same := congrArg NativeSdkSource.observed (path.keep_bare s items)
  exact same

/-- The packet a read call takes its first samples from, if it takes any. -/
def nextTaken (s : NativeSdkSource Real) (queue : List (Packet Real)) (maxSamples pollBudget : Nat)
    (polls : List (Poll Real)) : Option (Packet Real) :=
  match path.enter s queue maxSamples with
  | .inl _ => none
  | .inr reading => path.firstTaken pollBudget reading.gotPacket reading.queue polls

end ReadPath

/-- These samples came with one geometry, which is then the one the source reports. -/
def Origin.OneGeometry {path : ReadPath Real Item} (origin : Origin path) (items : List Item)
    (s : NativeSdkSource Real) : Prop :=
  ∃ g, (∀ item ∈ items, origin.From g item) ∧ (items ≠ [] → s.observed = IqGeometry.declared g)

namespace ReadPath

variable {path : ReadPath Real Item} {origin : Origin path} {s : NativeSdkSource Real}

theorem oneGeometry_nil (origin : Origin path) (s : NativeSdkSource Real) :
    origin.OneGeometry [] s :=
  ⟨none, fun _ member => absurd member List.not_mem_nil, fun some => absurd rfl some⟩

/-- A read that goes on to poll does so empty-handed. -/
theorem begun_emptyHanded (path : ReadPath Real Item) (s : NativeSdkSource Real)
    (queue : List (Packet Real)) (maxSamples : Nat) :
    (path.begun s queue maxSamples).EmptyHanded s :=
  ⟨rfl, rfl, rfl, rfl⟩

theorem begun_portioned (path : ReadPath Real Item) (s : NativeSdkSource Real)
    (queue : List (Packet Real)) (maxSamples : Nat) :
    (path.begun s queue maxSamples).Portioned maxSamples :=
  ⟨Nat.zero_add maxSamples, fun _ => rfl⟩

/-- A read hands out one geometry and holds over one geometry, whatever packets lie between. -/
theorem readWithin_oneGeometry (queue : List (Packet Real)) (maxSamples pollBudget : Nat)
    (polls : List (Poll Real)) (held : origin.OneGeometry (path.carry s) s) :
    origin.OneGeometry (path.readWithin s queue maxSamples pollBudget polls).out
        (path.readWithin s queue maxSamples pollBudget polls).source ∧
      origin.OneGeometry
        (path.carry (path.readWithin s queue maxSamples pollBudget polls).source)
        (path.readWithin s queue maxSamples pollBudget polls).source := by
  have entered := path.enter_entered s queue maxSamples
  simp only [readWithin]
  generalize path.enter s queue maxSamples = entry at entered ⊢
  cases entered with
  | refused error => exact ⟨oneGeometry_nil origin s, held⟩
  | served active mode enough =>
      obtain ⟨g, all, observed⟩ := held
      simp only [ReadCall.unpolled, Origin.OneGeometry, path.carry_keep, path.keep_observed]
      constructor
      · refine ⟨g, fun item member => all item (List.mem_of_mem_take member), fun some => ?_⟩
        exact observed fun none => some (by rw [none, List.take_nil])
      · refine ⟨g, fun item member => all item (List.mem_of_mem_drop member), fun some => ?_⟩
        exact observed fun none => some (by rw [none, List.drop_nil])
  | noDevice mode wanting empty missing =>
      simp only [ReadCall.unpolled, path.carry_keep]
      exact ⟨oneGeometry_nil origin _, oneGeometry_nil origin _⟩
  | polls active mode wanting empty present =>
      have settled := Reading.run_settled origin pollBudget polls
        (path.begun_emptyHanded s queue maxSamples) wanting
      simp only [path.carry_keep, Origin.OneGeometry, path.keep_observed]
      cases first : path.firstTaken pollBudget (path.begun s queue maxSamples).gotPacket
          (path.begun s queue maxSamples).queue polls with
      | none =>
          rw [first] at settled
          rw [settled.out, settled.carry]
          exact ⟨⟨none, fun _ member => absurd member List.not_mem_nil,
              fun some => absurd rfl some⟩,
            ⟨none, fun _ member => absurd member List.not_mem_nil, fun some => absurd rfl some⟩⟩
      | some p =>
          rw [first] at settled
          exact ⟨⟨p.geometry, settled.out, fun _ => settled.observed⟩,
            ⟨p.geometry, settled.carry, fun _ => settled.observed⟩⟩

/-- What a read with nothing held over hands out is told by the packet it takes first. -/
theorem readWithin_next (origin : Origin path) (queue : List (Packet Real))
    (maxSamples pollBudget : Nat) (polls : List (Poll Real)) (empty : path.carry s = []) :
    match path.nextTaken s queue maxSamples pollBudget polls with
    | none =>
        (path.readWithin s queue maxSamples pollBudget polls).out = [] ∧
          (path.readWithin s queue maxSamples pollBudget polls).source.observed = s.observed
    | some p =>
        (path.readWithin s queue maxSamples pollBudget polls).out ≠ [] ∧
          (∀ item ∈ (path.readWithin s queue maxSamples pollBudget polls).out,
            origin.From p.geometry item) ∧
          (path.readWithin s queue maxSamples pollBudget polls).source.observed =
            IqGeometry.declared p.geometry := by
  have entered := path.enter_entered s queue maxSamples
  simp only [readWithin, nextTaken]
  generalize path.enter s queue maxSamples = entry at entered ⊢
  cases entered with
  | refused error => exact ⟨rfl, rfl⟩
  | served active mode enough =>
      simp only [ReadCall.unpolled, path.keep_observed, empty, List.take_nil]
      exact ⟨trivial, rfl⟩
  | noDevice mode wanting empty missing => exact ⟨rfl, path.keep_observed (path.latch s) []⟩
  | polls active mode wanting empty present =>
      have settled := Reading.run_settled origin pollBudget polls
        (path.begun_emptyHanded s queue maxSamples) wanting
      simp only [path.keep_observed]
      cases first : path.firstTaken pollBudget (path.begun s queue maxSamples).gotPacket
          (path.begun s queue maxSamples).queue polls with
      | none =>
          rw [first] at settled
          exact ⟨settled.out, settled.observed⟩
      | some p =>
          rw [first] at settled
          exact ⟨settled.some, settled.out, settled.observed⟩

/-- A read that returns short of what was asked has nothing held over. -/
theorem readWithin_drained (queue : List (Packet Real)) (maxSamples pollBudget : Nat)
    (polls : List (Poll Real)) {n : Nat}
    (returned : (path.readWithin s queue maxSamples pollBudget polls).outcome = some (.ok n))
    (short : (path.readWithin s queue maxSamples pollBudget polls).out.length < maxSamples) :
    path.carry (path.readWithin s queue maxSamples pollBudget polls).source = [] := by
  have entered := path.enter_entered s queue maxSamples
  simp only [readWithin] at returned short ⊢
  generalize path.enter s queue maxSamples = entry at entered returned short ⊢
  cases entered with
  | refused error => cases returned
  | served active mode enough =>
      simp only [ReadCall.unpolled, List.length_take] at short
      simp only [ReadCall.unpolled, path.carry_keep]
      exact List.drop_eq_nil_of_le (by omega)
  | noDevice mode wanting empty missing => exact path.carry_keep _ _
  | polls active mode wanting empty present =>
      have portioned := (path.begun_portioned s queue maxSamples).run path pollBudget polls
      have short :
          (Reading.run path pollBudget (path.begun s queue maxSamples) polls).1.out.length <
        maxSamples := short
      have total := portioned.total
      simp only [path.carry_keep]
      exact portioned.drained (by omega)

end ReadPath

def monoOrigin : Origin (monoPath : ReadPath Real (PacketSample Real)) where
  From g item := item.geometry = g
  handed p item member := by
    have given : item ∈ p.monoHandling.items := member
    rw [Packet.monoHandling_items] at given
    by_cases wellFormed : p.MonoWellFormed
    · rw [if_pos wellFormed] at given
      exact Packet.monoSamples_geometry given
    · rw [if_neg wellFormed] at given
      exact absurd given List.not_mem_nil
  unique here there := here.symm.trans there
  some taken := (Packet.mono_sorts.taken taken).2

def dualOrigin : Origin (dualPath : ReadPath Real (PacketSample Real × PacketSample Real)) where
  From g item := item.1.geometry = g ∧ item.2.geometry = g
  handed p item member := by
    have given : item ∈ p.dualHandling.items := member
    rw [Packet.dualHandling_items] at given
    by_cases wellFormed : p.DualWellFormed
    · rw [if_pos wellFormed] at given
      exact Packet.dualSamples_geometry given
    · rw [if_neg wellFormed] at given
      exact absurd given List.not_mem_nil
  unique here there := here.1.symm.trans there.1
  some taken := (Packet.dual_sorts.taken taken).2

end SdrAaronia.NativeSdk
