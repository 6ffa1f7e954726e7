import SdrAaronia.NativeSdk.Conserve
import SdrAaronia.NativeSdk.Geometry

/-! # Deadline reads on the native backend

The deadline reads call the poll-bounded ones until they are filled, out of time, or
come back empty-handed with samples already collected.  A poll-bounded read stops in
front of a new geometry; the next one starts there, so what the rounds of a deadline
read add up to has one geometry only if no later round begins on another.
-/

namespace SdrAaronia.NativeSdk

variable {Real Item : Type}

/-- One round of a deadline read: the clock as it starts, what its polls find, the clock after
it. -/
structure Round (Real : Type) where
  now : Nat
  polls : List (Poll Real)
  after : Nat

/-- A deadline read between two rounds. -/
structure Filling (Real Item : Type) where
  source : NativeSdkSource Real
  queue : List (Packet Real)
  out : List Item

/-- How a round leaves the loop it is in. -/
inductive RoundEnd where
  /-- Its read is still waiting. -/
  | waits
  | goesOn
  | returns (outcome : Except Error Nat)

namespace Filling

variable (path : ReadPath Real Item) (noSamples : String) (deadline maxSamples : Nat)

/-- The poll-bounded read of a round. -/
def read (f : Filling Real Item) (round : Round Real) : ReadCall Real Item :=
  path.readWithin f.source f.queue (maxSamples - f.out.length) (deadline - round.now) round.polls

/-- One round: read into what is left of the buffer, with what is left of the time. -/
def round (f : Filling Real Item) (round : Round Real) : Filling Real Item × RoundEnd :=
  let call := f.read path deadline maxSamples round
  let f' : Filling Real Item := ⟨call.source, call.queue, f.out ++ call.out⟩
  match call.outcome with
  | none => (f', .waits)
  | some (.error error) => (f', .returns (.error error))
  | some (.ok n) =>
      let total := f'.out.length
      if maxSamples ≤ total ∨ deadline ≤ round.after ∨ (n = 0 ∧ 0 < total) then
        (f', .returns
          (if total = 0 ∧ 0 < maxSamples then .error (.timedOut noSamples) else .ok total))
      else (f', .goesOn)

/-- The loop of a deadline read; one whose rounds run out has not returned. -/
def fill (f : Filling Real Item) : List (Round Real) → Filling Real Item × Option (Except Error Nat)
  | [] => (f, none)
  | round :: rounds =>
      match f.round path noSamples deadline maxSamples round with
      | (f', .waits) => (f', none)
      | (f', .returns outcome) => (f', some outcome)
      | (f', .goesOn) => f'.fill rounds

/-- No round entered with samples in hand begins with a packet of another geometry than the one
last observed. -/
def Steady (f : Filling Real Item) : List (Round Real) → Prop
  | [] => True
  | round :: rounds =>
      (f.out ≠ [] → ∀ p, path.nextTaken f.source f.queue (maxSamples - f.out.length)
          (deadline - round.now) round.polls = some p →
        f.source.observed = IqGeometry.declared p.geometry) ∧
      ((f.round path noSamples deadline maxSamples round).2 = .goesOn →
        (f.round path noSamples deadline maxSamples round).1.Steady rounds)

end Filling

/-- A deadline read as the caller asks for it, with the rounds it gets. -/
structure DeadlineRequest (Real : Type) where
  maxSamples : Nat
  timeout : Nat
  started : Nat
  rounds : List (Round Real)

def DeadlineRequest.deadline (request : DeadlineRequest Real) : Nat :=
  request.started + request.timeout

/-- A deadline read: the source and queue it leaves, and its outcome once it has one. -/
structure DeadlineCall (Real Item : Type) where
  native : Option (NativeSdkSource Real)
  queue : List (Packet Real)
  out : List Item
  outcome : Option (Except Error Nat)

/-- The native arm of the two deadline reads. -/
def ReadPath.readDeadline (path : ReadPath Real Item) (noSamples : String)
    (native : Option (NativeSdkSource Real)) (queue : List (Packet Real))
    (request : DeadlineRequest Real) : DeadlineCall Real Item :=
  match native with
  | none => ⟨none, queue, [], some (.error (.config "Native SDK source not initialized"))⟩
  | some source =>
      let (f, outcome) := (⟨source, queue, []⟩ : Filling Real Item).fill path noSamples
        request.deadline request.maxSamples request.rounds
      ⟨some f.source, f.queue, f.out, outcome⟩

def monoNoSamples : String := "no samples arrived within the read deadline"
def dualNoSamples : String := "no sample pairs arrived within the read deadline"

def readSamplesDeadline (native : Option (NativeSdkSource Real)) (queue : List (Packet Real))
    (request : DeadlineRequest Real) : DeadlineCall Real (PacketSample Real) :=
  monoPath.readDeadline monoNoSamples native queue request

def readSamplesDualDeadline (native : Option (NativeSdkSource Real)) (queue : List (Packet Real))
    (request : DeadlineRequest Real) :
    DeadlineCall Real (PacketSample Real × PacketSample Real) :=
  dualPath.readDeadline dualNoSamples native queue request

namespace Filling

variable {path : ReadPath Real Item} {noSamples : String} {deadline maxSamples : Nat}

/-! ## Rounds -/

theorem round_next (path : ReadPath Real Item) (noSamples : String) (deadline maxSamples : Nat)
    (f : Filling Real Item) (round : Round Real) :
    (f.round path noSamples deadline maxSamples round).1 =
      ⟨(f.read path deadline maxSamples round).source,
        (f.read path deadline maxSamples round).queue,
        f.out ++ (f.read path deadline maxSamples round).out⟩ := by
  simp only [Filling.round]
  cases (f.read path deadline maxSamples round).outcome with
  | none => rfl
  | some outcome =>
      cases outcome with
      | error error => rfl
      | ok n =>
          simp only
          split
          · rfl
          · rfl

theorem round_goesOn {f : Filling Real Item} {round : Round Real}
    (goesOn : (f.round path noSamples deadline maxSamples round).2 = .goesOn) :
    (f.out ++ (f.read path deadline maxSamples round).out).length < maxSamples ∧
      ∃ n, (f.read path deadline maxSamples round).outcome = some (.ok n) := by
  simp only [Filling.round] at goesOn
  cases returned : (f.read path deadline maxSamples round).outcome with
  | none =>
      rw [returned] at goesOn
      cases goesOn
  | some outcome =>
      rw [returned] at goesOn
      cases outcome with
      | error error => cases goesOn
      | ok n =>
          simp only at goesOn
          split at goesOn
          · cases goesOn
          · rename_i left
            exact ⟨not_le.mp (not_or.mp left).1, n, rfl⟩

theorem fill_goesOn {f : Filling Real Item} {round : Round Real} (rounds : List (Round Real))
    (goesOn : (f.round path noSamples deadline maxSamples round).2 = .goesOn) :
    f.fill path noSamples deadline maxSamples (round :: rounds) =
      (f.round path noSamples deadline maxSamples round).1.fill path noSamples deadline maxSamples
        rounds := by
  simp only [fill]
  cases ended : f.round path noSamples deadline maxSamples round with
  | mk f' how =>
      rw [ended] at goesOn
      cases goesOn
      rfl

theorem fill_ends {f : Filling Real Item} {round : Round Real} (rounds : List (Round Real))
    (ends : (f.round path noSamples deadline maxSamples round).2 ≠ .goesOn) :
    (f.fill path noSamples deadline maxSamples (round :: rounds)).1 =
      (f.round path noSamples deadline maxSamples round).1 := by
  simp only [fill]
  cases ended : f.round path noSamples deadline maxSamples round with
  | mk f' how =>
      rw [ended] at ends
      cases how with
      | waits | returns => rfl
      | goesOn => exact absurd rfl ends

theorem fill_keeps {Inv : NativeSdkSource Real → Prop}
    (keeps : ∀ (f : Filling Real Item) (round : Round Real), Inv f.source →
      Inv (f.read path deadline maxSamples round).source)
    {rounds : List (Round Real)} {f : Filling Real Item} (holds : Inv f.source) :
    Inv (f.fill path noSamples deadline maxSamples rounds).1.source := by
  induction rounds generalizing f with
  | nil => exact holds
  | cons round rounds ih =>
      have kept : Inv (f.round path noSamples deadline maxSamples round).1.source := by
        rw [round_next]
        exact keeps f round holds
      by_cases goesOn : (f.round path noSamples deadline maxSamples round).2 = .goesOn
      · rw [fill_goesOn rounds goesOn]
        exact ih kept
      · rw [fill_ends rounds goesOn]
        exact kept

theorem fill_appends (path : ReadPath Real Item) (noSamples : String) (deadline maxSamples : Nat)
    (round : Round Real) (rounds : List (Round Real)) (f : Filling Real Item) :
    ∃ more, (f.fill path noSamples deadline maxSamples (round :: rounds)).1.out =
      f.out ++ (f.read path deadline maxSamples round).out ++ more := by
  induction rounds generalizing f round with
  | nil =>
      refine ⟨[], ?_⟩
      by_cases goesOn : (f.round path noSamples deadline maxSamples round).2 = .goesOn
      · rw [fill_goesOn [] goesOn, fill, round_next, List.append_nil]
      · rw [fill_ends [] goesOn, round_next, List.append_nil]
  | cons next rounds ih =>
      by_cases goesOn : (f.round path noSamples deadline maxSamples round).2 = .goesOn
      · obtain ⟨more, rest⟩ := ih next (f.round path noSamples deadline maxSamples round).1
        rw [fill_goesOn (next :: rounds) goesOn, rest, round_next, List.append_assoc]
        exact ⟨_, rfl⟩
      · refine ⟨[], ?_⟩
        rw [fill_ends (next :: rounds) goesOn, round_next, List.append_nil]

/-! ## One geometry -/

/-- What a deadline read has collected and holds over, while it keeps to one geometry. -/
structure Tidy (origin : Origin path) (f : Filling Real Item) : Prop where
  out : origin.OneGeometry f.out f.source
  carry : origin.OneGeometry (path.carry f.source) f.source
  drained : f.out ≠ [] → path.carry f.source = []

/-- A round that begins on the geometry in hand, if there is one, keeps to it. -/
theorem Tidy.read {origin : Origin path} {f : Filling Real Item} (tidy : f.Tidy origin)
    {round : Round Real}
    (same : f.out ≠ [] → ∀ p, path.nextTaken f.source f.queue (maxSamples - f.out.length)
      (deadline - round.now) round.polls = some p →
      f.source.observed = IqGeometry.declared p.geometry) :
    origin.OneGeometry (f.out ++ (f.read path deadline maxSamples round).out)
        (f.read path deadline maxSamples round).source ∧
      origin.OneGeometry (path.carry (f.read path deadline maxSamples round).source)
        (f.read path deadline maxSamples round).source := by
  obtain ⟨handed, held⟩ := ReadPath.readWithin_oneGeometry f.queue
    (maxSamples - f.out.length) (deadline - round.now) round.polls tidy.carry
  refine ⟨?_, held⟩
  by_cases none : f.out = []
  · rw [none, List.nil_append]
    exact handed
  · obtain ⟨g, all, observed⟩ := tidy.out
    have next := ReadPath.readWithin_next origin f.queue (maxSamples - f.out.length)
      (deadline - round.now) round.polls (tidy.drained none)
    cases taken : path.nextTaken f.source f.queue (maxSamples - f.out.length)
        (deadline - round.now) round.polls with
    | none =>
        rw [taken] at next
        have nothing : (f.read path deadline maxSamples round).out = [] := next.1
        rw [nothing, List.append_nil]
        exact ⟨g, all, fun some => next.2.trans (observed some)⟩
    | some p =>
        rw [taken] at next
        obtain ⟨-, came, reported⟩ := next
        have geometry : g = p.geometry :=
          IqGeometry.declared_inj ((observed none).symm.trans (same none p taken))
        refine ⟨g, ?_, fun _ => geometry ▸ reported⟩
        intro item member
        cases List.mem_append.mp member with
        | inl earlier => exact all item earlier
        | inr now => exact geometry ▸ came item now

/-- A round that begins on another geometry than the one in hand mixes the two. -/
theorem Tidy.mixes {origin : Origin path} {f : Filling Real Item} (tidy : f.Tidy origin)
    {round : Round Real} (begun : f.out ≠ []) {p : Packet Real}
    (taken : path.nextTaken f.source f.queue (maxSamples - f.out.length)
      (deadline - round.now) round.polls = some p)
    (other : f.source.observed ≠ IqGeometry.declared p.geometry) (more : List Item)
    (s : NativeSdkSource Real) :
    ¬origin.OneGeometry (f.out ++ (f.read path deadline maxSamples round).out ++ more) s := by
  rintro ⟨g', all', -⟩
  obtain ⟨g, all, observed⟩ := tidy.out
  have next := ReadPath.readWithin_next origin f.queue (maxSamples - f.out.length)
    (deadline - round.now) round.polls (tidy.drained begun)
  rw [taken] at next
  obtain ⟨came, from', -⟩ := next
  obtain ⟨old, member⟩ := List.exists_mem_of_ne_nil f.out begun
  obtain ⟨new, member'⟩ := List.exists_mem_of_ne_nil _ came
  have first : g = g' := origin.unique (all old member)
    (all' old (List.mem_append_left _ (List.mem_append_left _ member)))
  have second : p.geometry = g' := origin.unique (from' new member')
    (all' new (List.mem_append_left _ (List.mem_append_right _ member')))
  exact other ((observed begun).trans (congrArg IqGeometry.declared (first.trans second.symm)))

theorem Tidy.goesOn {origin : Origin path} {f : Filling Real Item} {round : Round Real}
    (out : origin.OneGeometry (f.out ++ (f.read path deadline maxSamples round).out)
      (f.read path deadline maxSamples round).source)
    (carry : origin.OneGeometry (path.carry (f.read path deadline maxSamples round).source)
      (f.read path deadline maxSamples round).source)
    (goesOn : (f.round path noSamples deadline maxSamples round).2 = .goesOn) :
    Tidy origin (f.round path noSamples deadline maxSamples round).1 := by
  obtain ⟨room, n, returned⟩ := round_goesOn goesOn
  rw [round_next]
  refine ⟨out, carry, fun _ => ?_⟩
  refine ReadPath.readWithin_drained f.queue (maxSamples - f.out.length) (deadline - round.now)
    round.polls returned ?_
  rw [List.length_append] at room
  exact Nat.lt_sub_of_add_lt (by rw [Nat.add_comm]; exact room)

/-- A deadline read hands out one geometry exactly when it is steady. -/
theorem fill_oneGeometry {origin : Origin path} {rounds : List (Round Real)}
    {f : Filling Real Item} (tidy : f.Tidy origin) :
    origin.OneGeometry (f.fill path noSamples deadline maxSamples rounds).1.out
        (f.fill path noSamples deadline maxSamples rounds).1.source ↔
      f.Steady path noSamples deadline maxSamples rounds := by
  induction rounds generalizing f with
  | nil => exact iff_of_true tidy.out trivial
  | cons round rounds ih =>
      by_cases same : f.out ≠ [] → ∀ p, path.nextTaken f.source f.queue
          (maxSamples - f.out.length) (deadline - round.now) round.polls = some p →
          f.source.observed = IqGeometry.declared p.geometry
      · obtain ⟨out, carry⟩ := tidy.read same
        simp only [Steady, and_iff_right same]
        by_cases goesOn : (f.round path noSamples deadline maxSamples round).2 = .goesOn
        · rw [fill_goesOn rounds goesOn, ih (Tidy.goesOn out carry goesOn)]
          exact ⟨fun steady _ => steady, fun steady => steady goesOn⟩
        · rw [fill_ends rounds goesOn, round_next]
          exact iff_of_true out fun now => absurd now goesOn
      · refine iff_of_false ?_ fun steady => same steady.1
        obtain ⟨begun, p, taken, other⟩ : f.out ≠ [] ∧ ∃ p, path.nextTaken f.source f.queue
            (maxSamples - f.out.length) (deadline - round.now) round.polls = some p ∧
            f.source.observed ≠ IqGeometry.declared p.geometry := by
          simp only [not_forall] at same
          obtain ⟨begun, p, taken, other⟩ := same
          exact ⟨begun, p, taken, other⟩
        obtain ⟨more, out⟩ := fill_appends path noSamples deadline maxSamples round rounds f
        rw [out]
        exact tidy.mixes begun taken other more _

end Filling

/-! ## Sessions -/

/-- What both read paths hold over came with the geometry the source reports, and only the path the
session is committed to holds anything. -/
structure NativeSdkSource.Sound (s : NativeSdkSource Real) : Prop where
  mono : monoOrigin.OneGeometry s.sampleBuffer s
  dual : dualOrigin.OneGeometry s.dualSampleBuffer s
  monoLatched : s.sampleBuffer ≠ [] → s.readMode = some .mono
  dualLatched : s.dualSampleBuffer ≠ [] → s.readMode = some .dual

theorem NativeSdkSource.Drained.sound {s : NativeSdkSource Real} (drained : s.Drained) :
    s.Sound where
  mono := drained.1 ▸ ReadPath.oneGeometry_nil monoOrigin s
  dual := drained.2 ▸ ReadPath.oneGeometry_nil dualOrigin s
  monoLatched := fun held => absurd drained.1 held
  dualLatched := fun held => absurd drained.2 held

/-- While one path may read, the other holds nothing over. -/
theorem NativeSdkSource.Sound.monoEmpty {s : NativeSdkSource Real} (sound : s.Sound)
    (mode : s.readMode = none ∨ s.readMode = some .dual) : s.sampleBuffer = [] := by
  by_contra held
  have latched := sound.monoLatched held
  cases mode with
  | inl none => cases none.symm.trans latched
  | inr dual => cases dual.symm.trans latched

theorem NativeSdkSource.Sound.dualEmpty {s : NativeSdkSource Real} (sound : s.Sound)
    (mode : s.readMode = none ∨ s.readMode = some .mono) : s.dualSampleBuffer = [] := by
  by_contra held
  have latched := sound.dualLatched held
  cases mode with
  | inl none => cases none.symm.trans latched
  | inr mono => cases mono.symm.trans latched

theorem NativeSdkSource.Sound.monoRead {s : NativeSdkSource Real} (sound : s.Sound)
    (queue : List (Packet Real)) (maxSamples pollBudget : Nat) (polls : List (Poll Real)) :
    (monoPath.readWithin s queue maxSamples pollBudget polls).source.Sound := by
  have mono := (ReadPath.readWithin_oneGeometry queue maxSamples pollBudget polls sound.mono).2
  cases monoPath.readWithin_latches s queue maxSamples pollBudget polls with
  | inl same =>
      rw [same]
      exact sound
  | inr latched =>
      obtain ⟨mode, source, carry, after, wiring⟩ := latched
      rw [after] at mono ⊢
      obtain ⟨-, other, latch⟩ := NativeSdkSource.holds_of_wiring wiring
      have empty : (monoPath.keep source carry).dualSampleBuffer = [] :=
        other.trans (sound.dualEmpty mode)
      exact ⟨mono, empty ▸ ReadPath.oneGeometry_nil dualOrigin _, fun _ => latch,
        fun held => absurd empty held⟩

theorem NativeSdkSource.Sound.dualRead {s : NativeSdkSource Real} (sound : s.Sound)
    (queue : List (Packet Real)) (maxSamples pollBudget : Nat) (polls : List (Poll Real)) :
    (dualPath.readWithin s queue maxSamples pollBudget polls).source.Sound := by
  have dual := (ReadPath.readWithin_oneGeometry queue maxSamples pollBudget polls sound.dual).2
  cases dualPath.readWithin_latches s queue maxSamples pollBudget polls with
  | inl same =>
      rw [same]
      exact sound
  | inr latched =>
      obtain ⟨mode, source, carry, after, wiring⟩ := latched
      rw [after] at dual ⊢
      obtain ⟨other, -, latch⟩ := NativeSdkSource.holds_of_wiring wiring
      have empty : (dualPath.keep source carry).sampleBuffer = [] :=
        other.trans (sound.monoEmpty mode)
      exact ⟨empty ▸ ReadPath.oneGeometry_nil monoOrigin _, dual, fun held => absurd empty held,
        fun _ => latch⟩

/-- The native backend between two deadline reads. -/
structure NativeBackend (Real : Type) where
  native : Option (NativeSdkSource Real)
  queue : List (Packet Real)

namespace NativeBackend

def monoCall (backend : NativeBackend Real) (request : DeadlineRequest Real) :
    DeadlineCall Real (PacketSample Real) :=
  readSamplesDeadline backend.native backend.queue request

def dualCall (backend : NativeBackend Real) (request : DeadlineRequest Real) :
    DeadlineCall Real (PacketSample Real × PacketSample Real) :=
  readSamplesDualDeadline backend.native backend.queue request

/-- The backends that deadline reads, mono and dual in any order, lead to from this one. -/
inductive Reached (start : NativeBackend Real) : NativeBackend Real → Prop where
  | start : Reached start start
  | mono {backend : NativeBackend Real} (request : DeadlineRequest Real)
      (reached : Reached start backend) (returned : (backend.monoCall request).outcome ≠ none) :
      Reached start ⟨(backend.monoCall request).native, (backend.monoCall request).queue⟩
  | dual {backend : NativeBackend Real} (request : DeadlineRequest Real)
      (reached : Reached start backend) (returned : (backend.dualCall request).outcome ≠ none) :
      Reached start ⟨(backend.dualCall request).native, (backend.dualCall request).queue⟩

theorem readDeadline_sound {path : ReadPath Real Item} {noSamples : String}
    (keeps : ∀ (s : NativeSdkSource Real) queue maxSamples pollBudget polls, s.Sound →
      (path.readWithin s queue maxSamples pollBudget polls).source.Sound)
    (backend : NativeBackend Real) (request : DeadlineRequest Real)
    (sound : ∀ s ∈ backend.native, s.Sound) :
    ∀ s ∈ (path.readDeadline noSamples backend.native backend.queue request).native, s.Sound := by
  cases present : backend.native with
  | none =>
      intro s member
      cases member
  | some source =>
      rw [present] at sound
      intro s member
      cases member
      exact Filling.fill_keeps (fun f round => keeps f.source f.queue _ _ round.polls)
        (sound source rfl)

theorem Reached.sound {start backend : NativeBackend Real} (reached : start.Reached backend)
    (drained : ∀ s ∈ start.native, s.Drained) : ∀ s ∈ backend.native, s.Sound := by
  induction reached with
  | start => exact fun s member => (drained s member).sound
  | mono request reached returned ih =>
      exact readDeadline_sound (fun s queue maxSamples pollBudget polls sound =>
        sound.monoRead queue maxSamples pollBudget polls) _ request ih
  | dual request reached returned ih =>
      exact readDeadline_sound (fun s queue maxSamples pollBudget polls sound =>
        sound.dualRead queue maxSamples pollBudget polls) _ request ih

/-- No round of the read begins on another geometry than the one of samples it already has. -/
def Steady (backend : NativeBackend Real) (path : ReadPath Real Item) (noSamples : String)
    (request : DeadlineRequest Real) : Prop :=
  ∀ source ∈ backend.native, (⟨source, backend.queue, []⟩ : Filling Real Item).Steady path noSamples
    request.deadline request.maxSamples request.rounds

theorem readDeadline_oneGeometry {path : ReadPath Real Item} (origin : Origin path)
    (noSamples : String) (backend : NativeBackend Real) (request : DeadlineRequest Real)
    (held : ∀ s ∈ backend.native, origin.OneGeometry (path.carry s) s) :
    (∃ g, (∀ item ∈ (path.readDeadline noSamples backend.native backend.queue request).out,
          origin.From g item) ∧
        ((path.readDeadline noSamples backend.native backend.queue request).out ≠ [] →
          ∀ s ∈ (path.readDeadline noSamples backend.native backend.queue request).native,
            s.observed = IqGeometry.declared g)) ↔
      backend.Steady path noSamples request := by
  cases present : backend.native with
  | none =>
      refine iff_of_true ?_ ?_
      · exact ⟨none, fun _ member => absurd member List.not_mem_nil, fun some => absurd rfl some⟩
      · intro s member
        rw [present] at member
        cases member
  | some source =>
      have tidy : (⟨source, backend.queue, []⟩ : Filling Real Item).Tidy origin :=
        ⟨ReadPath.oneGeometry_nil origin source, held source present, fun begun => absurd rfl begun⟩
      simp only [Steady, present, ReadPath.readDeadline, Option.mem_def, Option.some.injEq,
        forall_eq']
      exact Filling.fill_oneGeometry tidy

end NativeBackend

/-- These samples came from packets of one geometry, which the source then reports. -/
def Unmixed (samples : List (PacketSample Real)) (native : Option (NativeSdkSource Real)) : Prop :=
  ∃ g, (∀ sample ∈ samples, sample.geometry = g) ∧
    (samples ≠ [] → ∀ s ∈ native, s.observed = IqGeometry.declared g)

/-- What a dual deadline read appended to the two channels' buffers. -/
def DeadlineCall.rx1 (call : DeadlineCall Real (PacketSample Real × PacketSample Real)) :
    List (PacketSample Real) := (DualBuffers.empty.extend call.out).rx1

def DeadlineCall.rx2 (call : DeadlineCall Real (PacketSample Real × PacketSample Real)) :
    List (PacketSample Real) := (DualBuffers.empty.extend call.out).rx2

theorem unmixed_pairs (pairs : List (PacketSample Real × PacketSample Real))
    (native : Option (NativeSdkSource Real)) :
    Unmixed ((DualBuffers.empty.extend pairs).rx1 ++ (DualBuffers.empty.extend pairs).rx2) native ↔
      ∃ g, (∀ item ∈ pairs, dualOrigin.From g item) ∧
        (pairs ≠ [] → ∀ s ∈ native, s.observed = IqGeometry.declared g) := by
  rw [DualBuffers.extend_rx1, DualBuffers.extend_rx2]
  simp only [DualBuffers.empty, List.nil_append]
  refine exists_congr fun g => and_congr ?_ ?_
  · constructor
    · intro all item member
      exact ⟨all item.1 (List.mem_append_left _ (List.mem_map_of_mem member)),
        all item.2 (List.mem_append_right _ (List.mem_map_of_mem member))⟩
    · intro all sample member
      cases List.mem_append.mp member with
      | inl first =>
          obtain ⟨item, given, rfl⟩ := List.mem_map.mp first
          exact (all item given).1
      | inr second =>
          obtain ⟨item, given, rfl⟩ := List.mem_map.mp second
          exact (all item given).2
  · rw [ne_eq, List.append_eq_nil_iff, List.map_eq_nil_iff, List.map_eq_nil_iff, and_self]

/-- After any deadline reads of a session, the next one hands out samples of one geometry, and
leaves the source reporting it, exactly when none of its rounds begins on another geometry than the
one of samples it already has. -/
theorem readDeadline_unmixed_iff {start backend : NativeBackend Real}
    (drained : ∀ s ∈ start.native, s.Drained) (reached : start.Reached backend)
    (request : DeadlineRequest Real) :
    (Unmixed (backend.monoCall request).out (backend.monoCall request).native ↔
        backend.Steady monoPath monoNoSamples request) ∧
      (Unmixed ((backend.dualCall request).rx1 ++ (backend.dualCall request).rx2)
          (backend.dualCall request).native ↔
        backend.Steady dualPath dualNoSamples request) := by
  have sound := reached.sound drained
  constructor
  · exact backend.readDeadline_oneGeometry monoOrigin monoNoSamples request
      fun s member => (sound s member).mono
  · rw [DeadlineCall.rx1, DeadlineCall.rx2, unmixed_pairs]
    exact backend.readDeadline_oneGeometry dualOrigin dualNoSamples request
      fun s member => (sound s member).dual

/-- A packet of one sample at 10 Hz, and one at 20 Hz behind it. -/
def retuned : NativeBackend Nat := ⟨some streaming, [packetOf 1 2 10, packetOf 1 2 20]⟩

/-- A poll that finds nothing new. -/
def quiet : Poll Nat := ⟨[], none, none, 0⟩

theorem readDeadline_unmixed_iff_noTime :
    (retuned.monoCall ⟨2, 0, 0, [⟨0, [quiet, quiet], 0⟩]⟩).out.length = 1 ∧
      Unmixed (retuned.monoCall ⟨2, 0, 0, [⟨0, [quiet, quiet], 0⟩]⟩).out
        (retuned.monoCall ⟨2, 0, 0, [⟨0, [quiet, quiet], 0⟩]⟩).native := by
  have drained : ∀ s ∈ retuned.native, s.Drained := by
    rintro s ⟨⟩
    exact ⟨rfl, rfl⟩
  refine ⟨by decide +kernel, ?_⟩
  refine (readDeadline_unmixed_iff drained .start ⟨2, 0, 0, [⟨0, [quiet, quiet], 0⟩]⟩).1.mpr ?_
  rintro s ⟨⟩
  exact ⟨fun begun => absurd rfl begun, fun _ => trivial⟩

/-- With time left and room for two samples, the second round takes the packet the first one left in
the queue for its other frequency. -/
theorem deadline_read_mixes :
    ¬Unmixed (retuned.monoCall ⟨2, 10, 0, [⟨0, [quiet, quiet], 1⟩, ⟨1, [quiet], 2⟩]⟩).out
      (retuned.monoCall ⟨2, 10, 0, [⟨0, [quiet, quiet], 1⟩, ⟨1, [quiet], 2⟩]⟩).native := by
  have geometries : (retuned.monoCall ⟨2, 10, 0, [⟨0, [quiet, quiet], 1⟩, ⟨1, [quiet], 2⟩]⟩).out.map
      PacketSample.geometry =
      [some ⟨8, some 4, some 12⟩, some ⟨8, some 4, some 22⟩] := by
    decide +kernel
  rintro ⟨g, all, -⟩
  have same : ∀ seen ∈ [some (⟨8, some 4, some 12⟩ : IqGeometry), some ⟨8, some 4, some 22⟩],
      seen = g := by
    rw [← geometries]
    intro seen member
    obtain ⟨sample, given, rfl⟩ := List.mem_map.mp member
    exact all sample given
  have first := same _ List.mem_cons_self
  have second := same _ (List.mem_cons_of_mem _ List.mem_cons_self)
  cases first.trans second.symm

end SdrAaronia.NativeSdk
