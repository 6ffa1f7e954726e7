import SdrAaronia.NativeSdk.Deadline

/-! # Reads that fail with samples in hand

A read appends to the caller's buffer as it goes, and an error leaves what it has appended there.
A packet that the device does not take back has been read all the same, and what the request had no
room for is held over.  Whether it comes to either can be told beforehand from the packets queued
and from what the polls find.
-/

namespace SdrAaronia.NativeSdk

variable {Real Item : Type}

/-- Whether a read fails with samples in hand, or with some of a packet held over that stays queued:
it has these in hand, has `got` a packet, of this geometry, and wants so many more. -/
def ReadPath.forfeitsFrom (path : ReadPath Real Item) (pollBudget : Nat) :
    (hand : List Item) → (got : Bool) → Option IqGeometry → (wanted : Nat) →
      List (Packet Real) → List (Poll Real) → Prop
  | _, _, _, _, _, [] => False
  | hand, got, geometry, wanted, queue, poll :: polls =>
      if wanted = 0 then False
      else
        match poll.getError, queue ++ poll.arrived with
        | some _, _ => hand ≠ []
        | none, [] =>
            if got ∨ pollBudget ≤ poll.elapsed then False
            else path.forfeitsFrom pollBudget hand got geometry wanted [] polls
        | none, p :: rest =>
            if got ∧ geometry ≠ p.geometry then False
            else
              match poll.consumeError, path.handling p with
              -- The packet stays, with the samples beyond the request held over in front of it.
              | some _, handling => handling.items.drop wanted ≠ hand
              | none, .fail _ => hand ≠ []
              | none, .stop => False
              | none, .skip | none, .lose =>
                  path.forfeitsFrom pollBudget hand true geometry wanted rest polls
              | none, .take items =>
                  path.forfeitsFrom pollBudget (hand ++ items.take wanted) true p.geometry
                    (wanted - items.length) rest polls

/-- The source refuses the read before it looks at what it holds over. -/
def ReadPath.Refuses (path : ReadPath Real Item) (s : NativeSdkSource Real) : Prop :=
  s.streamActive = false ∨ (∃ mode ∈ s.openMode, mode.carriesIq = false) ∨
    (s.readMode ≠ none ∧ s.readMode ≠ some path.mode)

/-- What has a read fail with samples in hand, those its caller already has included. -/
def ReadPath.Forfeits (path : ReadPath Real Item) (hand : List Item) (s : NativeSdkSource Real)
    (queue : List (Packet Real)) (maxSamples pollBudget : Nat) (polls : List (Poll Real)) : Prop :=
  (path.Refuses s → hand ≠ []) ∧
    (¬path.Refuses s → path.carry s = [] ∧ maxSamples ≠ 0 ∧
      (s.device = none → hand ≠ []) ∧
      (s.device ≠ none → path.forfeitsFrom pollBudget hand false none maxSamples queue polls))

namespace Reading

/-- A read fails and holds over something else than it owes. -/
def Forfeited (owed held : List Item) (outcome : Option (Except Error Nat)) : Prop :=
  (∃ error, outcome = some (.error error)) ∧ held ≠ owed

/-- Every packet read was taken back, or the read did not fail. -/
def Orderly (polls : List (Poll Real)) (outcome : Option (Except Error Nat)) : Prop :=
  (∀ poll ∈ polls, poll.consumeError = none) ∨ ∀ error, outcome ≠ some (.error error)

theorem not_forfeited_ok {owed held : List Item} {n : Nat} :
    ¬Forfeited owed held (some (.ok n)) := by
  rintro ⟨⟨error, failed⟩, -⟩
  cases failed

theorem not_forfeited_none {owed held : List Item} : ¬Forfeited owed held none := by
  rintro ⟨⟨error, failed⟩, -⟩
  cases failed

theorem forfeited_error {owed held : List Item} {error : Error} :
    Forfeited owed held (some (.error error)) ↔ held ≠ owed :=
  and_iff_right ⟨error, rfl⟩

theorem orderly_ok (polls : List (Poll Real)) (n : Nat) : Orderly polls (some (.ok n)) :=
  .inr fun error failed => by cases failed

theorem orderly_tail {poll : Poll Real} {polls : List (Poll Real)}
    {outcome : Option (Except Error Nat)} (orderly : Orderly (poll :: polls) outcome) :
    Orderly polls outcome :=
  orderly.imp_left fun giveBack => (List.forall_mem_cons.mp giveBack).2

theorem orderly_error {polls : List (Poll Real)} {error : Error}
    (orderly : Orderly polls (some (.error error))) : ∀ poll ∈ polls, poll.consumeError = none :=
  orderly.resolve_right fun succeeds => succeeds error rfl

section Run

variable {path : ReadPath Real Item} {drops : Nat} {queue : List (Packet Real)}
  {r : Reading Real Item}

theorem Balanced.inHand (balanced : Balanced path drops queue r) (wanting : r.remaining ≠ 0) :
    r.carry = [] ∧ r.consumed.flatMap (fun p => (path.handling p).items) = r.out := by
  have empty := balanced.drained wanting
  have flow := balanced.flow
  rw [empty, List.append_nil] at flow
  exact ⟨empty, flow.symm⟩

theorem account_queue (path : ReadPath Real Item) (r : Reading Real Item) (p : Packet Real) :
    (r.account path p).queue = r.queue := by
  cases handled : path.handling p with
  | take | skip | lose | stop | fail => simp only [account, handled, copyOut]

/-- What a read took was queued in that order, an orderly one hands it out or holds it over, and
the number returned is that of the samples handed out. -/
structure Books (path : ReadPath Real Item) (queue : List (Packet Real)) (polls : List (Poll Real))
    (ended : Reading Real Item × Option (Except Error Nat)) : Prop where
  order : queue ++ ended.1.arrived = ended.1.consumed ++ ended.1.queue
  flow : Orderly polls ended.2 →
    ended.1.out ++ ended.1.carry = ended.1.consumed.flatMap fun p => (path.handling p).items
  counted : ∀ n, ended.2 = some (.ok n) → n = ended.1.out.length

theorem Balanced.books (balanced : Balanced path drops queue r) (polls : List (Poll Real))
    {outcome : Option (Except Error Nat)}
    (counted : ∀ n, outcome = some (.ok n) → n = r.out.length) :
    Books path queue polls (r, outcome) :=
  ⟨balanced.order, fun _ => balanced.flow, counted⟩

theorem ok_length {n m : Nat} (same : (some (.ok n) : Option (Except Error Nat)) = some (.ok m)) :
    m = n :=
  (Except.ok.inj (Option.some.inj same)).symm

theorem Books.later {poll : Poll Real} {polls : List (Poll Real)}
    {ended : Reading Real Item × Option (Except Error Nat)} (books : Books path queue polls ended) :
    Books path queue (poll :: polls) ended :=
  ⟨books.order, fun orderly => books.flow (orderly_tail orderly), books.counted⟩

theorem run_books (path : ReadPath Real Item) (pollBudget : Nat) (polls : List (Poll Real))
    (balanced : Balanced path drops queue r) :
    Books path queue polls (r.run path pollBudget polls) := by
  induction polls generalizing r with
  | nil =>
      rw [run]
      split
      · exact balanced.books [] fun n returned => (ok_length returned)
      · exact balanced.books [] fun n returned => (by cases returned)
  | cons poll polls ih =>
      rw [run]
      by_cases filled : r.remaining = 0
      · rw [if_pos filled]
        exact balanced.books _ fun n returned => ok_length returned
      rw [if_neg filled]
      have polled := balanced.polled filled poll
      have stepped := step_stepped path pollBudget r poll
      generalize r.step path pollBudget poll = stepTo at stepped ⊢
      cases stepped with
      | getFailed code failed => exact polled.books _ fun n returned => (by cases returned)
      | dry | boundary => exact polled.books _ fun n returned => ok_length returned
      | waits => exact (ih polled).later
      | kept code found next same failed =>
          refine ⟨?_, fun orderly => ?_, fun n returned => (by cases returned)⟩
          · simp only [account_arrived, account_consumed, account_queue]
            exact polled.order
          · have given := orderly_error orderly poll List.mem_cons_self
            cases failed.symm.trans given
      | @consumed p rest found next same given =>
          have after := polled.consumed filled next
          cases handled : path.handling p with
          | fail error => exact after.books _ fun n returned => (by cases returned)
          | stop => exact after.books _ fun n returned => ok_length returned
          | skip | lose | take => exact (ih after).later

/-- The loop fails and holds over something else than it took exactly when its polls say so. -/
theorem run_forfeits (path : ReadPath Real Item) (pollBudget : Nat) (polls : List (Poll Real))
    (hand : List Item) (balanced : Balanced path drops queue r) :
    path.forfeitsFrom pollBudget (hand ++ r.out) r.gotPacket r.readGeometry r.remaining r.queue
        polls ↔
      Forfeited (hand ++ (r.run path pollBudget polls).1.consumed.flatMap
          fun p => (path.handling p).items)
        (r.run path pollBudget polls).1.carry (r.run path pollBudget polls).2 := by
  induction polls generalizing r with
  | nil =>
      refine iff_of_false id ?_
      rw [run]
      split
      · exact not_forfeited_ok
      · exact not_forfeited_none
  | cons poll polls ih =>
      simp only [ReadPath.forfeitsFrom, run]
      by_cases filled : r.remaining = 0
      · rw [if_pos filled, if_pos filled]
        exact iff_of_false id not_forfeited_ok
      rw [if_neg filled, if_neg filled]
      obtain ⟨empty, taken⟩ := balanced.inHand filled
      have polled := balanced.polled filled poll
      have stepped := step_stepped path pollBudget r poll
      generalize r.step path pollBudget poll = stepTo at stepped ⊢
      cases stepped with
      | getFailed code failed =>
          simp only [failed, forfeited_error, Reading.polled, empty, taken]
          exact ne_comm
      | dry found none done =>
          have none : r.queue ++ poll.arrived = [] := none
          simp only [found, none, if_pos done]
          exact iff_of_false id not_forfeited_ok
      | waits found none first =>
          have same := ih polled
          have none : r.queue ++ poll.arrived = [] := none
          simp only [Reading.polled, none] at same
          simp only [found, none, if_neg first, Reading.polled]
          exact same
      | boundary found next got moved =>
          have next : r.queue ++ poll.arrived = _ := next
          have stops : r.gotPacket = true ∧ r.readGeometry ≠ _ := ⟨got, moved⟩
          simp only [found, next, if_pos stops]
          exact iff_of_false id not_forfeited_ok
      | @kept p rest code found next same failed =>
          have goes : ¬(r.gotPacket = true ∧ r.readGeometry ≠ p.geometry) :=
            fun stops => stops.2 (same stops.1)
          have queued : r.queue ++ poll.arrived = p :: rest := next
          simp only [found, queued, if_neg goes, failed, forfeited_error, account_carry,
            account_consumed, Reading.polled, empty, taken, List.nil_append]
      | @consumed p rest found next same given =>
          have goes : ¬(r.gotPacket = true ∧ r.readGeometry ≠ p.geometry) :=
            fun stops => stops.2 (same stops.1)
          have queued : r.queue ++ poll.arrived = p :: rest := next
          have after := ih (polled.consumed filled next)
          simp only [found, queued, if_neg goes, given]
          cases handled : path.handling p with
          | fail error =>
              have nothing : (path.handling p).items = [] := by
                rw [handled]
                rfl
              simp only [Handling.ends, forfeited_error, Reading.consume, account_carry,
                account_consumed, nothing, List.drop_nil, List.append_nil, Reading.polled, empty,
                taken, List.flatMap_append, List.flatMap_cons, List.flatMap_nil]
              exact ne_comm
          | stop =>
              simp only [Handling.ends]
              exact iff_of_false id not_forfeited_ok
          | skip | lose =>
              simp only [Reading.consume, account, handled, Reading.polled] at after ⊢
              simpa only [Handling.ends] using after
          | take items =>
              have out : ((r.polled poll).account path p).out =
                  r.out ++ items.take r.remaining := by
                rw [account_out, handled]
                rfl
              have remaining : ((r.polled poll).account path p).remaining =
                  r.remaining - items.length := by
                rw [account_remaining, handled]
                rfl
              have geometry := (account_taken (r := r.polled poll) handled).1
              simp only [Reading.consume, out, remaining, geometry, account_gotPacket,
                ← List.append_assoc] at after
              simp only [Handling.ends, Reading.consume, out, remaining, geometry,
                account_gotPacket]
              exact after

end Run

end Reading

namespace ReadPath

variable {path : ReadPath Real Item} {s : NativeSdkSource Real}

theorem enter_refused (refuses : path.Refuses s) (queue : List (Packet Real)) (maxSamples : Nat) :
    ∃ error, path.enter s queue maxSamples = .inl (.unpolled s queue [] (.error error)) := by
  rw [enter]
  by_cases active : s.streamActive = false
  · exact ⟨_, if_pos active⟩
  · rw [if_neg active]
    cases mode : NativeSdkSource.requireMode s.openMode DeviceOpenMode.carriesIq "IQ" with
    | error error => exact ⟨error, rfl⟩
    | ok allowed =>
        rcases refuses with inactive | ⟨open', opened, carries⟩ | other
        · exact absurd inactive active
        · rw [Option.mem_def.mp opened, NativeSdkSource.requireMode, carries] at mode
          cases mode
        · exact ⟨_, if_pos other⟩

theorem enter_accepted (accepted : ¬path.Refuses s) (queue : List (Packet Real))
    (maxSamples : Nat) :
    path.enter s queue maxSamples =
      if maxSamples = 0 ∨ path.carry s ≠ [] then
        .inl (.unpolled (path.keep (path.latch s) ((path.carry s).drop maxSamples)) queue
          ((path.carry s).take maxSamples) (.ok (min (path.carry s).length maxSamples)))
      else if s.device = none then
        .inl (.unpolled (path.keep (path.latch s) []) queue [] (.error (.sdk "No device opened")))
      else .inr (path.begun s queue maxSamples) := by
  obtain ⟨active, rest⟩ := not_or.mp accepted
  obtain ⟨carries, same⟩ := not_or.mp rest
  have mode : NativeSdkSource.requireMode s.openMode DeviceOpenMode.carriesIq "IQ" = .ok () := by
    cases opened : s.openMode with
    | none => rfl
    | some mode =>
        have allowed : mode.carriesIq = true := by
          cases allows : mode.carriesIq with
          | true => rfl
          | false => exact absurd ⟨mode, opened, allows⟩ carries
        rw [NativeSdkSource.requireMode, if_pos allowed]
  rw [enter, if_neg active, mode]
  simp only [if_neg same]
  by_cases enough : maxSamples = 0 ∨ path.carry s ≠ []
  · rw [if_pos (planRead_enough.mpr enough), if_pos enough, planRead_take, planRead_drop]
    rfl
  · rw [if_neg (mt planRead_enough.mp enough), if_neg enough]
    obtain ⟨wanting, empty⟩ := not_or.mp enough
    rw [not_not.mp empty, List.drop_nil, List.take_nil]
    by_cases missing : s.device = none
    · rw [if_pos missing, if_pos missing]
    · rw [if_neg missing, if_neg missing]
      rfl

theorem begun_balanced (path : ReadPath Real Item) (s : NativeSdkSource Real)
    (queue : List (Packet Real)) (maxSamples : Nat) :
    Reading.Balanced path s.dropEvents queue (path.begun s queue maxSamples) :=
  ⟨fun _ => rfl, rfl, List.append_nil _, fun _ member => absurd member List.not_mem_nil,
    le_refl _, fun lost => absurd lost.choose_spec.1 List.not_mem_nil⟩

/-- A read fails and holds over something else than it owes exactly when its queue and polls say
so. -/
theorem readWithin_forfeits (path : ReadPath Real Item) (s : NativeSdkSource Real)
    (queue : List (Packet Real)) (maxSamples pollBudget : Nat) (polls : List (Poll Real))
    (hand : List Item) :
    path.Forfeits hand s queue maxSamples pollBudget polls ↔
      Reading.Forfeited
        (hand ++ path.carry s ++
          (path.readWithin s queue maxSamples pollBudget polls).consumed.flatMap
            fun p => (path.handling p).items)
        (path.carry (path.readWithin s queue maxSamples pollBudget polls).source)
        (path.readWithin s queue maxSamples pollBudget polls).outcome := by
  by_cases refuses : path.Refuses s
  · obtain ⟨error, entered⟩ := enter_refused refuses queue maxSamples
    simp only [readWithin, entered, ReadCall.unpolled, Reading.forfeited_error, List.flatMap_nil,
      List.append_nil, ne_eq, List.self_eq_append_left]
    exact ⟨fun forfeits => forfeits.1 refuses,
      fun had => ⟨fun _ => had, fun accepted => absurd refuses accepted⟩⟩
  rw [Forfeits, and_iff_right fun refused => absurd refused refuses]
  simp only [readWithin, enter_accepted refuses]
  by_cases enough : maxSamples = 0 ∨ path.carry s ≠ []
  · rw [if_pos enough]
    refine iff_of_false ?_ Reading.not_forfeited_ok
    intro forfeits
    obtain ⟨empty, wanting, -⟩ := forfeits refuses
    exact enough.elim wanting fun some => some empty
  rw [if_neg enough]
  obtain ⟨wanting, empty⟩ := not_or.mp enough
  have empty := not_not.mp empty
  rw [forall_prop_of_true refuses, and_iff_right empty, and_iff_right wanting, empty]
  by_cases missing : s.device = none
  · rw [if_pos missing]
    simp only [ReadCall.unpolled, Reading.forfeited_error, List.flatMap_nil, List.append_nil,
      path.carry_keep]
    exact ⟨fun forfeits => ne_comm.mp (forfeits.1 missing),
      fun had => ⟨fun _ => ne_comm.mp had, fun present => absurd missing present⟩⟩
  · rw [if_neg missing]
    have looped := Reading.run_forfeits path pollBudget polls hand
      (path.begun_balanced s queue maxSamples)
    simp only [begun, List.append_nil] at looped
    rw [and_iff_right fun none => absurd none missing, forall_prop_of_true missing,
      List.append_nil]
    simp only [path.carry_keep]
    exact looped

/-- The books of a read, from what is held over before it to what is held over after. -/
structure Books (path : ReadPath Real Item) (s : NativeSdkSource Real)
    (queue : List (Packet Real)) (polls : List (Poll Real)) (call : ReadCall Real Item) : Prop where
  order : queue ++ call.arrived = call.consumed ++ call.queue
  flow : Reading.Orderly polls call.outcome →
    call.out ++ path.carry call.source =
      path.carry s ++ call.consumed.flatMap fun p => (path.handling p).items
  counted : ∀ n, call.outcome = some (.ok n) → n = call.out.length

theorem readWithin_books (path : ReadPath Real Item) (s : NativeSdkSource Real)
    (queue : List (Packet Real)) (maxSamples pollBudget : Nat) (polls : List (Poll Real)) :
    path.Books s queue polls (path.readWithin s queue maxSamples pollBudget polls) := by
  have entered := path.enter_entered s queue maxSamples
  simp only [readWithin]
  generalize path.enter s queue maxSamples = entry at entered ⊢
  cases entered with
  | refused error =>
      exact ⟨List.append_nil _, fun _ => (List.append_nil _).symm,
        fun n returned => (by cases returned)⟩
  | served active mode enough =>
      refine ⟨List.append_nil _, fun _ => ?_, fun n returned => ?_⟩
      · simp only [ReadCall.unpolled, path.carry_keep, List.take_append_drop, List.flatMap_nil,
          List.append_nil]
      · rw [Reading.ok_length returned]
        simp only [ReadCall.unpolled, List.length_take, Nat.min_comm]
  | noDevice mode wanting empty missing =>
      refine ⟨List.append_nil _, fun _ => ?_, fun n returned => (by cases returned)⟩
      simp only [ReadCall.unpolled, path.carry_keep, empty, List.flatMap_nil, List.append_nil]
  | polls active mode wanting empty present =>
      have books := Reading.run_books path pollBudget polls
        (path.begun_balanced s queue maxSamples)
      refine ⟨books.order, fun orderly => ?_, books.counted⟩
      rw [path.carry_keep, empty, List.nil_append]
      exact books.flow orderly

theorem readWithin_counts (queue : List (Packet Real)) (maxSamples pollBudget : Nat)
    (polls : List (Poll Real)) :
    (path.readWithin s queue maxSamples pollBudget polls).out.length ≤ maxSamples := by
  have entered := path.enter_entered s queue maxSamples
  simp only [readWithin]
  generalize path.enter s queue maxSamples = entry at entered ⊢
  cases entered with
  | refused | noDevice => exact Nat.zero_le _
  | served active mode enough =>
      simp only [ReadCall.unpolled, List.length_take]
      exact Nat.min_le_left _ _
  | polls active mode wanting empty present =>
      have portioned := (path.begun_portioned s queue maxSamples).run path pollBudget polls
      exact Nat.le_of_add_right_le portioned.total.le

end ReadPath

/-! ## Deadline reads -/

namespace Filling

variable (path : ReadPath Real Item) (noSamples : String) (deadline maxSamples : Nat)

/-- One of the rounds fails with samples in hand, its own or those of the rounds before. -/
def Forfeits (f : Filling Real Item) : List (Round Real) → Prop
  | [] => False
  | round :: rounds =>
      path.Forfeits f.out f.source f.queue (maxSamples - f.out.length) (deadline - round.now)
          round.polls ∨
        (f.round path noSamples deadline maxSamples round).2 = .goesOn ∧
          (f.round path noSamples deadline maxSamples round).1.Forfeits rounds

/-- The packets that arrive while the rounds last. -/
def arrived (f : Filling Real Item) : List (Round Real) → List (Packet Real)
  | [] => []
  | round :: rounds =>
      (f.read path deadline maxSamples round).arrived ++
        match f.round path noSamples deadline maxSamples round with
        | (f', .goesOn) => f'.arrived rounds
        | (_, .waits) | (_, .returns _) => []

/-- The packets the rounds consume. -/
def consumed (f : Filling Real Item) : List (Round Real) → List (Packet Real)
  | [] => []
  | round :: rounds =>
      (f.read path deadline maxSamples round).consumed ++
        match f.round path noSamples deadline maxSamples round with
        | (f', .goesOn) => f'.consumed rounds
        | (_, .waits) | (_, .returns _) => []

variable {path noSamples deadline maxSamples}

theorem fill_cons (path : ReadPath Real Item) (noSamples : String) (deadline maxSamples : Nat)
    (f : Filling Real Item) (round : Round Real) (rounds : List (Round Real)) :
    ((f.round path noSamples deadline maxSamples round).2 = .goesOn ∧
      f.fill path noSamples deadline maxSamples (round :: rounds) =
        (f.round path noSamples deadline maxSamples round).1.fill path noSamples deadline
          maxSamples rounds ∧
      f.arrived path noSamples deadline maxSamples (round :: rounds) =
        (f.read path deadline maxSamples round).arrived ++
          (f.round path noSamples deadline maxSamples round).1.arrived path noSamples deadline
            maxSamples rounds ∧
      f.consumed path noSamples deadline maxSamples (round :: rounds) =
        (f.read path deadline maxSamples round).consumed ++
          (f.round path noSamples deadline maxSamples round).1.consumed path noSamples deadline
            maxSamples rounds) ∨
    ((f.round path noSamples deadline maxSamples round).2 ≠ .goesOn ∧
      (f.fill path noSamples deadline maxSamples (round :: rounds)).1 =
        (f.round path noSamples deadline maxSamples round).1 ∧
      f.arrived path noSamples deadline maxSamples (round :: rounds) =
        (f.read path deadline maxSamples round).arrived ∧
      f.consumed path noSamples deadline maxSamples (round :: rounds) =
        (f.read path deadline maxSamples round).consumed) := by
  simp only [fill, arrived, consumed]
  cases ended : f.round path noSamples deadline maxSamples round with
  | mk f' how =>
      cases how with
      | goesOn => exact .inl ⟨rfl, rfl, rfl, rfl⟩
      | waits | returns =>
          exact .inr ⟨fun goesOn => (by cases goesOn), rfl, List.append_nil _, List.append_nil _⟩

theorem round_flow (path : ReadPath Real Item) (noSamples : String) (deadline : Nat)
    (round : Round Real) (f : Filling Real Item) (within : f.out.length ≤ maxSamples) :
    (Reading.Orderly round.polls (f.read path deadline maxSamples round).outcome →
      (f.round path noSamples deadline maxSamples round).1.out ++
          path.carry (f.round path noSamples deadline maxSamples round).1.source =
        f.out ++ path.carry f.source ++ (f.read path deadline maxSamples round).consumed.flatMap
          (fun p => (path.handling p).items)) ∧
    f.queue ++ (f.read path deadline maxSamples round).arrived =
      (f.read path deadline maxSamples round).consumed ++
        (f.round path noSamples deadline maxSamples round).1.queue ∧
    (f.round path noSamples deadline maxSamples round).1.out.length ≤ maxSamples := by
  have books := path.readWithin_books f.source f.queue (maxSamples - f.out.length)
    (deadline - round.now) round.polls
  have counts : (f.read path deadline maxSamples round).out.length ≤ maxSamples - f.out.length :=
    ReadPath.readWithin_counts f.queue (maxSamples - f.out.length) (deadline - round.now)
      round.polls
  rw [round_next]
  refine ⟨fun orderly => ?_, books.order, ?_⟩
  · rw [List.append_assoc, List.append_assoc]
    exact congrArg (f.out ++ ·) (books.flow orderly)
  · rw [List.length_append]
    omega

theorem fill_returns {f : Filling Real Item} {round : Round Real} (rounds : List (Round Real))
    {outcome : Except Error Nat}
    (returns : (f.round path noSamples deadline maxSamples round).2 = .returns outcome) :
    f.fill path noSamples deadline maxSamples (round :: rounds) =
      ((f.round path noSamples deadline maxSamples round).1, some outcome) := by
  rw [fill]
  generalize f.round path noSamples deadline maxSamples round = ended at returns ⊢
  obtain ⟨f', how⟩ := ended
  cases returns
  rfl

theorem round_ok {f : Filling Real Item} {round : Round Real} {n : Nat}
    (succeeded : (f.read path deadline maxSamples round).outcome = some (.ok n)) :
    (f.round path noSamples deadline maxSamples round).2 = .goesOn ∨
      (f.round path noSamples deadline maxSamples round).2 =
        .returns (.ok (f.round path noSamples deadline maxSamples round).1.out.length) ∨
      ∃ error,
        (f.round path noSamples deadline maxSamples round).2 = .returns (.error error) ∧
          (f.round path noSamples deadline maxSamples round).1.out = [] := by
  simp only [Filling.round, succeeded]
  by_cases ends : maxSamples ≤ (f.out ++ (f.read path deadline maxSamples round).out).length ∨
      deadline ≤ round.after ∨
      n = 0 ∧ 0 < (f.out ++ (f.read path deadline maxSamples round).out).length
  · rw [if_pos ends]
    by_cases none : (f.out ++ (f.read path deadline maxSamples round).out).length = 0 ∧
        0 < maxSamples
    · rw [if_pos none]
      exact .inr (.inr ⟨_, rfl, List.length_eq_zero_iff.mp none.1⟩)
    · rw [if_neg none]
      exact .inr (.inl rfl)
  · rw [if_neg ends]
    exact .inl rfl

theorem round_error {f : Filling Real Item} {round : Round Real} {error : Error}
    (failed : (f.read path deadline maxSamples round).outcome = some (.error error)) :
    (f.round path noSamples deadline maxSamples round).2 = .returns (.error error) ∧
      (f.round path noSamples deadline maxSamples round).1.out =
        f.out ++ (f.read path deadline maxSamples round).out := by
  simp only [Filling.round, failed, and_self]

theorem orderly_round {f : Filling Real Item} {round : Round Real} {rounds : List (Round Real)}
    (orderly : Reading.Orderly ((round :: rounds).flatMap Round.polls)
      (f.fill path noSamples deadline maxSamples (round :: rounds)).2) :
    Reading.Orderly round.polls (f.read path deadline maxSamples round).outcome := by
  rcases orderly with giveBack | succeeds
  · exact .inl fun poll member => giveBack poll (List.mem_append_left _ member)
  · refine .inr fun error failed => succeeds error ?_
    rw [fill_returns rounds (round_error failed).1]

/-- What a deadline read took was queued in that order, an orderly one has collected it or holds it
over, and it collects no more than asked for. -/
theorem fill_flow (path : ReadPath Real Item) (noSamples : String) (deadline : Nat)
    (rounds : List (Round Real)) (f : Filling Real Item) (within : f.out.length ≤ maxSamples) :
    (Reading.Orderly (rounds.flatMap Round.polls)
        (f.fill path noSamples deadline maxSamples rounds).2 →
      (f.fill path noSamples deadline maxSamples rounds).1.out ++
          path.carry (f.fill path noSamples deadline maxSamples rounds).1.source =
        f.out ++ path.carry f.source ++
          (f.consumed path noSamples deadline maxSamples rounds).flatMap
            (fun p => (path.handling p).items)) ∧
    f.queue ++ f.arrived path noSamples deadline maxSamples rounds =
      f.consumed path noSamples deadline maxSamples rounds ++
        (f.fill path noSamples deadline maxSamples rounds).1.queue ∧
    (f.fill path noSamples deadline maxSamples rounds).1.out.length ≤ maxSamples := by
  induction rounds generalizing f with
  | nil =>
      refine ⟨fun _ => ?_, List.append_nil _, within⟩
      rw [consumed, List.flatMap_nil, List.append_nil]
      rfl
  | cons round rounds ih =>
      obtain ⟨flow, order, room⟩ := round_flow path noSamples deadline round f within
      rcases fill_cons path noSamples deadline maxSamples f round rounds with
        ⟨-, filled, arrived, consumed⟩ | ⟨-, filled, arrived, consumed⟩
      · obtain ⟨flows, orders, rooms⟩ :=
          ih (f.round path noSamples deadline maxSamples round).1 room
        refine ⟨fun orderly => ?_, ?_, ?_⟩
        · have here := flow (orderly_round orderly)
          rw [filled] at orderly ⊢
          rw [consumed, flows (orderly.imp_left fun giveBack poll member =>
            giveBack poll (List.mem_append_right _ member)), here, List.flatMap_append,
            ← List.append_assoc]
        · rw [filled, arrived, consumed, ← List.append_assoc, order, List.append_assoc, orders,
            List.append_assoc]
        · rw [filled]
          exact rooms
      · rw [filled, arrived, consumed]
        exact ⟨fun orderly => flow (orderly_round orderly), order, room⟩

/-- A deadline read fails and holds over something else than it owes exactly when one of its rounds
does. -/
theorem fill_forfeits (path : ReadPath Real Item) (noSamples : String)
    (deadline : Nat) (rounds : List (Round Real)) (f : Filling Real Item)
    (within : f.out.length ≤ maxSamples) :
    f.Forfeits path noSamples deadline maxSamples rounds ↔
      Reading.Forfeited
        (f.out ++ path.carry f.source ++
          (f.consumed path noSamples deadline maxSamples rounds).flatMap
            fun p => (path.handling p).items)
        (path.carry (f.fill path noSamples deadline maxSamples rounds).1.source)
        (f.fill path noSamples deadline maxSamples rounds).2 := by
  induction rounds generalizing f with
  | nil => exact iff_of_false id Reading.not_forfeited_none
  | cons round rounds ih =>
      obtain ⟨flow, -, room⟩ := round_flow path noSamples deadline round f within
      have read : _ ↔ Reading.Forfeited _
          (path.carry (f.read path deadline maxSamples round).source)
          (f.read path deadline maxSamples round).outcome :=
        path.readWithin_forfeits f.source f.queue (maxSamples - f.out.length)
          (deadline - round.now) round.polls f.out
      rw [Forfeits, read]
      cases returned : (f.read path deadline maxSamples round).outcome with
      | none =>
          simp only [fill, Filling.round, returned]
          refine iff_of_false ?_ Reading.not_forfeited_none
          rintro (ended | ⟨goesOn, -⟩)
          · exact Reading.not_forfeited_none ended
          · cases goesOn
      | some outcome =>
          cases outcome with
          | error error =>
              have returns : (f.round path noSamples deadline maxSamples round).2 =
                  .returns (.error error) := (round_error returned).1
              obtain ⟨goesOn, -⟩ | ⟨-, filled, -, consumed⟩ :=
                fill_cons path noSamples deadline maxSamples f round rounds
              · cases goesOn.symm.trans returns
              · rw [or_iff_left fun goesOn => (by cases goesOn.1.symm.trans returns),
                  fill_returns rounds returns, consumed, round_next]
                exact Iff.rfl
          | ok n =>
              rw [or_iff_right Reading.not_forfeited_ok]
              have flow := flow (returned ▸ Reading.orderly_ok round.polls n)
              rcases @round_ok _ _ path noSamples _ _ _ _ _ returned with
                goesOn | returns | ⟨error, returns, none⟩
              · obtain ⟨-, filled, -, consumed⟩ | ⟨ends, -⟩ :=
                  fill_cons path noSamples deadline maxSamples f round rounds
                · rw [filled, consumed, and_iff_right goesOn, ih _ room, flow,
                    List.flatMap_append, ← List.append_assoc]
                · exact absurd goesOn ends
              · rw [fill_returns rounds returns, returns]
                exact iff_of_false (fun goesOn => (by cases goesOn.1)) Reading.not_forfeited_ok
              · obtain ⟨goesOn, -⟩ | ⟨-, filled, -, consumed⟩ :=
                  fill_cons path noSamples deadline maxSamples f round rounds
                · cases goesOn.symm.trans returns
                · rw [none, List.nil_append] at flow
                  rw [fill_returns rounds returns, returns, consumed, Reading.forfeited_error,
                    flow]
                  exact iff_of_false (fun goesOn => (by cases goesOn.1)) fun other => other rfl

theorem fill_ok (rounds : List (Round Real)) (f : Filling Real Item) {n : Nat}
    (returned : (f.fill path noSamples deadline maxSamples rounds).2 = some (.ok n)) :
    n = (f.fill path noSamples deadline maxSamples rounds).1.out.length := by
  induction rounds generalizing f with
  | nil => cases returned
  | cons round rounds ih =>
      cases read : (f.read path deadline maxSamples round).outcome with
      | none =>
          simp only [fill, Filling.round, read] at returned
          cases returned
      | some outcome =>
          cases outcome with
          | error error =>
              rw [fill_returns rounds (round_error read).1] at returned
              cases returned
          | ok count =>
              rcases round_ok read with goesOn | returns | ⟨error, returns, -⟩
              · rw [fill_goesOn rounds goesOn] at returned ⊢
                exact ih _ returned
              · rw [fill_returns rounds returns] at returned ⊢
                cases returned
                rfl
              · rw [fill_returns rounds returns] at returned
                cases returned

end Filling

end SdrAaronia.NativeSdk
