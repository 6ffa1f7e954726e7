import SdrAaronia.CApi.ReadSamples

/-! # Failing C reads

Over HTTP a read that fails has taken nothing.  On the native backend it may have: samples held
over, or of packets good enough, are appended to the staging buffer before a later packet fails the
read, and go with it.
-/

namespace SdrAaronia.CApi

open NativeSdk

variable {Source Item Real Sample : Type}

/-- The call comes through to the source. -/
def Caller.Reaches (caller : Caller) : Prop :=
  caller.pointers = true ∧ caller.runtime ≠ some .currentThread

instance (caller : Caller) : Decidable caller.Reaches := inferInstanceAs (Decidable (_ ∧ _))

namespace ReadEntry

variable (entry : ReadEntry) {caller : Caller} (source : Source) (len : Nat)
  (read : Source → Nat → Staged Source Item)

theorem call_unreached (unreached : ¬caller.Reaches) :
    (entry.call caller source len read).source = source ∧
      (entry.call caller source len read).written = [] := by
  rw [call]
  by_cases pointers : caller.pointers = false
  · rw [if_pos pointers]
    exact ⟨rfl, rfl⟩
  · rw [if_neg pointers]
    have blocked : caller.runtime = some .currentThread := by
      by_contra free
      exact unreached ⟨Bool.eq_true_of_not_eq_false pointers, free⟩
    simp only [blocked, ffiBlockOn, and_self]

theorem errorCode_neg (error : Error) : entry.errorCode error < 0 := by
  unfold errorCode
  split
  · split
    · decide
    · decide
  · decide

theorem error_not_ok {outcome : Option (Except Error Nat)} {error : Error}
    (failed : outcome = some (.error error)) (n : Nat) : outcome ≠ some (.ok n) := by
  rw [failed]
  exact fun same => by cases same

/-- What a call that comes through makes of the staged samples: they are written when the source's
read succeeded, and a negative code says that it failed. -/
theorem call_reached (reached : caller.Reaches)
    (counted : ∀ n, (read source len).outcome = some (.ok n) →
      n = (read source len).buffer.length ∧ (read source len).buffer.length ≤ len) :
    (entry.call caller source len read).source = (read source len).source ∧
      ((∃ n, (read source len).outcome = some (.ok n)) →
        (entry.call caller source len read).written = (read source len).buffer) ∧
      ((∀ n, (read source len).outcome ≠ some (.ok n)) →
        (entry.call caller source len read).written = []) ∧
      ((entry.call caller source len read).code = none ↔ (read source len).outcome = none) ∧
      ((∃ code, (entry.call caller source len read).code = some code ∧ code < 0) ↔
        ∃ error, (read source len).outcome = some (.error error)) := by
  have pointers : ¬caller.pointers = false := by
    simp [reached.1]
  have runs : ffiBlockOn caller.runtime (read source len) = .ok (read source len) := by
    cases runtime : caller.runtime with
    | none => rfl
    | some flavor =>
        cases flavor with
        | currentThread => exact absurd runtime reached.2
        | multiThread => rfl
  simp only [call, if_neg pointers, runs]
  generalize read source len = staged at counted ⊢
  cases returned : staged.outcome with
  | none => simp
  | some outcome =>
      cases outcome with
      | error error =>
          have negative := entry.errorCode_neg error
          simp [negative]
      | ok n =>
          obtain ⟨same, within⟩ := counted n returned
          have copied : min (min n len) staged.buffer.length = staged.buffer.length := by omega
          simp [copied]

end ReadEntry

/-! ## One native call -/

namespace NativePort

variable (port : NativePort Real Item)

/-- The samples held over for this port. -/
def held (backend : NativeBackend Real) : List Item :=
  backend.native.elim [] port.path.carry

/-- The samples that later calls can still deliver: those held over, and those of the well-formed
packets queued. -/
def deliverable (backend : NativeBackend Real) : List Item :=
  port.held backend ++ backend.queue.flatMap port.yields

/-- The packets that arrive during a call. -/
def arrived (backend : NativeBackend Real) (call : NativeCall Real) : List (Packet Real) :=
  if call.caller.Reaches then
    backend.native.elim [] fun source =>
      match call with
      | .plain _ len polls =>
        (port.path.readWithin source backend.queue len readPollDeadline polls).arrived
      | .bounded _ request =>
        (⟨source, backend.queue, []⟩ : Filling Real Item).arrived port.path port.noSamples
          request.deadline request.maxSamples request.rounds
  else []

/-- The packets that a call consumes. -/
def consumed (backend : NativeBackend Real) (call : NativeCall Real) : List (Packet Real) :=
  if call.caller.Reaches then
    backend.native.elim [] fun source =>
      match call with
      | .plain _ len polls =>
        (port.path.readWithin source backend.queue len readPollDeadline polls).consumed
      | .bounded _ request =>
        (⟨source, backend.queue, []⟩ : Filling Real Item).consumed port.path port.noSamples
          request.deadline request.maxSamples request.rounds
  else []

/-- What has a call fail with samples in hand, or with some of a packet held over that stays
queued: it comes through to a source that is there, and a round of its read does. -/
def Forfeits (backend : NativeBackend Real) (call : NativeCall Real) : Prop :=
  call.caller.Reaches ∧ ∃ source ∈ backend.native,
    match call with
    | .plain _ len polls =>
      port.path.Forfeits [] source backend.queue len readPollDeadline polls
    | .bounded _ request =>
      (⟨source, backend.queue, []⟩ : Filling Real Item).Forfeits port.path port.noSamples
        request.deadline request.maxSamples request.rounds

/-- The samples held over before a call and those of the packets it consumed. -/
def owed (backend : NativeBackend Real) (call : NativeCall Real) : List Item :=
  port.held backend ++ (port.consumed backend call).flatMap port.yields

/-- The books of one read of the source. -/
structure Books (backend : NativeBackend Real) (call : NativeCall Real)
    (staged : Staged (NativeBackend Real) Item) : Prop where
  flow : Reading.Orderly call.polls staged.outcome →
    staged.buffer ++ port.held staged.source = port.owed backend call
  order : backend.queue ++ port.arrived backend call =
    port.consumed backend call ++ staged.source.queue
  counted : ∀ n, staged.outcome = some (.ok n) →
    n = staged.buffer.length ∧ staged.buffer.length ≤ call.len
  forfeits : port.Forfeits backend call ↔
    Reading.Forfeited (port.owed backend call) (port.held staged.source) staged.outcome

theorem absent_books {queue : List (Packet Real)} {call : NativeCall Real}
    (reached : call.caller.Reaches) :
    port.Books ⟨none, queue⟩ call (port.read call ⟨none, queue⟩ call.len) := by
  have unread : port.read call ⟨none, queue⟩ call.len =
      ⟨⟨none, queue⟩, [], some (.error (.config "Native SDK source not initialized"))⟩ := by
    cases call with
    | plain | bounded => rfl
  have nothing : port.consumed ⟨none, queue⟩ call = [] := by
    rw [consumed, if_pos reached]
    rfl
  have quiet : port.arrived ⟨none, queue⟩ call = [] := by
    rw [arrived, if_pos reached]
    rfl
  have owes : port.owed ⟨none, queue⟩ call = [] := by
    rw [owed, nothing]
    rfl
  rw [unread]
  refine ⟨?_, ?_, ?_, ?_⟩
  · rw [owes]
    exact fun _ => rfl
  · rw [nothing, quiet]
    exact List.append_nil queue
  · intro n returned
    cases returned
  · rw [owes]
    refine iff_of_false ?_ fun forfeited => forfeited.2 rfl
    rintro ⟨-, source, present, -⟩
    cases present

theorem plain_books {source : NativeSdkSource Real} {queue : List (Packet Real)} {caller : Caller}
    {len : Nat} {polls : List (Poll Real)}
    (reached : (NativeCall.plain caller len polls).caller.Reaches) :
    port.Books ⟨some source, queue⟩ (.plain caller len polls)
      (port.read (.plain caller len polls) ⟨some source, queue⟩ len) := by
  have books := port.path.readWithin_books source queue len readPollDeadline polls
  have forfeits := port.path.readWithin_forfeits source queue len readPollDeadline polls []
  have handles : (fun p => (port.path.handling p).items) = port.yields := funext port.handled
  have consumes : port.consumed ⟨some source, queue⟩ (.plain caller len polls) =
      (port.path.readWithin source queue len readPollDeadline polls).consumed := by
    rw [consumed, if_pos reached]
    rfl
  have here : Forfeits port ⟨some source, queue⟩ (.plain caller len polls) ↔
      port.path.Forfeits [] source queue len readPollDeadline polls := by
    rw [Forfeits, and_iff_right reached]
    simp
  refine ⟨fun orderly => ?_, ?_, fun n returned => ?_, ?_⟩
  · rw [owed, consumes, ← handles]
    exact books.flow orderly
  · rw [consumes, arrived, if_pos reached]
    exact books.order
  · exact ⟨books.counted n returned, ReadPath.readWithin_counts _ _ _ _⟩
  · rw [here, forfeits, owed, consumes, ← handles]
    exact Iff.rfl

theorem bounded_books {source : NativeSdkSource Real} {queue : List (Packet Real)}
    {caller : Caller} {request : DeadlineRequest Real}
    (reached : (NativeCall.bounded caller request).caller.Reaches) :
    port.Books ⟨some source, queue⟩ (.bounded caller request)
      (port.read (.bounded caller request) ⟨some source, queue⟩ request.maxSamples) := by
  obtain ⟨flow, order, room⟩ := Filling.fill_flow port.path port.noSamples request.deadline
    request.rounds ⟨source, queue, []⟩ (Nat.zero_le request.maxSamples)
  have forfeits := Filling.fill_forfeits port.path port.noSamples request.deadline request.rounds
    ⟨source, queue, []⟩ (Nat.zero_le request.maxSamples)
  have handles : (fun p => (port.path.handling p).items) = port.yields := funext port.handled
  have consumes : port.consumed ⟨some source, queue⟩ (.bounded caller request) =
      (⟨source, queue, []⟩ : Filling Real Item).consumed port.path port.noSamples
        request.deadline request.maxSamples request.rounds := by
    rw [consumed, if_pos reached]
    rfl
  have here : Forfeits port ⟨some source, queue⟩ (.bounded caller request) ↔
      (⟨source, queue, []⟩ : Filling Real Item).Forfeits port.path port.noSamples
        request.deadline request.maxSamples request.rounds := by
    rw [Forfeits, and_iff_right reached]
    simp
  refine ⟨fun orderly => ?_, ?_, fun n returned => ?_, ?_⟩
  · rw [owed, consumes, ← handles]
    exact flow orderly
  · rw [consumes, arrived, if_pos reached]
    exact order
  · exact ⟨Filling.fill_ok _ _ returned, room⟩
  · rw [here, forfeits, owed, consumes, ← handles]
    exact Iff.rfl

theorem read_books (backend : NativeBackend Real) {call : NativeCall Real}
    (reached : call.caller.Reaches) :
    port.Books backend call (port.read call backend call.len) := by
  obtain ⟨native, queue⟩ := backend
  cases native with
  | none => exact port.absent_books reached
  | some source =>
      cases call with
      | plain caller len polls => exact port.plain_books reached
      | bounded caller request => exact port.bounded_books reached

section Call

variable {port} {backend : NativeBackend Real} {call : NativeCall Real}

theorem unreached_owed (unreached : ¬call.caller.Reaches) :
    port.owed backend call = port.held backend := by
  rw [owed, consumed, if_neg unreached]
  exact List.append_nil _

theorem spared_flow (spared : ¬port.Forfeits backend call)
    (returned : (port.call backend call).code ≠ none) :
    (port.call backend call).written ++ port.held (port.call backend call).source =
      port.owed backend call := by
  by_cases reached : call.caller.Reaches
  · have books := port.read_books backend reached
    obtain ⟨source, succeeded, failed, waiting, -⟩ :=
      (port.entry call).call_reached backend call.len (port.read call) reached books.counted
    simp only [NativePort.call] at returned ⊢
    rw [source]
    cases outcome : (port.read call backend call.len).outcome with
    | none => exact absurd (waiting.mpr outcome) returned
    | some outcome' =>
        cases outcome' with
        | ok n =>
            rw [succeeded ⟨n, outcome⟩]
            exact books.flow (outcome ▸ Reading.orderly_ok call.polls n)
        | error error =>
            rw [failed (ReadEntry.error_not_ok outcome), List.nil_append]
            by_contra other
            exact spared (books.forfeits.mpr ⟨⟨error, outcome⟩, other⟩)
  · obtain ⟨source, written⟩ :=
      (port.entry call).call_unreached backend call.len (port.read call) reached
    simp only [NativePort.call, source, written, unreached_owed reached, List.nil_append]

theorem forfeited_flow (forfeits : port.Forfeits backend call) :
    (port.call backend call).written = [] ∧
      (∃ code, (port.call backend call).code = some code ∧ code < 0) ∧
      port.held (port.call backend call).source ≠ port.owed backend call := by
  have reached := forfeits.1
  have books := port.read_books backend reached
  obtain ⟨source, -, failed, -, negative⟩ :=
    (port.entry call).call_reached backend call.len (port.read call) reached books.counted
  obtain ⟨⟨error, fails⟩, other⟩ := books.forfeits.mp forfeits
  refine ⟨failed (ReadEntry.error_not_ok fails), negative.mpr ⟨error, fails⟩, ?_⟩
  rw [← source] at other
  exact other

/-- Where every packet is taken back, samples forfeited are gone. -/
theorem forfeited_lost (givesBack : call.GivesBack) (forfeits : port.Forfeits backend call) :
    ∃ lost, lost ≠ [] ∧
      lost ++ port.held (port.call backend call).source = port.owed backend call := by
  have reached := forfeits.1
  have books := port.read_books backend reached
  obtain ⟨source, -⟩ :=
    (port.entry call).call_reached backend call.len (port.read call) reached books.counted
  have flow := books.flow (.inl givesBack)
  rw [← source] at flow
  refine ⟨_, ?_, flow⟩
  intro nothing
  rw [nothing, List.nil_append] at flow
  exact (forfeited_flow forfeits).2.2 flow

theorem call_order (port : NativePort Real Item) (backend : NativeBackend Real)
    (call : NativeCall Real) :
    backend.queue ++ port.arrived backend call =
      port.consumed backend call ++ (port.call backend call).source.queue := by
  by_cases reached : call.caller.Reaches
  · have books := port.read_books backend reached
    obtain ⟨source, -⟩ :=
      (port.entry call).call_reached backend call.len (port.read call) reached books.counted
    have order := books.order
    rw [← source] at order
    exact order
  · obtain ⟨source, -⟩ :=
      (port.entry call).call_unreached backend call.len (port.read call) reached
    simp only [NativePort.call, source, arrived, consumed, if_neg reached]
    exact List.append_nil _

end Call

/-- A call that fails leaves what it found deliverable so, in front of what arrived. -/
def Keeps (backend : NativeBackend Real) (call : NativeCall Real) : Prop :=
  ∀ code, (port.call backend call).code = some code → code < 0 →
    port.deliverable (port.call backend call).source =
      port.deliverable backend ++ (port.arrived backend call).flatMap port.yields

theorem deliverable_owed (backend : NativeBackend Real) (call : NativeCall Real) :
    port.deliverable backend ++ (port.arrived backend call).flatMap port.yields =
      port.owed backend call ++ (port.call backend call).source.queue.flatMap port.yields := by
  rw [deliverable, owed, List.append_assoc, ← List.flatMap_append, port.call_order backend call,
    List.flatMap_append, List.append_assoc]

theorem failed_written {backend : NativeBackend Real} {call : NativeCall Real} {code : Int}
    (returned : (port.call backend call).code = some code) (negative : code < 0) :
    (port.call backend call).written = [] := by
  by_cases reached : call.caller.Reaches
  · have books := port.read_books backend reached
    obtain ⟨-, -, failed, -, fails⟩ :=
      (port.entry call).call_reached backend call.len (port.read call) reached books.counted
    obtain ⟨error, outcome⟩ := fails.mp ⟨code, returned, negative⟩
    exact failed (ReadEntry.error_not_ok outcome)
  · exact ((port.entry call).call_unreached backend call.len (port.read call) reached).2

theorem keeps_iff (backend : NativeBackend Real) (call : NativeCall Real) :
    port.Keeps backend call ↔ ¬port.Forfeits backend call := by
  constructor
  · intro keeps forfeits
    obtain ⟨-, ⟨code, returned, negative⟩, other⟩ := forfeited_flow forfeits
    have kept := keeps code returned negative
    rw [port.deliverable_owed] at kept
    exact other (List.append_cancel_right kept)
  · intro spared code returned negative
    have flow := spared_flow spared (by
      rw [returned]
      exact Option.some_ne_none code)
    rw [port.failed_written returned negative, List.nil_append] at flow
    rw [port.deliverable_owed, ← flow]
    rfl

end NativePort

/-! ## Runs of native calls -/

/-- What a run of calls comes to. -/
structure NativeRun (Real Item : Type) where
  backend : NativeBackend Real
  received : List Item
  arrived : List (Packet Real)
  consumed : List (Packet Real)

namespace NativePort

variable (port : NativePort Real Item)

def run (backend : NativeBackend Real) : List (NativeCall Real) → NativeRun Real Item
  | [] => ⟨backend, [], [], []⟩
  | call :: calls =>
      let read := port.call backend call
      let later := run read.source calls
      ⟨later.backend, read.written ++ later.received, port.arrived backend call ++ later.arrived,
        port.consumed backend call ++ later.consumed⟩

/-- Every call of the run returns before the next. -/
def Returns (backend : NativeBackend Real) : List (NativeCall Real) → Prop
  | [] => True
  | call :: calls =>
      (port.call backend call).code ≠ none ∧ Returns (port.call backend call).source calls

/-- No call of the run forfeits anything. -/
def Spares (backend : NativeBackend Real) : List (NativeCall Real) → Prop
  | [] => True
  | call :: calls =>
      ¬port.Forfeits backend call ∧ Spares (port.call backend call).source calls

/-- The caller receives the samples held over at the start and those of the well-formed packets
consumed, in order, but for those still held over. -/
def Delivers (backend : NativeBackend Real) (calls : List (NativeCall Real)) : Prop :=
  (port.run backend calls).received ++ port.held (port.run backend calls).backend =
    port.held backend ++ (port.run backend calls).consumed.flatMap port.yields

/-- A run of calls that forfeit nothing delivers everything. -/
theorem delivers_of_spares {calls : List (NativeCall Real)} (backend : NativeBackend Real)
    (returns : port.Returns backend calls) (spares : port.Spares backend calls) :
    port.Delivers backend calls := by
  induction calls generalizing backend with
  | nil => exact (List.append_nil _).symm
  | cons call calls ih =>
      have rest := ih (port.call backend call).source returns.2 spares.2
      have flow := spared_flow spares.1 returns.1
      simp only [Delivers, run] at rest ⊢
      rw [List.append_assoc, rest, ← List.append_assoc, flow, owed, List.append_assoc,
        ← List.flatMap_append]

section GiveBack

variable {calls : List (NativeCall Real)} (giveBack : ∀ call ∈ calls, call.GivesBack)

include giveBack

theorem run_bounded (backend : NativeBackend Real) (returns : port.Returns backend calls) :
    (port.run backend calls).received.length +
        (port.held (port.run backend calls).backend).length ≤
      (port.held backend).length +
        ((port.run backend calls).consumed.flatMap port.yields).length := by
  induction calls generalizing backend with
  | nil =>
      simp only [run, List.length_nil, List.flatMap_nil]
      omega
  | cons call calls ih =>
      obtain ⟨givesBack, later⟩ := List.forall_mem_cons.mp giveBack
      have rest := ih later (port.call backend call).source returns.2
      simp only [run, List.length_append, List.flatMap_append]
      by_cases forfeits : port.Forfeits backend call
      · obtain ⟨lost, -, flow⟩ := forfeited_lost givesBack forfeits
        have flow := congrArg List.length flow
        simp only [owed, List.length_append] at flow
        rw [(forfeited_flow forfeits).1, List.length_nil]
        omega
      · have flow := congrArg List.length (spared_flow forfeits returns.1)
        simp only [owed, List.length_append] at flow
        omega

/-- Where every packet is taken back, a run delivers everything only if no call forfeits
anything. -/
theorem spares_of_delivers (backend : NativeBackend Real) (returns : port.Returns backend calls)
    (delivers : port.Delivers backend calls) : port.Spares backend calls := by
  induction calls generalizing backend with
  | nil => trivial
  | cons call calls ih =>
      obtain ⟨givesBack, later⟩ := List.forall_mem_cons.mp giveBack
      have bounded := port.run_bounded later (port.call backend call).source returns.2
      have spared : ¬port.Forfeits backend call := by
        intro forfeits
        obtain ⟨lost, some, flow⟩ := forfeited_lost givesBack forfeits
        have flow := congrArg List.length flow
        have delivered := congrArg List.length delivers
        have missing := List.length_pos_iff.mpr some
        simp only [run, (forfeited_flow forfeits).1, owed, List.nil_append, List.length_append,
          List.flatMap_append] at flow delivered
        omega
      refine ⟨spared, ih later _ returns.2 ?_⟩
      have flow := spared_flow spared returns.1
      simp only [Delivers, run] at delivers ⊢
      rw [List.flatMap_append, ← List.append_assoc, ← owed, ← flow, List.append_assoc,
        List.append_assoc, List.append_cancel_left_eq] at delivers
      exact delivers

end GiveBack

theorem refused_read {source : NativeSdkSource Real} (refuses : port.path.Refuses source)
    (queue : List (Packet Real)) (call : NativeCall Real) (len : Nat) :
    (port.read call ⟨some source, queue⟩ len).source = ⟨some source, queue⟩ ∧
      ∀ n, (port.read call ⟨some source, queue⟩ len).outcome ≠ some (.ok n) := by
  cases call with
  | plain caller asked polls =>
      obtain ⟨error, entered⟩ := ReadPath.enter_refused refuses queue len
      simp only [read, ReadPath.readWithin, entered]
      exact ⟨rfl, fun n returned => by cases returned⟩
  | bounded caller request =>
      simp only [read, ReadPath.readDeadline]
      cases request.rounds with
      | nil => exact ⟨rfl, fun n returned => by cases returned⟩
      | cons round rounds =>
          obtain ⟨error, entered⟩ := ReadPath.enter_refused refuses queue (len - 0)
          simp only [Filling.fill, Filling.round, Filling.read, ReadPath.readWithin,
            List.length_nil, entered]
          exact ⟨rfl, fun n returned => by cases returned⟩

theorem latched_call {backend : NativeBackend Real} {source : NativeSdkSource Real}
    (present : backend.native = some source) {other : ReadMode}
    (latched : source.readMode = some other) (differs : other ≠ port.path.mode)
    (call : NativeCall Real) :
    (port.call backend call).source = backend ∧ (port.call backend call).written = [] := by
  obtain ⟨native, queue⟩ := backend
  have present : native = some source := present
  rw [present]
  have refuses : port.path.Refuses source := by
    refine .inr (.inr ⟨?_, ?_⟩)
    · rw [latched]
      exact Option.some_ne_none other
    · rw [latched]
      exact fun same => differs (Option.some.inj same)
  obtain ⟨same, unread⟩ := port.refused_read refuses queue call call.len
  by_cases reached : call.caller.Reaches
  · obtain ⟨after, -, failed, waiting, -⟩ :=
      (port.entry call).call_reached ⟨some source, queue⟩ call.len (port.read call) reached
        fun n returned => absurd returned (unread n)
    exact ⟨after.trans same, failed unread⟩
  · exact (port.entry call).call_unreached _ call.len (port.read call) reached

end NativePort

/-! ## HTTP calls -/

/-- The samples that later calls can still deliver: those left over, and those of the packets in
the channel. -/
def httpDeliverable (source : SpectranSource Sample) : List Sample :=
  source.sampleBuffer ++ (source.httpReceiver.getD []).flatMap ChannelPacket.samples

theorem httpRead_flow (entry : ReadEntry) (caller : Caller) (source : SpectranSource Sample)
    (len inTime : Nat) :
    (entry.call caller source len (httpRead inTime)).written ++
        httpDeliverable (entry.call caller source len (httpRead inTime)).source =
      httpDeliverable source ∧
    ∀ code, (entry.call caller source len (httpRead inTime)).code = some code → code < 0 →
      (entry.call caller source len (httpRead inTime)).written = [] := by
  by_cases reached : caller.Reaches
  · have read := source.read_conserves [] len inTime
    have buffer : (httpRead inTime source len).buffer =
        (source.readSamplesDeadline [] len inTime).appended [] := rfl
    obtain ⟨after, succeeded, failed, -, negative⟩ :=
      entry.call_reached source len (httpRead inTime) reached (by
        intro n returned
        rw [buffer]
        exact ⟨read.counted n (Option.some.inj returned), read.atMost⟩)
    have flow : (httpRead inTime source len).buffer ++
        httpDeliverable (httpRead inTime source len).source = httpDeliverable source := by
      rw [httpDeliverable, httpDeliverable, read.inOrder, List.flatMap_append, ← List.append_assoc,
        ← List.append_assoc, ← read.kept]
      rfl
    rw [after]
    cases result : (source.readSamplesDeadline [] len inTime).result with
    | ok n =>
        rw [succeeded ⟨n, congrArg some result⟩]
        refine ⟨flow, fun code returned below => ?_⟩
        obtain ⟨error, none⟩ := negative.mp ⟨code, returned, below⟩
        cases (Option.some.inj none).symm.trans result
    | error error =>
        have nothing := (read.failed error result).1
        rw [failed (ReadEntry.error_not_ok (congrArg some result))]
        rw [buffer, nothing] at flow
        exact ⟨flow, fun _ _ _ => rfl⟩
  · obtain ⟨after, nothing⟩ := entry.call_unreached source len (httpRead inTime) reached
    rw [after, nothing]
    exact ⟨rfl, fun _ _ _ => rfl⟩

theorem httpReadDual_keeps (entry : ReadEntry) (caller : Caller) (source : SpectranSource Sample)
    (len : Nat) (method : String) :
    (entry.call caller source len (httpReadDual method)).source = source ∧
      (entry.call caller source len (httpReadDual method)).written = [] := by
  by_cases reached : caller.Reaches
  · obtain ⟨after, -, failed, -⟩ :=
      entry.call_reached source len (httpReadDual method) reached (by
        intro n returned
        cases returned)
    exact ⟨after, failed (ReadEntry.error_not_ok rfl)⟩
  · exact entry.call_unreached source len (httpReadDual method) reached

/-- On the native backend a failing C read keeps what was deliverable exactly when it forfeits
nothing; a run of C reads that forfeit nothing hands out everything it took, and, as long as the
vendor takes every packet back, no other run does.  Over HTTP no read forfeits anything. -/
theorem failing_reads_keep_iff (Real Sample : Type) :
    (∀ (backend : NativeBackend Real) (call : NativeCall Real),
      (monoPort.Keeps backend call ↔ ¬monoPort.Forfeits backend call) ∧
        (dualPort.Keeps backend call ↔ ¬dualPort.Forfeits backend call)) ∧
    (∀ (backend : NativeBackend Real) (calls : List (NativeCall Real)),
      (monoPort.Returns backend calls →
        (monoPort.Spares backend calls → monoPort.Delivers backend calls) ∧
          ((∀ call ∈ calls, call.GivesBack) →
            monoPort.Delivers backend calls → monoPort.Spares backend calls)) ∧
      (dualPort.Returns backend calls →
        (dualPort.Spares backend calls → dualPort.Delivers backend calls) ∧
          ((∀ call ∈ calls, call.GivesBack) →
            dualPort.Delivers backend calls → dualPort.Spares backend calls))) ∧
    (∀ (backend : NativeBackend Real) (source : NativeSdkSource Real) (call : NativeCall Real),
      backend.native = some source →
        (source.readMode = some .dual → (monoPort.call backend call).source = backend ∧
          (monoPort.call backend call).written = []) ∧
        (source.readMode = some .mono → (dualPort.call backend call).source = backend ∧
          (dualPort.call backend call).written = [])) ∧
    (∀ (source : SpectranSource Sample) (call : HttpCall),
      (httpCall source call).written ++ httpDeliverable (httpCall source call).source =
          httpDeliverable source ∧
        (∀ code, (httpCall source call).code = some code → code < 0 →
          httpDeliverable (httpCall source call).source = httpDeliverable source) ∧
        (httpCallDual source call).source = source ∧ (httpCallDual source call).written = []) := by
  refine ⟨?_, ?_, ?_, ?_⟩
  · intro backend call
    exact ⟨monoPort.keeps_iff backend call, dualPort.keeps_iff backend call⟩
  · intro backend calls
    constructor
    · intro returns
      exact ⟨monoPort.delivers_of_spares backend returns, fun giveBack =>
        monoPort.spares_of_delivers giveBack backend returns⟩
    · intro returns
      exact ⟨dualPort.delivers_of_spares backend returns, fun giveBack =>
        dualPort.spares_of_delivers giveBack backend returns⟩
  · intro backend source call present
    exact ⟨fun latched => monoPort.latched_call present latched (fun same => nomatch same) call,
      fun latched => dualPort.latched_call present latched (fun same => nomatch same) call⟩
  · intro source call
    have flows : (httpCall source call).written ++ httpDeliverable (httpCall source call).source =
          httpDeliverable source ∧
        ∀ code, (httpCall source call).code = some code → code < 0 →
          (httpCall source call).written = [] := by
      cases call with
      | plain caller len inTime | bounded caller len inTime =>
          exact httpRead_flow _ caller source len inTime
    have keeps : (httpCallDual source call).source = source ∧
        (httpCallDual source call).written = [] := by
      cases call with
      | plain caller len inTime | bounded caller len inTime =>
          exact httpReadDual_keeps _ caller source len _
    obtain ⟨flow, failed⟩ := flows
    refine ⟨flow, fun code returned negative => ?_, keeps⟩
    rw [failed code returned negative] at flow
    exact flow

/-- A caller on a plain thread. -/
def plainThread : Caller := ⟨true, none⟩

/-- Three samples in a packet, and a packet whose count is too large to be read. -/
def goodThenOversized : NativeBackend Nat :=
  ⟨some streaming, [packetOf 3 2 10, packetOf 8388609 2 10]⟩

theorem goodThenOversized_forfeited :
    (monoPort.call goodThenOversized (.plain plainThread 10 [quiet, quiet])).code = some (-1) ∧
      (monoPort.deliverable goodThenOversized).length = 3 ∧
      monoPort.deliverable
        (monoPort.call goodThenOversized (.plain plainThread 10 [quiet, quiet])).source = [] ∧
      ¬monoPort.Keeps goodThenOversized (.plain plainThread 10 [quiet, quiet]) := by
  have code : (monoPort.call goodThenOversized (.plain plainThread 10 [quiet, quiet])).code =
      some (-1) := by
    decide +kernel
  have before : (monoPort.deliverable goodThenOversized).length = 3 := by decide +kernel
  have after : monoPort.deliverable
      (monoPort.call goodThenOversized (.plain plainThread 10 [quiet, quiet])).source = [] := by
    decide +kernel
  refine ⟨code, before, after, fun keeps => ?_⟩
  have kept := congrArg List.length (keeps (-1) code (by decide))
  rw [after, List.length_append, before, List.length_nil] at kept
  omega

/-- The same packets the other way round. -/
def oversizedThenGood : NativeBackend Nat :=
  ⟨some streaming, [packetOf 8388609 2 10, packetOf 3 2 10]⟩

/-- The oversized packet fails its own call only. -/
theorem failing_reads_keep_iff_oversizedThenGood :
    (monoPort.call oversizedThenGood (.plain plainThread 10 [quiet, quiet])).code = some (-1) ∧
      monoPort.Keeps oversizedThenGood (.plain plainThread 10 [quiet, quiet]) := by
  refine ⟨by decide +kernel, ?_⟩
  refine ((failing_reads_keep_iff Nat Nat).1 oversizedThenGood _).1.mpr ?_
  rintro ⟨-, source, ⟨⟩, forfeits⟩
  have accepted : ¬monoPath.Refuses streaming := by
    rintro (inactive | ⟨mode, ⟨⟩, carries⟩ | ⟨latched, -⟩)
    · cases inactive
    · cases carries
    · exact latched rfl
  have comes : ([] : List (PacketSample Nat)) ≠ [] :=
    (forfeits.2 accepted).2.2.2 (Option.some_ne_none 0)
  exact comes rfl

end SdrAaronia.CApi
