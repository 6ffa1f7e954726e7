import SdrAaronia.NativeSdk.Packet

/-! # Native reads

`read_samples_within` and `read_samples_dual_within` are one loop over the SDK's
packet queue, with their own carry-over, their own idea of a good packet and their
own way out of a bad one.  A call polls until it is satisfied, the queue runs dry
behind data, the poll budget is spent, or the next packet has another geometry.
-/

namespace SdrAaronia.NativeSdk

variable {Real Item : Type}

inductive DeviceOpenMode where
  | raw
  | ecoIqReceiver
  | iqReceiver
  | ecoRaw
  | ecoRtsa
  | sweepsa
  | ecoSweepsa
  | other (mode : String)
  deriving DecidableEq, Repr

namespace DeviceOpenMode

/-- Parse the mode string passed to `AARTSAAPI_OpenDevice`. -/
def fromOpenString (s : String) : DeviceOpenMode :=
  if s = "spectranv6/raw" ∨ s = "spectranrsa/raw" then raw
  else if s = "spectranv6eco/raw" then ecoRaw
  else if s = "spectranv6/iqreceiver" then iqReceiver
  else if s = "spectranv6eco/rtsa" then ecoRtsa
  else if s = "spectranv6eco/iqreceiver" then ecoIqReceiver
  else if s = "spectranv6/sweepsa" then sweepsa
  else if s = "spectranv6eco/sweepsa" then ecoSweepsa
  else other s

/-- Whether this mode delivers IQ samples at all. -/
def carriesIq : DeviceOpenMode → Bool
  | raw | ecoRaw | ecoIqReceiver | iqReceiver => true
  | ecoRtsa | sweepsa | ecoSweepsa => false
  | other _ => false

/-- The mode's name in an error text. -/
def debug : DeviceOpenMode → String
  | raw => "Raw"
  | ecoIqReceiver => "EcoIqReceiver"
  | iqReceiver => "IqReceiver"
  | ecoRaw => "EcoRaw"
  | ecoRtsa => "EcoRtsa"
  | sweepsa => "Sweepsa"
  | ecoSweepsa => "EcoSweepsa"
  | other mode => s!"Other({mode.quote})"

end DeviceOpenMode

/-- Which of the two read paths a streaming session has committed to. -/
inductive ReadMode where
  | mono
  | dual
  deriving DecidableEq, Repr

/-- The source; a handle and a device stand for the vendor's object pointers. -/
structure NativeSdkSource (Real : Type) where
  handle : Option Nat
  device : Option Nat
  openMode : Option DeviceOpenMode
  streamActive : Bool
  deviceConnected : Bool
  sampleBuffer : List (PacketSample Real)
  dualSampleBuffer : List (PacketSample Real × PacketSample Real)
  readMode : Option ReadMode
  observedSampleRateHz : Option F64
  observedBandwidthHz : Option F64
  observedCenterFrequencyHz : Option F64
  dropEvents : Nat
  overrunPending : Bool
  lastPacketEndTimeS : F64

namespace NativeSdkSource

/-- The device's own loss report. -/
def heedFlags (s : NativeSdkSource Real) (p : Packet Real) : NativeSdkSource Real :=
  { s with
    dropEvents := if p.flagsDrop then s.dropEvents + 1 else s.dropEvents
    overrunPending := s.overrunPending || p.flagsOverrun }

/-- A packet consumed and not delivered. -/
def countLoss (s : NativeSdkSource Real) : NativeSdkSource Real :=
  { s with dropEvents := s.dropEvents + 1, overrunPending := true }

def observe (s : NativeSdkSource Real) (p : Packet Real) : NativeSdkSource Real :=
  { s with
    observedSampleRateHz := p.geometry.map IqGeometry.sampleRateHz
    observedBandwidthHz := p.geometry.bind IqGeometry.bandwidthHz
    observedCenterFrequencyHz := p.geometry.bind IqGeometry.centerFrequencyHz
    lastPacketEndTimeS := if 0 < p.endTime then p.endTime else s.lastPacketEndTimeS }

/-- The source but for what its reads hold over. -/
def bare (s : NativeSdkSource Real) : NativeSdkSource Real :=
  { s with sampleBuffer := [], dualSampleBuffer := [] }

/-- The source but for what packets told it. -/
def wiring (s : NativeSdkSource Real) : NativeSdkSource Real :=
  { s with
    observedSampleRateHz := none
    observedBandwidthHz := none
    observedCenterFrequencyHz := none
    dropEvents := 0
    overrunPending := false
    lastPacketEndTimeS := 0 }

/-- Sources that differ in what packets told them hold over the same and read the same way. -/
theorem holds_of_wiring {s s' : NativeSdkSource Real} (same : s.wiring = s'.wiring) :
    s.sampleBuffer = s'.sampleBuffer ∧ s.dualSampleBuffer = s'.dualSampleBuffer ∧
      s.readMode = s'.readMode := by
  simp only [wiring, mk.injEq] at same
  obtain ⟨-, -, -, -, -, mono, dual, mode, -⟩ := same
  exact ⟨mono, dual, mode⟩

/-- What of the source its lifecycle turns on. -/
def ownership (s : NativeSdkSource Real) : Option Nat × Option Nat × Bool × Bool :=
  (s.handle, s.device, s.streamActive, s.deviceConnected)

/-- Nothing held over, as a streaming session starts. -/
def Drained (s : NativeSdkSource Real) : Prop := s.sampleBuffer = [] ∧ s.dualSampleBuffer = []

/-- Refuse a device open in a mode without the wanted payload. -/
def requireMode (mode : Option DeviceOpenMode) (allows : DeviceOpenMode → Bool) (wanted : String) :
    Except Error Unit :=
  match mode with
  | some m =>
      if allows m then .ok ()
      else .error (.sdk s!"this device is open in {m.debug}, which carries no {wanted}. Reading it anyway would return the other payload reinterpreted, which looks like data and is not. Re-open in a mode that carries {wanted}.")
  | none => .ok ()

end NativeSdkSource

/-- How one read divides its work between the carry-over and the device. -/
structure ReadPlan where
  fromCarry : Nat
  remaining : Nat
  deriving DecidableEq, Repr

def planRead (carryLen maxSamples : Nat) : ReadPlan :=
  let fromCarry := min carryLen maxSamples
  ⟨fromCarry, maxSamples - fromCarry⟩

theorem planRead_enough {carry : List Item} {maxSamples : Nat} :
    ((planRead carry.length maxSamples).remaining = 0 ∨
      0 < (planRead carry.length maxSamples).fromCarry) ↔ maxSamples = 0 ∨ carry ≠ [] := by
  rw [← List.length_pos_iff]
  simp only [planRead]
  omega

theorem planRead_take (carry : List Item) (maxSamples : Nat) :
    carry.take (planRead carry.length maxSamples).fromCarry = carry.take maxSamples := by
  simp only [planRead, Nat.min_comm, ← List.take_eq_take_min]

theorem planRead_drop (carry : List Item) (maxSamples : Nat) :
    carry.drop (planRead carry.length maxSamples).fromCarry = carry.drop maxSamples := by
  simp only [planRead, List.drop_eq_drop_iff]
  omega

/-- Divide a packet into what the caller gets and what is carried over. -/
def splitPacket (packetSamples remaining : Nat) : Nat × Nat :=
  let toCaller := min packetSamples remaining
  (toCaller, packetSamples - toCaller)

/-- One read path: its latch, its carry-over, and what it makes of packets. -/
structure ReadPath (Real Item : Type) where
  mode : ReadMode
  /-- The refusal while the other path is latched. -/
  mixed : String
  handling : Packet Real → Handling Item
  /-- Whether the flags of packets that are not taken count too. -/
  heedsAll : Bool
  carry : NativeSdkSource Real → List Item
  keep : NativeSdkSource Real → List Item → NativeSdkSource Real
  carry_keep : ∀ s items, carry (keep s items) = items
  keep_bare : ∀ s items, (keep s items).bare = s.bare

/-- What one `get_packet` finds: the packets queued by then, and how long the read has waited. -/
structure Poll (Real : Type) where
  arrived : List (Packet Real)
  getError : Option Nat
  consumeError : Option Nat
  elapsed : Nat

/-- A read between two polls; the packets seen and consumed are kept for the record. -/
structure Reading (Real Item : Type) where
  source : NativeSdkSource Real
  carry : List Item
  queue : List (Packet Real)
  remaining : Nat
  gotPacket : Bool
  readGeometry : Option IqGeometry
  /-- What the call has appended to the caller's buffer. -/
  out : List Item
  arrived : List (Packet Real)
  consumed : List (Packet Real)
  /-- The carry-over left at each poll. -/
  held : List Nat

namespace Reading

/-- Copy a packet out: to the caller what it still wants, the rest to the carry-over. -/
def copyOut (r : Reading Real Item) (p : Packet Real) (items : List Item) : Reading Real Item :=
  let (toCaller, _) := splitPacket items.length r.remaining
  { r with
    source := (r.source.heedFlags p).observe p
    carry := r.carry ++ items.drop toCaller
    out := r.out ++ items.take toCaller
    remaining := r.remaining - toCaller
    readGeometry := p.geometry }

/-- What a read does with a packet before it gives it back. -/
def account (path : ReadPath Real Item) (r : Reading Real Item) (p : Packet Real) :
    Reading Real Item :=
  let source := if path.heedsAll then r.source.heedFlags p else r.source
  match path.handling p with
  | .skip => { r with source, gotPacket := true }
  | .lose | .stop | .fail _ => { r with source := source.countLoss, gotPacket := true }
  | .take items => { r.copyOut p items with gotPacket := true }

/-- The vendor queue after `consume_packets`. -/
def consume (r : Reading Real Item) (p : Packet Real) (rest : List (Packet Real)) :
    Reading Real Item :=
  { r with queue := rest, consumed := r.consumed ++ [p] }

/-- What has arrived by a poll, and the carry-over it is made with. -/
def polled (r : Reading Real Item) (poll : Poll Real) : Reading Real Item :=
  { r with
    queue := r.queue ++ poll.arrived
    arrived := r.arrived ++ poll.arrived
    held := r.held ++ [r.carry.length] }

/-- One round of the loop, with the read's outcome if it ends the read. -/
def step (path : ReadPath Real Item) (pollBudget : Nat) (r : Reading Real Item) (poll : Poll Real) :
    Reading Real Item × Option (Except Error Nat) :=
  let r := r.polled poll
  match poll.getError, r.queue with
  | some code, _ => (r, some (.error (.sdkApi "AARTSAAPI_GetPacket" code)))
  | none, [] =>
      if r.gotPacket ∨ pollBudget ≤ poll.elapsed then (r, some (.ok r.out.length)) else (r, none)
  | none, p :: rest =>
      -- The first packet of a new geometry stays in the SDK queue.
      if r.gotPacket ∧ r.readGeometry ≠ p.geometry then (r, some (.ok r.out.length))
      else
        let r := r.account path p
        match poll.consumeError with
        | some code => (r, some (.error (.sdkApi "AARTSAAPI_ConsumePackets" code)))
        | none =>
            let r := r.consume p rest
            (r, (path.handling p).ends r.out.length)

/-- The loop; a read whose polls run out is still waiting. -/
def run (path : ReadPath Real Item) (pollBudget : Nat) (r : Reading Real Item) :
    List (Poll Real) → Reading Real Item × Option (Except Error Nat)
  | [] => (r, if r.remaining = 0 then some (.ok r.out.length) else none)
  | poll :: polls =>
      if r.remaining = 0 then (r, some (.ok r.out.length))
      else
        match r.step path pollBudget poll with
        | (r', some outcome) => (r', some outcome)
        | (r', none) => r'.run path pollBudget polls

end Reading

/-! ## What one round can do -/

namespace Reading

/-- The rounds of the loop, one constructor for each way a round goes. -/
inductive Stepped (path : ReadPath Real Item) (pollBudget : Nat) (r : Reading Real Item)
    (poll : Poll Real) : Reading Real Item × Option (Except Error Nat) → Prop where
  | getFailed (code : Nat) (failed : poll.getError = some code) :
      Stepped path pollBudget r poll
        (r.polled poll, some (.error (.sdkApi "AARTSAAPI_GetPacket" code)))
  | dry (found : poll.getError = none) (empty : (r.polled poll).queue = [])
      (done : r.gotPacket ∨ pollBudget ≤ poll.elapsed) :
      Stepped path pollBudget r poll (r.polled poll, some (.ok r.out.length))
  | waits (found : poll.getError = none) (empty : (r.polled poll).queue = [])
      (first : ¬(r.gotPacket ∨ pollBudget ≤ poll.elapsed)) :
      Stepped path pollBudget r poll (r.polled poll, none)
  | boundary {p : Packet Real} {rest : List (Packet Real)} (found : poll.getError = none)
      (next : (r.polled poll).queue = p :: rest) (got : r.gotPacket)
      (moved : r.readGeometry ≠ p.geometry) :
      Stepped path pollBudget r poll (r.polled poll, some (.ok r.out.length))
  | kept {p : Packet Real} {rest : List (Packet Real)} (code : Nat) (found : poll.getError = none)
      (next : (r.polled poll).queue = p :: rest)
      (same : r.gotPacket → r.readGeometry = p.geometry) (failed : poll.consumeError = some code) :
      Stepped path pollBudget r poll
        ((r.polled poll).account path p, some (.error (.sdkApi "AARTSAAPI_ConsumePackets" code)))
  | consumed {p : Packet Real} {rest : List (Packet Real)} (found : poll.getError = none)
      (next : (r.polled poll).queue = p :: rest)
      (same : r.gotPacket → r.readGeometry = p.geometry) (given : poll.consumeError = none) :
      Stepped path pollBudget r poll
        (((r.polled poll).account path p).consume p rest,
          (path.handling p).ends ((r.polled poll).account path p).out.length)

theorem step_stepped (path : ReadPath Real Item) (pollBudget : Nat) (r : Reading Real Item)
    (poll : Poll Real) : Stepped path pollBudget r poll (r.step path pollBudget poll) := by
  cases get : poll.getError with
  | some code =>
      simp only [step, get]
      exact .getFailed code get
  | none =>
      cases queue : (r.polled poll).queue with
      | nil =>
          simp only [step, get, queue]
          by_cases done : r.gotPacket ∨ pollBudget ≤ poll.elapsed
          · rw [if_pos (show (r.polled poll).gotPacket = true ∨
              pollBudget ≤ poll.elapsed from done)]
            exact .dry get queue done
          · rw [if_neg (show ¬((r.polled poll).gotPacket = true ∨
              pollBudget ≤ poll.elapsed) from done)]
            exact .waits get queue done
      | cons p rest =>
          simp only [step, get, queue]
          by_cases moved : (r.polled poll).gotPacket ∧ (r.polled poll).readGeometry ≠ p.geometry
          · rw [if_pos moved]
            exact .boundary get queue moved.1 moved.2
          · rw [if_neg moved]
            have same : r.gotPacket → r.readGeometry = p.geometry :=
              fun got => by_contra fun other => moved ⟨got, other⟩
            cases consume : poll.consumeError with
            | some code => exact .kept code get queue same consume
            | none => exact .consumed get queue same consume

/-! ## What a packet changes -/

section Account

variable (path : ReadPath Real Item) (r : Reading Real Item) (p : Packet Real)

theorem account_out :
    (r.account path p).out = r.out ++ (path.handling p).items.take r.remaining := by
  cases handled : path.handling p with
  | take items =>
      simp only [account, handled, copyOut, splitPacket, Handling.items]
      rw [Nat.min_comm, ← List.take_eq_take_min]
  | skip | lose | stop | fail =>
      simp only [account, handled, Handling.items, List.take_nil, List.append_nil]

theorem account_carry :
    (r.account path p).carry = r.carry ++ (path.handling p).items.drop r.remaining := by
  cases handled : path.handling p with
  | take items =>
      simp only [account, handled, copyOut, splitPacket, Handling.items, List.append_cancel_left_eq,
        List.drop_eq_drop_iff]
      omega
  | skip | lose | stop | fail =>
      simp only [account, handled, Handling.items, List.drop_nil, List.append_nil]

theorem account_remaining :
    (r.account path p).remaining = r.remaining - (path.handling p).items.length := by
  cases handled : path.handling p with
  | take items =>
      simp only [account, handled, copyOut, splitPacket, Handling.items]
      omega
  | skip | lose | stop | fail =>
      simp only [account, handled, Handling.items, List.length_nil, Nat.sub_zero]

/-- A packet that leaves the read wanting more is copied out whole. -/
theorem account_drained (drained : r.remaining ≠ 0 → r.carry = []) (wanting : r.remaining ≠ 0)
    (more : (r.account path p).remaining ≠ 0) : (r.account path p).carry = [] := by
  have short : (path.handling p).items.length ≤ r.remaining := by
    rw [account_remaining] at more
    omega
  rw [account_carry, drained wanting, List.nil_append]
  exact List.drop_eq_nil_of_le short

theorem account_gotPacket : (r.account path p).gotPacket = true := by
  cases handled : path.handling p with
  | take | skip | lose | stop | fail => simp only [account, handled]

theorem account_consumed : (r.account path p).consumed = r.consumed := by
  cases handled : path.handling p with
  | take | skip | lose | stop | fail => simp only [account, handled, copyOut]

theorem account_arrived : (r.account path p).arrived = r.arrived := by
  cases handled : path.handling p with
  | take | skip | lose | stop | fail => simp only [account, handled, copyOut]

theorem account_held : (r.account path p).held = r.held := by
  cases handled : path.handling p with
  | take | skip | lose | stop | fail => simp only [account, handled, copyOut]

theorem account_wiring : (r.account path p).source.wiring = r.source.wiring := by
  cases handled : path.handling p with
  | take items => simp only [account, handled, copyOut]; rfl
  | skip | lose | stop | fail =>
      simp only [account, handled]
      cases path.heedsAll with
      | true | false => rfl

end Account

/-- What every round keeps, the whole read keeps. -/
theorem run_keeps {path : ReadPath Real Item} {pollBudget : Nat} {Inv : Reading Real Item → Prop}
    {polls : List (Poll Real)} {r : Reading Real Item}
    (keeps : ∀ r, ∀ poll ∈ polls, r.remaining ≠ 0 → Inv r → Inv (r.step path pollBudget poll).1)
    (holds : Inv r) : Inv (r.run path pollBudget polls).1 := by
  induction polls generalizing r with
  | nil => exact holds
  | cons poll polls ih =>
      simp only [run]
      by_cases filled : r.remaining = 0
      · rw [if_pos filled]
        exact holds
      · rw [if_neg filled]
        have kept := keeps r poll List.mem_cons_self filled holds
        cases stepped : r.step path pollBudget poll with
        | mk r' outcome =>
            rw [stepped] at kept
            cases outcome with
            | some outcome => exact kept
            | none =>
                exact ih (fun r poll member => keeps r poll (List.mem_cons_of_mem _ member)) kept

/-- What every round keeps that cannot fail to. -/
theorem step_keeps (Inv : Reading Real Item → Prop) {path : ReadPath Real Item} {pollBudget : Nat}
    {r : Reading Real Item} {poll : Poll Real} (polled : Inv (r.polled poll))
    (accounted : ∀ p, Inv ((r.polled poll).account path p))
    (consumed : ∀ p rest, Inv (((r.polled poll).account path p).consume p rest)) :
    Inv (r.step path pollBudget poll).1 := by
  have stepped := step_stepped path pollBudget r poll
  generalize r.step path pollBudget poll = stepTo at stepped ⊢
  cases stepped with
  | getFailed | dry | waits | boundary => exact polled
  | kept => exact accounted _
  | consumed => exact consumed _ _

/-- A read of so many samples that keeps what the caller does not want, and nothing sooner. -/
structure Portioned (maxSamples : Nat) (r : Reading Real Item) : Prop where
  total : r.out.length + r.remaining = maxSamples
  drained : r.remaining ≠ 0 → r.carry = []

theorem Portioned.account {maxSamples : Nat} {r : Reading Real Item}
    (portioned : Portioned maxSamples r) (wanting : r.remaining ≠ 0) (path : ReadPath Real Item)
    (p : Packet Real) : Portioned maxSamples (r.account path p) := by
  have total := portioned.total
  refine ⟨?_, account_drained path r p portioned.drained wanting⟩
  rw [account_out, account_remaining, List.length_append, List.length_take]
  omega

theorem Portioned.run {maxSamples : Nat} {r : Reading Real Item}
    (portioned : Portioned maxSamples r)
    (path : ReadPath Real Item) (pollBudget : Nat) (polls : List (Poll Real)) :
    Portioned maxSamples (r.run path pollBudget polls).1 := by
  have keeps : ∀ r : Reading Real Item, ∀ poll ∈ polls, r.remaining ≠ 0 → Portioned maxSamples r →
      Portioned maxSamples (r.step path pollBudget poll).1 := by
    intro r poll _ wanting portioned
    have polled : Portioned maxSamples (r.polled poll) := ⟨portioned.total, portioned.drained⟩
    refine step_keeps (Portioned maxSamples) polled ?_ ?_
    · intro p
      exact polled.account wanting path p
    · intro p rest
      have accounted := polled.account wanting path p
      exact ⟨accounted.total, accounted.drained⟩
  exact run_keeps keeps portioned

/-- A read leaves all of the source alone but its carry-over and what packets tell. -/
theorem run_wiring (path : ReadPath Real Item) (pollBudget : Nat) (r : Reading Real Item)
    (polls : List (Poll Real)) :
    (r.run path pollBudget polls).1.source.wiring = r.source.wiring := by
  have keeps : ∀ r' : Reading Real Item, ∀ poll ∈ polls, r'.remaining ≠ 0 →
      r'.source.wiring = r.source.wiring →
      (r'.step path pollBudget poll).1.source.wiring = r.source.wiring := by
    intro r' poll _ _ same
    refine step_keeps (·.source.wiring = r.source.wiring) same ?_ ?_
    · intro p
      exact (account_wiring path _ p).trans same
    · intro p rest
      exact (account_wiring path _ p).trans same
  exact run_keeps keeps rfl

end Reading

/-- A read call: the source and queue it leaves, and its outcome once it has one. -/
structure ReadCall (Real Item : Type) where
  source : NativeSdkSource Real
  queue : List (Packet Real)
  out : List Item
  arrived : List (Packet Real)
  consumed : List (Packet Real)
  held : List Nat
  outcome : Option (Except Error Nat)

/-- A call that ends without polling. -/
def ReadCall.unpolled (source : NativeSdkSource Real) (queue : List (Packet Real)) (out : List Item)
    (outcome : Except Error Nat) : ReadCall Real Item :=
  ⟨source, queue, out, [], [], [], some outcome⟩

namespace ReadPath

/-- Commit the session to this path. -/
def latch (path : ReadPath Real Item) (s : NativeSdkSource Real) : NativeSdkSource Real :=
  { s with readMode := some path.mode }

/-- The part of a read before its first poll: how it ends there, or the loop it enters. -/
def enter (path : ReadPath Real Item) (s : NativeSdkSource Real) (queue : List (Packet Real))
    (maxSamples : Nat) : ReadCall Real Item ⊕ Reading Real Item :=
  if s.streamActive = false then
    .inl (.unpolled s queue [] (.error (.sdk "Streaming not active")))
  else
    match NativeSdkSource.requireMode s.openMode DeviceOpenMode.carriesIq "IQ" with
    | .error error => .inl (.unpolled s queue [] (.error error))
    | .ok () =>
        if s.readMode ≠ none ∧ s.readMode ≠ some path.mode then
          .inl (.unpolled s queue [] (.error (.sdk path.mixed)))
        else
          let latched := path.latch s
          let plan := planRead (path.carry s).length maxSamples
          let out := (path.carry s).take plan.fromCarry
          let carry := (path.carry s).drop plan.fromCarry
          if plan.remaining = 0 ∨ 0 < plan.fromCarry then
            .inl (.unpolled (path.keep latched carry) queue out (.ok plan.fromCarry))
          else if s.device = none then
            .inl (.unpolled (path.keep latched carry) queue out (.error (.sdk "No device opened")))
          else
            .inr ⟨latched, carry, queue, plan.remaining, decide (0 < plan.fromCarry), none, out,
              [], [], []⟩

def readWithin (path : ReadPath Real Item) (s : NativeSdkSource Real) (queue : List (Packet Real))
    (maxSamples pollBudget : Nat) (polls : List (Poll Real)) : ReadCall Real Item :=
  match path.enter s queue maxSamples with
  | .inl call => call
  | .inr reading =>
      let (r, outcome) := reading.run path pollBudget polls
      ⟨path.keep r.source r.carry, r.queue, r.out, r.arrived, r.consumed, r.held, outcome⟩

end ReadPath

namespace ReadPath

/-- A read that polls, with nothing in hand. -/
def begun (path : ReadPath Real Item) (s : NativeSdkSource Real) (queue : List (Packet Real))
    (maxSamples : Nat) : Reading Real Item :=
  ⟨path.latch s, [], queue, maxSamples, false, none, [], [], [], []⟩

/-- The ways a read begins: refused, served from what is held over, or polling empty-handed. -/
inductive Entered (path : ReadPath Real Item) (s : NativeSdkSource Real)
    (queue : List (Packet Real))
    (maxSamples : Nat) : ReadCall Real Item ⊕ Reading Real Item → Prop where
  | refused (error : Error) :
      Entered path s queue maxSamples (.inl (.unpolled s queue [] (.error error)))
  | served (active : s.streamActive = true) (mode : s.readMode = none ∨ s.readMode = some path.mode)
      (enough : maxSamples = 0 ∨ path.carry s ≠ []) :
      Entered path s queue maxSamples
        (.inl (.unpolled (path.keep (path.latch s) ((path.carry s).drop maxSamples)) queue
          ((path.carry s).take maxSamples) (.ok (min (path.carry s).length maxSamples))))
  | noDevice (mode : s.readMode = none ∨ s.readMode = some path.mode) (wanting : maxSamples ≠ 0)
      (empty : path.carry s = []) (missing : s.device = none) :
      Entered path s queue maxSamples
        (.inl (.unpolled (path.keep (path.latch s) []) queue [] (.error (.sdk "No device opened"))))
  | polls (active : s.streamActive = true) (mode : s.readMode = none ∨ s.readMode = some path.mode)
      (wanting : maxSamples ≠ 0) (empty : path.carry s = []) (present : s.device ≠ none) :
      Entered path s queue maxSamples (.inr (path.begun s queue maxSamples))

theorem enter_entered (path : ReadPath Real Item) (s : NativeSdkSource Real)
    (queue : List (Packet Real)) (maxSamples : Nat) :
    path.Entered s queue maxSamples (path.enter s queue maxSamples) := by
  simp only [enter]
  by_cases active : s.streamActive = false
  · rw [if_pos active]
    exact .refused _
  rw [if_neg active]
  cases NativeSdkSource.requireMode s.openMode DeviceOpenMode.carriesIq "IQ" with
  | error error => exact .refused error
  | ok allowed =>
      by_cases other : s.readMode ≠ none ∧ s.readMode ≠ some path.mode
      · simp only [if_pos other]
        exact .refused _
      · simp only [if_neg other]
        have mode : s.readMode = none ∨ s.readMode = some path.mode :=
          or_iff_not_imp_left.mpr fun latched => by_contra fun otherMode =>
            other ⟨latched, otherMode⟩
        have active := Bool.not_eq_false _ ▸ active
        by_cases enough : (planRead (path.carry s).length maxSamples).remaining = 0 ∨
            0 < (planRead (path.carry s).length maxSamples).fromCarry
        · rw [if_pos enough, planRead_take, planRead_drop]
          exact .served active mode (planRead_enough.mp enough)
        · rw [if_neg enough]
          have wanting := not_or.mp (mt planRead_enough.mpr enough)
          have empty := not_not.mp wanting.2
          by_cases missing : s.device = none
          · rw [if_pos missing, empty, List.drop_nil, List.take_nil]
            exact .noDevice mode wanting.1 empty missing
          · rw [if_neg missing, empty, List.drop_nil, List.take_nil]
            exact .polls active mode wanting.1 empty missing

/-- A read leaves the source as it was, or commits it to its path and changes only what it holds
over and what packets tell. -/
theorem readWithin_latches (path : ReadPath Real Item) (s : NativeSdkSource Real)
    (queue : List (Packet Real)) (maxSamples pollBudget : Nat) (polls : List (Poll Real)) :
    (path.readWithin s queue maxSamples pollBudget polls).source = s ∨
      (s.readMode = none ∨ s.readMode = some path.mode) ∧
        ∃ source carry, (path.readWithin s queue maxSamples pollBudget polls).source =
          path.keep source carry ∧ source.wiring = (path.latch s).wiring := by
  have entered := path.enter_entered s queue maxSamples
  simp only [readWithin]
  generalize path.enter s queue maxSamples = entry at entered ⊢
  cases entered with
  | refused error => exact .inl rfl
  | served active mode enough => exact .inr ⟨mode, path.latch s, _, rfl, rfl⟩
  | noDevice mode wanting empty missing => exact .inr ⟨mode, path.latch s, [], rfl, rfl⟩
  | polls active mode wanting empty present =>
      exact .inr ⟨mode, _, _, rfl, Reading.run_wiring path pollBudget _ polls⟩

/-- Reads leave the device, the handle and the two flags alone. -/
theorem readWithin_ownership (path : ReadPath Real Item) (s : NativeSdkSource Real)
    (queue : List (Packet Real)) (maxSamples pollBudget : Nat) (polls : List (Poll Real)) :
    (path.readWithin s queue maxSamples pollBudget polls).source.ownership = s.ownership := by
  cases path.readWithin_latches s queue maxSamples pollBudget polls with
  | inl same => rw [same]
  | inr latched =>
      obtain ⟨-, source, carry, after, wiring⟩ := latched
      have kept := congrArg NativeSdkSource.ownership (path.keep_bare source carry)
      have wired := congrArg NativeSdkSource.ownership wiring
      rw [after]
      exact kept.trans wired

end ReadPath

def monoPath : ReadPath Real (PacketSample Real) where
  mode := .mono
  mixed := "this stream is being read with read_samples_dual; mixing the two read paths would silently punch time-gaps into both outputs — stop and restart streaming to switch"
  handling := Packet.monoHandling
  heedsAll := true
  carry := NativeSdkSource.sampleBuffer
  keep s items := { s with sampleBuffer := items }
  carry_keep _ _ := rfl
  keep_bare _ _ := rfl

def dualPath : ReadPath Real (PacketSample Real × PacketSample Real) where
  mode := .dual
  mixed := "this stream is being read with read_samples; mixing the two read paths would silently punch time-gaps into both outputs — stop and restart streaming to switch"
  handling := Packet.dualHandling
  heedsAll := false
  carry := NativeSdkSource.dualSampleBuffer
  keep s items := { s with dualSampleBuffer := items }
  carry_keep _ _ := rfl
  keep_bare _ _ := rfl

namespace NativeSdkSource

/-- Append up to `maxSamples` samples, waiting for a packet no longer than the budget. -/
def readSamplesWithin (s : NativeSdkSource Real) (queue : List (Packet Real))
    (maxSamples pollBudget : Nat) (polls : List (Poll Real)) :
    ReadCall Real (PacketSample Real) :=
  monoPath.readWithin s queue maxSamples pollBudget polls

/-- The dual counterpart: the pairs' first samples go to `rx1`, their second to `rx2`. -/
def readSamplesDualWithin (s : NativeSdkSource Real) (queue : List (Packet Real))
    (maxSamples pollBudget : Nat) (polls : List (Poll Real)) :
    ReadCall Real (PacketSample Real × PacketSample Real) :=
  dualPath.readWithin s queue maxSamples pollBudget polls

end NativeSdkSource

/-- The caller's two vectors, one a channel. -/
structure DualBuffers (Real : Type) where
  rx1 : List (PacketSample Real)
  rx2 : List (PacketSample Real)

namespace DualBuffers

def empty : DualBuffers Real := ⟨[], []⟩

/-- `rx1.push(a); rx2.push(b)`. -/
def push (buffers : DualBuffers Real) (pair : PacketSample Real × PacketSample Real) :
    DualBuffers Real :=
  { rx1 := buffers.rx1 ++ [pair.1], rx2 := buffers.rx2 ++ [pair.2] }

def extend (buffers : DualBuffers Real) (pairs : List (PacketSample Real × PacketSample Real)) :
    DualBuffers Real :=
  pairs.foldl push buffers

variable (buffers : DualBuffers Real) (pairs : List (PacketSample Real × PacketSample Real))

theorem extend_rx1 : (buffers.extend pairs).rx1 = buffers.rx1 ++ pairs.map Prod.fst := by
  induction pairs generalizing buffers with
  | nil => simp [extend]
  | cons pair pairs ih =>
      have pushed : buffers.extend (pair :: pairs) = (buffers.push pair).extend pairs := rfl
      rw [pushed, ih]
      simp [push]

theorem extend_rx2 : (buffers.extend pairs).rx2 = buffers.rx2 ++ pairs.map Prod.snd := by
  induction pairs generalizing buffers with
  | nil => simp [extend]
  | cons pair pairs ih =>
      have pushed : buffers.extend (pair :: pairs) = (buffers.push pair).extend pairs := rfl
      rw [pushed, ih]
      simp [push]

/-- Both vectors grow by as many samples as pairs were pushed. -/
theorem extend_lengths :
    (buffers.extend pairs).rx1.length = buffers.rx1.length + pairs.length ∧
      (buffers.extend pairs).rx2.length = buffers.rx2.length + pairs.length := by
  simp [extend_rx1, extend_rx2]

end DualBuffers

/-- What a dual call appended to the first channel's buffer. -/
def ReadCall.rx1 (call : ReadCall Real (PacketSample Real × PacketSample Real)) :
    List (PacketSample Real) := (DualBuffers.empty.extend call.out).rx1

/-- What a dual call appended to the second channel's buffer. -/
def ReadCall.rx2 (call : ReadCall Real (PacketSample Real × PacketSample Real)) :
    List (PacketSample Real) := (DualBuffers.empty.extend call.out).rx2

end SdrAaronia.NativeSdk
