import SdrAaronia.Lib.Registers
import SdrAaronia.NativeSdk.Conserve

/-! # The device lifecycle

`open_device`, `start_streaming`, `stop_streaming` and the final drop, with every
vendor call they make and every way each may fail.  What the vendor has seen of the
calls says which device is open and what is due on it; the source's own device and
flags never disagree with that.
-/

namespace SdrAaronia.NativeSdk

variable {Real : Type}

/-- A vendor call and, where it can fail, the code it failed with. -/
inductive VendorCall where
  /-- The device it opened, if it did; devices are numbered as they are opened. -/
  | openDevice (opened : Option Nat)
  /-- The close of a device that a failed open had allocated. -/
  | discardDevice (failed : Option Nat)
  | connectDevice (device : Nat) (failed : Option Nat)
  | startDevice (device : Nat) (failed : Option Nat)
  | stopDevice (device : Nat) (failed : Option Nat)
  | disconnectDevice (device : Nat) (failed : Option Nat)
  | closeDevice (device : Nat) (failed : Option Nat)
  | closeHandle (handle : Nat) (failed : Option Nat)
  deriving DecidableEq, Repr

/-- The error a call on a device comes back with. -/
def VendorCall.error : VendorCall → Option Error
  | .openDevice _ => none
  | .discardDevice failed => failed.map (.sdkApi "AARTSAAPI_CloseDevice")
  | .connectDevice _ failed => failed.map (.sdkApi "AARTSAAPI_ConnectDevice")
  | .startDevice _ failed => failed.map (.sdkApi "AARTSAAPI_StartDevice")
  | .stopDevice _ failed => failed.map (.sdkApi "AARTSAAPI_StopDevice")
  | .disconnectDevice _ failed => failed.map (.sdkApi "AARTSAAPI_DisconnectDevice")
  | .closeDevice _ failed => failed.map (.sdkApi "AARTSAAPI_CloseDevice")
  | .closeHandle _ failed => failed.map (.sdkApi "AARTSAAPI_Close")

/-- The opened device a call is made on, or opens. -/
def VendorCall.device : VendorCall → Option Nat
  | .openDevice opened => opened
  | .discardDevice _ | .closeHandle _ _ => none
  | .connectDevice device _ | .startDevice device _ | .stopDevice device _
  | .disconnectDevice device _ | .closeDevice device _ => some device

/-- How the vendor answers an open. -/
inductive Opening where
  /-- The type string cannot be passed on. -/
  | invalid (reason : String)
  | opens
  /-- It fails, and has allocated nothing or a device whose close may fail too. -/
  | fails (code : Nat) (allocated : Option (Option Nat))
  /-- It reports no error and hands out no device. -/
  | empty (result : Nat)

/-- The codes the calls of one teardown fail with, should they be made. -/
structure Teardown where
  stop : Option Nat
  disconnect : Option Nat
  close : Option Nat

/-- A source, the vendor calls made for it, and how many devices it has opened. -/
structure DeviceSession (Real : Type) where
  source : NativeSdkSource Real
  calls : List VendorCall
  opened : Nat

/-- Whether `s` names a device family at all. -/
def namesADeviceFamily (s : String) : Bool :=
  match s.toList with
  | [] => false
  | first :: _ => first != '/'

/-- A result code as an error text shows it. -/
def hexCode (result : Nat) : String :=
  let digits := (Nat.toDigits 16 result).map Char.toUpper
  "0x" ++ String.ofList (List.replicate (8 - digits.length) '0' ++ digits)

/-- Keep the first failure. -/
def retainCleanupError (first : Option Error) (result : Option Error) : Option Error :=
  match result with
  | none => first
  | some error => if first.isNone then some error else first

def outcomeOf : Option Error → Except Error Unit
  | none => .ok ()
  | some error => .error error

namespace DeviceSession

def call (s : DeviceSession Real) (made : VendorCall) : DeviceSession Real :=
  { s with calls := s.calls ++ [made] }

def openDevice (s : DeviceSession Real) (deviceType : String) (opening : Opening) :
    DeviceSession Real × Except Error Unit :=
  if namesADeviceFamily deviceType = false then
    (s, .error (.config s!"device type {deviceType.quote} names no device family; expected something like \"spectranv6\" or \"spectranv6eco/iqreceiver\""))
  else if s.source.device.isSome then
    (s, .error (.sdk "a device is already open on this source; stop and drop it before opening another"))
  else if s.source.handle.isNone then (s, .error (.sdk "SDK not initialized"))
  else
    match opening with
    | .invalid reason => (s, .error (.sdk s!"Invalid wide string: {reason}"))
    | .opens =>
        let s := s.call (.openDevice (some s.opened))
        ({ s with
            source := { s.source with
              device := some s.opened
              openMode := some (.fromOpenString deviceType) }
            opened := s.opened + 1 }, .ok ())
    | .fails code allocated =>
        let s := s.call (.openDevice none)
        -- The result of this close is ignored.
        (allocated.elim s fun failed => s.call (.discardDevice failed),
          .error (.sdkApi "AARTSAAPI_OpenDevice" code))
    | .empty result =>
        (s.call (.openDevice none),
          .error (.sdk s!"AARTSAAPI_OpenDevice({deviceType}) returned no device (result {hexCode result})"))

/-- The source as a teardown leaves it, but for the device. -/
def idle (source : NativeSdkSource Real) : NativeSdkSource Real :=
  { source with
    streamActive := false
    deviceConnected := false
    sampleBuffer := []
    dualSampleBuffer := []
    readMode := none
    observedSampleRateHz := none
    observedBandwidthHz := none
    observedCenterFrequencyHz := none
    lastPacketEndTimeS := 0
    overrunPending := false }

/-- A cleanup stage, if it is due. -/
def stage (due : Bool) (made : VendorCall) (s : DeviceSession Real × Option Error) :
    DeviceSession Real × Option Error :=
  if due then (s.1.call made, retainCleanupError s.2 made.error) else s

def stopStreaming (s : DeviceSession Real) (t : Teardown) :
    DeviceSession Real × Except Error Unit :=
  let (s, firstError) :=
    match s.source.device with
    | none => (s, none)
    | some d =>
        stage s.source.deviceConnected (.disconnectDevice d t.disconnect)
          (stage s.source.streamActive (.stopDevice d t.stop) (s, none))
  let source := idle s.source
  match source.device, source.handle with
  | some d, some _ =>
      let (s, firstError) := stage true (.closeDevice d t.close) (s, firstError)
      -- A device that would not close is kept for the next attempt.
      let device := if t.close.isSome then some d else none
      ({ s with source := { source with device } }, outcomeOf firstError)
  | _, _ => ({ s with source := { source with device := none } }, outcomeOf firstError)

/-- Ownership is marked before the call: even a failed connect may have acquired the device. -/
def connecting (s : DeviceSession Real) (d : Nat) (failed : Option Nat) : DeviceSession Real :=
  { s with source := { s.source with deviceConnected := true } }.call (.connectDevice d failed)

def starting (s : DeviceSession Real) (d : Nat) (failed : Option Nat) : DeviceSession Real :=
  { s with source := { s.source with deviceConnected := true, streamActive := true } }.call
    (.startDevice d failed)

def startStreaming (s : DeviceSession Real) (connect start : Option Nat) (t : Teardown) :
    DeviceSession Real × Except Error Unit :=
  if s.source.streamActive then (s, .ok ())
  else
    match s.source.device with
    | none => (s, .error (.sdk "No device opened"))
    | some d =>
        let s := s.connecting d connect
        match (VendorCall.connectDevice d connect).error with
        | some error => ((s.stopStreaming t).1, .error error)
        | none =>
            let s := s.starting d start
            match (VendorCall.startDevice d start).error with
            | some error => ((s.stopStreaming t).1, .error error)
            | none => (s, .ok ())

/-- The final drop. -/
def drop (s : DeviceSession Real) (t : Teardown) (closeAgain closeHandle : Option Nat) :
    DeviceSession Real :=
  let (s, _) := s.stopStreaming t
  let s :=
    match s.source.device, s.source.handle with
    | some d, some _ =>
        { s.call (.closeDevice d closeAgain) with source := { s.source with device := none } }
    | _, _ => { s with source := { s.source with device := none } }
  match s.source.handle with
  | none => s
  | some handle =>
      { s.call (.closeHandle handle closeHandle) with source := { s.source with handle := none } }

end DeviceSession

/-! ## What the vendor has seen -/

namespace VendorCall

def starts (d : Nat) : VendorCall → Bool
  | .startDevice device _ => device == d
  | _ => false

def stops (d : Nat) : VendorCall → Bool
  | .stopDevice device _ => device == d
  | _ => false

def connects (d : Nat) : VendorCall → Bool
  | .connectDevice device _ => device == d
  | _ => false

def disconnects (d : Nat) : VendorCall → Bool
  | .disconnectDevice device _ => device == d
  | _ => false

def closesHandle : VendorCall → Bool
  | .closeHandle _ _ => true
  | _ => false

end VendorCall

/-- The devices open after a call. -/
def openAfter (devices : List Nat) : VendorCall → List Nat
  | .openDevice (some d) => devices ++ [d]
  | .closeDevice d none => devices.filter (· ≠ d)
  | _ => devices

/-- The devices opened by some calls and not closed again. -/
def openDevices (calls : List VendorCall) : List Nat := calls.foldl openAfter []

/-- A start was attempted and no stop issued since. -/
def isStarted (d : Nat) (calls : List VendorCall) : Bool :=
  Registers.latch (VendorCall.starts d) (VendorCall.stops d) calls

/-- A connect was attempted and no disconnect issued since. -/
def isConnected (d : Nat) (calls : List VendorCall) : Bool :=
  Registers.latch (VendorCall.connects d) (VendorCall.disconnects d) calls

/-- What a call needs of the calls before it. -/
def Allowed (before : List VendorCall) : VendorCall → Prop
  | .openDevice (some d) => openDevices before = [] ∧ ∀ call ∈ before, call.device ≠ some d
  | .openDevice none | .discardDevice _ => openDevices before = []
  | .connectDevice d _ | .startDevice d _ => openDevices before = [d]
  | .stopDevice d _ => openDevices before = [d] ∧ isStarted d before = true
  | .disconnectDevice d _ => openDevices before = [d] ∧ isConnected d before = true
  | .closeDevice d _ =>
      openDevices before = [d] ∧ isStarted d before = false ∧ isConnected d before = false
  | .closeHandle _ _ => True

/-- The calls a teardown owes the devices still open, in their order. -/
def due (calls : List VendorCall) (t : Teardown) : List VendorCall :=
  (openDevices calls).flatMap fun d =>
    (if isStarted d calls then [.stopDevice d t.stop] else []) ++
      (if isConnected d calls then [.disconnectDevice d t.disconnect] else []) ++
      [.closeDevice d t.close]

/-- The error of the first call that failed. -/
def firstFailure (calls : List VendorCall) : Except Error Unit :=
  outcomeOf (calls.findSome? VendorCall.error)

theorem openDevices_snoc (calls : List VendorCall) (call : VendorCall) :
    openDevices (calls ++ [call]) = openAfter (openDevices calls) call := by
  simp only [openDevices, List.foldl_append, List.foldl_cons, List.foldl_nil]

/-- A source's device and flags agree with the calls made for it. -/
structure Tracks (device : Option Nat) (active conn : Bool) (opened : Nat)
    (calls : List VendorCall) : Prop where
  devices : openDevices calls = device.toList
  started : ∀ d, isStarted d calls = (active && decide (device = some d))
  connected : ∀ d, isConnected d calls = (conn && decide (device = some d))
  below : ∀ d ∈ device, d < opened
  fresh : ∀ call ∈ calls, ∀ d ∈ call.device, d < opened
  handle : ∀ call ∈ calls, call.closesHandle = false
  obeys : Registers.Obeys Allowed calls

namespace Tracks

variable {d opened : Nat} {device : Option Nat} {active conn : Bool} {calls : List VendorCall}

theorem nil : Tracks none false false 0 [] where
  devices := rfl
  started _ := rfl
  connected _ := rfl
  below _ member := nomatch member
  fresh _ member := absurd member List.not_mem_nil
  handle _ member := absurd member List.not_mem_nil
  obeys := Registers.obeys_nil

/-- One more call, with what it does to the device, the flags and the rules. -/
theorem snoc (tracks : Tracks device active conn opened calls) {call : VendorCall}
    {device' : Option Nat} {active' conn' : Bool} {opened' : Nat}
    (devices : openAfter device.toList call = device'.toList)
    (starts : ∀ e, (if call.starts e then true else if call.stops e then false
      else (active && decide (device = some e))) = (active' && decide (device' = some e)))
    (connects : ∀ e, (if call.connects e then true else if call.disconnects e then false
      else (conn && decide (device = some e))) = (conn' && decide (device' = some e)))
    (more : opened ≤ opened') (below : ∀ d ∈ device', d < opened')
    (fresh : ∀ d ∈ call.device, d < opened') (handle : call.closesHandle = false)
    (allowed : Allowed calls call) : Tracks device' active' conn' opened' (calls ++ [call]) where
  devices := by rw [openDevices_snoc, tracks.devices, devices]
  started e := by
    rw [isStarted, Registers.latch_snoc, Registers.latchStep, ← isStarted, tracks.started e,
      starts e]
  connected e := by
    rw [isConnected, Registers.latch_snoc, Registers.latchStep, ← isConnected, tracks.connected e,
      connects e]
  below := below
  fresh made member := by
    cases List.mem_append.mp member with
    | inl earlier => exact fun d on => lt_of_lt_of_le (tracks.fresh made earlier d on) more
    | inr now => exact List.mem_singleton.mp now ▸ fresh
  handle made member := by
    cases List.mem_append.mp member with
    | inl earlier => exact tracks.handle made earlier
    | inr now => exact List.mem_singleton.mp now ▸ handle
  obeys := tracks.obeys.snoc allowed

theorem connect (tracks : Tracks (some d) active conn opened calls) (failed : Option Nat) :
    Tracks (some d) active true opened (calls ++ [.connectDevice d failed]) := by
  refine tracks.snoc rfl ?_ ?_ (le_refl _) tracks.below ?_ rfl tracks.devices
  · intro e
    rfl
  · intro e
    by_cases same : d = e
    · simp [VendorCall.connects, same]
    · simp [VendorCall.connects, VendorCall.disconnects, same]
  · rintro e ⟨⟩
    exact tracks.below d rfl

theorem start (tracks : Tracks (some d) active conn opened calls) (failed : Option Nat) :
    Tracks (some d) true conn opened (calls ++ [.startDevice d failed]) := by
  refine tracks.snoc rfl ?_ ?_ (le_refl _) tracks.below ?_ rfl tracks.devices
  · intro e
    by_cases same : d = e
    · simp [VendorCall.starts, same]
    · simp [VendorCall.starts, VendorCall.stops, same]
  · intro e
    rfl
  · rintro e ⟨⟩
    exact tracks.below d rfl

theorem stop (tracks : Tracks (some d) true conn opened calls) (failed : Option Nat) :
    Tracks (some d) false conn opened (calls ++ [.stopDevice d failed]) := by
  refine tracks.snoc rfl ?_ ?_ (le_refl _) tracks.below ?_ rfl ⟨tracks.devices, ?_⟩
  · intro e
    by_cases same : d = e
    · simp [VendorCall.starts, VendorCall.stops, same]
    · simp [VendorCall.starts, VendorCall.stops, same]
  · intro e
    rfl
  · rintro e ⟨⟩
    exact tracks.below d rfl
  · rw [tracks.started d, decide_eq_true rfl, Bool.and_true]

theorem disconnect (tracks : Tracks (some d) active true opened calls) (failed : Option Nat) :
    Tracks (some d) active false opened (calls ++ [.disconnectDevice d failed]) := by
  refine tracks.snoc rfl ?_ ?_ (le_refl _) tracks.below ?_ rfl ⟨tracks.devices, ?_⟩
  · intro e
    rfl
  · intro e
    by_cases same : d = e
    · simp [VendorCall.connects, VendorCall.disconnects, same]
    · simp [VendorCall.connects, VendorCall.disconnects, same]
  · rintro e ⟨⟩
    exact tracks.below d rfl
  · rw [tracks.connected d, decide_eq_true rfl, Bool.and_true]

theorem close (tracks : Tracks (some d) false false opened calls) (failed : Option Nat) :
    Tracks (if failed.isSome then some d else none) false false opened
      (calls ++ [.closeDevice d failed]) := by
  refine tracks.snoc ?_ (fun _ => rfl) (fun _ => rfl) (le_refl _) ?_ ?_ rfl
    ⟨tracks.devices, ?_, ?_⟩
  · cases failed with
    | none => simp [openAfter]
    | some code => rfl
  · cases failed with
    | none => exact fun _ member => nomatch member
    | some code => exact tracks.below
  · rintro e ⟨⟩
    exact tracks.below d rfl
  · rw [tracks.started d, Bool.false_and]
  · rw [tracks.connected d, Bool.false_and]

/-- A device just opened is the next in number, and nothing is due on it. -/
theorem opens (tracks : Tracks none active conn opened calls) :
    Tracks (some opened) false false (opened + 1) (calls ++ [.openDevice (some opened)]) := by
  refine tracks.snoc rfl ?_ ?_ (Nat.le_succ _) ?_ ?_ rfl ⟨tracks.devices, ?_⟩
  · intro e
    simp [VendorCall.starts, VendorCall.stops]
  · intro e
    simp [VendorCall.connects, VendorCall.disconnects]
  · rintro e ⟨⟩
    exact Nat.lt_succ_self _
  · rintro e ⟨⟩
    exact Nat.lt_succ_self _
  · exact fun call member same => absurd (tracks.fresh call member opened same) (lt_irrefl _)

/-- An open that fails changes nothing the vendor holds open. -/
theorem opensNothing (tracks : Tracks none active conn opened calls) :
    Tracks none active conn opened (calls ++ [.openDevice none]) :=
  tracks.snoc rfl (fun _ => rfl) (fun _ => rfl) (le_refl _) tracks.below
    (fun _ member => nomatch member) rfl tracks.devices

theorem discard (tracks : Tracks none active conn opened calls) (failed : Option Nat) :
    Tracks none active conn opened (calls ++ [.discardDevice failed]) :=
  tracks.snoc rfl (fun _ => rfl) (fun _ => rfl) (le_refl _) tracks.below
    (fun _ member => nomatch member) rfl tracks.devices

/-- With no device the flags do not matter. -/
theorem anyFlags (tracks : Tracks none active conn opened calls) (active' conn' : Bool) :
    Tracks none active' conn' opened calls where
  devices := tracks.devices
  started e := by
    rw [tracks.started e]
    simp
  connected e := by
    rw [tracks.connected e]
    simp
  below := tracks.below
  fresh := tracks.fresh
  handle := tracks.handle
  obeys := tracks.obeys

theorem due_none (tracks : Tracks none active conn opened calls) (t : Teardown) :
    due calls t = [] := by
  rw [due, tracks.devices]
  rfl

/-- What is due on the device is what the flags say, and its close. -/
theorem due_some (tracks : Tracks (some d) active conn opened calls) (t : Teardown) :
    due calls t =
      (if active then [.stopDevice d t.stop] else []) ++
        (if conn then [.disconnectDevice d t.disconnect] else []) ++ [.closeDevice d t.close] := by
  simp only [due, tracks.devices, Option.toList, List.flatMap_cons, List.flatMap_nil,
    List.append_nil, tracks.started d, tracks.connected d, decide_true, Bool.and_true]

end Tracks

namespace DeviceSession

/-! ## Teardown -/

variable {handle : Nat}

/-- An initialised source that agrees with the calls made for it. -/
structure Tracked (s : DeviceSession Real) (handle : Nat) : Prop where
  initialized : s.source.handle = some handle
  tracks : Tracks s.source.device s.source.streamActive s.source.deviceConnected s.opened s.calls
  unopened : s.source.device = none →
    s.source.streamActive = false ∧ s.source.deviceConnected = false

theorem retainCleanupError_eq (first result : Option Error) :
    retainCleanupError first result = first.or result := by
  cases result with
  | none => simp [retainCleanupError]
  | some error =>
      cases first with
      | none => rfl
      | some earlier => rfl

/-- After some stages of a teardown: the calls made, and the first failure among them. -/
structure Staged (s : DeviceSession Real) (made : List VendorCall)
    (now : DeviceSession Real × Option Error) : Prop where
  calls : now.1.calls = s.calls ++ made
  source : now.1.source = s.source
  opened : now.1.opened = s.opened
  firstError : now.2 = made.findSome? VendorCall.error

theorem Staged.nil (s : DeviceSession Real) : Staged s [] (s, none) :=
  ⟨(List.append_nil _).symm, rfl, rfl, rfl⟩

theorem Staged.stage {s : DeviceSession Real} {made : List VendorCall}
    {now : DeviceSession Real × Option Error} (staged : Staged s made now) (due : Bool)
    (call : VendorCall) : Staged s (made ++ if due then [call] else []) (stage due call now) := by
  obtain ⟨calls, source, opened, firstError⟩ := staged
  cases due with
  | false => exact ⟨calls.trans (by simp), source, opened, firstError.trans (by simp)⟩
  | true =>
      refine ⟨?_, source, opened, ?_⟩
      · simp only [DeviceSession.stage, if_true, DeviceSession.call, calls, List.append_assoc]
      · simp only [DeviceSession.stage, if_true, retainCleanupError_eq, firstError,
          List.findSome?_append, List.findSome?_cons, List.findSome?_nil]
        cases call.error with
        | none => rfl
        | some error => rfl

/-- The stages of a teardown on an open device. -/
def stages (s : DeviceSession Real) (d : Nat) (t : Teardown) : DeviceSession Real × Option Error :=
  stage true (.closeDevice d t.close)
    (stage s.source.deviceConnected (.disconnectDevice d t.disconnect)
      (stage s.source.streamActive (.stopDevice d t.stop) (s, none)))

theorem stopStreaming_some {s : DeviceSession Real} {d handle : Nat}
    (device : s.source.device = some d) (present : s.source.handle = some handle) (t : Teardown) :
    s.stopStreaming t =
      ({ (s.stages d t).1 with
          source := { idle s.source with device := if t.close.isSome then some d else none } },
        outcomeOf (s.stages d t).2) := by
  cases active : s.source.streamActive with
  | true | false =>
      cases conn : s.source.deviceConnected with
      | true | false =>
          simp only [stopStreaming, stages, stage, device, present, active, conn, idle,
            DeviceSession.call, if_true, Bool.false_eq_true, if_false]

theorem stopStreaming_none {s : DeviceSession Real} (device : s.source.device = none)
    (t : Teardown) :
    s.stopStreaming t = ({ s with source := { idle s.source with device := none } }, .ok ()) := by
  simp only [stopStreaming, device, idle, outcomeOf]

/-- The calls of a teardown's stages bring the device to where the source says it is. -/
theorem stages_tracks {d opened : Nat} {active conn : Bool} {calls : List VendorCall}
    (tracks : Tracks (some d) active conn opened calls) (t : Teardown) :
    Tracks (if t.close.isSome then some d else none) false false opened (calls ++ due calls t) := by
  rw [tracks.due_some t, ← List.append_assoc, ← List.append_assoc]
  have stopped : Tracks (some d) false conn opened
      (calls ++ if active then [.stopDevice d t.stop] else []) := by
    cases active with
    | true => exact tracks.stop t.stop
    | false => exact (List.append_nil calls).symm ▸ tracks
  have parted : Tracks (some d) false false opened
      ((calls ++ if active then [.stopDevice d t.stop] else []) ++
        if conn then [.disconnectDevice d t.disconnect] else []) := by
    cases conn with
    | true => exact stopped.disconnect t.disconnect
    | false => exact (List.append_nil _).symm ▸ stopped
  exact parted.close t.close

/-- A teardown makes the calls that are due, reports the first that failed, and leaves the source
idle; a device that would not close is still tracked. -/
theorem stopStreaming_spec {s : DeviceSession Real} (tracked : s.Tracked handle) (t : Teardown) :
    (s.stopStreaming t).1.calls = s.calls ++ due s.calls t ∧
      (s.stopStreaming t).2 = firstFailure (due s.calls t) ∧
      (∃ device, (s.stopStreaming t).1.source = { idle s.source with device }) ∧
      (s.stopStreaming t).1.Tracked handle := by
  obtain ⟨initialized, tracks, -⟩ := tracked
  cases device : s.source.device with
  | none =>
      rw [device] at tracks
      rw [stopStreaming_none device, tracks.due_none t, List.append_nil]
      exact ⟨rfl, rfl, ⟨none, rfl⟩, initialized, tracks.anyFlags false false, fun _ => ⟨rfl, rfl⟩⟩
  | some d =>
      rw [device] at tracks
      have staged := (((Staged.nil s).stage s.source.streamActive (.stopDevice d t.stop)).stage
        s.source.deviceConnected (.disconnectDevice d t.disconnect)).stage true
        (.closeDevice d t.close)
      have owed := tracks.due_some t
      rw [List.nil_append, if_pos rfl, ← owed] at staged
      rw [stopStreaming_some device initialized]
      refine ⟨staged.calls, ?_, ⟨_, rfl⟩, initialized, ?_, fun _ => ⟨rfl, rfl⟩⟩
      · exact congrArg outcomeOf staged.firstError
      · have after := stages_tracks tracks t
        rw [← staged.calls, ← staged.opened] at after
        exact after

/-! ## Start -/

/-- The calls a start makes on a device before it succeeds or gives up. -/
def attempt (d : Nat) (connect start : Option Nat) : List VendorCall :=
  .connectDevice d connect :: if connect.isNone then [.startDevice d start] else []

theorem startStreaming_streaming {s : DeviceSession Real} (active : s.source.streamActive = true)
    (connect start : Option Nat) (t : Teardown) :
    s.startStreaming connect start t = (s, .ok ()) := by
  rw [startStreaming, if_pos active]

theorem startStreaming_unopened {s : DeviceSession Real} (active : s.source.streamActive = false)
    (device : s.source.device = none) (connect start : Option Nat) (t : Teardown) :
    s.startStreaming connect start t = (s, .error (.sdk "No device opened")) := by
  simp only [startStreaming, active, Bool.false_eq_true, if_false, device]

theorem Tracked.connecting {s : DeviceSession Real} (tracked : s.Tracked handle) {d : Nat}
    (device : s.source.device = some d) (failed : Option Nat) :
    (s.connecting d failed).Tracked handle := by
  have tracks := tracked.tracks
  rw [device] at tracks
  refine ⟨tracked.initialized, ?_, fun none => nomatch device.symm.trans none⟩
  have connected := tracks.connect failed
  rw [← device] at connected
  exact connected

theorem Tracked.starting {s : DeviceSession Real} (tracked : s.Tracked handle) {d : Nat}
    (device : s.source.device = some d) (connected : s.source.deviceConnected = true)
    (failed : Option Nat) : (s.starting d failed).Tracked handle := by
  have tracks := tracked.tracks
  rw [device, connected] at tracks
  refine ⟨tracked.initialized, ?_, fun none => nomatch device.symm.trans none⟩
  have started := tracks.start failed
  rw [← device] at started
  exact started

/-- A start attempts a connect and then a start, and tears down after the one that fails. -/
theorem startStreaming_spec {s : DeviceSession Real} (tracked : s.Tracked handle) {d : Nat}
    (device : s.source.device = some d) (active : s.source.streamActive = false)
    (connect start : Option Nat) (t : Teardown) :
    (s.startStreaming connect start t).2 = firstFailure (attempt d connect start) ∧
      (s.startStreaming connect start t).1.calls = s.calls ++ attempt d connect start ++
        (if (attempt d connect start).findSome? VendorCall.error = none then []
          else due (s.calls ++ attempt d connect start) t) ∧
      (s.startStreaming connect start t).1.Tracked handle := by
  have connecting := tracked.connecting device connect
  simp only [startStreaming, active, Bool.false_eq_true, if_false, device]
  cases connect with
  | some code =>
      obtain ⟨calls, -, -, after⟩ := stopStreaming_spec connecting t
      exact ⟨rfl, calls, after⟩
  | none =>
      have starting := connecting.starting (show _ = some d from device) rfl start
      have made : ((s.connecting d none).starting d start).calls =
          s.calls ++ attempt d none start :=
        List.append_assoc s.calls [.connectDevice d none] [.startDevice d start]
      cases start with
      | some code =>
          obtain ⟨calls, -, -, after⟩ := stopStreaming_spec starting t
          rw [made] at calls
          exact ⟨rfl, calls, after⟩
      | none => exact ⟨rfl, made.trans (List.append_nil _).symm, starting⟩

/-! ## Runs -/

theorem openDevice_tracked {s : DeviceSession Real} (tracked : s.Tracked handle)
    (deviceType : String)
    (opening : Opening) : (s.openDevice deviceType opening).1.Tracked handle := by
  simp only [openDevice]
  by_cases family : namesADeviceFamily deviceType = false
  · rw [if_pos family]
    exact tracked
  rw [if_neg family]
  by_cases open' : s.source.device.isSome = true
  · rw [if_pos open']
    exact tracked
  rw [if_neg open']
  have device : s.source.device = none := Option.not_isSome_iff_eq_none.mp open'
  by_cases handle : s.source.handle.isNone = true
  · rw [if_pos handle]
    exact tracked
  rw [if_neg handle]
  obtain ⟨initialized, tracks, unopened⟩ := tracked
  obtain ⟨active, conn⟩ := unopened device
  rw [device] at tracks
  cases opening with
  | invalid reason => exact ⟨initialized, device ▸ tracks, unopened⟩
  | opens =>
      have opened : Tracks (some s.opened) s.source.streamActive s.source.deviceConnected
          (s.opened + 1) (s.calls ++ [.openDevice (some s.opened)]) := by
        rw [active, conn]
        exact tracks.opens
      exact ⟨initialized, opened, fun none => nomatch none⟩
  | fails code allocated =>
      cases allocated with
      | none => exact ⟨initialized, device ▸ tracks.opensNothing, unopened⟩
      | some failed => exact ⟨initialized, device ▸ tracks.opensNothing.discard failed, unopened⟩
  | empty result => exact ⟨initialized, device ▸ tracks.opensNothing, unopened⟩

end DeviceSession

/-- What a caller does with a source, and what the vendor answers. -/
inductive Operation (Real : Type) where
  | openDevice (deviceType : String) (opening : Opening)
  | startStreaming (connect start : Option Nat) (t : Teardown)
  | stopStreaming (t : Teardown)
  | read (mode : ReadMode) (queue : List (Packet Real)) (request : ReadRequest Real)

namespace DeviceSession

def perform (s : DeviceSession Real) : Operation Real → DeviceSession Real
  | .openDevice deviceType opening => (s.openDevice deviceType opening).1
  | .startStreaming connect start t => (s.startStreaming connect start t).1
  | .stopStreaming t => (s.stopStreaming t).1
  | .read .mono queue request =>
      { s with
        source := (s.source.readSamplesWithin queue request.maxSamples request.pollBudget
          request.polls).source }
  | .read .dual queue request =>
      { s with
        source := (s.source.readSamplesDualWithin queue request.maxSamples request.pollBudget
          request.polls).source }

def run (s : DeviceSession Real) (operations : List (Operation Real)) : DeviceSession Real :=
  operations.foldl perform s

theorem Tracked.of_ownership {s : DeviceSession Real} (tracked : s.Tracked handle)
    {source : NativeSdkSource Real} (same : source.ownership = s.source.ownership) :
    ({ s with source } : DeviceSession Real).Tracked handle := by
  simp only [NativeSdkSource.ownership, Prod.mk.injEq] at same
  obtain ⟨handle, device, active, conn⟩ := same
  obtain ⟨initialized, tracks, unopened⟩ := tracked
  refine ⟨?_, ?_, ?_⟩
  · simp only [handle]
    exact initialized
  · simp only [device, active, conn]
    exact tracks
  · simp only [device, active, conn]
    exact unopened

theorem perform_tracked {s : DeviceSession Real} (tracked : s.Tracked handle)
    (operation : Operation Real) :
    (s.perform operation).Tracked handle := by
  cases operation with
  | openDevice deviceType opening => exact openDevice_tracked tracked deviceType opening
  | stopStreaming t =>
      obtain ⟨-, -, -, after⟩ := stopStreaming_spec tracked t
      exact after
  | startStreaming connect start t =>
      cases active : s.source.streamActive with
      | true =>
          simp only [perform, startStreaming_streaming active connect start t]
          exact tracked
      | false =>
          cases device : s.source.device with
          | none =>
              simp only [perform, startStreaming_unopened active device connect start t]
              exact tracked
          | some d =>
              obtain ⟨-, -, after⟩ := startStreaming_spec tracked device active connect start t
              exact after
  | read mode queue request =>
      cases mode with
      | mono => exact tracked.of_ownership (monoPath.readWithin_ownership s.source queue _ _ _)
      | dual => exact tracked.of_ownership (dualPath.readWithin_ownership s.source queue _ _ _)

theorem run_tracked {s : DeviceSession Real} (tracked : s.Tracked handle)
    (operations : List (Operation Real)) : (s.run operations).Tracked handle := by
  induction operations generalizing s with
  | nil => exact tracked
  | cons operation operations ih => exact ih (perform_tracked tracked operation)

end DeviceSession

/-! ## The rules, in the vendor's terms -/

theorem mem_openDevices {d : Nat} {calls : List VendorCall} (isOpen : d ∈ openDevices calls) :
    .openDevice (some d) ∈ calls := by
  induction calls using List.reverseRecOn with
  | nil => exact absurd isOpen List.not_mem_nil
  | append_singleton calls call ih =>
      rw [openDevices_snoc] at isOpen
      have earlier : d ∈ openDevices calls → .openDevice (some d) ∈ calls ++ [call] :=
        fun before => List.mem_append_left _ (ih before)
      cases call with
      | openDevice opened =>
          cases opened with
          | none => exact earlier isOpen
          | some e =>
              cases List.mem_append.mp isOpen with
              | inl before => exact earlier before
              | inr now =>
                  rw [List.mem_singleton.mp now]
                  exact List.mem_append_right _ (List.mem_singleton.mpr rfl)
      | closeDevice e failed =>
          cases failed with
          | none => exact earlier (List.mem_of_mem_filter isOpen)
          | some code => exact earlier isOpen
      | discardDevice | connectDevice | startDevice | stopDevice | disconnectDevice | closeHandle =>
          exact earlier isOpen

theorem openDevices_length {calls : List VendorCall} (obeys : Registers.Obeys Allowed calls) :
    (openDevices calls).length ≤ 1 := by
  induction calls using List.reverseRecOn with
  | nil => exact Nat.zero_le 1
  | append_singleton calls call ih =>
      have before := ih obeys.left
      rw [openDevices_snoc]
      cases call with
      | openDevice opened =>
          cases opened with
          | none => exact before
          | some d =>
              have fits : openDevices calls = [] := obeys.last.1
              rw [openAfter, fits]
              exact le_refl 1
      | closeDevice d failed =>
          cases failed with
          | none => exact le_trans (List.length_filter_le _ _) before
          | some code => exact before
      | discardDevice | connectDevice | startDevice | stopDevice | disconnectDevice | closeHandle =>
          exact before

/-- A call on a device is made while it alone is open, unless it opens it. -/
theorem device_open {calls : List VendorCall} {call : VendorCall} {d : Nat}
    (allowed : Allowed calls call) (on : call.device = some d) :
    call = .openDevice (some d) ∨ openDevices calls = [d] := by
  cases call with
  | openDevice opened =>
      cases on
      exact .inl rfl
  | discardDevice | closeHandle => cases on
  | connectDevice | startDevice =>
      cases on
      exact .inr allowed
  | stopDevice | disconnectDevice | closeDevice =>
      cases on
      exact .inr allowed.1

/-- Only an open makes a device open. -/
theorem not_mem_openAfter {devices : List Nat} {call : VendorCall} {d : Nat}
    (closed : d ∉ devices) (other : call ≠ .openDevice (some d)) : d ∉ openAfter devices call := by
  cases call with
  | openDevice opened =>
      cases opened with
      | none => exact closed
      | some e =>
          intro member
          cases List.mem_append.mp member with
          | inl before => exact closed before
          | inr now => exact other (List.mem_singleton.mp now ▸ rfl)
  | closeDevice e failed =>
      cases failed with
      | none => exact fun member => closed (List.mem_of_mem_filter member)
      | some code => exact closed
  | discardDevice | connectDevice | startDevice | stopDevice | disconnectDevice | closeHandle =>
      exact closed

theorem closed_stays {before after : List VendorCall} {d : Nat}
    (obeys : Registers.Obeys Allowed (before ++ .closeDevice d none :: after)) :
    (∀ call ∈ after, call.device ≠ some d) ∧
      d ∉ openDevices (before ++ .closeDevice d none :: after) := by
  induction after using List.reverseRecOn with
  | nil =>
      refine ⟨fun call member => absurd member List.not_mem_nil, ?_⟩
      rw [openDevices_snoc]
      intro member
      have other := List.of_mem_filter (show d ∈ (openDevices before).filter (· ≠ d) from member)
      exact of_decide_eq_true other rfl
  | append_singleton after call ih =>
      rw [← List.cons_append, ← List.append_assoc] at obeys ⊢
      obtain ⟨unused, closed⟩ := ih obeys.left
      have other : call.device ≠ some d := by
        intro on
        cases device_open obeys.last on with
        | inl opens =>
            have fits := obeys.last
            rw [opens] at fits
            exact fits.2 (.closeDevice d none)
              (List.mem_append_right _ List.mem_cons_self) rfl
        | inr isOpen => exact closed (isOpen ▸ List.mem_singleton.mpr rfl)
      constructor
      · intro made member
        cases List.mem_append.mp member with
        | inl earlier => exact unused made earlier
        | inr now => exact List.mem_singleton.mp now ▸ other
      · rw [openDevices_snoc]
        exact not_mem_openAfter closed fun opens => other (opens ▸ rfl)

/-- What holds of the calls on devices, in any order they were made. -/
structure Disciplined (calls : List VendorCall) : Prop where
  /-- At most one device is open at a time. -/
  exclusive : ∀ before after, calls = before ++ after → (openDevices before).length ≤ 1
  /-- A stop follows a start attempted since the device was opened, with no stop in between. -/
  stops : ∀ before d failed after, calls = before ++ .stopDevice d failed :: after →
    ∃ earlier failed' since, before = earlier ++ .startDevice d failed' :: since ∧
      .openDevice (some d) ∈ earlier ∧ ∀ call ∈ since, call.stops d = false
  /-- A disconnect follows a connect attempted since the device was opened, likewise. -/
  disconnects : ∀ before d failed after, calls = before ++ .disconnectDevice d failed :: after →
    ∃ earlier failed' since, before = earlier ++ .connectDevice d failed' :: since ∧
      .openDevice (some d) ∈ earlier ∧ ∀ call ∈ since, call.disconnects d = false
  /-- Once a device has been closed, no further call is made on it. -/
  retires : ∀ before d after, calls = before ++ .closeDevice d none :: after →
    ∀ call ∈ after, call.device ≠ some d

theorem disciplined {calls : List VendorCall} (obeys : Registers.Obeys Allowed calls) :
    Disciplined calls := by
  refine ⟨?_, ?_, ?_, ?_⟩
  · intro before after split
    exact openDevices_length (split ▸ obeys).left
  · intro before d failed after split
    obtain ⟨isOpen, latched⟩ := obeys before _ after split
    obtain ⟨earlier, start, since, same, starts, unstopped⟩ :=
      (Registers.latch_iff _ _ _).mp latched
    cases start with
    | startDevice e failed' =>
        cases beq_iff_eq.mp starts
        have opened : openDevices earlier = [d] :=
          obeys earlier (.startDevice d failed') (since ++ .stopDevice d failed :: after)
            (by rw [split, same, List.append_assoc, List.cons_append])
        have here : d ∈ openDevices earlier := opened ▸ List.mem_singleton.mpr rfl
        exact ⟨earlier, failed', since, same, mem_openDevices here, unstopped⟩
    | openDevice | discardDevice | connectDevice | stopDevice | disconnectDevice | closeDevice
    | closeHandle => cases starts
  · intro before d failed after split
    obtain ⟨isOpen, latched⟩ := obeys before _ after split
    obtain ⟨earlier, connect, since, same, connects, kept⟩ := (Registers.latch_iff _ _ _).mp latched
    cases connect with
    | connectDevice e failed' =>
        cases beq_iff_eq.mp connects
        have opened : openDevices earlier = [d] :=
          obeys earlier (.connectDevice d failed') (since ++ .disconnectDevice d failed :: after)
            (by rw [split, same, List.append_assoc, List.cons_append])
        have here : d ∈ openDevices earlier := opened ▸ List.mem_singleton.mpr rfl
        exact ⟨earlier, failed', since, same, mem_openDevices here, kept⟩
    | openDevice | discardDevice | startDevice | stopDevice | disconnectDevice | closeDevice
    | closeHandle => cases connects
  · intro before d after split
    exact (closed_stays (split ▸ obeys)).1

namespace DeviceSession

/-- A stop makes the calls that are due in their order, returns their first failure, and leaves the
source idle whatever failed. -/
structure Stops (s : DeviceSession Real) (t : Teardown) : Prop where
  calls : (s.stopStreaming t).1.calls = s.calls ++ due s.calls t
  result : (s.stopStreaming t).2 = firstFailure (due s.calls t)
  idle : (s.stopStreaming t).1.source.streamActive = false
  monoEmpty : (s.stopStreaming t).1.source.sampleBuffer = []
  dualEmpty : (s.stopStreaming t).1.source.dualSampleBuffer = []
  unlatched : (s.stopStreaming t).1.source.readMode = none

/-- A start does nothing while streaming or with no device open; otherwise it returns the failure of
its connect or start, after the teardown then due. -/
structure Starts (s : DeviceSession Real) (connect start : Option Nat) (t : Teardown) : Prop where
  streaming : ∀ d ∈ openDevices s.calls, isStarted d s.calls = true →
    s.startStreaming connect start t = (s, .ok ())
  unopened : openDevices s.calls = [] →
    s.startStreaming connect start t = (s, .error (.sdk "No device opened"))
  result : ∀ d ∈ openDevices s.calls, isStarted d s.calls = false →
    (s.startStreaming connect start t).2 = firstFailure (attempt d connect start)
  calls : ∀ d ∈ openDevices s.calls, isStarted d s.calls = false →
    (s.startStreaming connect start t).1.calls = s.calls ++ attempt d connect start ++
      (if (attempt d connect start).findSome? VendorCall.error = none then []
        else due (s.calls ++ attempt d connect start) t)

/-- The drop makes the calls that are due, closes once more what would not close, and then closes
the handle, as no call before does. -/
structure Drops (s : DeviceSession Real) (handle : Nat) (t : Teardown)
    (closeAgain closeHandle : Option Nat) : Prop where
  calls : (s.drop t closeAgain closeHandle).calls = s.calls ++ due s.calls t ++
    (openDevices (s.calls ++ due s.calls t)).map (.closeDevice · closeAgain) ++
    [.closeHandle handle closeHandle]
  handle : ∀ call ∈ s.calls ++ due s.calls t ++
    (openDevices (s.calls ++ due s.calls t)).map (.closeDevice · closeAgain),
    call.closesHandle = false
  disciplined : Disciplined (s.drop t closeAgain closeHandle).calls

theorem Tracked.stops {s : DeviceSession Real} (tracked : s.Tracked handle) (t : Teardown) :
    s.Stops t := by
  obtain ⟨calls, result, ⟨device, source⟩, -⟩ := stopStreaming_spec tracked t
  refine ⟨calls, result, ?_, ?_, ?_, ?_⟩
  all_goals
    rw [source]
    rfl

/-- The device the vendor has open is the source's own. -/
theorem Tracked.device {s : DeviceSession Real} (tracked : s.Tracked handle) {d : Nat}
    (isOpen : d ∈ openDevices s.calls) :
    s.source.device = some d ∧ isStarted d s.calls = s.source.streamActive := by
  have tracks := tracked.tracks
  rw [tracks.devices] at isOpen
  have device : s.source.device = some d := Option.mem_toList.mp isOpen
  refine ⟨device, ?_⟩
  rw [tracks.started d, decide_eq_true device, Bool.and_true]

theorem Tracked.starts {s : DeviceSession Real} (tracked : s.Tracked handle)
    (connect start : Option Nat)
    (t : Teardown) : s.Starts connect start t := by
  refine ⟨?_, ?_, ?_, ?_⟩
  · intro d isOpen started
    obtain ⟨-, same⟩ := tracked.device isOpen
    exact startStreaming_streaming (same ▸ started) connect start t
  · intro closed
    have device : s.source.device = none := by
      have tracks := tracked.tracks.devices
      rw [closed] at tracks
      exact Option.toList_eq_nil_iff.mp tracks.symm
    exact startStreaming_unopened (tracked.unopened device).1 device connect start t
  · intro d isOpen idle
    obtain ⟨device, same⟩ := tracked.device isOpen
    exact (startStreaming_spec tracked device (same ▸ idle) connect start t).1
  · intro d isOpen idle
    obtain ⟨device, same⟩ := tracked.device isOpen
    exact (startStreaming_spec tracked device (same ▸ idle) connect start t).2.1

theorem Tracked.drops {s : DeviceSession Real} (tracked : s.Tracked handle) (t : Teardown)
    (closeAgain closeHandle : Option Nat) :
    s.Drops handle t closeAgain closeHandle := by
  obtain ⟨calls, -, ⟨device, source⟩, stopped⟩ := stopStreaming_spec tracked t
  have idle : (s.stopStreaming t).1.source.streamActive = false ∧
      (s.stopStreaming t).1.source.deviceConnected = false := by
    rw [source]
    exact ⟨rfl, rfl⟩
  have handle' := stopped.initialized
  have tracks := stopped.tracks
  rw [idle.1, idle.2] at tracks
  have devices := tracks.devices
  rw [calls] at tracks devices
  have dropped : (s.drop t closeAgain closeHandle).calls = s.calls ++ due s.calls t ++
      (openDevices (s.calls ++ due s.calls t)).map (.closeDevice · closeAgain) ++
      [.closeHandle handle closeHandle] := by
    rw [devices]
    cases left : (s.stopStreaming t).1.source.device with
    | none =>
        simp only [drop, left, handle', DeviceSession.call, calls, Option.toList, List.map_nil,
          List.append_nil]
    | some d =>
        simp only [drop, left, handle', DeviceSession.call, calls, Option.toList, List.map_cons,
          List.map_nil]
  have closed : ∃ last, Tracks last false false (s.stopStreaming t).1.opened
      (s.calls ++ due s.calls t ++
        (openDevices (s.calls ++ due s.calls t)).map (.closeDevice · closeAgain)) := by
    rw [devices]
    cases left : (s.stopStreaming t).1.source.device with
    | none =>
        rw [left] at tracks
        exact ⟨none, (List.append_nil _).symm ▸ tracks⟩
    | some d =>
        rw [left] at tracks
        exact ⟨_, tracks.close closeAgain⟩
  obtain ⟨last, tracks⟩ := closed
  refine ⟨dropped, tracks.handle, ?_⟩
  rw [dropped]
  exact disciplined (tracks.obeys.snoc trivial)

end DeviceSession

/-- A source with its handle and no device yet. -/
structure NativeSdkSource.Initialized (source : NativeSdkSource Real) (handle : Nat) : Prop where
  handle : source.handle = some handle
  device : source.device = none
  idle : source.streamActive = false ∧ source.deviceConnected = false

theorem NativeSdkSource.Initialized.tracked {source : NativeSdkSource Real} {handle : Nat}
    (initialized : source.Initialized handle) :
    (⟨source, [], 0⟩ : DeviceSession Real).Tracked handle := by
  obtain ⟨present, device, active, conn⟩ := initialized
  refine ⟨present, ?_, fun _ => ⟨active, conn⟩⟩
  rw [device, active, conn]
  exact Tracks.nil

namespace DeviceSession

/-- Whatever is asked of a source and whatever the vendor fails, its stops, starts and its drop make
exactly the calls that are due, in order, and no call breaks the rules. -/
theorem lifecycle {source : NativeSdkSource Real} {handle : Nat}
    (initialized : source.Initialized handle) (operations : List (Operation Real)) :
    (∀ t, ((⟨source, [], 0⟩ : DeviceSession Real).run operations).Stops t) ∧
      (∀ connect start t,
        ((⟨source, [], 0⟩ : DeviceSession Real).run operations).Starts connect start t) ∧
      ∀ t closeAgain closeHandle,
        ((⟨source, [], 0⟩ : DeviceSession Real).run operations).Drops handle t closeAgain
          closeHandle := by
  have tracked := run_tracked initialized.tracked operations
  exact ⟨tracked.stops, tracked.starts, tracked.drops⟩

/-- A start that fails on a device that then will not close, and a stop that closes it. -/
def stubborn : DeviceSession Nat :=
  (⟨⟨some 3, none, none, false, false, [], [], none, none, none, none, 0, false, 0⟩, [], 0⟩ :
    DeviceSession Nat).run
    [.openDevice "spectranv6/raw" .opens, .startStreaming none (some 5) ⟨none, none, some 7⟩,
      .stopStreaming ⟨none, none, none⟩]

theorem lifecycle_stubborn :
    stubborn.calls = [.openDevice (some 0), .connectDevice 0 none, .startDevice 0 (some 5),
        .stopDevice 0 none, .disconnectDevice 0 none, .closeDevice 0 (some 7),
        .closeDevice 0 none] ∧
      stubborn.Drops 3 ⟨none, none, none⟩ none none :=
  ⟨by decide +kernel, (lifecycle ⟨rfl, rfl, rfl, rfl⟩ _).2.2 ⟨none, none, none⟩ none none⟩

end DeviceSession

end SdrAaronia.NativeSdk
