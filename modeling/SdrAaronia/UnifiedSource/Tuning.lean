import SdrAaronia.Error
import SdrAaronia.Lib.F64

/-! # Retuning over HTTP

The configuration keeps the tuning the caller was told; a second copy is shared
with the reader task, which applies it again after a reconnect.
-/

namespace SdrAaronia

/-- The tuning a capture request carries, always as a whole. -/
@[ext] structure CaptureTuning where
  centerFrequencyHz : F64
  sampleRateHz : F64
  referenceLevelDbm : F64
  deriving DecidableEq, Repr

def defaultReceiverClockHz : F64 := .finite 92160000

def iqRateClockRatio : F64 := .finite (3 / 2)

/-- The messages leave out the rates the source prints in them. -/
def validateIqMode (sampleRateHz receiverClockHz : F64) : Except Error Unit :=
  if ¬sampleRateHz.isFinite ∨ sampleRateHz ≤ 0 then
    .error (.config "sample rate must be a finite positive number")
  else if ¬receiverClockHz.isFinite ∨ receiverClockHz ≤ 0 then
    .error (.config "receiver_clock must be a finite positive number")
  else if receiverClockHz / iqRateClockRatio < sampleRateHz then
    .error (.config "IQ Mode constraint violated")
  else .ok ()

/-- The tuning of a source over HTTP. -/
structure TunedSource where
  config : CaptureTuning
  /-- Whether there is an HTTP client. -/
  httpClient : Bool
  /-- What the reader task applies after a reconnect, while there is one. -/
  httpTuning : Option CaptureTuning
  deriving DecidableEq, Repr

namespace TunedSource

/-- A source right after its HTTP backend came up. -/
def initHttpSource (config : CaptureTuning) : TunedSource where
  config
  httpClient := true
  httpTuning := some config

/-- A setter that gives the tuning a new value: the shared copy has it before the
request goes out, the configuration once the server accepted it. -/
def retune (s : TunedSource) (edit : CaptureTuning → CaptureTuning)
    (configureCapture : CaptureTuning → Except Error Unit) : Except Error Unit × TunedSource :=
  if s.httpClient then
    let published := { s with httpTuning := s.httpTuning.map edit }
    match configureCapture (edit s.config) with
    | .error e => (.error e, published)
    | .ok () => (.ok (), { published with config := edit s.config })
  else (.error (.config "HTTP client not initialized"), s)

def setCenterFrequencyHz (s : TunedSource) (hz : F64)
    (configureCapture : CaptureTuning → Except Error Unit) : Except Error Unit × TunedSource :=
  s.retune (fun tuning => { tuning with centerFrequencyHz := hz }) configureCapture

/-- The rate is validated before anything is published. -/
def setSampleRateHz (s : TunedSource) (hz : F64)
    (configureCapture : CaptureTuning → Except Error Unit) : Except Error Unit × TunedSource :=
  match validateIqMode hz defaultReceiverClockHz with
  | .error e => (.error e, s)
  | .ok () => s.retune (fun tuning => { tuning with sampleRateHz := hz }) configureCapture

def setReferenceLevelDbm (s : TunedSource) (dbm : F64)
    (configureCapture : CaptureTuning → Except Error Unit) : Except Error Unit × TunedSource :=
  s.retune (fun tuning => { tuning with referenceLevelDbm := dbm }) configureCapture

end TunedSource

/-- A setter call, with the server's answer to the request it sends. -/
inductive TuningCall where
  | centerFrequency (hz : F64) (answer : CaptureTuning → Except Error Unit)
  | sampleRate (hz : F64) (answer : CaptureTuning → Except Error Unit)
  | referenceLevel (dbm : F64) (answer : CaptureTuning → Except Error Unit)

namespace TunedSource

def call (s : TunedSource) : TuningCall → Except Error Unit × TunedSource
  | .centerFrequency hz answer => s.setCenterFrequencyHz hz answer
  | .sampleRate hz answer => s.setSampleRateHz hz answer
  | .referenceLevel dbm answer => s.setReferenceLevelDbm dbm answer

/-- What a reconnect applies is what the configuration says. -/
def Agrees (s : TunedSource) : Prop :=
  s.httpTuning = some s.config

/-- The call keeps both copies in agreement, and a call that fails changes
neither. -/
def LeavesNothingBehind (s : TunedSource) (c : TuningCall) : Prop :=
  (s.call c).2.Agrees ∧
    ∀ e, (s.call c).1 = .error e →
      (s.call c).2.config = s.config ∧ (s.call c).2.httpTuning = s.httpTuning

/-- The server accepts the request, or the tuning asked for is the one there is;
a rate may also be refused ahead of the request. -/
def Harmless (s : TunedSource) : TuningCall → Prop
  | .centerFrequency hz answer =>
      answer { s.config with centerFrequencyHz := hz } = .ok () ∨ hz = s.config.centerFrequencyHz
  | .sampleRate hz answer =>
      answer { s.config with sampleRateHz := hz } = .ok () ∨ hz = s.config.sampleRateHz ∨
        validateIqMode hz defaultReceiverClockHz ≠ .ok ()
  | .referenceLevel dbm answer =>
      answer { s.config with referenceLevelDbm := dbm } = .ok () ∨ dbm = s.config.referenceLevelDbm

/-- Every call of the session, at the state it meets, satisfies `P`. -/
def Throughout (P : TunedSource → TuningCall → Prop) : TunedSource → List TuningCall → Prop
  | _, [] => True
  | s, c :: calls => P s c ∧ Throughout P (s.call c).2 calls

theorem call_httpClient (s : TunedSource) (c : TuningCall) :
    (s.call c).2.httpClient = s.httpClient := by
  have retuned : ∀ edit answer, (s.retune edit answer).2.httpClient = s.httpClient := by
    intro edit answer
    rw [retune]
    split
    · cases answer (edit s.config) <;> rfl
    · rfl
  cases c with
  | centerFrequency hz answer => exact retuned _ answer
  | referenceLevel dbm answer => exact retuned _ answer
  | sampleRate hz answer =>
      rw [call, setSampleRateHz]
      split
      · rfl
      · exact retuned _ answer

theorem retune_leavesNothing_iff {s : TunedSource} (client : s.httpClient = true)
    (agrees : s.Agrees) (edit : CaptureTuning → CaptureTuning)
    (answer : CaptureTuning → Except Error Unit) :
    ((s.retune edit answer).2.Agrees ∧ ∀ e, (s.retune edit answer).1 = .error e →
        (s.retune edit answer).2.config = s.config ∧
          (s.retune edit answer).2.httpTuning = s.httpTuning) ↔
      answer (edit s.config) = .ok () ∨ edit s.config = s.config := by
  rw [Agrees] at agrees
  rw [retune, if_pos client]
  cases answered : answer (edit s.config) with
  | ok => simp [Agrees, agrees]
  | error e =>
      simp only [Agrees, agrees, Option.map_some, Option.some.injEq, reduceCtorEq, false_or]
      constructor
      · exact fun kept => kept.1
      · exact fun same => ⟨same, fun _ _ => ⟨trivial, same⟩⟩

theorem leavesNothingBehind_iff {s : TunedSource} (client : s.httpClient = true)
    (agrees : s.Agrees) (c : TuningCall) : s.LeavesNothingBehind c ↔ s.Harmless c := by
  cases c with
  | centerFrequency hz answer =>
      apply (retune_leavesNothing_iff client agrees _ answer).trans
      simp [Harmless, CaptureTuning.ext_iff]
  | referenceLevel dbm answer =>
      apply (retune_leavesNothing_iff client agrees _ answer).trans
      simp [Harmless, CaptureTuning.ext_iff]
  | sampleRate hz answer =>
      simp only [LeavesNothingBehind, call, setSampleRateHz, Harmless]
      cases validateIqMode hz defaultReceiverClockHz with
      | error e => simp [agrees]
      | ok =>
          apply (retune_leavesNothing_iff client agrees _ answer).trans
          simp [CaptureTuning.ext_iff]

/-- A session of setter calls leaves nothing behind at any call exactly when every
request in it is accepted, asks for what there is, or is refused unsent. -/
theorem retunes_leaveNothingBehind_iff (config : CaptureTuning) (calls : List TuningCall) :
    Throughout LeavesNothingBehind (initHttpSource config) calls ↔
      Throughout Harmless (initHttpSource config) calls := by
  have start : (initHttpSource config).httpClient = true ∧ (initHttpSource config).Agrees :=
    ⟨rfl, rfl⟩
  generalize initHttpSource config = s at start
  induction calls generalizing s with
  | nil => exact Iff.rfl
  | cons c calls ih =>
      obtain ⟨client, agrees⟩ := start
      simp only [Throughout, ← leavesNothingBehind_iff client agrees c]
      apply and_congr_right
      intro kept
      exact ih _ ⟨(call_httpClient s c).trans client, kept.1⟩

/-- The server refuses the frequency: the reader task keeps it all the same. -/
theorem refused_retune_leavesBehind :
    ¬Throughout LeavesNothingBehind (initHttpSource ⟨100, 10, 0⟩)
      [.centerFrequency 200 fun _ => .error (.protocol "refused")] := by
  intro kept
  have agrees : some (⟨200, 10, 0⟩ : CaptureTuning) = some ⟨100, 10, 0⟩ := kept.1.1
  exact absurd agrees (by decide +kernel)

end TunedSource

end SdrAaronia
