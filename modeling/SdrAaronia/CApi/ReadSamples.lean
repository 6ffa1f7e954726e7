import SdrAaronia.NativeSdk.Forfeit
import SdrAaronia.UnifiedSource.Session

/-! # The C reads

Each of the four reads has the source fill a staging buffer, and copies that out to the caller only
when the source's read succeeded.  Staged samples that come with an error reach nobody.
-/

namespace SdrAaronia.CApi

open NativeSdk

variable {Source Item Real Sample : Type}

inductive RuntimeFlavor where
  | currentThread
  | multiThread
  deriving DecidableEq, Repr

/-- Who calls: whether all its pointers are non-null, and the runtime its thread is in. -/
structure Caller where
  pointers : Bool
  runtime : Option RuntimeFlavor

/-- Wait for a future on the calling thread, where that cannot deadlock. -/
def ffiBlockOn {Output : Type} (runtime : Option RuntimeFlavor) (output : Output) :
    Except String Output :=
  match runtime with
  | some .multiThread | none => .ok output
  | some .currentThread =>
    .error "FFI entry point called from within a current-thread tokio runtime; blocking here would deadlock the reactor. Call from a non-async thread (or a multi-threaded runtime) instead."

/-- What the source made of a read; without an outcome it still waits. -/
structure Staged (Source Item : Type) where
  source : Source
  buffer : List Item
  outcome : Option (Except Error Nat)

/-- The calling thread's last-error message. -/
inductive LastError where
  | message (entry text : String)
  | failed (entry : String) (error : Error)
  deriving DecidableEq, Repr

/-- What a C read leaves its caller; without a code it has not returned. -/
structure FfiRead (Source Item : Type) where
  source : Source
  written : List Item
  code : Option Int
  lastError : Option LastError

/-- One of the C reads: its name, what it says of null pointers, and whether it tells timeouts
from other errors. -/
structure ReadEntry where
  name : String
  nullPointer : String
  tellsTimeout : Bool

def ReadEntry.errorCode (entry : ReadEntry) : Error → Int
  | .timedOut _ => if entry.tellsTimeout then -3 else -1
  | _ => -1

/-- The staging buffer is copied out as far as the caller has room and the source counted. -/
def ReadEntry.call (entry : ReadEntry) (caller : Caller) (source : Source) (len : Nat)
    (read : Source → Nat → Staged Source Item) : FfiRead Source Item :=
  if caller.pointers = false then
    ⟨source, [], some (-1), some (.message entry.name entry.nullPointer)⟩
  else
    match ffiBlockOn caller.runtime (read source len) with
    | .error context => ⟨source, [], some (-1), some (.message entry.name context)⟩
    | .ok staged =>
        match staged.outcome with
        | none => ⟨staged.source, [], none, none⟩
        | some (.ok samplesToCopy) =>
            let copied := min (min samplesToCopy len) staged.buffer.length
            ⟨staged.source, staged.buffer.take copied, some copied, none⟩
        | some (.error error) =>
            ⟨staged.source, [], some (entry.errorCode error), some (.failed entry.name error)⟩

def spectranSourceReadSamples : ReadEntry :=
  ⟨"spectran_source_read_samples", "source or buffer pointer is null", true⟩

def spectranSourceReadSamplesTimeout : ReadEntry :=
  ⟨"spectran_source_read_samples_timeout", "source or buffer pointer is null", true⟩

def spectranSourceReadSamplesDual : ReadEntry :=
  ⟨"spectran_source_read_samples_dual", "null pointer", false⟩

def spectranSourceReadSamplesDualTimeout : ReadEntry :=
  ⟨"spectran_source_read_samples_dual_timeout", "null pointer", true⟩

/-! ## The native backend -/

/-- How long a read without a deadline polls for a packet, in microseconds. -/
def readPollDeadline : Nat := 500000

/-- A mono or dual C read on a native source: the two entries, the source's reads behind them, and
what they make of a packet. -/
structure NativePort (Real Item : Type) where
  path : ReadPath Real Item
  noSamples : String
  plain : ReadEntry
  bounded : ReadEntry
  yields : Packet Real → List Item
  handled : ∀ p, (path.handling p).items = yields p

def monoPort : NativePort Real (PacketSample Real) where
  path := monoPath
  noSamples := monoNoSamples
  plain := spectranSourceReadSamples
  bounded := spectranSourceReadSamplesTimeout
  yields p := if p.MonoWellFormed then p.monoSamples else []
  handled := Packet.monoHandling_items

/-- The pairs' first samples go to the caller's `rx1`, their second to its `rx2`. -/
def dualPort : NativePort Real (PacketSample Real × PacketSample Real) where
  path := dualPath
  noSamples := dualNoSamples
  plain := spectranSourceReadSamplesDual
  bounded := spectranSourceReadSamplesDualTimeout
  yields p := if p.DualWellFormed then p.dualSamples else []
  handled := Packet.dualHandling_items

/-- A call of either entry, with what its polls find. -/
inductive NativeCall (Real : Type) where
  | plain (caller : Caller) (len : Nat) (polls : List (Poll Real))
  | bounded (caller : Caller) (request : DeadlineRequest Real)

def NativeCall.caller : NativeCall Real → Caller
  | .plain caller _ _ | .bounded caller _ => caller

def NativeCall.len : NativeCall Real → Nat
  | .plain _ len _ => len
  | .bounded _ request => request.maxSamples

def NativeCall.polls : NativeCall Real → List (Poll Real)
  | .plain _ _ polls => polls
  | .bounded _ request => request.rounds.flatMap Round.polls

/-- The vendor takes back every packet that a read has finished with. -/
def NativeCall.GivesBack (call : NativeCall Real) : Prop :=
  ∀ poll ∈ call.polls, poll.consumeError = none

namespace NativePort

variable (port : NativePort Real Item)

def entry : NativeCall Real → ReadEntry
  | .plain .. => port.plain
  | .bounded .. => port.bounded

/-- The native arm of the source's reads. -/
def read (call : NativeCall Real) (backend : NativeBackend Real) (len : Nat) :
    Staged (NativeBackend Real) Item :=
  match call with
  | .plain _ _ polls =>
    match backend.native with
    | none => ⟨backend, [], some (.error (.config "Native SDK source not initialized"))⟩
    | some source =>
      let read := port.path.readWithin source backend.queue len readPollDeadline polls
      ⟨⟨some read.source, read.queue⟩, read.out, read.outcome⟩
  | .bounded _ request =>
    let read := port.path.readDeadline port.noSamples backend.native backend.queue
      { request with maxSamples := len }
    ⟨⟨read.native, read.queue⟩, read.out, read.outcome⟩

def call (backend : NativeBackend Real) (call : NativeCall Real) :
    FfiRead (NativeBackend Real) Item :=
  (port.entry call).call call.caller backend call.len (port.read call)

end NativePort

/-! ## The HTTP backend -/

/-- A call of one of the four entries, with the packets that come in time. -/
inductive HttpCall where
  | plain (caller : Caller) (len inTime : Nat)
  | bounded (caller : Caller) (len inTime : Nat)

/-- The HTTP arm of `read_samples` and `read_samples_deadline`. -/
def httpRead (inTime : Nat) (source : SpectranSource Sample) (len : Nat) :
    Staged (SpectranSource Sample) Sample :=
  let read := source.readSamplesDeadline [] len inTime
  ⟨read.source, read.buffer, some read.result⟩

/-- The dual reads are for the native backend only. -/
def httpReadDual (method : String) (source : SpectranSource Sample) (_len : Nat) :
    Staged (SpectranSource Sample) (Sample × Sample) :=
  ⟨source, [], some (.error (.config s!"{method} requires the native SDK backend with receiver_channel = Rx1And2; current backend is Http"))⟩

def httpCall (source : SpectranSource Sample) : HttpCall → FfiRead (SpectranSource Sample) Sample
  | .plain caller len inTime =>
    spectranSourceReadSamples.call caller source len (httpRead inTime)
  | .bounded caller len inTime =>
    spectranSourceReadSamplesTimeout.call caller source len (httpRead inTime)

def httpCallDual (source : SpectranSource Sample) :
    HttpCall → FfiRead (SpectranSource Sample) (Sample × Sample)
  | .plain caller len _ =>
    spectranSourceReadSamplesDual.call caller source len (httpReadDual "read_samples_dual")
  | .bounded caller len _ =>
    spectranSourceReadSamplesDualTimeout.call caller source len
      (httpReadDual "read_samples_dual_deadline")

end SdrAaronia.CApi
