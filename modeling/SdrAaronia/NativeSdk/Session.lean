import SdrAaronia.NativeSdk.Deadline

/-! # Reads of one session

Whatever reads of either path a session has made, and however they ended, the next one hands
out samples of one geometry and leaves the source reporting it.
-/

namespace SdrAaronia.NativeSdk

variable {Real : Type}

/-- A source and the SDK's queue between two reads. -/
structure NativeSession (Real : Type) where
  source : NativeSdkSource Real
  queue : List (Packet Real)

namespace NativeSession

def monoCall (session : NativeSession Real) (request : ReadRequest Real) :
    ReadCall Real (PacketSample Real) :=
  session.source.readSamplesWithin session.queue request.maxSamples request.pollBudget
    request.polls

def dualCall (session : NativeSession Real) (request : ReadRequest Real) :
    ReadCall Real (PacketSample Real × PacketSample Real) :=
  session.source.readSamplesDualWithin session.queue request.maxSamples request.pollBudget
    request.polls

/-- The sessions that reads lead to, mono and dual in any order, failing or not. -/
inductive Reached (start : NativeSession Real) : NativeSession Real → Prop where
  | start : Reached start start
  | mono {session : NativeSession Real} (request : ReadRequest Real)
      (reached : Reached start session) (returned : (session.monoCall request).outcome ≠ none) :
      Reached start ⟨(session.monoCall request).source, (session.monoCall request).queue⟩
  | dual {session : NativeSession Real} (request : ReadRequest Real)
      (reached : Reached start session) (returned : (session.dualCall request).outcome ≠ none) :
      Reached start ⟨(session.dualCall request).source, (session.dualCall request).queue⟩

theorem Reached.sound {start session : NativeSession Real} (reached : start.Reached session)
    (drained : start.source.Drained) : session.source.Sound := by
  induction reached with
  | start => exact drained.sound
  | mono request reached returned ih =>
      exact ih.monoRead _ request.maxSamples request.pollBudget request.polls
  | dual request reached returned ih =>
      exact ih.dualRead _ request.maxSamples request.pollBudget request.polls

end NativeSession

/-- What one read handed out is of one geometry, and the source then reports that. -/
theorem oneGeometry_reported {Item : Type} {path : ReadPath Real Item}
    {origin : Origin path} {items : List Item} {s : NativeSdkSource Real}
    (one : origin.OneGeometry items s) :
    ∃ g, (∀ item ∈ items, origin.From g item) ∧
      (items ≠ [] → ∀ source ∈ Option.some s, source.observed = IqGeometry.declared g) := by
  obtain ⟨g, all, observed⟩ := one
  refine ⟨g, all, fun some source same => ?_⟩
  cases same
  exact observed some

/-- After any reads of a session, the next one appends samples of packets of one geometry, and
if it appended any, the source reports exactly that geometry. -/
theorem reads_map_to_one_geometry {start session : NativeSession Real}
    (drained : start.source.Drained) (reached : start.Reached session)
    (request : ReadRequest Real) :
    Unmixed (session.monoCall request).out (some (session.monoCall request).source) ∧
      Unmixed ((session.dualCall request).rx1 ++ (session.dualCall request).rx2)
        (some (session.dualCall request).source) := by
  have sound := reached.sound drained
  constructor
  · exact oneGeometry_reported (ReadPath.readWithin_oneGeometry session.queue request.maxSamples
      request.pollBudget request.polls sound.mono).1
  · rw [ReadCall.rx1, ReadCall.rx2, unmixed_pairs]
    exact oneGeometry_reported (ReadPath.readWithin_oneGeometry session.queue request.maxSamples
      request.pollBudget request.polls sound.dual).1

/-- A packet of three samples, an empty one of another geometry, and one to follow. -/
def interleaved : NativeSession Nat :=
  ⟨streaming, [packetOf 3 2 10, packetOf 0 2 20, packetOf 1 2 20]⟩

/-- Two samples of the first packet, with its third held over. -/
def interleavedRead : ReadRequest Nat := ⟨2, 0, [⟨[], none, none, 0⟩]⟩

/-- The session that the first read leaves. -/
def interleavedNext : NativeSession Nat :=
  ⟨(interleaved.monoCall interleavedRead).source, (interleaved.monoCall interleavedRead).queue⟩

theorem interleavedNext_reached : interleaved.Reached interleavedNext :=
  .mono interleavedRead .start (by decide +kernel)

theorem reads_map_to_one_geometry_carry_over :
    Unmixed (interleavedNext.monoCall interleavedRead).out
        (some (interleavedNext.monoCall interleavedRead).source) ∧
      (interleavedNext.monoCall interleavedRead).out.length = 1 :=
  ⟨(reads_map_to_one_geometry ⟨rfl, rfl⟩ interleavedNext_reached interleavedRead).1,
    by decide +kernel⟩

end SdrAaronia.NativeSdk
