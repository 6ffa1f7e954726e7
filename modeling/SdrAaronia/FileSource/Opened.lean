import SdrAaronia.FileSource.Open

/-! # Opened files

What the parser found becomes a source that can be played, or an error that says what
is missing.
-/

namespace SdrAaronia

open HttpStreaming Reading

/-! ## The index -/

variable {bytes : Bytes}

/-- The walk visits chunks from where it starts up to where it stops, one behind the other. -/
theorem walk_placed (bytes : Bytes) (stop pos : Nat) :
    (∀ chunk ∈ (referenceWalk bytes stop pos).2, pos ≤ chunk.1 ∧ chunk.1 < stop) ∧
      (referenceWalk bytes stop pos).2.Pairwise fun a b => a.1 < b.1 := by
  induction left : stop - pos using Nat.strong_induction_on generalizing pos with
  | _ distance ih =>
      rw [referenceWalk]
      split
      · rename_i more
        -- Visits behind a later place are behind this one.
        have later : ∀ next, pos < next →
            (∀ chunk ∈ (referenceWalk bytes stop next).2, next ≤ chunk.1 ∧ chunk.1 < stop) ∧
              (referenceWalk bytes stop next).2.Pairwise fun a b => a.1 < b.1 :=
          fun next forward => ih (stop - next) (by omega) next rfl
        split
        · split
          · rename_i next found
            have forward := (nextKnownId_ge found).1
            obtain ⟨placed, ordered⟩ := later next forward
            exact ⟨fun chunk member => ⟨by have := placed chunk member; omega,
              (placed chunk member).2⟩, ordered⟩
          · exact ⟨fun chunk member => absurd member List.not_mem_nil, List.Pairwise.nil⟩
        · rename_i header known
          have large := (knownHeaderAt_some known).2.1
          obtain ⟨placed, ordered⟩ := later (pos + header.size.toNat) (by omega)
          split
          · split
            · exact ⟨fun chunk member => absurd member List.not_mem_nil, List.Pairwise.nil⟩
            · constructor
              · intro chunk member
                cases List.mem_cons.mp member with
                | inl same =>
                    rw [same]
                    exact ⟨Nat.le_refl pos, more⟩
                | inr member =>
                    have := placed chunk member
                    omega
              · refine List.pairwise_cons.mpr ⟨fun chunk member => ?_, ordered⟩
                have := placed chunk member
                simp only
                omega
          · exact ⟨fun chunk member => by have := placed chunk member; omega, ordered⟩
      · exact ⟨fun chunk member => absurd member List.not_mem_nil, List.Pairwise.nil⟩

/-- An index of chunks inside the file, in file order. -/
def Indexes (bytes : Bytes) (chunks : List (Nat × SampChunk)) : Prop :=
  (∀ chunk ∈ chunks, chunk.1 < bytes.length) ∧ chunks.Pairwise fun a b => a.1 < b.1

theorem sampsBetween_indexes {startPos endPos : Nat} {state state' : RtsaParseState}
    (fresh : state.sampChunkOffsets = [])
    (found : sampsBetween bytes startPos endPos state = some state') :
    Indexes bytes state'.sampChunkOffsets := by
  obtain ⟨placed, ordered⟩ := walk_placed bytes (min endPos bytes.length) startPos
  obtain ⟨-, same⟩ := Option.ite_none_right_eq_some.mp found
  cases same
  rw [fresh]
  refine ⟨fun chunk member => ?_, ordered⟩
  have := placed chunk member
  omega

theorem streamAt_samps {place : Nat} {state state' : RtsaParseState}
    (found : streamAt bytes place state = some state') :
    state'.sampChunkOffsets = state.sampChunkOffsets := by
  obtain ⟨header, -, rest⟩ := Option.bind_eq_some_iff.mp found
  split at rest
  · obtain ⟨strm, -, rfl⟩ := Option.map_eq_some_iff.mp rest
    rfl
  · cases rest
    rfl

theorem capture_indexes {state : RtsaParseState} {streamOffset : Option Nat}
    (held : captureOf bytes = some (state, streamOffset)) :
    Indexes bytes state.sampChunkOffsets := by
  obtain ⟨dsft, -, rest⟩ := Option.bind_eq_some_iff.mp held
  obtain ⟨dsfh, -, rest⟩ := Option.bind_eq_some_iff.mp rest
  obtain ⟨-, rest⟩ := Option.ite_none_left_eq_some.mp rest
  obtain ⟨state', streams, same⟩ := Option.map_eq_some_iff.mp rest
  cases same
  cases tailed : streamTailOf bytes dsft.streamOffset with
  | some strt =>
      rw [tailed] at streams
      obtain ⟨state₁, scanned, rfl⟩ := Option.map_eq_some_iff.mp streams
      obtain ⟨state₀, begun, walked⟩ := Option.bind_eq_some_iff.mp scanned
      have indexes := sampsBetween_indexes (streamAt_samps begun) walked
      exact indexes
  | none =>
      rw [tailed] at streams
      obtain ⟨state₀, begun, walked⟩ := Option.bind_eq_some_iff.mp streams
      obtain ⟨place, -, begun⟩ := Option.bind_eq_some_iff.mp begun
      obtain ⟨-, walked⟩ := Option.ite_none_left_eq_some.mp walked
      exact sampsBetween_indexes (streamAt_samps begun) walked

namespace RtsaParseState

variable (state : RtsaParseState)

def sstrMissing : Error := .fileFormat 0 "Missing SSTR chunk for IQ stream"
def nothingForStream : Error := .fileFormat 0 "No SAMP chunks or STRT metadata found for IQ stream"

def ofStream (iqStreamId : UInt64) (chunk : Nat × SampChunk) : Bool :=
  chunk.2.streamId == iqStreamId.toNat

/-- The samples that the stream's tail tells of, or the raw samples in front of it. -/
def declaredSamples (iqStreamId : UInt64) (streamOffset : Option Nat) : Except Error Nat :=
  match state.sampChunkOffsets.find? (ofStream iqStreamId) with
  | some chunk =>
      if (state.sstrChunks.lookup (UInt32.ofNat chunk.2.subStreamId)).isSome then
        .ok ((state.strtChunk.map (·.numSamples.toNat)).getD 0)
      else .error sstrMissing
  | none =>
      if state.strtChunk.isSome ∨ state.sampChunkOffsets = [] then .ok (streamOffset.getD 0 / 8)
      else .error nothingForStream

/-- Where no samples are told of, those of the chunks are counted. -/
def totalSamples (iqStreamId : UInt64) (streamOffset : Option Nat) : Except Error Nat :=
  match state.declaredSamples iqStreamId streamOffset with
  | .error e => .error e
  | .ok 0 => .ok ((state.sampChunkOffsets.filter (ofStream iqStreamId)).map (·.2.numSamples)).sum
  | .ok declared => .ok declared

def subStreams : List SubStreamInfo :=
  state.sstrChunks.entries.map fun entry =>
    { subStreamId := entry.2.subStreamId.toNat
      valueMinimum := .ofBits entry.2.valueMinimum
      valueMaximum := .ofBits entry.2.valueMaximum }

end RtsaParseState

/-! ## Opening -/

namespace RtsaSource

end RtsaSource

end SdrAaronia
