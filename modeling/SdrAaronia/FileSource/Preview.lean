import SdrAaronia.FileSource.ChunkWalk
import SdrAaronia.Lib.Trail

/-! # Preview chunks

A preview chunk names up to sixteen places of the file.  The parser goes on from a
chunk at the first of them that is positive.
-/

namespace SdrAaronia

open HttpStreaming Reading

/-- The values of a reading, one behind the other. -/
def Reading.times {Value : Type} (reading : Reading Value) : Nat → Reading (List Value)
  | 0 => pure []
  | count + 1 => do
      let value ← reading
      let values ← times reading count
      return value :: values

/-- A preview chunk; the times are kept as the bits of their doubles. -/
structure SprvChunk where
  header : RtsaChunkHeader
  previewLevel : UInt8
  previewCount : UInt8
  previewOffsets : List Int
  previewTimes : List UInt64
  previewSamples : List UInt64
  deriving DecidableEq, Repr

namespace SprvChunk

def readFrom (size : UInt32) : Reading SprvChunk := do
  let previewLevel ← u8
  let previewCount ← u8
  seekCurrent (6 : Nat)
  let previewOffsets ← times i64 16
  let previewTimes ← times u64 16
  let previewSamples ← times u64 16
  let sprv : SprvChunk :=
    { header := ⟨chunkId "SPRV", size, 0, 1, 392⟩
      previewLevel, previewCount, previewOffsets, previewTimes, previewSamples }
  if 408 < size.toNat then
    seekCurrent (size.toNat - 408 : Nat)
    return sprv
  else return sprv

/-- Where the parser goes on, zero for nowhere. -/
def treeOffset (sprv : SprvChunk) : Nat := ((sprv.previewOffsets.find? (0 < ·)).getD 0).toNat

end SprvChunk

/-- The chunks that the parser appends; each is kept with its place in the file. -/
structure SprvScan where
  reader : FileReader
  sprvChunks : List (Nat × SprvChunk)

namespace SprvScan

/-- The loop, unless more rounds are needed. -/
def loop : Nat → List Nat → Nat → SprvScan → Option SprvScan
  | 0, _, _, _ => none
  | rounds + 1, visited, treeOffset, s =>
      if 0 < treeOffset ∧ treeOffset ∉ visited then
        match seekStart treeOffset s.reader with
        | (.error _, reader) => some { s with reader }
        | (.ok _, reader) =>
            match RtsaChunkHeader.readFrom reader with
            | (.error _, reader) => some { s with reader }
            | (.ok header, reader) =>
                if header.id ≠ chunkId "SPRV" then some { s with reader }
                else
                  match SprvChunk.readFrom header.size reader with
                  | (.error _, reader) => some { s with reader }
                  | (.ok sprv, reader) =>
                      loop rounds (treeOffset :: visited) sprv.treeOffset
                        { reader, sprvChunks := s.sprvChunks ++ [(treeOffset, sprv)] }
      else some s

end SprvScan

/-- The rounds that are enough for a file: no place is visited twice. -/
def parseSprvTree (treeOffset : Nat) (s : SprvScan) : Option SprvScan :=
  s.loop (s.reader.bytes.length + 1) [] treeOffset

/-! ## The chunk at a place -/

def sprvFields (bytes : Bytes) (pos : Nat) (size : UInt32) : SprvChunk where
  header := ⟨chunkId "SPRV", size, 0, 1, 392⟩
  previewLevel := UInt8.ofNat (numberAt bytes (pos + 16) 1)
  previewCount := UInt8.ofNat (numberAt bytes (pos + 17) 1)
  previewOffsets := (List.range 16).map fun i =>
    (BitVec.ofNat 64 (numberAt bytes (pos + 24 + 8 * i) 8)).toInt
  previewTimes := (List.range 16).map fun i => UInt64.ofNat (numberAt bytes (pos + 152 + 8 * i) 8)
  previewSamples := (List.range 16).map fun i => UInt64.ofNat (numberAt bytes (pos + 280 + 8 * i) 8)

/-- The preview chunk at a place, if the file has all its fields and the chunk ends where a
seek can go. -/
def sprvAt (bytes : Bytes) (pos : Nat) : Option SprvChunk :=
  match headerAt bytes pos with
  | none => none
  | some header =>
      if header.id = chunkId "SPRV" ∧ pos + 408 ≤ bytes.length ∧
          (408 < header.size.toNat → pos + header.size.toNat < 2 ^ 63) then
        some (sprvFields bytes pos header.size)
      else none

/-- The reader after as many numbers of eight bytes. -/
def FileReader.behindNumbers (f : FileReader) (count : Nat) : FileReader :=
  (List.replicate count 8).foldl FileReader.advanced f

theorem FileReader.behindNumbers_position (f : FileReader) (count : Nat) :
    (f.behindNumbers count).position = f.position + 8 * count := by
  induction count generalizing f with
  | zero => rfl
  | succ count ih =>
      have rest := ih (f.advanced 8)
      rw [advanced_position] at rest
      rw [behindNumbers, List.replicate_succ, List.foldl_cons, ← behindNumbers, rest]
      omega

theorem FileReader.behindNumbers_bytes (f : FileReader) (count : Nat) :
    (f.behindNumbers count).bytes = f.bytes := by
  induction count generalizing f with
  | zero => rfl
  | succ count ih =>
      rw [behindNumbers, List.replicate_succ, List.foldl_cons, ← behindNumbers]
      exact ih (f.advanced 8)

theorem times_succ {Value : Type} (reading : Reading Value) (count : Nat) :
    times reading (count + 1) =
      reading >>= fun value => times reading count >>= fun values => pure (value :: values) := rfl

/-- Numbers of eight bytes in a row. -/
theorem times_ok_iff {Value : Type} (convert : Nat → Value) {count : Nat} {f f' : FileReader}
    {values : List Value} :
    (times (number 8 >>= fun n => pure (convert n)) (count + 1)) f = (.ok values, f') ↔
      f.position + 8 * (count + 1) ≤ f.bytes.length ∧
        values = (List.range (count + 1)).map
          (fun i => convert (numberAt f.bytes (f.position + 8 * i) 8)) ∧
        f' = f.behindNumbers (count + 1) := by
  induction count generalizing f f' values with
  | zero =>
      simp only [times, bind_ok_iff, map_number_ok_iff (Nat.succ_pos 7), pure_ok_iff]
      constructor
      · rintro ⟨_, _, ⟨fits, rfl, rfl⟩, _, _, ⟨rfl, rfl⟩, rfl, rfl⟩
        exact ⟨fits, rfl, rfl⟩
      · rintro ⟨fits, rfl, rfl⟩
        exact ⟨_, _, ⟨fits, rfl, rfl⟩, _, _, ⟨rfl, rfl⟩, rfl, rfl⟩
  | succ count ih =>
      have shifted : ∀ i, f.position + 8 + 8 * i = f.position + 8 * (i + 1) := fun i => by omega
      simp only [times_succ _ (count + 1), bind_ok_iff, ih, pure_ok_iff,
        map_number_ok_iff (Nat.succ_pos 7)]
      rw [List.range_succ_eq_map (n := count + 1), List.map_cons, List.map_map]
      constructor
      · rintro ⟨_, _, ⟨fits, rfl, rfl⟩, _, _, ⟨fits', rfl, rfl⟩, rfl, rfl⟩
        simp only [advanced_position, advanced_bytes, shifted] at fits' ⊢
        exact ⟨by omega, rfl, rfl⟩
      · rintro ⟨fits, rfl, rfl⟩
        refine ⟨_, _, ⟨by omega, rfl, rfl⟩, _, _, ⟨?_, rfl, rfl⟩, ?_, rfl⟩
        · simp only [advanced_position, advanced_bytes]
          omega
        · simp only [advanced_position, advanced_bytes, shifted]
          rfl

theorem times_i64_ok_iff {f f' : FileReader} {values : List Int} :
    times i64 16 f = (.ok values, f') ↔ f.position + 128 ≤ f.bytes.length ∧
      values = (List.range 16).map (fun i =>
        (BitVec.ofNat 64 (numberAt f.bytes (f.position + 8 * i) 8)).toInt) ∧
      f' = f.behindNumbers 16 :=
  times_ok_iff fun n => (BitVec.ofNat 64 n).toInt

theorem times_u64_ok_iff {f f' : FileReader} {values : List UInt64} :
    times u64 16 f = (.ok values, f') ↔ f.position + 128 ≤ f.bytes.length ∧
      values = (List.range 16).map (fun i =>
        UInt64.ofNat (numberAt f.bytes (f.position + 8 * i) 8)) ∧
      f' = f.behindNumbers 16 :=
  times_ok_iff UInt64.ofNat

/-- The reader behind a preview chunk. -/
def FileReader.behindSprv (f : FileReader) (pos size : Nat) : FileReader :=
  let padded : FileReader := { (f.advanced 1).advanced 1 with position := pos + 24 }
  let behindFields := ((padded.behindNumbers 16).behindNumbers 16).behindNumbers 16
  if 408 < size then { behindFields with position := pos + size } else behindFields

theorem FileReader.behindSprv_bytes (f : FileReader) (pos size : Nat) :
    (f.behindSprv pos size).bytes = f.bytes := by
  rw [behindSprv]
  split <;> simp only [behindNumbers_bytes, advanced_bytes]

theorem readSprv_ok_iff {f f' : FileReader} {pos : Nat} {size : UInt32} {sprv : SprvChunk}
    (placed : f.position = pos + 16) (short : f.bytes.length < 2 ^ 63) :
    SprvChunk.readFrom size f = (.ok sprv, f') ↔
      pos + 408 ≤ f.bytes.length ∧ (408 < size.toNat → pos + size.toNat < 2 ^ 63) ∧
        sprv = sprvFields f.bytes pos size ∧ f' = f.behindSprv pos size.toNat := by
  have ends : 408 < size.toNat → pos + (408 + (size.toNat - 408)) = pos + size.toNat := by omega
  simp only [SprvChunk.readFrom, bind_ok_iff, u8_ok_iff, times_i64_ok_iff, times_u64_ok_iff,
    seekCurrent_ok_iff, and_assoc, exists_and_left, exists_eq_left, exists_const,
    advanced_position, advanced_bytes, FileReader.behindNumbers_position,
    FileReader.behindNumbers_bytes, placed, Nat.reduceMul]
  rw [FileReader.behindSprv, sprvFields]
  simp only [numberAt, advanced_bytes, Nat.add_assoc, Nat.reduceAdd]
  generalize hf : FileReader.behindNumbers _ 16 = behind
  have position : behind.position = pos + 408 := by
    rw [← hf]
    simp only [FileReader.behindNumbers_position, Nat.add_assoc, Nat.reduceAdd, Nat.reduceMul]
  generalize SprvChunk.mk _ _ _ _ _ _ = fields
  constructor
  · rintro ⟨-, -, -, -, -, fits, rest⟩
    refine ⟨fits, ?_⟩
    split at rest
    · rename_i large
      obtain ⟨u, f₁, sought, read⟩ := bind_ok_iff.mp rest
      obtain ⟨near, rfl⟩ := seekCurrent_ok_iff.mp sought
      obtain ⟨rfl, rfl⟩ := pure_ok_iff.mp read
      rw [position, Nat.add_assoc, ends large] at near ⊢
      rw [if_pos large]
      exact ⟨fun _ => near, rfl, rfl⟩
    · rename_i small
      rw [if_neg small]
      obtain ⟨rfl, rfl⟩ := pure_ok_iff.mp rest
      exact ⟨fun large => absurd large small, rfl, rfl⟩
  · rintro ⟨fits, near, rfl, rfl⟩
    refine ⟨by omega, by omega, by omega, by omega, by omega, fits, ?_⟩
    split
    · rename_i large
      have near := near large
      rw [← ends large, ← Nat.add_assoc, ← position] at near ⊢
      exact bind_ok_iff.mpr ⟨(), _, seekCurrent_ok_iff.mpr ⟨near, rfl⟩, rfl⟩
    · rfl

theorem keeps_times {Value : Type} {reading : Reading Value} (keeps : Keeps reading)
    (count : Nat) : Keeps (times reading count) := by
  induction count with
  | zero => exact keeps_pure _
  | succ count ih => exact keeps.bind fun _ => ih.bind fun _ => keeps_pure _

theorem keeps_readSprv (size : UInt32) : Keeps (SprvChunk.readFrom size) := by
  refine keeps_u8.bind fun _ => keeps_u8.bind fun _ => (keeps_seekCurrent _).bind fun _ =>
    (keeps_times keeps_i64 16).bind fun _ => (keeps_times keeps_u64 16).bind fun _ =>
      (keeps_times keeps_u64 16).bind fun _ => ?_
  split
  · exact (keeps_seekCurrent _).bind fun _ => keeps_pure _
  · exact keeps_pure _

/-- A reader moved to a place, behind the header there. -/
def FileReader.behindHeaderAt (f : FileReader) (offset : Nat) : FileReader :=
  ({ f with position := offset } : FileReader).behindHeader

theorem readSprv_behindHeader_ok_iff {f f' : FileReader} {offset : Nat} {size : UInt32}
    {sprv : SprvChunk} (short : f.bytes.length < 2 ^ 63) :
    SprvChunk.readFrom size (f.behindHeaderAt offset) = (.ok sprv, f') ↔
      offset + 408 ≤ f.bytes.length ∧ (408 < size.toNat → offset + size.toNat < 2 ^ 63) ∧
        sprv = sprvFields f.bytes offset size ∧
        f' = (f.behindHeaderAt offset).behindSprv offset size.toNat := by
  have placed : (f.behindHeaderAt offset).position = offset + 16 := rfl
  have kept : (f.behindHeaderAt offset).bytes = f.bytes := rfl
  rw [readSprv_ok_iff placed (kept.symm ▸ short), kept]

/-! ## The loop -/

/-- Where the parser goes on from a place that has a preview chunk. -/
def previewStep (bytes : Bytes) (offset : Nat) : Option Nat :=
  if 0 < offset then (sprvAt bytes offset).map SprvChunk.treeOffset else none

/-- The chunks at the places of a trail. -/
def sprvChunksAt (bytes : Bytes) (trail : List Nat) : List (Nat × SprvChunk) :=
  trail.filterMap fun offset => (sprvAt bytes offset).map (offset, ·)

theorem sprvAt_some {bytes : Bytes} {pos : Nat} {sprv : SprvChunk}
    (found : sprvAt bytes pos = some sprv) : pos + 408 ≤ bytes.length := by
  rw [sprvAt] at found
  split at found
  · cases found
  · exact (Option.ite_none_right_eq_some.mp found).1.2.1

namespace SprvScan

/-- A place without a preview chunk ends the loop. -/
theorem loop_none {rounds offset : Nat} {visited : List Nat} {s : SprvScan}
    (short : s.reader.bytes.length < 2 ^ 63) (missing : sprvAt s.reader.bytes offset = none) :
    ∃ reader, loop (rounds + 1) visited offset s = some { s with reader } ∧
      reader.bytes = s.reader.bytes := by
  rw [loop]
  split
  · rcases s.reader.seekStart_cases offset with ⟨-, moved⟩ | ⟨-, refused⟩
    · rw [seekStart, moved]
      simp only
      split
      · rename_i e f failed
        refine ⟨f, rfl, ?_⟩
        have kept := keeps_readHeader { s.reader with position := offset }
        rwa [failed] at kept
      · rename_i header f read
        obtain ⟨found, rfl⟩ := readHeader_ok_iff.mp read
        simp only at found
        split
        · exact ⟨_, rfl, rfl⟩
        · rename_i known
          split
          · rename_i e f failed
            refine ⟨f, rfl, ?_⟩
            have kept := keeps_readSprv header.size (s.reader.behindHeaderAt offset)
            rw [FileReader.behindHeaderAt, failed] at kept
            exact kept
          · rename_i sprv f body
            obtain ⟨fits, near, -, -⟩ := (readSprv_behindHeader_ok_iff short).mp body
            rw [sprvAt, found] at missing
            simp only [not_not.mp known, true_and] at missing
            rw [if_pos ⟨fits, near⟩] at missing
            cases missing
    · rw [seekStart, refused]
      exact ⟨s.reader, rfl, rfl⟩
  · exact ⟨s.reader, rfl, rfl⟩

/-- A preview chunk that was not visited before is appended. -/
theorem loop_some (rounds : Nat) {offset : Nat} {visited : List Nat} {s : SprvScan}
    {sprv : SprvChunk}
    (short : s.reader.bytes.length < 2 ^ 63) (positive : 0 < offset) (fresh : offset ∉ visited)
    (found : sprvAt s.reader.bytes offset = some sprv) :
    ∃ reader, reader.bytes = s.reader.bytes ∧ loop (rounds + 1) visited offset s =
      loop rounds (offset :: visited) sprv.treeOffset
        ⟨reader, s.sprvChunks ++ [(offset, sprv)]⟩ := by
  have inside := sprvAt_some found
  rw [sprvAt] at found
  split at found
  · cases found
  · rename_i header headed
    obtain ⟨⟨known, fits, near⟩, same⟩ := Option.ite_none_right_eq_some.mp found
    cases same
    have moved : s.reader.seekStart offset = .ok { s.reader with position := offset } :=
      if_pos (by omega)
    have begun : RtsaChunkHeader.readFrom { s.reader with position := offset } =
        (.ok header, s.reader.behindHeaderAt offset) :=
      readHeader_ok_iff.mpr ⟨headed, rfl⟩
    have body : SprvChunk.readFrom header.size (s.reader.behindHeaderAt offset) =
        (.ok (sprvFields s.reader.bytes offset header.size), _) :=
      (readSprv_behindHeader_ok_iff short).mpr ⟨fits, near, rfl, rfl⟩
    refine ⟨(s.reader.behindHeaderAt offset).behindSprv offset header.size.toNat,
      FileReader.behindSprv_bytes _ _ _, ?_⟩
    rw [loop, if_pos ⟨positive, fresh⟩, seekStart, moved]
    simp only [begun, known, ne_eq, not_true_eq_false, if_false, body]

/-- The loop appends the chunks of the trail. -/
theorem loop_follow {rounds offset : Nat} {visited trail : List Nat} {s : SprvScan}
    (short : s.reader.bytes.length < 2 ^ 63)
    (followed : Trail.follow (previewStep s.reader.bytes) rounds visited offset = some trail) :
    ∃ reader, loop rounds visited offset s =
        some ⟨reader, s.sprvChunks ++ sprvChunksAt s.reader.bytes trail⟩ ∧
      reader.bytes = s.reader.bytes := by
  induction rounds generalizing visited offset trail s with
  | zero => cases followed
  | succ rounds ih =>
      rw [Trail.follow] at followed
      split at followed
      · rename_i old
        refine ⟨s.reader, ?_, rfl⟩
        rw [loop, if_neg fun new => new.2 old, ← Option.some.inj followed, sprvChunksAt,
          List.filterMap_nil, List.append_nil]
      · rename_i fresh
        cases steps : previewStep s.reader.bytes offset with
        | none =>
            rw [steps] at followed
            rw [← Option.some.inj followed, sprvChunksAt, List.filterMap_nil, List.append_nil]
            rw [previewStep] at steps
            split at steps
            · exact loop_none short (Option.map_eq_none_iff.mp steps)
            · rename_i zero
              exact ⟨s.reader, by rw [loop, if_neg fun new => zero new.1], rfl⟩
        | some next =>
            rw [steps] at followed
            obtain ⟨rest, onward, rfl⟩ := Option.map_eq_some_iff.mp followed
            obtain ⟨positive, mapped⟩ := Option.ite_none_right_eq_some.mp steps
            obtain ⟨sprv, found, rfl⟩ := Option.map_eq_some_iff.mp mapped
            obtain ⟨reader, kept, first⟩ := loop_some rounds short positive fresh found
            rw [← kept] at short onward
            obtain ⟨reader', looped, kept'⟩ := ih (s := ⟨reader, s.sprvChunks ++ [(offset, sprv)]⟩)
              short onward
            refine ⟨reader', ?_, kept'.trans kept⟩
            rw [first, looped, sprvChunksAt, sprvChunksAt, List.filterMap_cons, kept, found]
            simp only [Option.map_some, List.append_assoc, List.singleton_append]

end SprvScan

/-- On every file the parser ends, having appended the chunks of a trail. -/
theorem parseSprvTree_follow {bytes : Bytes} (short : bytes.length < 2 ^ 63) (treeOffset : Nat) :
    ∃ trail, trail.Nodup ∧
      (∀ offset, offset ∈ trail ↔ Trail.LeadsTo (previewStep bytes) treeOffset offset) ∧
      ∀ s : SprvScan, s.reader.bytes = bytes → ∃ reader,
        parseSprvTree treeOffset s = some ⟨reader, s.sprvChunks ++ sprvChunksAt bytes trail⟩ := by
  have within : ∀ offset next, previewStep bytes offset = some next →
      offset ∈ List.range bytes.length := by
    intro offset next steps
    obtain ⟨-, mapped⟩ := Option.ite_none_right_eq_some.mp steps
    obtain ⟨sprv, found, -⟩ := Option.map_eq_some_iff.mp mapped
    have inside := sprvAt_some found
    exact List.mem_range.mpr (by omega)
  obtain ⟨trail, followed⟩ := Trail.follow_ends within List.nodup_nil
    (fun _ member => absurd member List.not_mem_nil)
    (by rw [List.length_range, List.length_nil]; exact Nat.lt_succ_self _) treeOffset
  refine ⟨trail, (Trail.follow_leads followed).1, fun _ => Trail.mem_follow_iff followed, ?_⟩
  rintro s rfl
  obtain ⟨reader, parsed, -⟩ := SprvScan.loop_follow short followed
  exact ⟨reader, parsed⟩

end SdrAaronia
