import SdrAaronia.FileSource.ChunkWalk

/-! # Chains of chunks

Chunks written one behind the other, and what a scan over them appends.
-/

namespace SdrAaronia

open HttpStreaming Reading

/-- A chunk as it is written; the size counts the header too. -/
structure RtsaChunk where
  id : Bytes
  flags : UInt32
  version : UInt16
  headerSize : UInt16
  body : Bytes

namespace RtsaChunk

def size (c : RtsaChunk) : Nat := 16 + c.body.length

def encode (c : RtsaChunk) : Bytes :=
  c.id ++ (LittleEndian.encode 4 c.size ++ (LittleEndian.encode 4 c.flags.toNat ++
    (LittleEndian.encode 2 c.version.toNat ++ (LittleEndian.encode 2 c.headerSize.toNat ++
      c.body))))

/-- A known id, an allowed size, and in a SAMP chunk room for its fields. -/
structure WellFormed (c : RtsaChunk) : Prop where
  known : isValidRtsaChunkId c.id = true
  allowed : c.size ≤ maxRtsaChunkSize
  fields : c.id = chunkId "SAMP" → 48 ≤ c.body.length

/-- The fields of a SAMP chunk. -/
def samp (c : RtsaChunk) : SampChunk := sampFields c.encode 0 (UInt32.ofNat c.size) c.headerSize

/-- The SAMP chunks of a chain and where they start. -/
def sampChunks : Nat → List RtsaChunk → List (Nat × SampChunk)
  | _, [] => []
  | pos, c :: chunks =>
      (if c.id = chunkId "SAMP" then [(pos, c.samp)] else []) ++ sampChunks (pos + c.size) chunks

theorem known_length {id : Bytes} (known : isValidRtsaChunkId id = true) : id.length = 4 := by
  simp only [isValidRtsaChunkId, List.any_eq_true, beq_iff_eq] at known
  obtain ⟨name, member, rfl⟩ := known
  simp only [List.mem_cons, List.not_mem_nil, or_false] at member
  rcases member with rfl | rfl | rfl | rfl | rfl | rfl | rfl | rfl | rfl | rfl | rfl <;> rfl

theorem WellFormed.encode_length {c : RtsaChunk} (sound : c.WellFormed) :
    c.encode.length = c.size := by
  have id := known_length sound.known
  simp only [encode, size, List.length_append, LittleEndian.encode_length, id]
  omega

/-! ## Windows on what is written -/

theorem window_written {before written after : Bytes} {pos width : Nat}
    (starts : pos = before.length) (ends : width = written.length) :
    window (before ++ (written ++ after)) pos width = written := by
  rw [window, starts, ends, List.drop_left, List.take_left]

theorem window_inside {before written after : Bytes} {k width : Nat}
    (inside : k + width ≤ written.length) :
    window (before ++ written ++ after) (before.length + k) width = window written k width := by
  rw [window, window, List.append_assoc, ← List.drop_drop, List.drop_left,
    List.drop_append_of_le_length (by omega), List.take_append_of_le_length (by
      rw [List.length_drop]
      omega)]

theorem numberAt_written {before after : Bytes} {pos width n : Nat}
    (starts : pos = before.length) (fits : n < 256 ^ width) :
    numberAt (before ++ (LittleEndian.encode width n ++ after)) pos width = n := by
  rw [numberAt, window_written starts (LittleEndian.encode_length width n).symm,
    LittleEndian.decode_encode fits]

theorem sampFields_inside {before written after : Bytes} (size : UInt32) (headerSize : UInt16)
    (long : 64 ≤ written.length) :
    sampFields (before ++ written ++ after) before.length size headerSize =
      sampFields written 0 size headerSize := by
  have inside : ∀ k width, k + width ≤ 64 →
      numberAt (before ++ written ++ after) (before.length + k) width =
        numberAt written (0 + k) width := by
    intro k width small
    rw [numberAt, numberAt, window_inside (by omega), Nat.zero_add]
  simp only [sampFields, SampChunk.mk.injEq]
  rw [inside 16 8 (by omega), inside 24 4 (by omega), inside 28 1 (by omega),
    inside 30 1 (by omega), inside 31 1 (by omega), inside 52 4 (by omega),
    inside 60 4 (by omega)]
  simp only [and_self]

theorem numberAt_encode {c : RtsaChunk} (before after first : Bytes) {rest : Bytes}
    {pos width n : Nat} (layout : c.encode = first ++ (LittleEndian.encode width n ++ rest))
    (placed : pos = before.length + first.length) (fits : n < 256 ^ width) :
    numberAt (before ++ c.encode ++ after) pos width = n := by
  have whole : before ++ c.encode ++ after =
      (before ++ first) ++ (LittleEndian.encode width n ++ (rest ++ after)) := by
    rw [layout]
    simp only [List.append_assoc]
  rw [whole]
  exact numberAt_written (placed.trans List.length_append.symm) fits

/-- The header of a written chunk is read back. -/
theorem WellFormed.knownHeaderAt {c : RtsaChunk} (sound : c.WellFormed) (before after : Bytes) :
    knownHeaderAt (before ++ c.encode ++ after) before.length = some
      { id := c.id, size := UInt32.ofNat c.size, flags := c.flags, version := c.version,
        headerSize := c.headerSize } := by
  have id := known_length sound.known
  have allowed := sound.allowed
  have bound : maxRtsaChunkSize < 256 ^ 4 := by decide
  have name : window (before ++ c.encode ++ after) before.length 4 = c.id := by
    rw [List.append_assoc, encode, List.append_assoc]
    exact window_written rfl id.symm
  have size : numberAt (before ++ c.encode ++ after) (before.length + 4) 4 = c.size :=
    numberAt_encode before after c.id rfl (by rw [id]) (by omega)
  have flags : numberAt (before ++ c.encode ++ after) (before.length + 8) 4 = c.flags.toNat :=
    numberAt_encode before after (c.id ++ LittleEndian.encode 4 c.size)
      (by rw [List.append_assoc]; rfl) (by simp [id]) c.flags.toNat_lt
  have version : numberAt (before ++ c.encode ++ after) (before.length + 12) 2 =
      c.version.toNat :=
    numberAt_encode before after
      (c.id ++ (LittleEndian.encode 4 c.size ++ LittleEndian.encode 4 c.flags.toNat))
      (by simp only [List.append_assoc]; rfl) (by simp [id]) c.version.toNat_lt
  have headerSize : numberAt (before ++ c.encode ++ after) (before.length + 14) 2 =
      c.headerSize.toNat :=
    numberAt_encode before after
      (c.id ++ (LittleEndian.encode 4 c.size ++ (LittleEndian.encode 4 c.flags.toNat ++
        LittleEndian.encode 2 c.version.toNat)))
      (by simp only [List.append_assoc]; rfl) (by simp [id]) c.headerSize.toNat_lt
  have sized : (UInt32.ofNat c.size).toNat = c.size := by
    rw [UInt32.toNat_ofNat']
    omega
  have inside : before.length + 16 ≤ (before ++ c.encode ++ after).length := by
    rw [List.length_append, List.length_append, sound.encode_length, RtsaChunk.size]
    omega
  rw [SdrAaronia.knownHeaderAt, headerAt]
  simp only [name, size, flags, version, headerSize, UInt32.ofNat_toNat, UInt16.ofNat_toNat]
  rw [if_pos ⟨inside, by rw [sized]; exact allowed⟩, Option.filter_some, if_pos]
  rw [sound.known, sized, RtsaChunk.size]
  simp

/-- The walk over a chain visits its SAMP chunks and gets to its end. -/
theorem referenceWalk_chain {chunks : List RtsaChunk} (sound : ∀ c ∈ chunks, c.WellFormed)
    (before after : Bytes)
    (short : (before ++ chunks.flatMap encode ++ after).length < 2 ^ 63) :
    referenceWalk (before ++ chunks.flatMap encode ++ after)
        (before.length + (chunks.flatMap encode).length) before.length =
      (true, sampChunks before.length chunks) := by
  induction chunks generalizing before with
  | nil => rw [referenceWalk, if_neg (by simp), sampChunks]
  | cons c chunks ih =>
      have here := sound c List.mem_cons_self
      have long := here.encode_length
      have whole : before ++ (c :: chunks).flatMap encode ++ after =
          before ++ c.encode ++ (chunks.flatMap encode ++ after) := by
        simp only [List.flatMap_cons, List.append_assoc]
      have later := ih (fun d member => sound d (List.mem_cons_of_mem c member))
        (before ++ c.encode)
      have regroup : before ++ c.encode ++ chunks.flatMap encode ++ after =
          before ++ c.encode ++ (chunks.flatMap encode ++ after) := by
        rw [List.append_assoc (before ++ c.encode)]
      have ends : (before ++ c.encode).length = before.length + c.size := by
        rw [List.length_append, long]
      rw [whole] at short ⊢
      rw [regroup, ends] at later
      have walked := later short
      have sized : (UInt32.ofNat c.size).toNat = c.size := by
        have bound : maxRtsaChunkSize < 2 ^ 32 := by decide
        have allowed := here.allowed
        rw [UInt32.toNat_ofNat']
        omega
      have stop : before.length + ((c :: chunks).flatMap encode).length =
          before.length + c.size + (chunks.flatMap encode).length := by
        rw [List.flatMap_cons, List.length_append, long]
        omega
      have more : before.length < before.length + c.size + (chunks.flatMap encode).length := by
        rw [RtsaChunk.size]
        omega
      rw [stop, referenceWalk, if_pos more, here.knownHeaderAt before, sampChunks]
      simp only [sized, walked]
      split
      · rename_i isSamp
        have fields := here.fields isSamp
        have inside : before.length + 64 ≤
            (before ++ c.encode ++ (chunks.flatMap encode ++ after)).length := by
          rw [List.length_append, List.length_append, long, RtsaChunk.size]
          omega
        have near : before.length + c.size < 2 ^ 63 := by
          rw [List.length_append, List.length_append, long] at short
          omega
        rw [sampAt, if_pos ⟨inside, by rw [sized]; exact near⟩, sampFields_inside _ _ (by
          rw [long, RtsaChunk.size]
          omega)]
        rfl
      · rfl

end RtsaChunk

/-! ## The scan -/

/-- A file's length, as every place in it, is a signed 64-bit number. -/
structure CaptureFile where
  bytes : Bytes
  length_lt : bytes.length < 2 ^ 63

/-- A scan about to begin, wherever the last one left the reader and whatever it
appended. -/
def CaptureFile.scanning (file : CaptureFile) (position : Nat) (served : List (Nat × Nat))
    (sampChunkOffsets : List (Nat × SampChunk)) : SampScan :=
  ⟨⟨file.bytes, position, served⟩, sampChunkOffsets⟩

/-- **The scan is exact.**  Every round that does not fail moves the reader forward.
The scan appends what the reference walk visits and fails where a SAMP body keeps the
walk from the end, and, short of places that no file has, only there.  Over a chain
of chunks it appends the SAMP chunks, once each, in file order. -/
theorem scanForSampChunks_walk (file : CaptureFile) (position : Nat) (served : List (Nat × Nat))
    (found : List (Nat × SampChunk)) (startPos endPos : Nat) :
    let scan := scanForSampChunks startPos endPos (file.scanning position served found)
    let stop := min endPos file.bytes.length
    let walk := referenceWalk file.bytes stop startPos
    (∀ s s' : SampScan, s.reader.position < stop → s.round stop = (.ok (), s') →
      s.reader.position < s'.reader.position) ∧
    scan.2.sampChunkOffsets = found ++ walk.2 ∧
    (walk.1 = false → scan.1 ≠ .ok ()) ∧
    (walk.1 = true → startPos < 2 ^ 63 → file.bytes.length + maxRtsaChunkSize ≤ 2 ^ 63 →
      scan.1 = .ok ()) ∧
    ∀ before chunks after, file.bytes = before ++ chunks.flatMap RtsaChunk.encode ++ after →
      (∀ c ∈ chunks, c.WellFormed) → startPos = before.length →
      stop = before.length + (chunks.flatMap RtsaChunk.encode).length →
        scan.2.sampChunkOffsets = found ++ RtsaChunk.sampChunks startPos chunks := by
  intro scan stop walk
  have exact : scan.2.sampChunkOffsets = found ++ walk.2 ∧ (walk.1 = false → scan.1 ≠ .ok ()) ∧
      (walk.1 = true → startPos < 2 ^ 63 → file.bytes.length + maxRtsaChunkSize ≤ 2 ^ 63 →
        scan.1 = .ok ()) := by
    have short := file.length_lt
    rcases FileReader.seekStart_cases (file.scanning position served found).reader startPos with
      ⟨near, moved⟩ | ⟨far, refused⟩
    · have begun : scan = SampScan.loop stop ⟨⟨file.bytes, startPos, served⟩, found⟩ := by
        change scanForSampChunks startPos endPos (file.scanning position served found) = _
        rw [scanForSampChunks, seekStart, moved]
        rfl
      rw [begun]
      have walks : SampScan.Walks stop ⟨⟨file.bytes, startPos, served⟩, found⟩ walk :=
        SampScan.loop_walks (Nat.min_le_right _ _) file.length_lt
      obtain ⟨appends, fails, ends⟩ := walks
      exact ⟨appends, fails, fun whole _ room => ends room whole⟩
    · have begun : scan = (.error .invalidSeek, file.scanning position served found) := by
        change scanForSampChunks startPos endPos (file.scanning position served found) = _
        rw [scanForSampChunks, seekStart, refused]
      have outside : walk = (true, []) := by
        change referenceWalk file.bytes stop startPos = _
        rw [referenceWalk, if_neg (by omega)]
      rw [begun, outside]
      refine ⟨(List.append_nil _).symm, fun lost => ?_, fun _ near => ?_⟩
      · cases lost
      · omega
  refine ⟨fun s s' more ended => SampScan.round_forward more ended, exact.1, exact.2.1,
    exact.2.2, ?_⟩
  rintro before chunks after whole sound rfl ends
  have walked := RtsaChunk.referenceWalk_chain sound before after (whole ▸ file.length_lt)
  rw [← whole, ← ends] at walked
  rw [exact.1]
  exact congrArg (found ++ ·) (congrArg Prod.snd walked)

/-- A stream's head, a packet, an antenna and another packet, behind a byte and in front
of one that belong to no chunk. -/
def smallChain : List RtsaChunk :=
  [⟨chunkId "STRM", 0, 1, 24, List.replicate 24 0⟩,
   ⟨chunkId "SAMP", 0, 1, 64, List.replicate 56 1⟩,
   ⟨chunkId "ANTA", 0, 1, 16, []⟩,
   ⟨chunkId "SAMP", 0, 1, 64, List.replicate 48 2⟩]

def smallChainFile : CaptureFile where
  bytes := [7] ++ smallChain.flatMap RtsaChunk.encode ++ [7]
  length_lt := by decide +kernel

theorem scanForSampChunks_walk_smallChain :
    (scanForSampChunks 1 193 (smallChainFile.scanning 0 [] [])).2.sampChunkOffsets =
      RtsaChunk.sampChunks 1 smallChain ∧
    (RtsaChunk.sampChunks 1 smallChain).map Prod.fst = [41, 129] := by
  have sound : ∀ c ∈ smallChain, c.WellFormed := by
    simp only [smallChain, List.forall_mem_cons]
    refine ⟨⟨?_, ?_, ?_⟩, ⟨?_, ?_, ?_⟩, ⟨?_, ?_, ?_⟩, ⟨?_, ?_, ?_⟩, List.forall_mem_nil _⟩ <;>
      decide +kernel
  have walked := (scanForSampChunks_walk smallChainFile 0 [] [] 1 193).2.2.2.2
  exact ⟨walked [7] smallChain [7] rfl sound rfl (by decide +kernel), by decide +kernel⟩

end SdrAaronia
