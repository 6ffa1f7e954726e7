import SdrAaronia.FileSource.Opened
import SdrAaronia.FileSource.Sequential

/-! # Recordings

A recording as it is written: the file's head, its stream, the sub-stream, packets of
samples among other chunks, and the two tails that tell where all of it is.
-/

namespace SdrAaronia

open HttpStreaming Reading

/-! ## Reading what was written, in a file -/

namespace Reading

variable {Value Result : Type}

/-- As `Reads`, in a file as short as files are. -/
def ReadsIn (reading : Reading Value) (written : Bytes) (value : Value) : Prop :=
  ∀ (f : FileReader) rest, f.bytes.length < 2 ^ 63 → f.remaining = written ++ rest →
    ∃ f', reading f = (.ok value, f') ∧ f'.bytes = f.bytes ∧
      f'.position = f.position + written.length

theorem Reads.readsIn {reading : Reading Value} {written : Bytes} {value : Value}
    (reads : Reads reading written value) : ReadsIn reading written value :=
  fun f rest _ ahead => reads f rest ahead

theorem ReadsIn.bind {first : Reading Value} {next : Value → Reading Result}
    {written written' : Bytes} {value : Value} {result : Result}
    (reads : ReadsIn first written value) (reads' : ReadsIn (next value) written' result) :
    ReadsIn (first >>= next) (written ++ written') result := by
  intro f rest short ahead
  rw [List.append_assoc] at ahead
  obtain ⟨f', read, kept, moved⟩ := reads f _ short ahead
  obtain ⟨f'', read', kept', moved'⟩ :=
    reads' f' rest (kept.symm ▸ short) (remaining_behind ahead kept moved)
  refine ⟨f'', ?_, kept'.trans kept, ?_⟩
  · rw [bind_apply, read]
    exact read'
  · rw [moved', moved, List.length_append, Nat.add_assoc]

theorem ReadsIn.last {first : Reading Value} {next : Value → Reading Result} {written : Bytes}
    {value : Value} {result : Result} (reads : ReadsIn first written value)
    (ends : ReadsIn (next value) [] result) : ReadsIn (first >>= next) written result := by
  have whole := reads.bind ends
  rwa [List.append_nil] at whole

theorem readsIn_pure (value : Value) : ReadsIn (pure value) [] value := (reads_pure value).readsIn

/-- Bytes that are passed over. -/
theorem readsIn_pass {padding : Bytes} (some : 0 < padding.length) :
    ReadsIn (seekCurrent (padding.length : Nat)) padding () := by
  intro f rest short ahead
  have length := congrArg List.length ahead
  rw [FileReader.remaining, List.length_drop, List.length_append] at length
  have near : f.position + padding.length < 2 ^ 63 := by omega
  exact ⟨_, seekCurrent_ok_iff.mpr ⟨near, rfl⟩, rfl, rfl⟩

/-- A chunk that declares no more than its fields. -/
theorem readsIn_passRest {size : UInt32} {fields : Nat} (exact : size.toNat = fields) :
    ReadsIn (passRest size fields) [] () := by
  rw [passRest, if_neg (by omega)]
  exact readsIn_pure ()

end Reading

/-! ## Chunks in a file -/

namespace RtsaChunk

variable {c : RtsaChunk} {Chunk : Type} {readFrom : UInt32 → Reading Chunk} {chunk : Chunk}

/-- The chunk stands in the file. -/
def HeldAt (c : RtsaChunk) (bytes : Bytes) (place : Nat) : Prop :=
  ∃ before after, bytes = before ++ c.encode ++ after ∧ before.length = place

variable {bytes : Bytes} {place : Nat}

theorem HeldAt.inside (held : c.HeldAt bytes place) (sound : c.WellFormed) :
    place + c.size ≤ bytes.length := by
  obtain ⟨before, after, rfl, rfl⟩ := held
  rw [List.length_append, List.length_append, sound.encode_length]
  exact Nat.le_add_right _ _

theorem HeldAt.headerAt (held : c.HeldAt bytes place) (sound : c.WellFormed) :
    headerAt bytes place = some
      { id := c.id, size := UInt32.ofNat c.size, flags := c.flags, version := c.version,
        headerSize := c.headerSize } := by
  obtain ⟨before, after, rfl, rfl⟩ := held
  exact (knownHeaderAt_some (sound.knownHeaderAt before after)).1

theorem HeldAt.id_eq (held : c.HeldAt bytes place) (sound : c.WellFormed) :
    window bytes place 4 = c.id := by
  have headed := held.headerAt sound
  obtain ⟨-, same⟩ := Option.ite_none_right_eq_some.mp headed
  exact congrArg RtsaChunkHeader.id (Option.some.inj same)

theorem HeldAt.size_eq (held : c.HeldAt bytes place) (sound : c.WellFormed) :
    numberAt bytes (place + 4) 4 = c.size := by
  have allowed := sound.allowed
  have bound : maxRtsaChunkSize < 256 ^ 4 := by decide
  obtain ⟨before, after, rfl, rfl⟩ := held
  exact numberAt_encode before after c.id rfl (by rw [known_length sound.known]) (by omega)

/-- The fields behind a written header. -/
theorem HeldAt.read (held : c.HeldAt bytes place) (sound : c.WellFormed)
    (short : bytes.length < 2 ^ 63)
    (reads : ReadsIn (readFrom (UInt32.ofNat c.size)) c.body chunk) :
    (readFrom (UInt32.ofNat c.size) ⟨bytes, place + 16, []⟩).1.toOption = some chunk := by
  obtain ⟨before, after, rfl, rfl⟩ := held
  have id := known_length sound.known
  have split : ∃ front, c.encode = front ++ c.body ∧ front.length = 16 := by
    refine ⟨c.id ++ (LittleEndian.encode 4 c.size ++ (LittleEndian.encode 4 c.flags.toNat ++
      (LittleEndian.encode 2 c.version.toNat ++ LittleEndian.encode 2 c.headerSize.toNat))),
      ?_, ?_⟩
    · simp only [encode, List.append_assoc]
    · simp [id]
  obtain ⟨front, whole, sixteen⟩ := split
  have ahead : FileReader.remaining ⟨before ++ c.encode ++ after, before.length + 16, []⟩ =
      c.body ++ after := by
    rw [FileReader.remaining, whole, ← sixteen, ← List.length_append]
    simp only [← List.append_assoc]
    rw [List.append_assoc, List.drop_left]
  obtain ⟨f', read, -⟩ := reads _ after short ahead
  rw [read]
  rfl

theorem HeldAt.chunkAt {name : String} (held : c.HeldAt bytes place) (sound : c.WellFormed)
    (named : c.id = chunkId name) (short : bytes.length < 2 ^ 63)
    (reads : ReadsIn (readFrom (UInt32.ofNat c.size)) c.body chunk) :
    chunkAt name readFrom bytes place = some chunk := by
  rw [SdrAaronia.chunkAt, held.headerAt sound, Option.bind_some, if_pos named,
    held.read sound short reads]

end RtsaChunk

/-! ## Ids in a part of a file -/

section Windows

variable {name : String} {bytes : Bytes} {start width place : Nat}

theorem idIn_window (after : start ≤ place) (fits : place + 4 ≤ start + width)
    (inside : place + 4 ≤ bytes.length) (named : window bytes place 4 = chunkId name)
    (clear : ∀ i, start ≤ i → i < place → window bytes i 4 ≠ chunkId name) :
    idIn name (window bytes start width) = some (place - start) := by
  have whole : start + (place - start) = place := Nat.add_sub_cancel' after
  rw [idIn, Search.first_some_iff, matchAt_iff, whole]
  refine ⟨⟨by omega, inside, named⟩, fun earlier before => ?_⟩
  rw [windowAt_window earlier (by omega)]
  exact beq_eq_false_iff_ne.mpr (clear (start + earlier) (by omega) (by omega))

theorem idIn_window_none (clear : ∀ i, start ≤ i → i < bytes.length →
    window bytes i 4 ≠ chunkId name) : idIn name (window bytes start width) = none := by
  rw [idIn, Search.first_none_iff]
  intro i found
  obtain ⟨-, inside, named⟩ := matchAt_iff.mp found
  exact clear (start + i) (by omega) (by omega) named

theorem lastIdIn_window (after : start ≤ place) (fits : place + 4 ≤ start + width)
    (inside : place + 4 ≤ bytes.length) (named : window bytes place 4 = chunkId name)
    (clear : ∀ i, place < i → i < bytes.length → window bytes i 4 ≠ chunkId name) :
    lastIdIn name (window bytes start width) = some (place - start) := by
  have whole : start + (place - start) = place := Nat.add_sub_cancel' after
  rw [lastIdIn, Search.last_some_iff, matchAt_iff, whole]
  refine ⟨⟨by omega, inside, named⟩, fun later behind found => ?_⟩
  obtain ⟨-, inside', named'⟩ := matchAt_iff.mp found
  exact clear (start + later) (by omega) (by omega) named'

end Windows

/-! ## The chunks of a recording -/

/-- A packet of samples, each two floats. -/
structure IqPacket where
  sampleUnit : UInt8
  startTime : UInt64
  endTime : UInt64
  packetFlags : UInt32
  sampleDepth : UInt32
  numSamples : Nat
  payload : Bytes
  whole : payload.length = 8 * numSamples
  allowed : 64 + payload.length ≤ maxRtsaChunkSize

/-- What stands between the sub-stream and the tails. -/
inductive Recording.Entry where
  | packet (p : IqPacket)
  | other (c : RtsaChunk)

/-- Sample type 5 are floats, and payload type 2 is IQ. -/
def IqPacket.fields (streamId : UInt64) (subStreamId : UInt32) (p : IqPacket) : Bytes :=
  LittleEndian.encode 8 streamId.toNat ++ (LittleEndian.encode 4 subStreamId.toNat ++
    (LittleEndian.encode 1 5 ++ (LittleEndian.encode 1 p.sampleUnit.toNat ++
    (LittleEndian.encode 1 2 ++ (LittleEndian.encode 1 0 ++
    (LittleEndian.encode 8 p.startTime.toNat ++ (LittleEndian.encode 8 p.endTime.toNat ++
    (LittleEndian.encode 4 p.packetFlags.toNat ++ (LittleEndian.encode 4 2 ++
    (LittleEndian.encode 4 p.sampleDepth.toNat ++ LittleEndian.encode 4 p.numSamples))))))))))

def IqPacket.chunk (streamId : UInt64) (subStreamId : UInt32) (p : IqPacket) : RtsaChunk where
  id := chunkId "SAMP"
  flags := 0
  version := 1
  headerSize := 64
  body := p.fields streamId subStreamId ++ p.payload

@[simp] theorem IqPacket.fields_length (streamId : UInt64) (subStreamId : UInt32) (p : IqPacket) :
    (p.fields streamId subStreamId).length = 48 := by simp [fields]

def Recording.Entry.chunk (streamId : UInt64) (subStreamId : UInt32) : Entry → RtsaChunk
  | .packet p => p.chunk streamId subStreamId
  | .other c => c

def Recording.Entry.packet? : Entry → Option IqPacket
  | .packet p => some p
  | .other _ => none

/-- A chunk that does not belong to the stream: of another kind, or samples of another
stream that are not compressed IQ. -/
structure RtsaChunk.Foreign (streamId : UInt64) (c : RtsaChunk) : Prop where
  sound : c.WellFormed
  other : c.id = chunkId "SAMP" → c.samp.streamId ≠ streamId.toNat
  plain : c.id = chunkId "SAMP" → c.samp.payloadType = .iq → c.samp.compression ≤ 0

/-- Numbers of unknown meaning are kept as their bits. -/
structure Recording where
  creationTime : UInt64
  streamId : UInt64
  startTime : UInt64
  subStreamId : UInt32
  frequencyStart : UInt64
  frequencyStep : UInt64
  frequencySpan : UInt64
  valueMinimum : UInt64
  valueMaximum : UInt64
  direction : UInt64
  antennaIndex : UInt32
  numCategories : UInt32
  name : Bytes
  antennaId : UInt64
  metadataId : UInt64
  entries : List Recording.Entry
  endTime : UInt64
  completionTime : UInt64
  named : name.length = 128
  recorded : ∃ p, .packet p ∈ entries
  others : ∀ c, .other c ∈ entries → c.Foreign streamId
  bounded : (entries.flatMap fun entry => (entry.chunk streamId subStreamId).encode).length +
    2 ^ 33 ≤ 2 ^ 63

namespace Recording

variable (r : Recording)

def packets : List IqPacket := r.entries.filterMap Entry.packet?

def numSamples : Nat := (r.packets.map (·.numSamples)).sum

def entryChunks : List RtsaChunk := r.entries.map fun entry => entry.chunk r.streamId r.subStreamId

/-- Where the entries end and the stream's tail starts. -/
def streamArea : Nat := 304 + (r.entryChunks.flatMap RtsaChunk.encode).length

def dsfh : RtsaChunk where
  id := chunkId "DSFH"
  flags := 0
  version := 1
  headerSize := 16
  body := LittleEndian.encode 8 r.creationTime.toNat

def strm : RtsaChunk where
  id := chunkId "STRM"
  flags := 0
  version := 1
  headerSize := 16
  body := LittleEndian.encode 8 r.streamId.toNat ++ (LittleEndian.encode 8 r.startTime.toNat ++
    LittleEndian.encode 8 (304#64).toNat)

/-- The only sub-stream: nothing stands in front of it in its chain. -/
def sstr : RtsaChunk where
  id := chunkId "SSTR"
  flags := 0
  version := 1
  headerSize := 224
  body := LittleEndian.encode 8 r.streamId.toNat ++ (LittleEndian.encode 4 r.subStreamId.toNat ++
    (List.replicate 4 0 ++ (LittleEndian.encode 8 (0#64).toNat ++
    (LittleEndian.encode 8 r.frequencyStart.toNat ++
    (LittleEndian.encode 8 r.frequencyStep.toNat ++
    (LittleEndian.encode 8 r.frequencySpan.toNat ++
    (LittleEndian.encode 8 r.valueMinimum.toNat ++
    (LittleEndian.encode 8 r.valueMaximum.toNat ++ (LittleEndian.encode 8 r.direction.toNat ++
    (LittleEndian.encode 4 r.antennaIndex.toNat ++
    (LittleEndian.encode 4 r.numCategories.toNat ++ (r.name ++
    (LittleEndian.encode 8 r.antennaId.toNat ++
      LittleEndian.encode 8 r.metadataId.toNat)))))))))))))

/-- No previews, antennas or metadata. -/
def strt : RtsaChunk where
  id := chunkId "STRT"
  flags := 0
  version := 1
  headerSize := 96
  body := LittleEndian.encode 8 (24#64).toNat ++ (LittleEndian.encode 8 (64#64).toNat ++
    (LittleEndian.encode 8 (0#64).toNat ++
    (LittleEndian.encode 8 (UInt64.ofNat r.numSamples).toNat ++
    (LittleEndian.encode 8 (UInt64.ofNat (8 * r.numSamples)).toNat ++
    (LittleEndian.encode 4 (0 : UInt32).toNat ++ (LittleEndian.encode 4 (0 : UInt32).toNat ++
    (LittleEndian.encode 4 (0 : UInt32).toNat ++ (List.replicate 4 0 ++
    (LittleEndian.encode 8 r.endTime.toNat ++ (LittleEndian.encode 8 (0#64).toNat ++
      LittleEndian.encode 8 (0#64).toNat))))))))))

def dsft : RtsaChunk where
  id := chunkId "DSFT"
  flags := 0
  version := 1
  headerSize := 16
  body := LittleEndian.encode 8 r.completionTime.toNat ++
    (LittleEndian.encode 8 (BitVec.ofNat 64 r.streamArea).toNat ++
      LittleEndian.encode 4 (1 : UInt32).toNat)

def chunks : List RtsaChunk := [r.dsfh, r.strm, r.sstr] ++ r.entryChunks ++ [r.strt, r.dsft]

def bytes : Bytes := r.chunks.flatMap RtsaChunk.encode

/-! ## Their fields are read back -/

@[simp] theorem dsfh_size : r.dsfh.size = 24 := by simp [RtsaChunk.size, dsfh]
@[simp] theorem strm_size : r.strm.size = 40 := by simp [RtsaChunk.size, strm]
@[simp] theorem sstr_size : r.sstr.size = 240 := by simp [RtsaChunk.size, sstr, r.named]
@[simp] theorem strt_size : r.strt.size = 96 := by simp [RtsaChunk.size, strt]
@[simp] theorem dsft_size : r.dsft.size = 36 := by simp [RtsaChunk.size, dsft]

theorem readsIn_dsfh :
    ReadsIn (DsfhChunk.readFrom 24) r.dsfh.body ⟨⟨chunkId "DSFH", 24, 0, 1, 8⟩, r.creationTime⟩ :=
  (reads_u64 _).readsIn.last (readsIn_pure _)

theorem readsIn_strm :
    ReadsIn (StrmChunk.readFrom 40) r.strm.body
      ⟨⟨chunkId "STRM", 40, 0, 1, 24⟩, r.streamId, r.startTime, 304, none⟩ := by
  have start : ReadsIn (StrmChunk.readCaptureStart 40) [] none := by
    rw [StrmChunk.readCaptureStart, if_neg (by decide)]
    exact (readsIn_passRest rfl).last (readsIn_pure _)
  exact (reads_u64 _).readsIn.bind ((reads_u64 _).readsIn.bind ((reads_i64 304#64).readsIn.last
    (start.last (readsIn_pure _))))

theorem readsIn_dsft :
    ReadsIn (DsftChunk.readFrom 36) r.dsft.body
      ⟨⟨chunkId "DSFT", 36, 0, 1, 20⟩, r.completionTime,
        (BitVec.ofNat 64 r.streamArea).toInt.toNat, 1⟩ :=
  (reads_u64 _).readsIn.bind ((reads_i64 _).readsIn.bind ((reads_u32 1).readsIn.last
    (readsIn_pure _)))

def sstrRead : SstrChunk where
  header := ⟨chunkId "SSTR", 240, 0, 1, 224⟩
  streamId := r.streamId
  subStreamId := r.subStreamId
  subStreamOffset := 0
  frequencyStart := r.frequencyStart
  frequencyStep := r.frequencyStep
  frequencySpan := r.frequencySpan
  valueMinimum := r.valueMinimum
  valueMaximum := r.valueMaximum
  direction := r.direction
  antennaIndex := r.antennaIndex
  numCategories := r.numCategories
  name := r.name
  antennaId := r.antennaId
  metadataId := r.metadataId

theorem readsIn_padding : ReadsIn (seekCurrent (4 : Nat)) (List.replicate 4 0) () :=
  @readsIn_pass (List.replicate 4 0) (by decide)

theorem readsIn_sstr : ReadsIn (SstrChunk.readFrom 240) r.sstr.body r.sstrRead := by
  have name : ReadsIn (exact 128) r.name r.name := by
    rw [← r.named]
    exact (reads_exact r.name).readsIn
  exact (reads_u64 _).readsIn.bind <| (reads_u32 _).readsIn.bind <| readsIn_padding.bind <|
    (reads_i64 0#64).readsIn.bind <| (reads_u64 _).readsIn.bind <| (reads_u64 _).readsIn.bind <|
    (reads_u64 _).readsIn.bind <| (reads_u64 _).readsIn.bind <| (reads_u64 _).readsIn.bind <|
    (reads_u64 _).readsIn.bind <| (reads_u32 _).readsIn.bind <| (reads_u32 _).readsIn.bind <|
    name.bind <| (reads_u64 _).readsIn.bind <| (reads_u64 _).readsIn.last <|
    (readsIn_passRest rfl).last (readsIn_pure _)

def strtRead : StrtChunk where
  header := ⟨chunkId "STRT", 96, 0, 1, 80⟩
  streamOffset := 24
  subStreamOffset := 64
  previewOffset := 0
  numSamples := UInt64.ofNat r.numSamples
  payloadSize := UInt64.ofNat (8 * r.numSamples)
  previewLevels := 0
  numPreviews := 0
  numPreviewSegments := 0
  endTime := r.endTime
  antennaOffset := 0
  metadataOffset := 0

theorem readsIn_strt : ReadsIn (StrtChunk.readFrom 96) r.strt.body r.strtRead := by
  have offset : ∀ needed, needed ≤ 96 →
      ReadsIn (StrtChunk.readOffset 96 needed) (LittleEndian.encode 8 (0#64).toNat) 0 := by
    intro needed within
    rw [StrtChunk.readOffset, if_pos (by exact within)]
    exact (reads_i64 0#64).readsIn
  exact (reads_i64 24#64).readsIn.bind <| (reads_i64 64#64).readsIn.bind <|
    (reads_i64 0#64).readsIn.bind <| (reads_u64 _).readsIn.bind <| (reads_u64 _).readsIn.bind <|
    (reads_u32 0).readsIn.bind <| (reads_u32 0).readsIn.bind <| (reads_u32 0).readsIn.bind <|
    readsIn_padding.bind <| (reads_u64 _).readsIn.bind <| (offset 88 (by decide)).bind <|
    (offset 96 (by decide)).last <| (readsIn_passRest rfl).last (readsIn_pure _)

/-! ## The file -/

theorem id_known {c : RtsaChunk} (name : String) (named : c.id = chunkId name)
    (known : isValidRtsaChunkId (chunkId name) = true) : isValidRtsaChunkId c.id = true :=
  named.symm ▸ known

theorem packet_sound (p : IqPacket) (streamId : UInt64) (subStreamId : UInt32) :
    (p.chunk streamId subStreamId).WellFormed where
  known := id_known "SAMP" rfl (by decide)
  allowed := by
    have allowed := p.allowed
    simp only [RtsaChunk.size, IqPacket.chunk, List.length_append, IqPacket.fields_length]
    omega
  fields := by
    intro _
    simp only [IqPacket.chunk, List.length_append, IqPacket.fields_length]
    omega

theorem entries_sound : ∀ c ∈ r.entryChunks, c.WellFormed := by
  intro c member
  obtain ⟨entry, listed, rfl⟩ := List.mem_map.mp member
  cases entry with
  | packet p => exact packet_sound p r.streamId r.subStreamId
  | other c => exact (r.others c listed).sound

theorem small_sound {c : RtsaChunk} (name : String) (named : c.id = chunkId name)
    (known : isValidRtsaChunkId (chunkId name) = true) (other : chunkId name ≠ chunkId "SAMP")
    (small : c.size ≤ 240) : c.WellFormed where
  known := id_known name named known
  allowed := small.trans (by decide)
  fields := fun same => absurd (named.symm.trans same) other

theorem dsfh_sound : r.dsfh.WellFormed :=
  small_sound "DSFH" rfl (by decide) (by decide) (by simp)

theorem strm_sound : r.strm.WellFormed :=
  small_sound "STRM" rfl (by decide) (by decide) (by simp)

theorem sstr_sound : r.sstr.WellFormed :=
  small_sound "SSTR" rfl (by decide) (by decide) (by simp)

theorem strt_sound : r.strt.WellFormed :=
  small_sound "STRT" rfl (by decide) (by decide) (by simp)

theorem dsft_sound : r.dsft.WellFormed :=
  small_sound "DSFT" rfl (by decide) (by decide) (by simp)

def entryBytes : Bytes := r.entryChunks.flatMap RtsaChunk.encode

theorem bytes_eq : r.bytes =
    r.dsfh.encode ++ (r.strm.encode ++ (r.sstr.encode ++ (r.entryBytes ++
      (r.strt.encode ++ r.dsft.encode)))) := by
  simp [bytes, chunks, entryBytes]

theorem streamArea_eq : r.streamArea = 304 + r.entryBytes.length := rfl

theorem bytes_length : r.bytes.length = r.streamArea + 132 := by
  simp only [bytes_eq, List.length_append, r.dsfh_sound.encode_length, r.strm_sound.encode_length,
    r.sstr_sound.encode_length, r.strt_sound.encode_length, r.dsft_sound.encode_length,
    dsfh_size, strm_size, sstr_size, strt_size, dsft_size, streamArea_eq]
  omega

theorem entries_bounded : r.entryBytes.length + 2 ^ 33 ≤ 2 ^ 63 := by
  have bounded := r.bounded
  rw [entryBytes, entryChunks, List.flatMap_map]
  exact bounded

def file : DiskFile where
  bytes := r.bytes
  bytes_lt := by
    have bounded := r.entries_bounded
    rw [bytes_length, streamArea_eq]
    omega

/-- Nothing near the end of the file is taken for one of the chunks that are looked for
there by their ids. -/
structure Clear : Prop where
  tail : ∀ i, r.streamArea + 96 < i → i < r.bytes.length → window r.bytes i 4 ≠ chunkId "DSFT"
  streamTail : ∀ i < r.streamArea, r.streamArea ≤ i + 1024 →
    window r.bytes i 4 ≠ chunkId "STRT"
  head : ∀ i < r.bytes.length, 0 < i → r.streamArea ≤ i + 1024 →
    window r.bytes i 4 ≠ chunkId "DSFH"

/-! ## Where the chunks are -/

theorem short : r.bytes.length < 2 ^ 63 := by
  have room := r.file.bytes_lt
  have same : r.file.bytes = r.bytes := rfl
  rw [same] at room
  omega

theorem dsfh_held : r.dsfh.HeldAt r.bytes 0 :=
  ⟨[], _, by rw [bytes_eq, List.nil_append], rfl⟩

theorem strm_held : r.strm.HeldAt r.bytes 24 :=
  ⟨r.dsfh.encode, _, by rw [bytes_eq, ← List.append_assoc],
    r.dsfh_sound.encode_length.trans r.dsfh_size⟩

theorem sstr_held : r.sstr.HeldAt r.bytes 64 := by
  refine ⟨r.dsfh.encode ++ r.strm.encode, r.entryBytes ++ (r.strt.encode ++ r.dsft.encode), by
    rw [bytes_eq]; simp only [List.append_assoc], ?_⟩
  rw [List.length_append, r.dsfh_sound.encode_length, r.strm_sound.encode_length, dsfh_size,
    strm_size]

/-- The head, the stream, the sub-stream and the entries. -/
def front : Bytes := r.dsfh.encode ++ (r.strm.encode ++ (r.sstr.encode ++ r.entryBytes))

theorem front_length : r.front.length = r.streamArea := by
  simp only [front, List.length_append, r.dsfh_sound.encode_length, r.strm_sound.encode_length,
    r.sstr_sound.encode_length, dsfh_size, strm_size, sstr_size, streamArea_eq]
  omega

theorem strt_held : r.strt.HeldAt r.bytes r.streamArea :=
  ⟨r.front, r.dsft.encode, by rw [bytes_eq, front]; simp only [List.append_assoc], r.front_length⟩

theorem dsft_held : r.dsft.HeldAt r.bytes (r.streamArea + 96) := by
  refine ⟨r.front ++ r.strt.encode, [], by
    rw [bytes_eq, front]; simp only [List.append_assoc, List.append_nil], ?_⟩
  rw [List.length_append, front_length, r.strt_sound.encode_length, strt_size]

/-! ## The searches find them -/

theorem dsft_streamOffset : (BitVec.ofNat 64 r.streamArea).toInt.toNat = r.streamArea := by
  have short := r.short
  rw [bytes_length] at short
  have narrow : (BitVec.ofNat 64 r.streamArea).toNat = r.streamArea := by
    rw [BitVec.toNat_ofNat]
    omega
  rw [BitVec.toInt_eq_toNat_of_lt (by omega), narrow, Int.toNat_natCast]

/-- What the tail tells. -/
def dsftRead : DsftChunk :=
  ⟨⟨chunkId "DSFT", 36, 0, 1, 20⟩, r.completionTime, r.streamArea, 1⟩

variable {r}

theorem tailOf_eq (clear : r.Clear) : tailOf r.bytes = some r.dsftRead := by
  have long := r.bytes_length
  have named := r.dsft_held.id_eq r.dsft_sound
  have found : lastIdIn "DSFT" (window r.bytes (r.bytes.length - min 1024 r.bytes.length)
      (min 1024 r.bytes.length)) =
        some (r.streamArea + 96 - (r.bytes.length - min 1024 r.bytes.length)) := by
    apply lastIdIn_window (by omega) (by omega) (by omega) named
    exact clear.tail
  have place : r.bytes.length - min 1024 r.bytes.length +
      (r.streamArea + 96 - (r.bytes.length - min 1024 r.bytes.length)) = r.streamArea + 96 := by
    omega
  have read := r.dsft_held.chunkAt r.dsft_sound rfl r.short
    (by rw [dsft_size]; exact r.readsIn_dsft)
  rw [dsft_streamOffset] at read
  rw [tailOf, found, Option.map_some, place, Option.bind_some, read]
  rfl

theorem streamTailOf_eq (clear : r.Clear) :
    streamTailOf r.bytes r.streamArea = some r.strtRead := by
  have long := r.bytes_length
  have start : searchStart r.streamArea = r.streamArea - 1024 := saturatingSub_eq _ _
  have close := searchStart_le r.streamArea
  have found : idIn "STRT" (window r.bytes (searchStart r.streamArea) 4096) =
      some (r.streamArea - searchStart r.streamArea) := by
    apply idIn_window close (by omega) (by omega) (r.strt_held.id_eq r.strt_sound)
    intro i after before
    exact clear.streamTail i before (by omega)
  rw [streamTailOf, found, Option.map_some, Nat.add_sub_cancel' close, Option.bind_some]
  exact r.strt_held.chunkAt r.strt_sound rfl r.short (by rw [strt_size]; exact r.readsIn_strt)

theorem head_start {width : Nat} (wide : 4 ≤ width) :
    idIn "DSFH" (window r.bytes 0 width) = some 0 := by
  have long := r.bytes_length
  have fits : 0 + 4 ≤ 0 + width := by omega
  have inside : 0 + 4 ≤ r.bytes.length := by omega
  exact idIn_window (Nat.le_refl 0) fits inside (r.dsfh_held.id_eq r.dsfh_sound) fun i _ before =>
    absurd before (Nat.not_lt_zero i)

theorem headNear_eq (clear : r.Clear) : headNear r.bytes r.streamArea = some 0 := by
  have long := r.bytes_length
  have area := r.streamArea_eq
  have start : searchStart r.streamArea = r.streamArea - 1024 := saturatingSub_eq _ _
  rw [headNear]
  by_cases near : r.streamArea ≤ 1024
  · have first : searchStart r.streamArea = 0 := by omega
    have length : (window r.bytes 0 4096).length = min 4096 r.bytes.length := by
      rw [window, List.length_take, List.length_drop, Nat.sub_zero]
    have size : numberAt (window r.bytes 0 4096) (0 + 4) 4 = 24 := by
      rw [numberAt, window_window (by omega), ← r.dsfh_size, ← r.dsfh_held.size_eq r.dsfh_sound]
      rfl
    have sized : sizedIdIn "DSFH" 0 1000 (window r.bytes 0 4096) = some 0 := by
      rw [sizedIdIn, head_start (by omega), Option.filter_some, if_pos]
      rw [decide_eq_true_eq, size, length]
      omega
    rw [first, sized]
    rfl
  · have none : sizedIdIn "DSFH" 0 1000 (window r.bytes (searchStart r.streamArea) 4096) =
        none := by
      rw [sizedIdIn, idIn_window_none fun i after inside => clear.head i inside (by omega)
        (by omega)]
      rfl
    have reached : 4 ≤ searchEnd (doubled r.streamArea) 0 - searchStart 0 := by
      have zero : searchStart 0 = 0 := saturatingSub_eq 0 1024
      rw [zero, searchEnd, doubled]
      omega
    have around : headAround r.bytes (doubled r.streamArea) 0 = some 0 := by
      have positive : ¬doubled r.streamArea ≤ 0 := by
        rw [doubled]
        omega
      have zero : searchStart 0 = 0 := saturatingSub_eq 0 1024
      rw [headAround, if_neg positive, zero, head_start (by rw [zero] at reached; exact reached)]
      rfl
    rw [none, Option.map_none, Option.none_or, headPlace, around]
    rfl

theorem dsfh_eq : chunkAt "DSFH" DsfhChunk.readFrom r.bytes 0 =
    some ⟨⟨chunkId "DSFH", 24, 0, 1, 8⟩, r.creationTime⟩ :=
  r.dsfh_held.chunkAt r.dsfh_sound rfl r.short (by rw [dsfh_size]; exact r.readsIn_dsfh)

/-! ## The stream -/

theorem sstr_eq : sstrKind.chunkAt r.bytes 64 = some r.sstrRead :=
  r.sstr_held.chunkAt r.sstr_sound rfl r.short (by rw [sstr_size]; exact r.readsIn_sstr)

/-- The sub-stream's chain is the sub-stream alone. -/
theorem sstrChain_eq : sstrKind.chunksFrom r.bytes 64 = [(64, r.sstrRead)] := by
  have onward : sstrKind.step r.bytes 64 = some 0 := by
    rw [ChunkKind.step, if_pos (by decide), sstr_eq]
    rfl
  have ends : sstrKind.step r.bytes 0 = none := if_neg (Nat.lt_irrefl 0)
  have trail : sstrKind.trail r.bytes 64 = [64] := by
    obtain ⟨more, length⟩ : ∃ more, r.bytes.length = more + 1 :=
      ⟨r.streamArea + 131, by have := r.bytes_length; omega⟩
    rw [ChunkKind.trail, length, Trail.follow, if_neg List.not_mem_nil, onward]
    simp only
    rw [Trail.follow, if_neg (by decide), ends]
    rfl
  rw [ChunkKind.chunksFrom, trail, ChunkKind.placed, List.filterMap_cons, sstr_eq]
  rfl

theorem streamAt_eq (state : RtsaParseState) :
    streamAt r.bytes 24 state =
      some (state.insertStrm ⟨⟨chunkId "STRM", 40, 0, 1, 24⟩, r.streamId, r.startTime, 304, none⟩) := by
  have read := r.strm_held.read r.strm_sound r.short (by rw [strm_size]; exact r.readsIn_strm)
  rw [streamAt, r.strm_held.headerAt r.strm_sound, Option.bind_some]
  exact (if_pos rfl).trans (congrArg (Option.map state.insertStrm) read)

/-- The samples of the entries, one chunk behind the other. -/
def samps : List (Nat × SampChunk) := RtsaChunk.sampChunks 304 r.entryChunks

theorem sampsBetween_eq (state : RtsaParseState) :
    sampsBetween r.bytes 24 r.streamArea state =
      some { state with sampChunkOffsets := state.sampChunkOffsets ++ r.samps } := by
  have long := r.bytes_length
  have whole : r.bytes = r.dsfh.encode ++
      (r.strm :: r.sstr :: r.entryChunks).flatMap RtsaChunk.encode ++
        (r.strt.encode ++ r.dsft.encode) := by
    simp only [bytes_eq, entryBytes, List.flatMap_cons, List.append_assoc]
  have sound : ∀ c ∈ r.strm :: r.sstr :: r.entryChunks, c.WellFormed := by
    intro c member
    cases List.mem_cons.mp member with
    | inl same => exact same ▸ r.strm_sound
    | inr member =>
        cases List.mem_cons.mp member with
        | inl same => exact same ▸ r.sstr_sound
        | inr member => exact r.entries_sound c member
  have short := r.short
  rw [whole] at short
  have walked := RtsaChunk.referenceWalk_chain sound r.dsfh.encode _ short
  have start : r.dsfh.encode.length = 24 := r.dsfh_sound.encode_length.trans r.dsfh_size
  have ends : 24 + ((r.strm :: r.sstr :: r.entryChunks).flatMap RtsaChunk.encode).length =
      r.streamArea := by
    rw [List.flatMap_cons, List.flatMap_cons, List.length_append, List.length_append,
      r.strm_sound.encode_length, r.sstr_sound.encode_length, strm_size, sstr_size, streamArea_eq,
      entryBytes]
    omega
  have skipped : RtsaChunk.sampChunks 24 (r.strm :: r.sstr :: r.entryChunks) = r.samps := by
    rw [RtsaChunk.sampChunks, RtsaChunk.sampChunks, strm_size, sstr_size]
    rfl
  rw [← whole, start, ends, skipped] at walked
  rw [sampsBetween, Nat.min_eq_left (by omega), walked]
  rfl

end Recording

end SdrAaronia
