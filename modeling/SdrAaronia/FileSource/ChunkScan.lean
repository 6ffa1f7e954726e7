import SdrAaronia.FileSource.ChunkReader

/-! # The scan for SAMP chunks

The scan steps from chunk to chunk by their sizes.  Where no chunk is, it looks
for the next known id, a block of the file at a time.
-/

namespace SdrAaronia

open HttpStreaming Reading

def maxRtsaChunkSize : Nat := 1000000000

structure RtsaChunkHeader where
  id : Bytes
  size : UInt32
  flags : UInt32
  version : UInt16
  headerSize : UInt16
  deriving DecidableEq, Repr

def chunkId (name : String) : Bytes := name.toList.map fun c => UInt8.ofNat c.toNat

def isValidRtsaChunkId (id : Bytes) : Bool :=
  ["DSFH", "STRM", "SAMP", "SSTR", "SSCA", "ANTA", "MDTT", "SPRV", "STRT", "DSFT", "ANTS"].any
    fun name => id == chunkId name

def RtsaChunkHeader.readFrom : Reading RtsaChunkHeader := do
  let id ← exact 4
  let size ← u32
  if maxRtsaChunkSize < size.toNat then
    fail (.fileFormat 0
      s!"RTSA chunk '{Utf8.fromUtf8Lossy id}' size {size.toNat} exceeds maximum ({maxRtsaChunkSize})")
  else
    let flags ← u32
    let version ← u16
    let headerSize ← u16
    return { id, size, flags, version, headerSize }

def DspStreamSampleType.ofByte (value : UInt8) : DspStreamSampleType :=
  match value.toNat with
  | 0 => .u8
  | 1 => .u16
  | 2 => .s16
  | 3 => .u32
  | 4 => .s32
  | 5 => .f32
  | 6 => .u8n
  | 7 => .u16n
  | 8 => .s16n
  | 9 => .u32n
  | 10 => .s32n
  | 11 => .f32n
  | _ => .unknown

def DspStreamPayloadType.ofByte (value : UInt8) : DspStreamPayloadType :=
  match value.toNat with
  | 0 => .generic
  | 1 => .audio
  | 2 => .iq
  | 3 => .spectra
  | 4 => .detection
  | 5 => .histogram
  | 6 => .energy
  | 7 => .vector3
  | 8 => .structured
  | 9 => .iqSlice
  | 10 => .image
  | _ => .unknown

/-- Behind the header.  The unit, the two packet times, the packet flags and the
depth are read past. -/
def SampChunk.readFrom (size : UInt32) (headerSize : UInt16) : Reading SampChunk := do
  let streamId ← u64
  let subStreamId ← u32
  let sampleType ← u8
  let _sampleUnit ← u8
  let payloadType ← u8
  let compression ← i8
  let _packetStartTime ← number 8
  let _packetEndTime ← number 8
  let _packetFlags ← u32
  let sampleSize ← u32
  let _sampleDepth ← u32
  let numSamples ← u32
  let samp : SampChunk :=
    { size := size.toNat
      headerSize := headerSize.toNat
      streamId := streamId.toNat
      subStreamId := subStreamId.toNat
      sampleType := .ofByte sampleType
      payloadType := .ofByte payloadType
      compression
      sampleSize := sampleSize.toNat
      numSamples := numSamples.toNat
      size_lt := size.toNat_lt
      headerSize_lt := headerSize.toNat_lt
      sampleSize_lt := sampleSize.toNat_lt
      numSamples_lt := numSamples.toNat_lt }
  if 64 < size.toNat then
    seekCurrent (size.toNat - 64 : Nat)
    return samp
  else return samp

/-! ## Resynchronisation -/

def resyncBlock : Nat := 64 * 1024

/-- Up to `count` bytes, fewer only at the end of the file. -/
def readUpTo (count : Nat) : Reading Bytes := fun f =>
  let bytes := window f.bytes f.position count
  (.ok bytes, f.advanced bytes.length)

/-- The first of the windows of four bytes that is a known id. -/
def knownIdIn (block : Bytes) : Option Nat :=
  (List.range (block.length - 3)).find? fun i => isValidRtsaChunkId (window block i 4)

/-- Blocks from `pos` on; the next one steps back three bytes, so that an id across
two blocks is seen. -/
def resyncBlocks (stop pos : Nat) : Reading Unit :=
  if pos < stop then do
    let block ← readUpTo (min resyncBlock (stop - pos))
    match knownIdIn block with
    | some i => seekStart (pos + i)
    | none =>
        if _enough : 4 ≤ block.length then
          seekStart (pos + (block.length - 3))
          resyncBlocks stop (pos + (block.length - 3))
        else seekStart stop
  else seekStart stop
termination_by stop - pos
decreasing_by omega

/-- Leave the reader at the first known id from `start` on, or at `stop`. -/
def resyncToChunkId (start stop : Nat) : Reading Unit := do
  seekStart start
  resyncBlocks stop start

/-! ## The scan -/

/-- The reader and the chunks appended so far. -/
structure SampScan where
  reader : FileReader
  sampChunkOffsets : List (Nat × SampChunk)

namespace SampScan

def reading (s : SampScan) (reading : Reading Unit) (reader : FileReader) :
    Except Error Unit × SampScan :=
  match reading reader with
  | (result, reader) => (result, { s with reader })

/-- One round of the loop. -/
def round (stop : Nat) (s : SampScan) : Except Error Unit × SampScan :=
  let currentPos := s.reader.position
  match RtsaChunkHeader.readFrom s.reader with
  | (.error _, f) => s.reading (resyncToChunkId (currentPos + 1) stop) f
  | (.ok header, f) =>
      if header.size.toNat < 16 ∨ isValidRtsaChunkId header.id = false then
        s.reading (resyncToChunkId (currentPos + 1) stop) f
      else
        let nextChunkPos := currentPos + header.size.toNat
        if header.id = chunkId "SAMP" then
          match SampChunk.readFrom header.size header.headerSize f with
          | (.error e, f) => (.error e, { s with reader := f })
          | (.ok samp, f) =>
              { s with sampChunkOffsets := s.sampChunkOffsets ++ [(currentPos, samp)] }.reading
                (seekStart nextChunkPos) f
        else s.reading (seekStart nextChunkPos) f

end SampScan

/-! ## Progress -/

theorem seekStart_position {position : Nat} {u : Unit} {f f' : FileReader}
    (moved : seekStart position f = (.ok u, f')) : f'.position = position := by
  obtain ⟨-, rfl⟩ := seekStart_ok_iff.mp moved
  rfl

theorem readUpTo_ok_iff {count : Nat} {f f' : FileReader} {bytes : Bytes} :
    readUpTo count f = (.ok bytes, f') ↔
      bytes = window f.bytes f.position count ∧ f' = f.advanced bytes.length := by
  simp only [readUpTo, Prod.mk.injEq, Except.ok.injEq]
  constructor
  · rintro ⟨rfl, rfl⟩
    exact ⟨rfl, rfl⟩
  · rintro ⟨rfl, rfl⟩
    exact ⟨rfl, rfl⟩

theorem resyncBlocks_forward {stop pos : Nat} {u : Unit} {f f' : FileReader}
    (inside : pos ≤ stop) (left : resyncBlocks stop pos f = (.ok u, f')) :
    pos ≤ f'.position := by
  induction size : stop - pos using Nat.strong_induction_on generalizing pos f with
  | _ n ih =>
      rw [resyncBlocks] at left
      split at left
      · obtain ⟨block, f₁, read, rest⟩ := bind_ok_iff.mp left
        obtain ⟨same, -⟩ := readUpTo_ok_iff.mp read
        have short : block.length ≤ stop - pos := by
          rw [same, window, List.length_take]
          omega
        cases known : knownIdIn block with
        | some i =>
            simp only [known] at rest
            rw [seekStart_position rest]
            exact Nat.le_add_right pos i
        | none =>
            simp only [known] at rest
            split at rest
            · obtain ⟨u', f₂, -, later⟩ := bind_ok_iff.mp rest
              exact (Nat.le_add_right _ _).trans (ih _ (by omega) (by omega) later rfl)
            · rw [seekStart_position rest]
              exact inside
      · rw [seekStart_position left]
        exact inside

namespace SampScan

theorem reading_ok {s s' : SampScan} {step : Reading Unit} {f : FileReader} {u : Unit}
    (ended : s.reading step f = (.ok u, s')) :
    step f = (.ok u, s'.reader) ∧ s'.sampChunkOffsets = s.sampChunkOffsets := by
  rw [reading] at ended
  cases ran : step f with
  | mk result f' =>
      rw [ran] at ended
      simp only [Prod.mk.injEq] at ended
      obtain ⟨rfl, rfl⟩ := ended
      exact ⟨rfl, rfl⟩

theorem resync_forward {stop start : Nat} {u : Unit} {f f' : FileReader} (inside : start ≤ stop)
    (left : resyncToChunkId start stop f = (.ok u, f')) : start ≤ f'.position := by
  obtain ⟨u', f₁, -, later⟩ := bind_ok_iff.mp left
  exact resyncBlocks_forward inside later

/-- A round that does not fail moves the reader forward. -/
theorem round_forward {stop : Nat} {s s' : SampScan} {u : Unit} (more : s.reader.position < stop)
    (ended : s.round stop = (.ok u, s')) : s.reader.position < s'.reader.position := by
  rw [round] at ended
  split at ended
  · exact resync_forward more (reading_ok ended).1
  · rename_i header f found
    split at ended
    · exact resync_forward more (reading_ok ended).1
    · rename_i known
      have large : 16 ≤ header.size.toNat := Nat.le_of_not_lt fun small => known (.inl small)
      simp only at ended
      split at ended
      · split at ended
        · simp at ended
        · have moved := seekStart_position (reading_ok ended).1
          omega
      · have moved := seekStart_position (reading_ok ended).1
        omega

/-- Rounds until the reader is at the end or one fails. -/
def loop (stop : Nat) (s : SampScan) : Except Error Unit × SampScan :=
  if _more : s.reader.position < stop then
    match _round : s.round stop with
    | (.error e, s') => (.error e, s')
    | (.ok _, s') => loop stop s'
  else (.ok (), s)
termination_by stop - s.reader.position
decreasing_by
  have := round_forward _more _round
  omega

end SampScan

def scanForSampChunks (startPos endPos : Nat) (s : SampScan) : Except Error Unit × SampScan :=
  let actualEndPos := min endPos s.reader.bytes.length
  match seekStart startPos s.reader with
  | (.error e, f) => (.error e, { s with reader := f })
  | (.ok _, f) => { s with reader := f }.loop actualEndPos

end SdrAaronia
