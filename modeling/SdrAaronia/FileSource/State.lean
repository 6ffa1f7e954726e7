import SdrAaronia.HttpStreaming.Decoding
import Mathlib.Logic.Function.Basic

/-! # RTSA capture files

The reader holds the index of the file's SAMP chunks and a cursor counted in
samples.  A read looks for the chunk that holds the cursor and decodes from it.
-/

namespace SdrAaronia

open HttpStreaming

inductive DspStreamSampleType where
  | u8
  | u16
  | s16
  | u32
  | s32
  | f32
  | u8n
  | u16n
  | s16n
  | u32n
  | s32n
  | f32n
  | unknown
  deriving DecidableEq, Repr

inductive DspStreamPayloadType where
  | generic
  | audio
  | iq
  | spectra
  | detection
  | histogram
  | energy
  | vector3
  | structured
  | iqSlice
  | image
  | unknown
  deriving DecidableEq, Repr

/-- The fields of a SAMP chunk that index, seek and read use. -/
structure SampChunk where
  size : Nat
  headerSize : Nat
  streamId : Nat
  subStreamId : Nat
  sampleType : DspStreamSampleType
  payloadType : DspStreamPayloadType
  compression : Int
  sampleSize : Nat
  numSamples : Nat
  size_lt : size < 2 ^ 32 := by decide
  headerSize_lt : headerSize < 2 ^ 16 := by decide
  sampleSize_lt : sampleSize < 2 ^ 32 := by decide
  numSamples_lt : numSamples < 2 ^ 32 := by decide
  deriving DecidableEq

namespace SampChunk

/-- Byte width of one value. -/
def valueBytes (c : SampChunk) : Nat :=
  match c.sampleType with
  | .u8 | .u8n => 1
  | .u16 | .s16 | .u16n | .s16n => 2
  | .u32 | .s32 | .f32 | .u32n | .s32n | .f32n => 4
  | .unknown => 0

def sampleStrideBytes (c : SampChunk) : Nat := c.sampleSize * c.valueBytes

end SampChunk

/-! ## The file -/

structure FileReader where
  bytes : Bytes
  position : Nat
  /-- Place and length of every read so far. -/
  served : List (Nat × Nat)
  deriving DecidableEq, Repr

namespace FileReader

/-- A place is a signed 64-bit number. -/
def seekStart (f : FileReader) (position : Nat) : Except Error FileReader :=
  if position < 2 ^ 63 then .ok { f with position } else .error .invalidSeek

def readExact (f : FileReader) (count : Nat) : Except Error Bytes × FileReader :=
  if count = 0 ∨ f.position + count ≤ f.bytes.length then
    (.ok ((f.bytes.drop f.position).take count),
      { f with
        position := f.position + count
        served := f.served ++ [(f.position, count)] })
  else (.error .unexpectedEof, f)

/-- One bulk read, then a decode in memory. -/
def readDecoded {Value : Type} (f : FileReader) (count : Nat) (decode : Bytes → Value) :
    Except Error Value × FileReader :=
  match f.readExact count with
  | (.error e, f) => (.error e, f)
  | (.ok bytes, f) => (.ok (decode bytes), f)

variable {Real Sample : Type} (decoder : SampleDecoder Real Sample)

def readIqF32 (f : FileReader) (count : Nat) : Except Error (List Sample) × FileReader :=
  f.readDecoded (count * 8) fun bytes =>
    (asChunks 8 bytes).map (decoder.iqPair decoder.float32 4)

def readIqI16 (f : FileReader) (count : Nat) (scale : F64) :
    Except Error (List Sample) × FileReader :=
  f.readDecoded (count * 4) fun bytes =>
    (asChunks 4 bytes).map (decoder.iqPair (decoder.int16 scale) 2)

def readF32Vec (f : FileReader) (count : Nat) : Except Error (List Real) × FileReader :=
  f.readDecoded (count * 4) fun bytes => (asChunks 4 bytes).map decoder.float32

end FileReader

structure SubStreamInfo where
  subStreamId : Nat
  valueMinimum : F64
  valueMaximum : F64
  deriving DecidableEq, Repr

/-- What parsing the chunks of a file yields. -/
structure RtsaParse where
  bytes : Bytes
  totalSamples : Nat
  subStreams : List SubStreamInfo
  iqStreamId : Option Nat
  sampChunkOffsets : List (Nat × SampChunk)
  streamOffset : Option Nat
  /-- The scan seeks past every chunk it enters into the index. -/
  bytes_lt : bytes.length + 2 ^ 32 ≤ 2 ^ 63
  inFile : ∀ chunk ∈ sampChunkOffsets, chunk.1 < bytes.length
  inOrder : sampChunkOffsets.Pairwise fun a b => a.1 < b.1

structure RtsaSource where
  reader : FileReader
  totalSamples : Nat
  subStreams : List SubStreamInfo
  currentSampleIndex : Nat
  iqStreamId : Nat
  sampChunkOffsets : List (Nat × SampChunk)
  /-- The first sample of the chunk at an offset, counted within its sub-stream. -/
  sampChunkStartSamples : Nat → Option Nat
  /-- Where in `sampChunkOffsets` the next scan starts. -/
  chunkScanHint : Nat
  /-- Set for a file without SAMP chunks, whose samples stand at its start. -/
  rawIqDataEndOffset : Option Nat

namespace RtsaSource

/-- The next chunk of the index: its first sample is what its sub-stream counts so
far. -/
def indexChunk (index : (Nat → Option Nat) × (Nat × Nat → Nat)) (chunk : Nat × SampChunk) :
    (Nat → Option Nat) × (Nat × Nat → Nat) :=
  let key := (chunk.2.streamId, chunk.2.subStreamId)
  (Function.update index.1 chunk.1 (some (index.2 key)),
    Function.update index.2 key (index.2 key + chunk.2.numSamples))

def startSamples (chunks : List (Nat × SampChunk)) : Nat → Option Nat :=
  (chunks.foldl indexChunk (fun _ => none, fun _ => 0)).1

def isCompressedIq (chunks : List (Nat × SampChunk)) : Bool :=
  chunks.any fun chunk => decide (chunk.2.payloadType = .iq ∧ 0 < chunk.2.compression)

def ofParse (parsed : RtsaParse) (iqStreamId : Nat) : RtsaSource where
  reader := ⟨parsed.bytes, 0, []⟩
  totalSamples := parsed.totalSamples
  subStreams := parsed.subStreams
  currentSampleIndex := 0
  iqStreamId
  sampChunkOffsets := parsed.sampChunkOffsets
  sampChunkStartSamples := startSamples parsed.sampChunkOffsets
  chunkScanHint := 0
  rawIqDataEndOffset := if parsed.sampChunkOffsets.isEmpty then parsed.streamOffset else none

/-- What came of running the vendor's tool over a compressed file. -/
inductive ToolRun where
  | missing
  | failed
  | wrote (parsed : RtsaParse)

/-- `tool` is asked for only by a file with compressed IQ, and its output is not
decompressed a second time. -/
def openFile (parsed : RtsaParse) (tool : ToolRun) : Except Error RtsaSource :=
  match parsed.iqStreamId with
  | none => .error (.fileFormat 0 "RTSA file missing IQ stream.")
  | some iqStreamId =>
      if isCompressedIq parsed.sampChunkOffsets then
        match tool with
        | .missing =>
            .error (.fileFormat 0
              "DSPT_IQ compression detected, but RTSAFileTool was not found on this system. Please install Aaronia RTSA-Suite PRO to enable decompression.")
        | .failed => .error (.fileFormat 0 "RTSAFileTool failed with status")
        | .wrote plain =>
            match plain.iqStreamId with
            | none => .error (.fileFormat 0 "RTSA file missing IQ stream.")
            | some plainStreamId =>
                if isCompressedIq plain.sampChunkOffsets then
                  .error (.fileFormat 0
                    "Failed to decompress RTSA file: the RTSAFileTool output is still compressed.")
                else .ok (ofParse plain plainStreamId)
      else .ok (ofParse parsed iqStreamId)

end RtsaSource

/-! ## Reading -/

inductive SampleData (Real Sample : Type) where
  | iq (samples : List Sample)
  | spectra (values : List Real)
  deriving DecidableEq, Repr

/-- An offset as the messages print it, in at least eight hex digits. -/
def hexOffset (offset : Nat) : String :=
  let digits := (Nat.toDigits 16 offset).map Char.toUpper
  String.ofList ('0' :: 'x' :: (List.replicate (8 - digits.length) '0' ++ digits))

namespace SampChunk

def isF32 (c : SampChunk) : Bool := c.sampleType == .f32 || c.sampleType == .f32n

def isS16 (c : SampChunk) : Bool := c.sampleType == .s16 || c.sampleType == .s16n

/-- The IQ readers take one pair a sample. -/
def pairMismatch (c : SampChunk) : Bool :=
  c.payloadType == .iq && (c.isF32 || c.isS16) && c.sampleSize != 2

def pairMismatchError (offset : Nat) (c : SampChunk) : Error :=
  .fileFormat offset
    s!"IQ SAMP chunk at {hexOffset offset} declares {c.sampleSize} values per sample; IQ samples are one I/Q pair (2)"

def sizeError (offset : Nat) (c : SampChunk) (samplesBefore : Nat) : Error :=
  .fileFormat offset
    s!"SAMP chunk at {hexOffset offset} declares {c.numSamples} samples but its size holds no complete sample past index {samplesBefore}"

def compressedIqError (offset : Nat) : Error :=
  .fileFormat 0
    s!"compressed DSPT_IQ chunk at {hexOffset offset}: in-band decompression is unsupported (proprietary format); open the file via RtsaSource::open, which decompresses through RTSAFileTool"

def compressedSpectraError (offset : Nat) : Error :=
  .fileFormat 0
    s!"compressed DSPT_SPECTRA chunk at {hexOffset offset}:                                                  in-band decompression is unsupported                                                  (proprietary format); export the file                                                  uncompressed via RTSAFileTool"

/-- The product wraps, as in a release build. -/
def bytesToSkip (c : SampChunk) (samplesBefore : Nat) : Nat :=
  samplesBefore * c.sampleStrideBytes % 2 ^ 64

def dataStartOffset (offset : Nat) (c : SampChunk) (samplesBefore : Nat) : Nat :=
  (offset + c.headerSize + c.bytesToSkip samplesBefore) % 2 ^ 64

/-- The samples a read asks of the chunk, before its size is looked at. -/
def wanted (c : SampChunk) (samplesBefore numSamples : Nat) : Nat :=
  min (min numSamples (2 ^ 32 - 1)) (c.numSamples - samplesBefore)

/-- The whole samples that the chunk's size has past the first `samplesBefore`. -/
def fits (c : SampChunk) (samplesBefore : Nat) : Nat :=
  min ((c.size - c.headerSize - c.bytesToSkip samplesBefore) / c.sampleStrideBytes) (2 ^ 32 - 1)

/-- The size caps a read of an uncompressed chunk. -/
def toRead (c : SampChunk) (samplesBefore numSamples : Nat) : Nat :=
  if c.compression = 0 then min (c.wanted samplesBefore numSamples) (c.fits samplesBefore)
  else c.wanted samplesBefore numSamples

/-- The size has no whole sample where the count still has some. -/
def holdsNone (c : SampChunk) (samplesBefore numSamples : Nat) : Bool :=
  decide (c.compression = 0 ∧ c.toRead samplesBefore numSamples = 0 ∧ 0 < numSamples ∧
    0 < c.numSamples - samplesBefore)

end SampChunk

namespace RtsaSource

variable {Real Sample : Type} (decoder : SampleDecoder Real Sample)

/-- The factor that maps the full 16-bit scale to the sub-stream's value range. -/
def int16ScaleForSubStream (s : RtsaSource) (subStreamId : Nat) : F64 :=
  match s.subStreams.find? (·.subStreamId == subStreamId) with
  | none => 1 / .finite 32768
  | some info =>
      let maxAbs := info.valueMinimum.abs.max info.valueMaximum.abs
      if maxAbs.isFinite ∧ 0 < maxAbs then maxAbs / .finite 32768 else 1 / .finite 32768

def startOf (s : RtsaSource) (offset : Nat) : Nat := (s.sampChunkStartSamples offset).getD 0

def endOf (s : RtsaSource) (chunk : Nat × SampChunk) : Nat :=
  s.startOf chunk.1 + chunk.2.numSamples

/-- The chunk belongs to the stream played and holds the cursor. -/
def selects (s : RtsaSource) (subStreamId : Option Nat) (chunk : Nat × SampChunk) : Bool :=
  decide (chunk.2.streamId = s.iqStreamId ∧
    (subStreamId = none ∨ subStreamId = some chunk.2.subStreamId) ∧
    s.currentSampleIndex < s.endOf chunk ∧ s.startOf chunk.1 ≤ s.currentSampleIndex)

/-- The scan starts at the hint and wraps around. -/
def findChunk (s : RtsaSource) (subStreamId : Option Nat) : Option ((Nat × SampChunk) × Nat) :=
  let chunks := s.sampChunkOffsets.zipIdx
  let hint := min s.chunkScanHint chunks.length
  (chunks.drop hint ++ chunks.take hint).find? fun chunk => s.selects subStreamId chunk.1

/-- `toRead` samples at the reader's place; nothing for a payload or sample type
that is not decoded. -/
def readPayload (s : RtsaSource) (offset : Nat) (c : SampChunk) (toRead : Nat) :
    Except Error (Option (SampleData Real Sample)) × RtsaSource :=
  match c.payloadType with
  | .iq =>
      if c.isF32 then
        if 0 < c.compression then (.error (SampChunk.compressedIqError offset), s)
        else
          match s.reader.readIqF32 decoder toRead with
          | (.error e, reader) => (.error e, { s with reader })
          | (.ok samples, reader) => (.ok (some (.iq samples)), { s with reader })
      else if c.isS16 then
        match s.reader.readIqI16 decoder toRead (s.int16ScaleForSubStream c.subStreamId) with
        | (.error e, reader) => (.error e, { s with reader })
        | (.ok samples, reader) => (.ok (some (.iq samples)), { s with reader })
      else (.ok none, s)
  | .spectra =>
      if c.isF32 then
        if 0 < c.compression then (.error (SampChunk.compressedSpectraError offset), s)
        else
          -- One sample is a whole spectrum of `sampleSize` bins.
          match s.reader.readF32Vec decoder (toRead * c.sampleSize) with
          | (.error e, reader) => (.error e, { s with reader })
          | (.ok values, reader) => (.ok (some (.spectra values)), { s with reader })
      else (.ok none, s)
  | _ =>
      match s.reader.seekStart (offset + c.size) with
      | .error e => (.error e, s)
      | .ok reader => (.ok none, { s with reader })

/-- Samples of the chunk in front of the cursor. -/
def samplesBefore (s : RtsaSource) (offset : Nat) : Nat :=
  (s.currentSampleIndex - s.startOf offset) % 2 ^ 32

def dataStart (s : RtsaSource) (chunk : Nat × SampChunk) : Nat :=
  chunk.2.dataStartOffset chunk.1 (s.samplesBefore chunk.1)

/-- The samples a read takes from the chunk. -/
def toRead (s : RtsaSource) (chunk : Nat × SampChunk) (numSamples : Nat) : Nat :=
  chunk.2.toRead (s.samplesBefore chunk.1) numSamples

/-- Read up to `numSamples` samples at the cursor from the chunk that holds it, or
move the cursor past the chunk. -/
def readChunk (s : RtsaSource) (chunk : Nat × SampChunk) (numSamples : Nat) :
    Except Error (Option (SampleData Real Sample)) × RtsaSource :=
  if chunk.2.pairMismatch then (.error (chunk.2.pairMismatchError chunk.1), s)
  else
    match s.reader.seekStart (s.dataStart chunk) with
    | .error e => (.error e, s)
    | .ok reader =>
        if chunk.2.holdsNone (s.samplesBefore chunk.1) numSamples then
          (.error (chunk.2.sizeError chunk.1 (s.samplesBefore chunk.1)), { s with reader })
        else
          let toRead := s.toRead chunk numSamples
          match { s with reader }.readPayload decoder chunk.1 chunk.2 toRead with
          | (.error e, s') => (.error e, s')
          | (.ok (some data), s') =>
              (.ok (some data), { s' with currentSampleIndex := s.currentSampleIndex + toRead })
          | (.ok none, s') => (.ok none, { s' with currentSampleIndex := s.endOf chunk })

/-- The chunk scan, again after every chunk skipped. -/
def readLoop (numSamples : Nat) (subStreamId : Option Nat) :
    Nat → RtsaSource → Except Error (Option (SampleData Real Sample)) × RtsaSource
  | 0, s => (.ok none, s)
  | fuel + 1, s =>
      match s.findChunk subStreamId with
      | none => (.ok none, s)
      | some (chunk, idx) =>
          match { s with chunkScanHint := idx }.readChunk decoder chunk numSamples with
          | (.error e, s') => (.error e, s')
          | (.ok (some data), s') => (.ok (some data), s')
          | (.ok none, s') => readLoop numSamples subStreamId fuel s'

/-- A file without SAMP chunks: float32 pairs from the start of the file. -/
def readRawIqSamples (s : RtsaSource) (numSamples : Nat) :
    Except Error (Option (SampleData Real Sample)) × RtsaSource :=
  if s.totalSamples ≤ s.currentSampleIndex then (.ok none, s)
  else
    let samplesToRead := min numSamples (s.totalSamples - s.currentSampleIndex)
    if samplesToRead = 0 then (.ok none, s)
    else
      match s.reader.seekStart (s.currentSampleIndex * 8 % 2 ^ 64) with
      | .error e => (.error e, s)
      | .ok reader =>
          match reader.readIqF32 decoder samplesToRead with
          | (.error e, reader) => (.error e, { s with reader })
          | (.ok samples, reader) =>
              (.ok (some (.iq samples)), { s with
                reader
                currentSampleIndex := s.currentSampleIndex + samplesToRead })

/-- A chunk is skipped at most once, so one more scan than there are chunks is
enough. -/
def readSamples (s : RtsaSource) (numSamples : Nat) (subStreamId : Option Nat) :
    Except Error (Option (SampleData Real Sample)) × RtsaSource :=
  if s.rawIqDataEndOffset.isSome then s.readRawIqSamples decoder numSamples
  else readLoop decoder numSamples subStreamId (s.sampChunkOffsets.length + 1) s

/-! ## Moving the cursor -/

def seekToSample (s : RtsaSource) (sampleIndex : Nat) : Except Error Unit × RtsaSource :=
  if s.totalSamples ≤ sampleIndex then
    (.error (.fileFormat 0 "Seek position out of bounds."), s)
  else if s.rawIqDataEndOffset.isSome then
    (.ok (), { s with currentSampleIndex := sampleIndex })
  else
    let holds := fun chunk : Nat × SampChunk =>
      decide (chunk.2.streamId = s.iqStreamId ∧ s.startOf chunk.1 ≤ sampleIndex ∧
        sampleIndex < s.endOf chunk)
    match s.sampChunkOffsets.find? holds with
    | none => (.error (.fileFormat 0 "Could not find sample index in any SAMP chunk."), s)
    | some (offset, c) =>
        let samplesIntoChunk := sampleIndex - s.startOf offset
        match s.reader.seekStart (c.dataStartOffset offset samplesIntoChunk) with
        | .error e => (.error e, s)
        | .ok reader =>
            (.ok (), { s with
              reader
              currentSampleIndex := sampleIndex
              chunkScanHint := 0 })

def reset (s : RtsaSource) : Except Error Unit × RtsaSource :=
  let rewound := { s with currentSampleIndex := 0, chunkScanHint := 0 }
  let start :=
    match s.sampChunkOffsets.find? (·.2.streamId == s.iqStreamId) with
    | some (offset, c) => offset + c.headerSize
    | none => 0
  match s.reader.seekStart start with
  | .error e => (.error e, rewound)
  | .ok reader => (.ok (), { rewound with reader })

end RtsaSource

/-- A call on an open file. -/
inductive RtsaCall where
  | readSamples (numSamples : Nat) (subStreamId : Option Nat)
  | seekToSample (sampleIndex : Nat)
  | reset
  deriving DecidableEq, Repr

namespace RtsaSource

variable {Real Sample : Type} (decoder : SampleDecoder Real Sample)

def call (s : RtsaSource) : RtsaCall → RtsaSource
  | .readSamples numSamples subStreamId => (s.readSamples decoder numSamples subStreamId).2
  | .seekToSample sampleIndex => (s.seekToSample sampleIndex).2
  | .reset => s.reset.2

end RtsaSource

/-! ## A small file -/

/-- A chunk whose size has room for eight bytes. -/
def smallChunk (sampleType : DspStreamSampleType) (payloadType : DspStreamPayloadType)
    (compression : Int) (numSamples : UInt8) : SampChunk where
  size := 72
  headerSize := 64
  streamId := 1
  subStreamId := 0
  sampleType
  payloadType
  compression
  sampleSize := 2
  numSamples := numSamples.toNat
  numSamples_lt := numSamples.toNat_lt.trans (by decide)

def smallBytes : Bytes := List.replicate 580 0

@[simp]
theorem smallBytes_length : smallBytes.length = 580 := List.length_replicate

/-- Two small chunks of the stream played, one behind the other, between the 304 bytes of
a head (`DSFH`, `STRM`, `SSTR`) and the 132 of a tail (`STRT`, `DSFT`). -/
def smallFile (first second : SampChunk) : RtsaParse where
  bytes := smallBytes
  totalSamples := first.numSamples + second.numSamples
  subStreams := []
  iqStreamId := some 1
  sampChunkOffsets := [(304, first), (376, second)]
  streamOffset := none
  bytes_lt := by simp
  inFile := by simp
  inOrder := by simp

end SdrAaronia
