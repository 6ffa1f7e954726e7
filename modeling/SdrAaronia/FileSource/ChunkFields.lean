import SdrAaronia.FileSource.MetaType
import SdrAaronia.FileSource.Preview

/-! # The fields of the other chunks

What the parser reads of the chunks that tell where streams, sub-streams and
antennas are.  Doubles and floats are kept as their bits.
-/

namespace SdrAaronia

open HttpStreaming Reading

/-- Skip what a chunk declares beyond its fields, header included. -/
def Reading.passRest (size : UInt32) (fields : Nat) : Reading Unit :=
  if fields < size.toNat then seekCurrent (size.toNat - fields : Nat) else pure ()

structure DsfhChunk where
  header : RtsaChunkHeader
  creationTime : UInt64
  deriving DecidableEq, Repr

def DsfhChunk.readFrom (size : UInt32) : Reading DsfhChunk := do
  let creationTime ← u64
  return { header := ⟨chunkId "DSFH", size, 0, 1, 8⟩, creationTime }

structure DsftChunk where
  header : RtsaChunkHeader
  completionTime : UInt64
  streamOffset : Nat
  numStreams : UInt32
  deriving DecidableEq, Repr

/-- A negative stream offset means no stream area, as zero does. -/
def DsftChunk.readFrom (size : UInt32) : Reading DsftChunk := do
  let completionTime ← u64
  let streamOffset ← i64
  let numStreams ← u32
  return { header := ⟨chunkId "DSFT", size, 0, 1, 20⟩, completionTime,
           streamOffset := streamOffset.toNat, numStreams }

structure StrmChunk where
  header : RtsaChunkHeader
  streamId : UInt64
  startTime : UInt64
  streamOffset : Int
  captureStartOffset : Option UInt64
  deriving DecidableEq, Repr

namespace StrmChunk

/-- About ten years. -/
def maxPlausibleCaptureOffsetS : F64 := .finite 320000000

def isPlausible (offset : UInt64) : Bool :=
  decide (0 ≤ F64.ofBits offset ∧ F64.ofBits offset < maxPlausibleCaptureOffsetS)

/-- A chunk with exactly one more double tells where in the stream the capture starts. -/
def readCaptureStart (size : UInt32) : Reading (Option UInt64) :=
  if size.toNat = 48 then do
    let offset ← u64
    return if isPlausible offset then some offset else none
  else do
    passRest size 40
    return none

def readFrom (size : UInt32) : Reading StrmChunk := do
  let streamId ← u64
  let startTime ← u64
  let streamOffset ← i64
  let captureStartOffset ← readCaptureStart size
  return { header := ⟨chunkId "STRM", size, 0, 1, 24⟩, streamId, startTime, streamOffset,
           captureStartOffset }

end StrmChunk

structure SstrChunk where
  header : RtsaChunkHeader
  streamId : UInt64
  subStreamId : UInt32
  subStreamOffset : Int
  frequencyStart : UInt64
  frequencyStep : UInt64
  frequencySpan : UInt64
  valueMinimum : UInt64
  valueMaximum : UInt64
  direction : UInt64
  antennaIndex : UInt32
  numCategories : UInt32
  name : Bytes
  antennaId : UInt64
  metadataId : UInt64
  deriving DecidableEq, Repr

def SstrChunk.readFrom (size : UInt32) : Reading SstrChunk := do
  let streamId ← u64
  let subStreamId ← u32
  seekCurrent (4 : Nat)
  let subStreamOffset ← i64
  let frequencyStart ← u64
  let frequencyStep ← u64
  let frequencySpan ← u64
  let valueMinimum ← u64
  let valueMaximum ← u64
  let direction ← u64
  let antennaIndex ← u32
  let numCategories ← u32
  let name ← exact 128
  let antennaId ← u64
  let metadataId ← u64
  passRest size 240
  return { header := ⟨chunkId "SSTR", size, 0, 1, 224⟩, streamId, subStreamId, subStreamOffset,
           frequencyStart, frequencyStep, frequencySpan, valueMinimum, valueMaximum, direction,
           antennaIndex, numCategories, name, antennaId, metadataId }

structure AntaChunk where
  header : RtsaChunkHeader
  antennaId : UInt64
  antennaOffset : Int
  name : Bytes
  latitude : UInt64
  longitude : UInt64
  flags : UInt32
  numSegments : UInt32
  /-- Four rows of four. -/
  transform : List UInt32
  antennaUuid : Bytes
  deriving DecidableEq, Repr

/-- Location, transform, direction, rotation. -/
def AntaChunk.allFlags : UInt32 := 0x01 ||| 0x02 ||| 0x04 ||| 0x08

def AntaChunk.readFrom (size : UInt32) : Reading AntaChunk := do
  let antennaId ← u64
  let antennaOffset ← i64
  let name ← exact 128
  let latitude ← u64
  let longitude ← u64
  let flags ← u32
  let numSegments ← u32
  let transform ← times u32 16
  let antennaUuid ← exact 16
  passRest size 264
  return { header := ⟨chunkId "ANTA", size, 0, 1, 248⟩, antennaId, antennaOffset, name, latitude,
           longitude, flags := flags &&& allFlags, numSegments, transform, antennaUuid }

structure StrtChunk where
  header : RtsaChunkHeader
  streamOffset : Int
  subStreamOffset : Int
  previewOffset : Int
  numSamples : UInt64
  payloadSize : UInt64
  previewLevels : UInt32
  numPreviews : UInt32
  numPreviewSegments : UInt32
  endTime : UInt64
  antennaOffset : Int
  metadataOffset : Int
  deriving DecidableEq, Repr

/-- An offset that stands there only if the chunk is large enough. -/
def StrtChunk.readOffset (size : UInt32) (needed : Nat) : Reading Int :=
  if needed ≤ size.toNat then i64 else pure 0

def StrtChunk.readFrom (size : UInt32) : Reading StrtChunk := do
  let streamOffset ← i64
  let subStreamOffset ← i64
  let previewOffset ← i64
  let numSamples ← u64
  let payloadSize ← u64
  let previewLevels ← u32
  let numPreviews ← u32
  let numPreviewSegments ← u32
  seekCurrent (4 : Nat)
  let endTime ← u64
  let antennaOffset ← readOffset size 88
  let metadataOffset ← readOffset size 96
  passRest size (if 96 ≤ size.toNat then 96 else if 88 ≤ size.toNat then 88 else 80)
  return { header := ⟨chunkId "STRT", size, 0, 1, 80⟩, streamOffset, subStreamOffset,
           previewOffset, numSamples, payloadSize, previewLevels, numPreviews, numPreviewSegments,
           endTime, antennaOffset, metadataOffset }

/-! ## Readings do not depend on earlier ones -/

/-- Readers at the same place of the same file, whatever they read before. -/
def FileReader.Alike (f g : FileReader) : Prop := g.bytes = f.bytes ∧ g.position = f.position

namespace Reading

/-- What a reading gives depends on the file and the place alone. -/
structure Steady {Value : Type} (reading : Reading Value) : Prop where
  keeps : Keeps reading
  alike : ∀ f g : FileReader, f.Alike g →
    (reading g).1 = (reading f).1 ∧ (reading f).2.Alike (reading g).2

variable {Value Result : Type}

theorem steady_pure (value : Value) : Steady (pure value : Reading Value) where
  keeps := keeps_pure value
  alike := fun _ _ same => ⟨rfl, same⟩

theorem steady_fail (e : Error) : Steady (fail e : Reading Value) where
  keeps := keeps_fail e
  alike := fun _ _ same => ⟨rfl, same⟩

theorem Steady.bind {first : Reading Value} {next : Value → Reading Result}
    (steady : Steady first) (steadyNext : ∀ value, Steady (next value)) :
    Steady (first >>= next) where
  keeps := steady.keeps.bind fun value => (steadyNext value).keeps
  alike := by
    intro f g same
    obtain ⟨result, after⟩ := steady.alike f g same
    rw [bind_apply, bind_apply]
    cases read : first f with
    | mk outcome f' =>
        cases again : first g with
        | mk outcome' g' =>
            rw [read, again] at result after
            simp only at result
            rw [result]
            cases outcome with
            | ok value => exact (steadyNext value).alike f' g' after
            | error e => exact ⟨rfl, after⟩

theorem steady_exact (width : Nat) : Steady (exact width) where
  keeps := keeps_exact width
  alike := by
    rintro f g ⟨bytes, position⟩
    simp only [exact, FileReader.readExact, bytes, position]
    split
    · exact ⟨rfl, rfl, rfl⟩
    · exact ⟨rfl, bytes, position⟩

theorem steady_number (width : Nat) : Steady (number width) :=
  (steady_exact width).bind fun _ => steady_pure _

theorem steady_u8 : Steady u8 := (steady_number 1).bind fun _ => steady_pure _
theorem steady_u32 : Steady u32 := (steady_number 4).bind fun _ => steady_pure _
theorem steady_u64 : Steady u64 := (steady_number 8).bind fun _ => steady_pure _
theorem steady_i64 : Steady i64 := (steady_number 8).bind fun _ => steady_pure _

theorem steady_seekStart (position : Nat) : Steady (seekStart position) where
  keeps := keeps_seekStart position
  alike := by
    intro f g same
    simp only [seekStart, FileReader.seekStart]
    by_cases near : position < 2 ^ 63
    · rw [if_pos near, if_pos near]
      exact ⟨rfl, same.1, rfl⟩
    · rw [if_neg near, if_neg near]
      exact ⟨rfl, same⟩

theorem steady_seekCurrent (offset : Int) : Steady (seekCurrent offset) where
  keeps := keeps_seekCurrent offset
  alike := by
    intro f g same
    rw [seekCurrent, seekCurrent, same.2]
    split
    · exact (steady_seekStart _).alike f g same
    · exact ⟨rfl, same⟩

theorem steady_passRest (size : UInt32) (fields : Nat) : Steady (passRest size fields) := by
  rw [passRest]
  split
  · exact steady_seekCurrent _
  · exact steady_pure _

theorem steady_times {reading : Reading Value} (steady : Steady reading) (count : Nat) :
    Steady (times reading count) := by
  induction count with
  | zero => exact steady_pure _
  | succ count ih => exact steady.bind fun _ => ih.bind fun _ => steady_pure _

end Reading

theorem steady_readDsfh (size : UInt32) : Steady (DsfhChunk.readFrom size) :=
  steady_u64.bind fun _ => steady_pure _

theorem steady_readDsft (size : UInt32) : Steady (DsftChunk.readFrom size) :=
  steady_u64.bind fun _ => steady_i64.bind fun _ => steady_u32.bind fun _ => steady_pure _

theorem steady_readStrm (size : UInt32) : Steady (StrmChunk.readFrom size) := by
  refine steady_u64.bind fun _ => steady_u64.bind fun _ => steady_i64.bind fun _ =>
    Steady.bind ?_ fun _ => steady_pure _
  rw [StrmChunk.readCaptureStart]
  split
  · exact steady_u64.bind fun _ => steady_pure _
  · exact (steady_passRest size 40).bind fun _ => steady_pure _

theorem steady_readSstr (size : UInt32) : Steady (SstrChunk.readFrom size) :=
  steady_u64.bind fun _ => steady_u32.bind fun _ => (steady_seekCurrent _).bind fun _ =>
    steady_i64.bind fun _ => steady_u64.bind fun _ => steady_u64.bind fun _ =>
    steady_u64.bind fun _ => steady_u64.bind fun _ => steady_u64.bind fun _ =>
    steady_u64.bind fun _ => steady_u32.bind fun _ => steady_u32.bind fun _ =>
    (steady_exact _).bind fun _ => steady_u64.bind fun _ => steady_u64.bind fun _ =>
    (steady_passRest _ _).bind fun _ => steady_pure _

theorem steady_readAnta (size : UInt32) : Steady (AntaChunk.readFrom size) :=
  steady_u64.bind fun _ => steady_i64.bind fun _ => (steady_exact _).bind fun _ =>
    steady_u64.bind fun _ => steady_u64.bind fun _ => steady_u32.bind fun _ =>
    steady_u32.bind fun _ => (steady_times steady_u32 16).bind fun _ =>
    (steady_exact _).bind fun _ => (steady_passRest _ _).bind fun _ => steady_pure _

theorem steady_readMdtt (size : UInt32) : Steady (MdttChunk.readFrom size) := by
  refine steady_u64.bind fun _ => steady_i64.bind fun _ => ?_
  simp only
  split
  · exact steady_fail _
  · split
    · refine (steady_exact _).bind fun _ => Steady.bind ?_ fun _ => steady_pure _
      rename_i payload
      cases (MdttChunk.readMetaTypeDefinition (MdttChunk.cursor payload)).1 with
      | ok definition => exact steady_pure _
      | error e => exact steady_fail _
    · exact steady_pure _

theorem steady_readStrt (size : UInt32) : Steady (StrtChunk.readFrom size) := by
  have versioned : ∀ needed, Steady (StrtChunk.readOffset size needed) := by
    intro needed
    rw [StrtChunk.readOffset]
    split
    · exact steady_i64
    · exact steady_pure _
  exact steady_i64.bind fun _ => steady_i64.bind fun _ => steady_i64.bind fun _ =>
    steady_u64.bind fun _ => steady_u64.bind fun _ => steady_u32.bind fun _ =>
    steady_u32.bind fun _ => steady_u32.bind fun _ => (steady_seekCurrent _).bind fun _ =>
    steady_u64.bind fun _ => (versioned 88).bind fun _ => (versioned 96).bind fun _ =>
    (steady_passRest _ _).bind fun _ => steady_pure _

end SdrAaronia
