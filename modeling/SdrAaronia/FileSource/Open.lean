import SdrAaronia.FileSource.ChunkChain
import SdrAaronia.FileSource.Chains

/-! # Opening a capture file

The tail of the file tells where its streams are.  The stream's own tail names its first
chunk and the chains of the chunks that describe it; without one the parser looks for a
stream near by.
-/

namespace SdrAaronia

open HttpStreaming Reading

/-- A file on disk; no file system holds more. -/
structure DiskFile where
  bytes : Bytes
  bytes_lt : bytes.length + 2 ^ 32 ≤ 2 ^ 63

/-- The chunks found so far. -/
structure RtsaParseState where
  dsfhChunk : Option DsfhChunk
  strmChunks : Table UInt64 StrmChunk
  sstrChunks : Table UInt32 SstrChunk
  strtChunk : Option StrtChunk
  antaChunks : Table UInt64 AntaChunk
  mdttChunks : Table UInt64 MdttChunk
  sprvChunks : List (Nat × SprvChunk)
  sampChunkOffsets : List (Nat × SampChunk)
  iqStreamId : Option UInt64

namespace RtsaParseState

def initial (dsfh : DsfhChunk) : RtsaParseState where
  dsfhChunk := some dsfh
  strmChunks := ∅
  sstrChunks := ∅
  strtChunk := none
  antaChunks := ∅
  mdttChunks := ∅
  sprvChunks := []
  sampChunkOffsets := []
  iqStreamId := none

def insertStrm (state : RtsaParseState) (strm : StrmChunk) : RtsaParseState :=
  { state with
    iqStreamId := some strm.streamId
    strmChunks := state.strmChunks.insert strm.streamId strm }

end RtsaParseState

/-! ## The parser -/

/-- `as u64`. -/
def asU64 (offset : Int) : Nat := (offset % 2 ^ 64).toNat

def whenPositive {Value : Type} (offset : Int) (parse : Nat → Value → Reading Value)
    (value : Value) : Reading Value :=
  if 0 < offset then parse offset.toNat value else pure value

/-- The stream whose chunk is at the place; another chunk there is passed over. -/
def readStrmAt (place : Nat) (state : RtsaParseState) : Reading RtsaParseState := do
  seekStart place
  let header ← RtsaChunkHeader.readFrom
  if header.id = chunkId "STRM" then do
    let strm ← StrmChunk.readFrom header.size
    return state.insertStrm strm
  else return state

def scanInto (startPos endPos : Nat) (state : RtsaParseState) : Reading RtsaParseState := fun f =>
  match scanForSampChunks startPos endPos ⟨f, state.sampChunkOffsets⟩ with
  | (.ok _, s) => (.ok { state with sampChunkOffsets := s.sampChunkOffsets }, s.reader)
  | (.error e, s) => (.error e, s.reader)

def processStrtBasedStructure (strt : StrtChunk) (state : RtsaParseState) (dsft : DsftChunk) :
    Reading RtsaParseState := do
  let sstrChunks ← whenPositive strt.subStreamOffset parseSstrChain state.sstrChunks
  let antaChunks ← whenPositive strt.antennaOffset parseAntaChain state.antaChunks
  let mdttChunks ← whenPositive strt.metadataOffset parseMdttChain state.mdttChunks
  let sprvChunks ← whenPositive strt.previewOffset readSprvTree state.sprvChunks
  let state ← readStrmAt (asU64 strt.streamOffset)
    { state with sstrChunks, antaChunks, mdttChunks, sprvChunks }
  scanInto (asU64 strt.streamOffset) dsft.streamOffset state

def strmMissing : Error := .fileFormat 0 "Could not find STRM chunks via proximity search"

def strmSearchStart (streamAreaOffset : Nat) : Nat := saturatingSub streamAreaOffset 4096

/-- `saturating_add(100_000_000)`. -/
def scanEnd (streamAreaOffset : Nat) : Nat := min (streamAreaOffset + 100000000) (2 ^ 64 - 1)

/-- The first `STRM` around the stream area, if its size is plausible. -/
def findStrmNear (streamAreaOffset : Nat) : Reading (Option Nat) := do
  seekStart (strmSearchStart streamAreaOffset)
  let buffer ← readUpTo 8192
  return (sizedIdIn "STRM" 20 1000 buffer).map (strmSearchStart streamAreaOffset + ·)

def readStrmFound (state : RtsaParseState) : Option Nat → Reading RtsaParseState
  | some place => readStrmAt place state
  | none => pure state

def scanStream (streamAreaOffset : Nat) (state : RtsaParseState) : Reading RtsaParseState :=
  if state.strmChunks.entries = [] then fail strmMissing
  else scanInto streamAreaOffset (scanEnd streamAreaOffset) state

def processStrhBasedStructure (streamAreaOffset : Nat) (state : RtsaParseState) :
    Reading RtsaParseState := do
  let place ← findStrmNear streamAreaOffset
  let state ← readStrmFound state place
  scanStream streamAreaOffset state

/-- The outcome itself, whether it is a value or an error. -/
def attempt {Value : Type} (reading : Reading Value) : Reading (Except Error Value) := fun f =>
  (.ok (reading f).1, (reading f).2)

def processStreams (dsft : DsftChunk) (state : RtsaParseState) :
    Except Error StrtChunk → Reading RtsaParseState
  | .ok strt => do
      let state ← processStrtBasedStructure strt state dsft
      return { state with strtChunk := some strt }
  | .error _ => processStrhBasedStructure dsft.streamOffset state

def dsfhExpected (dsfhOffset : Nat) : Error :=
  .fileFormat 0 s!"Expected DSFH chunk at offset {hexOffset dsfhOffset}"

def noStreams : Error :=
  .fileFormat 0 "No streams found in RTSA file (DSFT stream_offset is 0)"

def readDsfhAt (dsfhOffset : Nat) : Reading DsfhChunk := do
  seekStart dsfhOffset
  let header ← RtsaChunkHeader.readFrom
  if header.id = chunkId "DSFH" then DsfhChunk.readFrom header.size
  else fail (dsfhExpected dsfhOffset)

/-- The stream area's offset is told only of a file without SAMP chunks. -/
def rawOffset (dsft : DsftChunk) (state : RtsaParseState) : Option Nat :=
  if state.sampChunkOffsets.isEmpty ∧ 0 < dsft.streamOffset then some dsft.streamOffset else none

def readStreams (dsft : DsftChunk) (dsfh : DsfhChunk) : Reading (RtsaParseState × Option Nat) :=
  if 0 < dsft.streamOffset then do
    let found ← attempt (findStrtNearStream dsft.streamOffset)
    let state ← processStreams dsft (.initial dsfh) found
    return (state, rawOffset dsft state)
  else fail noStreams

def parseRtsaWithTail (fileSize : Nat) : Reading (RtsaParseState × Option Nat) := do
  let dsft ← findDsftTail fileSize
  let dsfhOffset ← findDsfhNearStream dsft.streamOffset
  let dsfh ← readDsfhAt dsfhOffset
  readStreams dsft dsfh

/-! ## The same without a reader -/

section Reference

variable (bytes : Bytes)

/-- The stream whose chunk is at the place. -/
def streamAt (place : Nat) (state : RtsaParseState) : Option RtsaParseState :=
  (headerAt bytes place).bind fun header =>
    if header.id = chunkId "STRM" then
      (StrmChunk.readFrom header.size ⟨bytes, place + 16, []⟩).1.toOption.map state.insertStrm
    else some state

/-- The SAMP chunks that the walk visits, if it gets to the end. -/
def sampsBetween (startPos endPos : Nat) (state : RtsaParseState) : Option RtsaParseState :=
  let walk := referenceWalk bytes (min endPos bytes.length) startPos
  if walk.1 then some { state with sampChunkOffsets := state.sampChunkOffsets ++ walk.2 } else none

def sstrTable (offset : Int) : Table UInt32 SstrChunk :=
  (sstrKind.chunksFrom bytes offset.toNat).foldl (fun t chunk => insertSstr t chunk.1 chunk.2) ∅

def antaTable (offset : Int) : Table UInt64 AntaChunk :=
  (antaKind.chunksFrom bytes offset.toNat).foldl (fun t chunk => insertAnta t chunk.1 chunk.2) ∅

def mdttTable (offset : Int) : Table UInt64 MdttChunk :=
  (mdttKind.chunksFrom bytes offset.toNat).foldl (fun t chunk => insertMdtt t chunk.1 chunk.2) ∅

/-- A file that the stream's tail describes. -/
def described (dsft : DsftChunk) (dsfh : DsfhChunk) (strt : StrtChunk) : Option RtsaParseState :=
  ((streamAt bytes (asU64 strt.streamOffset)
    { RtsaParseState.initial dsfh with
      sstrChunks := sstrTable bytes strt.subStreamOffset
      antaChunks := antaTable bytes strt.antennaOffset
      mdttChunks := mdttTable bytes strt.metadataOffset
      sprvChunks := sprvKind.chunksFrom bytes strt.previewOffset.toNat }).bind
    (sampsBetween bytes (asU64 strt.streamOffset) dsft.streamOffset)).map
      fun state => { state with strtChunk := some strt }

def strmNear (streamAreaOffset : Nat) : Option Nat :=
  (sizedIdIn "STRM" 20 1000 (window bytes (strmSearchStart streamAreaOffset) 8192)).map
    (strmSearchStart streamAreaOffset + ·)

/-- A file whose stream is found by its place alone. -/
def nearby (dsft : DsftChunk) (dsfh : DsfhChunk) : Option RtsaParseState :=
  ((strmNear bytes dsft.streamOffset).bind (streamAt bytes · (.initial dsfh))).bind fun state =>
    if state.strmChunks.entries = [] then none
    else sampsBetween bytes dsft.streamOffset (scanEnd dsft.streamOffset) state

/-- What the parser gives on a file: tail, head, stream tail or else a stream near by, and
everything that these lead to. -/
def captureOf : Option (RtsaParseState × Option Nat) :=
  (tailOf bytes).bind fun dsft =>
    ((headNear bytes dsft.streamOffset).bind
      (chunkAt "DSFH" DsfhChunk.readFrom bytes)).bind fun dsfh =>
        if dsft.streamOffset = 0 then none
        else
          ((streamTailOf bytes dsft.streamOffset).elim (nearby bytes dsft dsfh)
            (described bytes dsft dsfh)).map fun state => (state, rawOffset dsft state)

end Reference

/-! ## The parser gives it -/

variable {Value Result Collected Chunk : Type} {f : FileReader} {bytes : Bytes}

/-- A last step only converts what was read. -/
theorem converted {first : Reading Value} (convert : Value → Result) {expected : Option Value}
    (gives : (first f).1.toOption = expected) :
    ((first >>= fun value => pure (convert value)) f).1.toOption = expected.map convert := by
  rw [bind_apply]
  cases read : first f with
  | mk result f' =>
      rw [read] at gives
      rw [← gives]
      cases result with
      | ok value => rfl
      | error e => rfl

/-- What comes behind a reading gives what is expected from there. -/
theorem Reading.Finds.onward {first : Reading Value} {next : Value → Reading Result}
    {expected : Option Value} {onward : Value → Option Result} (finds : first.Finds f expected)
    (later : ∀ value f', expected = some value → f'.bytes = f.bytes →
      (next value f').1.toOption = onward value) :
    ((first >>= next) f).1.toOption = expected.bind onward := by
  have value := finds.value
  have bytes := finds.bytes
  rw [bind_apply]
  cases read : first f with
  | mk result f' =>
      rw [read] at value bytes
      rw [← value]
      cases result with
      | ok found => exact later found f' value.symm bytes
      | error e => rfl

theorem Reading.Finds.onward_some {first : Reading Value} {next : Value → Reading Result}
    {value : Value} {expected : Option Result} (finds : first.Finds f (some value))
    (same : f.bytes = bytes)
    (later : ∀ f' : FileReader, f'.bytes = bytes → (next value f').1.toOption = expected) :
    ((first >>= next) f).1.toOption = expected := by
  have onward := @Reading.Finds.onward _ _ f first next _ (fun _ => expected) finds
    fun value' f' found same' => by
      cases found
      exact later f' (same'.trans same)
  rw [Option.bind_some] at onward
  exact onward

theorem finds_streamAt (short : bytes.length < 2 ^ 63) (same : f.bytes = bytes) (place : Nat)
    (state : RtsaParseState) : (readStrmAt place state).Finds f (streamAt bytes place state) := by
  apply finds_header short same place
  intro header f' same' position
  split
  · rename_i named
    have read := finds_steady (steady_readStrm header.size) same' position
    rw [Option.map_eq_bind]
    exact read.bind fun strm f'' _ _ => finds_pure (state.insertStrm strm)
  · exact finds_pure state

theorem finds_attempt {reading : Reading Value} {expected : Option Value}
    (finds : reading.Finds f expected) :
    ∃ outcome f', attempt reading f = (.ok outcome, f') ∧ outcome.toOption = expected ∧
      f'.bytes = f.bytes := ⟨_, _, rfl, finds.value, finds.bytes⟩

/-- A chain is parsed if the offset is positive, and from zero on there is none. -/
theorem finds_chain (kind : ChunkKind Chunk) (insert : Collected → Nat → Chunk → Collected)
    (short : bytes.length < 2 ^ 63) (same : f.bytes = bytes) (offset : Int)
    (collected : Collected) :
    (whenPositive offset (kind.parseChain insert) collected).Finds f
      (some ((kind.chunksFrom bytes offset.toNat).foldl (fun c chunk => insert c chunk.1 chunk.2)
        collected)) := by
  rw [whenPositive]
  split
  · exact ChunkKind.finds_parseChain short same offset.toNat collected
  · rename_i nowhere
    have start : offset.toNat = 0 := Int.toNat_eq_zero.mpr (Int.not_lt.mp nowhere)
    have stays : kind.step bytes 0 = none := if_neg (Nat.lt_irrefl 0)
    have none : kind.chunksFrom bytes offset.toNat = [] := by
      rw [start, ChunkKind.chunksFrom, ChunkKind.trail, Trail.follow, if_neg List.not_mem_nil,
        stays]
      rfl
    rw [none]
    exact finds_pure collected

theorem pushSprv_all (chunks collected : List (Nat × SprvChunk)) :
    chunks.foldl (fun c chunk => pushSprv c chunk.1 chunk.2) collected = collected ++ chunks := by
  induction chunks generalizing collected with
  | nil => rw [List.foldl_nil, List.append_nil]
  | cons chunk chunks ih => rw [List.foldl_cons, ih, pushSprv, List.append_assoc]; rfl

theorem finds_sprvTree (short : bytes.length < 2 ^ 63) (same : f.bytes = bytes) (offset : Int) :
    (whenPositive offset readSprvTree []).Finds f
      (some (sprvKind.chunksFrom bytes offset.toNat)) := by
  have chain : readSprvTree = sprvKind.parseChain pushSprv :=
    funext fun place => funext fun chunks => readSprvTree_eq place chunks
  have found := finds_chain sprvKind pushSprv short same offset []
  rw [pushSprv_all, List.nil_append] at found
  rw [chain]
  exact found

/-- The scan gives the chunks of the walk, or fails with it. -/
theorem scanInto_gives (room : bytes.length + 2 ^ 32 ≤ 2 ^ 63) (same : f.bytes = bytes)
    {startPos : Nat} (near : startPos < 2 ^ 63) (endPos : Nat) (state : RtsaParseState) :
    (scanInto startPos endPos state f).1.toOption = sampsBetween bytes startPos endPos state := by
  subst same
  have short : f.bytes.length < 2 ^ 63 := by omega
  have allowed : maxRtsaChunkSize ≤ 2 ^ 32 := by decide
  have began : scanForSampChunks startPos endPos ⟨f, state.sampChunkOffsets⟩ =
      SampScan.loop (min endPos f.bytes.length)
        ⟨{ f with position := startPos }, state.sampChunkOffsets⟩ := by
    rw [scanForSampChunks, seekStart_near near]
  have walks : SampScan.Walks (min endPos f.bytes.length)
      ⟨{ f with position := startPos }, state.sampChunkOffsets⟩
      (referenceWalk f.bytes (min endPos f.bytes.length) startPos) :=
    SampScan.loop_walks (Nat.min_le_right _ _) short
  rw [scanInto, sampsBetween, began]
  have appends := walks.appends
  have fails := walks.fails
  have ends := walks.ends (by
    have room' : f.bytes.length + maxRtsaChunkSize ≤ 2 ^ 63 := by omega
    exact room')
  simp only at appends fails ends
  cases ended : SampScan.loop (min endPos f.bytes.length)
      ⟨{ f with position := startPos }, state.sampChunkOffsets⟩ with
  | mk result s =>
      rw [ended] at appends fails ends
      cases whole : (referenceWalk f.bytes (min endPos f.bytes.length) startPos).1 with
      | true =>
          have ok := ends whole
          simp only at ok appends
          rw [ok, ← appends]
          rfl
      | false =>
          have torn := fails whole
          cases result with
          | ok u => exact absurd rfl torn
          | error e => rfl

/-- A place that a chunk can be read from is one a seek can go to. -/
theorem streamAt_near (short : bytes.length < 2 ^ 63) {place : Nat} {state state' : RtsaParseState}
    (found : streamAt bytes place state = some state') : place < 2 ^ 63 := by
  obtain ⟨header, headed, -⟩ := Option.bind_eq_some_iff.mp found
  have inside := (SampScan.headerAt_size headed).1
  omega

theorem described_gives (room : bytes.length + 2 ^ 32 ≤ 2 ^ 63) (same : f.bytes = bytes)
    (dsft : DsftChunk) (dsfh : DsfhChunk) (strt : StrtChunk) :
    (processStreams dsft (.initial dsfh) (.ok strt) f).1.toOption =
      described bytes dsft dsfh strt := by
  have short : bytes.length < 2 ^ 63 := by omega
  apply converted
  apply (finds_chain sstrKind insertSstr short same strt.subStreamOffset
    ∅).onward_some same
  intro f₁ same₁
  apply (finds_chain antaKind insertAnta short same₁ strt.antennaOffset
    ∅).onward_some same₁
  intro f₂ same₂
  apply (finds_chain mdttKind insertMdtt short same₂ strt.metadataOffset
    ∅).onward_some same₂
  intro f₃ same₃
  apply (finds_sprvTree short same₃ strt.previewOffset).onward_some same₃
  intro f₄ same₄
  apply (finds_streamAt short same₄ _ _).onward
  intro state f₅ found same₅
  exact scanInto_gives room (same₅.trans same₄) (streamAt_near short found) _ state

theorem finds_strmNear (same : f.bytes = bytes) {streamAreaOffset : Nat}
    (near : streamAreaOffset < 2 ^ 63) :
    (findStrmNear streamAreaOffset).Finds f (some (strmNear bytes streamAreaOffset)) := by
  have close : strmSearchStart streamAreaOffset ≤ streamAreaOffset :=
    saturatingSub_le _ 4096
  rw [findStrmNear, strmNear]
  apply finds_readUpTo (by omega) same
  intro f' same'
  exact finds_pure _

theorem nearby_gives (room : bytes.length + 2 ^ 32 ≤ 2 ^ 63) (same : f.bytes = bytes)
    {dsft : DsftChunk} (near : dsft.streamOffset < 2 ^ 63) (dsfh : DsfhChunk) (e : Error) :
    (processStreams dsft (.initial dsfh) (.error e) f).1.toOption = nearby bytes dsft dsfh := by
  have short : bytes.length < 2 ^ 63 := by omega
  rw [processStreams, processStrhBasedStructure, nearby]
  apply (finds_strmNear same near).onward_some same
  intro f₁ same₁
  cases strmNear bytes dsft.streamOffset with
  | none =>
      apply (finds_pure (RtsaParseState.initial dsfh)).onward_some same₁
      intro f₂ same₂
      rfl
  | some place =>
      rw [Option.bind_some]
      apply (finds_streamAt short same₁ place _).onward
      intro state f₂ _ same₂
      rw [scanStream]
      split
      · rfl
      · exact scanInto_gives room (same₂.trans same₁) near _ state

/-- The bytes alone decide what a file's streams are. -/
theorem streams_gives (room : bytes.length + 2 ^ 32 ≤ 2 ^ 63) (same : f.bytes = bytes)
    {dsft : DsftChunk} (near : dsft.streamOffset < 2 ^ 63) (dsfh : DsfhChunk) :
    (readStreams dsft dsfh f).1.toOption =
      if dsft.streamOffset = 0 then none
      else
        ((streamTailOf bytes dsft.streamOffset).elim (nearby bytes dsft dsfh)
          (described bytes dsft dsfh)).map fun state => (state, rawOffset dsft state) := by
  have short : bytes.length < 2 ^ 63 := by omega
  rw [readStreams]
  by_cases nowhere : dsft.streamOffset = 0
  · rw [if_neg (by omega), if_pos nowhere]
    rfl
  · rw [if_pos (by omega), if_neg nowhere]
    subst same
    obtain ⟨outcome, f', ended, found, same'⟩ := finds_attempt (finds_strtNearStream short near)
    rw [bind_apply, ended]
    apply converted
    rw [← found]
    cases outcome with
    | ok strt => exact described_gives room same' dsft dsfh strt
    | error e => exact nearby_gives room same' near dsfh e

theorem chunkAt_some {name : String} {readFrom : UInt32 → Reading Chunk} {place : Nat}
    {chunk : Chunk} (found : chunkAt name readFrom bytes place = some chunk) :
    ∃ header f', headerAt bytes place = some header ∧ header.id = chunkId name ∧
      readFrom header.size ⟨bytes, place + 16, []⟩ = (.ok chunk, f') := by
  obtain ⟨header, headed, rest⟩ := Option.bind_eq_some_iff.mp found
  obtain ⟨named, read⟩ := Option.ite_none_right_eq_some.mp rest
  cases ended : readFrom header.size ⟨bytes, place + 16, []⟩ with
  | mk result f' =>
      rw [ended] at read
      cases result with
      | error e => cases read
      | ok chunk' =>
          cases read
          exact ⟨header, f', headed, named, ended⟩

theorem tail_near {dsft : DsftChunk} (found : tailOf bytes = some dsft) :
    dsft.streamOffset < 2 ^ 63 := by
  obtain ⟨place, -, here⟩ := Option.bind_eq_some_iff.mp found
  obtain ⟨header, f', -, -, read⟩ := chunkAt_some here
  obtain ⟨completionTime, f₁, -, rest⟩ := bind_ok_iff.mp read
  obtain ⟨streamOffset, f₂, offset, rest⟩ := bind_ok_iff.mp rest
  obtain ⟨numStreams, f₃, -, rest⟩ := bind_ok_iff.mp rest
  obtain ⟨rfl, -⟩ := pure_ok_iff.mp rest
  obtain ⟨-, rfl, -⟩ :=
    (map_number_ok_iff (Nat.succ_pos 7) fun n => (BitVec.ofNat 64 n).toInt).mp offset
  have bound : (BitVec.ofNat 64 (LittleEndian.decode
      (window f₁.bytes f₁.position (Nat.succ 7)))).toInt < 2 ^ 63 := BitVec.toInt_lt
  simp only
  omega

/-- Where the reader stands and what was read before does not matter to the parser. -/
theorem parse_gives (file : DiskFile) :
    (parseRtsaWithTail file.bytes.length ⟨file.bytes, 0, []⟩).1.toOption =
      captureOf file.bytes := by
  have room := file.bytes_lt
  have short : file.bytes.length < 2 ^ 63 := by omega
  rw [parseRtsaWithTail, captureOf]
  apply (finds_dsftTail short).onward
  intro dsft f₁ found same₁
  have near := tail_near found
  rw [Option.bind_assoc]
  apply (finds_dsfhNearStream short same₁ near).onward
  intro place f₂ _ same₂
  apply (finds_chunkAt steady_readDsfh (fun _ => finds_fail (dsfhExpected place)) short
    (same₂.trans same₁) place).onward
  intro dsfh f₃ _ same₃
  exact streams_gives room (same₃.trans (same₂.trans same₁)) near dsfh

end SdrAaronia
