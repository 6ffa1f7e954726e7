import SdrAaronia.FileSource.ChunkFields
import SdrAaronia.Lib.Search

/-! # Where a file's head, tail and stream tail are

Files are searched for a few ids in windows of fixed size, and for the file head in
the end block by block.  What the searches find depends on the bytes alone.
-/

namespace SdrAaronia

open HttpStreaming Reading

/-- `buffer.windows(4).position(..)`. -/
def idIn (name : String) (buffer : Bytes) : Option Nat :=
  Search.first 4 (· == chunkId name) buffer

/-- `buffer.windows(4).rposition(..)`. -/
def lastIdIn (name : String) (buffer : Bytes) : Option Nat :=
  Search.last 4 (· == chunkId name) buffer

/-- The first id, if the buffer has its size too and the size is in bounds. -/
def sizedIdIn (name : String) (low high : Nat) (buffer : Bytes) : Option Nat :=
  (idIn name buffer).filter fun i =>
    decide (i + 8 ≤ buffer.length ∧ low ≤ numberAt buffer (i + 4) 4 ∧
      numberAt buffer (i + 4) 4 < high)

/-! ## The searches -/

/-- `saturating_sub`. -/
def saturatingSub (place distance : Nat) : Nat :=
  if distance ≤ place then place - distance else 0

theorem saturatingSub_eq (place distance : Nat) :
    saturatingSub place distance = place - distance := by
  rw [saturatingSub]
  split
  · rfl
  · omega

def searchStart (pos : Nat) : Nat := saturatingSub pos 1024

def searchEnd (fileSize pos : Nat) : Nat := min (pos + 1000000) fileSize

/-- `saturating_mul(2)`. -/
def doubled (streamAreaOffset : Nat) : Nat := min (streamAreaOffset * 2) (2 ^ 64 - 1)

/-- The chunk at the place found. -/
def readFound {Chunk : Type} (name : String) (readFrom : UInt32 → Reading Chunk)
    (missing : Error) : Option Nat → Reading Chunk
  | none => fail missing
  | some place => do
      seekStart place
      let header ← RtsaChunkHeader.readFrom
      if header.id = chunkId name then readFrom header.size else fail missing

def dsftMissing : Error := .fileFormat 0 "Could not find DSFT chunk in RTSA file"

def findDsftTail (fileSize : Nat) : Reading DsftChunk := do
  let searchWindow := min 1024 fileSize
  seekStart (fileSize - searchWindow)
  let buffer ← exact searchWindow
  readFound "DSFT" DsftChunk.readFrom dsftMissing
    ((lastIdIn "DSFT" buffer).map (fileSize - searchWindow + ·))

def strtMissing : Error := .fileFormat 0 "Could not find STRT chunk near stream area"

def findStrtNearStream (streamAreaOffset : Nat) : Reading StrtChunk := do
  seekStart (searchStart streamAreaOffset)
  let buffer ← readUpTo 4096
  readFound "STRT" StrtChunk.readFrom strtMissing
    ((idIn "STRT" buffer).map (searchStart streamAreaOffset + ·))

def searchChunkSize : Nat := 10000000

/-- What a block of the broad search settles. -/
def searchStride : Nat := 9999997

def chunkMissing (signature : String) : Error :=
  .fileFormat 0 s!"Could not find 'Ok(\"{signature}\")' chunk in RTSA file"

/-- Blocks from `position` on, each three bytes back, so that a signature across two
blocks is seen. -/
def broadSearchForChunk (fileSize : Nat) (signature : String) (position : Nat) : Reading Nat :=
  if position < fileSize then do
    seekStart position
    let buffer ← readUpTo searchChunkSize
    match idIn signature buffer with
    | some i => return position + i
    | none =>
        if _enough : 4 ≤ buffer.length then
          broadSearchForChunk fileSize signature (position + (buffer.length - 3))
        else fail (chunkMissing signature)
  else fail (chunkMissing signature)
termination_by fileSize - position
decreasing_by omega

/-- The buffer is searched whole, also where the file did not fill it. -/
def searchAround (fileSize pos : Nat) : Reading (Option Nat) := do
  let count := searchEnd fileSize pos - searchStart pos
  seekStart (searchStart pos)
  let read ← readUpTo count
  return if read = [] then none
    else (idIn "DSFH" (read ++ List.replicate (count - read.length) 0)).map (searchStart pos + ·)

/-- What was found, or else the rest of the search. -/
def foundOr (rest : Reading Nat) : Option Nat → Reading Nat
  | some place => pure place
  | none => rest

def searchPosition (fileSize pos : Nat) (rest : Reading Nat) : Reading Nat :=
  if fileSize ≤ pos then rest
  else do
    let found ← searchAround fileSize pos
    foundOr rest found

/-- The file head first, then the midpoint. -/
def findDsfhChunk (fileSize : Nat) : Reading Nat :=
  [0, fileSize / 2].foldr (searchPosition fileSize) (broadSearchForChunk fileSize "DSFH" 0)

def findDsfhNearStream (streamAreaOffset : Nat) : Reading Nat := do
  seekStart (searchStart streamAreaOffset)
  let buffer ← readUpTo 4096
  foundOr (findDsfhChunk (doubled streamAreaOffset))
    ((sizedIdIn "DSFH" 0 1000 buffer).map (searchStart streamAreaOffset + ·))

/-! ## What they find -/

/-- The chunk of a name at a place. -/
def chunkAt {Chunk : Type} (name : String) (readFrom : UInt32 → Reading Chunk) (bytes : Bytes)
    (place : Nat) : Option Chunk :=
  (headerAt bytes place).bind fun header =>
    if header.id = chunkId name then (readFrom header.size ⟨bytes, place + 16, []⟩).1.toOption
    else none

/-- The chunk at the last `DSFT` of the last bytes. -/
def tailOf (bytes : Bytes) : Option DsftChunk :=
  let searchWindow := min 1024 bytes.length
  ((lastIdIn "DSFT" (window bytes (bytes.length - searchWindow) searchWindow)).map
    (bytes.length - searchWindow + ·)).bind (chunkAt "DSFT" DsftChunk.readFrom bytes)

/-- The chunk at the first `STRT` near the stream area. -/
def streamTailOf (bytes : Bytes) (streamAreaOffset : Nat) : Option StrtChunk :=
  ((idIn "STRT" (window bytes (searchStart streamAreaOffset) 4096)).map
    (searchStart streamAreaOffset + ·)).bind (chunkAt "STRT" StrtChunk.readFrom bytes)

/-- The first `DSFH` around a position. -/
def headAround (bytes : Bytes) (fileSize pos : Nat) : Option Nat :=
  if fileSize ≤ pos then none
  else
    (idIn "DSFH" (window bytes (searchStart pos) (searchEnd fileSize pos - searchStart pos))).map
      (searchStart pos + ·)

/-- The first `DSFH` around the file's head, else around the midpoint, else up to the end of
the last block that starts in front of `fileSize`. -/
def headPlace (bytes : Bytes) (fileSize : Nat) : Option Nat :=
  (headAround bytes fileSize 0).or ((headAround bytes fileSize (fileSize / 2)).or
    (idIn "DSFH" (window bytes 0 (Search.reach searchStride fileSize + 3))))

/-- The first `DSFH` near the stream area with a small size, else the file's head. -/
def headNear (bytes : Bytes) (streamAreaOffset : Nat) : Option Nat :=
  ((sizedIdIn "DSFH" 0 1000 (window bytes (searchStart streamAreaOffset) 4096)).map
    (searchStart streamAreaOffset + ·)).or (headPlace bytes (doubled streamAreaOffset))

section Windows

variable {name : String} {bytes : Bytes} {start width : Nat}

theorem windowAt_window (i : Nat) (inside : i + 4 ≤ width) :
    Search.windowAt 4 (window bytes start width) i = window bytes (start + i) 4 :=
  window_window inside

theorem matchAt_iff {i : Nat} :
    Search.MatchAt 4 (· == chunkId name) (window bytes start width) i ↔
      i + 4 ≤ width ∧ start + i + 4 ≤ bytes.length ∧ window bytes (start + i) 4 = chunkId name := by
  have length : (window bytes start width).length = min width (bytes.length - start) := by
    rw [window, List.length_take, List.length_drop]
  constructor
  · rintro ⟨inside, matched⟩
    rw [length] at inside
    rw [windowAt_window i (by omega)] at matched
    exact ⟨by omega, by omega, eq_of_beq matched⟩
  · rintro ⟨within, inside, named⟩
    refine ⟨by rw [length]; omega, ?_⟩
    rw [windowAt_window i within, named]
    exact beq_self_eq_true _

end Windows

/-! ## The searches find it -/

/-- Reading leaves the file as it is and gives a value exactly where one is expected. -/
structure Reading.Finds {Value : Type} (reading : Reading Value) (f : FileReader)
    (expected : Option Value) : Prop where
  value : (reading f).1.toOption = expected
  bytes : (reading f).2.bytes = f.bytes

variable {Value Result Chunk : Type} {f f' : FileReader}

theorem Reading.Finds.bind_some {first : Reading Value} {next : Value → Reading Result}
    {value : Value} {expected : Option Result} (read : first f = (.ok value, f'))
    (same : f'.bytes = f.bytes) (finds : (next value).Finds f' expected) :
    (first >>= next).Finds f expected where
  value := by
    rw [bind_apply, read]
    exact finds.value
  bytes := by
    rw [bind_apply, read]
    exact finds.bytes.trans same

theorem Reading.Finds.bind {first : Reading Value} {next : Value → Reading Result}
    {expected : Option Value} {onward : Value → Option Result} (finds : first.Finds f expected)
    (later : ∀ value f', expected = some value → f'.bytes = f.bytes →
      (next value).Finds f' (onward value)) :
    (first >>= next).Finds f (expected.bind onward) := by
  have value := finds.value
  have bytes := finds.bytes
  cases read : first f with
  | mk result f' =>
      rw [read] at value bytes
      cases result with
      | ok found =>
          have next := later found f' value.symm bytes
          rw [← value]
          exact Reading.Finds.bind_some read bytes next
      | error e =>
          rw [← value]
          exact ⟨by rw [bind_apply, read]; rfl, by rw [bind_apply, read]; exact bytes⟩

theorem finds_pure (value : Value) : (pure value : Reading Value).Finds f (some value) := ⟨rfl, rfl⟩

theorem finds_fail (e : Error) : (fail e : Reading Value).Finds f none := ⟨rfl, rfl⟩

theorem seekStart_near {position : Nat} (near : position < 2 ^ 63) (f : FileReader) :
    seekStart position f = (.ok (), { f with position }) := seekStart_ok_iff.mpr ⟨near, rfl⟩

/-- The header at a place that a seek can go to. -/
theorem finds_headerAt (place : Nat) (f : FileReader) :
    RtsaChunkHeader.readFrom.Finds { f with position := place } (headerAt f.bytes place) where
  value := by
    cases read : RtsaChunkHeader.readFrom { f with position := place } with
    | mk result f' =>
        cases result with
        | ok header => exact (readHeader_ok_iff.mp read).1.symm
        | error e =>
            cases found : headerAt f.bytes place with
            | none => rfl
            | some header =>
                have read' := (readHeader_ok_iff (f := { f with position := place })).mpr
                  ⟨found, rfl⟩
                rw [read] at read'
                cases congrArg Prod.fst read'
  bytes := keeps_readHeader _

/-- A seek and a header. -/
theorem finds_header {next : RtsaChunkHeader → Reading Result}
    {onward : RtsaChunkHeader → Option Result} {bytes : Bytes} (short : bytes.length < 2 ^ 63)
    (same : f.bytes = bytes) (place : Nat)
    (later : ∀ header f', f'.bytes = bytes → f'.position = place + 16 →
      (next header).Finds f' (onward header)) :
    Reading.Finds (do
      seekStart place
      let header ← RtsaChunkHeader.readFrom
      next header) f ((headerAt bytes place).bind onward) := by
  subst same
  by_cases near : place < 2 ^ 63
  · refine Reading.Finds.bind_some (seekStart_near near f) rfl ?_
    have headed := finds_headerAt place f
    cases read : RtsaChunkHeader.readFrom { f with position := place } with
    | mk result f' =>
        rw [← headed.value, read]
        cases result with
        | ok header =>
            have behind := (readHeader_ok_iff.mp read).2
            refine Reading.Finds.bind_some read (by rw [behind]; rfl) ?_
            exact later header f' (by rw [behind]; rfl) (by rw [behind]; rfl)
        | error e =>
            refine ⟨by rw [bind_apply, read]; rfl, ?_⟩
            have bytes := headed.bytes
            rw [read] at bytes
            rw [bind_apply, read]
            exact bytes
  · have outside : headerAt f.bytes place = none := by
      rw [headerAt, if_neg]
      omega
    have refused : seekStart place f = (.error .invalidSeek, f) := by
      rw [seekStart, FileReader.seekStart, if_neg near]
    rw [outside]
    exact ⟨by rw [bind_apply, refused]; rfl, by rw [bind_apply, refused]⟩

/-- The fields behind a header. -/
theorem finds_steady {reading : Reading Value} (steady : Steady reading) {bytes : Bytes}
    {place : Nat} (same : f.bytes = bytes) (position : f.position = place) :
    reading.Finds f (reading ⟨bytes, place, []⟩).1.toOption := by
  have alike : FileReader.Alike ⟨bytes, place, []⟩ f := ⟨same, position⟩
  exact ⟨by rw [(steady.alike _ _ alike).1], steady.keeps f⟩

/-- A seek, a header and a chunk's fields. -/
theorem finds_chunkAt {name : String} {readFrom : UInt32 → Reading Chunk} {mismatch : Reading Chunk}
    (steady : ∀ size, Steady (readFrom size)) (fails : ∀ f, mismatch.Finds f none) {bytes : Bytes}
    (short : bytes.length < 2 ^ 63) (same : f.bytes = bytes) (place : Nat) :
    Reading.Finds (do
      seekStart place
      let header ← RtsaChunkHeader.readFrom
      if header.id = chunkId name then readFrom header.size else mismatch) f
      (chunkAt name readFrom bytes place) := by
  apply finds_header short same place
  intro header f' same' position
  split
  · exact finds_steady (steady header.size) same' position
  · exact fails f'

theorem finds_readFound {name : String} {readFrom : UInt32 → Reading Chunk}
    (steady : ∀ size, Steady (readFrom size)) (missing : Error) {bytes : Bytes}
    (short : bytes.length < 2 ^ 63) (same : f.bytes = bytes) (place : Option Nat) :
    (readFound name readFrom missing place).Finds f
      (place.bind (chunkAt name readFrom bytes)) := by
  cases place with
  | none => exact finds_fail missing
  | some place =>
      exact finds_chunkAt steady (fun _ => finds_fail missing) short same place

/-- A seek and a read of up to some bytes. -/
theorem finds_readUpTo {count place : Nat} {next : Bytes → Reading Result}
    {expected : Option Result} {bytes : Bytes} (near : place < 2 ^ 63) (same : f.bytes = bytes)
    (later : ∀ f' : FileReader, f'.bytes = bytes →
      (next (window bytes place count)).Finds f' expected) :
    Reading.Finds (do
      seekStart place
      let read ← readUpTo count
      next read) f expected := by
  subst same
  have taken : readUpTo count { f with position := place } =
      (.ok (window f.bytes place count), ({ f with position := place } : FileReader).advanced
        (window f.bytes place count).length) := readUpTo_ok_iff.mpr ⟨rfl, rfl⟩
  apply Reading.Finds.bind_some (seekStart_near near f) rfl
  apply Reading.Finds.bind_some taken
  · simp only [advanced_bytes]
  · apply later
    simp only [advanced_bytes]

theorem finds_dsftTail (short : f.bytes.length < 2 ^ 63) :
    (findDsftTail f.bytes.length).Finds f (tailOf f.bytes) := by
  have inside : f.bytes.length - min 1024 f.bytes.length + min 1024 f.bytes.length =
      f.bytes.length := Nat.sub_add_cancel (Nat.min_le_right _ _)
  refine Reading.Finds.bind_some (seekStart_near (by omega) f) rfl ?_
  have taken : exact (min 1024 f.bytes.length)
      { f with position := f.bytes.length - min 1024 f.bytes.length } =
      (.ok (window f.bytes (f.bytes.length - min 1024 f.bytes.length) (min 1024 f.bytes.length)),
        ({ f with position := f.bytes.length - min 1024 f.bytes.length } : FileReader).advanced
          (min 1024 f.bytes.length)) := if_pos (Or.inr (by simp only; omega))
  refine Reading.Finds.bind_some taken rfl ?_
  exact finds_readFound steady_readDsft dsftMissing short (by rfl) _

theorem saturatingSub_le (place distance : Nat) : saturatingSub place distance ≤ place := by
  rw [saturatingSub_eq]
  exact Nat.sub_le place distance

theorem searchStart_le (pos : Nat) : searchStart pos ≤ pos := saturatingSub_le pos 1024

theorem finds_strtNearStream (short : f.bytes.length < 2 ^ 63) {streamAreaOffset : Nat}
    (near : streamAreaOffset < 2 ^ 63) :
    (findStrtNearStream streamAreaOffset).Finds f (streamTailOf f.bytes streamAreaOffset) := by
  have close := searchStart_le streamAreaOffset
  apply finds_readUpTo (by omega) rfl
  intro f' same
  exact finds_readFound steady_readStrt strtMissing short same _

/-! ## The file's head -/

theorem window_length_le (bytes : Bytes) (start width : Nat) :
    (window bytes start width).length ≤ bytes.length - start := by
  rw [window, List.length_take, List.length_drop]
  exact Nat.min_le_right _ _

/-- The blocks of the broad search. -/
theorem finds_broadSearch (signature : String) (fileSize : Nat) {bytes : Bytes} {position : Nat}
    (short : bytes.length < 2 ^ 63) (same : f.bytes = bytes) (inside : position ≤ bytes.length) :
    (broadSearchForChunk fileSize signature position).Finds f
      (Search.blocks 4 (· == chunkId signature) searchChunkSize fileSize bytes position) := by
  induction left : fileSize - position using Nat.strong_induction_on generalizing position f with
  | _ distance ih =>
      rw [broadSearchForChunk, Search.blocks]
      split
      · rename_i more
        have count := window_length_le bytes position searchChunkSize
        apply finds_readUpTo (by omega) same
        intro f' same'
        rw [idIn]
        change Reading.Finds _ _ (match Search.first 4 (· == chunkId signature)
          (window bytes position searchChunkSize) with
          | some place => some (position + place)
          | none => if 4 ≤ (window bytes position searchChunkSize).length then _ else none)
        cases Search.first 4 (· == chunkId signature) (window bytes position searchChunkSize) with
        | some i => exact finds_pure _
        | none =>
            by_cases enough : 4 ≤ (window bytes position searchChunkSize).length
            · simp only [dif_pos enough, if_pos enough]
              apply ih _ _ same' _ rfl
              · omega
              · omega
            · simp only [dif_neg enough, if_neg enough]
              exact finds_fail _
      · exact finds_fail _

theorem idIn_padded {name : String} (nonzero : 0 ∉ chunkId name) (read : Bytes) (count : Nat) :
    idIn name (read ++ List.replicate count 0) = idIn name read := by
  apply Search.first_padded (Nat.succ_pos 3)
  intro window matched
  rw [eq_of_beq matched]
  exact nonzero

theorem finds_broadSearch_start (fileSize : Nat) {bytes : Bytes} (short : bytes.length < 2 ^ 63)
    (same : f.bytes = bytes) :
    (broadSearchForChunk fileSize "DSFH" 0).Finds f
      (idIn "DSFH" (window bytes 0 (Search.reach searchStride fileSize + 3))) := by
  have found := finds_broadSearch "DSFH" fileSize short same (Nat.zero_le _)
  have large : 4 ≤ searchChunkSize := by decide
  have stride : searchChunkSize + 1 - 4 = searchStride := by decide
  have unmoved : (fun place : Nat => 0 + place) = id := funext Nat.zero_add
  rw [Search.blocks_eq (Nat.succ_pos 3) large, stride, Nat.sub_zero, unmoved, Option.map_id,
    id_eq] at found
  exact found

theorem finds_foundOr {rest : Reading Nat} {expected : Option Nat} (found : Option Nat)
    (finds : rest.Finds f expected) : (foundOr rest found).Finds f (found.or expected) := by
  cases found with
  | some place => exact finds_pure _
  | none => exact finds

theorem finds_around {bytes : Bytes} (same : f.bytes = bytes) {fileSize pos : Nat}
    (near : pos < 2 ^ 63) (more : ¬fileSize ≤ pos) :
    (searchAround fileSize pos).Finds f (some (headAround bytes fileSize pos)) := by
  have close := searchStart_le pos
  rw [searchAround, headAround, if_neg more]
  apply finds_readUpTo (by omega) same
  intro f' same'
  rw [idIn_padded (by decide)]
  split
  · rename_i empty
    rw [empty]
    exact finds_pure _
  · exact finds_pure _

/-- A position, if it is not found before. -/
theorem finds_position {bytes : Bytes} (same : f.bytes = bytes) {fileSize pos : Nat}
    (near : pos < 2 ^ 63) {rest : Reading Nat} {expected : Option Nat}
    (finds : ∀ f' : FileReader, f'.bytes = bytes → rest.Finds f' expected) :
    (searchPosition fileSize pos rest).Finds f ((headAround bytes fileSize pos).or expected) := by
  rw [searchPosition]
  split
  · rename_i past
    rw [headAround, if_pos past]
    exact finds f same
  · rename_i more
    have either : (searchAround fileSize pos >>= fun found => foundOr rest found).Finds f
        ((some (headAround bytes fileSize pos)).bind (·.or expected)) :=
      (finds_around same near more).bind fun found f' _ same' =>
        finds_foundOr found (finds f' (same'.trans same))
    rw [Option.bind_some] at either
    exact either

theorem finds_dsfhChunk {bytes : Bytes} (short : bytes.length < 2 ^ 63) (same : f.bytes = bytes)
    {fileSize : Nat} (narrow : fileSize < 2 ^ 64) :
    (findDsfhChunk fileSize).Finds f (headPlace bytes fileSize) := by
  rw [findDsfhChunk, List.foldr_cons, List.foldr_cons, List.foldr_nil]
  apply finds_position same (Nat.two_pow_pos 63)
  intro f' same'
  apply finds_position same' (by omega)
  intro f'' same''
  exact finds_broadSearch_start fileSize short same''

theorem finds_dsfhNearStream {bytes : Bytes} (short : bytes.length < 2 ^ 63)
    (same : f.bytes = bytes) {streamAreaOffset : Nat} (near : streamAreaOffset < 2 ^ 63) :
    (findDsfhNearStream streamAreaOffset).Finds f (headNear bytes streamAreaOffset) := by
  have close := searchStart_le streamAreaOffset
  have narrow : doubled streamAreaOffset < 2 ^ 64 := by
    rw [doubled]
    omega
  rw [findDsfhNearStream, headNear]
  apply finds_readUpTo (by omega) same
  intro f' same'
  exact finds_foundOr _ (finds_dsfhChunk short same' narrow)

end SdrAaronia
