import SdrAaronia.FileSource.ChunkScan
import Mathlib.Data.List.Find

/-! # The scan, byte by byte

The reference walk looks at one place of the file after another and knows neither
a reader nor blocks.  The scan appends what the walk visits.
-/

namespace SdrAaronia

open HttpStreaming Reading

/-- The number at a place. -/
def numberAt (bytes : Bytes) (pos width : Nat) : Nat :=
  LittleEndian.decode (window bytes pos width)

/-- A header at a place, if the file has all of it and its size is allowed. -/
def headerAt (bytes : Bytes) (pos : Nat) : Option RtsaChunkHeader :=
  let header : RtsaChunkHeader :=
    { id := window bytes pos 4
      size := UInt32.ofNat (numberAt bytes (pos + 4) 4)
      flags := UInt32.ofNat (numberAt bytes (pos + 8) 4)
      version := UInt16.ofNat (numberAt bytes (pos + 12) 2)
      headerSize := UInt16.ofNat (numberAt bytes (pos + 14) 2) }
  if pos + 16 ≤ bytes.length ∧ header.size.toNat ≤ maxRtsaChunkSize then some header else none

/-- The fields of the SAMP chunk at a place. -/
def sampFields (bytes : Bytes) (pos : Nat) (size : UInt32) (headerSize : UInt16) : SampChunk where
  size := size.toNat
  headerSize := headerSize.toNat
  streamId := (UInt64.ofNat (numberAt bytes (pos + 16) 8)).toNat
  subStreamId := (UInt32.ofNat (numberAt bytes (pos + 24) 4)).toNat
  sampleType := .ofByte (UInt8.ofNat (numberAt bytes (pos + 28) 1))
  payloadType := .ofByte (UInt8.ofNat (numberAt bytes (pos + 30) 1))
  compression := (BitVec.ofNat 8 (numberAt bytes (pos + 31) 1)).toInt
  sampleSize := (UInt32.ofNat (numberAt bytes (pos + 52) 4)).toNat
  numSamples := (UInt32.ofNat (numberAt bytes (pos + 60) 4)).toNat
  size_lt := size.toNat_lt
  headerSize_lt := headerSize.toNat_lt
  sampleSize_lt := (UInt32.ofNat (numberAt bytes (pos + 52) 4)).toNat_lt
  numSamples_lt := (UInt32.ofNat (numberAt bytes (pos + 60) 4)).toNat_lt

/-- The SAMP chunk at a place, if the file has all its fields and ends where a seek
can go. -/
def sampAt (bytes : Bytes) (pos : Nat) (size : UInt32) (headerSize : UInt16) : Option SampChunk :=
  if pos + 64 ≤ bytes.length ∧ pos + size.toNat < 2 ^ 63 then
    some (sampFields bytes pos size headerSize)
  else none

/-- The first place from `start` on where four bytes below `stop` are a known id. -/
def nextKnownId (bytes : Bytes) (stop start : Nat) : Option Nat :=
  (List.range' start (stop - 3 - start)).find? fun p => isValidRtsaChunkId (window bytes p 4)

theorem nextKnownId_ge {bytes : Bytes} {stop start p : Nat}
    (found : nextKnownId bytes stop start = some p) : start ≤ p ∧ p + 4 ≤ stop := by
  have member := List.mem_of_find?_eq_some found
  rw [List.mem_range'_1] at member
  omega

/-- A header that the walk steps by: of a known chunk, and no smaller than itself. -/
def knownHeaderAt (bytes : Bytes) (pos : Nat) : Option RtsaChunkHeader :=
  (headerAt bytes pos).filter fun header =>
    decide (16 ≤ header.size.toNat) && isValidRtsaChunkId header.id

theorem knownHeaderAt_some {bytes : Bytes} {pos : Nat} {header : RtsaChunkHeader}
    (known : knownHeaderAt bytes pos = some header) :
    headerAt bytes pos = some header ∧ 16 ≤ header.size.toNat ∧
      isValidRtsaChunkId header.id = true := by
  obtain ⟨found, sound⟩ := Option.filter_eq_some_iff.mp known
  obtain ⟨large, valid⟩ := (Bool.and_eq_true _ _).mp sound
  exact ⟨found, of_decide_eq_true large, valid⟩

/-- The walk from a place on: whether it gets to the end, and the SAMP chunks it
visits. -/
def referenceWalk (bytes : Bytes) (stop pos : Nat) : Bool × List (Nat × SampChunk) :=
  if pos < stop then
    match _header : knownHeaderAt bytes pos with
    | none =>
        match _next : nextKnownId bytes stop (pos + 1) with
        | some next => referenceWalk bytes stop next
        | none => (true, [])
    | some header =>
        if header.id = chunkId "SAMP" then
          match sampAt bytes pos header.size header.headerSize with
          | none => (false, [])
          | some samp =>
              let walk := referenceWalk bytes stop (pos + header.size.toNat)
              (walk.1, (pos, samp) :: walk.2)
        else referenceWalk bytes stop (pos + header.size.toNat)
  else (true, [])
termination_by stop - pos
decreasing_by
  · have := nextKnownId_ge _next
    omega
  · have := (knownHeaderAt_some _header).2.1
    omega
  · have := (knownHeaderAt_some _header).2.1
    omega

/-! ## The reads of a round -/

theorem keeps_readHeader : Keeps RtsaChunkHeader.readFrom := by
  refine (keeps_exact 4).bind fun id => keeps_u32.bind fun size => ?_
  split
  · exact keeps_fail _
  · exact keeps_u32.bind fun _ => keeps_u16.bind fun _ => keeps_u16.bind fun _ => keeps_pure _

/-- The reader behind a header. -/
def FileReader.behindHeader (f : FileReader) : FileReader :=
  ((((f.advanced 4).advanced 4).advanced 4).advanced 2).advanced 2

theorem FileReader.behindHeader_position (f : FileReader) :
    f.behindHeader.position = f.position + 16 := rfl

theorem readHeader_ok_iff {f f' : FileReader} {header : RtsaChunkHeader} :
    RtsaChunkHeader.readFrom f = (.ok header, f') ↔
      headerAt f.bytes f.position = some header ∧ f' = f.behindHeader := by
  simp only [RtsaChunkHeader.readFrom, bind_ok_iff, exact_ok_iff (Nat.succ_pos 3), u32_ok_iff,
    and_assoc, exists_and_left, exists_eq_left]
  constructor
  · rintro ⟨-, -, rest⟩
    split at rest
    · exact (fail_ok_iff.mp rest).elim
    · rename_i allowed
      simp only [bind_ok_iff, u32_ok_iff, u16_ok_iff, and_assoc, exists_and_left,
        exists_eq_left] at rest
      obtain ⟨-, -, fits, read⟩ := rest
      obtain ⟨rfl, rfl⟩ := pure_ok_iff.mp read
      exact ⟨if_pos ⟨fits, Nat.le_of_not_lt allowed⟩, rfl⟩
  · rintro ⟨found, rfl⟩
    simp only [headerAt, Option.ite_none_right_eq_some, Option.some.injEq] at found
    obtain ⟨⟨fits, allowed⟩, rfl⟩ := found
    refine ⟨by omega, by simp only [advanced_position, advanced_bytes]; omega, ?_⟩
    rw [if_neg (by exact Nat.not_lt_of_le allowed)]
    simp only [bind_ok_iff, u32_ok_iff, u16_ok_iff, and_assoc, exists_and_left, exists_eq_left,
      advanced_position, advanced_bytes]
    exact ⟨by omega, by omega, by omega, rfl⟩

/-- The reader behind a SAMP chunk: past its fields, and at the end of a chunk that
has more. -/
def FileReader.behindSamp (f : FileReader) (pos size : Nat) : FileReader :=
  let behindFields := [8, 4, 1, 1, 1, 1, 8, 8, 4, 4, 4, 4].foldl FileReader.advanced f
  if 64 < size then { behindFields with position := pos + size } else behindFields

theorem FileReader.behindSamp_bytes (f : FileReader) (pos size : Nat) :
    (f.behindSamp pos size).bytes = f.bytes := by
  rw [behindSamp]
  split <;> rfl

/-- What a chunk has behind its fields is passed by a seek. -/
theorem passRest_ok_iff {Value : Type} {f f' : FileReader} {pos size : Nat}
    {value value' : Value} (behind : f.position = pos + 64) :
    (if 64 < size then (seekCurrent (size - 64 : Nat) >>= fun _ => pure value) else pure value :
        Reading Value) f = (.ok value', f') ↔
      (64 < size → pos + size < 2 ^ 63) ∧ value' = value ∧
        f' = if 64 < size then { f with position := pos + size } else f := by
  split
  · rename_i large
    have ends : f.position + (size - 64) = pos + size := by omega
    simp only [bind_ok_iff, seekCurrent_ok_iff, pure_ok_iff, ends]
    constructor
    · rintro ⟨u, f₁, ⟨near, rfl⟩, rfl, rfl⟩
      exact ⟨fun _ => near, rfl, rfl⟩
    · rintro ⟨near, rfl, rfl⟩
      exact ⟨(), _, ⟨near large, rfl⟩, rfl, rfl⟩
  · rename_i small
    rw [pure_ok_iff]
    exact (and_iff_right fun large => absurd large small).symm

theorem readSamp_ok_iff {f f' : FileReader} {pos : Nat} {size : UInt32} {headerSize : UInt16}
    {samp : SampChunk} (placed : f.position = pos + 16) :
    SampChunk.readFrom size headerSize f = (.ok samp, f') ↔
      pos + 64 ≤ f.bytes.length ∧ (64 < size.toNat → pos + size.toNat < 2 ^ 63) ∧
        samp = sampFields f.bytes pos size headerSize ∧ f' = f.behindSamp pos size.toNat := by
  obtain ⟨bytes, position, served⟩ := f
  simp only at placed
  subst placed
  simp only [SampChunk.readFrom, bind_ok_iff, u64_ok_iff, u32_ok_iff, u8_ok_iff, i8_ok_iff,
    number_ok_iff (Nat.succ_pos 7), and_assoc, exists_and_left, exists_eq_left,
    advanced_position, advanced_bytes]
  constructor
  · rintro ⟨-, -, -, -, -, -, -, -, -, -, -, fits, rest⟩
    obtain ⟨near, rfl, rfl⟩ := (passRest_ok_iff rfl).mp rest
    exact ⟨fits, near, rfl, rfl⟩
  · rintro ⟨fits, near, rfl, rfl⟩
    refine ⟨by omega, by omega, by omega, by omega, by omega, by omega, by omega, by omega,
      by omega, by omega, by omega, by omega, ?_⟩
    exact (passRest_ok_iff rfl).mpr ⟨near, rfl, rfl⟩

/-! ## Resynchronisation -/

theorem window_window {bytes : Bytes} {pos n i : Nat} (inside : i + 4 ≤ n) :
    window (window bytes pos n) i 4 = window bytes (pos + i) 4 := by
  rw [window, window, window, List.drop_take, List.take_take, List.drop_drop,
    Nat.min_eq_left (by omega)]

theorem window_length {bytes : Bytes} {pos n : Nat} (inside : pos + n ≤ bytes.length) :
    (window bytes pos n).length = n := by
  rw [window, List.length_take, List.length_drop]
  omega

theorem knownIdIn_window {bytes : Bytes} {pos n : Nat} (inside : pos + n ≤ bytes.length) :
    knownIdIn (window bytes pos n) =
      (List.range (n - 3)).find? fun i => isValidRtsaChunkId (window bytes (pos + i) 4) := by
  rw [knownIdIn, window_length inside]
  apply List.find?_congr
  intro i member
  have small := List.mem_range.mp member
  rw [window_window (by omega)]

/-- The places that a block of `n` bytes settles come first. -/
theorem nextKnownId_block {bytes : Bytes} {stop pos n : Nat} (inside : pos + n ≤ stop) :
    nextKnownId bytes stop pos =
      (((List.range (n - 3)).find? fun i => isValidRtsaChunkId (window bytes (pos + i) 4)).map
        (pos + ·)).or (nextKnownId bytes stop (pos + (n - 3))) := by
  have places : List.range' pos (stop - 3 - pos) =
      (List.range (n - 3)).map (pos + ·) ++
        List.range' (pos + (n - 3)) (stop - 3 - (pos + (n - 3))) := by
    have count : stop - 3 - pos = (n - 3) + (stop - 3 - (pos + (n - 3))) := by omega
    rw [← List.range'_eq_map_range, List.range'_append_1, ← count]
  rw [nextKnownId, places, List.find?_append, List.find?_map]
  rfl

theorem resyncBlocks_spec {f : FileReader} {stop : Nat} (within : stop ≤ f.bytes.length)
    (short : f.bytes.length < 2 ^ 63) (inside : f.position ≤ stop) :
    ∃ f', resyncBlocks stop f.position f = (.ok (), f') ∧ f'.bytes = f.bytes ∧
      f'.position = (nextKnownId f.bytes stop f.position).getD stop := by
  induction size : stop - f.position using Nat.strong_induction_on generalizing f with
  | _ n ih =>
      rw [resyncBlocks]
      split
      · rename_i more
        have block : f.position + min resyncBlock (stop - f.position) ≤ stop := by omega
        have length := window_length (block.trans within)
        have large : 4 ≤ resyncBlock := by decide
        rw [bind_apply, readUpTo]
        simp only [knownIdIn_window (block.trans within), nextKnownId_block block, length]
        cases known : (List.range (min resyncBlock (stop - f.position) - 3)).find?
            fun i => isValidRtsaChunkId (window f.bytes (f.position + i) 4) with
        | some i =>
            have low := List.mem_range.mp (List.mem_of_find?_eq_some known)
            have moved : seekStart (f.position + i)
                (f.advanced (min resyncBlock (stop - f.position))) = (.ok (), _) :=
              seekStart_ok_iff.mpr ⟨by omega, rfl⟩
            exact ⟨_, moved, rfl, rfl⟩
        | none =>
            simp only
            split
            · rename_i enough
              have moved : seekStart (f.position + (min resyncBlock (stop - f.position) - 3))
                  (f.advanced (min resyncBlock (stop - f.position))) = (.ok (), _) :=
                seekStart_ok_iff.mpr ⟨by omega, rfl⟩
              rw [bind_apply, moved]
              have next := ih (stop - (f.position + (min resyncBlock (stop - f.position) - 3)))
                (by omega) (f := { f.advanced (min resyncBlock (stop - f.position)) with
                  position := f.position + (min resyncBlock (stop - f.position) - 3) })
                within short
              exact next (by change f.position + _ ≤ stop; omega) rfl
            · rename_i few
              have done : nextKnownId f.bytes stop
                  (f.position + (min resyncBlock (stop - f.position) - 3)) = none := by
                have empty : stop - 3 -
                    (f.position + (min resyncBlock (stop - f.position) - 3)) = 0 := by omega
                rw [nextKnownId, empty]
                rfl
              have moved : seekStart stop
                  (f.advanced (min resyncBlock (stop - f.position))) = (.ok (), _) :=
                seekStart_ok_iff.mpr ⟨by omega, rfl⟩
              rw [done]
              exact ⟨_, moved, rfl, rfl⟩
      · have done : nextKnownId f.bytes stop f.position = none := by
          have empty : stop - 3 - f.position = 0 := by omega
          rw [nextKnownId, empty]
          rfl
        have moved : seekStart stop f = (.ok (), _) := seekStart_ok_iff.mpr ⟨by omega, rfl⟩
        rw [done]
        exact ⟨_, moved, rfl, rfl⟩

theorem resync_spec {f : FileReader} {stop start : Nat} (within : stop ≤ f.bytes.length)
    (short : f.bytes.length < 2 ^ 63) (inside : start ≤ stop) :
    ∃ f', resyncToChunkId start stop f = (.ok (), f') ∧ f'.bytes = f.bytes ∧
      f'.position = (nextKnownId f.bytes stop start).getD stop := by
  have moved : seekStart start f = (.ok (), _) := seekStart_ok_iff.mpr ⟨by omega, rfl⟩
  rw [resyncToChunkId, bind_apply, moved]
  exact resyncBlocks_spec (f := { f with position := start }) within short inside

/-! ## A round -/

namespace SampScan

variable {s : SampScan} {stop : Nat}

/-- The header of a known chunk passes the checks of a round. -/
theorem header_read {header : RtsaChunkHeader}
    (known : knownHeaderAt s.reader.bytes s.reader.position = some header) :
    RtsaChunkHeader.readFrom s.reader = (.ok header, s.reader.behindHeader) ∧
      ¬(header.size.toNat < 16 ∨ isValidRtsaChunkId header.id = false) := by
  obtain ⟨here, large, valid⟩ := knownHeaderAt_some known
  refine ⟨readHeader_ok_iff.mpr ⟨here, rfl⟩, ?_⟩
  rw [valid, not_or]
  exact ⟨Nat.not_lt_of_le large, Bool.false_ne_true.symm⟩

/-- Where no chunk is to step by, the round resynchronises. -/
theorem round_lost (within : stop ≤ s.reader.bytes.length)
    (short : s.reader.bytes.length < 2 ^ 63) (more : s.reader.position < stop)
    (lost : knownHeaderAt s.reader.bytes s.reader.position = none) :
    ∃ s', s.round stop = (.ok (), s') ∧ s'.reader.bytes = s.reader.bytes ∧
      s'.sampChunkOffsets = s.sampChunkOffsets ∧
      s'.reader.position =
        (nextKnownId s.reader.bytes stop (s.reader.position + 1)).getD stop := by
  have resync : ∀ f : FileReader, f.bytes = s.reader.bytes →
      ∃ s', s.reading (resyncToChunkId (s.reader.position + 1) stop) f = (.ok (), s') ∧
        s'.reader.bytes = s.reader.bytes ∧ s'.sampChunkOffsets = s.sampChunkOffsets ∧
        s'.reader.position =
          (nextKnownId s.reader.bytes stop (s.reader.position + 1)).getD stop := by
    intro f same
    obtain ⟨f', left, bytes, position⟩ :=
      resync_spec (f := f) (same ▸ within) (same ▸ short) more
    rw [same] at bytes position
    exact ⟨{ s with reader := f' }, by rw [reading, left], bytes, rfl, position⟩
  rw [round]
  split
  · rename_i e f failed
    have kept := keeps_readHeader s.reader
    rw [failed] at kept
    exact resync f kept
  · rename_i header f found
    obtain ⟨here, rfl⟩ := readHeader_ok_iff.mp found
    rw [if_pos]
    · exact resync _ rfl
    · rw [knownHeaderAt, here, Option.filter_eq_none_iff] at lost
      have unsound := lost header rfl
      simp only [Bool.and_eq_true, decide_eq_true_eq, not_and, Bool.not_eq_true] at unsound
      by_cases large : 16 ≤ header.size.toNat
      · exact Or.inr (unsound large)
      · exact Or.inl (Nat.lt_of_not_le large)

theorem round_other_eq {header : RtsaChunkHeader}
    (known : knownHeaderAt s.reader.bytes s.reader.position = some header)
    (other : header.id ≠ chunkId "SAMP") :
    s.round stop =
      s.reading (seekStart (s.reader.position + header.size.toNat)) s.reader.behindHeader := by
  obtain ⟨read, steps⟩ := header_read known
  rw [round, read]
  simp only
  rw [if_neg steps, if_neg other]

theorem round_samp_ok {header : RtsaChunkHeader} {samp : SampChunk} {f : FileReader}
    (known : knownHeaderAt s.reader.bytes s.reader.position = some header)
    (isSamp : header.id = chunkId "SAMP")
    (body : SampChunk.readFrom header.size header.headerSize s.reader.behindHeader =
      (.ok samp, f)) :
    s.round stop =
      { s with sampChunkOffsets := s.sampChunkOffsets ++ [(s.reader.position, samp)] }.reading
        (seekStart (s.reader.position + header.size.toNat)) f := by
  obtain ⟨read, steps⟩ := header_read known
  rw [round, read]
  simp only
  rw [if_neg steps, if_pos isSamp, body]

theorem round_samp_error {header : RtsaChunkHeader} {e : Error} {f : FileReader}
    (known : knownHeaderAt s.reader.bytes s.reader.position = some header)
    (isSamp : header.id = chunkId "SAMP")
    (body : SampChunk.readFrom header.size header.headerSize s.reader.behindHeader =
      (.error e, f)) : s.round stop = (.error e, { s with reader := f }) := by
  obtain ⟨read, steps⟩ := header_read known
  rw [round, read]
  simp only
  rw [if_neg steps, if_pos isSamp, body]

/-- A chunk whose body does not parse ends the scan. -/
theorem round_torn {header : RtsaChunkHeader} (short : s.reader.bytes.length < 2 ^ 63)
    (known : knownHeaderAt s.reader.bytes s.reader.position = some header)
    (isSamp : header.id = chunkId "SAMP")
    (torn : sampAt s.reader.bytes s.reader.position header.size header.headerSize = none) :
    ∃ e s', s.round stop = (.error e, s') ∧ s'.sampChunkOffsets = s.sampChunkOffsets := by
  cases body : SampChunk.readFrom header.size header.headerSize s.reader.behindHeader with
  | mk result f =>
    cases result with
    | error e => exact ⟨e, _, round_samp_error known isSamp body, rfl⟩
    | ok samp =>
      obtain ⟨fits, far, -, -⟩ := (readSamp_ok_iff s.reader.behindHeader_position).mp body
      have inside : s.reader.position + 64 ≤ s.reader.bytes.length := fits
      have near : s.reader.position + header.size.toNat < 2 ^ 63 := by
        by_cases large : 64 < header.size.toNat
        · exact far large
        · omega
      rw [sampAt, if_pos ⟨inside, near⟩] at torn
      cases torn

theorem round_samp {header : RtsaChunkHeader} {samp : SampChunk}
    (known : knownHeaderAt s.reader.bytes s.reader.position = some header)
    (isSamp : header.id = chunkId "SAMP")
    (parsed : sampAt s.reader.bytes s.reader.position header.size header.headerSize = some samp) :
    ∃ s', s.round stop = (.ok (), s') ∧ s'.reader.bytes = s.reader.bytes ∧
      s'.sampChunkOffsets = s.sampChunkOffsets ++ [(s.reader.position, samp)] ∧
      s'.reader.position = s.reader.position + header.size.toNat := by
  rw [sampAt, Option.ite_none_right_eq_some, Option.some.injEq] at parsed
  obtain ⟨⟨fits, near⟩, rfl⟩ := parsed
  have read : SampChunk.readFrom header.size header.headerSize s.reader.behindHeader =
      (.ok (sampFields s.reader.behindHeader.bytes s.reader.position header.size
        header.headerSize), s.reader.behindHeader.behindSamp s.reader.position header.size.toNat) :=
    (readSamp_ok_iff s.reader.behindHeader_position).mpr ⟨fits, fun _ => near, rfl, rfl⟩
  have moved : seekStart (s.reader.position + header.size.toNat)
      (s.reader.behindHeader.behindSamp s.reader.position header.size.toNat) = (.ok (), _) :=
    seekStart_ok_iff.mpr ⟨near, rfl⟩
  rw [round_samp_ok known isSamp read, reading, moved]
  exact ⟨_, rfl, s.reader.behindHeader.behindSamp_bytes _ _, rfl, rfl⟩

/-- A known chunk of another kind is stepped over, unless it ends where no seek can
go. -/
theorem round_other {header : RtsaChunkHeader}
    (known : knownHeaderAt s.reader.bytes s.reader.position = some header)
    (other : header.id ≠ chunkId "SAMP") :
    (s.reader.position + header.size.toNat < 2 ^ 63 ∧
        ∃ s', s.round stop = (.ok (), s') ∧ s'.reader.bytes = s.reader.bytes ∧
          s'.sampChunkOffsets = s.sampChunkOffsets ∧
          s'.reader.position = s.reader.position + header.size.toNat) ∨
      (2 ^ 63 ≤ s.reader.position + header.size.toNat ∧
        ∃ e s', s.round stop = (.error e, s') ∧ s'.sampChunkOffsets = s.sampChunkOffsets) := by
  rw [round_other_eq known other, reading, seekStart]
  rcases s.reader.behindHeader.seekStart_cases (s.reader.position + header.size.toNat) with
    ⟨near, moved⟩ | ⟨far, refused⟩
  · rw [moved]
    exact Or.inl ⟨near, _, rfl, rfl, rfl, rfl⟩
  · rw [refused]
    exact Or.inr ⟨far, _, _, rfl, rfl⟩

/-! ## The scan and the walk -/

theorem loop_ended (done : stop ≤ s.reader.position) : s.loop stop = (.ok (), s) := by
  rw [loop, dif_neg (Nat.not_lt_of_le done)]

theorem loop_next {s' : SampScan} (more : s.reader.position < stop)
    (ended : s.round stop = (.ok (), s')) : s.loop stop = s'.loop stop := by
  rw [loop, dif_pos more]
  split
  · rename_i e t failed
    rw [ended] at failed
    simp at failed
  · rename_i u t again
    rw [ended] at again
    rw [(Prod.mk.inj again).2]

theorem loop_failed {s' : SampScan} {e : Error} (more : s.reader.position < stop)
    (failed : s.round stop = (.error e, s')) : s.loop stop = (.error e, s') := by
  rw [loop, dif_pos more]
  split
  · rename_i e' t again
    rw [failed] at again
    exact again.symm
  · rename_i u t ended
    rw [failed] at ended
    simp at ended

/-- What the rounds from a state on have to do with the walk from its place on. -/
structure Walks (stop : Nat) (s : SampScan) (walk : Bool × List (Nat × SampChunk)) : Prop where
  appends : (s.loop stop).2.sampChunkOffsets = s.sampChunkOffsets ++ walk.2
  fails : walk.1 = false → (s.loop stop).1 ≠ .ok ()
  ends : s.reader.bytes.length + maxRtsaChunkSize ≤ 2 ^ 63 → walk.1 = true →
    (s.loop stop).1 = .ok ()

/-- A round that appends `visited` and leaves the rest to the walk from where it
ends. -/
theorem Walks.step {s' : SampScan} {walk : Bool × List (Nat × SampChunk)}
    {visited : List (Nat × SampChunk)} (more : s.reader.position < stop)
    (ended : s.round stop = (.ok (), s')) (same : s'.reader.bytes = s.reader.bytes)
    (appended : s'.sampChunkOffsets = s.sampChunkOffsets ++ visited) (rest : s'.Walks stop walk) :
    s.Walks stop (walk.1, visited ++ walk.2) := by
  obtain ⟨appends, fails, ends⟩ := rest
  rw [← loop_next more ended] at appends fails ends
  refine ⟨?_, fails, fun room => ends (same ▸ room)⟩
  rw [appends, appended, List.append_assoc]

theorem headerAt_size {bytes : Bytes} {pos : Nat} {header : RtsaChunkHeader}
    (found : headerAt bytes pos = some header) :
    pos + 16 ≤ bytes.length ∧ header.size.toNat ≤ maxRtsaChunkSize := by
  rw [headerAt] at found
  simp only [Option.ite_none_right_eq_some, Option.some.injEq] at found
  obtain ⟨sound, rfl⟩ := found
  exact sound

/-- The rounds from a place on append what the walk visits from there. -/
theorem loop_walks (within : stop ≤ s.reader.bytes.length)
    (short : s.reader.bytes.length < 2 ^ 63) :
    s.Walks stop (referenceWalk s.reader.bytes stop s.reader.position) := by
  induction size : stop - s.reader.position using Nat.strong_induction_on generalizing s with
  | _ n ih =>
      by_cases more : s.reader.position < stop
      · rw [referenceWalk, if_pos more]
        -- the walk from where a round ends
        have later : ∀ {s' : SampScan}, s.reader.position < s'.reader.position →
            s'.reader.bytes = s.reader.bytes →
            s'.Walks stop (referenceWalk s.reader.bytes stop s'.reader.position) := by
          intro s' forward same
          have := ih (stop - s'.reader.position) (by omega) (s := s') (same ▸ within)
            (same ▸ short) rfl
          rwa [same] at this
        split
        · rename_i lost
          obtain ⟨s', ended, same, appended, position⟩ := round_lost within short more lost
          have forward := round_forward more ended
          have rest := later forward same
          have walked : s.Walks stop _ :=
            .step more ended same (appended.trans (List.append_nil _).symm) rest
          rw [position] at walked
          split
          · rename_i next found
            rw [found, Option.getD_some] at walked
            exact walked
          · rename_i missing
            rw [missing, Option.getD_none, referenceWalk, if_neg (Nat.lt_irrefl stop)] at walked
            exact walked
        · rename_i header known
          obtain ⟨found, large, -⟩ := knownHeaderAt_some known
          obtain ⟨inside, allowed⟩ := headerAt_size found
          split
          · rename_i isSamp
            split
            · rename_i torn
              obtain ⟨e, s', failed, appended⟩ := round_torn short known isSamp torn
              have ended := loop_failed more failed
              refine ⟨by rw [ended, appended, List.append_nil], fun _ => ?_, fun _ whole => ?_⟩
              · rw [ended]
                simp
              · cases whole
            · rename_i samp parsed
              obtain ⟨s', ended, same, appended, position⟩ := round_samp known isSamp parsed
              have rest := later (round_forward more ended) same
              rw [position] at rest
              exact .step more ended same appended rest
          · rename_i other
            rcases round_other known other with ⟨-, s', ended, same, appended, position⟩ |
              ⟨far, e, s', failed, appended⟩
            · have rest := later (round_forward more ended) same
              rw [position] at rest
              exact .step more ended same (appended.trans (List.append_nil _).symm) rest
            · -- past every file, and with it past the end of the walk
              have ended := loop_failed more failed
              rw [referenceWalk, if_neg (by omega)]
              refine ⟨by rw [ended, appended, List.append_nil], fun lost => ?_, fun room => ?_⟩
              · cases lost
              · omega
      · have done := loop_ended (Nat.le_of_not_lt more)
        rw [referenceWalk, if_neg more]
        exact ⟨by rw [done, List.append_nil], fun failed => by simp at failed,
          fun _ _ => by rw [done]⟩

end SampScan

end SdrAaronia
