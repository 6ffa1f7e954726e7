import SdrAaronia.FileSource.Chains

/-! # Where a chunk's fields are

Every field of a chunk is at an offset from the chunk's start.  The chunks are told here
by the bytes at these offsets alone, and the readings give what is told.
-/

namespace SdrAaronia

open HttpStreaming Reading

variable {Value Result Chunk : Type}

/-! ## The chunk at a place -/

section Fields

variable (bytes : Bytes)

def u32At (place : Nat) : UInt32 := .ofNat (numberAt bytes place 4)

def u64At (place : Nat) : UInt64 := .ofNat (numberAt bytes place 8)

/-- An eight-byte two's complement number. -/
def i64At (place : Nat) : Int := (BitVec.ofNat 64 (numberAt bytes place 8)).toInt

/-- The value, if the file has so many bytes from the place on. -/
def ifWhole (place length : Nat) (value : Value) : Option Value :=
  if place + length ≤ bytes.length then some value else none

/-- The chunk of a name at a place; its fields depend on the size in its header. -/
def namedAt (name : String) (fields : Nat → UInt32 → Option Chunk) (place : Nat) : Option Chunk :=
  (headerAt bytes place).bind fun header =>
    if header.id = chunkId name then fields place header.size else none

def dsfhFields (place : Nat) (size : UInt32) : Option DsfhChunk :=
  ifWhole bytes place 24
    { header := ⟨chunkId "DSFH", size, 0, 1, 8⟩
      creationTime := u64At bytes (place + 16) }

def dsftFields (place : Nat) (size : UInt32) : Option DsftChunk :=
  ifWhole bytes place 36
    { header := ⟨chunkId "DSFT", size, 0, 1, 20⟩
      completionTime := u64At bytes (place + 16)
      streamOffset := (i64At bytes (place + 24)).toNat
      numStreams := u32At bytes (place + 32) }

/-- A chunk of 48 bytes tells where the capture starts, if that is not far off. -/
def captureStartAt (place : Nat) (size : UInt32) : Option UInt64 :=
  if size.toNat = 48 then
    some (u64At bytes (place + 40)) |>.filter fun offset =>
      decide (0 ≤ F64.ofBits offset ∧ F64.ofBits offset < .finite 320000000)
  else none

def strmFields (place : Nat) (size : UInt32) : Option StrmChunk :=
  ifWhole bytes place (if size.toNat = 48 then 48 else 40)
    { header := ⟨chunkId "STRM", size, 0, 1, 24⟩
      streamId := u64At bytes (place + 16)
      startTime := u64At bytes (place + 24)
      streamOffset := i64At bytes (place + 32)
      captureStartOffset := captureStartAt bytes place size }

def sstrFields (place : Nat) (size : UInt32) : Option SstrChunk :=
  ifWhole bytes place 240
    { header := ⟨chunkId "SSTR", size, 0, 1, 224⟩
      streamId := u64At bytes (place + 16)
      subStreamId := u32At bytes (place + 24)
      subStreamOffset := i64At bytes (place + 32)
      frequencyStart := u64At bytes (place + 40)
      frequencyStep := u64At bytes (place + 48)
      frequencySpan := u64At bytes (place + 56)
      valueMinimum := u64At bytes (place + 64)
      valueMaximum := u64At bytes (place + 72)
      direction := u64At bytes (place + 80)
      antennaIndex := u32At bytes (place + 88)
      numCategories := u32At bytes (place + 92)
      name := window bytes (place + 96) 128
      antennaId := u64At bytes (place + 224)
      metadataId := u64At bytes (place + 232) }

/-- Of the flags the four lowest are kept. -/
def antaFields (place : Nat) (size : UInt32) : Option AntaChunk :=
  ifWhole bytes place 264
    { header := ⟨chunkId "ANTA", size, 0, 1, 248⟩
      antennaId := u64At bytes (place + 16)
      antennaOffset := i64At bytes (place + 24)
      name := window bytes (place + 32) 128
      latitude := u64At bytes (place + 160)
      longitude := u64At bytes (place + 168)
      flags := u32At bytes (place + 176) &&& 15
      numSegments := u32At bytes (place + 180)
      transform := (List.range 16).map fun i => u32At bytes (place + 184 + 4 * i)
      antennaUuid := window bytes (place + 248) 16 }

/-- A larger chunk has an antenna offset too, and a yet larger one a metadata offset. -/
def strtFields (place : Nat) (size : UInt32) : Option StrtChunk :=
  ifWhole bytes place (if size.toNat < 88 then 80 else if size.toNat < 96 then 88 else 96)
    { header := ⟨chunkId "STRT", size, 0, 1, 80⟩
      streamOffset := i64At bytes (place + 16)
      subStreamOffset := i64At bytes (place + 24)
      previewOffset := i64At bytes (place + 32)
      numSamples := u64At bytes (place + 40)
      payloadSize := u64At bytes (place + 48)
      previewLevels := u32At bytes (place + 56)
      numPreviews := u32At bytes (place + 60)
      numPreviewSegments := u32At bytes (place + 64)
      endTime := u64At bytes (place + 72)
      antennaOffset := if size.toNat < 88 then 0 else i64At bytes (place + 80)
      metadataOffset := if size.toNat < 96 then 0 else i64At bytes (place + 88) }

/-- What follows the two numbers of the chunk is a type definition, of at most 16 MiB. -/
def definitionAt (place : Nat) (size : UInt32) : Option (Option MetaTypeDefinition) :=
  if size.toNat ≤ 32 then some none
  else if 16777216 < size.toNat - 32 then none
  else
    (ifWhole bytes place size.toNat (window bytes (place + 32) (size.toNat - 32))).bind
      fun payload => (MdttChunk.readMetaTypeDefinition (MdttChunk.cursor payload)).1.toOption.map
        some

def mdttFields (place : Nat) (size : UInt32) : Option MdttChunk :=
  (ifWhole bytes place 32 ()).bind fun _ =>
    (definitionAt bytes place size).map fun definition =>
      { header := ⟨chunkId "MDTT", size, 0, 1, 16⟩
        metadataId := u64At bytes (place + 16)
        metadataOffset := i64At bytes (place + 24)
        definition }

def previewFields (place : Nat) (size : UInt32) : Option SprvChunk :=
  ifWhole bytes place 408 (sprvFields bytes place size)

end Fields

/-! ## Readings from offset to offset -/

/-- From offset `start` of the chunk at `place` the reading gives `value` and stops at offset
`stop`, if the file has the first `needed` bytes of the chunk, and else it fails. -/
structure Reading.Lays (bytes : Bytes) (place start : Nat) (reading : Reading Value)
    (needed stop : Nat) (value : Value) : Prop where
  held : needed ≤ bytes.length - place → ∀ f : FileReader, f.bytes = bytes →
    f.position = place + start →
      ∃ f', reading f = (.ok value, f') ∧ f'.bytes = bytes ∧ f'.position = place + stop
  torn : ¬needed ≤ bytes.length - place → ∀ f : FileReader, f.bytes = bytes →
    f.position = place + start → (reading f).1.toOption = none

namespace Reading

variable {bytes : Bytes} {place start needed stop needed' stop' : Nat} {value : Value}
  {result : Result}

theorem lays_pure (value : Value) : Lays bytes place start (pure value) 0 start value where
  held _ f kept position := ⟨f, rfl, kept, position⟩
  torn short := absurd (Nat.zero_le _) short

theorem Lays.bind {first : Reading Value} {next : Value → Reading Result}
    (lays : Lays bytes place start first needed stop value)
    (onward : Lays bytes place stop (next value) needed' stop' result) :
    Lays bytes place start (first >>= next) (max needed needed') stop' result where
  held := by
    intro fits f kept position
    obtain ⟨f', read, kept', position'⟩ := lays.held (by omega) f kept position
    rw [bind_apply, read]
    exact onward.held (by omega) f' kept' position'
  torn := by
    intro short f kept position
    rw [bind_apply]
    by_cases fits : needed ≤ bytes.length - place
    · obtain ⟨f', read, kept', position'⟩ := lays.held fits f kept position
      rw [read]
      exact onward.torn (by omega) f' kept' position'
    · have failed := lays.torn fits f kept position
      cases read : first f with
      | mk outcome f' =>
          rw [read] at failed
          cases outcome with
          | ok found => cases failed
          | error e => rfl

theorem lays_exact (start : Nat) {width : Nat} (positive : 0 < width) :
    Lays bytes place start (exact width) (start + width) (start + width)
      (window bytes (place + start) width) where
  held := by
    intro fits f kept position
    refine ⟨f.advanced width, ?_, kept, ?_⟩
    · rw [← kept, ← position]
      exact (exact_ok_iff positive).mpr ⟨by rw [kept, position]; omega, rfl, rfl⟩
    · rw [advanced_position, position, Nat.add_assoc]
  torn := by
    intro short f kept position
    cases read : exact width f with
    | mk outcome f' =>
        cases outcome with
        | error e => rfl
        | ok found =>
            have fits := ((exact_ok_iff positive).mp read).1
            rw [kept, position] at fits
            omega

theorem Lays.last {first : Reading Value} {next : Value → Reading Result}
    (lays : Lays bytes place start first needed stop value)
    (ends : Lays bytes place stop (next value) 0 stop' result) :
    Lays bytes place start (first >>= next) needed stop' result := by
  have both := lays.bind ends
  rwa [Nat.max_zero] at both

theorem Lays.cast {reading : Reading Value}
    (lays : Lays bytes place start reading needed stop value)
    (same : needed' = needed) : Lays bytes place start reading needed' stop value := same ▸ lays

theorem lays_number (start : Nat) {width : Nat} (positive : 0 < width) (convert : Nat → Value) :
    Lays bytes place start (number width >>= fun n => pure (convert n)) (start + width)
      (start + width) (convert (numberAt bytes (place + start) width)) := by
  have read : Lays bytes place start (number width) (start + width) (start + width)
      (numberAt bytes (place + start) width) := (lays_exact start positive).last (lays_pure _)
  exact read.last (lays_pure _)

theorem lays_u8 (start : Nat) : Lays bytes place start u8 (start + 1) (start + 1)
    (UInt8.ofNat (numberAt bytes (place + start) 1)) :=
  lays_number start Nat.one_pos UInt8.ofNat

theorem lays_u32 (start : Nat) : Lays bytes place start u32 (start + 4) (start + 4)
    (u32At bytes (place + start)) :=
  lays_number start (Nat.succ_pos 3) UInt32.ofNat

theorem lays_u64 (start : Nat) : Lays bytes place start u64 (start + 8) (start + 8)
    (u64At bytes (place + start)) :=
  lays_number start (Nat.succ_pos 7) UInt64.ofNat

theorem lays_i64 (start : Nat) : Lays bytes place start i64 (start + 8) (start + 8)
    (i64At bytes (place + start)) :=
  lays_number start (Nat.succ_pos 7) fun n => (BitVec.ofNat 64 n).toInt

/-- A seek fails only out of every file's reach, and never for want of bytes. -/
theorem lays_skip (start width : Nat) (near : place + (start + width) < 2 ^ 63) :
    Lays bytes place start (seekCurrent (width : Int)) 0 (start + width) () where
  held := by
    intro _ f kept position
    refine ⟨{ f with position := f.position + width }, ?_, kept, ?_⟩
    · exact seekCurrent_ok_iff.mpr ⟨by omega, rfl⟩
    · simp only [position, Nat.add_assoc]
  torn short := absurd (Nat.zero_le _) short

theorem lays_passRest (size : UInt32) (fields : Nat) (near : place + 2 ^ 32 ≤ 2 ^ 63) :
    Lays bytes place fields (passRest size fields) 0 (max fields size.toNat) () := by
  have narrow := size.toNat_lt
  rw [passRest]
  by_cases more : fields < size.toNat
  · rw [if_pos more, Nat.max_eq_right (by omega)]
    have skips : Lays bytes place fields (seekCurrent ((size.toNat - fields : Nat) : Int)) 0
        (fields + (size.toNat - fields)) () := lays_skip fields _ (by omega)
    rwa [Nat.add_sub_cancel' (by omega)] at skips
  · rw [if_neg more, Nat.max_eq_left (by omega)]
    exact lays_pure ()

/-- Numbers of one width in a row. -/
theorem lays_times (start : Nat) {width : Nat} (positive : 0 < width) (convert : Nat → Value)
    (count : Nat) :
    Lays bytes place start (times (number width >>= fun n => pure (convert n)) (count + 1))
      (start + width * (count + 1)) (start + width * (count + 1))
      ((List.range (count + 1)).map fun i =>
        convert (numberAt bytes (place + start + width * i) width)) := by
  induction count generalizing start with
  | zero =>
      have one : Lays bytes place start (times (number width >>= fun n => pure (convert n)) 1)
          _ _ _ :=
        (lays_number start positive convert).last ((lays_pure []).last (lays_pure _))
      rw [Nat.zero_add, Nat.mul_one]
      exact one
  | succ count ih =>
      have ends : start + width + width * (count + 1) = start + width * (count + 1 + 1) := by
        rw [Nat.mul_succ _ (count + 1)]
        omega
      have rest := ih (start + width)
      rw [ends] at rest
      have whole : Lays bytes place start
          (times (number width >>= fun n => pure (convert n)) (count + 1 + 1)) _ _ _ :=
        (lays_number start positive convert).bind (rest.last (lays_pure _))
      have further : start + width ≤ start + width * (count + 1 + 1) := by omega
      have shifted : ∀ i, place + (start + width) + width * i = place + start + width * (i + 1) :=
        fun i => by rw [Nat.mul_succ]; omega
      rw [Nat.max_eq_right further] at whole
      rw [List.range_succ_eq_map, List.map_cons, List.map_map]
      simp only [shifted] at whole
      exact whole

/-- Behind a laid-out reading comes what is expected there. -/
theorem Lays.onward {first : Reading Value} {next : Value → Reading Result}
    {expected : Option Result} (lays : Lays bytes place start first needed stop value)
    (later : ∀ f : FileReader, f.bytes = bytes → f.position = place + stop →
      (next value f).1.toOption = expected)
    (f : FileReader) (kept : f.bytes = bytes) (position : f.position = place + start) :
    ((first >>= next) f).1.toOption =
      if needed ≤ bytes.length - place then expected else none := by
  rw [bind_apply]
  split
  · rename_i value' f' read
    by_cases fits : needed ≤ bytes.length - place
    · obtain ⟨f₁, read', kept', position'⟩ := lays.held fits f kept position
      rw [read] at read'
      cases read'
      rw [if_pos fits]
      exact later f' kept' position'
    · have failed := lays.torn fits f kept position
      rw [read] at failed
      cases failed
  · rename_i e f' read
    by_cases fits : needed ≤ bytes.length - place
    · obtain ⟨f₁, read', -, -⟩ := lays.held fits f kept position
      rw [read] at read'
      cases read'
    · rw [if_neg fits]
      rfl

/-- What a laid-out reading gives, given that it reads at least one byte. -/
theorem Lays.gives {reading : Reading Value} (some : 0 < needed)
    (lays : Lays bytes place start reading needed stop value) :
    (reading ⟨bytes, place + start, []⟩).1.toOption = ifWhole bytes place needed value := by
  rw [ifWhole]
  by_cases fits : needed ≤ bytes.length - place
  · obtain ⟨f', read, -, -⟩ := lays.held fits ⟨bytes, place + start, []⟩ rfl rfl
    rw [read, if_pos (by omega)]
    rfl
  · rw [lays.torn fits ⟨bytes, place + start, []⟩ rfl rfl, if_neg (by omega)]

end Reading

/-! ## The chunks are read as they are laid out -/

section Chunks

variable {bytes : Bytes} {place : Nat} (size : UInt32)

theorem reads_dsfh : (DsfhChunk.readFrom size ⟨bytes, place + 16, []⟩).1.toOption =
    dsfhFields bytes place size :=
  Lays.gives (by decide) ((lays_u64 16).last (lays_pure _))

theorem reads_dsft : (DsftChunk.readFrom size ⟨bytes, place + 16, []⟩).1.toOption =
    dsftFields bytes place size := by
  have lays : Lays bytes place 16 (DsftChunk.readFrom size) _ _ _ :=
    (lays_u64 16).bind <| (lays_i64 24).bind <| (lays_u32 32).last (lays_pure _)
  exact lays.gives (by decide)

theorem reads_sstr (near : place + 2 ^ 32 ≤ 2 ^ 63) :
    (SstrChunk.readFrom size ⟨bytes, place + 16, []⟩).1.toOption = sstrFields bytes place size := by
  have lays : Lays bytes place 16 (SstrChunk.readFrom size) _ _ _ :=
    (lays_u64 16).bind <| (lays_u32 24).bind <| (lays_skip 28 4 (by omega)).bind <|
    (lays_i64 32).bind <| (lays_u64 40).bind <| (lays_u64 48).bind <| (lays_u64 56).bind <|
    (lays_u64 64).bind <| (lays_u64 72).bind <| (lays_u64 80).bind <| (lays_u32 88).bind <|
    (lays_u32 92).bind <| (lays_exact 96 (by decide)).bind <| (lays_u64 224).bind <|
    (lays_u64 232).bind <| (lays_passRest size 240 near).last (lays_pure _)
  exact lays.gives (by decide)

theorem lays_captureStart_told (told : size.toNat = 48) :
    Lays bytes place 40 (StrmChunk.readCaptureStart size) 48 48
      (captureStartAt bytes place size) := by
  have lays : Lays bytes place 40 (u64 >>= fun offset =>
      pure (if StrmChunk.isPlausible offset then some offset else none)) _ _ _ :=
    (lays_u64 40).last (lays_pure _)
  rw [StrmChunk.readCaptureStart, captureStartAt, if_pos told, if_pos told]
  exact lays

theorem reads_strm (near : place + 2 ^ 32 ≤ 2 ^ 63) :
    (StrmChunk.readFrom size ⟨bytes, place + 16, []⟩).1.toOption = strmFields bytes place size := by
  rw [strmFields]
  by_cases told : size.toNat = 48
  · have lays : Lays bytes place 16 (StrmChunk.readFrom size) _ _ _ :=
      (lays_u64 16).bind <| (lays_u64 24).bind <| (lays_i64 32).bind <|
      (lays_captureStart_told size told).last (lays_pure _)
    rw [if_pos told]
    exact lays.gives (by decide)
  · have lays :
        Lays bytes place 40 (StrmChunk.readCaptureStart size) 0 (max 40 size.toNat) none := by
      rw [StrmChunk.readCaptureStart, if_neg told]
      exact (lays_passRest size 40 near).last (lays_pure none)
    have lays : Lays bytes place 16 (StrmChunk.readFrom size) _ _ _ :=
      (lays_u64 16).bind <| (lays_u64 24).bind <| (lays_i64 32).bind <| lays.last (lays_pure _)
    rw [if_neg told, captureStartAt, if_neg told]
    exact lays.gives (by decide)

theorem reads_anta (near : place + 2 ^ 32 ≤ 2 ^ 63) :
    (AntaChunk.readFrom size ⟨bytes, place + 16, []⟩).1.toOption = antaFields bytes place size := by
  have transform : Lays bytes place 184 (times u32 16) 248 248
      ((List.range 16).map fun i => u32At bytes (place + 184 + 4 * i)) :=
    lays_times 184 (Nat.succ_pos 3) UInt32.ofNat 15
  have lays : Lays bytes place 16 (AntaChunk.readFrom size) _ _ _ :=
    (lays_u64 16).bind <| (lays_i64 24).bind <| (lays_exact 32 (by decide)).bind <|
    (lays_u64 160).bind <| (lays_u64 168).bind <| (lays_u32 176).bind <| (lays_u32 180).bind <|
    transform.bind <| (lays_exact 248 (by decide)).bind <|
    (lays_passRest size 264 near).last (lays_pure _)
  exact lays.gives (by decide)

theorem reads_sprv (near : place + 2 ^ 32 ≤ 2 ^ 63) :
    (SprvChunk.readFrom size ⟨bytes, place + 16, []⟩).1.toOption =
      previewFields bytes place size := by
  have rest : ∀ sprv : SprvChunk, Lays bytes place 408
      (if 408 < size.toNat then do
        seekCurrent (size.toNat - 408 : Nat)
        return sprv
      else return sprv) 0 (408 + (size.toNat - 408)) sprv := by
    intro sprv
    have narrow := size.toNat_lt
    split
    · exact (lays_skip 408 _ (by omega)).last (lays_pure _)
    · rename_i small
      rw [Nat.sub_eq_zero_of_le (Nat.le_of_not_lt small)]
      exact lays_pure _
  have offsets : Lays bytes place 24 (times i64 16) 152 152
      ((List.range 16).map fun i => i64At bytes (place + 24 + 8 * i)) :=
    lays_times 24 (Nat.succ_pos 7) (fun n => (BitVec.ofNat 64 n).toInt) 15
  have previewTimes : Lays bytes place 152 (times u64 16) 280 280
      ((List.range 16).map fun i => u64At bytes (place + 152 + 8 * i)) :=
    lays_times 152 (Nat.succ_pos 7) UInt64.ofNat 15
  have samples : Lays bytes place 280 (times u64 16) 408 408
      ((List.range 16).map fun i => u64At bytes (place + 280 + 8 * i)) :=
    lays_times 280 (Nat.succ_pos 7) UInt64.ofNat 15
  have lays : Lays bytes place 16 (SprvChunk.readFrom size) _ _ _ :=
    (lays_u8 16).bind <| (lays_u8 17).bind <| (lays_skip 18 6 (by omega)).bind <|
    offsets.bind <| previewTimes.bind <| samples.bind (rest _)
  exact lays.gives (by decide)

theorem lays_readOffset_told {needed : Nat} (start : Nat) (told : needed ≤ size.toNat) :
    Lays bytes place start (StrtChunk.readOffset size needed) (start + 8) (start + 8)
      (i64At bytes (place + start)) := by
  rw [StrtChunk.readOffset, if_pos told]
  exact lays_i64 start

theorem lays_readOffset_untold {needed : Nat} (start : Nat) (untold : ¬needed ≤ size.toNat) :
    Lays bytes place start (StrtChunk.readOffset size needed) 0 start 0 := by
  rw [StrtChunk.readOffset, if_neg untold]
  exact lays_pure 0

/-- Both offsets stand there, or the first one, or none. -/
theorem reads_strt (near : place + 2 ^ 32 ≤ 2 ^ 63) :
    (StrtChunk.readFrom size ⟨bytes, place + 16, []⟩).1.toOption = strtFields bytes place size := by
  have fields : ∀ {needed needed' first second : Nat} {antenna metadata : Int},
      Lays bytes place 80 (StrtChunk.readOffset size 88) needed first antenna →
      Lays bytes place first (StrtChunk.readOffset size 96) needed' second metadata →
      second = (if 96 ≤ size.toNat then 96 else if 88 ≤ size.toNat then 88 else 80) →
      Lays bytes place 16 (StrtChunk.readFrom size) (max 80 (max needed needed'))
        (max second size.toNat)
        { header := ⟨chunkId "STRT", size, 0, 1, 80⟩
          streamOffset := i64At bytes (place + 16)
          subStreamOffset := i64At bytes (place + 24)
          previewOffset := i64At bytes (place + 32)
          numSamples := u64At bytes (place + 40)
          payloadSize := u64At bytes (place + 48)
          previewLevels := u32At bytes (place + 56)
          numPreviews := u32At bytes (place + 60)
          numPreviewSegments := u32At bytes (place + 64)
          endTime := u64At bytes (place + 72)
          antennaOffset := antenna
          metadataOffset := metadata } := by
    intro needed needed' first second antenna metadata antennaLays metadataLays ends
    have passes : Lays bytes place second
        (passRest size (if 96 ≤ size.toNat then 96 else if 88 ≤ size.toNat then 88 else 80)) 0
        (max second size.toNat) () := by
      rw [← ends]
      exact lays_passRest size second near
    have lays : Lays bytes place 16 (StrtChunk.readFrom size) _ _ _ :=
      (lays_i64 16).bind <| (lays_i64 24).bind <| (lays_i64 32).bind <| (lays_u64 40).bind <|
      (lays_u64 48).bind <| (lays_u32 56).bind <| (lays_u32 60).bind <| (lays_u32 64).bind <|
      (lays_skip 68 4 (by omega)).bind <| (lays_u64 72).bind <| antennaLays.bind <|
      metadataLays.bind <| passes.last (lays_pure _)
    exact lays.cast (by omega)
  rw [strtFields]
  by_cases small : size.toNat < 88
  · have lays := fields (lays_readOffset_untold size 80 (by omega))
      (lays_readOffset_untold size 80 (by omega)) (by rw [if_neg (by omega), if_neg (by omega)])
    rw [if_pos small, if_pos small, if_pos (by omega)]
    exact lays.gives (by decide)
  · by_cases medium : size.toNat < 96
    · have lays := fields (lays_readOffset_told size 80 (by omega))
        (lays_readOffset_untold size 88 (by omega)) (by rw [if_neg (by omega), if_pos (by omega)])
      rw [if_neg small, if_pos medium, if_neg small, if_pos medium]
      exact lays.gives (by decide)
    · have lays := fields (lays_readOffset_told size 80 (by omega))
        (lays_readOffset_told size 88 (by omega)) (by rw [if_pos (by omega)])
      rw [if_neg small, if_neg medium, if_neg small, if_neg medium]
      exact lays.gives (by decide)

/-- The definition behind the two numbers of the chunk. -/
theorem reads_mdttPayload (make : Option MetaTypeDefinition → MdttChunk) (f : FileReader)
    (kept : f.bytes = bytes) (position : f.position = place + 32) :
    ((if MdttChunk.maxMdttPayload < (size.toNat : Int) - 16 - 16 then
        fail (MdttChunk.payloadTooLarge ((size.toNat : Int) - 16 - 16))
      else if 0 < (size.toNat : Int) - 16 - 16 then do
        let payloadBuffer ← exact ((size.toNat : Int) - 16 - 16).toNat
        let definition ←
          MdttChunk.orFail (MdttChunk.readMetaTypeDefinition (MdttChunk.cursor payloadBuffer)).1
        return make (some definition)
      else return make none : Reading MdttChunk) f).1.toOption =
      (definitionAt bytes place size).map make := by
  have payload : ((size.toNat : Int) - 16 - 16).toNat = size.toNat - 32 := by omega
  rw [definitionAt, payload, MdttChunk.maxMdttPayload]
  by_cases empty : size.toNat ≤ 32
  · rw [if_neg (by omega), if_neg (by omega), if_pos empty]
    rfl
  · rw [if_neg empty]
    by_cases large : 16777216 < size.toNat - 32
    · rw [if_pos (by omega), if_pos large]
      rfl
    · rw [if_neg (by omega), if_pos (by omega), if_neg large]
      have decoded : ∀ payload (f' : FileReader),
          ((do
            let definition ←
              MdttChunk.orFail (MdttChunk.readMetaTypeDefinition (MdttChunk.cursor payload)).1
            return make (some definition) : Reading MdttChunk) f').1.toOption =
          ((MdttChunk.readMetaTypeDefinition (MdttChunk.cursor payload)).1.toOption.map some).map
            make := by
        intro payload f'
        cases (MdttChunk.readMetaTypeDefinition (MdttChunk.cursor payload)).1 with
        | ok definition => rfl
        | error e => rfl
      refine ((lays_exact 32 (by omega)).onward (fun f' _ _ => decoded _ f') f kept
        position).trans ?_
      rw [ifWhole]
      by_cases whole : place + size.toNat ≤ bytes.length
      · rw [if_pos whole, if_pos (by omega)]
        rfl
      · rw [if_neg whole, if_neg (by omega)]
        rfl

theorem reads_mdtt : (MdttChunk.readFrom size ⟨bytes, place + 16, []⟩).1.toOption =
    mdttFields bytes place size := by
  have payload := fun metadataId metadataOffset => @reads_mdttPayload bytes place size
    fun definition =>
      ⟨⟨chunkId "MDTT", size, 0, 1, 16⟩, metadataId, metadataOffset, definition⟩
  have given : (MdttChunk.readFrom size ⟨bytes, place + 16, []⟩).1.toOption =
      if 24 ≤ bytes.length - place then
        if 32 ≤ bytes.length - place then (definitionAt bytes place size).map _ else none
      else none :=
    (lays_u64 16).onward ((lays_i64 24).onward (payload _ _)) ⟨bytes, place + 16, []⟩ rfl rfl
  rw [given, mdttFields, ifWhole]
  by_cases whole : place + 32 ≤ bytes.length
  · rw [if_pos (by omega), if_pos (by omega), if_pos whole]
    rfl
  · by_cases half : 24 ≤ bytes.length - place
    · rw [if_pos half, if_neg (by omega), if_neg whole]
      rfl
    · rw [if_neg half, if_neg whole]
      rfl

end Chunks

/-- A chunk found by its readings is the one told by its fields. -/
theorem chunkAt_eq_namedAt {bytes : Bytes} (room : bytes.length + 2 ^ 32 ≤ 2 ^ 63) {name : String}
    {readFrom : UInt32 → Reading Chunk} {fields : Nat → UInt32 → Option Chunk} {place : Nat}
    (reads : place + 2 ^ 32 ≤ 2 ^ 63 → ∀ size,
      (readFrom size ⟨bytes, place + 16, []⟩).1.toOption = fields place size) :
    chunkAt name readFrom bytes place = namedAt bytes name fields place := by
  rw [chunkAt, namedAt]
  cases headed : headerAt bytes place with
  | none => rfl
  | some header =>
      have inside := (SampScan.headerAt_size headed).1
      rw [Option.bind_some, Option.bind_some, reads (by omega)]

end SdrAaronia
