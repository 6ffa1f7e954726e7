import SdrAaronia.FileSource.Capture
import SdrAaronia.FileSource.Recording
import SdrAaronia.FileSource.Sequential
import Mathlib.Data.List.Infix

/-! # What was recorded is played

A file of the recorder is opened with the recorder's counts, and its samples are played
from any of them on.
-/

namespace SdrAaronia

open HttpStreaming Reading

/-! ## Seeking in a sequential file -/

namespace RtsaSource

variable {Real Sample : Type} (decoder : SampleDecoder Real Sample) {s : RtsaSource}
  {chunk : Nat × SampChunk} {parsed : RtsaParse} {iqStreamId : Nat}

/-- A sequential file whose stream is decoded samples only. -/
structure Sampled (parsed : RtsaParse) (iqStreamId : Nat) : Prop where
  sequential : Sequential parsed iqStreamId
  decoded : ∀ chunk ∈ parsed.sampChunkOffsets, chunk.2.streamId = iqStreamId →
    chunk.2.isDecoded = true ∧ chunk.2.itemWidth = 1

theorem Sound.near {bytes : Bytes} (sound : Sound bytes chunk)
    (seekable : chunk.1 + chunk.2.size < 2 ^ 63) (before : Nat)
    (inside : before < chunk.2.numSamples) :
    chunk.2.dataStartOffset chunk.1 before < 2 ^ 63 := by
  have held := sound.held
  have stride := sound.stride
  have reached := Nat.mul_le_mul_right chunk.2.sampleStrideBytes (Nat.succ_le_of_lt inside)
  rw [Nat.succ_mul] at reached
  have skip : chunk.2.bytesToSkip before = before * chunk.2.sampleStrideBytes :=
    Nat.mod_eq_of_lt (by omega)
  rw [SampChunk.dataStartOffset, skip, Nat.mod_eq_of_lt (by omega)]
  omega

end RtsaSource

/-! ## The packets of a recording -/

namespace IqPacket

variable (p : IqPacket) (streamId : UInt64) (subStreamId : UInt32)

theorem size_eq : (p.chunk streamId subStreamId).size = 64 + 8 * p.numSamples := by
  simp only [RtsaChunk.size, chunk, List.length_append, fields_length, p.whole]
  omega

theorem numSamples_lt : 64 + 8 * p.numSamples < 2 ^ 32 := by
  have allowed := p.allowed
  have whole := p.whole
  have bound : maxRtsaChunkSize < 2 ^ 32 := by decide
  omega

theorem numSamples_toNat : (UInt32.ofNat p.numSamples).toNat = p.numSamples := by
  have narrow := p.numSamples_lt
  rw [UInt32.toNat_ofNat', Nat.mod_eq_of_lt (by omega)]

/-- What the scan reads of a packet. -/
def samp : SampChunk where
  size := (UInt32.ofNat (64 + 8 * p.numSamples)).toNat
  headerSize := UInt16.toNat 64
  streamId := streamId.toNat
  subStreamId := subStreamId.toNat
  sampleType := .ofByte 5
  payloadType := .ofByte 2
  compression := 0
  sampleSize := UInt32.toNat 2
  numSamples := (UInt32.ofNat p.numSamples).toNat
  size_lt := UInt32.toNat_lt _
  headerSize_lt := UInt16.toNat_lt _
  sampleSize_lt := UInt32.toNat_lt _
  numSamples_lt := UInt32.toNat_lt _

theorem samp_size : (p.samp streamId subStreamId).size = 64 + 8 * p.numSamples := by
  have sized : (UInt32.ofNat (64 + 8 * p.numSamples)).toNat = 64 + 8 * p.numSamples := by
    rw [UInt32.toNat_ofNat', Nat.mod_eq_of_lt p.numSamples_lt]
  exact sized

theorem readsIn_samp :
    ReadsIn (SampChunk.readFrom (UInt32.ofNat (64 + 8 * p.numSamples)) 64)
      (p.chunk streamId subStreamId).body (p.samp streamId subStreamId) := by
  have size := p.samp_size streamId subStreamId
  have whole := p.whole
  have compression : ReadsIn i8 (LittleEndian.encode 1 0) 0 :=
    ((reads_number 1 (by decide)).map fun n => (BitVec.ofNat 8 n).toInt).readsIn
  have samples : ReadsIn u32 (LittleEndian.encode 4 p.numSamples) (UInt32.ofNat p.numSamples) := by
    have reads := (reads_u32 (UInt32.ofNat p.numSamples)).readsIn
    rwa [numSamples_toNat] at reads
  have payload : ReadsIn (if 64 < (p.samp streamId subStreamId).size then (do
        seekCurrent ((p.samp streamId subStreamId).size - 64 : Nat)
        return p.samp streamId subStreamId)
      else return p.samp streamId subStreamId) p.payload (p.samp streamId subStreamId) := by
    by_cases some : 64 < (p.samp streamId subStreamId).size
    · have length : (p.samp streamId subStreamId).size - 64 = p.payload.length := by omega
      rw [if_pos some, length]
      exact (readsIn_pass (by omega)).last (readsIn_pure _)
    · have none : p.payload = [] := List.length_eq_zero_iff.mp (by omega)
      rw [if_neg some, none]
      exact readsIn_pure _
  simp only [chunk, fields, List.append_assoc]
  exact (reads_u64 _).readsIn.bind <| (reads_u32 _).readsIn.bind <| (reads_u8 5).readsIn.bind <|
    (reads_u8 _).readsIn.bind <| (reads_u8 2).readsIn.bind <| compression.bind <|
    (reads_number 8 p.startTime.toNat_lt).readsIn.bind <|
    (reads_number 8 p.endTime.toNat_lt).readsIn.bind <| (reads_u32 _).readsIn.bind <|
    (reads_u32 2).readsIn.bind <| (reads_u32 _).readsIn.bind <| samples.bind payload

theorem samp_eq : (p.chunk streamId subStreamId).samp = p.samp streamId subStreamId := by
  have sound := Recording.packet_sound p streamId subStreamId
  have size := p.size_eq streamId subStreamId
  have narrow := p.numSamples_lt
  have length := sound.encode_length
  have held : (p.chunk streamId subStreamId).HeldAt (p.chunk streamId subStreamId).encode 0 :=
    ⟨[], [], by rw [List.nil_append, List.append_nil], rfl⟩
  have read := @RtsaChunk.HeldAt.read _ _ (fun size => SampChunk.readFrom size 64) _ _ _ held sound
    (by omega) (by rw [size]; exact p.readsIn_samp streamId subStreamId)
  cases ended : SampChunk.readFrom (UInt32.ofNat (p.chunk streamId subStreamId).size) 64
      ⟨(p.chunk streamId subStreamId).encode, 0 + 16, []⟩ with
  | mk result f' =>
      rw [ended] at read
      cases result with
      | error e => cases read
      | ok c =>
          cases read
          exact ((readSamp_ok_iff rfl).mp ended).2.2.1.symm

end IqPacket

/-! ## The index of a recording -/

/-- What is gathered from the SAMP chunks of a chain, gathered from what they were written for. -/
theorem RtsaChunk.flatMap_sampChunks {Entry Value : Type} (toChunk : Entry → RtsaChunk)
    (gather : Nat × SampChunk → List Value) (gathered : Entry → List Value) {entries : List Entry}
    (sound : ∀ entry ∈ entries, (toChunk entry).WellFormed) {bytes before after : Bytes}
    (layout : bytes = before ++ (entries.map toChunk).flatMap encode ++ after)
    (samp : ∀ entry ∈ entries, (toChunk entry).id = chunkId "SAMP" → ∀ place,
      (toChunk entry).HeldAt bytes place → gather (place, (toChunk entry).samp) = gathered entry)
    (other : ∀ entry ∈ entries, (toChunk entry).id ≠ chunkId "SAMP" → gathered entry = []) :
    (sampChunks before.length (entries.map toChunk)).flatMap gather = entries.flatMap gathered := by
  induction entries generalizing before with
  | nil => rfl
  | cons entry entries ih =>
      have here := sound entry List.mem_cons_self
      have next : bytes = before ++ (toChunk entry).encode ++
          (entries.map toChunk).flatMap encode ++ after := by
        rw [layout, List.map_cons, List.flatMap_cons]
        simp only [List.append_assoc]
      have held : (toChunk entry).HeldAt bytes before.length :=
        ⟨before, (entries.map toChunk).flatMap encode ++ after, by
          rw [next]; simp only [List.append_assoc], rfl⟩
      have later := ih (fun e member => sound e (List.mem_cons_of_mem entry member)) next
        (fun e member => samp e (List.mem_cons_of_mem entry member))
        (fun e member => other e (List.mem_cons_of_mem entry member))
      rw [List.length_append, here.encode_length] at later
      rw [List.map_cons, sampChunks, List.flatMap_append, later, List.flatMap_cons]
      congr 1
      by_cases named : (toChunk entry).id = chunkId "SAMP"
      · rw [if_pos named, List.flatMap_cons, List.flatMap_nil, List.append_nil]
        exact samp entry List.mem_cons_self named _ held
      · rw [if_neg named, List.flatMap_nil, other entry List.mem_cons_self named]

namespace Recording

variable (r : Recording)

/-- The head, the stream and the sub-stream. -/
def lead : Bytes := r.dsfh.encode ++ (r.strm.encode ++ r.sstr.encode)

theorem lead_length : r.lead.length = 304 := by
  simp only [lead, List.length_append, r.dsfh_sound.encode_length, r.strm_sound.encode_length,
    r.sstr_sound.encode_length, dsfh_size, strm_size, sstr_size]

theorem layout : r.bytes =
    r.lead ++ r.entryChunks.flatMap RtsaChunk.encode ++ (r.strt.encode ++ r.dsft.encode) := by
  rw [bytes_eq, entryBytes, lead]
  simp only [List.append_assoc]

theorem flatMap_packets {Value : Type} (gathered : IqPacket → List Value) (entries : List Entry) :
    entries.flatMap (fun entry => entry.packet?.elim [] gathered) =
      (entries.filterMap Entry.packet?).flatMap gathered := by
  induction entries with
  | nil => rfl
  | cons entry entries ih =>
      rw [List.flatMap_cons, ih, List.filterMap_cons]
      cases entry with
      | packet p => rfl
      | other c => rfl

/-- What is gathered from the stream's chunks is gathered from the packets. -/
theorem flatMap_samps {Value : Type} (gather : Nat × SampChunk → List Value)
    (gathered : IqPacket → List Value)
    (packet : ∀ p place, .packet p ∈ r.entries →
      (p.chunk r.streamId r.subStreamId).HeldAt r.bytes place →
        gather (place, p.samp r.streamId r.subStreamId) = gathered p)
    (foreign : ∀ place c, .other c ∈ r.entries → c.id = chunkId "SAMP" →
      gather (place, c.samp) = []) : r.samps.flatMap gather = r.packets.flatMap gathered := by
  have gathers := RtsaChunk.flatMap_sampChunks
    (fun entry : Entry => entry.chunk r.streamId r.subStreamId) gather
    (fun entry => entry.packet?.elim [] gathered)
    (fun entry member => r.entries_sound _ (List.mem_map_of_mem member)) r.layout
    (by
      intro entry member named place held
      cases entry with
      | packet p =>
          have same := p.samp_eq r.streamId r.subStreamId
          simp only [Entry.chunk] at held ⊢
          rw [same]
          exact packet p place member held
      | other c => exact foreign place c member named)
    (by
      intro entry member unnamed
      cases entry with
      | packet p => exact absurd rfl unnamed
      | other c => rfl)
  rw [lead_length, flatMap_packets] at gathers
  exact gathers

theorem samps_ne_nil : r.samps ≠ [] := by
  obtain ⟨p, listed⟩ := r.recorded
  intro none
  have counts := r.flatMap_samps (fun chunk => if chunk.2.streamId = r.streamId.toNat then [()]
    else []) (fun _ => [()]) (fun p place _ _ => if_pos rfl)
    (fun place c listed named => if_neg ((r.others c listed).other named))
  rw [none, List.flatMap_nil] at counts
  have packet : p ∈ r.packets := List.mem_filterMap.mpr ⟨.packet p, listed, rfl⟩
  have gathered : () ∈ r.packets.flatMap fun _ => [()] :=
    List.mem_flatMap.mpr ⟨p, packet, List.mem_singleton_self ()⟩
  rw [← counts] at gathered
  cases gathered

/-! ## Its samples are counted -/

theorem sum_numSamples (entries : List Entry) :
    ((entries.filterMap Entry.packet?).map (·.numSamples)).sum ≤
      (entries.flatMap fun entry => (entry.chunk r.streamId r.subStreamId).encode).length := by
  induction entries with
  | nil => exact Nat.le_refl 0
  | cons entry entries ih =>
      rw [List.flatMap_cons, List.length_append, List.filterMap_cons]
      cases entry with
      | packet p =>
          have length : (Entry.chunk r.streamId r.subStreamId (.packet p)).encode.length =
              64 + 8 * p.numSamples :=
            (packet_sound p r.streamId r.subStreamId).encode_length.trans
              (p.size_eq r.streamId r.subStreamId)
          simp only [Entry.packet?, List.map_cons, List.sum_cons]
          omega
      | other c =>
          simp only [Entry.packet?]
          omega

theorem numSamples_lt : r.numSamples < 2 ^ 63 := by
  have bounded := r.bounded
  have sum := r.sum_numSamples r.entries
  rw [numSamples, packets]
  omega

variable {r}

/-- The parser's state after a recording. -/
structure Told (r : Recording) (state : RtsaParseState) : Prop where
  head : state.dsfhChunk.isSome = true
  stream : state.iqStreamId = some r.streamId
  strm : (state.strmChunks.lookup r.streamId).isSome = true
  sstr : (state.sstrChunks.lookup r.subStreamId).isSome = true
  tail : state.strtChunk = some r.strtRead
  samps : state.sampChunkOffsets = r.samps

theorem described_told (dsfh : DsfhChunk) :
    ∃ state, described r.bytes r.dsftRead dsfh r.strtRead = some state ∧ r.Told state := by
  have start : asU64 r.strtRead.streamOffset = 24 := rfl
  have area : r.dsftRead.streamOffset = r.streamArea := rfl
  have chain : sstrTable r.bytes r.strtRead.subStreamOffset =
      AList.insert r.subStreamId r.sstrRead ∅ := by
    have place : r.strtRead.subStreamOffset.toNat = 64 := rfl
    rw [sstrTable, place, r.sstrChain_eq]
    rfl
  have found : (sstrTable r.bytes r.strtRead.subStreamOffset).lookup r.subStreamId =
      some r.sstrRead := by rw [chain, AList.lookup_insert]
  rw [described, start, streamAt_eq, Option.bind_some, area, sampsBetween_eq, Option.map_some]
  refine ⟨_, rfl, ?_⟩
  constructor
  · rfl
  · rfl
  · simp [RtsaParseState.insertStrm]
  · simp only [RtsaParseState.insertStrm, found]
    rfl
  · rfl
  · rfl

theorem captureOf_told (clear : r.Clear) :
    ∃ state, captureOf r.bytes = some (state, none) ∧ r.Told state := by
  obtain ⟨state, held, told⟩ := described_told (r := r) ⟨⟨chunkId "DSFH", 24, 0, 1, 8⟩, r.creationTime⟩
  have area : r.dsftRead.streamOffset = r.streamArea := rfl
  have positive : ¬r.streamArea = 0 := by
    rw [streamArea_eq]
    omega
  have indexed : rawOffset r.dsftRead state = none := by
    rw [rawOffset, told.samps, if_neg]
    rintro ⟨empty, -⟩
    exact r.samps_ne_nil (List.isEmpty_iff.mp empty)
  refine ⟨state, ?_, told⟩
  rw [captureOf, tailOf_eq clear, Option.bind_some, area, headNear_eq clear, Option.bind_some,
    dsfh_eq, Option.bind_some, if_neg positive, streamTailOf_eq clear, Option.elim_some, held,
    Option.map_some, indexed]

/-- The parse of a recording. -/
def parse (r : Recording) (subStreams : List SubStreamInfo) (indexes : Indexes r.bytes r.samps) :
    RtsaParse where
  bytes := r.bytes
  totalSamples := r.numSamples
  subStreams
  iqStreamId := some r.streamId.toNat
  sampChunkOffsets := r.samps
  streamOffset := none
  bytes_lt := r.file.bytes_lt
  inFile := indexes.1
  inOrder := indexes.2

section Playing

variable {Real Sample : Type} (decoder : SampleDecoder Real Sample)

/-- The samples of the packets, as they were recorded. -/
def samples (r : Recording) : List (Sample ⊕ Real) :=
  r.packets.flatMap fun p =>
    (asChunks 8 p.payload).map fun pair => .inl (decoder.iqPair decoder.float32 4 pair)

end Playing

/-- Two samples. -/
def smallPacket : IqPacket where
  sampleUnit := 0
  startTime := 0
  endTime := 0
  packetFlags := 0
  sampleDepth := 1
  numSamples := 2
  payload := List.replicate 16 7
  whole := rfl
  allowed := by decide

/-- A packet, an antenna and another packet. -/
def smallRecording : Recording where
  creationTime := 0
  streamId := 123
  startTime := 0
  subStreamId := 1
  frequencyStart := 0
  frequencyStep := 0
  frequencySpan := 0
  valueMinimum := 0
  valueMaximum := 0
  direction := 0
  antennaIndex := 0
  numCategories := 0
  name := List.replicate 128 0
  antennaId := 1
  metadataId := 2
  entries := [.packet smallPacket, .other ⟨chunkId "ANTA", 0, 1, 16, []⟩, .packet smallPacket]
  endTime := 0
  completionTime := 0
  named := rfl
  recorded := ⟨smallPacket, List.mem_cons_self⟩
  others := by
    intro c listed
    simp only [List.mem_cons, reduceCtorEq, Entry.other.injEq, List.not_mem_nil, or_false,
      false_or] at listed
    subst listed
    have other : chunkId "ANTA" ≠ chunkId "SAMP" := by decide
    exact ⟨⟨by decide, by decide, fun same => absurd same other⟩, fun same => absurd same other,
      fun same => absurd same other⟩
  bounded := by decide +kernel

theorem smallRecording_clear : smallRecording.Clear := by
  have dsfh : chunkId "DSFH" = [68, 83, 70, 72] := by decide
  have strt : chunkId "STRT" = [83, 84, 82, 84] := by decide
  have dsft : chunkId "DSFT" = [68, 83, 70, 84] := by decide
  have tails : ∀ rest ∈ smallRecording.bytes.tails.zipIdx,
      (rest.1.take 4 = [68, 83, 70, 72] → rest.2 = 0) ∧
      (rest.1.take 4 = [83, 84, 82, 84] → rest.2 = smallRecording.streamArea) ∧
      (rest.1.take 4 = [68, 83, 70, 84] → rest.2 = smallRecording.streamArea + 96) := by
    decide +kernel
  have once := fun i (inside : i < smallRecording.bytes.length) =>
    tails (smallRecording.bytes.drop i, i) (List.mem_zipIdx_iff_getElem?.mpr (by
      rw [List.getElem?_eq_getElem (by rw [List.length_tails]; omega), List.getElem_tails]))
  have long := smallRecording.bytes_length
  simp only [← dsfh, ← strt, ← dsft] at once
  refine ⟨fun i after inside found => ?_, fun i inside _ found => ?_,
    fun i inside after _ found => ?_⟩
  · have place := (once i inside).2.2 found
    omega
  · have place := (once i (by omega)).2.1 found
    omega
  · have place := (once i inside).1 found
    omega

/-- The file of the small recording is a capture file, and parsed as one. -/
theorem parseRtsaWithTail_reads_smallRecording :
    ∃ state, (parseRtsaWithTail smallRecording.file.bytes.length
        ⟨smallRecording.file.bytes, 0, []⟩).1 = .ok (state, none) ∧
      state.sampChunkOffsets = smallRecording.samps ∧
      Indexes smallRecording.file.bytes state.sampChunkOffsets ∧
      Tabled smallRecording.file.bytes smallRecording.strtRead state := by
  obtain ⟨state, held, told⟩ := captureOf_told smallRecording_clear
  have capture := (captureOf_iff smallRecording.file.bytes_lt).mp held
  have reads := parseRtsaWithTail_reads smallRecording.file
  obtain ⟨indexes, -, tabled⟩ := reads.2 state none capture
  exact ⟨state, (reads.1 state none).mpr capture, told.samps, indexes, tabled _ told.tail⟩

end Recording

end SdrAaronia
