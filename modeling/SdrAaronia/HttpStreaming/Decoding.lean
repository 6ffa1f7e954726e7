import SdrAaronia.HttpStreaming.Parser

/-! # Binary sample decoding

Number conversions and the wavelet transform are parameters; which of them a
payload goes through, and which payloads are refused, is the code's own.
-/

namespace SdrAaronia.HttpStreaming

/-- What the decoders take from float arithmetic and from the decompressor. -/
structure SampleDecoder (Real Sample : Type) where
  complex : Real → Real → Sample
  zero : Real
  /-- Two little-endian bytes times the decode scale. -/
  int16 : F64 → Bytes → Real
  float16 : Bytes → Real
  float32 : Bytes → Real
  /-- `Decompressor::decompress` with its factor, rows and columns. -/
  decompress : Bytes → Nat → Nat → Nat → Except Error (List Real)
  /-- `round(value * scale)` clamped to an `i16`, as its two bytes. -/
  toInt16 : F64 → Real → Bytes
  toFloat16 : Real → Bytes
  toFloat32 : Real → Bytes

/-- Full scale, where neither the packet nor the request names one. -/
def defaultInt16EncodeScale : F64 := .finite 32768

/-- The packet's own scale, else the requested one, else full scale. -/
def int16EncodeScale (requested : Option F64) (metadata : PacketMetadata) : F64 :=
  ((metadata.scale.or requested).filter fun s => s.isFinite && decide (0 < s)).getD
    defaultInt16EncodeScale

def int16DecodeScale (requested : Option F64) (metadata : PacketMetadata) : F64 :=
  1 / int16EncodeScale requested metadata

/-- `as_chunks::<N>().0`: the whole chunks, a shorter rest dropped. -/
def asChunks (n : Nat) (bytes : Bytes) : List Bytes :=
  if _h : 0 < n ∧ n ≤ bytes.length then bytes.take n :: asChunks n (bytes.drop n) else []
termination_by bytes.length
decreasing_by
  rw [List.length_drop]
  omega

/-- Spectra per wavelet block. -/
def maxFramesPerBlock : Nat := 16

/-- The inverse-wavelet grid of a compressed spectra packet, or a refusal. -/
def spectraWaveletGrid (metadata : PacketMetadata) : Except Error (Nat × Nat) :=
  if metadata.payload ≠ .spectra then
    .error (.protocol
      ("compressed " ++ metadata.payload.debugName ++ " payloads have no documented layout"))
  else
    let depth := metadata.sampleDepth.getD 1
    if 1 < depth then
      .error (.protocol s!"compressed spectra with sample depth {depth} have no documented layout")
    else if metadata.samples = 0 ∨ metadata.sampleSize = 0 then
      .error (.protocol s!"compressed spectra packet declares {metadata.samples} frames of {metadata.sampleSize} bins")
    else if maxFramesPerBlock < metadata.samples then
      .error (.protocol s!"compressed spectra packet holds {metadata.samples} frames; the layout of more than {maxFramesPerBlock} (one wavelet block) is undocumented")
    else .ok (metadata.samples, metadata.sampleSize)

namespace SampleDecoder

variable {Real Sample : Type} (decoder : SampleDecoder Real Sample)

def convertF32ToTargetFormat (format : StreamFormat) (values : List Real) (encodeScale : F64) :
    Except Error Bytes :=
  match format with
  | .int16 => .ok (values.flatMap (decoder.toInt16 encodeScale))
  | .float16 => .ok (values.flatMap decoder.toFloat16)
  | .float32 => .ok (values.flatMap decoder.toFloat32)
  | .json => .error (.protocol "Cannot convert to JSON format")

def decompressSpectrumData (format : StreamFormat) (scale : Option F64) (data : Bytes)
    (factor : Nat) (metadata : PacketMetadata) : Except Error Bytes :=
  match spectraWaveletGrid metadata with
  | .error e => .error e
  | .ok (rows, cols) =>
      match decoder.decompress data factor rows cols with
      | .error e => .error e
      | .ok values =>
          decoder.convertF32ToTargetFormat format values (int16EncodeScale scale metadata)

/-- One complex sample from the two halves of a chunk. -/
def iqPair (scalar : Bytes → Real) (half : Nat) (chunk : Bytes) : Sample :=
  decoder.complex (scalar (chunk.take half)) (scalar (chunk.drop half))

def parseIqSamples (format : StreamFormat) (scale : Option F64) (metadata : PacketMetadata)
    (data : Bytes) : Except Error (List Sample) :=
  match format with
  | .int16 =>
      .ok ((asChunks 4 data).map
        (decoder.iqPair (decoder.int16 (int16DecodeScale scale metadata)) 2))
  | .float16 => .ok ((asChunks 4 data).map (decoder.iqPair decoder.float16 2))
  | .float32 => .ok ((asChunks 8 data).map (decoder.iqPair decoder.float32 4))
  | .json => .error (.protocol "Binary IQ parsing not applicable for JSON format")

/-- Real values with a zero imaginary part, one scalar each. -/
def parseScalars (format : StreamFormat) (scale : Option F64) (metadata : PacketMetadata)
    (data : Bytes) : Except Error (List Sample) :=
  let real := fun value => decoder.complex value decoder.zero
  match format with
  | .int16 =>
      .ok ((asChunks 2 data).map fun chunk =>
        real (decoder.int16 (int16DecodeScale scale metadata) chunk))
  | .float16 => .ok ((asChunks 2 data).map fun chunk => real (decoder.float16 chunk))
  | .float32 => .ok ((asChunks 4 data).map fun chunk => real (decoder.float32 chunk))
  | .json => .error (.protocol "Binary spectrum parsing not applicable for JSON format")

def parseSpectrumSamples (format : StreamFormat) (scale : Option F64) (metadata : PacketMetadata)
    (data : Bytes) : Except Error (List Sample) :=
  match metadata.compression with
  | some factor =>
      if 0 < factor then
        match decoder.decompressSpectrumData format scale data factor metadata with
        | .error e => .error e
        | .ok plain => decoder.parseScalars format scale metadata plain
      else decoder.parseScalars format scale metadata data
  | none => decoder.parseScalars format scale metadata data

def parseHistogramSamples (format : StreamFormat) (scale : Option F64)
    (metadata : PacketMetadata) (data : Bytes) : Except Error (List Sample) :=
  decoder.parseSpectrumSamples format scale metadata data

def parseCategorySamples (format : StreamFormat) (scale : Option F64)
    (metadata : PacketMetadata) (data : Bytes) : Except Error (List Sample) :=
  decoder.parseSpectrumSamples format scale metadata data

def parseBinarySamples (format : StreamFormat) (scale : Option F64) (metadata : PacketMetadata)
    (data : Bytes) : Except Error (List Sample) :=
  match metadata.payload with
  | .iq => decoder.parseIqSamples format scale metadata data
  | .spectra => decoder.parseSpectrumSamples format scale metadata data
  | .histogram => decoder.parseHistogramSamples format scale metadata data
  | .categories => decoder.parseCategorySamples format scale metadata data

theorem asChunks_length_eq {n : Nat} (positive : 0 < n) {k : Nat} {bytes : Bytes}
    (whole : bytes.length = k * n) : (asChunks n bytes).length = k := by
  induction k generalizing bytes with
  | zero =>
      rw [asChunks, dif_neg (by omega)]
      rfl
  | succ k ih =>
      rw [Nat.succ_mul] at whole
      rw [asChunks, dif_pos ⟨positive, by omega⟩, List.length_cons,
        ih (by rw [List.length_drop]; omega)]

theorem asChunks_nil (n : Nat) : asChunks n [] = [] := by
  rw [asChunks, dif_neg]
  simp only [List.length_nil]
  omega

theorem asChunks_append {n k : Nat} (positive : 0 < n) {first second : Bytes}
    (whole : first.length = k * n) :
    asChunks n (first ++ second) = asChunks n first ++ asChunks n second := by
  induction k generalizing first with
  | zero =>
      have none : first = [] := List.eq_nil_of_length_eq_zero (by omega)
      rw [none, List.nil_append, asChunks_nil, List.nil_append]
  | succ k ih =>
      rw [Nat.succ_mul] at whole
      rw [asChunks, dif_pos ⟨positive, by rw [List.length_append]; omega⟩,
        asChunks.eq_def n first, dif_pos ⟨positive, by omega⟩,
        List.take_append_of_le_length (by omega), List.drop_append_of_le_length (by omega),
        ih (by rw [List.length_drop]; omega), List.cons_append]

theorem asChunks_length {n : Nat} (bytes : Bytes) :
    (asChunks n bytes).length * n ≤ bytes.length := by
  induction size : bytes.length using Nat.strong_induction_on generalizing bytes with
  | _ k ih =>
      rw [asChunks]
      split
      · rename_i whole
        have rest := ih (bytes.drop n).length (by rw [List.length_drop]; omega) _ rfl
        rw [List.length_drop] at rest
        rw [List.length_cons, Nat.succ_mul]
        omega
      · simp

theorem parseScalars_ok {format : StreamFormat} (binary : format.Binary) (scale : Option F64)
    (metadata : PacketMetadata) (data : Bytes) :
    ∃ samples, decoder.parseScalars format scale metadata data = .ok samples := by
  cases format with
  | json => exact absurd rfl binary
  | int16 | float16 | float32 => exact ⟨_, rfl⟩

/-- An IQ payload always decodes, into no more samples than its bytes hold. -/
theorem parseIqSamples_ok {format : StreamFormat} {width : Nat}
    (wide : format.iqBytesPerSample = some width) (scale : Option F64) (metadata : PacketMetadata)
    (data : Bytes) :
    ∃ samples, decoder.parseIqSamples format scale metadata data = .ok samples ∧
      samples.length * width ≤ data.length := by
  cases format with
  | json => simp [StreamFormat.iqBytesPerSample] at wide
  | int16 | float16 | float32 =>
      cases wide
      refine ⟨_, rfl, ?_⟩
      rw [List.length_map]
      exact asChunks_length data

/-- Whatever is not compressed decodes. -/
theorem parseBinarySamples_plain {format : StreamFormat} (binary : format.Binary)
    (scale : Option F64) {metadata : PacketMetadata} (data : Bytes)
    (plain : metadata.payload = .iq ∨ ¬metadata.Compressed) :
    ∃ samples, decoder.parseBinarySamples format scale metadata data = .ok samples := by
  have spectrum : ¬metadata.Compressed →
      ∃ samples, decoder.parseSpectrumSamples format scale metadata data = .ok samples := by
    intro uncompressed
    have decoded := decoder.parseScalars_ok binary scale metadata data
    rw [parseSpectrumSamples]
    cases factor : metadata.compression with
    | none => exact decoded
    | some factor' =>
        have zero : ¬0 < factor' := fun positive => uncompressed ⟨factor', factor, positive⟩
        simp only [if_neg zero]
        exact decoded
  obtain ⟨width, wide, -⟩ := binary.iqBytes
  obtain ⟨iq, decoded, -⟩ := decoder.parseIqSamples_ok wide scale metadata data
  rw [parseBinarySamples]
  cases kind : metadata.payload with
  | iq => exact ⟨iq, decoded⟩
  | spectra | histogram | categories =>
      exact spectrum (plain.resolve_left (by rw [kind]; exact PayloadType.noConfusion))

/-- The layout of compressed categories is undocumented, so they are refused. -/
theorem parseBinarySamples_compressedCategories (format : StreamFormat) (scale : Option F64)
    {metadata : PacketMetadata} (data : Bytes) (categories : metadata.payload = .categories)
    (compressed : metadata.Compressed) :
    decoder.parseBinarySamples format scale metadata data =
      .error (.protocol "compressed Categories payloads have no documented layout") := by
  obtain ⟨factor, declared, positive⟩ := compressed
  have refused : spectraWaveletGrid metadata =
      .error (.protocol "compressed Categories payloads have no documented layout") := by
    simp [spectraWaveletGrid, categories, PayloadType.debugName]
  have known : metadata.compression = some factor := declared
  simp only [parseBinarySamples, categories, parseCategorySamples, parseSpectrumSamples, known,
    if_pos positive, decompressSpectrumData, refused]

end SampleDecoder

/-- The codec with its binary decoder replaced by `decoder`'s. -/
def WireCodec.decodedBy {Value Real Sample : Type} (codec : WireCodec Value Sample)
    (decoder : SampleDecoder Real Sample) : WireCodec Value Sample :=
  { codec with binarySamples := decoder.parseBinarySamples }

/-- A decoder that keeps the bytes of each scalar. -/
def rawDecoder : SampleDecoder Bytes (Bytes × Bytes) where
  complex := Prod.mk
  zero := []
  int16 := fun _ bytes => bytes
  float16 := id
  float32 := id
  decompress := fun _ _ _ _ => .ok []
  toInt16 := fun _ bytes => bytes
  toFloat16 := id
  toFloat32 := id

end SdrAaronia.HttpStreaming
