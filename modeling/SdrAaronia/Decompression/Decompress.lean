import SdrAaronia.Decompression.Unpack
import SdrAaronia.Decompression.Wavelet

/-! # Decompressing a block

The checks on the arguments, then unpacking, dequantizing and the transform of as
many values as the dimensions ask for.
-/

namespace SdrAaronia

/-- The numbers of the samples, `f32` in the source, and the decoder's constants. -/
structure Floats (Value : Type) where
  /-- `as f32` -/
  ofInt : Int → Value
  /-- `0.1` -/
  tenth : Value
  /-- `0.5.sqrt()` -/
  sqrtHalf : Value

namespace Decompressor

def maxOutputValues : Nat := 2 ^ 24

def zeroFactor : Error :=
  .protocol ("Decompressor::decompress called with compression_factor = 0; the payload is " ++
    "uncompressed — read it directly")

def factorOutOfRange (compressionFactor : Nat) : Error :=
  .protocol (s!"Decompressor::decompress: compression_factor {compressionFactor} is out of " ++
    "the documented range (1-31)")

def zeroDimension (numRows numCols : Nat) : Error :=
  .protocol (s!"Decompressor::decompress requires non-zero dimensions (got num_rows={numRows}, " ++
    s!"num_cols={numCols})")

def iqUnsupported : Error :=
  .protocol ("DSPT_IQ decompression requires the Aaronia SDK/DLL. Native decompression is " ++
    "proprietary and currently unsupported.")

def tooManyValues (numRows numCols : Nat) : Error :=
  .protocol s!"decompress: {numRows} x {numCols} values exceeds the {maxOutputValues} limit"

/-- What the arguments are refused for before any data is read. -/
def refusal (compressionFactor numRows numCols : Nat) : Option Error :=
  if compressionFactor = 0 then some zeroFactor
  else if 31 < compressionFactor then some (factorOutOfRange compressionFactor)
  else if numRows = 0 ∨ numCols = 0 then some (zeroDimension numRows numCols)
  else if numRows = 1 ∧ 128 ≤ numCols then some iqUnsupported
  else none

/-- The product of the dimensions, where it fits a `usize` and the limit. -/
def expectedLen (numRows numCols : Nat) : Option Nat :=
  if numRows * numCols < 2 ^ 64 ∧ numRows * numCols ≤ maxOutputValues then
    some (numRows * numCols)
  else none

variable {Value : Type} [Zero Value]

/-- The values, padded with zeros or cut to a length. -/
def resized (values : List Value) (length : Nat) : List Value :=
  if values.length < length then values ++ List.replicate (length - values.length) 0
  else if length < values.length then values.take length
  else values

theorem length_resized (values : List Value) (length : Nat) :
    (resized values length).length = length := by
  rw [resized]
  split
  · rw [List.length_append, List.length_replicate]
    omega
  · split
    · rw [List.length_take]
      omega
    · omega

variable [Add Value] [Sub Value] [Mul Value] (floats : Floats Value)

/-- The factor of every coefficient. -/
def quant (compressionFactor : Nat) : Value :=
  floats.tenth * floats.ofInt (1#32 <<< (compressionFactor - 1)).toInt

def dequantize (coefficients : List Int) (compressionFactor : Nat) : List Value :=
  coefficients.map fun c => floats.ofInt c * quant floats compressionFactor

def decompress (data : List UInt8) (compressionFactor numRows numCols : Nat) :
    Except Error (List Value) :=
  match refusal compressionFactor numRows numCols with
  | some e => .error e
  | none =>
      match unpackCoefficients data with
      | .error e => .error e
      | .ok coefficients =>
          let dequantized := dequantize floats coefficients compressionFactor
          match expectedLen numRows numCols with
          | none => .error (tooManyValues numRows numCols)
          | some expectedLen =>
              .ok (inverseWaveletTransform floats.sqrtHalf (resized dequantized expectedLen)
                numRows numCols)

/-- Arguments that are not refused. -/
theorem refusal_none {compressionFactor numRows numCols : Nat}
    (taken : refusal compressionFactor numRows numCols = none) :
    1 ≤ compressionFactor ∧ compressionFactor ≤ 31 ∧ 0 < numRows ∧ 0 < numCols := by
  rw [refusal] at taken
  split at taken
  · exact absurd taken (Option.some_ne_none _)
  · split at taken
    · exact absurd taken (Option.some_ne_none _)
    · split at taken
      · exact absurd taken (Option.some_ne_none _)
      · omega

theorem expectedLen_some {numRows numCols length : Nat}
    (fits : expectedLen numRows numCols = some length) :
    length = numRows * numCols ∧ length ≤ maxOutputValues := by
  rw [expectedLen] at fits
  split at fits
  · rename_i small
    rw [← Option.some.inj fits]
    exact ⟨rfl, small.2⟩
  · exact absurd fits.symm (Option.some_ne_none _)

/-- Values that come out fill the table. -/
theorem length_decompress {data : List UInt8} {compressionFactor numRows numCols : Nat}
    {values : List Value}
    (decompressed : decompress floats data compressionFactor numRows numCols = .ok values) :
    values.length = numRows * numCols ∧ values.length ≤ maxOutputValues := by
  rw [decompress] at decompressed
  split at decompressed
  · cases decompressed
  · rename_i taken
    obtain ⟨-, -, -, cols⟩ := refusal_none taken
    split at decompressed
    · cases decompressed
    · split at decompressed
      · cases decompressed
      · rename_i coefficients _ _ length fits
        obtain ⟨rfl, small⟩ := expectedLen_some fits
        have sized := length_resized (dequantize floats coefficients compressionFactor)
          (numRows * numCols)
        have full := length_inverseWaveletTransform floats.sqrtHalf sized cols
        rw [← Except.ok.inj decompressed, full]
        exact ⟨rfl, small⟩

end Decompressor

end SdrAaronia
