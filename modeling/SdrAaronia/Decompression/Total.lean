import SdrAaronia.Decompression.Strict

/-! # The whole decompressor without a panic

The transform counts the pairs that its guard leaves out.  The count stays zero.
-/

namespace SdrAaronia.Strict

open Checked Decompressor

section Transform

variable {Value : Type} [Add Value] [Sub Value] [Mul Value] (sqrtHalf : Value)

/-- The data of the transform and how many pairs were left out so far. -/
structure Table (Value : Type) where
  data : List Value
  leftOut : Nat
  deriving DecidableEq, Repr

/-- A stride of zero has no steps. -/
def stepBy (n s : Nat) : Option (List Nat) :=
  if s = 0 then none else some (SdrAaronia.stepBy n s)

def visit (dxy numCols row : Nat) (table : Table Value) (col : Nat) : Option (Table Value) := do
  let rowStart ← mul 64 row numCols
  let idx1 ← add 64 rowStart col
  let idx2 ← add 64 idx1 dxy
  if idx2 < table.data.length then do
    let s ← table.data[idx1]?
    let t ← table.data[idx2]?
    let first ← set table.data idx1 (sqrtHalf * (s + t))
    let both ← set first idx2 (sqrtHalf * (s - t))
    some { table with data := both }
  else some { table with leftOut := table.leftOut + 1 }

def visitRow (step : WaveStep) (numCols : Nat) (table : Table Value) (row : Nat) :
    Option (Table Value) := do
  let cols ← stepBy numCols step.sx
  cols.foldlM (visit sqrtHalf step.dxy numCols row) table

def waveTransformStep (table : Table Value) (step : WaveStep) (numCols : Nat) :
    Option (Table Value) := do
  let numRows ← div table.data.length numCols
  let rows ← stepBy numRows step.sy
  rows.foldlM (visitRow sqrtHalf step numCols) table

/-- A number below twice the step that is to be doubled. -/
def mask (step : Nat) : Option Nat := do
  let double ← mul 64 2 step
  sub double 1

def doubleWhile (n : Nat) : Nat → Nat → Option Nat
  | 0, _ => none
  | rounds + 1, step => do
      let mask ← mask step
      if n &&& mask = 0 then do
        let step ← mul 64 step 2
        doubleWhile n rounds step
      else some step

def columnPass (step numCols : Nat) (table : Table Value) : Option (Table Value) := do
  let mask ← mask step
  if numCols &&& mask = 0 then do
    let sx ← mul 64 2 step
    waveTransformStep sqrtHalf table ⟨sx, step, step⟩ numCols
  else some table

def rowPass (step numRows numCols : Nat) (table : Table Value) : Option (Table Value) := do
  let mask ← mask step
  if numRows &&& mask = 0 then do
    let sy ← mul 64 2 step
    let dxy ← mul 64 step numCols
    waveTransformStep sqrtHalf table ⟨step, sy, dxy⟩ numCols
  else some table

def halvingLoop (numRows numCols : Nat) : Nat → Nat → Table Value → Option (Table Value)
  | 0, _, _ => none
  | rounds + 1, step, table =>
      if 1 < step then do
        let table ← columnPass sqrtHalf (step >>> 1) numCols table
        let table ← rowPass sqrtHalf (step >>> 1) numRows numCols table
        halvingLoop numRows numCols rounds (step >>> 1) table
      else some table

def inverseWaveletTransform (data : List Value) (numRows numCols : Nat) :
    Option (Table Value) := do
  let step ← doubleWhile numRows (numRows + 1) 1
  let step ← doubleWhile numCols (numCols + 1) step
  halvingLoop sqrtHalf numRows numCols (step + 1) step ⟨data, 0⟩

/-! ## Passes -/

theorem stepBy_eq {n s : Nat} (positive : 0 < s) :
    stepBy n s = some (SdrAaronia.stepBy n s) :=
  if_neg (Nat.pos_iff_ne_zero.mp positive)

theorem visit_eq {dxy numCols row col : Nat} {data : List Value} (leftOut : Nat)
    (inside : row * numCols + col + dxy < data.length) (small : data.length ≤ maxOutputValues) :
    visit sqrtHalf dxy numCols row ⟨data, leftOut⟩ col =
      some ⟨butterfly sqrtHalf dxy data (row * numCols + col), leftOut⟩ := by
  rw [maxOutputValues] at small
  have rowStart : mul 64 row numCols = some (row * numCols) := mul_eq (by omega)
  have idx1 : add 64 (row * numCols) col = some (row * numCols + col) := add_eq (by omega)
  have idx2 : add 64 (row * numCols + col) dxy = some (row * numCols + col + dxy) :=
    add_eq (by omega)
  rw [visit, rowStart, butterfly, dif_pos inside]
  simp only [idx1, idx2, inside, if_true, Option.bind_eq_bind, Option.bind_some]
  generalize row * numCols + col = i at inside ⊢
  have first : i < data.length := by omega
  have written := set_eq first (sqrtHalf * (data[i] + data[i + dxy]))
  have still : i + dxy < (data.set i (sqrtHalf * (data[i] + data[i + dxy]))).length := by
    rw [List.length_set]
    exact inside
  have both := set_eq still (sqrtHalf * (data[i] - data[i + dxy]))
  simp only [List.getElem?_eq_getElem first, List.getElem?_eq_getElem inside, written, both,
    Option.bind_some]

variable {numRows numCols : Nat}

/-- A pass over a full table panics nowhere and leaves no pair out. -/
theorem waveTransformStep_eq {step : WaveStep} (even : step.Even numRows numCols)
    (cols : 0 < numCols) (small : numRows * numCols ≤ maxOutputValues) {data : List Value}
    (full : data.length = numRows * numCols) (leftOut : Nat) :
    waveTransformStep sqrtHalf ⟨data, leftOut⟩ step numCols =
      some ⟨Decompressor.waveTransformStep sqrtHalf data step numCols, leftOut⟩ := by
  obtain ⟨x, y⟩ := even.strides
  have derived : data.length / numCols = numRows := by
    rw [full]
    exact Nat.mul_div_cancel _ cols
  have rowDone : ∀ data : List Value, data.length = numRows * numCols →
      ∀ row ∈ SdrAaronia.stepBy numRows step.sy,
        visitRow sqrtHalf step numCols ⟨data, leftOut⟩ row =
          some ⟨(SdrAaronia.stepBy numCols step.sx).foldl (fun data col =>
            butterfly sqrtHalf step.dxy data (row * numCols + col)) data, leftOut⟩ ∧
        ((SdrAaronia.stepBy numCols step.sx).foldl (fun data col =>
            butterfly sqrtHalf step.dxy data (row * numCols + col)) data).length =
          numRows * numCols := by
    intro data full row atRow
    rw [visitRow, stepBy_eq x, Option.bind_eq_bind, Option.bind_some]
    apply foldlM_eq (fun data => Table.mk data leftOut)
      (P := fun data => data.length = numRows * numCols) _ data full
    intro data full col atCol
    obtain ⟨rowBelow, rowMultiple⟩ := (mem_stepBy y).mp atRow
    obtain ⟨colBelow, colMultiple⟩ := (mem_stepBy x).mp atCol
    have inside := even.inside ((mem_firsts x y).mpr
      ⟨row, col, rfl, rowBelow, rowMultiple, colBelow, colMultiple⟩)
    rw [← full] at inside small
    exact ⟨visit_eq sqrtHalf leftOut inside small,
      (length_butterfly sqrtHalf step.dxy data _).trans full⟩
  have rows := (foldlM_eq (fun data => Table.mk data leftOut)
    (P := fun data => data.length = numRows * numCols) rowDone data full).1
  rw [waveTransformStep, div_eq cols, derived]
  simp only [Option.bind_eq_bind, Option.bind_some, stepBy_eq y]
  rw [rows, Decompressor.waveTransformStep, derived]

theorem length_pass {data : List Value} (full : data.length = numRows * numCols)
    (cols : 0 < numCols) (step : WaveStep) (performed : Prop) [Decidable performed] :
    (if performed then Decompressor.waveTransformStep sqrtHalf data step numCols
      else data).length = numRows * numCols := by
  split
  · exact length_waveTransformStep sqrtHalf full cols step
  · exact full

/-! ## Loops -/

theorem mask_eq {k : Nat} (small : 2 ^ k ≤ maxOutputValues) :
    mask (2 ^ k) = some (2 * 2 ^ k - 1) := by
  rw [maxOutputValues] at small
  have large : 0 < 2 ^ k := Nat.two_pow_pos k
  have double : mul 64 2 (2 ^ k) = some (2 * 2 ^ k) := mul_eq (by omega)
  rw [mask, double]
  exact sub_eq (by omega)

theorem doubleWhile_eq {n : Nat} (positive : 0 < n) (few : n ≤ maxOutputValues) (rounds : Nat)
    {k : Nat} (small : 2 ^ k ≤ maxOutputValues) (enough : n < rounds + 2 ^ k) :
    doubleWhile n (rounds + 1) (2 ^ k) = some (Decompressor.doubleWhile n rounds (2 ^ k)) := by
  induction rounds generalizing k with
  | zero =>
      have last : ¬n &&& (2 * 2 ^ k - 1) = 0 := by
        intro masked
        have le := Nat.le_of_dvd positive ((mask_iff n k).mp masked)
        omega
      rw [doubleWhile, mask_eq small, Option.bind_eq_bind, Option.bind_some, if_neg last,
        Decompressor.doubleWhile]
  | succ rounds ih =>
      rw [doubleWhile, mask_eq small, Option.bind_eq_bind, Option.bind_some,
        Decompressor.doubleWhile]
      split
      · rename_i masked
        have le := Nat.le_of_dvd positive ((mask_iff n k).mp masked)
        have large : 0 < 2 ^ k := Nat.two_pow_pos k
        have grows : 2 ^ k * 2 = 2 ^ (k + 1) := (pow_succ 2 k).symm
        have doubled : mul 64 (2 ^ k) 2 = some (2 ^ k * 2) := by
          rw [maxOutputValues] at small
          exact mul_eq (by omega)
        rw [doubled, Option.bind_some, Nat.mul_comm 2, grows]
        exact ih (by omega) (by omega)
      · rfl

theorem double_eq {k : Nat} (few : 2 ^ k ≤ maxOutputValues) :
    mul 64 2 (2 ^ k) = some (2 * 2 ^ k) := by
  rw [maxOutputValues] at few
  exact mul_eq (by omega)

theorem columnPass_eq {k : Nat} (cols : 0 < numCols)
    (small : numRows * numCols ≤ maxOutputValues) (few : 2 ^ k ≤ maxOutputValues)
    {data : List Value} (full : data.length = numRows * numCols) (leftOut : Nat) :
    columnPass sqrtHalf (2 ^ k) numCols ⟨data, leftOut⟩ =
      some ⟨if numCols &&& (2 * 2 ^ k - 1) = 0 then
        Decompressor.waveTransformStep sqrtHalf data (alongColumns (2 ^ k)) numCols
        else data, leftOut⟩ := by
  rw [columnPass, mask_eq few, Option.bind_eq_bind, Option.bind_some]
  split
  · rename_i masked
    have even : WaveStep.Even numRows numCols (alongColumns (2 ^ k)) :=
      .columns (Nat.two_pow_pos k) ((mask_iff numCols k).mp masked)
    rw [double_eq few, Option.bind_some]
    exact waveTransformStep_eq sqrtHalf even cols small full leftOut
  · rfl

theorem rowPass_eq {k : Nat} (cols : 0 < numCols)
    (small : numRows * numCols ≤ maxOutputValues) (few : 2 ^ k ≤ maxOutputValues)
    {data : List Value} (full : data.length = numRows * numCols) (rows : 0 < numRows)
    (leftOut : Nat) :
    rowPass sqrtHalf (2 ^ k) numRows numCols ⟨data, leftOut⟩ =
      some ⟨if numRows &&& (2 * 2 ^ k - 1) = 0 then
        Decompressor.waveTransformStep sqrtHalf data (alongRows (2 ^ k) numCols) numCols
        else data, leftOut⟩ := by
  rw [rowPass, mask_eq few, Option.bind_eq_bind, Option.bind_some]
  split
  · rename_i masked
    have divides := (mask_iff numRows k).mp masked
    have even : WaveStep.Even numRows numCols (alongRows (2 ^ k) numCols) :=
      .rows (Nat.two_pow_pos k) divides
    have le : 2 ^ k * numCols ≤ numRows * numCols := by
      apply Nat.mul_le_mul_right
      have double := Nat.le_of_dvd rows divides
      omega
    have dxy : mul 64 (2 ^ k) numCols = some (2 ^ k * numCols) := by
      rw [maxOutputValues] at small
      exact mul_eq (by omega)
    rw [double_eq few, Option.bind_some, dxy, Option.bind_some]
    exact waveTransformStep_eq sqrtHalf even cols small full leftOut
  · rfl

theorem halvingLoop_eq {rounds k : Nat} (enough : 2 ^ k ≤ rounds) (rows : 0 < numRows)
    (cols : 0 < numCols) (small : numRows * numCols ≤ maxOutputValues)
    (few : 2 ^ k ≤ maxOutputValues) {data : List Value}
    (full : data.length = numRows * numCols) (leftOut : Nat) :
    halvingLoop sqrtHalf numRows numCols (rounds + 1) (2 ^ k) ⟨data, leftOut⟩ =
      some ⟨Decompressor.halvingLoop sqrtHalf numRows numCols rounds (2 ^ k) data, leftOut⟩ := by
  induction rounds generalizing k data with
  | zero => exact absurd enough (Nat.not_le_of_gt (Nat.two_pow_pos k))
  | succ rounds ih =>
      rw [halvingLoop, Decompressor.halvingLoop]
      cases k with
      | zero => rfl
      | succ k =>
          have half : 2 ^ (k + 1) >>> 1 = 2 ^ k := by
            rw [Nat.shiftRight_one, Nat.pow_succ, Nat.mul_div_cancel _ Nat.two_pos]
          have large : 0 < 2 ^ k := Nat.two_pow_pos k
          have double : 2 ^ (k + 1) = 2 * 2 ^ k := Nat.pow_succ'
          have few' : 2 ^ k ≤ maxOutputValues := by omega
          have afterColumns := length_pass sqrtHalf full cols (alongColumns (2 ^ k))
            (numCols &&& (2 * 2 ^ k - 1) = 0)
          have afterRows := length_pass sqrtHalf afterColumns cols (alongRows (2 ^ k) numCols)
            (numRows &&& (2 * 2 ^ k - 1) = 0)
          rw [if_pos (by omega), if_pos (by omega), half,
            columnPass_eq sqrtHalf cols small few' full leftOut, Option.bind_eq_bind,
            Option.bind_some, rowPass_eq sqrtHalf cols small few' afterColumns rows leftOut,
            Option.bind_some]
          exact ih (by omega) few' afterRows

/-- The transform panics nowhere, ends, and leaves no pair out. -/
theorem inverseWaveletTransform_eq (rows : 0 < numRows) (cols : 0 < numCols)
    (small : numRows * numCols ≤ maxOutputValues) {data : List Value}
    (full : data.length = numRows * numCols) :
    inverseWaveletTransform sqrtHalf data numRows numCols =
      some ⟨Decompressor.inverseWaveletTransform sqrtHalf data numRows numCols, 0⟩ := by
  have fewRows : numRows ≤ maxOutputValues := (Nat.le_mul_of_pos_right numRows cols).trans small
  have fewCols : numCols ≤ maxOutputValues := (Nat.le_mul_of_pos_left numCols rows).trans small
  have one : 1 ≤ maxOutputValues := by decide
  obtain ⟨i, first, -, -, reached⟩ := doubleWhile_spec (k := 0) numRows rows (by omega)
  have fewFirst : 2 ^ i ≤ maxOutputValues := by
    cases reached with
    | inl start => exact start ▸ one
    | inr divides => exact (Nat.le_of_dvd rows divides).trans fewRows
  have largeFirst : 0 < 2 ^ i := Nat.two_pow_pos i
  obtain ⟨j, second, -, -, reached'⟩ := doubleWhile_spec (k := i) numCols cols (by omega)
  have fewSecond : 2 ^ j ≤ maxOutputValues := by
    cases reached' with
    | inl start => exact start ▸ fewFirst
    | inr divides => exact (Nat.le_of_dvd cols divides).trans fewCols
  have strictFirst := doubleWhile_eq rows fewRows numRows (k := 0) one (by omega)
  have strictSecond := doubleWhile_eq cols fewCols numCols fewFirst (by omega)
  have strictLoop := halvingLoop_eq sqrtHalf (Nat.le_refl _) rows cols small fewSecond full 0
  rw [first] at strictFirst
  rw [second] at strictSecond
  rw [Nat.pow_zero] at first strictFirst
  rw [inverseWaveletTransform, strictFirst, Option.bind_eq_bind, Option.bind_some, strictSecond,
    Option.bind_some, strictLoop, Decompressor.inverseWaveletTransform, firstStep, first, second]

end Transform

/-! ## The decompressor -/

variable {Value : Type} [Mul Value] (floats : Floats Value)

def quant (compressionFactor : Nat) : Option Value := do
  let amount ← sub compressionFactor 1
  let factor ← shiftLeft 1#32 amount
  some (floats.tenth * floats.ofInt factor.toInt)

def dequantize (coefficients : List Int) (compressionFactor : Nat) : Option (List Value) := do
  let quant ← quant floats compressionFactor
  some (coefficients.map fun c => floats.ofInt c * quant)

theorem dequantize_eq {compressionFactor : Nat} (factor : 1 ≤ compressionFactor)
    (factor' : compressionFactor ≤ 31) (coefficients : List Int) :
    dequantize floats coefficients compressionFactor =
      some (Decompressor.dequantize floats coefficients compressionFactor) := by
  have amount : sub compressionFactor 1 = some (compressionFactor - 1) := sub_eq factor
  have shifted : shiftLeft 1#32 (compressionFactor - 1) =
      some (1#32 <<< (compressionFactor - 1)) := shiftLeft_eq (by omega)
  simp only [dequantize, quant, amount, shifted, Option.bind_eq_bind, Option.bind_some]
  rfl

variable [Zero Value] [Add Value] [Sub Value]

/-- `checked_mul` and the limit. -/
def expectedLen (numRows numCols : Nat) : Option Nat :=
  (mul 64 numRows numCols).filter fun n => n ≤ maxOutputValues

def decompress (data : List UInt8) (compressionFactor numRows numCols : Nat) :
    Option (Except Error (Table Value)) :=
  match refusal compressionFactor numRows numCols with
  | some e => some (.error e)
  | none => do
      let coefficients ← unpackCoefficients data
      match coefficients with
      | .error e => some (.error e)
      | .ok coefficients => do
          let dequantized ← dequantize floats coefficients compressionFactor
          match expectedLen numRows numCols with
          | none => some (.error (tooManyValues numRows numCols))
          | some expectedLen => do
              let table ← inverseWaveletTransform floats.sqrtHalf
                (resized dequantized expectedLen) numRows numCols
              some (.ok table)

theorem expectedLen_eq (numRows numCols : Nat) :
    expectedLen numRows numCols = Decompressor.expectedLen numRows numCols := by
  rw [expectedLen, mul, Decompressor.expectedLen]
  grind

/-- No operation of the decompressor panics, all its loops end, and no pair is left out. -/
theorem decompress_eq (data : ByteSlice) (compressionFactor numRows numCols : Nat) :
    decompress floats data.bytes compressionFactor numRows numCols =
      some ((Decompressor.decompress floats data.bytes compressionFactor numRows numCols).map
        fun values => ⟨values, 0⟩) := by
  rw [decompress, Decompressor.decompress]
  cases refused : refusal compressionFactor numRows numCols with
  | some e => rfl
  | none =>
      obtain ⟨factor, factor', rows, cols⟩ := refusal_none refused
      simp only [unpackCoefficients_eq data, Option.bind_eq_bind, Option.bind_some]
      cases Decompressor.unpackCoefficients data.bytes with
      | error e => rfl
      | ok coefficients =>
          simp only [dequantize_eq floats factor factor' coefficients, expectedLen_eq,
            Option.bind_some]
          cases sized : Decompressor.expectedLen numRows numCols with
          | none => rfl
          | some length =>
              obtain ⟨rfl, small⟩ := expectedLen_some sized
              have full := length_resized
                (Decompressor.dequantize floats coefficients compressionFactor)
                (numRows * numCols)
              simp only [inverseWaveletTransform_eq floats.sqrtHalf rows cols small full,
                Option.bind_some]
              rfl

/-- Whatever the bytes, the factor and the dimensions, the decompressor ends without a
panic, with an error or with a value for each cell of the table, of which there are at
most `2 ^ 24`; and none of the pairs visited was left out. -/
theorem decompress_total (data : ByteSlice) (compressionFactor numRows numCols : Nat) :
    (∃ e, decompress floats data.bytes compressionFactor numRows numCols = some (.error e)) ∨
    ∃ values, decompress floats data.bytes compressionFactor numRows numCols =
        some (.ok ⟨values, 0⟩) ∧
      values.length = numRows * numCols ∧ values.length ≤ 2 ^ 24 := by
  rw [decompress_eq]
  cases decompressed : Decompressor.decompress floats data.bytes compressionFactor numRows
      numCols with
  | error e => exact Or.inl ⟨e, rfl⟩
  | ok values => exact Or.inr ⟨values, rfl, length_decompress floats decompressed⟩

end SdrAaronia.Strict
