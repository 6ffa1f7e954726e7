import Mathlib.Data.Nat.Bitwise
import Mathlib.Data.List.Nodup
import Mathlib.Tactic.Ring

/-! # The inverse wavelet transform

Passes over the columns and the rows of a table, coarsest first.  A pass takes
pairs of values at one distance and leaves their sum and their difference, scaled.
-/

namespace SdrAaronia

/-- The numbers `0, s, 2s, …` below `n`. -/
def stepBy (n s : Nat) : List Nat := (List.range ((n + s - 1) / s)).map (· * s)

theorem mem_stepBy {n s x : Nat} (positive : 0 < s) :
    x ∈ stepBy n s ↔ x < n ∧ s ∣ x := by
  rw [stepBy, List.mem_map]
  constructor
  · rintro ⟨i, below, rfl⟩
    rw [List.mem_range, Nat.lt_div_iff_mul_lt positive] at below
    exact ⟨by omega, Nat.dvd_mul_left s i⟩
  · rintro ⟨below, i, rfl⟩
    refine ⟨i, ?_, Nat.mul_comm i s⟩
    rw [List.mem_range, Nat.lt_div_iff_mul_lt positive, Nat.mul_comm i s]
    omega

theorem nodup_stepBy {n s : Nat} (positive : 0 < s) : (stepBy n s).Nodup := by
  apply List.Nodup.map _ List.nodup_range
  intro i j same
  exact Nat.eq_of_mul_eq_mul_right positive same

/-- A multiple below a multiple leaves room for one more stride. -/
theorem stride_inside {n s x : Nat} (divides : s ∣ n) (multiple : s ∣ x) (below : x < n) :
    x + s ≤ n := by
  obtain ⟨a, rfl⟩ := divides
  obtain ⟨b, rfl⟩ := multiple
  have fewer : b < a := Nat.lt_of_mul_lt_mul_left below
  calc s * b + s = s * (b + 1) := (Nat.mul_succ s b).symm
    _ ≤ s * a := Nat.mul_le_mul_left s fewer

namespace Decompressor

/-- The strides and the distance of one pass. -/
structure WaveStep where
  sx : Nat
  sy : Nat
  dxy : Nat
  deriving DecidableEq, Repr

section Transform

variable {Value : Type} [Add Value] [Sub Value] [Mul Value] (sqrtHalf : Value)

/-- What a pass does with one pair, where the second index is inside. -/
def butterfly (dxy : Nat) (data : List Value) (idx1 : Nat) : List Value :=
  if inside : idx1 + dxy < data.length then
    let s := data[idx1]
    let t := data[idx1 + dxy]
    (data.set idx1 (sqrtHalf * (s + t))).set (idx1 + dxy) (sqrtHalf * (s - t))
  else data

def waveTransformStep (data : List Value) (step : WaveStep) (numCols : Nat) : List Value :=
  let numRows := data.length / numCols
  (stepBy numRows step.sy).foldl (fun data row =>
    (stepBy numCols step.sx).foldl (fun data col =>
      butterfly sqrtHalf step.dxy data (row * numCols + col)) data) data

/-- The doubling loop, for at most as many rounds. -/
def doubleWhile (n : Nat) : Nat → Nat → Nat
  | 0, step => step
  | rounds + 1, step =>
      if n &&& (2 * step - 1) = 0 then doubleWhile n rounds (2 * step) else step

def firstStep (numRows numCols : Nat) : Nat :=
  doubleWhile numCols numCols (doubleWhile numRows numRows 1)

def alongColumns (step : Nat) : WaveStep := ⟨2 * step, step, step⟩

def alongRows (step numCols : Nat) : WaveStep := ⟨step, 2 * step, step * numCols⟩

/-- The halving loop, for at most as many rounds. -/
def halvingLoop (numRows numCols : Nat) : Nat → Nat → List Value → List Value
  | 0, _, data => data
  | rounds + 1, step, data =>
      if 1 < step then
        let step := step >>> 1
        let data :=
          if numCols &&& (2 * step - 1) = 0 then
            waveTransformStep sqrtHalf data (alongColumns step) numCols
          else data
        let data :=
          if numRows &&& (2 * step - 1) = 0 then
            waveTransformStep sqrtHalf data (alongRows step numCols) numCols
          else data
        halvingLoop numRows numCols rounds step data
      else data

def inverseWaveletTransform (data : List Value) (numRows numCols : Nat) : List Value :=
  let step := firstStep numRows numCols
  halvingLoop sqrtHalf numRows numCols step step data

end Transform

/-! ## The steps -/

/-- The passes of the halving loop, in order. -/
def halvingSteps (numRows numCols : Nat) : Nat → Nat → List WaveStep
  | 0, _ => []
  | rounds + 1, step =>
      if 1 < step then
        (if numCols &&& (2 * (step >>> 1) - 1) = 0 then [alongColumns (step >>> 1)] else []) ++
          (if numRows &&& (2 * (step >>> 1) - 1) = 0 then [alongRows (step >>> 1) numCols]
            else []) ++
          halvingSteps numRows numCols rounds (step >>> 1)
      else []

/-- The passes that the transform performs, in order. -/
def waveSteps (numRows numCols : Nat) : List WaveStep :=
  halvingSteps numRows numCols (firstStep numRows numCols) (firstStep numRows numCols)

/-- The stride of a pass divides the dimension it runs along. -/
inductive WaveStep.Even (numRows numCols : Nat) : WaveStep → Prop where
  | columns {step : Nat} (positive : 0 < step) (divides : 2 * step ∣ numCols) :
      WaveStep.Even numRows numCols (alongColumns step)
  | rows {step : Nat} (positive : 0 < step) (divides : 2 * step ∣ numRows) :
      WaveStep.Even numRows numCols (alongRows step numCols)

/-- The first index of every pair of a pass. -/
def WaveStep.firsts (step : WaveStep) (numRows numCols : Nat) : List Nat :=
  (stepBy numRows step.sy).flatMap fun row =>
    (stepBy numCols step.sx).map fun col => row * numCols + col

theorem mask_iff (n k : Nat) : n &&& (2 * 2 ^ k - 1) = 0 ↔ 2 * 2 ^ k ∣ n := by
  rw [← Nat.pow_succ', Nat.and_two_pow_sub_one_eq_mod, Nat.dvd_iff_mod_eq_zero]

/-- The doubling loop stops at a power of two that cannot be doubled. -/
theorem doubleWhile_spec {n k : Nat} (rounds : Nat) (positive : 0 < n)
    (enough : n < rounds + 2 ^ k) :
    ∃ j, doubleWhile n rounds (2 ^ k) = 2 ^ j ∧ k ≤ j ∧ ¬2 * 2 ^ j ∣ n ∧ (j = k ∨ 2 ^ j ∣ n) := by
  induction rounds generalizing k with
  | zero =>
      refine ⟨k, rfl, Nat.le_refl k, ?_, Or.inl rfl⟩
      intro divides
      have le := Nat.le_of_dvd positive divides
      omega
  | succ rounds ih =>
      rw [doubleWhile]
      split
      · rename_i masked
        have divides := (mask_iff n k).mp masked
        rw [← Nat.pow_succ'] at divides
        have grows : 2 ^ (k + 1) = 2 * 2 ^ k := Nat.pow_succ'
        have large : 0 < 2 ^ k := Nat.two_pow_pos k
        obtain ⟨j, stops, above, last, reached⟩ := ih (k := k + 1) (by omega)
        refine ⟨j, ?_, by omega, last, Or.inr ?_⟩
        · rw [← grows]
          exact stops
        · cases reached with
          | inl same => exact same ▸ divides
          | inr divides => exact divides
      · rename_i unmasked
        exact ⟨k, rfl, Nat.le_refl k, fun divides => unmasked ((mask_iff n k).mpr divides),
          Or.inl rfl⟩

/-- The first step is the largest power of two that divides a dimension. -/
theorem firstStep_spec {numRows numCols : Nat} (rows : 0 < numRows) (cols : 0 < numCols) :
    ∃ k, firstStep numRows numCols = 2 ^ k ∧ (2 ^ k ∣ numRows ∨ 2 ^ k ∣ numCols) ∧
      ¬2 * 2 ^ k ∣ numRows ∧ ¬2 * 2 ^ k ∣ numCols := by
  obtain ⟨i, first, -, lastRow, reachedRow⟩ :=
    doubleWhile_spec (k := 0) numRows rows (by omega)
  have large : 0 < 2 ^ i := Nat.two_pow_pos i
  obtain ⟨j, second, above, lastCol, reachedCol⟩ :=
    doubleWhile_spec (k := i) numCols cols (by omega)
  rw [Nat.pow_zero] at first
  refine ⟨j, by rw [firstStep, first, second], ?_, ?_, lastCol⟩
  · cases reachedCol with
    | inr divides => exact Or.inr divides
    | inl same =>
        subst same
        cases reachedRow with
        | inr divides => exact Or.inl divides
        | inl start => exact Or.inl (start ▸ Nat.one_dvd numRows)
  · intro divides
    exact lastRow ((Nat.mul_dvd_mul_left 2 (Nat.pow_dvd_pow 2 above)).trans divides)

theorem halvingSteps_even {numRows numCols rounds k : Nat} {step : WaveStep}
    (member : step ∈ halvingSteps numRows numCols rounds (2 ^ k)) :
    step.Even numRows numCols := by
  induction rounds generalizing k with
  | zero => exact absurd member List.not_mem_nil
  | succ rounds ih =>
      rw [halvingSteps] at member
      split at member
      · cases k with
        | zero => exact absurd ‹1 < 2 ^ 0› (Nat.lt_irrefl 1)
        | succ k =>
            have half : 2 ^ (k + 1) >>> 1 = 2 ^ k := by
              rw [Nat.shiftRight_one, Nat.pow_succ, Nat.mul_div_cancel _ Nat.two_pos]
            rw [half, List.mem_append, List.mem_append] at member
            obtain (columns | rows) | later := member
            · split at columns
              · rw [List.mem_singleton.mp columns]
                exact .columns (Nat.two_pow_pos k) ((mask_iff numCols k).mp ‹_›)
              · exact absurd columns List.not_mem_nil
            · split at rows
              · rw [List.mem_singleton.mp rows]
                exact .rows (Nat.two_pow_pos k) ((mask_iff numRows k).mp ‹_›)
              · exact absurd rows List.not_mem_nil
            · exact ih later
      · exact absurd member List.not_mem_nil

/-- Every pass the transform performs divides its dimension. -/
theorem waveSteps_even {numRows numCols : Nat} (rows : 0 < numRows) (cols : 0 < numCols)
    {step : WaveStep} (member : step ∈ waveSteps numRows numCols) :
    step.Even numRows numCols := by
  obtain ⟨k, first, -⟩ := firstStep_spec rows cols
  rw [waveSteps, first] at member
  exact halvingSteps_even member

/-! ## The pairs of a step -/

theorem mem_firsts {step : WaveStep} {numRows numCols : Nat} (x : 0 < step.sx) (y : 0 < step.sy)
    {idx : Nat} : idx ∈ step.firsts numRows numCols ↔ ∃ row col, idx = row * numCols + col ∧
      row < numRows ∧ step.sy ∣ row ∧ col < numCols ∧ step.sx ∣ col := by
  rw [WaveStep.firsts, List.mem_flatMap]
  constructor
  · rintro ⟨row, atRow, inRow⟩
    obtain ⟨col, atCol, rfl⟩ := List.mem_map.mp inRow
    obtain ⟨rowBelow, rowMultiple⟩ := (mem_stepBy y).mp atRow
    obtain ⟨colBelow, colMultiple⟩ := (mem_stepBy x).mp atCol
    exact ⟨row, col, rfl, rowBelow, rowMultiple, colBelow, colMultiple⟩
  · rintro ⟨row, col, rfl, rowBelow, rowMultiple, colBelow, colMultiple⟩
    exact ⟨row, (mem_stepBy y).mpr ⟨rowBelow, rowMultiple⟩,
      List.mem_map_of_mem ((mem_stepBy x).mpr ⟨colBelow, colMultiple⟩)⟩

/-- A cell of the table is its row and its column. -/
theorem cell_eq {numCols row col row' col' : Nat} (inside : col < numCols)
    (inside' : col' < numCols) (same : row * numCols + col = row' * numCols + col') :
    row = row' ∧ col = col' := by
  have rows := congrArg (· / numCols) same
  have cols := congrArg (· % numCols) same
  simp only [Nat.mul_comm _ numCols, Nat.mul_add_div (Nat.zero_lt_of_lt inside),
    Nat.div_eq_of_lt inside, Nat.div_eq_of_lt inside', Nat.add_zero] at rows
  simp only [Nat.mul_comm _ numCols, Nat.mul_add_mod, Nat.mod_eq_of_lt inside,
    Nat.mod_eq_of_lt inside'] at cols
  exact ⟨rows, cols⟩

theorem cell_inside {numRows numCols row col : Nat} (rowInside : row < numRows)
    (colInside : col < numCols) : row * numCols + col < numRows * numCols := by
  calc row * numCols + col < row * numCols + numCols := Nat.add_lt_add_left colInside _
    _ = (row + 1) * numCols := (Nat.succ_mul row numCols).symm
    _ ≤ numRows * numCols := Nat.mul_le_mul_right numCols rowInside

namespace WaveStep.Even

variable {numRows numCols : Nat} {step : WaveStep}

theorem strides (even : step.Even numRows numCols) : 0 < step.sx ∧ 0 < step.sy := by
  cases even with
  | columns positive divides => exact ⟨Nat.mul_pos Nat.two_pos positive, positive⟩
  | rows positive divides => exact ⟨positive, Nat.mul_pos Nat.two_pos positive⟩

/-- Every pair of a pass lies inside the table. -/
theorem inside (even : step.Even numRows numCols) {idx : Nat}
    (member : idx ∈ step.firsts numRows numCols) : idx + step.dxy < numRows * numCols := by
  obtain ⟨x, y⟩ := even.strides
  obtain ⟨row, col, rfl, rowBelow, rowMultiple, colBelow, colMultiple⟩ := (mem_firsts x y).mp member
  cases even with
  | columns positive divides =>
      rename_i s
      have fits := stride_inside divides colMultiple colBelow
      have next : row * numCols + (col + s) < numRows * numCols :=
        cell_inside rowBelow (by omega)
      exact (Nat.add_assoc _ _ _).symm ▸ next
  | rows positive divides =>
      rename_i s
      have fits := stride_inside divides rowMultiple rowBelow
      have next : (row + s) * numCols + col < numRows * numCols :=
        cell_inside (by omega) colBelow
      rw [Nat.add_mul, Nat.add_right_comm] at next
      exact next

/-- No index is the second of one pair and the first of another. -/
theorem apart (even : step.Even numRows numCols) {idx idx' : Nat}
    (member : idx ∈ step.firsts numRows numCols) (member' : idx' ∈ step.firsts numRows numCols) :
    idx ≠ idx' + step.dxy := by
  obtain ⟨x, y⟩ := even.strides
  obtain ⟨row, col, rfl, rowBelow, rowMultiple, colBelow, colMultiple⟩ := (mem_firsts x y).mp member
  obtain ⟨row', col', rfl, rowBelow', rowMultiple', colBelow', colMultiple'⟩ :=
    (mem_firsts x y).mp member'
  intro same
  cases even with
  | columns positive divides =>
      rename_i s
      have fits := stride_inside divides colMultiple' colBelow'
      have cells := cell_eq colBelow (by omega) (same.trans (Nat.add_assoc _ _ s))
      have multiple : 2 * s ∣ s :=
        (Nat.dvd_add_iff_right colMultiple').mpr (cells.2 ▸ colMultiple)
      have le := Nat.le_of_dvd positive multiple
      omega
  | rows positive divides =>
      rename_i s
      have moved : row * numCols + col = (row' + s) * numCols + col' := by
        rw [Nat.add_mul, Nat.add_right_comm]
        exact same
      have cells := cell_eq colBelow colBelow' moved
      have multiple : 2 * s ∣ s :=
        (Nat.dvd_add_iff_right rowMultiple').mpr (cells.1 ▸ rowMultiple)
      have le := Nat.le_of_dvd positive multiple
      omega

theorem nodup (even : step.Even numRows numCols) : (step.firsts numRows numCols).Nodup := by
  obtain ⟨x, y⟩ := even.strides
  rw [firsts, List.nodup_flatMap]
  constructor
  · intro row _
    apply List.Nodup.map_on _ (nodup_stepBy x)
    intro col _ col' _ same
    exact Nat.add_left_cancel same
  · apply (nodup_stepBy y).imp
    intro row row' different idx inRow inRow'
    obtain ⟨col, atCol, rfl⟩ := List.mem_map.mp inRow
    obtain ⟨col', atCol', same⟩ := List.mem_map.mp inRow'
    exact different (cell_eq ((mem_stepBy x).mp atCol).1 ((mem_stepBy x).mp atCol').1 same.symm).1

end WaveStep.Even

/-! ## The transform as its steps -/

section Transform

variable {Value : Type} [Add Value] [Sub Value] [Mul Value] (sqrtHalf : Value)

theorem length_butterfly (dxy : Nat) (data : List Value) (idx1 : Nat) :
    (butterfly sqrtHalf dxy data idx1).length = data.length := by
  rw [butterfly]
  split
  · rw [List.length_set, List.length_set]
  · rfl

/-- A pass over a full table is a butterfly for each of its pairs. -/
theorem waveTransformStep_eq {data : List Value} {numRows numCols : Nat}
    (full : data.length = numRows * numCols) (cols : 0 < numCols) (step : WaveStep) :
    waveTransformStep sqrtHalf data step numCols =
      (step.firsts numRows numCols).foldl (butterfly sqrtHalf step.dxy) data := by
  rw [waveTransformStep, full, Nat.mul_div_cancel _ cols, WaveStep.firsts, List.foldl_flatMap]
  simp only [List.foldl_map]

theorem length_foldl_butterfly (dxy : Nat) (firsts : List Nat) (data : List Value) :
    (firsts.foldl (butterfly sqrtHalf dxy) data).length = data.length := by
  induction firsts generalizing data with
  | nil => rfl
  | cons idx1 firsts ih => rw [List.foldl_cons, ih, length_butterfly]

theorem length_waveTransformStep {data : List Value} {numRows numCols : Nat}
    (full : data.length = numRows * numCols) (cols : 0 < numCols) (step : WaveStep) :
    (waveTransformStep sqrtHalf data step numCols).length = numRows * numCols := by
  rw [waveTransformStep_eq sqrtHalf full cols, length_foldl_butterfly, full]

theorem halvingLoop_eq (numRows numCols rounds step : Nat) (data : List Value) :
    halvingLoop sqrtHalf numRows numCols rounds step data =
      (halvingSteps numRows numCols rounds step).foldl
        (fun data step => waveTransformStep sqrtHalf data step numCols) data := by
  induction rounds generalizing step data with
  | zero => rfl
  | succ rounds ih =>
      rw [halvingLoop, halvingSteps]
      split
      · rw [ih, List.foldl_append, List.foldl_append]
        split <;> split <;> rfl
      · rfl

/-- The transform performs its steps and nothing else. -/
theorem inverseWaveletTransform_eq (data : List Value) (numRows numCols : Nat) :
    inverseWaveletTransform sqrtHalf data numRows numCols =
      (waveSteps numRows numCols).foldl
        (fun data step => waveTransformStep sqrtHalf data step numCols) data :=
  halvingLoop_eq sqrtHalf numRows numCols _ _ data

example : waveSteps 6 4 =
    [alongColumns 2, alongColumns 1, alongRows 1 4] := by decide

theorem length_inverseWaveletTransform {data : List Value} {numRows numCols : Nat}
    (full : data.length = numRows * numCols) (cols : 0 < numCols) :
    (inverseWaveletTransform sqrtHalf data numRows numCols).length = numRows * numCols := by
  rw [inverseWaveletTransform_eq]
  induction waveSteps numRows numCols generalizing data with
  | nil => exact full
  | cons step steps ih => exact ih (length_waveTransformStep sqrtHalf full cols step)

end Transform

end Decompressor

end SdrAaronia
