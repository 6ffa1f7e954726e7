import Mathlib.Algebra.Field.ZMod
import Mathlib.Data.Set.Function
import SdrAaronia.Decompression.Wavelet
import SdrAaronia.Lib.Butterfly

/-! # The transform is orthogonal

Over exact numbers every pass is a set of butterflies on disjoint pairs.  The passes
undo themselves, so the transform is undone by its passes in reverse order.
-/

namespace SdrAaronia.Decompressor

open Butterfly

/-- The pairs of indices that a pass acts on. -/
def WaveStep.pairs (step : WaveStep) (numRows numCols : Nat) : List (Nat × Nat) :=
  (step.firsts numRows numCols).map fun idx1 => (idx1, idx1 + step.dxy)

/-- The data of a table. -/
def tables (Number : Type) (numRows numCols : Nat) : Set (List Number) :=
  {data | data.length = numRows * numCols}

theorem WaveStep.Even.disjoint {numRows numCols : Nat} {step : WaveStep}
    (even : step.Even numRows numCols) :
    DisjointPairs (numRows * numCols) (step.pairs numRows numCols) := by
  constructor
  · intro pair member
    obtain ⟨idx, first, rfl⟩ := List.mem_map.mp member
    have second := even.inside first
    exact ⟨Nat.lt_of_le_of_lt (Nat.le_add_right idx step.dxy) second, second⟩
  · intro pair member
    obtain ⟨idx, first, rfl⟩ := List.mem_map.mp member
    exact even.apart first first
  · apply List.Pairwise.map _ _ (even.nodup.imp_of_mem fun first first' different =>
      (⟨first, first', different⟩ : _ ∧ _ ∧ _))
    intro idx idx' ⟨first, first', different⟩
    exact ⟨different, even.apart first first', (even.apart first' first).symm,
      fun same => different (Nat.add_right_cancel same)⟩

section Exact

variable {Number : Type} [CommRing Number] {r : Number}

/-- Inside the data the source's butterfly is the general one. -/
theorem butterfly_eq_apply {dxy : Nat} {data : List Number} {idx1 : Nat}
    (inside : idx1 + dxy < data.length) :
    butterfly r dxy data idx1 = apply r data (idx1, idx1 + dxy) := by
  have first : idx1 < data.length := by omega
  rw [butterfly, dif_pos inside, apply, List.getD_eq_getElem _ _ first,
    List.getD_eq_getElem _ _ inside]

theorem foldl_butterfly_eq_applyAll {dxy : Nat} {firsts : List Nat} {data : List Number}
    (inside : ∀ idx ∈ firsts, idx + dxy < data.length) :
    firsts.foldl (butterfly r dxy) data =
      applyAll r data (firsts.map fun idx1 => (idx1, idx1 + dxy)) := by
  induction firsts generalizing data with
  | nil => rfl
  | cons idx firsts ih =>
      have first := butterfly_eq_apply (r := r) (inside idx List.mem_cons_self)
      have rest : ∀ later ∈ firsts, later + dxy < (butterfly r dxy data idx).length := by
        intro later member
        rw [length_butterfly]
        exact inside later (List.mem_cons_of_mem _ member)
      rw [List.foldl_cons, ih rest, first, List.map_cons]
      rfl

variable {numRows numCols : Nat}

theorem waveTransformStep_pairs {step : WaveStep} (even : step.Even numRows numCols)
    (cols : 0 < numCols) {data : List Number} (full : data ∈ tables Number numRows numCols) :
    waveTransformStep r data step numCols = applyAll r data (step.pairs numRows numCols) := by
  have inside : ∀ idx ∈ step.firsts numRows numCols, idx + step.dxy < data.length := by
    intro idx member
    exact full.symm ▸ even.inside member
  rw [waveTransformStep_eq r full cols, foldl_butterfly_eq_applyAll inside, WaveStep.pairs]

/-- A pass is its own inverse. -/
theorem waveTransformStep_twice (half : 2 * r ^ 2 = 1) {step : WaveStep}
    (even : step.Even numRows numCols) (cols : 0 < numCols) {data : List Number}
    (full : data ∈ tables Number numRows numCols) :
    waveTransformStep r (waveTransformStep r data step numCols) step numCols = data := by
  have full' := length_waveTransformStep r full cols step
  rw [waveTransformStep_pairs even cols full', waveTransformStep_pairs even cols full]
  exact applyAll_applyAll half (full.symm ▸ even.disjoint)

theorem sumSquares_waveTransformStep (half : 2 * r ^ 2 = 1) {step : WaveStep}
    (even : step.Even numRows numCols) (cols : 0 < numCols) {data : List Number}
    (full : data ∈ tables Number numRows numCols) :
    sumSquares (waveTransformStep r data step numCols) = sumSquares data := by
  rw [waveTransformStep_pairs even cols full]
  exact sumSquares_applyAll half (full.symm ▸ even.disjoint)

/-! ## Runs of passes -/

/-- The passes, one after the other. -/
def performSteps (r : Number) (numCols : Nat) (steps : List WaveStep) (data : List Number) :
    List Number :=
  steps.foldl (fun data step => waveTransformStep r data step numCols) data

theorem performSteps_mem (steps : List WaveStep) (cols : 0 < numCols) {data : List Number}
    (full : data ∈ tables Number numRows numCols) :
    performSteps r numCols steps data ∈ tables Number numRows numCols := by
  induction steps generalizing data with
  | nil => exact full
  | cons step steps ih => exact ih (length_waveTransformStep r full cols step)

/-- The same passes in reverse order undo a run. -/
theorem performSteps_reverse (half : 2 * r ^ 2 = 1) {steps : List WaveStep}
    (even : ∀ step ∈ steps, step.Even numRows numCols) (cols : 0 < numCols)
    {data : List Number} (full : data ∈ tables Number numRows numCols) :
    performSteps r numCols steps.reverse (performSteps r numCols steps data) = data := by
  induction steps generalizing data with
  | nil => rfl
  | cons step steps ih =>
      have first := even step List.mem_cons_self
      have full' : waveTransformStep r data step numCols ∈ tables Number numRows numCols :=
        length_waveTransformStep r full cols step
      have rest := ih (fun later member => even later (List.mem_cons_of_mem _ member)) full'
      have last : performSteps r numCols (step :: steps).reverse =
          fun data => waveTransformStep r (performSteps r numCols steps.reverse data) step
            numCols := by
        funext data
        rw [performSteps, List.reverse_cons, List.foldl_append]
        rfl
      calc performSteps r numCols (step :: steps).reverse
            (performSteps r numCols (step :: steps) data)
          = waveTransformStep r (performSteps r numCols steps.reverse
              (performSteps r numCols steps (waveTransformStep r data step numCols))) step
              numCols := congrFun last _
        _ = waveTransformStep r (waveTransformStep r data step numCols) step numCols := by
            rw [rest]
        _ = data := waveTransformStep_twice half first cols full

theorem sumSquares_performSteps (half : 2 * r ^ 2 = 1) {steps : List WaveStep}
    (even : ∀ step ∈ steps, step.Even numRows numCols) (cols : 0 < numCols)
    {data : List Number} (full : data ∈ tables Number numRows numCols) :
    sumSquares (performSteps r numCols steps data) = sumSquares data := by
  induction steps generalizing data with
  | nil => rfl
  | cons step steps ih =>
      have first := sumSquares_waveTransformStep half (even step List.mem_cons_self) cols full
      have rest := ih (fun later member => even later (List.mem_cons_of_mem _ member))
        (length_waveTransformStep r full cols step)
      exact rest.trans first

end Exact

/-- Every pass of the transform acts on disjoint pairs, undoes itself and keeps the sum of
the squares; the transform is a bijection that its passes in reverse order undo, and it
keeps the sum of the squares. -/
theorem inverseWaveletTransform_orthogonal {Number : Type} [Field Number] {r : Number}
    (half : 2 * r ^ 2 = 1) {numRows numCols : Nat} (rows : 1 ≤ numRows) (cols : 1 ≤ numCols) :
    (∀ step ∈ waveSteps numRows numCols, ∀ data ∈ tables Number numRows numCols,
      DisjointPairs (numRows * numCols) (step.pairs numRows numCols) ∧
      waveTransformStep r data step numCols = applyAll r data (step.pairs numRows numCols) ∧
      waveTransformStep r (waveTransformStep r data step numCols) step numCols = data ∧
      sumSquares (waveTransformStep r data step numCols) = sumSquares data) ∧
    (∀ data, inverseWaveletTransform r data numRows numCols =
      performSteps r numCols (waveSteps numRows numCols) data) ∧
    Set.BijOn (inverseWaveletTransform r · numRows numCols) (tables Number numRows numCols)
      (tables Number numRows numCols) ∧
    Set.InvOn (performSteps r numCols (waveSteps numRows numCols).reverse)
      (inverseWaveletTransform r · numRows numCols) (tables Number numRows numCols)
      (tables Number numRows numCols) ∧
    ∀ data ∈ tables Number numRows numCols,
      sumSquares (inverseWaveletTransform r data numRows numCols) = sumSquares data := by
  have even : ∀ step ∈ waveSteps numRows numCols, step.Even numRows numCols :=
    fun step member => waveSteps_even rows cols member
  have performed : ∀ data, inverseWaveletTransform r data numRows numCols =
      performSteps r numCols (waveSteps numRows numCols) data :=
    fun data => inverseWaveletTransform_eq r data numRows numCols
  have undone : Set.InvOn (performSteps r numCols (waveSteps numRows numCols).reverse)
      (inverseWaveletTransform r · numRows numCols) (tables Number numRows numCols)
      (tables Number numRows numCols) := by
    constructor
    · intro data full
      simp only [performed]
      exact performSteps_reverse half even cols full
    · intro data full
      have back := performSteps_reverse half
        (fun step member => even step (List.mem_reverse.mp member)) cols full
      rw [List.reverse_reverse] at back
      simp only [performed]
      exact back
  refine ⟨?_, performed, ?_, undone, ?_⟩
  · intro step member data full
    exact ⟨(even step member).disjoint, waveTransformStep_pairs (even step member) cols full,
      waveTransformStep_twice half (even step member) cols full,
      sumSquares_waveTransformStep half (even step member) cols full⟩
  · apply undone.bijOn
    · intro data full
      simp only [performed]
      exact performSteps_mem _ cols full
    · intro data full
      exact performSteps_mem _ cols full
  · intro data full
    rw [performed]
    exact sumSquares_performSteps half even cols full

instance sevenPrime : Fact (Nat.Prime 7) := ⟨by decide⟩

/-- A table of twelve rows and six columns of numbers modulo seven, with two for the root of
one half. -/
theorem inverseWaveletTransform_orthogonal_modSeven :
    Set.BijOn (inverseWaveletTransform (2 : ZMod 7) · 12 6) (tables (ZMod 7) 12 6)
      (tables (ZMod 7) 12 6) := by
  have half : 2 * (2 : ZMod 7) ^ 2 = 1 := by decide
  exact (inverseWaveletTransform_orthogonal half (by decide) (by decide)).2.2.1

end SdrAaronia.Decompressor
