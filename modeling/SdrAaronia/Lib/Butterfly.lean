import Mathlib.Algebra.BigOperators.Group.List.Basic
import Mathlib.Data.List.GetD
import Mathlib.Tactic.LinearCombination
import Mathlib.Tactic.Ring

/-! # Butterflies on disjoint pairs

A butterfly replaces two numbers by their sum and their difference, scaled by a
root of one half.  It undoes itself, and butterflies on disjoint pairs do not meet.
-/

namespace SdrAaronia.Butterfly

variable {Number : Type} [CommRing Number] {r : Number}

/-- Both indices of the pair are inside the data. -/
def Inside (size : Nat) (pair : Nat × Nat) : Prop := pair.1 < size ∧ pair.2 < size

/-- The two pairs share no index. -/
def Apart (pair pair' : Nat × Nat) : Prop :=
  pair.1 ≠ pair'.1 ∧ pair.1 ≠ pair'.2 ∧ pair.2 ≠ pair'.1 ∧ pair.2 ≠ pair'.2

def apply (r : Number) (data : List Number) (pair : Nat × Nat) : List Number :=
  (data.set pair.1 (r * (data.getD pair.1 0 + data.getD pair.2 0))).set pair.2
    (r * (data.getD pair.1 0 - data.getD pair.2 0))

def applyAll (r : Number) (data : List Number) (pairs : List (Nat × Nat)) : List Number :=
  pairs.foldl (apply r) data

def sumSquares (data : List Number) : Number := (data.map (· ^ 2)).sum

theorem length_apply (r : Number) (data : List Number) (pair : Nat × Nat) :
    (apply r data pair).length = data.length := by
  rw [apply, List.length_set, List.length_set]

theorem length_applyAll (r : Number) (data : List Number) (pairs : List (Nat × Nat)) :
    (applyAll r data pairs).length = data.length := by
  induction pairs generalizing data with
  | nil => rfl
  | cons pair pairs ih => exact (ih _).trans (length_apply r data pair)

/-! ## One butterfly -/

theorem getD_apply (r : Number) {data : List Number} {pair : Nat × Nat}
    (inside : Inside data.length pair) (i : Nat) :
    (apply r data pair).getD i 0 =
      if pair.2 = i then r * (data.getD pair.1 0 - data.getD pair.2 0)
      else if pair.1 = i then r * (data.getD pair.1 0 + data.getD pair.2 0)
      else data.getD i 0 := by
  rw [apply, List.getD_eq_getElem?_getD, List.getElem?_set, List.getElem?_set, List.length_set,
    if_pos inside.1, if_pos inside.2]
  split
  · rfl
  · split
    · rfl
    · exact (List.getD_eq_getElem?_getD).symm

theorem ext_getD {data data' : List Number} (length : data.length = data'.length)
    (same : ∀ i, data.getD i 0 = data'.getD i 0) : data = data' := by
  apply List.ext_getElem length
  intro i below below'
  have there := same i
  rw [List.getD_eq_getElem _ _ below, List.getD_eq_getElem _ _ below'] at there
  exact there

/-- A butterfly undoes itself. -/
theorem apply_apply (half : 2 * r ^ 2 = 1) {data : List Number} {pair : Nat × Nat}
    (inside : Inside data.length pair) (different : pair.1 ≠ pair.2) :
    apply r (apply r data pair) pair = data := by
  have inside' : Inside (apply r data pair).length pair := by
    rw [length_apply]
    exact inside
  apply ext_getD (by rw [length_apply, length_apply])
  intro i
  rw [getD_apply r inside', getD_apply r inside, getD_apply r inside, getD_apply r inside,
    if_pos rfl, if_pos rfl, if_neg different.symm]
  split
  · rename_i second
    subst second
    linear_combination data.getD pair.2 0 * half
  · split
    · rename_i first
      subst first
      linear_combination data.getD pair.1 0 * half
    · rfl

/-- Butterflies that share no index can be exchanged. -/
theorem apply_comm {data : List Number} {pair pair' : Nat × Nat}
    (inside : Inside data.length pair) (inside' : Inside data.length pair')
    (apart : Apart pair pair') :
    apply r (apply r data pair) pair' = apply r (apply r data pair') pair := by
  obtain ⟨first, cross, cross', second⟩ := apart
  apply ext_getD (by simp only [length_apply])
  intro i
  have afterPair : Inside (apply r data pair).length pair' := by
    rw [length_apply]
    exact inside'
  have afterPair' : Inside (apply r data pair').length pair := by
    rw [length_apply]
    exact inside
  rw [getD_apply r afterPair, getD_apply r afterPair']
  simp only [getD_apply r inside, getD_apply r inside', if_neg first, if_neg cross,
    if_neg cross', if_neg second, if_neg first.symm, if_neg cross.symm, if_neg cross'.symm,
    if_neg second.symm]
  grind

theorem sum_set {data : List Number} {i : Nat} (below : i < data.length) (value : Number) :
    (data.set i value).sum = data.sum + (value - data.getD i 0) := by
  rw [List.sum_set', dif_pos below, List.getD_eq_getElem _ _ below]
  ring

theorem sumSquares_set {data : List Number} {i : Nat} (below : i < data.length)
    (value : Number) :
    sumSquares (data.set i value) = sumSquares data + (value ^ 2 - data.getD i 0 ^ 2) := by
  rw [sumSquares, List.map_set, sum_set (by rw [List.length_map]; exact below), sumSquares]
  congr 2
  rw [List.getD_eq_getElem _ _ (by rw [List.length_map]; exact below), List.getElem_map,
    List.getD_eq_getElem _ _ below]

/-- A butterfly keeps the sum of the squares. -/
theorem sumSquares_apply (half : 2 * r ^ 2 = 1) {data : List Number} {pair : Nat × Nat}
    (inside : Inside data.length pair) (different : pair.1 ≠ pair.2) :
    sumSquares (apply r data pair) = sumSquares data := by
  have kept : (data.set pair.1 (r * (data.getD pair.1 0 + data.getD pair.2 0))).getD pair.2 0 =
      data.getD pair.2 0 := by
    rw [List.getD_eq_getElem?_getD, List.getElem?_set_ne different,
      ← List.getD_eq_getElem?_getD]
  rw [apply, sumSquares_set (by rw [List.length_set]; exact inside.2), sumSquares_set inside.1,
    kept]
  linear_combination (data.getD pair.1 0 ^ 2 + data.getD pair.2 0 ^ 2) * half

/-! ## Disjoint pairs -/

/-- The pairs lie inside, each has two indices, and no index is in two of them. -/
structure DisjointPairs (size : Nat) (pairs : List (Nat × Nat)) : Prop where
  inside : ∀ pair ∈ pairs, Inside size pair
  different : ∀ pair ∈ pairs, pair.1 ≠ pair.2
  apart : pairs.Pairwise Apart

theorem DisjointPairs.tail {size : Nat} {pair : Nat × Nat} {pairs : List (Nat × Nat)}
    (disjoint : DisjointPairs size (pair :: pairs)) : DisjointPairs size pairs where
  inside later member := disjoint.inside later (List.mem_cons_of_mem _ member)
  different later member := disjoint.different later (List.mem_cons_of_mem _ member)
  apart := disjoint.apart.of_cons

/-- A butterfly moves past butterflies that are apart from it. -/
theorem applyAll_apply {pair : Nat × Nat} {pairs : List (Nat × Nat)} {data : List Number}
    (disjoint : DisjointPairs data.length (pair :: pairs)) :
    applyAll r (apply r data pair) pairs = apply r (applyAll r data pairs) pair := by
  induction pairs generalizing data with
  | nil => rfl
  | cons next pairs ih =>
      have apart := List.pairwise_cons.mp disjoint.apart
      have rest : DisjointPairs (apply r data next).length (pair :: pairs) := by
        rw [length_apply]
        constructor
        · intro other member
          apply disjoint.inside
          grind
        · intro other member
          apply disjoint.different
          grind
        · exact List.pairwise_cons.mpr
            ⟨fun other member => apart.1 other (List.mem_cons_of_mem _ member),
              apart.2.of_cons⟩
      have swapped : apply r (apply r data pair) next = apply r (apply r data next) pair :=
        apply_comm (disjoint.inside pair List.mem_cons_self)
          (disjoint.inside next (List.mem_cons_of_mem _ List.mem_cons_self))
          (apart.1 next List.mem_cons_self)
      calc applyAll r (apply r data pair) (next :: pairs)
          = applyAll r (apply r (apply r data pair) next) pairs := rfl
        _ = applyAll r (apply r (apply r data next) pair) pairs := by rw [swapped]
        _ = apply r (applyAll r (apply r data next) pairs) pair := ih rest

theorem applyAll_applyAll (half : 2 * r ^ 2 = 1) {pairs : List (Nat × Nat)}
    {data : List Number} (disjoint : DisjointPairs data.length pairs) :
    applyAll r (applyAll r data pairs) pairs = data := by
  induction pairs generalizing data with
  | nil => rfl
  | cons pair pairs ih =>
      have back : DisjointPairs (applyAll r data pairs).length (pair :: pairs) := by
        rw [length_applyAll]
        exact disjoint
      have inside : Inside (applyAll r data pairs).length pair :=
        back.inside pair List.mem_cons_self
      calc applyAll r (applyAll r data (pair :: pairs)) (pair :: pairs)
          = applyAll r (apply r (applyAll r (apply r data pair) pairs) pair) pairs := rfl
        _ = applyAll r (apply r (apply r (applyAll r data pairs) pair) pair) pairs := by
            rw [applyAll_apply disjoint]
        _ = applyAll r (applyAll r data pairs) pairs := by
            rw [apply_apply half inside (disjoint.different pair List.mem_cons_self)]
        _ = data := ih disjoint.tail

theorem sumSquares_applyAll (half : 2 * r ^ 2 = 1) {pairs : List (Nat × Nat)}
    {data : List Number} (disjoint : DisjointPairs data.length pairs) :
    sumSquares (applyAll r data pairs) = sumSquares data := by
  induction pairs generalizing data with
  | nil => rfl
  | cons pair pairs ih =>
      have first : sumSquares (apply r data pair) = sumSquares data :=
        sumSquares_apply half (disjoint.inside pair List.mem_cons_self)
          (disjoint.different pair List.mem_cons_self)
      have rest : DisjointPairs (apply r data pair).length pairs := by
        rw [length_apply]
        exact disjoint.tail
      exact (ih rest).trans first

end SdrAaronia.Butterfly
