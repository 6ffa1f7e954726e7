import Mathlib.Data.List.Basic
import Mathlib.Data.List.Range
import Mathlib.Data.Nat.Find
import Mathlib.Data.List.Find

/-! # Searching a list for a window

The first or last place where the next few symbols match.  A search block by block,
whose blocks overlap by all but one symbol of a window, finds what a search of the
whole list finds.
-/

namespace SdrAaronia.Search

variable {Symbol : Type} (width : Nat) (isMatch : List Symbol → Bool)

def windowAt (symbols : List Symbol) (place : Nat) : List Symbol := (symbols.drop place).take width

/-- The places that have a whole window. -/
def places (symbols : List Symbol) : List Nat := List.range (symbols.length + 1 - width)

def first (symbols : List Symbol) : Option Nat :=
  (places width symbols).find? fun place => isMatch (windowAt width symbols place)

def last (symbols : List Symbol) : Option Nat :=
  (places width symbols).reverse.find? fun place => isMatch (windowAt width symbols place)

/-- Blocks from `start` on, as long as they start in front of `stop`. -/
def blocks (block stop : Nat) (symbols : List Symbol) (start : Nat) : Option Nat :=
  if start < stop then
    match first width isMatch (windowAt block symbols start) with
    | some place => some (start + place)
    | none =>
        if width ≤ (windowAt block symbols start).length then
          blocks block stop symbols (start + ((windowAt block symbols start).length + 1 - width))
        else none
  else none
termination_by stop - start
decreasing_by omega

/-- A match of the list, and where it stands among the others. -/
structure MatchAt (symbols : List Symbol) (place : Nat) : Prop where
  inside : place + width ≤ symbols.length
  matched : isMatch (windowAt width symbols place) = true

variable {width isMatch} {symbols : List Symbol} {place : Nat}

theorem mem_places : place ∈ places width symbols ↔ place + width ≤ symbols.length := by
  rw [places, List.mem_range]
  omega

theorem first_some_iff :
    first width isMatch symbols = some place ↔
      MatchAt width isMatch symbols place ∧
        ∀ earlier < place, isMatch (windowAt width symbols earlier) = false := by
  rw [first, places, List.find?_range_eq_some]
  constructor
  · rintro ⟨matched, member, none⟩
    have inside : place + width ≤ symbols.length := mem_places.mp member
    exact ⟨⟨inside, matched⟩, fun earlier before => by simpa using none earlier before⟩
  · rintro ⟨⟨inside, matched⟩, none⟩
    refine ⟨matched, mem_places.mpr inside, fun earlier before => ?_⟩
    simp [none earlier before]

theorem first_none_iff :
    first width isMatch symbols = none ↔ ∀ place, ¬MatchAt width isMatch symbols place := by
  rw [first, List.find?_eq_none]
  constructor
  · intro none place found
    exact none place (mem_places.mpr found.inside) found.matched
  · intro none place member matched
    exact none place ⟨mem_places.mp member, matched⟩

theorem first_short (short : symbols.length < width) : first width isMatch symbols = none := by
  rw [first_none_iff]
  intro place found
  have inside := found.inside
  omega

theorem find?_reverse_range {p : Nat → Bool} {count place : Nat} :
    (List.range count).reverse.find? p = some place ↔
      place < count ∧ p place = true ∧
        ∀ later, place < later → later < count → p later = false := by
  induction count with
  | zero => simp
  | succ count ih =>
      rw [List.range_succ, List.reverse_append, List.reverse_singleton, List.singleton_append]
      cases here : p count with
      | true =>
          rw [List.find?_cons_of_pos here, Option.some.injEq]
          constructor
          · rintro rfl
            exact ⟨Nat.lt_succ_self _, here, fun later after within => by omega⟩
          · rintro ⟨within, matched, none⟩
            by_contra other
            have missed := none count (by omega) (by omega)
            rw [here] at missed
            cases missed
      | false =>
          rw [List.find?_cons_of_neg (by rw [here]; exact Bool.false_ne_true), ih]
          constructor
          · rintro ⟨within, matched, none⟩
            refine ⟨by omega, matched, fun later after below => ?_⟩
            by_cases same : later = count
            · rw [same, here]
            · exact none later after (by omega)
          · rintro ⟨within, matched, none⟩
            have other : place ≠ count := by
              rintro rfl
              rw [here] at matched
              cases matched
            exact ⟨by omega, matched, fun later after below => none later after (by omega)⟩

theorem last_some_iff :
    last width isMatch symbols = some place ↔
      MatchAt width isMatch symbols place ∧
        ∀ later, place < later → ¬MatchAt width isMatch symbols later := by
  rw [last, places, find?_reverse_range]
  constructor
  · rintro ⟨within, matched, none⟩
    refine ⟨⟨by omega, matched⟩, fun later after found => ?_⟩
    have inside := found.inside
    have missed := none later after (by omega)
    rw [found.matched] at missed
    cases missed
  · rintro ⟨found, none⟩
    have inside := found.inside
    refine ⟨by omega, found.matched, fun later after within => ?_⟩
    exact Bool.eq_false_iff.mpr fun matched => none later after ⟨by omega, matched⟩

/-- The windows that start in front of the last ones of a block come first. -/
theorem first_split (positive : 0 < width) {count : Nat} (inside : count ≤ symbols.length) :
    first width isMatch symbols =
      (first width isMatch (symbols.take count)).or
        ((first width isMatch (symbols.drop (count + 1 - width))).map (count + 1 - width + ·)) := by
  have length : (symbols.take count).length = count := List.length_take_of_le inside
  have rest : (symbols.drop (count + 1 - width)).length + 1 - width =
      symbols.length + 1 - width - (count + 1 - width) := by
    rw [List.length_drop]
    omega
  have split : places width symbols = places width (symbols.take count) ++
      (places width (symbols.drop (count + 1 - width))).map (count + 1 - width + ·) := by
    rw [places, places, places, length, rest, ← List.range_add]
    congr 1
    omega
  rw [first, split, List.find?_append, List.find?_map]
  congr 1
  · apply List.find?_congr
    intro place member
    have fits := mem_places.mp member
    rw [length] at fits
    rw [windowAt, windowAt, List.drop_take, List.take_take, Nat.min_eq_left (by omega)]
  · rw [first]
    congr 1
    apply List.find?_congr
    intro place _
    simp only [Function.comp_apply, windowAt, List.drop_drop]

/-- Symbols behind the list that no match has in it. -/
theorem first_padded (positive : 0 < width) {padding : Symbol}
    (foreign : ∀ window, isMatch window = true → padding ∉ window) (count : Nat) :
    first width isMatch (symbols ++ List.replicate count padding) =
      first width isMatch symbols := by
  have none : first width isMatch ((symbols ++ List.replicate count padding).drop
      (symbols.length + 1 - width)) = none := by
    rw [first_none_iff]
    intro place found
    have inside := found.inside
    apply foreign _ found.matched
    rw [List.length_drop, List.length_append, List.length_replicate] at inside
    rw [windowAt, List.drop_drop, List.drop_append, List.take_append, List.drop_replicate,
      List.take_replicate, List.length_drop, List.mem_append, List.mem_replicate]
    exact Or.inr ⟨by omega, rfl⟩
  have within : symbols.length ≤ (symbols ++ List.replicate count padding).length := by
    rw [List.length_append]
    exact Nat.le_add_right _ _
  rw [first_split positive within, List.take_left, none, Option.map_none, Option.or_none]

/-- What blocks of a stride reach, when the last starts in front of a distance. -/
def reach (stride distance : Nat) : Nat := (distance + (stride - 1)) / stride * stride

theorem reach_step {stride distance : Nat} (positive : 0 < stride) (further : 0 < distance) :
    reach stride distance = stride + reach stride (distance - stride) := by
  rw [reach, reach]
  by_cases near : distance ≤ stride
  · have one : (distance + (stride - 1)) / stride = 1 :=
      Nat.div_eq_of_lt_le (by omega) (by omega)
    have zero : (distance - stride + (stride - 1)) / stride = 0 :=
      Nat.div_eq_of_lt (by omega)
    rw [one, zero]
    omega
  · have shift : distance + (stride - 1) = distance - stride + (stride - 1) + stride := by omega
    rw [shift, Nat.add_div_right _ positive, Nat.succ_mul]
    omega

/-! ## Blocks -/

theorem windowAt_length (count : Nat) (symbols : List Symbol) (start : Nat) :
    (windowAt count symbols start).length = min count (symbols.length - start) := by
  rw [windowAt, List.length_take, List.length_drop]

theorem windowAt_take {count block : Nat} (within : block ≤ count) (symbols : List Symbol)
    (start : Nat) : (windowAt count symbols start).take block = windowAt block symbols start := by
  rw [windowAt, windowAt, List.take_take, Nat.min_eq_left within]

theorem windowAt_drop (count passed : Nat) (symbols : List Symbol) (start : Nat) :
    (windowAt count symbols start).drop passed =
      windowAt (count - passed) symbols (start + passed) := by
  rw [windowAt, windowAt, List.drop_take, List.drop_drop]

/-- Windows that get to the end of the list. -/
theorem windowAt_end {count : Nat} {start : Nat} (ends : symbols.length - start ≤ count) :
    windowAt count symbols start = symbols.drop start := by
  rw [windowAt, List.take_of_length_le]
  rw [List.length_drop]
  exact ends

/-- The blocks find what one search finds of all the windows that they start. -/
theorem blocks_eq (positive : 0 < width) {block : Nat} (large : width ≤ block) (stop : Nat)
    (symbols : List Symbol) (start : Nat) :
    blocks width isMatch block stop symbols start =
      (first width isMatch (windowAt (reach (block + 1 - width) (stop - start) + (width - 1))
        symbols start)).map (start + ·) := by
  induction left : stop - start using Nat.strong_induction_on generalizing start with
  | _ distance ih =>
      have length := windowAt_length block symbols start
      rw [blocks]
      split
      · rename_i more
        have step := @reach_step (block + 1 - width) distance (by omega) (by omega)
        by_cases whole : block ≤ symbols.length - start
        · have split := @first_split _ width isMatch
            (windowAt (reach (block + 1 - width) distance + (width - 1)) symbols start) positive
            block (by rw [windowAt_length]; omega)
          have rest : reach (block + 1 - width) distance + (width - 1) - (block + 1 - width) =
              reach (block + 1 - width) (distance - (block + 1 - width)) + (width - 1) := by
            omega
          rw [windowAt_take (by omega), windowAt_drop, rest] at split
          rw [split, length, Nat.min_eq_left whole, if_pos large,
            ih (distance - (block + 1 - width)) (by omega) _ (by omega)]
          cases first width isMatch (windowAt block symbols start) with
          | some place => rfl
          | none =>
              have shift : (start + ·) ∘ (block + 1 - width + ·) =
                  (start + (block + 1 - width) + ·) :=
                funext fun place => (Nat.add_assoc _ _ _).symm
              rw [Option.none_or, Option.map_map, shift]
        · have same : windowAt (reach (block + 1 - width) distance + (width - 1)) symbols start =
              windowAt block symbols start := by
            rw [windowAt_end (by omega), windowAt_end (by omega)]
          rw [same]
          cases first width isMatch (windowAt block symbols start) with
          | some place => rfl
          | none =>
              simp only [Option.map_none]
              split
              · rw [ih _ _ _ rfl, first_short, Option.map_none]
                · rw [windowAt_length]
                  omega
                · omega
              · rfl
      · rename_i past
        have none : first width isMatch
            (windowAt (reach (block + 1 - width) distance + (width - 1)) symbols start) = none := by
          have still : reach (block + 1 - width) 0 = 0 := by
            rw [reach, Nat.div_eq_of_lt (by omega), Nat.zero_mul]
          have done : distance = 0 := by omega
          apply first_short
          rw [windowAt_length, done, still]
          omega
        rw [none, Option.map_none]

end SdrAaronia.Search
