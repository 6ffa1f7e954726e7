import Mathlib.Data.List.Induction

/-! # Segments laid end to end

A list of segments, each as long as `size` says, read as one stream of symbols.
-/

namespace Segments

variable {α : Type} (size : α → Nat)

def total : List α → Nat
  | [] => 0
  | seg :: segs => size seg + total segs

/-- The segment starts at position `place` of the stream. -/
def Placed (segs : List α) (place : Nat) (seg : α) : Prop :=
  ∃ before after, segs = before ++ seg :: after ∧ total size before = place

/-- The segment starting at `place` has the symbol at `position`. -/
def Holds (segs : List α) (position place : Nat) (seg : α) : Prop :=
  Placed size segs place seg ∧ place ≤ position ∧ position < place + size seg

@[simp] theorem total_nil : total size ([] : List α) = 0 := rfl

@[simp] theorem total_cons (seg : α) (segs : List α) :
    total size (seg :: segs) = size seg + total size segs := rfl

@[simp] theorem total_append (left right : List α) :
    total size (left ++ right) = total size left + total size right := by
  induction left with
  | nil => rw [List.nil_append, total_nil, Nat.zero_add]
  | cons seg left ih => rw [List.cons_append, total_cons, total_cons, ih, Nat.add_assoc]

theorem total_flatMap {β : Type} (symbols : α → List β) (segs : List α) :
    total (fun seg => (symbols seg).length) segs = (segs.flatMap symbols).length := by
  induction segs with
  | nil => rfl
  | cons seg segs ih => rw [total_cons, List.flatMap_cons, List.length_append, ih]

variable {size}

theorem not_placed_nil {place : Nat} {seg : α} : ¬Placed size [] place seg := by
  rintro ⟨before, after, cut, -⟩
  exact absurd cut.symm (List.append_ne_nil_of_right_ne_nil before (List.cons_ne_nil seg after))

/-- A segment laid at the back starts where the others end. -/
theorem placed_snoc {segs : List α} {place : Nat} {last seg : α} :
    Placed size (segs ++ [last]) place seg ↔
      Placed size segs place seg ∨ seg = last ∧ place = total size segs := by
  constructor
  · rintro ⟨before, after, cut, start⟩
    rcases List.eq_nil_or_concat after with rfl | ⟨inner, back, rfl⟩
    · obtain ⟨rfl, same⟩ := List.append_inj' cut rfl
      exact .inr ⟨(List.singleton_inj.mp same).symm, start.symm⟩
    · rw [List.concat_eq_append, ← List.cons_append, ← List.append_assoc] at cut
      exact .inl ⟨before, inner, (List.append_inj' cut rfl).1, start⟩
  · rintro (⟨before, after, rfl, start⟩ | ⟨rfl, rfl⟩)
    · exact ⟨before, after ++ [last], by simp only [List.append_assoc, List.cons_append], start⟩
    · exact ⟨segs, [], rfl, rfl⟩

theorem Placed.within {segs : List α} {place : Nat} {seg : α}
    (placed : Placed size segs place seg) :
    place + size seg ≤ total size segs := by
  obtain ⟨before, after, rfl, rfl⟩ := placed
  rw [total_append, total_cons]
  omega

theorem Placed.mem {segs : List α} {place : Nat} {seg : α} (placed : Placed size segs place seg) :
    seg ∈ segs := by
  obtain ⟨before, after, rfl, -⟩ := placed
  exact List.mem_append_right _ List.mem_cons_self

theorem placed_append {segs more : List α} {place : Nat} {seg : α}
    (placed : Placed size (segs ++ more) place seg) :
    Placed size segs place seg ∨ seg ∈ more := by
  induction more using List.reverseRecOn with
  | nil => exact .inl (by rwa [List.append_nil] at placed)
  | append_singleton more last ih =>
      rw [← List.append_assoc, placed_snoc] at placed
      rcases placed with before | ⟨rfl, -⟩
      · exact (ih before).imp_right (List.mem_append_left _)
      · exact .inr (List.mem_append_right _ List.mem_cons_self)

theorem Placed.append {segs : List α} {place : Nat} {seg : α} (placed : Placed size segs place seg)
    (more : List α) : Placed size (segs ++ more) place seg := by
  obtain ⟨before, after, rfl, start⟩ := placed
  exact ⟨before, after ++ more, by simp only [List.append_assoc, List.cons_append], start⟩

theorem holds_snoc {segs : List α} {position place : Nat} {last seg : α} :
    Holds size (segs ++ [last]) position place seg ↔
      Holds size segs position place seg ∨
        seg = last ∧ place = total size segs ∧ place ≤ position ∧ position < place + size last := by
  simp only [Holds, placed_snoc]
  constructor
  · rintro ⟨earlier | ⟨rfl, start⟩, inside⟩
    · exact .inl ⟨earlier, inside⟩
    · exact .inr ⟨rfl, start, inside⟩
  · rintro (⟨earlier, inside⟩ | ⟨rfl, start, inside⟩)
    · exact ⟨.inl earlier, inside⟩
    · exact ⟨.inr ⟨rfl, start⟩, inside⟩

theorem Holds.within {segs : List α} {position place : Nat} {seg : α}
    (holds : Holds size segs position place seg) : position < total size segs :=
  Nat.lt_of_lt_of_le holds.2.2 holds.1.within

/-- Every position of the stream lies in a segment. -/
theorem exists_holds {segs : List α} {position : Nat} (inside : position < total size segs) :
    ∃ place seg, Holds size segs position place seg := by
  induction segs using List.reverseRecOn with
  | nil => exact absurd inside (Nat.not_lt_zero _)
  | append_singleton segs last ih =>
      by_cases before : position < total size segs
      · obtain ⟨place, seg, holds⟩ := ih before
        exact ⟨place, seg, holds_snoc.mpr (.inl holds)⟩
      · rw [total_append, total_cons, total_nil] at inside
        exact ⟨total size segs, last,
          holds_snoc.mpr (.inr ⟨rfl, rfl, Nat.not_lt.mp before, by omega⟩)⟩

/-- A segment that starts inside the front of the stream is one of the front. -/
theorem Placed.front {segs more : List α} {place : Nat} {seg : α}
    (placed : Placed size (segs ++ more) place seg) (inside : place < total size segs) :
    Placed size segs place seg := by
  obtain ⟨before, after, cut, start⟩ := placed
  rcases List.append_eq_append_iff.mp cut with ⟨rest, longer, -⟩ | ⟨rest, shorter, back⟩
  · rw [longer, total_append] at start
    omega
  · cases rest with
    | nil =>
        rw [shorter, List.append_nil] at inside
        omega
    | cons first rest =>
        obtain ⟨rfl, -⟩ := List.cons.inj back
        exact ⟨before, rest, shorter, start⟩

/-- Of two positions the earlier lies in the same segment or in one ahead. -/
theorem Holds.order {segs : List α} {position position' place place' : Nat} {seg seg' : α}
    (earlier : Holds size segs position place seg) (later : Holds size segs position' place' seg')
    (ordered : position ≤ position') :
    place = place' ∧ seg = seg' ∨ ∃ before middle after,
      segs = before ++ seg :: (middle ++ seg' :: after) ∧ total size before = place ∧
        place' = place + size seg + total size middle := by
  obtain ⟨⟨before, after, cut, start⟩, lower, upper⟩ := earlier
  obtain ⟨⟨before', after', cut', start'⟩, lower', upper'⟩ := later
  rcases List.append_eq_append_iff.mp (cut.symm.trans cut') with ⟨rest, longer, back⟩ |
    ⟨rest, shorter, back⟩
  · cases rest with
    | nil =>
        rw [List.append_nil] at longer
        obtain ⟨rfl, -⟩ := List.cons.inj back
        exact .inl ⟨by rw [← start, ← start', longer], rfl⟩
    | cons first middle =>
        obtain ⟨rfl, rest⟩ := List.cons.inj back
        refine .inr ⟨before, middle, after', ?_, start, ?_⟩
        · rw [cut, rest]
          rfl
        · rw [← start', longer, total_append, total_cons, start]
          omega
  · cases rest with
    | nil =>
        rw [List.append_nil] at shorter
        obtain ⟨rfl, -⟩ := List.cons.inj back
        exact .inl ⟨by rw [← start, ← start', shorter], rfl⟩
    | cons first middle =>
        obtain ⟨rfl, -⟩ := List.cons.inj back
        rw [shorter, total_append, total_cons] at start
        omega

section Map

variable {γ : Type} {f : γ → α}

theorem total_map (segs : List γ) : total size (segs.map f) = total (size ∘ f) segs := by
  induction segs with
  | nil => rfl
  | cons seg segs ih => rw [List.map_cons, total_cons, total_cons, ih, Function.comp_apply]

theorem placed_map {segs : List γ} {place : Nat} {seg : α} :
    Placed size (segs.map f) place seg ↔
      ∃ seg', Placed (size ∘ f) segs place seg' ∧ f seg' = seg := by
  constructor
  · rintro ⟨before, after, cut, start⟩
    obtain ⟨before', rest, rfl, rfl, back⟩ := List.map_eq_append_iff.mp cut
    obtain ⟨seg', after', rfl, rfl, rfl⟩ := List.map_eq_cons_iff.mp back
    exact ⟨seg', ⟨before', after', rfl, (total_map before').symm.trans start⟩, rfl⟩
  · rintro ⟨seg', ⟨before, after, rfl, start⟩, rfl⟩
    exact ⟨before.map f, after.map f, by rw [List.map_append, List.map_cons],
      (total_map before).trans start⟩

theorem holds_map {segs : List γ} {position place : Nat} {seg : α} :
    Holds size (segs.map f) position place seg ↔
      ∃ seg', Holds (size ∘ f) segs position place seg' ∧ f seg' = seg := by
  simp only [Holds, placed_map]
  constructor
  · rintro ⟨⟨seg', placed, rfl⟩, inside⟩
    exact ⟨seg', ⟨placed, inside⟩, rfl⟩
  · rintro ⟨seg', ⟨placed, inside⟩, rfl⟩
    exact ⟨⟨seg', placed, rfl⟩, inside⟩

end Map

theorem Placed.getElem? {β : Type} (symbols : α → List β) {segs : List α} {place : Nat} {seg : α}
    (placed : Placed (fun seg => (symbols seg).length) segs place seg) {i : Nat}
    (inside : i < (symbols seg).length) :
    (segs.flatMap symbols)[place + i]? = (symbols seg)[i]? := by
  obtain ⟨before, after, rfl, rfl⟩ := placed
  rw [total_flatMap, List.flatMap_append, List.flatMap_cons,
    List.getElem?_append_right (Nat.le_add_right _ _), Nat.add_sub_cancel_left,
    List.getElem?_append_left inside]

end Segments
