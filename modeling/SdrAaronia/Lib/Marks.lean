import Mathlib.Data.List.Basic
import Mathlib.Data.List.TakeWhile

/-! # Marks on a queue

A mark sits ahead of a position of a queue that grows at its back and shrinks at
its front.  Marks are kept in the order of their offsets; taking symbols off the
front rebases them, and marks whose symbols are gone gather at the front.
-/

namespace Marks

variable {α β : Type}

def Sorted (marks : List (Nat × α)) : Prop := marks.Pairwise fun a b => a.1 ≤ b.1

/-- No mark lies behind position `n`. -/
def Within (n : Nat) (marks : List (Nat × α)) : Prop := ∀ mark ∈ marks, mark.1 ≤ n

/-- The marks once `n` symbols have left the front. -/
def rebase (n : Nat) (marks : List (Nat × α)) : List (Nat × α) :=
  marks.map fun mark => (mark.1 - n, mark.2)

/-- What the marks below `n` last said. -/
def latest (f : α → Option β) (n : Nat) : List (Nat × α) → Option β
  | [] => none
  | mark :: marks => (latest f n marks).or (if mark.1 < n then f mark.2 else none)

@[simp] theorem rebase_nil (n : Nat) : rebase n ([] : List (Nat × α)) = [] := rfl

@[simp] theorem rebase_cons (n : Nat) (mark : Nat × α) (marks : List (Nat × α)) :
    rebase n (mark :: marks) = (mark.1 - n, mark.2) :: rebase n marks := rfl

@[simp] theorem map_snd_rebase (n : Nat) (marks : List (Nat × α)) :
    (rebase n marks).map Prod.snd = marks.map Prod.snd :=
  List.map_map

theorem mem_rebase {n : Nat} {mark : Nat × α} {marks : List (Nat × α)} :
    mark ∈ rebase n marks ↔ ∃ o, (o, mark.2) ∈ marks ∧ mark.1 = o - n := by
  obtain ⟨place, cause⟩ := mark
  simp only [rebase, List.mem_map, Prod.mk.injEq]
  constructor
  · rintro ⟨⟨o, c⟩, member, rfl, rfl⟩
    exact ⟨o, member, rfl⟩
  · rintro ⟨o, member, rfl⟩
    exact ⟨(o, cause), member, rfl, rfl⟩

/-- A mark that stays behind the front keeps its symbol. -/
theorem mem_rebase_pos {n o : Nat} {cause : α} {marks : List (Nat × α)} (positive : 0 < o) :
    (o, cause) ∈ rebase n marks ↔ (o + n, cause) ∈ marks := by
  rw [mem_rebase]
  constructor
  · rintro ⟨o', member, place⟩
    have same : o' = o + n := by
      dsimp only at place
      omega
    exact same ▸ member
  · intro member
    exact ⟨o + n, member, by dsimp only; omega⟩

theorem sorted_rebase {n : Nat} {marks : List (Nat × α)} (sorted : Sorted marks) :
    Sorted (rebase n marks) := by
  rw [Sorted, rebase, List.pairwise_map]
  apply List.Pairwise.imp _ sorted
  intro a b ordered
  exact Nat.sub_le_sub_right ordered n

theorem within_rebase {n total : Nat} {marks : List (Nat × α)} (within : Within total marks) :
    Within (total - n) (rebase n marks) := by
  intro mark member
  obtain ⟨o, inside, place⟩ := mem_rebase.mp member
  have bound := within _ inside
  dsimp only at bound
  omega

theorem Within.mono {n m : Nat} {marks : List (Nat × α)} (within : Within n marks) (grows : n ≤ m) :
    Within m marks :=
  fun mark member => (within mark member).trans grows

/-- The first mark comes first. -/
theorem Sorted.beyond {n o : Nat} {cause : α} {marks : List (Nat × α)}
    (sorted : Sorted ((o, cause) :: marks)) (later : n ≤ o) :
    ∀ mark ∈ (o, cause) :: marks, n ≤ mark.1 := by
  intro mark member
  rcases List.mem_cons.mp member with rfl | inside
  · exact later
  · exact later.trans ((List.pairwise_cons.mp sorted).1 mark inside)

/-- A mark at the back keeps the order. -/
theorem sorted_snoc {n : Nat} {marks : List (Nat × α)} {cause : α} (sorted : Sorted marks)
    (within : Within n marks) : Sorted (marks ++ [(n, cause)]) := by
  rw [Sorted, List.pairwise_append]
  refine ⟨sorted, List.pairwise_singleton _ _, ?_⟩
  intro a before b last
  rw [List.mem_singleton] at last
  exact last ▸ within a before

theorem within_snoc {n : Nat} {marks : List (Nat × α)} {cause : α} (within : Within n marks) :
    Within n (marks ++ [(n, cause)]) := by
  intro mark member
  rcases List.mem_append.mp member with before | last
  · exact within mark before
  · rw [List.mem_singleton] at last
    exact le_of_eq (congrArg Prod.fst last)

/-! ## What was last said -/

variable (f : α → Option β)

theorem latest_append (n : Nat) (left right : List (Nat × α)) :
    latest f n (left ++ right) = (latest f n right).or (latest f n left) := by
  induction left with
  | nil => simp [latest]
  | cons mark marks ih =>
      rw [List.cons_append, latest, latest, ih, Option.or_assoc]

theorem latest_rebase {n : Nat} (positive : 0 < n) (d : Nat) (marks : List (Nat × α)) :
    latest f n (rebase d marks) = latest f (n + d) marks := by
  induction marks with
  | nil => rfl
  | cons mark marks ih =>
      have place : mark.1 - d < n ↔ mark.1 < n + d := by omega
      simp only [rebase_cons, latest, ih, place]

theorem latest_eq_none {n : Nat} {marks : List (Nat × α)} (silent : latest f n marks = none) :
    ∀ mark ∈ marks, mark.1 < n → f mark.2 = none := by
  induction marks with
  | nil => exact fun _ member => absurd member List.not_mem_nil
  | cons first marks ih =>
      obtain ⟨later, here⟩ := Option.or_eq_none_iff.mp silent
      intro mark member below
      rcases List.mem_cons.mp member with rfl | inside
      · rwa [if_pos below] at here
      · exact ih later mark inside below

/-- Marks from `n` on say nothing yet. -/
theorem latest_beyond {n : Nat} {marks : List (Nat × α)} (beyond : ∀ mark ∈ marks, n ≤ mark.1) :
    latest f n marks = none := by
  induction marks with
  | nil => rfl
  | cons mark marks ih =>
      have here := beyond mark List.mem_cons_self
      rw [latest, ih fun m member => beyond m (List.mem_cons_of_mem _ member),
        if_neg (by omega), Option.or_none]

/-- Behind every mark nothing changes any more. -/
theorem latest_stable {n m : Nat} {marks : List (Nat × α)} (below : ∀ mark ∈ marks, mark.1 < n)
    (behind : n ≤ m) : latest f m marks = latest f n marks := by
  induction marks with
  | nil => rfl
  | cons mark marks ih =>
      have here := below mark List.mem_cons_self
      rw [latest, latest, ih fun m member => below m (List.mem_cons_of_mem _ member),
        if_pos (by omega), if_pos here]

theorem latest_isSome {n : Nat} {marks : List (Nat × α)} (below : ∀ mark ∈ marks, mark.1 < n) :
    (latest f n marks).isSome = marks.any fun mark => (f mark.2).isSome := by
  induction marks with
  | nil => rfl
  | cons mark marks ih =>
      rw [latest, Option.isSome_or, ih fun m member => below m (List.mem_cons_of_mem _ member),
        if_pos (below mark List.mem_cons_self), List.any_cons, Bool.or_comm]

/-- What was last said, where, and that nothing below `n` was said after it. -/
theorem latest_eq_some {n : Nat} {marks : List (Nat × α)} {b : β}
    (said : latest f n marks = some b) :
    ∃ before mark after, marks = before ++ mark :: after ∧ mark.1 < n ∧ f mark.2 = some b ∧
      ∀ m ∈ after, m.1 < n → f m.2 = none := by
  induction marks with
  | nil => cases said
  | cons first marks ih =>
      rw [latest] at said
      cases later : latest f n marks with
      | some c =>
          rw [later, Option.some_or] at said
          obtain ⟨before, mark, after, split, parts⟩ := ih (later.trans said)
          exact ⟨first :: before, mark, after, congrArg (first :: ·) split, parts⟩
      | none =>
          rw [later, Option.none_or] at said
          split at said
          · rename_i below
            refine ⟨[], first, marks, rfl, below, said, ?_⟩
            intro m member inside
            exact latest_eq_none f later m member inside
          · cases said

/-- Marks that say nothing can go. -/
theorem latest_filter (n : Nat) (p : Nat × α → Bool) {marks : List (Nat × α)}
    (silent : ∀ mark ∈ marks, p mark = false → f mark.2 = none) :
    latest f n (marks.filter p) = latest f n marks := by
  induction marks with
  | nil => rfl
  | cons mark marks ih =>
      have later := ih fun m member => silent m (List.mem_cons_of_mem _ member)
      cases kept : p mark with
      | true =>
          rw [List.filter_cons_of_pos kept, latest, latest, later]
      | false =>
          have quiet := silent mark List.mem_cons_self kept
          rw [List.filter_cons_of_neg (by simp [kept]), latest, later, quiet, ite_self,
            Option.or_none]

/-! ## The marks at the front's position -/

/-- Once sorted, the marks sharing the first one's place come first. -/
theorem later_beyond {o : Nat} {cause : α} {marks : List (Nat × α)}
    (sorted : Sorted ((o, cause) :: marks)) :
    ∀ mark ∈ marks.dropWhile (fun m => m.1 == o), o < mark.1 := by
  induction marks with
  | nil => simp
  | cons first marks ih =>
      have parts := List.pairwise_cons.mp sorted
      have ahead : o ≤ first.1 := parts.1 first List.mem_cons_self
      have inner := List.pairwise_cons.mp parts.2
      by_cases here : first.1 = o
      · simp only [List.dropWhile_cons, here, BEq.rfl, if_true]
        exact ih (List.pairwise_cons.mpr
          ⟨fun mark member => parts.1 mark (List.mem_cons_of_mem _ member), inner.2⟩)
      · have strict : o < first.1 := by omega
        simp only [List.dropWhile_cons, beq_iff_eq, here, if_false]
        intro mark member
        rcases List.mem_cons.mp member with rfl | behind
        · exact strict
        · exact lt_of_lt_of_le strict (inner.1 mark behind)

theorem mem_takeWhile_place {o : Nat} {mark : Nat × α} {marks : List (Nat × α)}
    (member : mark ∈ marks.takeWhile fun m => m.1 == o) : mark.1 = o := by
  have here := List.mem_takeWhile_imp member
  exact beq_iff_eq.mp here

theorem sorted_dropWhile {p : Nat × α → Bool} {marks : List (Nat × α)} (sorted : Sorted marks) :
    Sorted (marks.dropWhile p) :=
  List.Pairwise.sublist (List.dropWhile_sublist p) sorted

end Marks
