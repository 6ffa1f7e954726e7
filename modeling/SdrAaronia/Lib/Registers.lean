import Mathlib.Order.Defs.LinearOrder
import Mathlib.Order.Lattice
import Mathlib.Data.List.Induction

/-! # Registers with several writers

Two registers several parties write in any order: a latch one side sets and
another takes, and a register that keeps the offer with the largest key.
-/

namespace Registers

section Latch

variable {Event : Type} (sets takes : Event → Bool)

/-- Set by some events and taken by others; the rest leave it alone. -/
def latchStep (held : Bool) (event : Event) : Bool :=
  if sets event then true else if takes event then false else held

/-- The latch after some events, clear before them. -/
def latch (events : List Event) : Bool := events.foldl (latchStep sets takes) false

theorem latch_snoc (events : List Event) (event : Event) :
    latch sets takes (events ++ [event]) =
      latchStep sets takes (latch sets takes events) event := by
  simp only [latch, List.foldl_append, List.foldl_cons, List.foldl_nil]

/-- The latch is held exactly when it was set and not taken since. -/
theorem latch_iff (events : List Event) :
    latch sets takes events = true ↔
      ∃ before event after, events = before ++ event :: after ∧ sets event = true ∧
        ∀ later ∈ after, takes later = false := by
  induction events using List.reverseRecOn with
  | nil =>
      constructor
      · intro held
        cases held
      · rintro ⟨before, event, after, split, -, -⟩
        cases before <;> cases split
  | append_singleton events last ih =>
      simp only [latch_snoc, latchStep]
      constructor
      · intro held
        cases set : sets last with
        | true =>
            exact ⟨events, last, [], rfl, set, fun _ member => absurd member List.not_mem_nil⟩
        | false =>
            cases taken : takes last with
            | true => simp only [set, taken, if_true, Bool.false_eq_true, if_false] at held
            | false =>
                simp only [set, taken, Bool.false_eq_true, if_false] at held
                obtain ⟨before, event, after, rfl, isSet, kept⟩ := ih.mp held
                refine ⟨before, event, after ++ [last], ?_, isSet, ?_⟩
                · rw [List.append_assoc, List.cons_append]
                · intro later member
                  cases List.mem_append.mp member with
                  | inl earlier => exact kept later earlier
                  | inr same => exact List.mem_singleton.mp same ▸ taken
      · rintro ⟨before, event, after, split, isSet, kept⟩
        cases after using List.reverseRecOn with
        | nil =>
            obtain ⟨-, same⟩ := List.append_inj' split rfl
            cases same
            rw [if_pos isSet]
        | append_singleton after final =>
            rw [← List.cons_append, ← List.append_assoc] at split
            obtain ⟨same, ending⟩ := List.append_inj' split rfl
            cases ending
            have untaken : takes last = false :=
              kept last (List.mem_append_right after (List.mem_singleton.mpr rfl))
            have held : latch sets takes events = true :=
              ih.mpr ⟨before, event, after, same, isSet,
                fun later member => kept later (List.mem_append_left _ member)⟩
            rw [untaken, held]
            exact ite_self true

end Latch

section Obeys

variable {Event : Type} (allowed : List Event → Event → Prop)

/-- Every event is allowed by the ones before it. -/
def Obeys (events : List Event) : Prop :=
  ∀ before event after, events = before ++ event :: after → allowed before event

variable {allowed}

theorem obeys_nil : Obeys allowed [] := by
  intro before event after split
  cases before <;> cases split

theorem Obeys.snoc {events : List Event} {event : Event} (obeys : Obeys allowed events)
    (fits : allowed events event) : Obeys allowed (events ++ [event]) := by
  intro before other after split
  cases after using List.reverseRecOn with
  | nil =>
      obtain ⟨same, ending⟩ := List.append_inj' split rfl
      cases ending
      exact same ▸ fits
  | append_singleton after final =>
      rw [← List.cons_append, ← List.append_assoc] at split
      obtain ⟨same, -⟩ := List.append_inj' split rfl
      exact obeys before other after same

theorem Obeys.left {events later : List Event} (obeys : Obeys allowed (events ++ later)) :
    Obeys allowed events := by
  intro before event after split
  refine obeys before event (after ++ later) ?_
  rw [split, List.append_assoc, List.cons_append]

theorem Obeys.last {events : List Event} {event : Event}
    (obeys : Obeys allowed (events ++ [event])) : allowed events event :=
  obeys events event [] rfl

end Obeys

section Largest

variable {Key Value : Type} [LinearOrder Key]

/-- Keep the offer with the larger key, the later one of two equals. -/
def keepLargest : Option (Key × Value) → Key × Value → Option (Key × Value)
  | none, offer => some offer
  | some held, offer => if held.1 ≤ offer.1 then some offer else some held

/-- The register after some offers, empty before them. -/
def largest (offers : List (Key × Value)) : Option (Key × Value) :=
  offers.foldl keepLargest none

theorem largest_snoc (offers : List (Key × Value)) (offer : Key × Value) :
    largest (offers ++ [offer]) = keepLargest (largest offers) offer := by
  simp only [largest, List.foldl_append, List.foldl_cons, List.foldl_nil]

theorem largest_none {offers : List (Key × Value)} : largest offers = none ↔ offers = [] := by
  cases offers using List.reverseRecOn with
  | nil => exact ⟨fun _ => rfl, fun _ => rfl⟩
  | append_singleton offers offer =>
      rw [largest_snoc]
      cases largest offers with
      | none => simp [keepLargest]
      | some held =>
          simp only [keepLargest]
          split <;> simp

/-- What is held was offered, and no offer had a larger key. -/
theorem largest_some {offers : List (Key × Value)} {held : Key × Value}
    (holds : largest offers = some held) :
    held ∈ offers ∧ ∀ offer ∈ offers, offer.1 ≤ held.1 := by
  induction offers using List.reverseRecOn generalizing held with
  | nil => cases holds
  | append_singleton offers last ih =>
      rw [largest_snoc] at holds
      cases earlier : largest offers with
      | none =>
          rw [earlier] at holds
          cases largest_none.mp earlier
          cases holds
          exact ⟨List.mem_singleton.mpr rfl, fun offer member =>
            (List.mem_singleton.mp member) ▸ le_refl _⟩
      | some previous =>
          obtain ⟨member, bound⟩ := ih earlier
          rw [earlier] at holds
          simp only [keepLargest] at holds
          by_cases newer : previous.1 ≤ last.1
          · rw [if_pos newer] at holds
            cases holds
            refine ⟨List.mem_append_right _ (List.mem_singleton.mpr rfl), ?_⟩
            intro offer offered
            cases List.mem_append.mp offered with
            | inl old => exact le_trans (bound offer old) newer
            | inr same => exact (List.mem_singleton.mp same) ▸ le_refl _
          · rw [if_neg newer] at holds
            cases holds
            refine ⟨List.mem_append_left _ member, ?_⟩
            intro offer offered
            cases List.mem_append.mp offered with
            | inl old => exact bound offer old
            | inr same => exact (List.mem_singleton.mp same) ▸ le_of_not_ge newer

end Largest

end Registers
