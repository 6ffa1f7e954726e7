import Mathlib.Data.List.Basic

/-! # Machines that may refuse an event

A run is a list of events, each accepted in the state that it meets.  What every accepted
event keeps holds after a run, and a quantity that some events spend bounds their number.
-/

namespace Machine

variable {State Event : Type} (step : State → Event → Option State)

def run (state : State) : List Event → Option State
  | [] => some state
  | event :: events => (step state event).bind fun next => run next events

variable {step}

theorem run_cons {state after : State} {event : Event} {events : List Event}
    (ran : run step state (event :: events) = some after) :
    ∃ next, step state event = some next ∧ run step next events = some after :=
  Option.bind_eq_some_iff.mp ran

/-- What every accepted event keeps holds after a run. -/
theorem run_keeps {Inv : State → Prop}
    (keeps : ∀ state event next, Inv state → step state event = some next → Inv next)
    {state after : State} {events : List Event} (holds : Inv state)
    (ran : run step state events = some after) : Inv after := by
  induction events generalizing state with
  | nil =>
      cases ran
      exact holds
  | cons event events ih =>
      obtain ⟨next, stepped, rest⟩ := run_cons ran
      exact ih (keeps state event next holds stepped) rest

theorem run_keeps_only {Inv : State → Prop} {allowed : Event → Prop}
    (keeps : ∀ state event next, allowed event → Inv state → step state event = some next →
      Inv next)
    {state after : State} {events : List Event} (only : ∀ event ∈ events, allowed event)
    (holds : Inv state) (ran : run step state events = some after) : Inv after := by
  induction events generalizing state with
  | nil =>
      cases ran
      exact holds
  | cons event events ih =>
      obtain ⟨next, stepped, rest⟩ := run_cons ran
      have here := keeps state event next (only event List.mem_cons_self) holds stepped
      exact ih (fun other inside => only other (List.mem_cons_of_mem _ inside)) here rest

/-- Events that spend a quantity which no other event of the run adds to. -/
theorem run_spends {Inv : State → Prop} {spends allowed : Event → Bool} {left : State → Nat}
    (keeps : ∀ state event next, Inv state → step state event = some next → Inv next)
    (counts : ∀ state event next, Inv state → allowed event = true →
      step state event = some next →
        left next + (if spends event then 1 else 0) ≤ left state)
    {state after : State} {events : List Event} (holds : Inv state)
    (only : ∀ event ∈ events, allowed event = true)
    (ran : run step state events = some after) :
    left after + (events.filter spends).length ≤ left state := by
  induction events generalizing state with
  | nil =>
      cases ran
      exact Nat.le_refl _
  | cons event events ih =>
      obtain ⟨next, stepped, rest⟩ := run_cons ran
      have here := counts state event next holds (only event List.mem_cons_self) stepped
      have later := ih (keeps state event next holds stepped)
        (fun other inside => only other (List.mem_cons_of_mem _ inside)) rest
      rw [List.filter_cons]
      split
      · rename_i spending
        rw [if_pos spending] at here
        rw [List.length_cons]
        omega
      · omega

end Machine
