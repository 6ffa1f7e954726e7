import Mathlib.Data.List.Basic
import Mathlib.Order.Lattice
import Mathlib.Order.Nat
import Mathlib.Tactic.Common

/-! # A queue whose calls stop at the first bad item

Items arrive in batches, one batch a call.  A call works through the queue up to
the first bad item: without one everything is delivered, with one the items in
front of it are thrown away and those behind it stay queued.  `InTime` says of
the arrivals alone when every good item is delivered all the same.
-/

namespace Backlog

variable {α : Type} (bad : α → Bool)

/-- What the calls deliver. -/
def delivered (queue : List α) : List (List α) → List α
  | [] => []
  | batch :: batches =>
      match (queue ++ batch).dropWhile (!bad ·) with
      | [] => queue ++ batch ++ delivered [] batches
      | _ :: later => delivered later batches

def good (items : List α) : List α := items.filter (!bad ·)

/-- Items under the number of the call they arrive with. -/
def stamp (call : Nat) (items : List α) : List (Nat × α) := items.map (call, ·)

def stamped : Nat → List (List α) → List (Nat × α)
  | _, [] => []
  | call, batch :: batches => stamp call batch ++ stamped (call + 1) batches

/-- The call the next bad item arrives with, or the number of calls if none does. -/
def deadline (calls : Nat) (arrivals : List (Nat × α)) : Nat :=
  (arrivals.find? (bad ·.2)).elim calls Prod.fst

/-- A bad item is passed in the call it arrives with, or in the one after the bad item in
front was passed, whichever is later; `free` is the call after that.  Every good item is
to be reached before the next bad item arrives and before the calls end. -/
def InTime (calls free : Nat) : List (Nat × α) → Prop
  | [] => True
  | (call, item) :: rest =>
      if bad item then InTime calls (max call free + 1) rest
      else max call free < deadline bad calls rest ∧ InTime calls free rest

/-- No `urgent` item arrives while a bad item in front of it is still to be passed. -/
def Prompt (urgent : α → Prop) (free : Nat) : List (Nat × α) → Prop
  | [] => True
  | (call, item) :: rest =>
      (urgent item → free ≤ call) ∧
        Prompt urgent (if bad item then max call free + 1 else free) rest

instance decidableInTime (calls free : Nat) (arrivals : List (Nat × α)) :
    Decidable (InTime bad calls free arrivals) :=
  match arrivals with
  | [] => .isTrue trivial
  | (call, item) :: rest =>
      have := decidableInTime calls (max call free + 1) rest
      have := decidableInTime calls free rest
      inferInstanceAs (Decidable (if bad item then InTime bad calls (max call free + 1) rest
        else max call free < deadline bad calls rest ∧ InTime bad calls free rest))

variable {bad}

theorem stamp_append (call : Nat) (left right : List α) :
    stamp call (left ++ right) = stamp call left ++ stamp call right :=
  List.map_append

theorem le_stamped {first : Nat} {batches : List (List α)} {arrival : Nat × α}
    (member : arrival ∈ stamped first batches) : first ≤ arrival.1 := by
  induction batches generalizing first with
  | nil => cases member
  | cons batch batches ih =>
      cases List.mem_append.mp member with
      | inl here =>
          obtain ⟨item, -, rfl⟩ := List.mem_map.mp here
          exact le_refl first
      | inr later => exact Nat.le_of_succ_le (ih later)

/-! ## Deadlines -/

theorem deadline_append_good {items : List (Nat × α)}
    (clean : ∀ arrival ∈ items, bad arrival.2 = false) (calls : Nat) (rest : List (Nat × α)) :
    deadline bad calls (items ++ rest) = deadline bad calls rest := by
  have nothing : items.find? (bad ·.2) = none :=
    List.find?_eq_none.mpr fun arrival member => by simp [clean arrival member]
  simp only [deadline, List.find?_append, nothing, Option.none_or]

theorem deadline_stamp_good {items : List α} (clean : ∀ item ∈ items, bad item = false)
    (call calls : Nat) (rest : List (Nat × α)) :
    deadline bad calls (stamp call items ++ rest) = deadline bad calls rest := by
  apply deadline_append_good
  intro arrival member
  obtain ⟨item, inside, rfl⟩ := List.mem_map.mp member
  exact clean item inside

theorem deadline_cons_bad {arrival : Nat × α} (isBad : bad arrival.2 = true) (calls : Nat)
    (rest : List (Nat × α)) : deadline bad calls (arrival :: rest) = arrival.1 := by
  simp only [deadline, List.find?_cons, isBad, Option.elim]

theorem lt_deadline {call calls : Nat} {arrivals : List (Nat × α)} (early : call < calls)
    (late : ∀ arrival ∈ arrivals, call < arrival.1) : call < deadline bad calls arrivals := by
  unfold deadline
  cases found : arrivals.find? (bad ·.2) with
  | none => exact early
  | some arrival => exact late arrival (List.mem_of_find?_eq_some found)

/-! ## The clock -/

/-- An arrival counts from the moment everything in front of it can be passed. -/
theorem inTime_raise {floor free : Nat} (reached : floor ≤ free) (calls : Nat)
    (arrivals : List (Nat × α)) :
    InTime bad calls free (arrivals.map fun arrival => (max arrival.1 floor, arrival.2)) ↔
      InTime bad calls free arrivals := by
  induction arrivals generalizing free with
  | nil => exact Iff.rfl
  | cons arrival rest ih =>
      obtain ⟨call, item⟩ := arrival
      have same : max (max call floor) free = max call free := by omega
      simp only [List.map_cons, InTime, same]
      cases isBad : bad item with
      | true => exact ih (Nat.le_succ_of_le (le_trans reached (le_max_right call free)))
      | false =>
          have due : max call free <
              deadline bad calls (rest.map fun arrival => (max arrival.1 floor, arrival.2)) ↔
                max call free < deadline bad calls rest := by
            unfold deadline
            rw [List.find?_map]
            change max call free < ((rest.find? (bad ·.2)).map _).elim calls Prod.fst ↔ _
            cases rest.find? (bad ·.2) with
            | none => exact Iff.rfl
            | some next =>
                simp only [Option.map_some, Option.elim]
                omega
          exact and_congr due (ih reached)

/-- Nothing of the clock shows as long as the arrivals are later still. -/
theorem inTime_clock {free free' : Nat} (ahead : free ≤ free') (calls : Nat)
    {arrivals : List (Nat × α)} (late : ∀ arrival ∈ arrivals, free' ≤ arrival.1) :
    InTime bad calls free arrivals ↔ InTime bad calls free' arrivals := by
  induction arrivals with
  | nil => exact Iff.rfl
  | cons arrival rest ih =>
      obtain ⟨call, item⟩ := arrival
      have here : free' ≤ call := late (call, item) List.mem_cons_self
      have rest' := ih fun arrival member => late arrival (List.mem_cons_of_mem _ member)
      have left : max call free = call := max_eq_left (le_trans ahead here)
      have right : max call free' = call := max_eq_left here
      simp only [InTime, left, right, rest']

/-- Stamps below the clock are all alike. -/
theorem inTime_restamp (calls call : Nat) (items : List α) (rest : List (Nat × α))
    (late : ∀ arrival ∈ rest, call + 1 ≤ arrival.1) :
    InTime bad calls (call + 1) (stamp (call + 1) items ++ rest) ↔
      InTime bad calls (call + 1) (stamp call items ++ rest) := by
  have raised : (stamp call items ++ rest).map
      (fun arrival => (max arrival.1 (call + 1), arrival.2)) =
        stamp (call + 1) items ++ rest := by
    rw [List.map_append, stamp, stamp, List.map_map]
    congr 1
    · apply List.map_congr_left
      intro item _
      exact congrArg (·, item) (max_eq_right (Nat.le_succ call))
    · conv_rhs => rw [← List.map_id rest]
      apply List.map_congr_left
      intro arrival member
      exact congrArg (·, arrival.2) (max_eq_left (late arrival member))
  rw [← raised]
  exact inTime_raise (le_refl (call + 1)) calls _

theorem inTime_stamp_good {items : List α} (clean : ∀ item ∈ items, bad item = false)
    {call calls : Nat} {rest : List (Nat × α)} (early : call < deadline bad calls rest) :
    InTime bad calls call (stamp call items ++ rest) ↔ InTime bad calls call rest := by
  induction items with
  | nil => exact Iff.rfl
  | cons item items ih =>
      have later : ∀ item ∈ items, bad item = false :=
        fun item member => clean item (List.mem_cons_of_mem _ member)
      have isGood := clean item List.mem_cons_self
      change InTime bad calls call ((call, item) :: (stamp call items ++ rest)) ↔ _
      simp only [InTime, isGood, Bool.false_eq_true, if_false, max_self, ih later,
        deadline_stamp_good later, early, true_and]

/-- A good item in front of a bad one of the same call is lost. -/
theorem inTime_stamp_bad {front later : List α} {stop : α}
    (clean : ∀ item ∈ front, bad item = false) (isBad : bad stop = true) (calls call : Nat)
    (rest : List (Nat × α)) :
    InTime bad calls call (stamp call (front ++ stop :: later) ++ rest) ↔
      front = [] ∧ InTime bad calls (call + 1) (stamp call later ++ rest) := by
  cases front with
  | nil =>
      change InTime bad calls call ((call, stop) :: (stamp call later ++ rest)) ↔ _
      simp only [InTime, isBad, if_true, max_self, true_and]
  | cons item front =>
      have behind : ∀ item ∈ front, bad item = false :=
        fun item member => clean item (List.mem_cons_of_mem _ member)
      have isGood := clean item List.mem_cons_self
      have due : deadline bad calls (stamp call (front ++ stop :: later) ++ rest) = call := by
        rw [stamp_append, List.append_assoc, deadline_stamp_good behind]
        exact deadline_cons_bad isBad calls _
      change InTime bad calls call
        ((call, item) :: (stamp call (front ++ stop :: later) ++ rest)) ↔ _
      simp only [InTime, isGood, Bool.false_eq_true, if_false, max_self, due, Nat.lt_irrefl,
        false_and, reduceCtorEq]

/-- What is queued when the calls end is lost. -/
theorem inTime_stuck {calls free : Nat} (ended : calls ≤ free) (items : List α) :
    InTime bad calls free (stamp calls items) ↔ good bad items = [] := by
  induction items generalizing free with
  | nil => exact ⟨fun _ => rfl, fun _ => trivial⟩
  | cons item items ih =>
      change InTime bad calls free ((calls, item) :: stamp calls items) ↔ _
      cases isBad : bad item with
      | true =>
          simp only [InTime, isBad, if_true, good, List.filter_cons, Bool.not_true,
            Bool.false_eq_true, if_false]
          exact ih (Nat.le_succ_of_le (le_trans ended (le_max_right calls free)))
      | false =>
          have due : deadline bad calls (stamp calls items) = calls := by
            unfold deadline
            cases found : (stamp calls items).find? (bad ·.2) with
            | none => rfl
            | some arrival =>
                obtain ⟨_, -, rfl⟩ := List.mem_map.mp (List.mem_of_find?_eq_some found)
                rfl
          have never : ¬max calls free < calls := by omega
          simp only [InTime, isBad, Bool.false_eq_true, if_false, due, never, false_and, good,
            List.filter_cons, Bool.not_false, if_true, reduceCtorEq]

/-! ## Delivery -/

theorem split_line (line : List α) :
    (line.dropWhile (!bad ·) = [] ∧ ∀ item ∈ line, bad item = false) ∨
      ∃ front stop later, line = front ++ stop :: later ∧
        (∀ item ∈ front, bad item = false) ∧ bad stop = true ∧
        line.dropWhile (!bad ·) = stop :: later := by
  induction line with
  | nil => exact .inl ⟨rfl, fun _ member => absurd member List.not_mem_nil⟩
  | cons item line ih =>
      cases isBad : bad item with
      | true =>
          refine .inr ⟨[], item, line, rfl, fun _ member => absurd member List.not_mem_nil, isBad,
            ?_⟩
          simp only [List.dropWhile_cons, isBad, Bool.not_true, Bool.false_eq_true, if_false]
      | false =>
          simp only [List.dropWhile_cons, isBad, Bool.not_false, if_true]
          rcases ih with ⟨clear, clean⟩ | ⟨front, stop, later, rfl, clean, isStop, dropped⟩
          · refine .inl ⟨clear, ?_⟩
            intro other member
            cases member with
            | head => exact isBad
            | tail _ inside => exact clean other inside
          · refine .inr ⟨item :: front, stop, later, rfl, ?_, isStop, dropped⟩
            intro other member
            cases member with
            | head => exact isBad
            | tail _ inside => exact clean other inside

/-- A call that meets no bad item delivers its whole queue. -/
theorem delivered_clean {queue batch : List α} (clear : (queue ++ batch).dropWhile (!bad ·) = [])
    (batches : List (List α)) :
    delivered bad queue (batch :: batches) = queue ++ batch ++ delivered bad [] batches := by
  rw [delivered, clear]

theorem delivered_stop {queue batch later : List α} {stop : α}
    (dropped : (queue ++ batch).dropWhile (!bad ·) = stop :: later) (batches : List (List α)) :
    delivered bad queue (batch :: batches) = delivered bad later batches := by
  rw [delivered, dropped]

theorem good_of_clean {items : List α} (clean : ∀ item ∈ items, bad item = false) :
    good bad items = items :=
  List.filter_eq_self.mpr fun item member => by simp [clean item member]

theorem good_append (left right : List α) :
    good bad (left ++ right) = good bad left ++ good bad right :=
  List.filter_append left right

theorem good_stop {front later : List α} {stop : α} (clean : ∀ item ∈ front, bad item = false)
    (isBad : bad stop = true) : good bad (front ++ stop :: later) = front ++ good bad later := by
  rw [good_append, good_of_clean clean, good, List.filter_cons, isBad]
  rfl

/-- The calls deliver no more than the good items. -/
theorem delivered_length (queue : List α) (batches : List (List α)) :
    (delivered bad queue batches).length ≤ (good bad (queue ++ batches.flatten)).length := by
  induction batches generalizing queue with
  | nil => exact Nat.zero_le _
  | cons batch batches ih =>
      rw [List.flatten_cons, ← List.append_assoc]
      rcases split_line (queue ++ batch) with
        ⟨clear, clean⟩ | ⟨front, stop, later, same, clean, isBad, dropped⟩
      · have rest := ih []
        rw [delivered_clean clear, good_append, good_of_clean clean]
        simp only [List.length_append, List.nil_append] at rest ⊢
        omega
      · have rest := ih later
        rw [delivered_stop dropped, same, good_append, good_stop clean isBad, List.append_assoc,
          ← good_append]
        simp only [List.length_append] at rest ⊢
        omega

theorem mem_delivered {queue : List α} {batches : List (List α)} {item : α}
    (member : item ∈ delivered bad queue batches) : bad item = false := by
  induction batches generalizing queue with
  | nil => cases member
  | cons batch batches ih =>
      rcases split_line (queue ++ batch) with
        ⟨clear, clean⟩ | ⟨front, stop, later, -, -, -, dropped⟩
      · rw [delivered_clean clear] at member
        cases List.mem_append.mp member with
        | inl here => exact clean item here
        | inr there => exact ih there
      · rw [delivered_stop dropped] at member
        exact ih member

/-- **Every good item is delivered exactly when each is in time.** -/
theorem delivered_iff {first calls : Nat} {batches : List (List α)}
    (ends : calls = first + batches.length) (queue : List α) :
    delivered bad queue batches = good bad (queue ++ batches.flatten) ↔
      InTime bad calls first (stamp first queue ++ stamped first batches) := by
  induction batches generalizing first queue with
  | nil =>
      rw [List.length_nil, Nat.add_zero] at ends
      cases ends
      rw [List.flatten_nil, List.append_nil, stamped, List.append_nil,
        inTime_stuck (le_refl calls)]
      exact eq_comm
  | cons batch batches ih =>
      rw [List.length_cons] at ends
      have later : ∀ arrival ∈ stamped (first + 1) batches, first + 1 ≤ arrival.1 :=
        fun arrival member => le_stamped member
      have ends' : calls = first + 1 + batches.length := by omega
      rw [stamped, ← List.append_assoc, ← stamp_append, List.flatten_cons, ← List.append_assoc]
      rcases split_line (queue ++ batch) with
        ⟨clear, clean⟩ | ⟨front, stop, behind, same, clean, isBad, dropped⟩
      · have early : first < deadline bad calls (stamped (first + 1) batches) :=
          lt_deadline (by omega) later
        rw [delivered_clean clear, good_append, good_of_clean clean, List.append_cancel_left_eq,
          inTime_stamp_good clean early, inTime_clock (Nat.le_succ first) calls later]
        exact ih ends' []
      · rw [delivered_stop dropped, same, inTime_stamp_bad clean isBad,
          ← inTime_restamp calls first behind _ later, ← ih ends' behind, good_append,
            good_stop clean isBad, List.append_assoc, ← good_append]
        constructor
        · intro whole
          have most : (delivered bad behind batches).length ≤ _ := delivered_length behind batches
          have size := congrArg List.length whole
          rw [List.length_append] at size
          have none' : front = [] := List.eq_nil_of_length_eq_zero (by omega)
          rw [none', List.nil_append] at whole
          exact ⟨none', whole⟩
        · rintro ⟨rfl, whole⟩
          exact whole

/-! ## Urgent items -/

variable {urgent : α → Prop}

theorem prompt_raise {floor free : Nat} (reached : floor ≤ free) {arrivals : List (Nat × α)}
    (prompt : Prompt bad urgent free arrivals) :
    Prompt bad urgent free (arrivals.map fun arrival => (max arrival.1 floor, arrival.2)) := by
  induction arrivals generalizing free with
  | nil => exact trivial
  | cons arrival rest ih =>
      obtain ⟨call, item⟩ := arrival
      obtain ⟨here, rest'⟩ := prompt
      have same : max (max call floor) free = max call free := by omega
      refine ⟨fun isUrgent => le_trans (here isUrgent) (le_max_left call floor), ?_⟩
      simp only [same]
      refine ih ?_ rest'
      split
      · omega
      · exact reached

/-- A later clock asks no more of arrivals that are later still. -/
theorem prompt_clock {free free' : Nat} {arrivals : List (Nat × α)}
    (late : ∀ arrival ∈ arrivals, free' ≤ arrival.1) (ahead : free ≤ free')
    (prompt : Prompt bad urgent free arrivals) : Prompt bad urgent free' arrivals := by
  induction arrivals with
  | nil => exact trivial
  | cons arrival rest ih =>
      obtain ⟨call, item⟩ := arrival
      obtain ⟨-, rest'⟩ := prompt
      have reached : free' ≤ call := late (call, item) List.mem_cons_self
      have onward : ∀ arrival ∈ rest, free' ≤ arrival.1 :=
        fun arrival member => late arrival (List.mem_cons_of_mem _ member)
      refine ⟨fun _ => reached, ?_⟩
      cases isBad : bad item with
      | true =>
          simp only [isBad, if_true] at rest' ⊢
          rwa [max_eq_left reached, ← max_eq_left (le_trans ahead reached)]
      | false =>
          simp only [isBad, Bool.false_eq_true, if_false] at rest' ⊢
          exact ih onward rest'

theorem prompt_after_good {items : List α} (clean : ∀ item ∈ items, bad item = false)
    {call free : Nat} {rest : List (Nat × α)}
    (prompt : Prompt bad urgent free (stamp call items ++ rest)) :
    Prompt bad urgent free rest := by
  induction items with
  | nil => exact prompt
  | cons item items ih =>
      obtain ⟨-, rest'⟩ := prompt
      rw [clean item List.mem_cons_self, if_neg Bool.false_ne_true] at rest'
      exact ih (fun item member => clean item (List.mem_cons_of_mem _ member)) rest'

/-- What is queued behind a bad item is not urgent. -/
theorem prompt_queued {items : List α} {call free : Nat} (behind : call < free)
    {rest : List (Nat × α)} (prompt : Prompt bad urgent free (stamp call items ++ rest)) :
    ∀ item ∈ items, ¬urgent item := by
  induction items generalizing free with
  | nil => exact fun _ member => absurd member List.not_mem_nil
  | cons item items ih =>
      obtain ⟨here, rest'⟩ := prompt
      intro other member
      cases member with
      | head => exact fun isUrgent => absurd (here isUrgent) (Nat.not_le.mpr behind)
      | tail _ inside =>
          refine ih ?_ rest' other inside
          split
          · omega
          · exact behind

theorem prompt_after_bad {front later : List α} {stop : α}
    (clean : ∀ item ∈ front, bad item = false) (isBad : bad stop = true) {call : Nat}
    {rest : List (Nat × α)} (late : ∀ arrival ∈ rest, call + 1 ≤ arrival.1)
    (prompt : Prompt bad urgent call (stamp call (front ++ stop :: later) ++ rest)) :
    (∀ item ∈ later, ¬urgent item) ∧
      Prompt bad urgent (call + 1) (stamp (call + 1) later ++ rest) := by
  rw [stamp_append, List.append_assoc] at prompt
  have onward := prompt_after_good clean prompt
  change Prompt bad urgent call ((call, stop) :: (stamp call later ++ rest)) at onward
  obtain ⟨-, rest'⟩ := onward
  rw [if_pos isBad, max_self] at rest'
  refine ⟨prompt_queued (Nat.lt_succ_self call) rest', ?_⟩
  have raised := prompt_raise (le_refl (call + 1)) rest'
  rw [List.map_append, stamp, List.map_map] at raised
  convert raised using 2
  · apply List.map_congr_left
    intro item _
    exact congrArg (·, item) (max_eq_right (Nat.le_succ call)).symm
  · conv_lhs => rw [← List.map_id rest]
    apply List.map_congr_left
    intro arrival member
    exact congrArg (·, arrival.2) (max_eq_left (late arrival member)).symm

end Backlog
