import Mathlib.Data.List.Basic

/-! # Forests and searches over them

A forest is a row of leaves and groups, each group with a forest of its own.  A search for a
label inside a marked group meets the labels in pre-order, and reports the nearest marked
group around the first one wanted.
-/

/-- Leaves and groups side by side, in order. -/
inductive Forest (Leaf Group : Type) where
  | nil
  | leaf (label : Leaf) (rest : Forest Leaf Group)
  | group (label : Group) (items : Forest Leaf Group) (rest : Forest Leaf Group)
  deriving DecidableEq

namespace Forest

variable {Leaf Group : Type}

/-- A label met by the pre-order walk, with the groups around it, the nearest first. -/
structure Visit (Leaf Group : Type) where
  around : List (Group × Forest Leaf Group)
  label : Leaf ⊕ Group

def visits (around : List (Group × Forest Leaf Group)) :
    Forest Leaf Group → List (Visit Leaf Group)
  | .nil => []
  | .leaf label rest => ⟨around, .inl label⟩ :: rest.visits around
  | .group label items rest =>
    ⟨around, .inr label⟩ :: (items.visits ((label, items) :: around) ++ rest.visits around)

/-- Every label in pre-order. -/
def labels : Forest Leaf Group → List (Leaf ⊕ Group)
  | .nil => []
  | .leaf label rest => .inl label :: rest.labels
  | .group label items rest => .inr label :: (items.labels ++ rest.labels)

/-- Every leaf in order. -/
def leaves : Forest Leaf Group → List Leaf
  | .nil => []
  | .leaf label rest => label :: rest.leaves
  | .group _ items rest => items.leaves ++ rest.leaves

/-- The leaves that stand in the row itself. -/
def rowLeaves : Forest Leaf Group → List Leaf
  | .nil => []
  | .leaf label rest => label :: rest.rowLeaves
  | .group _ _ rest => rest.rowLeaves

/-- Every group in pre-order, with its items. -/
def groups : Forest Leaf Group → List (Group × Forest Leaf Group)
  | .nil => []
  | .leaf _ rest => rest.groups
  | .group label items rest => (label, items) :: (items.groups ++ rest.groups)

theorem labels_of_groups {forest : Forest Leaf Group} {group : Group × Forest Leaf Group}
    (inside : group ∈ forest.groups) : .inr group.1 ∈ forest.labels := by
  induction forest with
  | nil => cases inside
  | leaf label rest restHolds => exact List.mem_cons_of_mem _ (restHolds inside)
  | group label items rest itemsHold restHolds =>
      rcases List.mem_cons.mp inside with rfl | deeper
      · exact List.mem_cons_self
      · rcases List.mem_append.mp deeper with below | later
        · exact List.mem_cons_of_mem _ (List.mem_append_left _ (itemsHold below))
        · exact List.mem_cons_of_mem _ (List.mem_append_right _ (restHolds later))

/-- What the first leaf that answers gives; groups are passed through. -/
def findLeaf {Answer : Type} (answer : Leaf → Option Answer) :
    Forest Leaf Group → Option Answer
  | .nil => none
  | .leaf label rest => (answer label).or (rest.findLeaf answer)
  | .group _ items rest => (items.findLeaf answer).or (rest.findLeaf answer)

theorem findLeaf_leaves {Answer : Type} (answer : Leaf → Option Answer)
    (forest : Forest Leaf Group) : forest.findLeaf answer = forest.leaves.findSome? answer := by
  induction forest with
  | nil => rfl
  | leaf label rest restHolds =>
      rw [findLeaf, leaves, List.findSome?_cons, restHolds]
      cases answer label with
      | none => rfl
      | some given => rfl
  | group label items rest itemsHold restHolds =>
      rw [findLeaf, leaves, List.findSome?_append, itemsHold, restHolds]

section Search

variable (marked : Group → Bool) (wanted : Leaf ⊕ Group → Bool)

/-- The nearest marked group around a visit. -/
def Visit.holder (visit : Visit Leaf Group) : Option (Group × Forest Leaf Group) :=
  visit.around.find? fun group => marked group.1

/-- A wanted label counts only inside a marked group. -/
def held (label : Leaf ⊕ Group) (holder : Option (Group × Forest Leaf Group)) :
    Option ((Group × Forest Leaf Group) × (Leaf ⊕ Group)) :=
  if wanted label then holder.map (·, label) else none

variable {wanted} in
theorem held_some {label found : Leaf ⊕ Group} {holder : Option (Group × Forest Leaf Group)}
    {group : Group × Forest Leaf Group} (holds : held wanted label holder = some (group, found)) :
    wanted label = true ∧ label = found ∧ holder = some group := by
  rw [held] at holds
  split at holds
  · rename_i wantedHere
    cases holder with
    | none => cases holds
    | some known =>
        cases holds
        exact ⟨wantedHere, rfl, rfl⟩
  · cases holds

variable {wanted} in
theorem held_none {label : Leaf ⊕ Group} {group : Group × Forest Leaf Group}
    (passed : held wanted label (some group) = none) : wanted label = false := by
  cases wantedHere : wanted label with
  | false => rfl
  | true =>
      rw [held, if_pos wantedHere] at passed
      cases passed

/-- Search for a wanted label, carrying the nearest marked group along. -/
def carrier : Forest Leaf Group → Option (Group × Forest Leaf Group) →
    Option ((Group × Forest Leaf Group) × (Leaf ⊕ Group))
  | .nil, _ => none
  | .leaf label rest, holder => (held wanted (.inl label) holder).or (carrier rest holder)
  | .group label items rest, holder =>
    (held wanted (.inr label) holder).or
      ((carrier items (if marked label then some (label, items) else holder)).or
        (carrier rest holder))

/-- The search is the first visit that counts. -/
theorem carrier_visits (forest : Forest Leaf Group) (around : List (Group × Forest Leaf Group)) :
    carrier marked wanted forest (around.find? fun group => marked group.1) =
      (forest.visits around).findSome? fun visit =>
        held wanted visit.label (visit.holder marked) := by
  induction forest generalizing around with
  | nil => rfl
  | leaf label rest restHolds =>
      rw [carrier, visits, List.findSome?_cons, restHolds]
      simp only [Visit.holder]
      cases held wanted (.inl label) (around.find? fun group => marked group.1) with
      | none => rfl
      | some found => rfl
  | group label items rest itemsHold restHolds =>
      have next : (if marked label then some (label, items)
          else around.find? fun group => marked group.1) =
            ((label, items) :: around).find? fun group => marked group.1 := by
        cases mark : marked label with
        | true => simp [mark]
        | false => simp [mark]
      rw [carrier, visits, List.findSome?_cons, List.findSome?_append, restHolds, next,
        itemsHold]
      simp only [Visit.holder]
      cases held wanted (.inr label) (around.find? fun group => marked group.1) with
      | none => rfl
      | some found => rfl

/-- With a marked group all around, only a forest without a wanted label is searched in vain. -/
theorem carrier_none {forest : Forest Leaf Group} {holder : Group × Forest Leaf Group}
    (vain : carrier marked wanted forest (some holder) = none) :
    forest.labels.find? wanted = none := by
  induction forest generalizing holder with
  | nil => rfl
  | leaf label rest restHolds =>
      rw [carrier, Option.or_eq_none_iff] at vain
      rw [labels, List.find?_cons, held_none vain.1]
      exact restHolds vain.2
  | group label items rest itemsHold restHolds =>
      rw [carrier, Option.or_eq_none_iff, Option.or_eq_none_iff] at vain
      obtain ⟨here, below, later⟩ := vain
      have belowNone : items.labels.find? wanted = none := by
        split at below
        · exact itemsHold below
        · exact itemsHold below
      rw [labels, List.find?_cons, held_none here, List.find?_append, belowNone]
      exact restHolds later

/-- What the search finds is the first wanted label inside the group it reports: the group
carried in, or a marked group of the forest. -/
theorem carrier_first {forest : Forest Leaf Group} {holder : Option (Group × Forest Leaf Group)}
    {group : Group × Forest Leaf Group} {label : Leaf ⊕ Group}
    (found : carrier marked wanted forest holder = some (group, label)) :
    (holder = some group ∧ forest.labels.find? wanted = some label) ∨
      (group ∈ forest.groups ∧ marked group.1 = true ∧
        group.2.labels.find? wanted = some label) := by
  induction forest generalizing holder with
  | nil => cases found
  | leaf head rest restHolds =>
      rw [carrier, Option.or_eq_some_iff] at found
      rcases found with here | ⟨passed, later⟩
      · obtain ⟨wantedHere, rfl, same⟩ := held_some here
        exact Or.inl ⟨same, by rw [labels, List.find?_cons, wantedHere]⟩
      · rcases restHolds later with ⟨same, first⟩ | inside
        · refine Or.inl ⟨same, ?_⟩
          subst same
          rw [labels, List.find?_cons, held_none passed]
          exact first
        · exact Or.inr inside
  | group head items rest itemsHold restHolds =>
      rw [carrier, Option.or_eq_some_iff] at found
      rcases found with here | ⟨passed, deeper⟩
      · obtain ⟨wantedHere, rfl, same⟩ := held_some here
        exact Or.inl ⟨same, by rw [labels, List.find?_cons, wantedHere]⟩
      · have unwanted : ∀ known, holder = some known → wanted (.inr head) = false := by
          intro known same
          subst same
          exact held_none passed
        rw [Option.or_eq_some_iff] at deeper
        rcases deeper with below | ⟨nothingBelow, later⟩
        · rcases itemsHold below with ⟨same, first⟩ | ⟨inside, mark, first⟩
          · split at same
            · rename_i mark
              cases same
              exact Or.inr ⟨List.mem_cons_self, mark, first⟩
            · refine Or.inl ⟨same, ?_⟩
              rw [labels, List.find?_cons, unwanted group same, List.find?_append, first]
              rfl
          · exact Or.inr ⟨List.mem_cons_of_mem _ (List.mem_append_left _ inside), mark, first⟩
        · rcases restHolds later with ⟨same, first⟩ | ⟨inside, mark, first⟩
          · refine Or.inl ⟨same, ?_⟩
            subst same
            have belowNone : items.labels.find? wanted = none := by
              split at nothingBelow
              · exact carrier_none marked wanted nothingBelow
              · exact carrier_none marked wanted nothingBelow
            rw [labels, List.find?_cons, unwanted group rfl, List.find?_append, belowNone]
            exact first
          · exact Or.inr ⟨List.mem_cons_of_mem _ (List.mem_append_right _ inside), mark, first⟩

/-- Change the leaf that the search finds.  A group that it finds stays as it is. -/
def amend (change : Leaf → Leaf) : Forest Leaf Group → (inside : Bool) →
    Option (Forest Leaf Group)
  | .nil, _ => none
  | .leaf label rest, inside =>
    if inside && wanted (.inl label) then some (.leaf (change label) rest)
    else (amend change rest inside).map (.leaf label ·)
  | .group label items rest, inside =>
    if inside && wanted (.inr label) then some (.group label items rest)
    else
      ((amend change items (inside || marked label)).map (.group label · rest)).or
        ((amend change rest inside).map (.group label items ·))

theorem held_inside (label : Leaf ⊕ Group) (holder : Option (Group × Forest Leaf Group)) :
    (held wanted label holder).isSome = (holder.isSome && wanted label) := by
  rw [held]
  cases wanted label with
  | true => cases holder with
      | none => rfl
      | some group => rfl
  | false => cases holder with
      | none => rfl
      | some group => rfl

theorem inside_next (label : Group) (items : Forest Leaf Group)
    (holder : Option (Group × Forest Leaf Group)) :
    (if marked label then some (label, items) else holder).isSome =
      (holder.isSome || marked label) := by
  cases marked label with
  | true => simp
  | false => simp

/-- The change is made exactly where the search finds something. -/
theorem amend_isSome (change : Leaf → Leaf) (forest : Forest Leaf Group)
    (holder : Option (Group × Forest Leaf Group)) :
    (amend marked wanted change forest holder.isSome).isSome =
      (carrier marked wanted forest holder).isSome := by
  induction forest generalizing holder with
  | nil => rfl
  | leaf label rest restHolds =>
      rw [carrier, Option.isSome_or, held_inside, amend]
      split
      · rename_i here
        rw [here]
        rfl
      · rename_i passed
        rw [Bool.not_eq_true] at passed
        rw [passed, Option.isSome_map, restHolds, Bool.false_or]
  | group label items rest itemsHold restHolds =>
      rw [carrier, Option.isSome_or, Option.isSome_or, held_inside, amend]
      split
      · rename_i here
        rw [here]
        rfl
      · rename_i passed
        rw [Bool.not_eq_true] at passed
        rw [passed, Option.isSome_or, Option.isSome_map, Option.isSome_map, restHolds,
          ← inside_next marked label items, itemsHold, Bool.false_or]

/-- Whether the search finds anything does not depend on which group is all around. -/
theorem carrier_isSome {holder holder' : Option (Group × Forest Leaf Group)}
    (same : holder'.isSome = holder.isSome) (forest : Forest Leaf Group) :
    (carrier marked wanted forest holder').isSome =
      (carrier marked wanted forest holder).isSome := by
  rw [← amend_isSome marked wanted id forest holder, ← amend_isSome marked wanted id, same]

theorem held_passed {label : Leaf ⊕ Group} {holder : Option (Group × Forest Leaf Group)}
    (passed : held wanted label holder = none) : (holder.isSome && wanted label) = false := by
  rw [← held_inside, passed]
  rfl

theorem amend_nothing {head : Group} {items : Forest Leaf Group}
    {holder : Option (Group × Forest Leaf Group)}
    (vain : carrier marked wanted items (if marked head then some (head, items) else holder) = none)
    (change : Leaf → Leaf) :
    amend marked wanted change items (holder.isSome || marked head) = none := by
  have unchanged := amend_isSome marked wanted change items
    (if marked head then some (head, items) else holder)
  rwa [vain, Option.isSome_none, Option.isSome_eq_false_iff, Option.isNone_iff_eq_none,
    inside_next] at unchanged

/-- A group found is left alone. -/
theorem amend_group {forest : Forest Leaf Group} {holder : Option (Group × Forest Leaf Group)}
    {group : Group × Forest Leaf Group} {label : Group} (change : Leaf → Leaf)
    (found : carrier marked wanted forest holder = some (group, .inr label)) :
    amend marked wanted change forest holder.isSome = some forest := by
  induction forest generalizing holder with
  | nil => cases found
  | leaf head rest restHolds =>
      rw [carrier, Option.or_eq_some_iff] at found
      rcases found with here | ⟨passed, later⟩
      · cases (held_some here).2.1
      · rw [amend, held_passed wanted passed, restHolds later]
        rfl
  | group head items rest itemsHold restHolds =>
      rw [carrier, Option.or_eq_some_iff] at found
      rcases found with here | ⟨passed, deeper⟩
      · obtain ⟨wantedHere, _, same⟩ := held_some here
        rw [amend, same, wantedHere]
        rfl
      · rw [amend, held_passed wanted passed]
        rw [Option.or_eq_some_iff] at deeper
        rcases deeper with below | ⟨nothingBelow, later⟩
        · rw [← inside_next marked head items, itemsHold below]
          rfl
        · rw [amend_nothing marked wanted nothingBelow, restHolds later]
          rfl

/-- The place of a leaf in a forest: whatever stands there, as long as it is wanted, the search
finds it there and a change is made there. -/
structure Place (inside : Bool) (rebuild : Leaf → Forest Leaf Group)
    (before after : List Leaf) : Prop where
  row : ∀ other, (rebuild other).leaves = before ++ other :: after
  finds : ∀ {other}, wanted (.inl other) = true →
    ∀ holder : Option (Group × Forest Leaf Group), holder.isSome = inside →
      ∃ around, carrier marked wanted (rebuild other) holder = some (around, .inl other)
  changes : ∀ {other}, wanted (.inl other) = true →
    ∀ change, amend marked wanted change (rebuild other) inside = some (rebuild (change other))

variable {marked wanted}

theorem held_alike {label : Leaf ⊕ Group} {holder holder' : Option (Group × Forest Leaf Group)}
    (passed : held wanted label holder = none) (alike : holder'.isSome = holder.isSome) :
    held wanted label holder' = none := by
  rw [← Option.isSome_eq_false_iff.trans Option.isNone_iff_eq_none, held_inside, alike,
    held_passed wanted passed]

theorem Place.here (rest : Forest Leaf Group) :
    Place marked wanted true (fun other => .leaf other rest) [] rest.leaves := by
  refine ⟨fun other => rfl, fun wantedOther holder inside => ?_, fun wantedOther change => ?_⟩
  · obtain ⟨around, rfl⟩ := Option.isSome_iff_exists.mp inside
    exact ⟨around, by rw [carrier, held, if_pos wantedOther]; rfl⟩
  · rw [amend, wantedOther]
    rfl

theorem Place.afterLeaf {head : Leaf} {holder : Option (Group × Forest Leaf Group)}
    {rebuild : Leaf → Forest Leaf Group} {before after : List Leaf}
    (passed : held wanted (.inl head) holder = none)
    (place : Place marked wanted holder.isSome rebuild before after) :
    Place marked wanted holder.isSome (fun other => .leaf head (rebuild other)) (head :: before)
      after := by
  refine ⟨fun other => congrArg (head :: ·) (place.row other),
    fun wantedOther holder' alike => ?_, fun wantedOther change => ?_⟩
  · obtain ⟨around, carried⟩ := place.finds wantedOther holder' alike
    exact ⟨around, by rw [carrier, held_alike passed alike, carried]; rfl⟩
  · rw [amend, held_passed wanted passed, place.changes wantedOther]
    rfl

theorem Place.inGroup {head : Group} {items : Forest Leaf Group}
    {holder : Option (Group × Forest Leaf Group)} {rebuild : Leaf → Forest Leaf Group}
    {before after : List Leaf} (rest : Forest Leaf Group)
    (passed : held wanted (.inr head) holder = none)
    (place : Place marked wanted (if marked head then some (head, items) else holder).isSome
      rebuild before after) :
    Place marked wanted holder.isSome (fun other => .group head (rebuild other) rest) before
      (after ++ rest.leaves) := by
  refine ⟨fun other => ?_, fun {other} wantedOther holder' alike => ?_,
    fun wantedOther change => ?_⟩
  · rw [leaves, place.row, List.append_assoc, List.cons_append]
  · obtain ⟨around, carried⟩ := place.finds wantedOther
      (if marked head then some (head, rebuild other) else holder')
      (by rw [inside_next, inside_next, alike])
    exact ⟨around, by rw [carrier, held_alike passed alike, carried]; rfl⟩
  · rw [amend, held_passed wanted passed, ← inside_next marked head items,
      place.changes wantedOther]
    rfl

theorem Place.afterGroup {head : Group} {items : Forest Leaf Group}
    {holder : Option (Group × Forest Leaf Group)} {rebuild : Leaf → Forest Leaf Group}
    {before after : List Leaf} (passed : held wanted (.inr head) holder = none)
    (nothingBelow : carrier marked wanted items
      (if marked head then some (head, items) else holder) = none)
    (place : Place marked wanted holder.isSome rebuild before after) :
    Place marked wanted holder.isSome (fun other => .group head items (rebuild other))
      (items.leaves ++ before) after := by
  refine ⟨fun other => ?_, fun wantedOther holder' alike => ?_, fun wantedOther change => ?_⟩
  · rw [leaves, place.row, List.append_assoc]
  · obtain ⟨around, carried⟩ := place.finds wantedOther holder' alike
    have nextAlike : (if marked head then some (head, items) else holder').isSome =
        (if marked head then some (head, items) else holder).isSome := by
      rw [inside_next, inside_next, alike]
    have vain := carrier_isSome marked wanted nextAlike items
    rw [nothingBelow, Option.isSome_none, Option.isSome_eq_false_iff,
      Option.isNone_iff_eq_none] at vain
    exact ⟨around, by rw [carrier, held_alike passed alike, vain, carried]; rfl⟩
  · rw [amend, held_passed wanted passed,
      amend_nothing marked wanted nothingBelow change, place.changes wantedOther]
    rfl

/-- Around a leaf that the search finds the forest is the same whatever stands in its place. -/
theorem amend_leaf {forest : Forest Leaf Group} {holder : Option (Group × Forest Leaf Group)}
    {group : Group × Forest Leaf Group} {label : Leaf}
    (found : carrier marked wanted forest holder = some (group, .inl label)) :
    ∃ rebuild before after, rebuild label = forest ∧
      Place marked wanted holder.isSome rebuild before after := by
  induction forest generalizing holder with
  | nil => cases found
  | leaf head rest restHolds =>
      rw [carrier, Option.or_eq_some_iff] at found
      rcases found with here | ⟨passed, later⟩
      · obtain ⟨_, same, holding⟩ := held_some here
        cases same
        rw [holding]
        exact ⟨_, _, _, rfl, Place.here rest⟩
      · obtain ⟨rebuild, before, after, whole, place⟩ := restHolds later
        exact ⟨_, _, _, congrArg (Forest.leaf head) whole, place.afterLeaf passed⟩
  | group head items rest itemsHold restHolds =>
      rw [carrier, Option.or_eq_some_iff, Option.or_eq_some_iff] at found
      rcases found with here | ⟨passed, below | ⟨nothingBelow, later⟩⟩
      · cases (held_some here).2.1
      · obtain ⟨rebuild, before, after, whole, place⟩ := itemsHold below
        exact ⟨_, _, _, congrArg (Forest.group head · rest) whole,
          place.inGroup rest passed⟩
      · obtain ⟨rebuild, before, after, whole, place⟩ := restHolds later
        exact ⟨_, _, _, congrArg (Forest.group head items) whole,
          place.afterGroup passed nothingBelow⟩

end Search

section Map

variable {Leaf' Group' : Type} (onLeaf : Leaf → Leaf') (onGroup : Group → Group')

def map : Forest Leaf Group → Forest Leaf' Group'
  | .nil => .nil
  | .leaf label rest => .leaf (onLeaf label) rest.map
  | .group label items rest => .group (onGroup label) items.map rest.map

theorem carrier_map (marked : Group' → Bool) (wanted : Leaf' ⊕ Group' → Bool)
    (forest : Forest Leaf Group) (holder : Option (Group × Forest Leaf Group)) :
    carrier marked wanted (forest.map onLeaf onGroup)
        (holder.map (Prod.map onGroup (Forest.map onLeaf onGroup))) =
      (carrier (marked ∘ onGroup) (wanted ∘ Sum.map onLeaf onGroup) forest holder).map
        (Prod.map (Prod.map onGroup (Forest.map onLeaf onGroup)) (Sum.map onLeaf onGroup)) := by
  have heldMap : ∀ (label : Leaf ⊕ Group) (holder : Option (Group × Forest Leaf Group)),
      held wanted (Sum.map onLeaf onGroup label)
        (holder.map (Prod.map onGroup (Forest.map onLeaf onGroup))) =
      (held (wanted ∘ Sum.map onLeaf onGroup) label holder).map
        (Prod.map (Prod.map onGroup (Forest.map onLeaf onGroup)) (Sum.map onLeaf onGroup)) := by
    intro label holder
    rw [held, held, Function.comp_apply]
    split
    · cases holder with
      | none => rfl
      | some group => rfl
    · rfl
  induction forest generalizing holder with
  | nil => rfl
  | leaf label rest restHolds =>
      have here := heldMap (.inl label) holder
      rw [Sum.map_inl] at here
      rw [map, carrier, carrier, Option.map_or, here, restHolds]
  | group label items rest itemsHold restHolds =>
      have here := heldMap (.inr label) holder
      rw [Sum.map_inr] at here
      have next : (if marked (onGroup label) then some (onGroup label, items.map onLeaf onGroup)
          else holder.map (Prod.map onGroup (Forest.map onLeaf onGroup))) =
            (if (marked ∘ onGroup) label then some (label, items) else holder).map
              (Prod.map onGroup (Forest.map onLeaf onGroup)) := by
        rw [Function.comp_apply]
        split
        · rfl
        · rfl
      rw [map, carrier, carrier, Option.map_or, Option.map_or, here, next, itemsHold, restHolds]

end Map

end Forest
