import Mathlib.Data.List.Nodup
import Mathlib.Data.List.Perm.Subperm

/-! # Trails

Steps from node to node, until a node has no step or was there before.  A trail
passes every node that its start leads to, once.
-/

namespace SdrAaronia.Trail

variable {Node : Type} (step : Node → Option Node)

/-- Steps lead from `start` to a node that has a step itself. -/
inductive LeadsTo (start : Node) : Node → Prop where
  | here {next : Node} (steps : step start = some next) : LeadsTo start start
  | step {node next next' : Node} (leads : LeadsTo start node) (steps : step node = some next)
      (steps' : step next = some next') : LeadsTo start next

variable {step}

theorem LeadsTo.start_steps {start node : Node} (leads : LeadsTo step start node) :
    ∃ next, step start = some next := by
  induction leads with
  | here steps => exact ⟨_, steps⟩
  | step leads steps steps' ih => exact ih

/-- A step put in front. -/
theorem LeadsTo.head {start next node : Node} (steps : step start = some next)
    (leads : LeadsTo step next node) : LeadsTo step start node := by
  induction leads with
  | here steps' => exact .step (.here steps) steps steps'
  | step leads steps' steps'' ih => exact .step ih steps' steps''

/-- Steps lead nowhere else than to the start and on from its next node. -/
theorem LeadsTo.start_or_next {start node : Node} (leads : LeadsTo step start node) :
    node = start ∨ ∃ next, step start = some next ∧ LeadsTo step next node := by
  induction leads with
  | here steps => exact Or.inl rfl
  | step leads steps steps' ih =>
      refine Or.inr ?_
      cases ih with
      | inl same => exact ⟨_, same ▸ steps, .here steps'⟩
      | inr further =>
          obtain ⟨next, first, leads⟩ := further
          exact ⟨next, first, .step leads steps steps'⟩

variable (step) in
/-- The nodes passed from a node on, where some were visited before. -/
inductive Passes : List Node → Node → List Node → Prop where
  | again {visited : List Node} {node : Node} (old : node ∈ visited) : Passes visited node []
  | ends {visited : List Node} {node : Node} (stays : step node = none) : Passes visited node []
  | onward {visited trail : List Node} {node next : Node} (fresh : node ∉ visited)
      (steps : step node = some next) (rest : Passes (node :: visited) next trail) :
      Passes visited node (node :: trail)

theorem Passes.unique {visited trail trail' : List Node} {node : Node}
    (passes : Passes step visited node trail) (passes' : Passes step visited node trail') :
    trail = trail' := by
  induction passes generalizing trail' with
  | again old =>
      cases passes' with
      | again old' => rfl
      | ends stays' => rfl
      | onward fresh' steps' rest' => exact absurd old fresh'
  | ends stays =>
      cases passes' with
      | again old' => rfl
      | ends stays' => rfl
      | onward fresh' steps' rest' => cases stays.symm.trans steps'
  | onward fresh steps rest ih =>
      cases passes' with
      | again old' => exact absurd old' fresh
      | ends stays' => cases stays'.symm.trans steps
      | onward fresh' steps' rest' =>
          cases steps.symm.trans steps'
          rw [ih rest']

theorem Passes.steps {visited trail : List Node} {start node : Node}
    (passes : Passes step visited start trail) (member : node ∈ trail) :
    ∃ next, step node = some next := by
  induction passes with
  | again => exact absurd member List.not_mem_nil
  | ends => exact absurd member List.not_mem_nil
  | onward fresh steps rest ih =>
      cases List.mem_cons.mp member with
      | inl same => exact ⟨_, same ▸ steps⟩
      | inr later => exact ih later

section Follow

variable [DecidableEq Node] (step)

/-- The nodes passed, from `node` on, unless more rounds are needed. -/
def follow : Nat → List Node → Node → Option (List Node)
  | 0, _, _ => none
  | rounds + 1, visited, node =>
      if node ∈ visited then some []
      else
        match step node with
        | none => some []
        | some next => (follow rounds (node :: visited) next).map (node :: ·)

variable {step}

theorem follow_passes {rounds : Nat} {visited trail : List Node} {start : Node}
    (followed : follow step rounds visited start = some trail) :
    Passes step visited start trail := by
  induction rounds generalizing visited start trail with
  | zero => cases followed
  | succ rounds ih =>
      rw [follow] at followed
      split at followed
      · rename_i old
        cases followed
        exact .again old
      · rename_i fresh
        split at followed
        · rename_i stays
          cases followed
          exact .ends stays
        · rename_i next steps
          obtain ⟨rest, onward, rfl⟩ := Option.map_eq_some_iff.mp followed
          exact .onward fresh steps (ih onward)

theorem Passes.follows {visited trail : List Node} {start : Node}
    (passes : Passes step visited start trail) :
    ∃ rounds, follow step rounds visited start = some trail := by
  induction passes with
  | again old => exact ⟨1, by rw [follow, if_pos old]⟩
  | @ends visited node stays =>
      refine ⟨1, ?_⟩
      rw [follow, stays]
      exact ite_self _
  | onward fresh steps rest ih =>
      obtain ⟨rounds, followed⟩ := ih
      refine ⟨rounds + 1, ?_⟩
      simp only [follow, if_neg fresh, steps, followed, Option.map_some]

theorem follow_leads {rounds : Nat} {visited trail : List Node} {start : Node}
    (followed : follow step rounds visited start = some trail) :
    trail.Nodup ∧ ∀ node ∈ trail, node ∉ visited ∧ LeadsTo step start node := by
  induction rounds generalizing visited start trail with
  | zero => cases followed
  | succ rounds ih =>
      rw [follow] at followed
      split at followed
      · rw [← Option.some.inj followed]
        exact ⟨List.nodup_nil, fun _ member => absurd member List.not_mem_nil⟩
      · rename_i fresh
        split at followed
        · rw [← Option.some.inj followed]
          exact ⟨List.nodup_nil, fun _ member => absurd member List.not_mem_nil⟩
        · rename_i next steps
          obtain ⟨rest, onward, rfl⟩ := Option.map_eq_some_iff.mp followed
          obtain ⟨once, later⟩ := ih onward
          constructor
          · rw [List.nodup_cons]
            exact ⟨fun again => (later start again).1 List.mem_cons_self, once⟩
          · intro node member
            cases List.mem_cons.mp member with
            | inl same =>
                rw [same]
                exact ⟨fresh, .here steps⟩
            | inr member =>
                obtain ⟨new, leads⟩ := later node member
                exact ⟨fun old => new (List.mem_cons_of_mem _ old), leads.head steps⟩

/-- What was visited and passed together leads nowhere else. -/
theorem follow_closed {rounds : Nat} {visited trail : List Node} {start : Node}
    (followed : follow step rounds visited start = some trail)
    (closed : ∀ node ∈ visited, ∀ next, step node = some next → next = start ∨ next ∈ visited) :
    (∀ next, step start = some next → start ∈ visited ++ trail) ∧
      ∀ node ∈ visited ++ trail, ∀ next next', step node = some next → step next = some next' →
        next ∈ visited ++ trail := by
  induction rounds generalizing visited start trail with
  | zero => cases followed
  | succ rounds ih =>
      rw [follow] at followed
      split at followed
      · rename_i old
        rw [← Option.some.inj followed, List.append_nil]
        refine ⟨fun _ _ => old, fun node member next _ steps _ => ?_⟩
        cases closed node member next steps with
        | inl same => exact same ▸ old
        | inr member => exact member
      · split at followed
        · rename_i ends
          rw [← Option.some.inj followed, List.append_nil]
          constructor
          · intro next steps
            rw [ends] at steps
            cases steps
          · intro node member next next' steps steps'
            cases closed node member next steps with
            | inl same =>
                rw [same, ends] at steps'
                cases steps'
            | inr member => exact member
        · rename_i next steps
          obtain ⟨rest, onward, rfl⟩ := Option.map_eq_some_iff.mp followed
          have closed' : ∀ node ∈ start :: visited, ∀ after, step node = some after →
              after = next ∨ after ∈ start :: visited := by
            intro node member after leads
            cases List.mem_cons.mp member with
            | inl same =>
                rw [same, steps] at leads
                exact Or.inl (Option.some.inj leads).symm
            | inr member =>
                refine Or.inr (List.mem_cons.mpr ?_)
                exact closed node member after leads
          obtain ⟨-, inner⟩ := ih onward closed'
          have same : ∀ node, node ∈ visited ++ start :: rest ↔
              node ∈ start :: visited ++ rest := by
            intro node
            simp only [List.mem_append, List.mem_cons]
            grind
          constructor
          · intro _ _
            exact (same start).mpr List.mem_cons_self
          · intro node member after after' leads leads'
            exact (same after).mpr (inner node ((same node).mp member) after after' leads leads')

/-- From a fresh start the trail passes exactly the nodes that the start leads to. -/
theorem mem_follow_iff {rounds : Nat} {trail : List Node} {start node : Node}
    (followed : follow step rounds [] start = some trail) :
    node ∈ trail ↔ LeadsTo step start node := by
  constructor
  · exact fun member => ((follow_leads followed).2 node member).2
  · intro leads
    obtain ⟨first, closed⟩ :=
      follow_closed followed fun _ member => absurd member List.not_mem_nil
    induction leads with
    | here steps => exact first _ steps
    | step leads steps steps' ih => exact closed _ ih _ _ steps steps'

/-- Among finitely many nodes with a step a trail comes to its end. -/
theorem follow_ends {places : List Node} (within : ∀ node next, step node = some next →
    node ∈ places) {rounds : Nat} {visited : List Node} (once : visited.Nodup)
    (inside : ∀ node ∈ visited, node ∈ places) (enough : places.length < rounds + visited.length)
    (start : Node) : ∃ trail, follow step rounds visited start = some trail := by
  induction rounds generalizing visited start with
  | zero =>
      have few := (List.subperm_of_subset once inside).length_le
      omega
  | succ rounds ih =>
      rw [follow]
      split
      · exact ⟨[], rfl⟩
      · rename_i fresh
        split
        · exact ⟨[], rfl⟩
        · rename_i next steps
          have inside' : ∀ node ∈ start :: visited, node ∈ places := by
            intro node member
            cases List.mem_cons.mp member with
            | inl same => exact same ▸ within start next steps
            | inr member => exact inside node member
          obtain ⟨trail, followed⟩ := ih (List.nodup_cons.mpr ⟨fresh, once⟩) inside'
            (by rw [List.length_cons]; omega) next
          exact ⟨start :: trail, by rw [followed]; rfl⟩

end Follow

end SdrAaronia.Trail
