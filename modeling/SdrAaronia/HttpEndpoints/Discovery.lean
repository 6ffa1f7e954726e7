import SdrAaronia.Lib.F64
import SdrAaronia.Lib.Forest

/-! # Finding a configuration field and the block that carries it

The untyped `/remoteconfig` tree is walked three times: for the block around a field, for the
items of that block, and for the field's value among them.
-/

namespace SdrAaronia.HttpEndpoints

/-- What the walkers read of an item: its `name` where that is a string, and its `value`
where that is a number. -/
structure RawItem where
  name : Option String
  value : Option F64
  deriving DecidableEq, Repr

/-- The items of the untyped tree; an item with an `items` array is a group. -/
abbrev ConfigTree := Forest RawItem RawItem

/-- The item that a walk meets, leaf or group. -/
def rawItem (label : RawItem ⊕ RawItem) : RawItem := label.elim id id

def named (field : String) (label : RawItem ⊕ RawItem) : Bool :=
  decide ((rawItem label).name = some field)

/-- The name starts with `Block_`. -/
def startsWithBlock (name : String) : Bool := "Block_".toList.isPrefixOf name.toList

/-- The item's name where it is a block's. -/
def blockName (item : RawItem) : Option String := item.name.filter startsWithBlock

def isBlock (item : RawItem) : Bool := (blockName item).isSome

/-- The block around the first item named `field` that has one. -/
def findBlockNameCarryingField :
    ConfigTree → (field : String) → (enclosingBlock : Option String) → Option String
  | .nil, _, _ => none
  | .leaf item rest, field, enclosingBlock =>
    (if item.name = some field then enclosingBlock else none).or
      (findBlockNameCarryingField rest field enclosingBlock)
  | .group item items rest, field, enclosingBlock =>
    let nextBlock := (blockName item).or enclosingBlock
    (if item.name = some field then enclosingBlock else none).or
      ((findBlockNameCarryingField items field nextBlock).or
        (findBlockNameCarryingField rest field enclosingBlock))

/-- The items of the group named `groupName`.  A leaf of that name ends the walk of its row. -/
def findGroupItems : ConfigTree → (groupName : String) → Option ConfigTree
  | .nil, _ => none
  | .leaf item rest, groupName =>
    if item.name = some groupName then none else findGroupItems rest groupName
  | .group item items rest, groupName =>
    if item.name = some groupName then some items
    else (findGroupItems items groupName).or (findGroupItems rest groupName)

/-- The value of the item named `field`.  One without a number ends the walk of its row. -/
def readConfigLeafValue : ConfigTree → (field : String) → Option F64
  | .nil, _ => none
  | .leaf item rest, field =>
    if item.name = some field then item.value else readConfigLeafValue rest field
  | .group item items rest, field =>
    if item.name = some field then item.value
    else (readConfigLeafValue items field).or (readConfigLeafValue rest field)

/-- The names of the tree's blocks in pre-order. -/
def blockNames (tree : ConfigTree) : List String :=
  tree.labels.filterMap fun label => blockName (rawItem label)

theorem blockNames_leaf (item : RawItem) (rest : ConfigTree) :
    blockNames (.leaf item rest) = (blockName item).toList ++ blockNames rest := by
  rw [blockNames, Forest.labels, List.filterMap_cons]
  cases named : blockName (rawItem (.inl item)) with
  | none => simp [show blockName item = none from named, blockNames]
  | some name => simp [show blockName item = some name from named, blockNames]

theorem blockNames_group (item : RawItem) (items rest : ConfigTree) :
    blockNames (.group item items rest) =
      (blockName item).toList ++ (blockNames items ++ blockNames rest) := by
  rw [blockNames, Forest.labels, List.filterMap_cons, List.filterMap_append]
  cases named : blockName (rawItem (.inr item)) with
  | none => simp [show blockName item = none from named, blockNames]
  | some name => simp [show blockName item = some name from named, blockNames]

theorem blockName_name {item : RawItem} {name : String} (block : blockName item = some name) :
    item.name = some name :=
  (Option.filter_eq_some_iff.mp block).1

/-- An item of a block's name is that block. -/
theorem blockName_of_name {item : RawItem} {name : String} (same : item.name = some name)
    (starts : startsWithBlock name = true) : blockName item = some name :=
  Option.filter_eq_some_iff.mpr ⟨same, starts⟩

/-- The name of a block that a walk carries. -/
def blockTitle (block : RawItem × ConfigTree) : String := (blockName block.1).getD ""

theorem blockTitle_name {block : RawItem × ConfigTree} (marked : isBlock block.1 = true) :
    blockName block.1 = some (blockTitle block) := by
  obtain ⟨name, known⟩ := Option.isSome_iff_exists.mp marked
  simp [blockTitle, known]

theorem held_title (label : RawItem ⊕ RawItem) (field : String)
    (holder : Option (RawItem × ConfigTree)) :
    (Forest.held (named field) label holder).map (fun found => blockTitle found.1) =
      if (rawItem label).name = some field then holder.map blockTitle else none := by
  rw [Forest.held, named]
  simp only [decide_eq_true_eq]
  split
  · cases holder with
    | none => rfl
    | some block => rfl
  · rfl

/-- The walk for a block's name is the search for the field inside a block. -/
theorem findBlockNameCarryingField_carrier (tree : ConfigTree) (field : String)
    (holder : Option (RawItem × ConfigTree)) :
    findBlockNameCarryingField tree field (holder.map blockTitle) =
      (tree.carrier isBlock (named field) holder).map fun found => blockTitle found.1 := by
  induction tree generalizing holder with
  | nil => rfl
  | leaf item rest restHolds =>
      rw [findBlockNameCarryingField, Forest.carrier, Option.map_or, held_title, restHolds]
      rfl
  | group item items rest itemsHold restHolds =>
      have next : (blockName item).or (holder.map blockTitle) =
          (if isBlock item then some (item, items) else holder).map blockTitle := by
        cases known : blockName item with
        | none => simp [isBlock, known]
        | some name => simp [isBlock, known, blockTitle]
      rw [findBlockNameCarryingField, Forest.carrier, Option.map_or, Option.map_or, held_title,
        restHolds, next, itemsHold]
      rfl

theorem findGroupItems_absent {tree : ConfigTree} {name : String}
    (absent : some name ∉ tree.labels.map fun label => (rawItem label).name) :
    findGroupItems tree name = none := by
  induction tree with
  | nil => rfl
  | leaf item rest restHolds =>
      rw [Forest.labels, List.map_cons, List.mem_cons, not_or] at absent
      rw [findGroupItems, if_neg fun same => absent.1 same.symm]
      exact restHolds absent.2
  | group item items rest itemsHold restHolds =>
      rw [Forest.labels, List.map_cons, List.mem_cons, List.map_append, List.mem_append, not_or,
        not_or] at absent
      obtain ⟨other, below, later⟩ := absent
      rw [findGroupItems, if_neg fun same => other same.symm, itemsHold below, restHolds later]
      rfl

/-- A block's name that the tree does not list is no item's name. -/
theorem name_absent {tree : ConfigTree} {name : String} (starts : startsWithBlock name = true)
    (absent : name ∉ blockNames tree) :
    some name ∉ tree.labels.map fun label => (rawItem label).name := by
  intro present
  obtain ⟨label, inside, same⟩ := List.mem_map.mp present
  exact absent (List.mem_filterMap.mpr ⟨label, inside, blockName_of_name same starts⟩)

theorem blockNames_mem {tree : ConfigTree} {block : RawItem × ConfigTree} {name : String}
    (inside : block ∈ tree.groups) (same : blockName block.1 = some name) :
    name ∈ blockNames tree :=
  List.mem_filterMap.mpr ⟨.inr block.1, Forest.labels_of_groups inside, same⟩

/-- A block's name listed behind an item is not the item's own. -/
theorem name_apart {item : RawItem} {name : String} {others : List String}
    (starts : startsWithBlock name = true)
    (apart : ∀ here ∈ (blockName item).toList, ∀ other ∈ others, here ≠ other)
    (listed : name ∈ others) : item.name ≠ some name := by
  intro named
  have here : name ∈ (blockName item).toList := by
    rw [blockName_of_name named starts]
    exact List.mem_singleton_self name
  exact apart name here name listed rfl

/-- Where no two items share a block's name, that name leads to the block. -/
theorem findGroupItems_block {tree : ConfigTree} {block : RawItem × ConfigTree} {name : String}
    (unique : (blockNames tree).Nodup) (inside : block ∈ tree.groups)
    (same : blockName block.1 = some name) : findGroupItems tree name = some block.2 := by
  have starts : startsWithBlock name = true := (Option.filter_eq_some_iff.mp same).2
  induction tree with
  | nil => cases inside
  | leaf item rest restHolds =>
      rw [blockNames_leaf, List.nodup_append] at unique
      obtain ⟨_, restUnique, apart⟩ := unique
      have other : item.name ≠ some name :=
        name_apart starts apart (blockNames_mem inside same)
      rw [findGroupItems, if_neg other]
      exact restHolds restUnique inside
  | group item items rest itemsHold restHolds =>
      rw [blockNames_group, List.nodup_append, List.nodup_append] at unique
      obtain ⟨_, ⟨itemsUnique, restUnique, apartBelow⟩, apart⟩ := unique
      rcases List.mem_cons.mp inside with rfl | deeper
      · rw [findGroupItems, if_pos (blockName_name same)]
      · have listed : name ∈ blockNames items ++ blockNames rest := by
          rcases List.mem_append.mp deeper with below | later
          · exact List.mem_append_left _ (blockNames_mem below same)
          · exact List.mem_append_right _ (blockNames_mem later same)
        have other : item.name ≠ some name := name_apart starts apart listed
        rw [findGroupItems, if_neg other]
        rcases List.mem_append.mp deeper with below | later
        · rw [itemsHold itemsUnique below]
          rfl
        · have absent : name ∉ blockNames items := by
            intro below
            exact apartBelow name below name (blockNames_mem later same) rfl
          rw [findGroupItems_absent (name_absent starts absent)]
          exact restHolds restUnique later

theorem readConfigLeafValue_absent {tree : ConfigTree} {field : String}
    (absent : tree.labels.find? (named field) = none) : readConfigLeafValue tree field = none := by
  induction tree with
  | nil => rfl
  | leaf item rest restHolds =>
      rw [Forest.labels, List.find?_cons] at absent
      split at absent
      · cases absent
      · rename_i unnamed
        have other : item.name ≠ some field := of_decide_eq_false unnamed
        rw [readConfigLeafValue, if_neg other]
        exact restHolds absent
  | group item items rest itemsHold restHolds =>
      rw [Forest.labels, List.find?_cons] at absent
      split at absent
      · cases absent
      · rename_i unnamed
        have other : item.name ≠ some field := of_decide_eq_false unnamed
        rw [List.find?_append, Option.or_eq_none_iff] at absent
        rw [readConfigLeafValue, if_neg other, itemsHold absent.1,
          restHolds absent.2]
        rfl

/-- The value read is that of the first item named `field`, where it carries one. -/
theorem readConfigLeafValue_first {tree : ConfigTree} {field : String}
    {label : RawItem ⊕ RawItem} {value : F64}
    (first : tree.labels.find? (named field) = some label)
    (carries : (rawItem label).value = some value) :
    readConfigLeafValue tree field = some value := by
  induction tree with
  | nil => cases first
  | leaf item rest restHolds =>
      rw [Forest.labels, List.find?_cons] at first
      split at first
      · rename_i namedHere
        have same : item.name = some field := of_decide_eq_true namedHere
        cases first
        rw [readConfigLeafValue, if_pos same]
        exact carries
      · rename_i unnamed
        have other : item.name ≠ some field := of_decide_eq_false unnamed
        rw [readConfigLeafValue, if_neg other]
        exact restHolds first
  | group item items rest itemsHold restHolds =>
      rw [Forest.labels, List.find?_cons] at first
      split at first
      · rename_i namedHere
        have same : item.name = some field := of_decide_eq_true namedHere
        cases first
        rw [readConfigLeafValue, if_pos same]
        exact carries
      · rename_i unnamed
        have other : item.name ≠ some field := of_decide_eq_false unnamed
        rw [List.find?_append] at first
        rw [readConfigLeafValue, if_neg other]
        cases below : items.labels.find? (named field) with
        | none =>
            rw [below] at first
            rw [readConfigLeafValue_absent below]
            exact restHolds first
        | some known =>
            rw [below] at first
            cases first
            rw [itemsHold below]
            rfl

/-- The visit is to an item named `field` that lies below a block. -/
def Carries (field : String) (visit : Forest.Visit RawItem RawItem) : Prop :=
  (rawItem visit.label).name = some field ∧ ∃ ancestor ∈ visit.around, isBlock ancestor.1 = true

theorem held_carries (field : String) (visit : Forest.Visit RawItem RawItem) :
    (Forest.held (named field) visit.label (visit.holder isBlock)).isSome = true ↔
      Carries field visit := by
  rw [Forest.held, named, Carries, Forest.Visit.holder]
  simp only [decide_eq_true_eq]
  split
  · rename_i same
    simp [same]
  · rename_i other
    simp [other]

/-- A block's name is found exactly where the field lies below a block.  It is the nearest
block around the first such item in pre-order; the name leads to that block's items, and
reading the field among them gives that item's value. -/
theorem discovery_meets_read_back (tree : ConfigTree) (field : String)
    (unique : (blockNames tree).Nodup) :
    ((findBlockNameCarryingField tree field none).isSome = true ↔
      ∃ visit ∈ tree.visits [], Carries field visit) ∧
    ∀ name, findBlockNameCarryingField tree field none = some name →
      ∃ before visit after block, tree.visits [] = before ++ visit :: after ∧
        Carries field visit ∧ (∀ earlier ∈ before, ¬ Carries field earlier) ∧
        visit.holder isBlock = some block ∧ block.1.name = some name ∧
        findGroupItems tree name = some block.2 ∧
        ∀ value, (rawItem visit.label).value = some value →
          readConfigLeafValue block.2 field = some value := by
  have search : findBlockNameCarryingField tree field none =
      (tree.carrier isBlock (named field) none).map fun found => blockTitle found.1 :=
    findBlockNameCarryingField_carrier tree field none
  have visited := Forest.carrier_visits isBlock (named field) tree []
  rw [List.find?_nil] at visited
  constructor
  · rw [search, Option.isSome_map, visited, List.findSome?_isSome_iff]
    simp only [held_carries]
  · intro name found
    rw [search, Option.map_eq_some_iff] at found
    obtain ⟨⟨block, label⟩, carried, title⟩ := found
    have first := carried
    rw [visited, List.findSome?_eq_some_iff] at first
    obtain ⟨before, visit, after, split, here, vain⟩ := first
    obtain ⟨_, rfl, holder⟩ := Forest.held_some here
    rcases Forest.carrier_first isBlock (named field) carried with ⟨same, _⟩ |
      ⟨inside, marked, reading⟩
    · cases same
    · have blockNamed : blockName block.1 = some name := title ▸ blockTitle_name marked
      refine ⟨before, visit, after, block, split, ?_, ?_, holder, blockName_name blockNamed,
        findGroupItems_block unique inside blockNamed, ?_⟩
      · rw [← held_carries, here]
        rfl
      · intro earlier member carries
        rw [← held_carries, vain earlier member] at carries
        cases carries
      · intro value carries
        exact readConfigLeafValue_first reading carries

/-- A level outside every block, and another inside a block of a block. -/
def nestedBlocks : ConfigTree :=
  .group ⟨some "scene", none⟩ (.leaf ⟨some "reflevel0", some 5⟩ .nil)
    (.group ⟨some "Block_Mission", none⟩
      (.group ⟨some "Block_Spectran", none⟩ (.leaf ⟨some "reflevel0", some 20⟩ .nil) .nil) .nil)

theorem discovery_meets_read_back_nested :
    ∃ visit ∈ nestedBlocks.visits [], Carries "reflevel0" visit :=
  (discovery_meets_read_back nestedBlocks "reflevel0" (by decide)).1.mp (by decide)

example : (findBlockNameCarryingField nestedBlocks "reflevel0" none).bind (fun name =>
    (findGroupItems nestedBlocks name).bind (readConfigLeafValue · "reflevel0")) = some 20 := by
  decide

end SdrAaronia.HttpEndpoints
