import SdrAaronia.Error
import SdrAaronia.HttpEndpoints.Discovery

/-! # The typed configuration tree

`/remoteconfig` and `/healthstatus` answer with a tree of typed items.  The untyped walkers
read the same answer through its names, numbers and item lists.
-/

namespace SdrAaronia.HttpEndpoints

/-- A `number` or `float` item. -/
structure NumericItem where
  name : String
  value : F64
  min : Option F64
  max : Option F64
  step : Option F64
  deriving DecidableEq, Repr

/-- An `enum` item: `values` is a comma-separated list, and `disabled` masks its positions. -/
structure EnumItem where
  name : String
  value : Int
  values : String
  disabled : BitVec 64
  deriving DecidableEq, Repr

/-- A typed item without items of its own. -/
inductive ConfigLeaf where
  | bool (name : String) (value : Bool)
  | number (item : NumericItem)
  | float (item : NumericItem)
  | integer (name : String) (value : Int)
  | string (name : String) (value : String)
  | enum (item : EnumItem)
  | button (name : String)
  | frequencyProfiles (name : String)
  deriving DecidableEq, Repr

namespace ConfigLeaf

def name : ConfigLeaf → String
  | .bool name _ | .integer name _ | .string name _ | .button name | .frequencyProfiles name =>
    name
  | .number item | .float item => item.name
  | .enum item => item.name

/-- The value of a `float` or `number` item. -/
def number? : ConfigLeaf → Option F64
  | .number item | .float item => some item.value
  | _ => none

def setNumber (value : F64) : ConfigLeaf → ConfigLeaf
  | .number item => .number { item with value }
  | .float item => .float { item with value }
  | leaf => leaf

@[simp] theorem setNumber_name (value : F64) (leaf : ConfigLeaf) :
    (leaf.setNumber value).name = leaf.name := by
  cases leaf <;> rfl

theorem setNumber_number? {leaf : ConfigLeaf} {old : F64} (value : F64)
    (numeric : leaf.number? = some old) : (leaf.setNumber value).number? = some value := by
  cases leaf <;> first | rfl | cases numeric

@[simp] theorem setNumber_setNumber (first second : F64) (leaf : ConfigLeaf) :
    (leaf.setNumber first).setNumber second = leaf.setNumber second := by
  cases leaf <;> rfl

theorem setNumber_same {leaf : ConfigLeaf} {value : F64} (numeric : leaf.number? = some value) :
    leaf.setNumber value = leaf := by
  cases leaf <;> first | rfl | (cases numeric; rfl)

/-- What the untyped walkers read of the item. -/
def raw : ConfigLeaf → RawItem
  | .number item | .float item => ⟨some item.name, some item.value⟩
  | .integer name value => ⟨some name, some (.finite value)⟩
  | .enum item => ⟨some item.name, some (.finite item.value)⟩
  | .bool name _ | .string name _ | .button name | .frequencyProfiles name => ⟨some name, none⟩

@[simp] theorem raw_name (leaf : ConfigLeaf) : leaf.raw.name = some leaf.name := by
  cases leaf <;> rfl

end ConfigLeaf

/-- The items of a group; each group below them has a name. -/
abbrev ConfigItems := Forest ConfigLeaf String

inductive ConfigItem where
  | leaf (item : ConfigLeaf)
  | group (name : String) (items : ConfigItems)
  deriving DecidableEq

/-- The item as a row of its own. -/
def ConfigItem.row : ConfigItem → ConfigItems
  | .leaf item => .leaf item .nil
  | .group name items => .group name items .nil

/-- The same items as the untyped walkers see them. -/
def rawItems (items : ConfigItems) : ConfigTree :=
  items.map ConfigLeaf.raw fun name => ⟨some name, none⟩

def itemNamed (field : String) (label : ConfigLeaf ⊕ String) : Bool :=
  decide (label.elim ConfigLeaf.name id = field)

/-- The name of the mission block whose configuration carries `field`. -/
def findBlockNameWithField (document : ConfigItem) (field : String) : Except Error String :=
  match document with
  | .leaf _ => .error (.protocol "/remoteconfig response had no `config.items` array")
  | .group _ items =>
    match findBlockNameCarryingField (rawItems items) field none with
    | some name => .ok name
    | none => .error (.protocol
        (s!"no Block_* group carrying `{field}` found in the current mission's config tree"))

/-- The first item named `field` inside a block, and the block. -/
def locate (items : ConfigItems) (field : String) :
    Option ((String × ConfigItems) × (ConfigLeaf ⊕ String)) :=
  items.carrier startsWithBlock (itemNamed field) none

/-- Discovery over the untyped tree names the block that the typed tree locates. -/
theorem findBlockNameCarryingField_locate (items : ConfigItems) (field : String) :
    findBlockNameCarryingField (rawItems items) field none =
      (locate items field).map fun found => found.1.1 := by
  have searched := findBlockNameCarryingField_carrier (rawItems items) field none
  have mapped := Forest.carrier_map ConfigLeaf.raw (fun name => (⟨some name, none⟩ : RawItem))
    isBlock (named field) items none
  have marks : (isBlock ∘ fun name => (⟨some name, none⟩ : RawItem)) = startsWithBlock := by
    funext name
    cases starts : startsWithBlock name with
    | true => simp [isBlock, blockName, starts]
    | false => simp [isBlock, blockName, starts]
  have wants : (named field ∘ Sum.map ConfigLeaf.raw fun name => (⟨some name, none⟩ : RawItem)) =
      itemNamed field := by
    funext label
    cases label with
    | inl leaf => exact decide_eq_decide.mpr (by simp [rawItem])
    | inr name => exact decide_eq_decide.mpr (by simp [rawItem])
  rw [marks, wants] at mapped
  rw [rawItems] at searched ⊢
  rw [Option.map_none] at searched mapped
  rw [searched, mapped, Option.map_map, locate]
  cases found : items.carrier startsWithBlock (itemNamed field) none with
  | none => rfl
  | some reached =>
      obtain ⟨block, label⟩ := reached
      rcases Forest.carrier_first startsWithBlock (itemNamed field) found with ⟨same, _⟩ |
        ⟨_, starts, _⟩
      · cases same
      · have title : blockTitle (⟨some block.1, none⟩, rawItems block.2) = block.1 := by
          rw [blockTitle, blockName, Option.filter_some, if_pos starts]
          rfl
        exact congrArg some title

end SdrAaronia.HttpEndpoints
