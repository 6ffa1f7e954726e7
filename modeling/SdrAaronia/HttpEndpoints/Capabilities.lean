import SdrAaronia.Lib.Text
import SdrAaronia.HttpEndpoints.ConfigItem

/-! # What the device says about itself

The typed `/remoteconfig` and `/healthstatus` trees are reduced to the device's identity, the
bounds of its settings and the options it offers.  Most readings are the first item of a name
anywhere in the tree.
-/

namespace SdrAaronia.HttpEndpoints

/-- A numeric setting's declared bounds. -/
structure ValueRange where
  min : F64
  max : F64
  step : Option F64
  deriving DecidableEq, Repr

/-- What the two trees tell of the device. -/
structure DeviceCapabilities where
  transport : Option String := none
  model : Option String := none
  serial : Option String := none
  version : Option String := none
  centerFrequencyHz : Option ValueRange := none
  referenceLevelDbm : Option ValueRange := none
  decimationSteps : Option Nat := none
  nativeIqRateHz : Option F64 := none
  clockSources : List String := []
  clockSource : Option String := none
  gpsModes : List String := []
  gpsMode : Option String := none
  rxAntenna : Option String := none
  deriving DecidableEq, Repr

/-- The first child group in which an item is named `marker`. -/
def childCarrying (marker : String) : ConfigItems → Option ConfigItem
  | .nil => none
  | .leaf _ rest => childCarrying marker rest
  | .group name items rest =>
    if items.leaves.any (fun leaf => decide (leaf.name = marker)) then some (.group name items)
    else childCarrying marker rest

/-- The mission block that owns an item named `marker`, or the whole tree when none does. -/
def deviceBlock (tree : ConfigItem) (marker : String) : ConfigItem :=
  match tree with
  | .leaf item => .leaf item
  | .group name items => (childCarrying marker items).getD (.group name items)

/-- The first group named `want`, depth-first. -/
def findGroup (want : String) : ConfigItems → Option ConfigItems
  | .nil => none
  | .leaf _ rest => findGroup want rest
  | .group name items rest =>
    if name = want then some items else (findGroup want items).or (findGroup want rest)

/-- A usable interval: both bounds, in order. -/
def NumericItem.range (item : NumericItem) : Option ValueRange :=
  item.min.bind fun min => item.max.bind fun max =>
    if min.isFinite && max.isFinite && decide (min < max) then some ⟨min, max, item.step⟩
    else none

/-- The declared bounds of the first numeric item named `want` that has them. -/
def rangeOf (item : ConfigItem) (want : String) : Option ValueRange :=
  item.row.findLeaf fun leaf =>
    match leaf with
    | .float item | .number item => if item.name = want then item.range else none
    | _ => none

/-- The positions of the comma-separated list, blank ones included. -/
def EnumItem.positions (item : EnumItem) : List String :=
  (Text.split (· == ',') item.values.toList).map fun piece => String.ofList (Text.trim piece)

/-- The option that `value` counts to. -/
def EnumItem.selected (item : EnumItem) : Option String :=
  if item.value < 0 then none
  else (item.positions[item.value.toNat]?).filter fun option => decide (option ≠ "")

/-- A 64-bit mask says nothing of a 65th option. -/
def EnumItem.masked (item : EnumItem) (position : Nat) : Bool :=
  decide (position < 64) && decide (item.disabled &&& (1#64 <<< position) ≠ 0)

/-- The options on offer: neither blank nor masked. -/
def EnumItem.options (item : EnumItem) : List String :=
  (item.positions.zipIdx.filter fun entry =>
    decide (entry.1 ≠ "") && !item.masked entry.2).map Prod.fst

/-- The enum item named `want`. -/
def enumNamed (want : String) (leaf : ConfigLeaf) : Option EnumItem :=
  match leaf with
  | .enum item => if item.name = want then some item else none
  | _ => none

/-- Every option the first enum named `want` offers, and the one it selects. -/
def enumOptions (item : ConfigItem) (want : String) : List String × Option String :=
  match item.row.findLeaf (enumNamed want) with
  | some found => (found.options, found.selected)
  | none => ([], none)

/-- The first numeric item named `want` in the row, whichever way it is typed. -/
def numberNamed (items : ConfigItems) (want : String) : Option F64 :=
  items.rowLeaves.findSome? fun leaf =>
    match leaf with
    | .float item | .number item => if item.name = want then some item.value else none
    | .integer name value => if name = want then some (.finite value) else none
    | _ => none

/-- The first string item named `want` in the row. -/
def stringNamed (items : ConfigItems) (want : String) : Option String :=
  items.rowLeaves.findSome? fun leaf =>
    match leaf with
    | .string name value => if name = want then some value else none
    | _ => none

/-- The first word of the device mode that names an RX input. -/
def rxInput (mode : String) : Option String :=
  ((Text.splitWhitespace mode.toList).find? fun token => "RX".toList.isPrefixOf token).map
    String.ofList

/-- The native rate: `status/iqsamples` of the block that carries `devstate`. -/
def nativeRate (health : ConfigItem) : Option F64 :=
  (findGroup "status" (deviceBlock health "devstate").row).bind (numberNamed · "iqsamples")

/-- A count of rungs, where there are any. -/
def stepsOf (count : Nat) : Option Nat := if count = 0 then none else some count

def DeviceCapabilities.ofConfig (caps : DeviceCapabilities) (config : ConfigItem) :
    DeviceCapabilities :=
  { caps with
    centerFrequencyHz := rangeOf config "centerfreq0"
    referenceLevelDbm := rangeOf config "reflevel0"
    decimationSteps := stepsOf (enumOptions config "decimation0").1.length
    model := (findGroup "info" (deviceBlock config "centerfreq0").row).bind
      (stringNamed · "title")
    clockSources := (enumOptions config "sclksource").1
    clockSource := (enumOptions config "sclksource").2
    gpsModes := (enumOptions config "gpsmode").1
    gpsMode := (enumOptions config "gpsmode").2
    rxAntenna := (enumOptions config "devicemode").2.bind rxInput }

def DeviceCapabilities.ofHealth (caps : DeviceCapabilities) (health : ConfigItem) :
    DeviceCapabilities :=
  let info := findGroup "info" (deviceBlock health "devstate").row
  { caps with
    model := (info.bind (stringNamed · "devname")).or caps.model
    serial := info.bind (stringNamed · "serialno")
    version := info.bind (stringNamed · "version")
    nativeIqRateHz := nativeRate health }

/-- Reduce the two trees; either may be missing. -/
def DeviceCapabilities.fromTrees (config health : Option ConfigItem) : DeviceCapabilities :=
  let caps : DeviceCapabilities := { transport := some "http" }
  let caps := (config.map caps.ofConfig).getD caps
  (health.map caps.ofHealth).getD caps

section FromTrees

variable (config : ConfigItem) (health : Option ConfigItem)

/-- What the configuration tells stays, whatever the health tree adds. -/
theorem fromTrees_config :
    (DeviceCapabilities.fromTrees (some config) health).decimationSteps =
        (DeviceCapabilities.ofConfig {} config).decimationSteps ∧
      (DeviceCapabilities.fromTrees (some config) health).clockSources =
        (enumOptions config "sclksource").1 ∧
      (DeviceCapabilities.fromTrees (some config) health).clockSource =
        (enumOptions config "sclksource").2 ∧
      (DeviceCapabilities.fromTrees (some config) health).gpsModes =
        (enumOptions config "gpsmode").1 ∧
      (DeviceCapabilities.fromTrees (some config) health).gpsMode =
        (enumOptions config "gpsmode").2 := by
  cases health with
  | none => exact ⟨rfl, rfl, rfl, rfl, rfl⟩
  | some tree => exact ⟨rfl, rfl, rfl, rfl, rfl⟩

end FromTrees

end SdrAaronia.HttpEndpoints
