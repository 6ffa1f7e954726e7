import SdrAaronia.HttpEndpoints.Capabilities

/-! # Setting the clock source and the GPS mode

A label is written to the block that carries `centerfreq0`, and the capabilities are read
again to confirm it.  The reading is that of the first enum of the name anywhere in the tree.
-/

namespace SdrAaronia.HttpEndpoints

/-- An enum of the `device` group that a client can set. -/
structure DeviceSetting where
  field : String
  noun : String
  reported : DeviceCapabilities → Option String
  offered : DeviceCapabilities → List String

def clockSource : DeviceSetting where
  field := "sclksource"
  noun := "clock source"
  reported := DeviceCapabilities.clockSource
  offered := DeviceCapabilities.clockSources

def gpsMode : DeviceSetting where
  field := "gpsmode"
  noun := "GPS mode"
  reported := DeviceCapabilities.gpsMode
  offered := DeviceCapabilities.gpsModes

inductive SettingError where
  /-- Discovery or the write failed. -/
  | request (error : Error)
  /-- The device answered, and is on another option. -/
  | didNotTake (block requested reported : String) (offered : List String)
  deriving DecidableEq, Repr

def SettingError.toError (setting : DeviceSetting) : SettingError → Error
  | .request error => error
  | .didNotTake block requested reported offered =>
    let offers := if offered.isEmpty then "(none reported)" else ", ".intercalate offered
    .config (s!"{setting.noun} did not take on {block}: requested `{requested}`, device reports " ++
      s!"`{reported}`. This device offers: {offers}")

/-- The items without what is in the block's own `device` groups, those of the blocks nested in
it left alone. -/
def withoutDevice (block : String) : ConfigItems → (inside : Bool) → ConfigItems
  | .nil, _ => .nil
  | .leaf item rest, inside => .leaf item (withoutDevice block rest inside)
  | .group name items rest, inside =>
    .group name
      (if inside && decide (name = "device") then .nil
        else withoutDevice block items
          (if startsWithBlock name then decide (name = block) else inside))
      (withoutDevice block rest inside)

/-- The tree that a setter discovers its block in and the tree that it reads back: an accepted
write changes at most the `device` group of the block named. -/
structure DeviceWrite where
  before : ConfigItem
  after : ConfigItem
  reaches : ∀ block, findBlockNameWithField before "centerfreq0" = .ok block →
    withoutDevice block before.row false = withoutDevice block after.row false

/-- How the requests of a setter end, and what the health read answers. -/
structure SetterRequests where
  discover : Except Error Unit
  put : Except Error Unit
  readBack : Except Error Unit
  health : Option ConfigItem

/-- The capabilities after the write; a read that fails leaves its half out. -/
def capabilitiesAfter (requests : SetterRequests) (write : DeviceWrite) : DeviceCapabilities :=
  .fromTrees (if requests.readBack.isOk then some write.after else none) requests.health

/-- Discover the block, write the label, and read the setting again. -/
def setDeviceEnum (setting : DeviceSetting) (requests : SetterRequests) (write : DeviceWrite)
    (label : String) : Except SettingError (Option String) :=
  match requests.discover.bind fun _ => findBlockNameWithField write.before "centerfreq0" with
  | .error e => .error (.request e)
  | .ok block =>
    match requests.put with
    | .error e => .error (.request e)
    | .ok () =>
      let caps := capabilitiesAfter requests write
      match setting.reported caps with
      | some got =>
        if Text.eqIgnoreAsciiCase got label then .ok (some got)
        else .error (.didNotTake block label got (setting.offered caps))
      | none => .ok none

def setClockSource := setDeviceEnum clockSource

def setGpsMode := setDeviceEnum gpsMode

/-- The items that `device/…` names in a block: those of its own `device` groups, and of no block
nested in it. -/
def deviceItems : ConfigItems → List ConfigLeaf
  | .nil => []
  | .leaf _ rest => deviceItems rest
  | .group name items rest =>
    (if name = "device" then items.rowLeaves
      else if startsWithBlock name then []
      else deviceItems items) ++ deviceItems rest

/-- What the enum `device/<field>` of the block selects. -/
def ownSelection (config : ConfigItem) (block field : String) : Option String :=
  (findGroup block config.row).bind fun items =>
    ((deviceItems items).findSome? (enumNamed field)).bind EnumItem.selected

/-- A confirmation names the written block's own option, and a refusal means that the block is
on another one. -/
def TellsOfBlock (field : String) (write : DeviceWrite) (label : String)
    (answer : Except SettingError (Option String)) : Prop :=
  ∀ block, findBlockNameWithField write.before "centerfreq0" = .ok block →
    (∀ got, answer = .ok (some got) → ownSelection write.after block field = some got) ∧
    (∀ named requested reported offered,
      answer = .error (.didNotTake named requested reported offered) →
        ∀ own, ownSelection write.after block field = some own →
          Text.eqIgnoreAsciiCase own label = false)

/-- The first enum of the name in the whole tree selects nothing, or what `device/<field>` of the
written block selects. -/
def ReadsOwn (field : String) (write : DeviceWrite) : Prop :=
  ∀ block, findBlockNameWithField write.before "centerfreq0" = .ok block →
    (enumOptions write.after field).2 = none ∨
      ownSelection write.after block field = (enumOptions write.after field).2

theorem setDeviceEnum_cases (setting : DeviceSetting) (requests : SetterRequests)
    (write : DeviceWrite) (label : String) :
    (∃ e, setDeviceEnum setting requests write label = .error (.request e)) ∨
    setDeviceEnum setting requests write label = .ok none ∨
    ∃ got, setting.reported (capabilitiesAfter requests write) = some got ∧
      ((Text.eqIgnoreAsciiCase got label = true ∧
          setDeviceEnum setting requests write label = .ok (some got)) ∨
        (Text.eqIgnoreAsciiCase got label = false ∧ ∃ block,
          setDeviceEnum setting requests write label = .error
            (.didNotTake block label got
              (setting.offered (capabilitiesAfter requests write))))) := by
  unfold setDeviceEnum
  cases requests.discover.bind fun _ => findBlockNameWithField write.before "centerfreq0" with
  | error e => exact Or.inl ⟨e, rfl⟩
  | ok block =>
      cases requests.put with
      | error e => exact Or.inl ⟨e, rfl⟩
      | ok answered =>
          cases read : setting.reported (capabilitiesAfter requests write) with
          | none =>
              refine Or.inr (Or.inl ?_)
              simp only [read]
          | some got =>
              refine Or.inr (Or.inr ⟨got, rfl, ?_⟩)
              simp only [read]
              cases same : Text.eqIgnoreAsciiCase got label with
              | true => exact Or.inl ⟨rfl, rfl⟩
              | false => exact Or.inr ⟨rfl, block, rfl⟩

section Setting

variable (setting : DeviceSetting)
  (reads : ∀ config health, setting.reported (.fromTrees (some config) health) =
    (enumOptions config setting.field).2)
  (blind : ∀ health, setting.reported (.fromTrees none health) = none)

include reads blind

theorem reported_after {requests : SetterRequests} {write : DeviceWrite} {got : String}
    (read : setting.reported (capabilitiesAfter requests write) = some got) :
    (enumOptions write.after setting.field).2 = some got := by
  rw [capabilitiesAfter] at read
  split at read
  · rw [← reads write.after requests.health, read]
  · rw [blind] at read
    cases read

/-- For every label a setter tells of the written block, whatever requests fail, exactly when
the first enum of the tree agrees with the block's own. -/
theorem setDeviceEnum_iff (write : DeviceWrite) :
    (∀ requests label, TellsOfBlock setting.field write label
      (setDeviceEnum setting requests write label)) ↔ ReadsOwn setting.field write := by
  constructor
  · intro tells block located
    cases first : (enumOptions write.after setting.field).2 with
    | none => exact Or.inl rfl
    | some got =>
        have read : setting.reported (capabilitiesAfter ⟨.ok (), .ok (), .ok (), none⟩ write) =
            some got := (reads write.after none).trans first
        have answer : setDeviceEnum setting ⟨.ok (), .ok (), .ok (), none⟩ write got =
            .ok (some got) := by
          simp only [setDeviceEnum, Except.bind, located, read, Text.eqIgnoreAsciiCase_refl,
            if_true]
        exact Or.inr ((tells _ got block located).1 got answer)
  · intro agrees requests label block located
    rcases setDeviceEnum_cases setting requests write label with ⟨e, failed⟩ | unread |
      ⟨got, read, ⟨same, confirmed⟩ | ⟨other, named, refused⟩⟩
    · rw [failed]
      exact ⟨fun _ done => (by cases done), fun _ _ _ _ done => (by cases done)⟩
    · rw [unread]
      exact ⟨fun _ done => (by cases done), fun _ _ _ _ done => (by cases done)⟩
    all_goals
      have own : ownSelection write.after block setting.field = some got := by
        have first := reported_after setting reads blind read
        rcases agrees block located with nothing | agree
        · rw [first] at nothing
          cases nothing
        · rw [agree, first]
    · rw [confirmed]
      refine ⟨?_, fun _ _ _ _ done => (by cases done)⟩
      intro option done
      cases done
      exact own
    · rw [refused]
      refine ⟨fun _ done => (by cases done), ?_⟩
      intro _ _ _ _ _ option selected
      rw [own] at selected
      cases selected
      exact other

end Setting

theorem setters_tell_of_block_iff (write : DeviceWrite) :
    ((∀ requests label, TellsOfBlock "sclksource" write label
        (setClockSource requests write label)) ↔ ReadsOwn "sclksource" write) ∧
    ((∀ requests label, TellsOfBlock "gpsmode" write label
        (setGpsMode requests write label)) ↔ ReadsOwn "gpsmode" write) :=
  ⟨setDeviceEnum_iff clockSource
      (fun config health => (fromTrees_config config health).2.2.1)
      (fun health => by cases health <;> rfl) write,
    setDeviceEnum_iff gpsMode
      (fun config health => (fromTrees_config config health).2.2.2.2)
      (fun health => by cases health <;> rfl) write⟩

def clockGroup (clock : Int) : ConfigItems :=
  .group "device" (.leaf (.enum ⟨"sclksource", clock, "Consumer,10MHz", 0⟩) .nil) .nil

/-- A block with a clock of its own stands in front of the receiver. -/
def twoClocks (receiverClock : Int) : ConfigItem :=
  .group "remoteconfig"
    (.group "Block_Converter_0" (.group "config" (clockGroup 0) .nil)
      (.group "Block_Spectran_V6Eco_0"
        (.group "config"
          (.group "main" (.leaf (.float ⟨"centerfreq0", 100, none, none, none⟩) .nil)
            (clockGroup receiverClock)) .nil) .nil))

/-- The receiver goes from `Consumer` to `10MHz`. -/
def receiverSwitched : DeviceWrite where
  before := twoClocks 0
  after := twoClocks 1
  reaches block located := by
    have named : findBlockNameWithField (twoClocks 0) "centerfreq0" =
        .ok "Block_Spectran_V6Eco_0" := rfl
    cases named.symm.trans located
    decide

/-- The switch is refused, though the receiver made it: the converter's clock was read. -/
theorem setClockSource_reads_converter :
    (blockNames (rawItems (twoClocks 0).row)).Nodup ∧
      ¬ ∀ requests label, TellsOfBlock "sclksource" receiverSwitched label
        (setClockSource requests receiverSwitched label) := by
  refine ⟨by decide, fun tells => ?_⟩
  have told := (tells ⟨.ok (), .ok (), .ok (), none⟩ "10MHz" "Block_Spectran_V6Eco_0" rfl).2
    "Block_Spectran_V6Eco_0" "10MHz" "Consumer" ["Consumer", "10MHz"] (by decide) "10MHz"
    (by decide)
  exact absurd told (by decide)

end SdrAaronia.HttpEndpoints
