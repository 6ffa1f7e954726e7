import SdrAaronia.Lib.Text
import SdrAaronia.HttpEndpoints.ConfigItem

/-! # The write probe

A reference level is moved by a small step, read back and restored.  What is saved and read
back is the first `float` or `number` item of the name in the typed tree, and what is written
is the item that block discovery meets in the untyped one.
-/

namespace SdrAaronia.HttpEndpoints

/-- The value of a `float` or `number` item named `target`. -/
def readingOf (target : String) (leaf : ConfigLeaf) : Option F64 :=
  if leaf.name = target then leaf.number? else none

/-- The last segment of a slash-separated path, trimmed. -/
def lastSegment (path : String) : String :=
  String.ofList (Text.trim ((Text.split (· == '/') path.toList).getLastD path.toList))

def extractParameterValue (config : ConfigItem) (parameterPath : String) : Except Error F64 :=
  match config.row.findLeaf (readingOf (lastSegment parameterPath)) with
  | some value => .ok value
  | none => .error (.protocol s!"Parameter {parameterPath} not found in configuration tree")

/-- How the server sets the item that an accepted write names.  A `float` or `number` item
takes the value, where that is a number in JSON; what another type makes of it is open. -/
structure FieldWrite where
  assign : ConfigLeaf → F64 → ConfigLeaf
  name_kept : ∀ leaf value, (assign leaf value).name = leaf.name
  numeric : ∀ leaf old value, leaf.number? = some old →
    ∃ stored, assign leaf value = leaf.setNumber stored ∧ (value.isFinite = true → stored = value)
  other : ∀ leaf value, leaf.number? = none → (assign leaf value).number? = none

/-- The tree after an accepted write. -/
def FieldWrite.write (server : FieldWrite) (config : ConfigItem) (parameter : String)
    (value : F64) : ConfigItem :=
  match config with
  | .leaf item => .leaf item
  | .group name items =>
    .group name ((items.amend startsWithBlock (itemNamed parameter)
      (server.assign · value) false).getD items)

/-- How the requests of a probe end: each fails with an error, or is answered. -/
structure Requests where
  read : Except Error Unit
  discoverChange : Except Error Unit
  change : Except Error Unit
  readBack : Except Error Unit
  discoverRestore : Except Error Unit
  restore : Except Error Unit

def supported (parameter : String) : Bool := "reflevel".toList.isPrefixOf parameter.toList

/-- The item that a write of `parameter` goes to, where one is made. -/
def writtenItem (config : ConfigItem) (parameter : String) : Option (ConfigLeaf ⊕ String) :=
  match config with
  | .leaf _ => none
  | .group _ items => if supported parameter then (locate items parameter).map Prod.snd else none

/-- Write one field of the block that carries it; the answer, and the tree afterwards. -/
def applyParameterChange (server : FieldWrite) (discover put : Except Error Unit)
    (config : ConfigItem) (parameter : String) (value : F64) : Except Error Unit × ConfigItem :=
  if !supported parameter then
    (.error (.protocol s!"Unsupported parameter type: {parameter}"), config)
  else
    match discover.bind fun _ => findBlockNameWithField config parameter with
    | .error e => (.error e, config)
    | .ok _ =>
      match put with
      | .error e => (.error e, config)
      | .ok () => (.ok (), server.write config parameter value)

/-- What went wrong besides the read-back: `Change failed`, else `Restore failed`. -/
inductive ProbeFault where
  | change (error : Error)
  | restore (error : Error)
  deriving DecidableEq, Repr

structure ConfigChangeVerification where
  applied : Bool
  parameter : String
  originalValue : F64
  testValue : F64
  currentValue : F64
  error : Option ProbeFault
  deriving DecidableEq, Repr

/-- A value read back counts as the test value within a thousandth. -/
def readsAs (current test : F64) : Bool := decide ((current - test).abs < .finite (1 / 1000))

def faultOf : Except Error Unit → Except Error Unit → Option ProbeFault
  | .error e, _ => some (.change e)
  | .ok _, .error e => some (.restore e)
  | .ok _, .ok _ => none

/-- A probe: what it returns, whether its change was accepted, the tree that its read-back met,
whether its restoring write was accepted, and the tree that it leaves. -/
structure Probe where
  outcome : Except Error ConfigChangeVerification
  changed : Bool
  readBack : ConfigItem
  restored : Bool
  after : ConfigItem

/-- Read, write a test value, read back, and restore whatever the read-back said. -/
def verifyConfigChanges (server : FieldWrite) (requests : Requests) (config : ConfigItem)
    (testParameter : String) (safeDelta : F64) : Probe :=
  match requests.read.bind fun _ => extractParameterValue config testParameter with
  | .error e =>
    { outcome := .error e, changed := false, readBack := config, restored := false,
      after := config }
  | .ok originalValue =>
    let testValue := originalValue + safeDelta
    let change := applyParameterChange server requests.discoverChange requests.change config
      testParameter testValue
    let readback := requests.readBack.bind fun _ => extractParameterValue change.2 testParameter
    let restore := applyParameterChange server requests.discoverRestore requests.restore change.2
      testParameter originalValue
    { outcome := readback.map fun currentValue =>
        { applied := readsAs currentValue testValue
          parameter := testParameter
          originalValue
          testValue
          currentValue
          error := faultOf change.1 restore.1 }
      changed := change.1.isOk
      readBack := change.2
      restored := restore.1.isOk
      after := restore.2 }

theorem extractParameterValue_ok (config : ConfigItem) (parameter : String) (value : F64) :
    extractParameterValue config parameter = .ok value ↔
      config.row.leaves.findSome? (readingOf (lastSegment parameter)) = some value := by
  rw [extractParameterValue, Forest.findLeaf_leaves]
  cases config.row.leaves.findSome? (readingOf (lastSegment parameter)) with
  | none => simp
  | some found => simp

/-- A write that goes to a leaf replaces that leaf and nothing else, and goes on doing so. -/
theorem write_leaf {config : ConfigItem} {parameter : String} {leaf : ConfigLeaf}
    (located : writtenItem config parameter = some (.inl leaf)) :
    ∃ (rebuild : ConfigLeaf → ConfigItem) (before after : List ConfigLeaf),
      rebuild leaf = config ∧ leaf.name = parameter ∧
      (∀ other, (rebuild other).row.leaves = before ++ other :: after) ∧
      ∀ other, other.name = parameter →
        writtenItem (rebuild other) parameter = some (.inl other) ∧
        ∀ (server : FieldWrite) (value : F64), server.write (rebuild other) parameter value =
          rebuild (server.assign other value) := by
  cases config with
  | leaf item => cases located
  | group name items =>
      rw [writtenItem] at located
      split at located
      · rename_i supports
        obtain ⟨⟨group, label⟩, found, same⟩ := Option.map_eq_some_iff.mp located
        cases same
        obtain ⟨rebuild, before, after, whole, place⟩ := Forest.amend_leaf found
        have named : leaf.name = parameter := by
          rcases Forest.carrier_first _ _ found with ⟨none, _⟩ | ⟨_, _, first⟩
          · cases none
          · have wanted : itemNamed parameter (.inl leaf) = true := List.find?_some first
            exact of_decide_eq_true wanted
        refine ⟨fun other => .group name (rebuild other), before, after,
          congrArg (ConfigItem.group name) whole, named, ?_, ?_⟩
        · intro other
          rw [ConfigItem.row, Forest.leaves, place.row, Forest.leaves, List.append_nil]
        · intro other same
          have wanted : itemNamed parameter (.inl other) = true := decide_eq_true same
          obtain ⟨around, carried⟩ := place.finds wanted none rfl
          constructor
          · rw [writtenItem, if_pos supports, locate, carried]
            rfl
          · intro server value
            have changes := place.changes wanted
            rw [Option.isSome_none] at changes
            rw [FieldWrite.write, changes]
            rfl
      · cases located

theorem write_group {config : ConfigItem} {parameter name : String}
    (located : writtenItem config parameter = some (.inr name)) (server : FieldWrite)
    (value : F64) : server.write config parameter value = config := by
  cases config with
  | leaf item => cases located
  | group root items =>
      rw [writtenItem] at located
      split at located
      · obtain ⟨⟨group, label⟩, found, same⟩ := Option.map_eq_some_iff.mp located
        cases same
        have unchanged := Forest.amend_group _ _ (server.assign · value) found
        rw [Option.isSome_none] at unchanged
        rw [FieldWrite.write, unchanged]
        rfl
      · cases located

theorem applyParameterChange_cases (server : FieldWrite) (discover put : Except Error Unit)
    (config : ConfigItem) (parameter : String) (value : F64) :
    (∃ e, applyParameterChange server discover put config parameter value = (.error e, config)) ∨
    (applyParameterChange server discover put config parameter value =
        (.ok (), server.write config parameter value) ∧
      (writtenItem config parameter).isSome = true) := by
  unfold applyParameterChange
  split
  · exact Or.inl ⟨_, rfl⟩
  · rename_i supports
    rw [Bool.not_eq_true', Bool.not_eq_false] at supports
    split
    · exact Or.inl ⟨_, rfl⟩
    · rename_i block found
      split
      · exact Or.inl ⟨_, rfl⟩
      · refine Or.inr ⟨rfl, ?_⟩
        cases discover with
        | error e => cases found
        | ok answered =>
            cases config with
            | leaf item => cases found
            | group name items =>
                simp only [Except.bind, findBlockNameWithField,
                  findBlockNameCarryingField_locate] at found
                rw [writtenItem, if_pos supports]
                cases located : locate items parameter with
                | none => simp [located] at found
                | some reached => rfl

theorem applyParameterChange_answered (server : FieldWrite) {config : ConfigItem}
    {parameter : String} (reached : (writtenItem config parameter).isSome = true) (value : F64) :
    applyParameterChange server (.ok ()) (.ok ()) config parameter value =
      (.ok (), server.write config parameter value) := by
  cases config with
  | leaf item => cases reached
  | group name items =>
      rw [writtenItem] at reached
      split at reached
      · rename_i supports
        rw [Option.isSome_map] at reached
        obtain ⟨located, known⟩ := Option.isSome_iff_exists.mp reached
        simp [applyParameterChange, supports, Except.bind, findBlockNameWithField,
          findBlockNameCarryingField_locate, known]
      · cases reached

theorem applyParameterChange_refused (server : FieldWrite) (discover : Except Error Unit)
    (e : Error) (config : ConfigItem) (parameter : String) (value : F64) :
    (applyParameterChange server discover (.error e) config parameter value).1.isOk = false ∧
      (applyParameterChange server discover (.error e) config parameter value).2 = config := by
  unfold applyParameterChange
  split
  · exact ⟨rfl, rfl⟩
  · split
    · exact ⟨rfl, rfl⟩
    · exact ⟨rfl, rfl⟩

/-- The tree that is left is the tree that was met, if the restoring write was accepted. -/
def Probe.Restored (probe : Probe) (config : ConfigItem) : Prop :=
  probe.restored = true → probe.after = config

/-- A change is reported as applied only if it was accepted and the item written reads back as
the test value. -/
def Probe.Confirmed (probe : Probe) (parameter : String) : Prop :=
  ∀ verification, probe.outcome = .ok verification → verification.applied = true →
    probe.changed = true ∧
      ∃ leaf value, writtenItem probe.readBack parameter = some (.inl leaf) ∧
        leaf.number? = some value ∧ readsAs value verification.testValue = true

/-- The step is too large for the saved value to read as the test value, and an item written
holds that value, or is no number and comes out of the two writes as it was. -/
def Restorable (server : FieldWrite) (config : ConfigItem) (parameter : String)
    (safeDelta : F64) : Prop :=
  ∀ original, extractParameterValue config parameter = .ok original →
    readsAs original (original + safeDelta) = false ∧
      ∀ leaf, writtenItem config parameter = some (.inl leaf) →
        leaf.number? = some original ∨
          (leaf.number? = none ∧ server.assign leaf original = leaf ∧
            server.assign (server.assign leaf (original + safeDelta)) original = leaf)

/-- JSON has no infinities and no NaN. -/
def ConfigItem.Json (config : ConfigItem) : Prop :=
  ∀ leaf ∈ config.row.leaves, ∀ value, leaf.number? = some value → value.isFinite = true

theorem reading_replaced {before after : List ConfigLeaf} {leaf other : ConfigLeaf}
    {target : String} {original current : F64} (name : other.name = leaf.name)
    (kind : other.number?.isSome = leaf.number?.isSome)
    (saved : (before ++ leaf :: after).findSome? (readingOf target) = some original)
    (now : (before ++ other :: after).findSome? (readingOf target) = some current) :
    current = original ∨ other.number? = some current := by
  rw [List.findSome?_append, List.findSome?_cons] at saved now
  cases first : before.findSome? (readingOf target) with
  | some known =>
      rw [first] at saved now
      exact Or.inl (Option.some.inj (now.symm.trans saved))
  | none =>
      rw [first, Option.none_or] at saved now
      rw [readingOf, name] at now
      rw [readingOf] at saved
      by_cases same : leaf.name = target
      · rw [if_pos same] at saved now
        cases here : other.number? with
        | some stored =>
            rw [here] at now
            exact Or.inr now
        | none =>
            have unread : leaf.number? = none := by
              rw [here, Option.isSome_none] at kind
              exact Option.isNone_iff_eq_none.mp (Option.isSome_eq_false_iff.mp kind.symm)
            rw [here] at now
            rw [unread] at saved
            exact Or.inl (Option.some.inj (now.symm.trans saved))
      · rw [if_neg same] at saved now
        exact Or.inl (Option.some.inj (now.symm.trans saved))

theorem reading_unread {before after : List ConfigLeaf} {leaf other : ConfigLeaf}
    (target : String) (unread : leaf.number? = none) (stillUnread : other.number? = none) :
    (before ++ other :: after).findSome? (readingOf target) =
      (before ++ leaf :: after).findSome? (readingOf target) := by
  have passes : readingOf target leaf = none := by simp [readingOf, unread]
  have passesToo : readingOf target other = none := by simp [readingOf, stillUnread]
  rw [List.findSome?_append, List.findSome?_append, List.findSome?_cons, List.findSome?_cons,
    passes, passesToo]

theorem verifyConfigChanges_saved (server : FieldWrite) {requests : Requests}
    {config : ConfigItem} {parameter : String} {safeDelta original : F64}
    (read : requests.read = .ok ())
    (saved : extractParameterValue config parameter = .ok original) :
    verifyConfigChanges server requests config parameter safeDelta =
      let change := applyParameterChange server requests.discoverChange requests.change config
        parameter (original + safeDelta)
      let restore := applyParameterChange server requests.discoverRestore requests.restore
        change.2 parameter original
      { outcome := (requests.readBack.bind fun _ =>
          extractParameterValue change.2 parameter).map fun currentValue =>
            { applied := readsAs currentValue (original + safeDelta)
              parameter
              originalValue := original
              testValue := original + safeDelta
              currentValue
              error := faultOf change.1 restore.1 }
        changed := change.1.isOk
        readBack := change.2
        restored := restore.1.isOk
        after := restore.2 } := by
  simp only [verifyConfigChanges, read, Except.bind, saved]

theorem probe_of_unsaved (server : FieldWrite) (requests : Requests)
    (config : ConfigItem) (parameter : String) (safeDelta : F64)
    (unsaved : ∀ original, extractParameterValue config parameter = .ok original →
      ∃ e, requests.read = .error e) :
    (verifyConfigChanges server requests config parameter safeDelta).Restored config ∧
      (verifyConfigChanges server requests config parameter safeDelta).Confirmed parameter := by
  have stopped : ∃ e, verifyConfigChanges server requests config parameter safeDelta =
      { outcome := .error e, changed := false, readBack := config, restored := false,
        after := config } := by
    rw [verifyConfigChanges]
    cases read : requests.read with
    | error e => exact ⟨e, rfl⟩
    | ok answered =>
        cases saved : extractParameterValue config parameter with
        | error e => exact ⟨e, by simp only [Except.bind]⟩
        | ok original =>
            obtain ⟨e, failed⟩ := unsaved original saved
            rw [read] at failed
            cases failed
  obtain ⟨e, stopped⟩ := stopped
  rw [stopped]
  constructor
  · intro restored
    cases restored
  · intro verification done
    cases done

section Saved

variable {server : FieldWrite} {config : ConfigItem} {parameter : String}
  {safeDelta original : F64}

theorem applyParameterChange_unmoved (noLeaf : ∀ leaf, writtenItem config parameter ≠
    some (.inl leaf)) (discover put : Except Error Unit) (value : F64) :
    (applyParameterChange server discover put config parameter value).2 = config := by
  rcases applyParameterChange_cases server discover put config parameter value with
    ⟨e, failed⟩ | ⟨accepted, reached⟩
  · rw [failed]
  · rw [accepted]
    cases located : writtenItem config parameter with
    | none =>
        rw [located] at reached
        cases reached
    | some label =>
        cases label with
        | inl leaf => exact absurd located (noLeaf leaf)
        | inr name => exact write_group located server value

variable {requests : Requests} (read : requests.read = .ok ())
  (saved : extractParameterValue config parameter = .ok original)

include read saved

theorem restored_of_back
    (back : server.write (applyParameterChange server requests.discoverChange requests.change
      config parameter (original + safeDelta)).2 parameter original = config) :
    (verifyConfigChanges server requests config parameter safeDelta).Restored config := by
  rw [verifyConfigChanges_saved server read saved]
  intro restored
  rcases applyParameterChange_cases server requests.discoverRestore requests.restore
    (applyParameterChange server requests.discoverChange requests.change config parameter
      (original + safeDelta)).2 parameter original with ⟨e, failed⟩ | ⟨accepted, _⟩
  · simp only [failed] at restored
    cases restored
  · simp only [accepted, back]

/-- A probe that answers read some value back and compared it with the test value. -/
theorem answered_reads {verification : ConfigChangeVerification}
    (done : (verifyConfigChanges server requests config parameter safeDelta).outcome =
      .ok verification) :
    ∃ current, extractParameterValue (applyParameterChange server requests.discoverChange
        requests.change config parameter (original + safeDelta)).2 parameter = .ok current ∧
      verification.testValue = original + safeDelta ∧
      verification.applied = readsAs current (original + safeDelta) := by
  rw [verifyConfigChanges_saved server read saved] at done
  simp only at done
  cases answered : requests.readBack with
  | error e =>
      rw [answered] at done
      cases done
  | ok answer =>
      rw [answered, Except.bind] at done
      cases now : extractParameterValue (applyParameterChange server requests.discoverChange
          requests.change config parameter (original + safeDelta)).2 parameter with
      | error e =>
          rw [now] at done
          cases done
      | ok current =>
          rw [now] at done
          cases done
          exact ⟨current, rfl, rfl, rfl⟩

variable (apart : readsAs original (original + safeDelta) = false)

include apart

theorem confirmed_of_unmoved
    (unmoved : ∀ current, extractParameterValue (applyParameterChange server
      requests.discoverChange requests.change config parameter (original + safeDelta)).2
        parameter = .ok current → current = original) :
    (verifyConfigChanges server requests config parameter safeDelta).Confirmed parameter := by
  intro verification done applied
  obtain ⟨current, now, -, compared⟩ := answered_reads read saved done
  rw [compared, unmoved current now, apart] at applied
  cases applied

theorem confirmed_of_failed {e : Error}
    (failed : applyParameterChange server requests.discoverChange requests.change config parameter
      (original + safeDelta) = (.error e, config)) :
    (verifyConfigChanges server requests config parameter safeDelta).Confirmed parameter := by
  refine confirmed_of_unmoved read saved apart ?_
  intro current now
  rw [failed, saved] at now
  exact (Except.ok.inj now).symm

theorem probe_of_same_value (finite : original.isFinite = true) {leaf : ConfigLeaf}
    (located : writtenItem config parameter = some (.inl leaf))
    (numeric : leaf.number? = some original) :
    (verifyConfigChanges server requests config parameter safeDelta).Restored config ∧
      (verifyConfigChanges server requests config parameter safeDelta).Confirmed parameter := by
  obtain ⟨rebuild, before, after, rfl, name, row, place⟩ := write_leaf located
  rcases applyParameterChange_cases server requests.discoverChange requests.change
    (rebuild leaf) parameter (original + safeDelta) with ⟨e, failed⟩ | ⟨accepted, _⟩
  · refine ⟨restored_of_back read saved ?_, confirmed_of_failed read saved apart failed⟩
    obtain ⟨last, assigned, exact⟩ := server.numeric leaf original original numeric
    rw [failed, (place leaf name).2, assigned, exact finite, leaf.setNumber_same numeric]
  · obtain ⟨stored, assigned, -⟩ := server.numeric leaf original (original + safeDelta) numeric
    have newName : (leaf.setNumber stored).name = parameter := by rw [leaf.setNumber_name, name]
    have newValue := ConfigLeaf.setNumber_number? stored numeric
    have changedTree : (applyParameterChange server requests.discoverChange requests.change
        (rebuild leaf) parameter (original + safeDelta)).2 = rebuild (leaf.setNumber stored) := by
      rw [accepted, (place leaf name).2, assigned]
    constructor
    · refine restored_of_back read saved ?_
      obtain ⟨last, reassigned, exact⟩ := server.numeric _ stored original newValue
      rw [changedTree, (place _ newName).2, reassigned, exact finite, leaf.setNumber_setNumber,
        leaf.setNumber_same numeric]
    · intro verification done applied
      obtain ⟨current, now, test, compared⟩ := answered_reads read saved done
      rw [compared] at applied
      have moved : current ≠ original := by
        rintro rfl
        rw [apart] at applied
        cases applied
      have first := saved
      rw [extractParameterValue_ok, row] at first
      rw [changedTree, extractParameterValue_ok, row] at now
      have fresh := (reading_replaced (leaf.setNumber_name stored) (by rw [newValue, numeric]; rfl)
        first now).resolve_left moved
      rw [newValue] at fresh
      rw [verifyConfigChanges_saved server read saved, test]
      simp only [changedTree]
      refine ⟨by rw [accepted]; rfl, leaf.setNumber stored, stored, (place _ newName).1, newValue,
        ?_⟩
      rw [Option.some.inj fresh]
      exact applied

theorem probe_of_unread {leaf : ConfigLeaf}
    (located : writtenItem config parameter = some (.inl leaf)) (unread : leaf.number? = none)
    (once : server.assign leaf original = leaf)
    (twice : server.assign (server.assign leaf (original + safeDelta)) original = leaf) :
    (verifyConfigChanges server requests config parameter safeDelta).Restored config ∧
      (verifyConfigChanges server requests config parameter safeDelta).Confirmed parameter := by
  obtain ⟨rebuild, before, after, rfl, name, row, place⟩ := write_leaf located
  rcases applyParameterChange_cases server requests.discoverChange requests.change
    (rebuild leaf) parameter (original + safeDelta) with ⟨e, failed⟩ | ⟨accepted, _⟩
  · refine ⟨restored_of_back read saved ?_, confirmed_of_failed read saved apart failed⟩
    rw [failed, (place leaf name).2, once]
  · have newName := (server.name_kept leaf (original + safeDelta)).trans name
    constructor
    · refine restored_of_back read saved ?_
      rw [accepted, (place leaf name).2, (place _ newName).2, twice]
    · refine confirmed_of_unmoved read saved apart ?_
      intro current now
      rw [accepted, (place leaf name).2, extractParameterValue_ok, row,
        reading_unread _ unread (server.other leaf _ unread), ← row, ← extractParameterValue_ok,
        saved] at now
      exact (Except.ok.inj now).symm

theorem probe_of_unwritten (noLeaf : ∀ leaf, writtenItem config parameter ≠ some (.inl leaf)) :
    (verifyConfigChanges server requests config parameter safeDelta).Restored config ∧
      (verifyConfigChanges server requests config parameter safeDelta).Confirmed parameter := by
  have unmoved : ∀ discover put value,
      (applyParameterChange server discover put config parameter value).2 = config :=
    applyParameterChange_unmoved noLeaf
  constructor
  · rw [verifyConfigChanges_saved server read saved]
    intro restored
    simp only [unmoved]
  · refine confirmed_of_unmoved read saved apart ?_
    intro current now
    rw [unmoved, saved] at now
    exact (Except.ok.inj now).symm

end Saved

/-- Every request is answered, except that the change may be refused. -/
def Requests.allBut (change : Except Error Unit) : Requests where
  read := .ok ()
  discoverChange := .ok ()
  change := change
  readBack := .ok ()
  discoverRestore := .ok ()
  restore := .ok ()

theorem extractParameterValue_finite {config : ConfigItem} (json : config.Json)
    {parameter : String} {original : F64}
    (saved : extractParameterValue config parameter = .ok original) :
    original.isFinite = true := by
  rw [extractParameterValue_ok] at saved
  obtain ⟨leaf, inside, reading⟩ := List.exists_of_findSome?_eq_some saved
  rw [readingOf] at reading
  split at reading
  · exact json leaf inside original reading
  · cases reading

section Honest

variable {server : FieldWrite} {config : ConfigItem} {parameter : String} {safeDelta : F64}

/-- A refused change is only told from an accepted one by the read-back. -/
theorem apart_of_confirmed {original : F64}
    (saved : extractParameterValue config parameter = .ok original)
    (confirmed : (verifyConfigChanges server (.allBut (.error .unexpectedEof)) config parameter
      safeDelta).Confirmed parameter) :
    readsAs original (original + safeDelta) = false := by
  obtain ⟨unchanged, unmoved⟩ := applyParameterChange_refused server (.ok ()) .unexpectedEof config
    parameter (original + safeDelta)
  rw [verifyConfigChanges_saved server rfl saved] at confirmed
  simp only [Probe.Confirmed, Requests.allBut, Except.bind, unmoved, unchanged, saved, Except.map]
    at confirmed
  cases reads : readsAs original (original + safeDelta) with
  | false => rfl
  | true =>
      have changed := (confirmed _ rfl reads).1
      cases changed

theorem write_answered {rebuild : ConfigLeaf → ConfigItem} {leaf : ConfigLeaf}
    (located : writtenItem (rebuild leaf) parameter = some (.inl leaf))
    (writes : ∀ (server : FieldWrite) (value : F64), server.write (rebuild leaf) parameter value =
      rebuild (server.assign leaf value)) (value : F64) :
    applyParameterChange server (.ok ()) (.ok ()) (rebuild leaf) parameter value =
      (.ok (), rebuild (server.assign leaf value)) := by
  have reached : (writtenItem (rebuild leaf) parameter).isSome = true := by
    rw [located]
    rfl
  rw [applyParameterChange_answered server reached, writes]

/-- A probe that is honest under every pattern of failures has a restorable tree. -/
theorem restorable_of_honest (json : config.Json)
    (honest : ∀ requests,
      (verifyConfigChanges server requests config parameter safeDelta).Restored config ∧
      (verifyConfigChanges server requests config parameter safeDelta).Confirmed parameter) :
    Restorable server config parameter safeDelta := by
  intro original saved
  have finite := extractParameterValue_finite json saved
  refine ⟨apart_of_confirmed saved (honest _).2, ?_⟩
  intro leaf located
  obtain ⟨rebuild, before, after, rfl, name, row, place⟩ := write_leaf located
  have same : ∀ other, rebuild other = rebuild leaf → other = leaf := by
    intro other equal
    have rows := row other
    rw [equal, row leaf] at rows
    exact (List.cons.inj (List.append_cancel_left rows)).1.symm
  have written : ∀ other value, other.name = parameter →
      applyParameterChange server (.ok ()) (.ok ()) (rebuild other) parameter value =
        (.ok (), rebuild (server.assign other value)) :=
    fun other value named => write_answered (place other named).1 (place other named).2 value
  have twice : server.assign (server.assign leaf (original + safeDelta)) original = leaf := by
    have restored := (honest (.allBut (.ok ()))).1
    rw [verifyConfigChanges_saved server rfl saved] at restored
    simp only [Probe.Restored, Requests.allBut, written leaf (original + safeDelta) name,
      written _ original ((server.name_kept leaf _).trans name)] at restored
    exact same _ (restored rfl)
  cases numeric : leaf.number? with
  | some value =>
      obtain ⟨stored, assigned, _⟩ := server.numeric leaf value (original + safeDelta) numeric
      obtain ⟨last, settled, exact⟩ := server.numeric (leaf.setNumber stored) stored original
        (ConfigLeaf.setNumber_number? stored numeric)
      rw [assigned, settled, exact finite, leaf.setNumber_setNumber] at twice
      have kept := ConfigLeaf.setNumber_number? original numeric
      rw [twice, numeric] at kept
      exact Or.inl kept
  | none =>
      refine Or.inr ⟨rfl, ?_, twice⟩
      have restored := (honest (.allBut (.error .unexpectedEof))).1
      rw [verifyConfigChanges_saved server rfl saved] at restored
      have refused := (applyParameterChange_refused server (.ok ()) .unexpectedEof (rebuild leaf)
        parameter (original + safeDelta)).2
      simp only [Probe.Restored, Requests.allBut, refused, written leaf original name] at restored
      exact same _ (restored rfl)

theorem honest_of_restorable (json : config.Json)
    (restorable : Restorable server config parameter safeDelta) (requests : Requests) :
    (verifyConfigChanges server requests config parameter safeDelta).Restored config ∧
      (verifyConfigChanges server requests config parameter safeDelta).Confirmed parameter := by
  cases read : requests.read with
  | error e => exact probe_of_unsaved _ _ _ _ _ fun _ _ => ⟨e, read⟩
  | ok answered =>
      cases saved : extractParameterValue config parameter with
      | error e =>
          refine probe_of_unsaved _ _ _ _ _ fun original impossible => ?_
          rw [saved] at impossible
          cases impossible
      | ok original =>
          obtain ⟨apart, items⟩ := restorable original saved
          by_cases leafy : ∃ leaf, writtenItem config parameter = some (.inl leaf)
          · obtain ⟨leaf, located⟩ := leafy
            rcases items leaf located with numeric | ⟨unread, once, twice⟩
            · exact probe_of_same_value read saved apart
                (extractParameterValue_finite json saved) located numeric
            · exact probe_of_unread read saved apart located unread once twice
          · exact probe_of_unwritten read saved apart fun leaf located => leafy ⟨leaf, located⟩

end Honest

/-- Whatever requests fail, the probe restores what it changed and reports a change only where
it made one, exactly when the tree is restorable. -/
theorem probe_honest_iff (server : FieldWrite) (config : ConfigItem) (parameter : String)
    (safeDelta : F64) (json : config.Json) :
    (∀ requests,
      (verifyConfigChanges server requests config parameter safeDelta).Restored config ∧
      (verifyConfigChanges server requests config parameter safeDelta).Confirmed parameter) ↔
    Restorable server config parameter safeDelta :=
  ⟨restorable_of_honest json, honest_of_restorable json⟩

/-- A server that sets numbers and leaves every other type alone. -/
def numericServer : FieldWrite where
  assign leaf value := leaf.setNumber value
  name_kept leaf value := leaf.setNumber_name value
  numeric leaf _ value _ := ⟨value, rfl, fun _ => rfl⟩
  other leaf value unread := by
    cases leaf <;> first | rfl | cases unread

def levelItem (value : ℚ) : ConfigLeaf := .float ⟨"reflevel0", .finite value, none, none, none⟩

/-- A scene may carry a level of its own in front of the receiver block's. -/
def levelInScene (scene : ConfigItems) : ConfigItem :=
  .group "remoteconfig"
    (.group "scene" scene
      (.group "Block_Spectran_V6Eco_0"
        (.group "config" (.group "main" (.leaf (levelItem (-10)) .nil) .nil) .nil) .nil))

theorem probe_honest_plain :
    (verifyConfigChanges numericServer (.allBut (.ok ())) (levelInScene .nil) "reflevel0"
        1).Restored (levelInScene .nil) ∧
      (verifyConfigChanges numericServer (.allBut (.ok ())) (levelInScene .nil) "reflevel0"
        1).Confirmed "reflevel0" :=
  (probe_honest_iff numericServer (levelInScene .nil) "reflevel0" 1
    (by simp [ConfigItem.Json, levelInScene, ConfigItem.row, Forest.leaves, levelItem,
      ConfigLeaf.number?])).mpr
    (fun original saved => by
      cases saved
      refine ⟨by decide +kernel, fun leaf located => Or.inl ?_⟩
      have item : writtenItem (levelInScene .nil) "reflevel0" = some (.inl (levelItem (-10))) := by
        decide
      cases item.symm.trans located
      rfl) (.allBut (.ok ()))

/-- The receiver is left on the level that the scene carries. -/
theorem probe_restores_scene_level :
    (blockNames (rawItems (levelInScene (.leaf (levelItem 20) .nil)).row)).Nodup ∧
      ¬ ∀ requests,
        (verifyConfigChanges numericServer requests (levelInScene (.leaf (levelItem 20) .nil))
          "reflevel0" 1).Restored (levelInScene (.leaf (levelItem 20) .nil)) ∧
        (verifyConfigChanges numericServer requests (levelInScene (.leaf (levelItem 20) .nil))
          "reflevel0" 1).Confirmed "reflevel0" := by
  refine ⟨by decide, fun honest => ?_⟩
  have restored := (honest (.allBut (.ok ()))).1 (by decide)
  exact absurd restored (by decide)

end SdrAaronia.HttpEndpoints
