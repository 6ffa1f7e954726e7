import Mathlib.Tactic.Ring
import SdrAaronia.HttpEndpoints.Capabilities

/-! # The advertised rate ladder

The options of `decimation0` are counted, and the ladder is rebuilt from the count below the
rung that the measured native rate names.
-/

namespace SdrAaronia.HttpEndpoints

def receiverClocksHz : List F64 :=
  [46080000, 61440000, 76800000, 92160000, 122880000, 184320000, 245760000, 491520000]

def iqRateClockRatio : F64 := .finite (3 / 2)

/-- How far a measured rate may sit from a ladder top, as a share of it. -/
def ladderTopTolerance : F64 := .finite (1 / 100)

/-- The top rungs of the known receiver clocks. -/
def ladderTops : List F64 := receiverClocksHz.map fun clock => clock / iqRateClockRatio

def withinTolerance (measuredHz top : F64) : Bool :=
  decide ((measuredHz - top).abs / top ≤ ladderTopTolerance)

/-- The top rung that a measured native rate names. -/
def snapToLadderTop (measuredHz : F64) : Option F64 :=
  if !measuredHz.isFinite || decide (measuredHz ≤ 0) then none
  else ladderTops.find? (withinTolerance measuredHz)

/-- Two to a power as a double: past the last exponent it is infinite. -/
def twoPowi (n : Nat) : F64 := if n < 1024 then .finite (2 ^ n) else .inf false

/-- The ladder below `topHz`, `rungs` deep.  The exponent is held at the largest `i32`. -/
def iqLadderFromTopN (topHz : F64) (rungs : Nat) : List F64 :=
  (List.range rungs).map fun n => topHz / twoPowi (min n (2 ^ 31 - 1))

/-- The rates the device can be set to, highest first. -/
def DeviceCapabilities.sampleRates (caps : DeviceCapabilities) : Option (List F64) :=
  (caps.nativeIqRateHz.bind snapToLadderTop).bind fun top =>
    caps.decimationSteps.bind fun steps =>
      if steps = 0 then none else some (iqLadderFromTopN top steps)

/-- The positions whose option is neither blank nor disabled. -/
def EnumItem.offered (item : EnumItem) : List Nat :=
  (List.range item.positions.length).filter fun position =>
    decide (item.positions.getD position "" ≠ "") && !item.masked position

/-- The rates that positions select: the top over two to each, none for no position. -/
def ratesAt (top : ℚ) (positions : List Nat) : Option (List F64) :=
  if positions = [] then none
  else some (positions.map fun position => .finite (top / 2 ^ position))

theorem options_length (item : EnumItem) : item.options.length = item.offered.length := by
  have numbered : item.positions.zipIdx = (List.range item.positions.length).map fun position =>
      (item.positions.getD position "", position) := by
    apply List.ext_getElem
    · simp
    · intro position inside _
      have bound : position < item.positions.length := by simpa using inside
      simp [bound]
  rw [EnumItem.options, List.length_map, numbered, List.filter_map, List.length_map,
    EnumItem.offered]
  rfl

theorem twoPowi_small {n : Nat} (small : n < 1024) : twoPowi n = .finite (2 ^ n) := if_pos small

theorem twoPowi_large {n : Nat} (large : 1024 ≤ n) : twoPowi n = .inf false :=
  if_neg (Nat.not_lt.mpr large)

theorem twoPowi_held (n : Nat) : twoPowi (min n (2 ^ 31 - 1)) = twoPowi n := by
  by_cases small : n ≤ 2 ^ 31 - 1
  · rw [min_eq_left small]
  · rw [min_eq_right (by omega), twoPowi_large (by omega), twoPowi_large (by omega)]

/-- Different positions select different rates, and none selects a rate of zero. -/
theorem rate_injective {top : ℚ} (positive : 0 < top) {i j : Nat}
    (same : (F64.finite (top / 2 ^ i)) = .finite (top / 2 ^ j)) : i = j := by
  have equal : top / 2 ^ i = top / 2 ^ j := F64.finite.inj same
  rw [div_eq_div_iff (by positivity) (by positivity)] at equal
  have powers : (2 : ℚ) ^ j = 2 ^ i := mul_left_cancel₀ positive.ne' equal
  exact (pow_right_injective₀ (by norm_num) (by norm_num) powers).symm

/-- A ladder counted from a list of positions is the ladder at those positions exactly when
they are the first ones, and no more than the doubles can tell apart. -/
theorem ladder_iff {top : ℚ} (positive : 0 < top) (positions : List Nat) :
    iqLadderFromTopN (.finite top) positions.length =
        (positions.map fun position => .finite (top / 2 ^ position)) ↔
      positions = List.range positions.length ∧ positions.length ≤ 1024 := by
  have exact : ∀ count ≤ 1024, iqLadderFromTopN (.finite top) count =
      (List.range count).map fun position => F64.finite (top / 2 ^ position) := by
    intro count bound
    rw [iqLadderFromTopN]
    apply List.map_congr_left
    intro position inside
    have small : position < 1024 := (List.mem_range.mp inside).trans_le bound
    rw [twoPowi_held, twoPowi_small small]
    exact F64.finite_div top _ (by positivity)
  constructor
  · intro same
    have bound : positions.length ≤ 1024 := by
      by_contra long
      have zero : (F64.finite 0) ∈ iqLadderFromTopN (.finite top) positions.length := by
        refine List.mem_map.mpr ⟨1024, List.mem_range.mpr (by omega), ?_⟩
        rw [twoPowi_held, twoPowi_large (by omega)]
        rfl
      rw [same] at zero
      obtain ⟨position, _, rate⟩ := List.mem_map.mp zero
      have positiveRate : 0 < top / 2 ^ position := div_pos positive (by positivity)
      rw [F64.finite.inj rate] at positiveRate
      exact absurd positiveRate (lt_irrefl 0)
    rw [exact _ bound] at same
    exact ⟨(List.map_injective_iff.mpr (fun i j => rate_injective positive) same).symm, bound⟩
  · intro ⟨first, bound⟩
    rw [exact _ bound, ← first]

/-- The known tops in hertz. -/
def topRates : List ℚ :=
  [30720000, 40960000, 51200000, 61440000, 81920000, 122880000, 163840000, 327680000]

theorem ladderTops_rates : ladderTops = topRates.map F64.finite := by decide +kernel

theorem topRates_apart : ∀ a ∈ topRates, ∀ b ∈ topRates, 99 * a ≤ 101 * b → 99 * b ≤ 101 * a →
    a = b := by
  decide +kernel

theorem topRates_positive : ∀ a ∈ topRates, 0 < a := by decide +kernel

theorem withinTolerance_finite {measured : F64} {top : ℚ} (positive : 0 < top)
    (within : withinTolerance measured (.finite top) = true) :
    ∃ rate, measured = .finite rate ∧ 99 * top ≤ 100 * rate ∧ 100 * rate ≤ 101 * top := by
  have close := of_decide_eq_true within
  cases measured with
  | finite rate =>
      rw [F64.finite_sub, F64.finite_abs, F64.finite_div _ _ positive.ne', ladderTopTolerance,
        F64.finite_le, div_le_iff₀ positive, abs_le] at close
      exact ⟨rate, rfl, by linarith [close.1], by linarith [close.2]⟩
  | inf negative =>
      have positiveTop : decide (top < 0) = false := decide_eq_false (by linarith)
      have infinite : (((F64.inf negative) - .finite top).abs / .finite top) = .inf false := by
        show F64.inf (false != decide (top < 0)) = .inf false
        rw [positiveTop]
        rfl
      rw [infinite] at close
      cases close
  | nan => cases close

theorem snapToLadderTop_within {measured top : F64} (known : top ∈ ladderTops)
    (within : withinTolerance measured top = true) : snapToLadderTop measured = some top := by
  rw [ladderTops_rates] at known
  obtain ⟨value, listed, rfl⟩ := List.mem_map.mp known
  have positive := topRates_positive value listed
  obtain ⟨rate, rfl, low, high⟩ := withinTolerance_finite positive within
  rw [snapToLadderTop, ladderTops_rates, if_neg]
  · cases found : (topRates.map F64.finite).find? (withinTolerance (.finite rate)) with
    | none =>
        have outside := List.find?_eq_none.mp found (.finite value)
          (List.mem_map_of_mem listed)
        exact absurd within outside
    | some other =>
        obtain ⟨value', listed', rfl⟩ := List.mem_map.mp (List.mem_of_find?_eq_some found)
        obtain ⟨rate', same, low', high'⟩ :=
          withinTolerance_finite (topRates_positive value' listed') (List.find?_some found)
        cases same
        rw [topRates_apart value listed value' listed' (by linarith) (by linarith)]
  · have ratePositive : 0 < rate := by linarith
    rw [Bool.not_eq_true, Bool.or_eq_false_iff]
    exact ⟨rfl, decide_eq_false (by simpa using ratePositive)⟩

/-- The advertised ladder is what the device accepts exactly when the offered positions are the
first ones, at most 1024 of them. -/
theorem sampleRates_offered_iff (config health : ConfigItem) (decimation : EnumItem)
    (found : config.row.findLeaf (enumNamed "decimation0") = some decimation)
    (native : F64) (measured : nativeRate health = some native)
    (top : ℚ) (known : .finite top ∈ ladderTops)
    (within : withinTolerance native (.finite top) = true) :
    (DeviceCapabilities.fromTrees (some config) (some health)).sampleRates =
        ratesAt top decimation.offered ↔
      decimation.offered = List.range decimation.offered.length ∧
        decimation.offered.length ≤ 1024 := by
  have positive : 0 < top := by
    rw [ladderTops_rates] at known
    obtain ⟨value, listed, same⟩ := List.mem_map.mp known
    cases same
    exact topRates_positive _ listed
  have steps : (DeviceCapabilities.fromTrees (some config) (some health)).decimationSteps =
      stepsOf decimation.offered.length := by
    rw [(fromTrees_config config (some health)).1, ← options_length]
    simp only [DeviceCapabilities.ofConfig, enumOptions, found]
  have rate : (DeviceCapabilities.fromTrees (some config) (some health)).nativeIqRateHz =
      some native := measured
  rw [DeviceCapabilities.sampleRates, rate, steps, Option.bind_some,
    snapToLadderTop_within known within, Option.bind_some, ← ladder_iff positive, ratesAt]
  cases offered : decimation.offered with
  | nil => simp [iqLadderFromTopN, stepsOf]
  | cons first rest => simp [stepsOf]

def ladderOf (values : String) (disabled : BitVec 64) : EnumItem :=
  ⟨"decimation0", 0, values, disabled⟩

/-- A receiver that offers the ladder given. -/
def receiverConfig (decimation : EnumItem) : ConfigItem :=
  .group "remoteconfig" (.group "Block_Spectran_V6Eco_0" (.leaf (.enum decimation) .nil) .nil)

/-- A running receiver's measured native rate. -/
def runningHealth : ConfigItem :=
  .group "healthstatus" (.group "Block_Spectran_V6Eco_0" (.group "status"
    (.leaf (.string "devstate" "Running")
      (.leaf (.float ⟨"iqsamples", 61411246, none, none, none⟩) .nil)) .nil) .nil)

theorem sampleRates_offered_trailing_comma :
    (DeviceCapabilities.fromTrees (some (receiverConfig (ladderOf "Full,1 / 2,1 / 4," 0)))
      (some runningHealth)).sampleRates =
        ratesAt 61440000 (ladderOf "Full,1 / 2,1 / 4," 0).offered :=
  (sampleRates_offered_iff (receiverConfig (ladderOf "Full,1 / 2,1 / 4," 0)) runningHealth
    (ladderOf "Full,1 / 2,1 / 4," 0) (by decide) 61411246 (by decide) 61440000
    (by decide +kernel) (by decide +kernel)).mpr (by decide +kernel)

/-- With `1 / 2` disabled the ladder keeps its rate and loses that of `1 / 4`. -/
theorem sampleRates_renumbered :
    (DeviceCapabilities.fromTrees (some (receiverConfig (ladderOf "Full,1 / 2,1 / 4" 2)))
      (some runningHealth)).sampleRates ≠
        ratesAt 61440000 (ladderOf "Full,1 / 2,1 / 4" 2).offered := by
  decide +kernel

end SdrAaronia.HttpEndpoints
