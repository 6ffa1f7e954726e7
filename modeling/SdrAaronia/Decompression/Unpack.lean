import SdrAaronia.Decompression.BitReader

/-! # Rice coding of the coefficients

A code is a run of zero bits that names the tier, a one, the offset inside the tier
and the sign.
-/

namespace SdrAaronia

/-! ## The decoder -/

namespace Decompressor

def maxDecompressedSamples : Nat := 2 ^ 24

def maxTier : Nat := 9

/-- All the magnitudes in the tiers below. -/
def tierStart : Nat → Nat
  | 0 => 0
  | k + 1 => tierStart k + 2 ^ (3 * k + 2)

/-- Zero bits up to a one or the end of the data, within `fuel` bits. -/
def leadingZeros : Nat → BitReader → Nat × BitReader
  | 0, r => (0, r)
  | fuel + 1, r =>
      match r.readBit with
      | (.error _, r) => (0, r)
      | (.ok bit, r) =>
          if bit = 0 then
            let run := leadingZeros fuel r
            (run.1 + 1, run.2)
          else (0, r)

/-- The coefficient that a residual stands for in its tier. -/
def coefficient (tier residual : Nat) : Int :=
  let magnitude := (BitVec.ofNat 32 (residual >>> 1 + tierStart tier)).toInt
  if residual % 2 = 1 then -magnitude else magnitude

def unpackLoop : Nat → BitReader → List Int → Except Error (List Int)
  | 0, _, coefficients => .ok coefficients
  | fuel + 1, r, coefficients =>
      if r.pos < r.bytes.length * 8 then
        if maxDecompressedSamples ≤ coefficients.length then
          .error (.fileFormat 0 "Decompression output exceeded limit")
        else
          let run := leadingZeros (r.bytes.length * 8 + 1) r
          -- Longer than any code: trailing zero padding.
          if maxTier < run.1 then .ok coefficients
          else
            let residualBits := 3 * (run.1 + 1)
            if run.2.bytes.length * 8 < run.2.pos + residualBits then .ok coefficients
            else
              match run.2.readBits residualBits with
              | (.error e, _) => .error e
              | (.ok residual, r) =>
                  unpackLoop fuel r (coefficients ++ [coefficient run.1 residual])
      else .ok coefficients

/-- Every round of the loop takes at least one bit. -/
def unpackCoefficients (data : List UInt8) : Except Error (List Int) :=
  unpackLoop (data.length * 8 + 1) (.new data) []

end Decompressor

/-! ## The code table -/

namespace Rice

open Decompressor

def code (tier offset : Nat) (negative : Bool) : List Bool :=
  List.replicate tier false ++ true :: (Bits.ofNat (3 * tier + 2) offset ++ [negative])

def value (tier offset : Nat) (negative : Bool) : Int :=
  if negative then -((tierStart tier + offset : Nat) : Int) else (tierStart tier + offset : Nat)

/-- The bits are a code of the integer; zero has one for either sign. -/
inductive Codes : Int → List Bool → Prop where
  | tier {tier offset : Nat} (negative : Bool) (bounded : tier ≤ maxTier)
      (inside : offset < 2 ^ (3 * tier + 2)) :
      Codes (value tier offset negative) (code tier offset negative)

theorem tier_exists {magnitude tiers : Nat} (bounded : magnitude < tierStart tiers) :
    ∃ tier offset, tier < tiers ∧ offset < 2 ^ (3 * tier + 2) ∧
      magnitude = tierStart tier + offset := by
  induction tiers with
  | zero => exact absurd bounded (Nat.not_lt_zero _)
  | succ tiers ih =>
      by_cases below : magnitude < tierStart tiers
      · obtain ⟨tier, offset, lower, inside, rfl⟩ := ih below
        exact ⟨tier, offset, by omega, inside, rfl⟩
      · rw [tierStart] at bounded
        exact ⟨tiers, magnitude - tierStart tiers, by omega, by omega, by omega⟩

/-- Every integer whose magnitude falls in the tiers has a code. -/
theorem codes_exist {n : Int} (bounded : n.natAbs < tierStart (maxTier + 1)) :
    ∃ bits, Codes n bits := by
  obtain ⟨tier, offset, lower, inside, same⟩ := tier_exists bounded
  have coded := Codes.tier (decide (n < 0)) (Nat.lt_succ_iff.mp lower) inside
  have valued : value tier offset (decide (n < 0)) = n := by
    rw [value, ← same]
    by_cases negative : n < 0
    · rw [if_pos (decide_eq_true negative)]
      omega
    · rw [if_neg (by simpa using negative)]
      omega
  exact ⟨_, valued ▸ coded⟩

end Rice

/-! ## Round trip -/

namespace Decompressor

open Rice

theorem leadingZeros_zero (fuel : Nat) {r : BitReader} {rest : List Bool} (valid : r.Valid)
    (next : r.contents = false :: rest) :
    ∃ r', r'.Valid ∧ r'.contents = rest ∧ r'.bytes = r.bytes ∧ ∀ {zeros r''},
      leadingZeros fuel r' = (zeros, r'') → leadingZeros (fuel + 1) r = (zeros + 1, r'') := by
  obtain ⟨r', read, valid', rest', bytes⟩ := BitReader.readBit_cons valid next
  refine ⟨r', valid', rest', bytes, ?_⟩
  intro zeros r'' run
  rw [leadingZeros, read]
  simp only [Bool.toNat_false, if_true, run]

theorem leadingZeros_one {fuel tier : Nat} {r : BitReader} {rest : List Bool} (valid : r.Valid)
    (enough : tier < fuel) (next : r.contents = List.replicate tier false ++ true :: rest) :
    ∃ r', leadingZeros fuel r = (tier, r') ∧ r'.Valid ∧ r'.contents = rest ∧
      r'.bytes = r.bytes := by
  induction tier generalizing fuel r with
  | zero =>
      obtain ⟨fuel, rfl⟩ := Nat.exists_eq_add_of_lt enough
      obtain ⟨r', read, valid', rest', bytes⟩ := BitReader.readBit_cons valid next
      refine ⟨r', ?_, valid', rest', bytes⟩
      rw [Nat.zero_add, leadingZeros, read]
      rfl
  | succ tier ih =>
      obtain ⟨fuel, rfl⟩ : ∃ n, fuel = n + 1 := ⟨fuel - 1, by omega⟩
      obtain ⟨r', valid', rest', bytes, counts⟩ := leadingZeros_zero fuel valid next
      obtain ⟨r'', run, valid'', rest'', bytes'⟩ := ih valid' (Nat.lt_of_succ_lt_succ enough) rest'
      exact ⟨r'', counts run, valid'', rest'', bytes'.trans bytes⟩

theorem leadingZeros_end {fuel zeros : Nat} {r : BitReader} (valid : r.Valid)
    (enough : zeros < fuel) (next : r.contents = List.replicate zeros false) :
    ∃ r', leadingZeros fuel r = (zeros, r') ∧ r'.Valid ∧ r'.contents = [] ∧
      r'.bytes = r.bytes := by
  induction zeros generalizing fuel r with
  | zero =>
      obtain ⟨fuel, rfl⟩ := Nat.exists_eq_add_of_lt enough
      obtain ⟨r', read, valid', rest', bytes⟩ := BitReader.readBit_nil valid next
      refine ⟨r', ?_, valid', rest', bytes⟩
      rw [Nat.zero_add, leadingZeros, read]
  | succ zeros ih =>
      obtain ⟨fuel, rfl⟩ : ∃ n, fuel = n + 1 := ⟨fuel - 1, by omega⟩
      obtain ⟨r', valid', rest', bytes, counts⟩ := leadingZeros_zero fuel valid next
      obtain ⟨r'', run, valid'', rest'', bytes'⟩ := ih valid' (Nat.lt_of_succ_lt_succ enough) rest'
      exact ⟨r'', counts run, valid'', rest'', bytes'.trans bytes⟩

theorem tierStart_mono {k l : Nat} (le : k ≤ l) : tierStart k ≤ tierStart l := by
  induction le with
  | refl => exact Nat.le_refl _
  | step _ ih => exact ih.trans (Nat.le_add_right _ _)

theorem coefficient_residual {tier offset : Nat} (negative : Bool) (bounded : tier ≤ maxTier)
    (inside : offset < 2 ^ (3 * tier + 2)) :
    coefficient tier (2 * offset + negative.toNat) = value tier offset negative := by
  have top : tierStart tier + offset < 2 ^ 31 := by
    have next : tierStart (tier + 1) ≤ tierStart (maxTier + 1) := tierStart_mono (by omega)
    rw [tierStart] at next
    have last : tierStart (maxTier + 1) < 2 ^ 31 := by decide
    omega
  have whole : (2 * offset + negative.toNat) >>> 1 = offset := by
    rw [Nat.shiftRight_eq_div_pow, Nat.pow_one]
    have sign := Bool.toNat_lt negative
    omega
  have low : (2 * offset + negative.toNat) % 2 = negative.toNat := by
    have sign := Bool.toNat_lt negative
    omega
  have signed : (BitVec.ofNat 32 (offset + tierStart tier)).toInt =
      (tierStart tier + offset : Nat) := by
    rw [BitVec.toInt_ofNat', Int.bmod_eq_of_le (by omega) (by omega), Nat.add_comm]
  rw [coefficient, whole, low, value]
  simp only [signed]
  cases negative <;> rfl

theorem residual_toNat {n offset : Nat} (inside : offset < 2 ^ n) (negative : Bool) :
    Bits.toNat (Bits.ofNat n offset ++ [negative]) = 2 * offset + negative.toNat := by
  rw [Bits.toNat_snoc, Bits.toNat_ofNat, Nat.mod_eq_of_lt inside]

/-- The loop decodes the codes to come and stops at the padding. -/
theorem unpackLoop_codes {values : List Int} {codes : List (List Bool)}
    (coded : List.Forall₂ Codes values codes) {padding fuel : Nat} {r : BitReader}
    {coefficients : List Int} (valid : r.Valid)
    (next : r.contents = codes.flatten ++ List.replicate padding false)
    (few : coefficients.length + values.length < maxDecompressedSamples)
    (enough : codes.flatten.length < fuel) :
    unpackLoop fuel r coefficients = .ok (coefficients ++ values) := by
  induction coded generalizing fuel r coefficients with
  | nil =>
      obtain ⟨fuel, rfl⟩ : ∃ n, fuel = n + 1 := ⟨fuel - 1, by omega⟩
      rw [unpackLoop, List.append_nil]
      split
      · have room := BitReader.pos_eq valid
        rw [if_neg (by simp only [List.length_nil] at few; omega)]
        rw [List.flatten_nil, List.nil_append] at next
        rw [next, List.length_replicate] at room
        have many : padding < r.bytes.length * 8 + 1 := by omega
        obtain ⟨r', run, valid', rest, bytes⟩ := leadingZeros_end valid many next
        have done := BitReader.pos_eq valid'
        rw [rest, List.length_nil] at done
        simp only [run]
        split
        · rfl
        · rw [if_pos (by omega)]
      · rfl
  | @cons n bits values codes coding coded ih =>
      obtain ⟨fuel, rfl⟩ : ∃ n, fuel = n + 1 := ⟨fuel - 1, by omega⟩
      cases coding with
      | @tier tier offset negative bounded inside =>
          have residual : ∀ later, code tier offset negative ++ later =
              List.replicate tier false ++
                true :: ((Bits.ofNat (3 * tier + 2) offset ++ [negative]) ++ later) := by
            intro later
            rw [code, List.append_assoc, List.cons_append]
          have width : (Bits.ofNat (3 * tier + 2) offset ++ [negative]).length =
              3 * (tier + 1) := by
            rw [List.length_append, Bits.length_ofNat, List.length_singleton]
            omega
          have spelled := residual_toNat inside negative
          rw [List.flatten_cons, List.append_assoc, residual] at next
          rw [List.flatten_cons, residual] at enough
          generalize Bits.ofNat (3 * tier + 2) offset ++ [negative] = bits
            at next enough width spelled
          have length := congrArg List.length next
          have room := BitReader.pos_eq valid
          rw [List.length_append, List.length_cons, List.length_append, List.length_append,
            List.length_replicate, width] at length
          rw [List.length_append, List.length_cons, List.length_append, width] at enough
          rw [List.length_cons] at few
          have many : tier < r.bytes.length * 8 + 1 := by omega
          obtain ⟨r', run, valid', rest, bytes⟩ := leadingZeros_one valid many next
          have room' := BitReader.pos_eq valid'
          rw [rest, List.length_append, List.length_append, width] at room'
          rw [maxTier] at bounded
          obtain ⟨r'', read, valid'', rest', -⟩ :=
            BitReader.readBits_append valid' (by omega) rest
          rw [width, spelled] at read
          rw [unpackLoop, if_pos (by omega), if_neg (by omega)]
          simp only [run]
          rw [if_neg (by rw [maxTier]; omega), if_neg (by omega)]
          simp only [read]
          rw [coefficient_residual negative bounded inside,
            ih valid'' rest' (by
              rw [List.length_append, List.length_singleton]
              omega) (by omega), List.append_assoc, List.singleton_append]

/-- Integers of the coded tiers, fewer than the limit, have codes, and whichever are
used, followed by zeros up to whole bytes, unpack to exactly those integers. -/
theorem unpackCoefficients_codes {values : List Int}
    (tiers : ∀ n ∈ values, n.natAbs < tierStart (maxTier + 1))
    (few : values.length < maxDecompressedSamples) :
    (∃ codes, List.Forall₂ Codes values codes) ∧
      ∀ codes padding data, List.Forall₂ Codes values codes →
        Bits.ofBytes data = codes.flatten ++ List.replicate padding false →
          unpackCoefficients data = .ok values := by
  constructor
  · clear few
    induction values with
    | nil => exact ⟨[], .nil⟩
    | cons n values ih =>
        obtain ⟨bits, coding⟩ := codes_exist (tiers n List.mem_cons_self)
        obtain ⟨codes, coded⟩ := ih fun later member => tiers later (List.mem_cons_of_mem _ member)
        exact ⟨bits :: codes, .cons coding coded⟩
  · intro codes padding data coded packed
    have length := congrArg List.length packed
    rw [Bits.length_ofBytes, List.length_append] at length
    have contents := (BitReader.contents_new data).trans packed
    exact unpackLoop_codes coded (BitReader.valid_new data) contents
      (by rw [List.length_nil]; omega) (by omega)

/-- The first three tiers, a zero of either sign, and more than a byte of padding. -/
theorem unpackCoefficients_codes_threeTiers :
    unpackCoefficients [0x8c, 0x9e, 0x43, 0x20, 0, 0] = .ok [0, 2, 0, 3, -5, 36] := by
  have coded : List.Forall₂ Codes
      [value 0 0 false, value 0 2 false, value 0 0 true, value 0 3 false, value 1 1 true,
        value 2 0 false]
      [code 0 0 false, code 0 2 false, code 0 0 true, code 0 3 false, code 1 1 true,
        code 2 0 false] :=
    .cons (.tier false (by decide) (by decide)) <|
    .cons (.tier false (by decide) (by decide)) <|
    .cons (.tier true (by decide) (by decide)) <|
    .cons (.tier false (by decide) (by decide)) <|
    .cons (.tier true (by decide) (by decide)) <|
    .cons (.tier false (by decide) (by decide)) .nil
  exact (unpackCoefficients_codes (by decide) (by decide)).2 _ 12 _ coded (by decide)

end Decompressor

end SdrAaronia
