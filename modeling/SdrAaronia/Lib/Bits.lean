import Mathlib.Data.Nat.Bitwise
import Mathlib.Tactic.Ring

/-! # Bits, most significant first

A number as a fixed count of bits and back, and a byte string as its bits.
-/

namespace SdrAaronia.Bits

/-- The low `n` bits of a number. -/
def ofNat : Nat → Nat → List Bool
  | 0, _ => []
  | n + 1, v => v.testBit n :: ofNat n v

/-- The number that the bits spell. -/
def toNat : List Bool → Nat
  | [] => 0
  | bit :: bits => bit.toNat * 2 ^ bits.length + toNat bits

def ofBytes (bytes : List UInt8) : List Bool := bytes.flatMap fun byte => ofNat 8 byte.toNat

theorem length_ofNat (n v : Nat) : (ofNat n v).length = n := by
  induction n with
  | zero => rfl
  | succ n ih => rw [ofNat, List.length_cons, ih]

theorem length_ofBytes (bytes : List UInt8) : (ofBytes bytes).length = 8 * bytes.length := by
  induction bytes with
  | nil => rfl
  | cons byte bytes ih =>
      rw [ofBytes, List.flatMap_cons, List.length_append, length_ofNat, ← ofBytes, ih,
        List.length_cons]
      omega

theorem ofBytes_drop {bytes : List UInt8} {i : Nat} (within : i < bytes.length) :
    ofBytes (bytes.drop i) = ofNat 8 bytes[i].toNat ++ ofBytes (bytes.drop (i + 1)) := by
  rw [List.drop_eq_getElem_cons within, ofBytes, List.flatMap_cons, ← ofBytes]

/-- Numbers that agree in the low bits have the same bits. -/
theorem ofNat_congr {n v w : Nat} (same : ∀ i < n, v.testBit i = w.testBit i) :
    ofNat n v = ofNat n w := by
  induction n with
  | zero => rfl
  | succ n ih =>
      rw [ofNat, ofNat, same n (Nat.lt_succ_self n), ih fun i low => same i (by omega)]

/-- The bits above the lowest `m` come first. -/
theorem ofNat_add (n m v : Nat) : ofNat (n + m) v = ofNat n (v >>> m) ++ ofNat m v := by
  induction n with
  | zero => rw [Nat.zero_add, ofNat, List.nil_append]
  | succ n ih =>
      rw [Nat.succ_add, ofNat, ofNat, ih, Nat.testBit_shiftRight, Nat.add_comm m n,
        List.cons_append]

/-- Shifting a number up by `k` and filling in `w` appends the bits of `w`. -/
theorem ofNat_shift_or {n k v w : Nat} (narrow : w < 2 ^ k) :
    ofNat (n + k) (v <<< k ||| w) = ofNat n v ++ ofNat k w := by
  rw [ofNat_add]
  congr 1
  · apply ofNat_congr
    intro i _
    rw [Nat.testBit_shiftRight, Nat.testBit_or, Nat.testBit_shiftLeft,
      Nat.testBit_lt_two_pow (narrow.trans_le (Nat.pow_le_pow_right (by omega)
        (Nat.le_add_right k i)))]
    simp
  · apply ofNat_congr
    intro i low
    rw [Nat.testBit_or, Nat.testBit_shiftLeft, decide_eq_false (by omega)]
    simp

theorem ofNat_mod {n width : Nat} (fits : n ≤ width) (v : Nat) :
    ofNat n (v % 2 ^ width) = ofNat n v := by
  apply ofNat_congr
  intro i low
  rw [Nat.testBit_mod_two_pow, decide_eq_true (by omega), Bool.true_and]

theorem toNat_lt (bits : List Bool) : toNat bits < 2 ^ bits.length := by
  induction bits with
  | nil => exact Nat.one_pos
  | cons bit bits ih =>
      rw [toNat, List.length_cons, Nat.pow_succ]
      cases bit with
      | false => rw [Bool.toNat_false]; omega
      | true => rw [Bool.toNat_true]; omega

/-- A number of `n` bits is read back from them. -/
theorem toNat_ofNat (n v : Nat) : toNat (ofNat n v) = v % 2 ^ n := by
  induction n with
  | zero => rw [ofNat, toNat, Nat.pow_zero, Nat.mod_one]
  | succ n ih =>
      rw [ofNat, toNat, length_ofNat, ih, Nat.mod_pow_succ, Nat.toNat_testBit, Nat.mul_comm,
        Nat.add_comm]

theorem toNat_snoc (bits : List Bool) (bit : Bool) :
    toNat (bits ++ [bit]) = 2 * toNat bits + bit.toNat := by
  induction bits with
  | nil => simp [toNat]
  | cons first bits ih =>
      rw [List.cons_append, toNat, ih, toNat, List.length_append, List.length_singleton,
        Nat.pow_succ]
      ring

end SdrAaronia.Bits
