import Mathlib.Data.Rat.Defs
import Mathlib.Algebra.Order.Field.Rat
import Mathlib.Algebra.Order.Group.Abs
import Mathlib.Tactic.Linarith

/-! # Doubles as exact rationals with the special values

A finite double is read as the rational it denotes, so arithmetic on finite
values is exact and rounding is out of scope.  The special values keep their
IEEE behaviour: `nan` compares false with everything, and infinities absorb.
Zeros carry no sign.
-/

/-- A double: an exact finite value, an infinity, or not a number. -/
inductive F64 where
  | finite (value : ℚ)
  | inf (negative : Bool)
  | nan
  deriving DecidableEq, Repr

namespace F64

instance : OfNat F64 n := ⟨.finite (OfNat.ofNat n)⟩

def neg : F64 → F64
  | .finite a => .finite (-a)
  | .inf s => .inf !s
  | .nan => .nan

def abs : F64 → F64
  | .finite a => .finite |a|
  | .inf _ => .inf false
  | .nan => .nan

def add : F64 → F64 → F64
  | .finite a, .finite b => .finite (a + b)
  | .inf s, .inf t => if s = t then .inf s else .nan
  | .inf s, .finite _ | .finite _, .inf s => .inf s
  | .nan, _ | _, .nan => .nan

def sub (x y : F64) : F64 := x.add y.neg

def mul : F64 → F64 → F64
  | .finite a, .finite b => .finite (a * b)
  | .inf s, .inf t => .inf (s != t)
  | .inf s, .finite a | .finite a, .inf s =>
      if a = 0 then .nan else .inf (s != decide (a < 0))
  | .nan, _ | _, .nan => .nan

/-- A finite nonzero value over zero is an infinity of its sign. -/
def div : F64 → F64 → F64
  | .finite a, .finite b =>
      if b ≠ 0 then .finite (a / b) else if a = 0 then .nan else .inf (decide (a < 0))
  | .inf s, .finite b => .inf (s != decide (b < 0))
  | .finite _, .inf _ => .finite 0
  | .inf _, .inf _ => .nan
  | .nan, _ | _, .nan => .nan

def lt : F64 → F64 → Bool
  | .finite a, .finite b => decide (a < b)
  | .inf s, .finite _ => s
  | .finite _, .inf s => !s
  | .inf s, .inf t => s && !t
  | .nan, _ | _, .nan => false

def le : F64 → F64 → Bool
  | .finite a, .finite b => decide (a ≤ b)
  | .inf s, .finite _ => s
  | .finite _, .inf s => !s
  | .inf s, .inf t => s || !t
  | .nan, _ | _, .nan => false

instance : Neg F64 := ⟨neg⟩
instance : Add F64 := ⟨add⟩
instance : Sub F64 := ⟨sub⟩
instance : Mul F64 := ⟨mul⟩
instance : Div F64 := ⟨div⟩
instance : LT F64 := ⟨fun x y => x.lt y = true⟩
instance : LE F64 := ⟨fun x y => x.le y = true⟩
instance (x y : F64) : Decidable (x < y) := inferInstanceAs (Decidable (x.lt y = true))
instance (x y : F64) : Decidable (x ≤ y) := inferInstanceAs (Decidable (x.le y = true))

def isFinite : F64 → Bool
  | .finite _ => true
  | _ => false

/-- The smaller value; a `nan` gives way to the other. -/
def min : F64 → F64 → F64
  | .nan, y => y
  | x, .nan => x
  | x, y => if x < y then x else y

/-- The larger value; a `nan` gives way to the other. -/
def max : F64 → F64 → F64
  | .nan, y => y
  | x, .nan => x
  | x, y => if x < y then y else x

/-- The cast to `i64`: towards zero, held at the ends of the range, `nan` to zero. -/
def toI64 : F64 → Int
  | .finite value =>
      Max.max (-2 ^ 63) (Min.min (2 ^ 63 - 1) (if 0 ≤ value then value.floor else -(-value).floor))
  | .inf negative => if negative then -2 ^ 63 else 2 ^ 63 - 1
  | .nan => 0

@[simp] theorem zero_eq : (0 : F64) = .finite 0 := rfl
@[simp] theorem one_eq : (1 : F64) = .finite 1 := rfl
@[simp] theorem finite_add (a b : ℚ) : (F64.finite a) + .finite b = .finite (a + b) := rfl
@[simp] theorem finite_mul (a b : ℚ) : (F64.finite a) * .finite b = .finite (a * b) := rfl
@[simp] theorem finite_abs (a : ℚ) : (F64.finite a).abs = .finite |a| := rfl
@[simp] theorem finite_neg (a : ℚ) : -(F64.finite a) = .finite (-a) := rfl
@[simp] theorem finite_isFinite (a : ℚ) : (F64.finite a).isFinite = true := rfl

@[simp] theorem finite_sub (a b : ℚ) : (F64.finite a) - .finite b = .finite (a - b) :=
  congrArg F64.finite (sub_eq_add_neg a b).symm

@[simp] theorem finite_div (a b : ℚ) (nonzero : b ≠ 0) :
    (F64.finite a) / .finite b = .finite (a / b) :=
  if_pos nonzero

@[simp] theorem finite_lt (a b : ℚ) : (F64.finite a) < .finite b ↔ a < b :=
  decide_eq_true_iff

@[simp] theorem finite_le (a b : ℚ) : (F64.finite a) ≤ .finite b ↔ a ≤ b :=
  decide_eq_true_iff

@[simp] theorem finite_min (a b : ℚ) :
    (F64.finite a).min (.finite b) = .finite (Min.min a b) := by
  rw [min]
  · simp only [finite_lt]
    split
    · rename_i less
      rw [min_eq_left less.le]
    · rename_i more
      rw [min_eq_right (not_lt.mp more)]
  · exact fun nan => by cases nan
  · exact fun nan => by cases nan

@[simp] theorem finite_max (a b : ℚ) :
    (F64.finite a).max (.finite b) = .finite (Max.max a b) := by
  rw [max]
  · simp only [finite_lt]
    split
    · rename_i less
      rw [max_eq_right less.le]
    · rename_i more
      rw [max_eq_left (not_lt.mp more)]
  · exact fun nan => by cases nan
  · exact fun nan => by cases nan

theorem isFinite_iff (x : F64) : x.isFinite = true ↔ ∃ a, x = .finite a := by
  cases x with
  | finite a => simp
  | inf | nan => simp [isFinite]

/-- A finite double above zero. -/
def Positive (x : F64) : Prop := x.isFinite = true ∧ 0 < x

instance (x : F64) : Decidable x.Positive := inferInstanceAs (Decidable (_ ∧ _))

/-- A finite positive double is a positive rational. -/
theorem positive_value (x : F64) (finite : x.isFinite = true) (positive : 0 < x) :
    ∃ a : ℚ, 0 < a ∧ x = .finite a := by
  obtain ⟨a, rfl⟩ := (isFinite_iff x).mp finite
  exact ⟨a, by simpa using positive, rfl⟩

theorem Positive.value {x : F64} (positive : x.Positive) : ∃ a : ℚ, 0 < a ∧ x = .finite a :=
  positive_value x positive.1 positive.2

/-- The double with the given bits. -/
def ofBits (bits : UInt64) : F64 :=
  let negative := decide (2 ^ 63 ≤ bits.toNat)
  let exponent : Nat := bits.toNat / 2 ^ 52 % 2 ^ 11
  let fraction : Nat := bits.toNat % 2 ^ 52
  -- Below the smallest exponent a fraction has no leading one.
  let magnitude : ℚ :=
    if exponent = 0 then fraction / 2 ^ 1074 else (2 ^ 52 + fraction) * 2 ^ exponent / 2 ^ 1075
  if exponent = 2047 then if fraction = 0 then .inf negative else .nan
  else .finite (if negative then -magnitude else magnitude)

end F64
