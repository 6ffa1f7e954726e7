import Mathlib.Algebra.Group.Nat.Defs

/-! # Arithmetic that may stop the program

Machine integers of a fixed width.  An operation without a result is `none`.
-/

namespace SdrAaronia.Checked

variable {width : Nat}

def add (width a b : Nat) : Option Nat := if a + b < 2 ^ width then some (a + b) else none

def sub (a b : Nat) : Option Nat := if b ≤ a then some (a - b) else none

def mul (width a b : Nat) : Option Nat := if a * b < 2 ^ width then some (a * b) else none

def div (a b : Nat) : Option Nat := if b = 0 then none else some (a / b)

/-- The numbers of a signed integer, from `-(2 ^ (width - 1))` up. -/
def FitsSigned (width : Nat) (a : Int) : Prop :=
  -(2 ^ (width - 1) : Nat) ≤ a ∧ a < (2 ^ (width - 1) : Nat)

instance (a : Int) : Decidable (FitsSigned width a) := inferInstanceAs (Decidable (_ ∧ _))

def addSigned (width : Nat) (a b : Int) : Option Int :=
  if FitsSigned width (a + b) then some (a + b) else none

/-- The lowest signed number has no negation. -/
def negSigned (width : Nat) (a : Int) : Option Int :=
  if FitsSigned width (-a) then some (-a) else none

def shiftLeft (value : BitVec width) (amount : Nat) : Option (BitVec width) :=
  if amount < width then some (value <<< amount) else none

def shiftRight (value : BitVec width) (amount : Nat) : Option (BitVec width) :=
  if amount < width then some (value >>> amount) else none

/-- An element of an array is replaced. -/
def set {Value : Type} (data : List Value) (i : Nat) (value : Value) : Option (List Value) :=
  if i < data.length then some (data.set i value) else none

/-- What follows an operation with a result. -/
theorem next {Value Value' : Type} (value : Value) (rest : Value → Option Value') :
    (some value >>= rest) = rest value := rfl

theorem add_eq {a b : Nat} (fits : a + b < 2 ^ width) : add width a b = some (a + b) :=
  if_pos fits

theorem sub_eq {a b : Nat} (below : b ≤ a) : sub a b = some (a - b) := if_pos below

theorem mul_eq {a b : Nat} (fits : a * b < 2 ^ width) : mul width a b = some (a * b) :=
  if_pos fits

theorem div_eq {a b : Nat} (positive : 0 < b) : div a b = some (a / b) :=
  if_neg (Nat.pos_iff_ne_zero.mp positive)

theorem addSigned_eq {a b : Nat} (fits : a + b < 2 ^ (width - 1)) :
    addSigned width a b = some ((a + b : Nat) : Int) := by
  rw [Int.natCast_add]
  exact if_pos ⟨by omega, by omega⟩

theorem negSigned_eq {a : Nat} (fits : a < 2 ^ (width - 1)) :
    negSigned width a = some (-(a : Int)) :=
  if_pos ⟨by omega, by omega⟩

theorem shiftLeft_eq {value : BitVec width} {amount : Nat} (inside : amount < width) :
    shiftLeft value amount = some (value <<< amount) :=
  if_pos inside

theorem shiftRight_eq {value : BitVec width} {amount : Nat} (inside : amount < width) :
    shiftRight value amount = some (value >>> amount) :=
  if_pos inside

theorem set_eq {Value : Type} {data : List Value} {i : Nat} (inside : i < data.length)
    (value : Value) : set data i value = some (data.set i value) :=
  if_pos inside

/-- A loop over a list whose every round has a result is the loop of the results. -/
theorem foldlM_eq {State Plain Item : Type} {step : State → Item → Option State}
    {plain : Plain → Item → Plain} (wrap : Plain → State) {P : Plain → Prop}
    {items : List Item}
    (round : ∀ state, P state → ∀ item ∈ items,
      step (wrap state) item = some (wrap (plain state item)) ∧ P (plain state item)) :
    ∀ state, P state → items.foldlM step (wrap state) = some (wrap (items.foldl plain state)) ∧
      P (items.foldl plain state) := by
  induction items with
  | nil => exact fun state keeps => ⟨rfl, keeps⟩
  | cons item items ih =>
      intro state keeps
      obtain ⟨first, keeps'⟩ := round state keeps item List.mem_cons_self
      have rest := ih (fun state keeps later member =>
        round state keeps later (List.mem_cons_of_mem _ member)) _ keeps'
      rw [List.foldlM_cons, first]
      exact rest

end SdrAaronia.Checked
