import Mathlib.Algebra.Ring.Int.Defs
import Mathlib.Algebra.Ring.Nat
import Mathlib.Data.Int.Order.Basic
import Mathlib.Tactic.Common

/-!
# The type `int`

The values of a C `int` of thirty-two bits among the integers, with its sum and its difference. The
operations wrap around in two's complement; they are exact where the exact result is an `int`.

## Main definitions

* `CInt.INT_MIN`, `CInt.INT_MAX`, `CInt.IsInt`.
* `CInt.intAdd`, `CInt.intSub`.

## Main results

* `CInt.intAdd_eq_add`, `CInt.intSub_eq_sub`: exactness.
* `CInt.intAdd_of_max_lt`, `CInt.intSub_of_max_lt`: overflow at the upper end.
-/

namespace CInt

/-- The limits of `int`. -/
def INT_MAX : ℤ := 2147483647

@[inherit_doc INT_MAX]
def INT_MIN : ℤ := -2147483648

/-- Is the integer a value of `int`? -/
def IsInt (v : ℤ) : Prop := INT_MIN ≤ v ∧ v ≤ INT_MAX

instance (v : ℤ) : Decidable (IsInt v) := inferInstanceAs (Decidable (_ ∧ _))

/-- The sum of two `int` values. -/
def intAdd (a b : ℤ) : ℤ := (a + b).bmod (2 ^ 32)

/-- The difference of two `int` values. -/
def intSub (a b : ℤ) : ℤ := (a - b).bmod (2 ^ 32)

variable {a b v : ℤ}

theorem isInt_iff : IsInt v ↔ -2147483648 ≤ v ∧ v ≤ 2147483647 := Iff.rfl

theorem isInt_zero : IsInt 0 := by decide

theorem isInt_one : IsInt 1 := by decide

theorem bmod_eq_of_isInt (h : IsInt v) : v.bmod (2 ^ 32) = v := by
  rw [isInt_iff] at h
  exact Int.bmod_eq_of_le (by omega) (by omega)

theorem intAdd_eq_add (h : IsInt (a + b)) : intAdd a b = a + b :=
  bmod_eq_of_isInt h

theorem intSub_eq_sub (h : IsInt (a - b)) : intSub a b = a - b :=
  bmod_eq_of_isInt h

theorem bmod_of_max_lt (h : INT_MAX < v) (h' : v ≤ 2 * INT_MAX + 1) :
    v.bmod (2 ^ 32) = v - 2 ^ 32 := by
  simp only [INT_MAX] at h h'
  rw [Int.bmod_def]
  split <;> omega

/-- A sum beyond the upper limit comes back at the lower end. -/
theorem intAdd_of_max_lt (h : INT_MAX < a + b) (ha : IsInt a) (hb : IsInt b) :
    intAdd a b = a + b - 2 ^ 32 :=
  bmod_of_max_lt h (by rw [isInt_iff] at ha hb; simp only [INT_MAX]; omega)

/-- A difference beyond the upper limit comes back at the lower end. -/
theorem intSub_of_max_lt (h : INT_MAX < a - b) (ha : IsInt a) (hb : IsInt b) :
    intSub a b = a - b - 2 ^ 32 :=
  bmod_of_max_lt h (by rw [isInt_iff] at ha hb; simp only [INT_MAX]; omega)

end CInt
