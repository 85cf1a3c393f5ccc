import Mathlib.Algebra.Order.Ring.Rat
import Mathlib.Data.NNRat.Lemmas
import Mathlib.Tactic.Linarith
import Mathlib.Order.Bounds.Basic

/-!
# Double-precision numbers

A number is a finite one with its sign, an infinity or not a number, and it is compared as
IEEE 754 says.  What is finite has a rational magnitude, which need not be one that a double
has, so what holds of these numbers holds of doubles.  There are two zeros, which compare as
equal.
-/

inductive F64 where
  | finite (negative : Bool) (magnitude : ℚ≥0)
  | infinite (negative : Bool)
  | nan
deriving DecidableEq

namespace F64

def isFinite : F64 → Bool
  | .finite _ _ => true
  | .infinite _ => false
  | .nan => false

/-- The value of a finite number. -/
def value : F64 → ℚ
  | .finite negative magnitude => if negative then -magnitude else magnitude
  | .infinite _ => 0
  | .nan => 0

def zero : F64 := .finite false 0
def one : F64 := .finite false 1

/-- `<` -/
def lt : F64 → F64 → Bool
  | .nan, _ => false
  | _, .nan => false
  | .infinite true, other => other ≠ .infinite true
  | .infinite false, _ => false
  | .finite _ _, .infinite negative => !negative
  | .finite negative magnitude, .finite negative' magnitude' =>
      (F64.finite negative magnitude).value < (F64.finite negative' magnitude').value

/-- `<=` -/
def le (x y : F64) : Bool := x ≠ .nan && y ≠ .nan && !lt y x

theorem lt_iff {x y : F64} (xFinite : x.isFinite) (yFinite : y.isFinite) :
    x.lt y ↔ x.value < y.value := by
  cases x with
  | finite negative magnitude =>
      cases y with
      | finite negative' magnitude' => exact decide_eq_true_iff
      | infinite _ => cases yFinite
      | nan => cases yFinite
  | infinite _ => cases xFinite
  | nan => cases xFinite

theorem le_iff {x y : F64} (xFinite : x.isFinite) (yFinite : y.isFinite) :
    x.le y ↔ x.value ≤ y.value := by
  have xNumber : x ≠ .nan := by rintro rfl; cases xFinite
  have yNumber : y ≠ .nan := by rintro rfl; cases yFinite
  have notLess := not_congr (lt_iff yFinite xFinite)
  rw [not_lt] at notLess
  simpa [le, xNumber, yNumber] using notLess

@[simp]
theorem value_zero : zero.value = 0 := by simp [zero, value]

@[simp]
theorem value_one : one.value = 1 := by simp [one, value]

/-- Finite numbers of one value differ at most in the sign of a zero. -/
theorem eq_or_zeros {x y : F64} (xFinite : x.isFinite) (yFinite : y.isFinite)
    (same : x.value = y.value) :
    x = y ∨ ∃ negative, x = .finite negative 0 ∧ y = .finite (!negative) 0 := by
  cases x with
  | infinite _ => cases xFinite
  | nan => cases xFinite
  | finite negative magnitude =>
      cases y with
      | infinite _ => cases yFinite
      | nan => cases yFinite
      | finite negative' magnitude' =>
          have nonneg := magnitude.coe_nonneg
          have nonneg' := magnitude'.coe_nonneg
          cases negative <;> cases negative' <;>
            simp only [value, if_true, if_false, Bool.false_eq_true] at same
          · exact Or.inl (congrArg _ (NNRat.coe_inj.mp same))
          · have left : magnitude = 0 := NNRat.coe_eq_zero.mp (by linarith)
            have right : magnitude' = 0 := NNRat.coe_eq_zero.mp (by linarith)
            exact Or.inr ⟨false, by rw [left], by rw [right]; rfl⟩
          · have left : magnitude = 0 := NNRat.coe_eq_zero.mp (by linarith)
            have right : magnitude' = 0 := NNRat.coe_eq_zero.mp (by linarith)
            exact Or.inr ⟨true, by rw [left], by rw [right]; rfl⟩
          · exact Or.inl (congrArg _ (NNRat.coe_inj.mp (neg_injective same)))

/-! ## The least of some numbers -/

/-- The least of some numbers and of a first one, as a loop finds it. -/
def minFrom (first : F64) (numbers : List F64) : F64 :=
  numbers.foldl (fun least number => if number.lt least then number else least) first

theorem minFrom_mem (first : F64) (numbers : List F64) :
    minFrom first numbers ∈ first :: numbers := by
  induction numbers generalizing first with
  | nil => exact List.mem_singleton_self first
  | cons number numbers ih =>
      change minFrom (if number.lt first then number else first) numbers ∈ _
      split
      · exact List.mem_cons_of_mem first (ih number)
      · rcases List.mem_cons.mp (ih first) with atFirst | later
        · exact List.mem_cons.mpr (Or.inl atFirst)
        · exact List.mem_cons_of_mem first (List.mem_cons_of_mem number later)

/-- Only a smaller number replaces the least one. -/
theorem minFrom_value_le {first : F64} {numbers : List F64} (firstFinite : first.isFinite)
    (finite : ∀ number ∈ numbers, number.isFinite) :
    ∀ number ∈ first :: numbers, (minFrom first numbers).value ≤ number.value := by
  induction numbers generalizing first with
  | nil =>
      intro number isFirst
      rw [List.mem_singleton.mp isFirst]
      exact le_rfl
  | cons head numbers ih =>
      have headFinite := finite head List.mem_cons_self
      have restFinite := fun number found => finite number (List.mem_cons_of_mem head found)
      have less := lt_iff headFinite firstFinite
      change ∀ number ∈ _, (minFrom (if head.lt first then head else first) numbers).value ≤ _
      intro number found
      split
      next smaller =>
        have least := ih headFinite restFinite
        rcases List.mem_cons.mp found with rfl | found
        · exact (least head List.mem_cons_self).trans (less.mp smaller).le
        · exact least number found
      next notSmaller =>
        have least := ih firstFinite restFinite
        rcases List.mem_cons.mp found with rfl | found
        · exact least number List.mem_cons_self
        · rcases List.mem_cons.mp found with rfl | found
          · exact (least first List.mem_cons_self).trans (not_lt.mp (mt less.mpr notSmaller))
          · exact least number (List.mem_cons_of_mem first found)

/-- The value found is the least one, if the first number is not below all of them. -/
theorem minFrom_isLeast {first : F64} {numbers : List F64} (firstFinite : first.isFinite)
    (finite : ∀ number ∈ numbers, number.isFinite)
    (reached : ∃ number ∈ numbers, number.value ≤ first.value) :
    IsLeast {value | ∃ number ∈ numbers, number.value = value} (minFrom first numbers).value := by
  have least := minFrom_value_le firstFinite finite
  constructor
  · rcases List.mem_cons.mp (minFrom_mem first numbers) with isFirst | found
    · obtain ⟨number, found, below⟩ := reached
      have above := least number (List.mem_cons_of_mem first found)
      rw [isFirst] at above ⊢
      exact ⟨number, found, le_antisymm below above⟩
    · exact ⟨_, found, rfl⟩
  · rintro value ⟨number, found, rfl⟩
    exact least number (List.mem_cons_of_mem first found)

end F64
