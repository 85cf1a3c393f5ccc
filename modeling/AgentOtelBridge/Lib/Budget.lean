import Mathlib.Logic.Basic

/-!
# Computations under a cooperative budget

A computation has a deadline and reads a clock now and then.  A reading at or after the deadline is
late; it is remembered, and what follows it may give up.  Nothing is known of the clock, not even
that it does not go back.

`Gives x v` says that `x` gives `v` unless a reading was late.  Its rules follow the way computations
are built, so a budgeted program is compared with a plain one part by part.
-/

namespace Budgeted

/-- A clock by the number of the reading, and the deadline. -/
structure Budget where
  clock : Nat → Nat
  deadline : Nat

def Budget.Late (b : Budget) (reading : Nat) : Prop := b.deadline ≤ b.clock reading

/-- How often the clock was read, and whether a reading was late. -/
structure Meter where
  readings : Nat
  exhausted : Bool

/-- A late reading from one meter to another. -/
def Budget.LateBetween (b : Budget) (s s' : Meter) : Prop :=
  ∃ n, s.readings ≤ n ∧ n < s'.readings ∧ b.Late n

end Budgeted

open Budgeted in
/-- A computation that can read the clock of its budget. -/
def Budgeted (α : Type) : Type := Budget → Meter → α × Meter

namespace Budgeted

variable {α β : Type} {x : Budgeted α} {f : α → Budgeted β} {v : α} {w : α → β}

instance : Monad Budgeted where
  pure a _ s := (a, s)
  bind x f b s := f (x b s).1 b (x b s).2

/-- Reads the clock. -/
def available : Budgeted Bool := fun b s =>
  if b.deadline ≤ b.clock s.readings then (false, ⟨s.readings + 1, true⟩)
  else (true, ⟨s.readings + 1, s.exhausted⟩)

/-- Goes on unless the reading is late. -/
def unlessExhausted (otherwise : α) (x : Budgeted α) : Budgeted α := do
  if ← available then x else pure otherwise

/-- The computation ends exhausted if it began so or read the clock late, and if not it gives the
value. -/
structure Gives (x : Budgeted α) (v : α) : Prop where
  readings_le : ∀ b s, s.readings ≤ (x b s).2.readings
  exhausted_iff : ∀ b s,
    (x b s).2.exhausted = true ↔ s.exhausted = true ∨ b.LateBetween s (x b s).2
  value : ∀ b s, ¬b.LateBetween s (x b s).2 → (x b s).1 = v

theorem Budget.lateBetween_iff {b : Budget} {s s' s'' : Meter} (first : s.readings ≤ s'.readings)
    (second : s'.readings ≤ s''.readings) :
    b.LateBetween s s'' ↔ b.LateBetween s s' ∨ b.LateBetween s' s'' := by
  constructor
  · rintro ⟨n, above, below, late⟩
    rcases Nat.lt_or_ge n s'.readings with early | later
    · exact .inl ⟨n, above, early, late⟩
    · exact .inr ⟨n, later, below, late⟩
  · rintro (⟨n, above, below, late⟩ | ⟨n, above, below, late⟩)
    · exact ⟨n, above, Nat.lt_of_lt_of_le below second, late⟩
    · exact ⟨n, Nat.le_trans first above, below, late⟩

theorem Budget.not_lateBetween_self (b : Budget) (s : Meter) : ¬b.LateBetween s s := by
  rintro ⟨n, above, below, -⟩
  omega

theorem gives_pure (v : α) : Gives (pure v) v where
  readings_le _ _ := Nat.le_refl _
  exhausted_iff b s := by
    show s.exhausted = true ↔ s.exhausted = true ∨ b.LateBetween s s
    rw [or_iff_left (b.not_lateBetween_self s)]
  value _ _ _ := rfl

theorem gives_bind (first : Gives x v) (next : ∀ a, Gives (f a) (w a)) :
    Gives (x >>= f) (w v) where
  readings_le b s := Nat.le_trans (first.readings_le b s) ((next _).readings_le b _)
  exhausted_iff b s := by
    show (f (x b s).1 b (x b s).2).2.exhausted = true ↔ _
    rw [(next _).exhausted_iff, first.exhausted_iff, or_assoc,
      ← Budget.lateBetween_iff (first.readings_le b s) ((next _).readings_le b _)]
    rfl
  value b s inTime := by
    have apart : ¬(b.LateBetween s (x b s).2 ∨
        b.LateBetween (x b s).2 (f (x b s).1 b (x b s).2).2) := by
      rw [← Budget.lateBetween_iff (first.readings_le b s) ((next _).readings_le b _)]
      exact inTime
    have value := (next (x b s).1).value b (x b s).2 fun late => apart (.inr late)
    show (f (x b s).1 b (x b s).2).1 = w v
    rw [value, first.value b s fun late => apart (.inl late)]

theorem gives_available : Gives available true where
  readings_le b s := by
    unfold available
    split <;> exact Nat.le_succ _
  exhausted_iff b s := by
    unfold available
    split
    next late => exact iff_of_true rfl (.inr ⟨_, Nat.le_refl _, Nat.lt_succ_self _, late⟩)
    next early =>
      rw [or_iff_left]
      rintro ⟨n, above, below, late⟩
      obtain rfl : n = s.readings := Nat.le_antisymm (Nat.le_of_lt_succ below) above
      exact early late
  value b s inTime := by
    unfold available at inTime ⊢
    split
    next late =>
      rw [if_pos late] at inTime
      exact absurd ⟨_, Nat.le_refl _, Nat.lt_succ_self _, late⟩ inTime
    next => rfl

theorem gives_unlessExhausted {otherwise : α} (goesOn : Gives x v) :
    Gives (unlessExhausted otherwise x) v :=
  gives_bind (w := fun ok => if ok then v else otherwise) gives_available fun ok => by
    cases ok with
    | false => exact gives_pure otherwise
    | true => exact goesOn

/-- A run from a fresh meter. -/
theorem Gives.run (gives : Gives x v) (b : Budget) (first : Nat) :
    ((x b ⟨first, false⟩).2.exhausted = false ↔
        ∀ n, first ≤ n → n < (x b ⟨first, false⟩).2.readings → b.clock n < b.deadline) ∧
      ((x b ⟨first, false⟩).2.exhausted = false → (x b ⟨first, false⟩).1 = v) := by
  have exhausted := gives.exhausted_iff b ⟨first, false⟩
  rw [or_iff_right Bool.false_ne_true] at exhausted
  have inTime : (x b ⟨first, false⟩).2.exhausted = false ↔
      ¬b.LateBetween ⟨first, false⟩ (x b ⟨first, false⟩).2 := by
    rw [← exhausted, Bool.not_eq_true]
  constructor
  · rw [inTime]
    simp only [Budget.LateBetween, Budget.Late, not_exists, not_and, Nat.not_le]
  · intro fresh
    exact gives.value b _ (inTime.mp fresh)

end Budgeted
