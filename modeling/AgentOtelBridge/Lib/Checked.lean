import Mathlib.Data.List.Basic

/-!
# Computations that check

A function that throws at the first check that fails is an `Except`, and what it gives is
given behind all of its checks.  The lemmas read a run that gives something back into the
checks it has passed: one for a guard, one for a sequence and one for each loop.

A fold that checks keeps an invariant when each of its steps does (`foldlM_invariant`).
-/

namespace Checked

variable {ε α β : Type}

/-- A guard: what does not hold is thrown. -/
def require (holds : Prop) [Decidable holds] (error : ε) : Except ε Unit :=
  if holds then .ok () else .error error

@[simp] theorem require_eq_ok {holds : Prop} [Decidable holds] {error : ε} {u : Unit} :
    require holds error = .ok u ↔ holds := by
  unfold require
  split
  next held => simp [held]
  next failed => simp [failed]

/-- A value that must be there. -/
def given (value : Option α) (error : ε) : Except ε α :=
  match value with
  | some a => .ok a
  | none => .error error

@[simp] theorem given_eq_ok {value : Option α} {error : ε} {a : α} :
    given value error = .ok a ↔ value = some a := by
  cases value with
  | none => simp [given]
  | some b => simp [given]

@[simp] theorem bind_eq_ok {x : Except ε α} {f : α → Except ε β} {b : β} :
    (x >>= f) = .ok b ↔ ∃ a, x = .ok a ∧ f a = .ok b := by
  cases x with
  | error e =>
      constructor
      · intro thrown
        cases thrown
      · rintro ⟨a, thrown, -⟩
        cases thrown
  | ok a =>
      constructor
      · exact fun given => ⟨a, rfl, given⟩
      · rintro ⟨a', same, given⟩
        cases same
        exact given

theorem ok_bind (a : α) (f : α → Except ε β) : (Except.ok a >>= f) = f a := rfl

@[simp] theorem pure_eq_ok {a b : α} : (pure a : Except ε α) = .ok b ↔ a = b :=
  ⟨Except.ok.inj, congrArg Except.ok⟩

/-- A loop over checks has passed each of them. -/
@[simp] theorem forM_eq_ok {check : α → Except ε Unit} {list : List α} {u : Unit} :
    list.forM check = .ok u ↔ ∀ a ∈ list, check a = .ok () := by
  induction list with
  | nil => simp
  | cons a list ih =>
      rw [List.forM_eq_forM] at ih ⊢
      rw [List.forM_cons, bind_eq_ok, List.forall_mem_cons, ih]
      constructor
      · rintro ⟨⟨⟩, first, rest⟩
        exact ⟨first, rest⟩
      · exact fun both => ⟨(), both⟩

theorem foldlM_cons_eq_ok {step : β → α → Except ε β} {a : α} {list : List α} {b c : β} :
    (a :: list).foldlM step b = .ok c ↔ ∃ b', step b a = .ok b' ∧ list.foldlM step b' = .ok c := by
  rw [List.foldlM_cons, bind_eq_ok]

theorem foldlM_append_eq_ok {step : β → α → Except ε β} {front back : List α} {b c : β} :
    (front ++ back).foldlM step b = .ok c ↔
      ∃ b', front.foldlM step b = .ok b' ∧ back.foldlM step b' = .ok c := by
  rw [List.foldlM_append, bind_eq_ok]

/-- What each step keeps is kept by the fold. -/
theorem foldlM_invariant {I : β → Prop} {step : β → α → Except ε β} {list : List α} {b c : β}
    (keeps : ∀ b, ∀ a ∈ list, ∀ b', I b → step b a = .ok b' → I b') (start : I b)
    (run : list.foldlM step b = .ok c) : I c := by
  induction list generalizing b with
  | nil =>
      obtain rfl := Except.ok.inj run
      exact start
  | cons a list ih =>
      obtain ⟨b', given, rest⟩ := foldlM_cons_eq_ok.mp run
      exact ih (fun b a here => keeps b a (List.mem_cons_of_mem _ here))
        (keeps b a List.mem_cons_self b' start given) rest

/-- Whether a computation gives something, and it passes a test. -/
def gives (x : Except ε α) (test : α → Bool) : Bool :=
  match x with
  | .ok a => test a
  | .error _ => false

theorem gives_iff {x : Except ε α} {test : α → Bool} :
    gives x test = true ↔ ∃ a, x = .ok a ∧ test a = true := by
  cases x with
  | error e => simp [gives]
  | ok a => simp [gives]

end Checked
