import AgentOtelBridge.Lib.Faulty

/-!
# Runs without faults

Behind the end of its script, nothing fails a program.  `Settles` is the run of a
program there: how it ends, and in which world.  Its rules follow a program step by
step, and a loop by an invariant.

`Scripted` is the run on a script that goes on: what the next fates make of one step.
-/

namespace Faulty

variable {ω α β : Type} {w w' w'' : ω}

/-- A program ends so when nothing fails any more. -/
def Settles (p : Prog ω α) (w : ω) (exit : Exit α) (w' : ω) : Prop :=
  ∀ n, p ⟨w, [], [], n⟩ = (exit, ⟨w', [], [], n⟩)

namespace Settles

theorem unique {p : Prog ω α} {exit exit' : Exit α} (h : Settles p w exit w')
    (h' : Settles p w exit' w'') : exit = exit' ∧ w' = w'' := by
  have same := (h 0).symm.trans (h' 0)
  simp only [Prod.mk.injEq, Machine.mk.injEq] at same
  exact ⟨same.1, same.2.1⟩

theorem pure (a : α) : Settles (Pure.pure a : Prog ω α) w (.ok a) w := fun _ => rfl

theorem get (f : ω → α) : Settles (Faulty.get f) w (.ok (f w)) w := fun _ => rfl

theorem write (f : ω → ω) : Settles (Faulty.write f) w (.ok ()) (f w) := fun _ => rfl

theorem read_ok {f : ω → Except String α} {a : α} (result : f w = .ok a) :
    Settles (Faulty.read f) w (.ok a) w := by
  intro n
  simp [Faulty.read, result]

theorem read_error {f : ω → Except String α} {error : String} (result : f w = .error error) :
    Settles (Faulty.read f) w (.err error) w := by
  intro n
  simp [Faulty.read, result]

theorem bind {p : Prog ω α} {f : α → Prog ω β} {a : α} {exit : Exit β} (h : Settles p w (.ok a) w')
    (hf : Settles (f a) w' exit w'') : Settles (p >>= f) w exit w'' := by
  intro n
  show Prog.bind p f _ = _
  rw [Prog.bind, h n]
  exact hf n

theorem bind_error {p : Prog ω α} {f : α → Prog ω β} {error : String}
    (h : Settles p w (.err error) w') : Settles (p >>= f) w (.err error) w' := by
  intro n
  show Prog.bind p f _ = _
  rw [Prog.bind, h n]

theorem attempt {p : Prog ω α} {a : α} (h : Settles p w (.ok a) w') :
    Settles (Faulty.attempt p) w (.ok (.ok a)) w' := by
  intro n
  rw [Faulty.attempt, h n]

theorem attempt_error {p : Prog ω α} {error : String} (h : Settles p w (.err error) w') :
    Settles (Faulty.attempt p) w (.ok (.error error)) w' := by
  intro n
  rw [Faulty.attempt, h n]

theorem ensure {φ : Prop} [Decidable φ] (holds : φ) (error : String) :
    Settles (Faulty.ensure φ error : Prog ω Unit) w (.ok ()) w := by
  rw [Faulty.ensure, if_pos holds]
  exact pure ()

/-- A loop, with an invariant on what is done. -/
theorem forM {γ : Type} {f : γ → Prog ω Unit} {I : List γ → ω → Prop} :
    ∀ (todo done : List γ) {w : ω}, I done w →
      (∀ before x after w, done ++ todo = before ++ x :: after → I before w →
        ∃ w', Settles (f x) w (.ok ()) w' ∧ I (before ++ [x]) w') →
      ∃ w', Settles (todo.forM f) w (.ok ()) w' ∧ I (done ++ todo) w'
  | [], done, w, first, _ => ⟨w, pure (), by rwa [List.append_nil]⟩
  | x :: todo, done, w, first, step => by
      obtain ⟨w₁, runs, next_⟩ := step done x todo w rfl first
      obtain ⟨w₂, rest, last⟩ := forM (I := I) todo (done ++ [x]) next_ fun before y after w split_ =>
        step before y after w (by rw [← split_]; simp)
      exact ⟨w₂, runs.bind rest, by simpa using last⟩

end Settles

/-! ## One step on a script -/

section

variable {reads : List (ReadFate ω)} {writes : List WriteFate} {n : Nat}

/-- A read that is done. -/
def ReadFate.done : ReadFate ω := ⟨id, .ok⟩

/-- A read that fails. -/
def ReadFate.fails : ReadFate ω := ⟨id, .err "Input/output error"⟩

theorem bind_ok {p : Prog ω α} {f : α → Prog ω β} {a : α} {m m' : Machine ω}
    (h : p m = (.ok a, m')) : (p >>= f) m = f a m' := by
  show Prog.bind p f m = _
  rw [Prog.bind, h]

theorem bind_err {p : Prog ω α} {f : α → Prog ω β} {error : String} {m m' : Machine ω}
    (h : p m = (.err error, m')) : (p >>= f) m = (.err error, m') := by
  show Prog.bind p f m = _
  rw [Prog.bind, h]

theorem attempt_ok {p : Prog ω α} {a : α} {m m' : Machine ω} (h : p m = (.ok a, m')) :
    attempt p m = (.ok (.ok a), m') := by
  rw [attempt, h]

theorem attempt_err {p : Prog ω α} {error : String} {m m' : Machine ω} (h : p m = (.err error, m')) :
    attempt p m = (.ok (.error error), m') := by
  rw [attempt, h]

theorem read_done {f : ω → Except String α} {a : α} (result : f w = .ok a) :
    read f ⟨w, .done :: reads, writes, n⟩ = (.ok a, ⟨w, reads, writes, n⟩) := by
  simp [read, ReadFate.done, result]

theorem read_fails (f : ω → Except String α) :
    read f ⟨w, .fails :: reads, writes, n⟩ =
      (.err "Input/output error", ⟨w, reads, writes, n + 1⟩) := by
  simp [read, ReadFate.fails]

theorem write_end (f : ω → ω) : write f ⟨w, reads, [], n⟩ = (.ok (), ⟨f w, reads, [], n⟩) := rfl

/-- A loop of writes that nothing fails. -/
theorem forM_write_end {γ : Type} (f : γ → ω → ω) (l : List γ) (w : ω) :
    (l.forM fun x => write (f x)) ⟨w, reads, [], n⟩ =
      (.ok (), ⟨l.foldl (fun w x => f x w) w, reads, [], n⟩) := by
  induction l generalizing w with
  | nil => rfl
  | cons x l ih => exact (bind_ok (write_end (f x))).trans (ih (f x w))

end

end Faulty
