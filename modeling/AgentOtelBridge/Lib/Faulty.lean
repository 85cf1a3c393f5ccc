import Mathlib.Data.List.Basic

/-!
# Programs whose input and output may fail

A program reads and writes a world.  Each read and each write meets its fate in a
script: it may be done, it may fail, and the program may crash there.  A write that
fails or crashes has taken place or not.  Others may change the world before a
read.  A program that has returned an error goes on in its caller; one that has
crashed does not.

`Triple` is the rule of pre- and postconditions: one postcondition for each way a
program ends.  Conditions are on the world and on the number of faults so far, so
that a program can be shown to fail only when something else has.
-/

namespace Faulty

/-! ## Programs -/

inductive Outcome where
  | ok
  | err (error : String)
  | crash

/-- The fate of a read: what others do to the world before, and how it ends. -/
structure ReadFate (ω : Type) where
  edit : ω → ω
  outcome : Outcome

inductive WriteFate where
  | ok
  | errBefore (error : String)
  | errAfter (error : String)
  | crashBefore
  | crashAfter

/-- A world, the script of what is to come, and the faults there were. -/
structure Machine (ω : Type) where
  world : ω
  reads : List (ReadFate ω)
  writes : List WriteFate
  faults : Nat

inductive Exit (α : Type) where
  | ok (a : α)
  | err (error : String)
  | crash
deriving DecidableEq, Repr

def Prog (ω α : Type) := Machine ω → Exit α × Machine ω

section

variable {ω α β : Type}

def Prog.pure (a : α) : Prog ω α := fun m => (.ok a, m)

def Prog.bind (p : Prog ω α) (f : α → Prog ω β) : Prog ω β := fun m =>
  match p m with
  | (.ok a, m') => f a m'
  | (.err error, m') => (.err error, m')
  | (.crash, m') => (.crash, m')

end

instance {ω : Type} : Monad (Prog ω) where
  pure := Prog.pure
  bind := Prog.bind

section

variable {ω α β : Type}

def throw (error : String) : Prog ω α := fun m => (.err error, m)

/-- An error unless a condition holds. -/
def ensure (φ : Prop) [Decidable φ] (error : String) : Prog ω Unit :=
  if φ then Prog.pure () else throw error

/-- The result of a program, also when it is an error. -/
def attempt (p : Prog ω α) : Prog ω (Except String α) := fun m =>
  match p m with
  | (.ok a, m') => (.ok (.ok a), m')
  | (.err error, m') => (.ok (.error error), m')
  | (.crash, m') => (.crash, m')

/-- What the program itself holds is read without a fate. -/
def get (f : ω → α) : Prog ω α := fun m => (.ok (f m.world), m)

def modify (f : ω → ω) : Prog ω Unit := fun m => (.ok (), { m with world := f m.world })

/-- A read, and what the program makes of it. -/
def read (f : ω → Except String α) : Prog ω α := fun m =>
  match m.reads with
  | [] =>
    match f m.world with
    | .ok a => (.ok a, m)
    | .error error => (.err error, m)
  | fate :: reads =>
    let m := { m with world := fate.edit m.world, reads := reads }
    match fate.outcome with
    | .ok =>
      match f m.world with
      | .ok a => (.ok a, m)
      | .error error => (.err error, m)
    | .err error => (.err error, { m with faults := m.faults + 1 })
    | .crash => (.crash, { m with faults := m.faults + 1 })

def write (f : ω → ω) : Prog ω Unit := fun m =>
  match m.writes with
  | [] => (.ok (), { m with world := f m.world })
  | fate :: writes =>
    let m := { m with writes := writes }
    match fate with
    | .ok => (.ok (), { m with world := f m.world })
    | .errBefore error => (.err error, { m with faults := m.faults + 1 })
    | .errAfter error => (.err error, { m with world := f m.world, faults := m.faults + 1 })
    | .crashBefore => (.crash, { m with faults := m.faults + 1 })
    | .crashAfter => (.crash, { m with world := f m.world, faults := m.faults + 1 })

/-- A read that others do not come before, and that does not fail. -/
def ReadFate.Quiet (fate : ReadFate ω) : Prop :=
  fate.edit = id ∧ ∀ error, fate.outcome ≠ .err error

/-! ## Triples -/

variable {A : ReadFate ω → Prop} {P P' : ω → Nat → Prop} {Q Q' : α → ω → Nat → Prop}
  {E E' C C' : ω → Nat → Prop}

/-- The postcondition of the way a program has ended. -/
def Ends (Q : α → ω → Nat → Prop) (E C : ω → Nat → Prop) : Exit α → ω → Nat → Prop
  | .ok a => Q a
  | .err _ => E
  | .crash => C

/-- From a world in `P` a program ends in `Q`, with an error in `E`, or crashes in `C`,
when the script of the reads keeps to `A`. -/
def Triple (A : ReadFate ω → Prop) (P : ω → Nat → Prop) (p : Prog ω α)
    (Q : α → ω → Nat → Prop) (E C : ω → Nat → Prop) : Prop :=
  ∀ m : Machine ω, (∀ fate ∈ m.reads, A fate) → P m.world m.faults →
    (∀ fate ∈ (p m).2.reads, A fate) ∧
      Ends Q E C (p m).1 (p m).2.world (p m).2.faults

namespace Triple

theorem conseq {p : Prog ω α} (h : Triple A P p Q E C) (hp : ∀ w n, P' w n → P w n)
    (hq : ∀ a w n, Q a w n → Q' a w n) (he : ∀ w n, E w n → E' w n)
    (hc : ∀ w n, C w n → C' w n) : Triple A P' p Q' E' C' := by
  intro m hA hP
  obtain ⟨hA', hE⟩ := h m hA (hp _ _ hP)
  refine ⟨hA', ?_⟩
  cases hx : (p m).1 with
  | ok a =>
      rw [hx] at hE
      exact hq a _ _ hE
  | err error =>
      rw [hx] at hE
      exact he _ _ hE
  | crash =>
      rw [hx] at hE
      exact hc _ _ hE

theorem pre {p : Prog ω α} (h : Triple A P p Q E C) (hp : ∀ w n, P' w n → P w n) :
    Triple A P' p Q E C :=
  h.conseq hp (fun _ _ _ => id) (fun _ _ => id) fun _ _ => id

theorem post {p : Prog ω α} (h : Triple A P p Q E C) (hq : ∀ a w n, Q a w n → Q' a w n) :
    Triple A P p Q' E C :=
  h.conseq (fun _ _ => id) hq (fun _ _ => id) fun _ _ => id

/-- Two triples of a program at once. -/
theorem both {p : Prog ω α} (h : Triple A P p Q E C) (h' : Triple A P' p Q' E' C') :
    Triple A (fun w n => P w n ∧ P' w n) p (fun a w n => Q a w n ∧ Q' a w n)
      (fun w n => E w n ∧ E' w n) fun w n => C w n ∧ C' w n := by
  intro m hA hP
  obtain ⟨hA', hE⟩ := h m hA hP.1
  obtain ⟨-, hE'⟩ := h' m hA hP.2
  refine ⟨hA', ?_⟩
  cases hx : (p m).1 <;> rw [hx] at hE hE' <;> exact ⟨hE, hE'⟩

/-- What does not depend on the world is moved out of a precondition. -/
theorem of_pure {φ : Prop} {p : Prog ω α} (h : φ → Triple A P p Q E C) :
    Triple A (fun w n => φ ∧ P w n) p Q E C :=
  fun m hA hP => h hP.1 m hA hP.2

theorem of_exists {ι : Type} {F : ι → ω → Nat → Prop} {p : Prog ω α}
    (h : ∀ i, Triple A (F i) p Q E C) : Triple A (fun w n => ∃ i, F i w n) p Q E C :=
  fun m hA ⟨i, hP⟩ => h i m hA hP

theorem pure {a : α} (h : ∀ w n, P w n → Q a w n) :
    Triple A P (Pure.pure a : Prog ω α) Q E C :=
  fun _ hA hP => ⟨hA, h _ _ hP⟩

theorem throw {error : String} (h : ∀ w n, P w n → E w n) :
    Triple A P (Faulty.throw error : Prog ω α) Q E C :=
  fun _ hA hP => ⟨hA, h _ _ hP⟩

theorem get {f : ω → α} (h : ∀ w n, P w n → Q (f w) w n) :
    Triple A P (Faulty.get f) Q E C :=
  fun _ hA hP => ⟨hA, h _ _ hP⟩

theorem modify {f : ω → ω} {Q : Unit → ω → Nat → Prop} (h : ∀ w n, P w n → Q () (f w) n) :
    Triple A P (Faulty.modify f) Q E C :=
  fun _ hA hP => ⟨hA, h _ _ hP⟩

theorem bind {R : α → ω → Nat → Prop} {Q : β → ω → Nat → Prop} {p : Prog ω α}
    {f : α → Prog ω β} (h : Triple A P p R E C) (hf : ∀ a, Triple A (R a) (f a) Q E C) :
    Triple A P (p >>= f) Q E C := by
  intro m hA hP
  obtain ⟨hA', hE⟩ := h m hA hP
  change (∀ fate ∈ (Prog.bind p f m).2.reads, A fate) ∧
    Ends Q E C (Prog.bind p f m).1 (Prog.bind p f m).2.world (Prog.bind p f m).2.faults
  unfold Prog.bind
  cases hx : p m with
  | mk exit m' =>
    rw [hx] at hA' hE
    cases exit with
    | ok a => exact hf a m' hA' hE
    | err error => exact ⟨hA', hE⟩
    | crash => exact ⟨hA', hE⟩

theorem attempt {p : Prog ω α} {Q : Except String α → ω → Nat → Prop}
    (h : Triple A P p (fun a => Q (.ok a)) (fun w n => ∀ error, Q (.error error) w n) C) :
    Triple A P (Faulty.attempt p) Q E C := by
  intro m hA hP
  obtain ⟨hA', hE⟩ := h m hA hP
  unfold Faulty.attempt
  cases hx : p m with
  | mk exit m' =>
    rw [hx] at hA' hE
    cases exit with
    | ok a => exact ⟨hA', hE⟩
    | err error => exact ⟨hA', hE error⟩
    | crash => exact ⟨hA', hE⟩

/-- A program that is tried, and what is done with its result or its error. -/
theorem recover {R : α → ω → Nat → Prop} {F : ω → Nat → Prop} {Q : β → ω → Nat → Prop}
    {p : Prog ω α} {f : Except String α → Prog ω β} (h : Triple A P p R F C)
    (hok : ∀ a, Triple A (R a) (f (.ok a)) Q E C)
    (herr : ∀ error, Triple A F (f (.error error)) Q E C) :
    Triple A P (Faulty.attempt p >>= f) Q E C := by
  refine bind (R := fun result w n => (∀ a, result = .ok a → R a w n) ∧
    ∀ error, result = .error error → F w n) (attempt (h.conseq (fun _ _ => id) ?_ ?_ ?_)) ?_
  · exact fun a w n hR => ⟨fun b same => Except.ok.inj same ▸ hR, fun error same => by cases same⟩
  · exact fun w n hF error => ⟨fun a same => (by cases same), fun _ _ => hF⟩
  · exact fun _ _ => id
  · intro result
    cases result with
    | ok a => exact (hok a).pre fun w n both => both.1 a rfl
    | error error => exact (herr error).pre fun w n both => both.2 error rfl

theorem ite {φ : Prop} [Decidable φ] {p q : Prog ω α} (hp : φ → Triple A P p Q E C)
    (hq : ¬ φ → Triple A P q Q E C) : Triple A P (if φ then p else q) Q E C := by
  split
  · exact hp ‹_›
  · exact hq ‹_›

theorem ensure {φ : Prop} [Decidable φ] {error : String}
    (he : ¬ φ → ∀ w n, P w n → E w n) :
    Triple A P (Faulty.ensure φ error) (fun _ w n => φ ∧ P w n) E C :=
  ite (fun hφ => pure fun _ _ hP => ⟨hφ, hP⟩) fun hφ => throw (he hφ)

/-- A read that may be edited and may fail. -/
theorem read {f : ω → Except String α} (hnow : ∀ w n, P w n → Ends Q E C
      (match f w with | .ok a => .ok a | .error error => .err error) w n)
    (hfate : ∀ fate, A fate → ∀ w n, P w n → P (fate.edit w) n)
    (herr : ∀ fate error, A fate → fate.outcome = .err error →
      ∀ w n, P w n → E w (n + 1))
    (hcrash : ∀ w n, P w n → C w (n + 1)) : Triple A P (Faulty.read f) Q E C := by
  intro m hA hP
  unfold Faulty.read
  cases hr : m.reads with
  | nil =>
      have hn := hnow _ _ hP
      simp only
      split <;> rename_i hx <;> rw [hx] at hn
      · exact ⟨hA, hn⟩
      · exact ⟨hA, hn⟩
  | cons fate reads =>
      have hA' : ∀ fate ∈ reads, A fate := fun fate' h => hA fate' (hr ▸ List.mem_cons_of_mem _ h)
      have hfa : A fate := hA fate (hr ▸ List.mem_cons_self)
      have hP' := hfate fate hfa _ _ hP
      have hn := hnow _ _ hP'
      simp only
      cases ho : fate.outcome with
      | ok =>
          simp only
          split <;> rename_i hx <;> rw [hx] at hn
          · exact ⟨hA', hn⟩
          · exact ⟨hA', hn⟩
      | err error => exact ⟨hA', herr fate error hfa ho _ _ hP'⟩
      | crash => exact ⟨hA', hcrash _ _ hP'⟩

/-- A quiet read sees the world as it is. -/
theorem readQuiet {f : ω → Except String α} (hnow : ∀ w n, P w n → Ends Q E C
      (match f w with | .ok a => .ok a | .error error => .err error) w n)
    (hcrash : ∀ w n, P w n → C w (n + 1)) :
    Triple ReadFate.Quiet P (Faulty.read f) Q E C :=
  read hnow (fun fate hq w n hP => by rw [hq.1]; exact hP)
    (fun fate error hq ho => absurd ho (hq.2 error)) hcrash

/-- A write is done, or it is a fault and has taken place or not. -/
theorem write {f : ω → ω} {Q : Unit → ω → Nat → Prop} (hq : ∀ w n, P w n → Q () (f w) n)
    (he : ∀ w n, P w n → E w (n + 1) ∧ E (f w) (n + 1))
    (hc : ∀ w n, P w n → C w (n + 1) ∧ C (f w) (n + 1)) :
    Triple A P (Faulty.write f) Q E C := by
  intro m hA hP
  unfold Faulty.write
  cases m.writes with
  | nil => exact ⟨hA, hq _ _ hP⟩
  | cons fate writes =>
      cases fate with
      | ok => exact ⟨hA, hq _ _ hP⟩
      | errBefore error => exact ⟨hA, (he _ _ hP).1⟩
      | errAfter error => exact ⟨hA, (he _ _ hP).2⟩
      | crashBefore => exact ⟨hA, (hc _ _ hP).1⟩
      | crashAfter => exact ⟨hA, (hc _ _ hP).2⟩

/-- A loop over a list, with an invariant on what is done. -/
theorem forM {γ : Type} {f : γ → Prog ω Unit} (I : List γ → ω → Nat → Prop) :
    ∀ (todo done : List γ),
      (∀ before x after, done ++ todo = before ++ x :: after →
        Triple A (I before) (f x) (fun _ => I (before ++ [x])) E C) →
      Triple A (I done) (todo.forM f) (fun _ => I (done ++ todo)) E C
  | [], done, _ => by
      rw [List.append_nil]
      exact pure fun _ _ => id
  | x :: todo, done, h => by
      refine bind (h done x todo rfl) fun _ => ?_
      have hrest := forM I todo (done ++ [x]) fun before y after heq =>
        h before y after (by rw [← heq]; simp)
      simpa using hrest

/-- The same for a loop that builds a value. -/
theorem foldlM {γ δ : Type} {f : δ → γ → Prog ω δ} (I : List γ → δ → ω → Nat → Prop) :
    ∀ (todo done : List γ) (d : δ),
      (∀ before x after d, done ++ todo = before ++ x :: after →
        Triple A (I before d) (f d x) (I (before ++ [x])) E C) →
      Triple A (I done d) (todo.foldlM f d) (I (done ++ todo)) E C
  | [], done, _, _ => by
      rw [List.append_nil]
      exact pure fun _ _ => id
  | x :: todo, done, d, h => by
      refine bind (h done x todo d rfl) fun d' => ?_
      have hrest := foldlM I todo (done ++ [x]) d' fun before y after e heq =>
        h before y after e (by rw [← heq]; simp)
      simpa using hrest

end Triple

/-! ## Invariants -/

/-- A program keeps what holds of the world, however it ends. -/
def Keeps (A : ReadFate ω → Prop) (I : ω → Prop) (p : Prog ω α) : Prop :=
  Triple A (fun w _ => I w) p (fun _ w _ => I w) (fun w _ => I w) fun w _ => I w

namespace Keeps

variable {I : ω → Prop}

theorem pure (a : α) : Keeps A I (Pure.pure a : Prog ω α) := Triple.pure fun _ _ => id

theorem throw (error : String) : Keeps A I (Faulty.throw error : Prog ω α) :=
  Triple.throw fun _ _ => id

theorem get (f : ω → α) : Keeps A I (Faulty.get f) := Triple.get fun _ _ => id

theorem modify {f : ω → ω} (h : ∀ w, I w → I (f w)) : Keeps A I (Faulty.modify f) :=
  Triple.modify fun w _ => h w

theorem bind {p : Prog ω α} {f : α → Prog ω β} (h : Keeps A I p) (hf : ∀ a, Keeps A I (f a)) :
    Keeps A I (p >>= f) :=
  Triple.bind h hf

theorem attempt {p : Prog ω α} (h : Keeps A I p) : Keeps A I (Faulty.attempt p) :=
  Triple.attempt (Triple.conseq h (fun _ _ => id) (fun _ _ _ => id) (fun _ _ h _ => h)
    fun _ _ => id)

theorem ite {φ : Prop} [Decidable φ] {p q : Prog ω α} (hp : Keeps A I p) (hq : Keeps A I q) :
    Keeps A I (if φ then p else q) :=
  Triple.ite (fun _ => hp) fun _ => hq

theorem ensure (φ : Prop) [Decidable φ] (error : String) :
    Keeps A I (Faulty.ensure φ error) :=
  ite (pure ()) (throw error)

theorem read {f : ω → Except String α} (h : ∀ fate, A fate → ∀ w, I w → I (fate.edit w)) :
    Keeps A I (Faulty.read f) := by
  refine Triple.read (fun w n hI => ?_) (fun fate hA w _ => h fate hA w) (fun _ _ _ _ _ _ => id)
    fun _ _ => id
  cases f w <;> exact hI

theorem write {f : ω → ω} (h : ∀ w, I w → I (f w)) : Keeps A I (Faulty.write f) :=
  Triple.write (fun w _ => h w) (fun w _ hI => ⟨hI, h w hI⟩) fun w _ hI => ⟨hI, h w hI⟩

theorem forM {γ : Type} {f : γ → Prog ω Unit} (h : ∀ x, Keeps A I (f x)) (l : List γ) :
    Keeps A I (l.forM f) :=
  Triple.forM (fun _ w _ => I w) l [] fun _ x _ _ => h x

end Keeps

end

end Faulty
