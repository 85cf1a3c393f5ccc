import AgentOtelBridge.Cli.HomeTransaction

/-!
# Crash consistency of a transaction

An apply may stop anywhere, and so may each of the rollbacks that follow it.  A later
process finds the files and the journals that are saved, and nothing of what the
earlier ones held in memory.  Whatever happened, the next rollback that meets no fault
restores every target.
-/

namespace AgentOtelBridge.HomeApply

open Faulty

/-! ## Later processes -/

/-- A later process starts from what is saved, and nobody else edits the files. -/
structure Later (w : World) (m : Machine World) : Prop where
  disk : m.world.disk = w.disk
  journals : m.world.journals = w.journals
  quiet : ∀ fate ∈ m.reads, fate.Quiet
  faults : m.faults = 0

/-- The worlds that rollbacks of a journal leave, one after the other. -/
inductive Rollbacks (path : Path) (w : World) : World → Prop where
  | refl : Rollbacks path w w
  | rollback {w' : World} (m : Machine World) (h : Rollbacks path w w') (hm : Later w' m) :
      Rollbacks path w (rollback path m).2.world

/-- A rollback that meets no fault restores every target; a journal that says it is
compensated for says so of a disk whose targets are restored. -/
structure Recovers (path : Path) (ts : List Target) (w : World) : Prop where
  saved : ∃ j, w.journals path = some j ∧ j.targets = ts
  restores : ∀ j m, w.journals path = some j → j.status ≠ .compensated → Later w m →
    (rollback path m).2.faults = 0 → (rollback path m).1 = .ok () ∧
      ∀ t ∈ ts, t.IsBefore ((rollback path m).2.world.disk t.path)
  compensated : ∀ j, w.journals path = some j → j.status = .compensated →
    ∀ t ∈ ts, t.IsBefore (w.disk t.path)

/-- The saved journal is compensated for, or a rollback takes it up. -/
def Accepted (path : Path) (ts : List Target) (w : World) : Prop :=
  ∃ j, w.journals path = some j ∧
    ((j.status = .compensated ∧ ∀ t ∈ ts, t.IsBefore (w.disk t.path)) ∨ j.status.eligible = true)

section

variable {path : Path} {ts : List Target} {S : Status → Prop} {w : World}

/-- What is known of the files of a journal is known of its targets. -/
theorem Journal.targets_before {j : Journal} {disk : Disk} (h : j.targets = ts)
    (hf : ∀ file ∈ j.files, file.target.IsBefore (disk file.path)) :
    ∀ t ∈ ts, t.IsBefore (disk t.path) := by
  intro t ht
  rw [← h] at ht
  obtain ⟨file, hm, rfl⟩ := List.mem_map.mp ht
  exact hf file hm

theorem Recoverable.compensated {j : Journal} {disk : Disk} (h : Recoverable path ts S j disk)
    (hs : j.status = .compensated) : ∀ t ∈ ts, t.IsBefore (disk t.path) := by
  have hd := h.describes
  unfold Journal.Describes at hd
  rw [hs] at hd
  exact Journal.targets_before h.targets hd

theorem Saved.mono {S' : Status → Prop} (h : Saved path ts S w) (hS : ∀ s, S s → S' s) :
    Saved path ts S' w := by
  obtain ⟨j, hj, hr⟩ := h
  exact ⟨j, hj, hr.targets, hr.scope, hS _ hr.status, hr.describes⟩

/-! ## A rollback of a saved journal -/

/-- A rollback ends with a saved journal that describes the disk, whatever stopped it. -/
theorem Saved.rollback (hw : WellFormed ts) (hS : ∀ s : Status, s.ofRollback → S s)
    (h : Saved path ts S w) {m : Machine World} (hm : Later w m) :
    Saved path ts S (rollback path m).2.world := by
  obtain ⟨j, hj, hr⟩ := h
  have hends := (rollback_triple hw hS j m hm.quiet ⟨hm.journals ▸ hj, hm.disk ▸ hr⟩).2
  cases hx : (HomeApply.rollback path m).1 with
  | ok =>
      rw [hx] at hends
      obtain ⟨j', hj', hu⟩ := hends
      exact ⟨j', hj', hu.recoverable (hS _ trivial) (.inr rfl)⟩
  | err error =>
      rw [hx] at hends
      exact hends.2
  | crash =>
      rw [hx] at hends
      exact hends.2

theorem Saved.rollbacks (hw : WellFormed ts) (hS : ∀ s : Status, s.ofRollback → S s)
    (h : Saved path ts S w) {w' : World} (hr : Rollbacks path w w') : Saved path ts S w' := by
  induction hr with
  | refl => exact h
  | rollback m _ hm ih => exact ih.rollback hw hS hm

/-- A rollback that returns has restored every target. -/
theorem Saved.restored (hw : WellFormed ts) (hS : ∀ s : Status, s.ofRollback → S s)
    (h : Saved path ts S w) {m : Machine World} (hm : Later w m)
    (hok : (HomeApply.rollback path m).1 = .ok ()) :
    ∀ t ∈ ts, t.IsBefore ((HomeApply.rollback path m).2.world.disk t.path) := by
  obtain ⟨j, hj, hr⟩ := h
  have hends := (rollback_triple hw hS j m hm.quiet ⟨hm.journals ▸ hj, hm.disk ▸ hr⟩).2
  rw [hok] at hends
  obtain ⟨j', -, hu⟩ := hends
  exact Journal.targets_before hu.targets hu.before

/-- A rollback that meets no fault returns, unless the journal is compensated for. -/
theorem Saved.rollback_ok (hw : WellFormed ts) (hS : ∀ s : Status, s.ofRollback → S s)
    (h : Saved path ts S w) (hs : ∀ j, w.journals path = some j → j.status ≠ .compensated)
    {m : Machine World} (hm : Later w m) (hf : (HomeApply.rollback path m).2.faults = 0) :
    (HomeApply.rollback path m).1 = .ok () := by
  obtain ⟨j, hj, hr⟩ := h
  have hends := (rollback_triple hw hS j m hm.quiet ⟨hm.journals ▸ hj, hm.disk ▸ hr⟩).2
  rw [hf] at hends
  cases hx : (HomeApply.rollback path m).1 with
  | ok => rfl
  | err error =>
      rw [hx] at hends
      exact absurd hends.1 (by simp [hs j hj])
  | crash =>
      rw [hx] at hends
      exact absurd hends.1 (Nat.lt_irrefl 0)

theorem Saved.recovers (hw : WellFormed ts) (hS : ∀ s : Status, s.ofRollback → S s)
    (h : Saved path ts S w) : Recovers path ts w where
  saved := by
    obtain ⟨j, hj, hr⟩ := h
    exact ⟨j, hj, hr.targets⟩
  restores j m hj hs hm hf := by
    have hok := h.rollback_ok hw hS (fun j' hj' => by cases hj.symm.trans hj'; exact hs) hm hf
    exact ⟨hok, h.restored hw hS hm hok⟩
  compensated j hj hs := by
    obtain ⟨j', hj', hr⟩ := h
    cases hj.symm.trans hj'
    exact hr.compensated hs

/-- An apply saves no status that a rollback refuses but the compensated one. -/
theorem Saved.accepted (h : Saved path ts Status.ofApply w) : Accepted path ts w := by
  obtain ⟨j, hj, hr⟩ := h
  refine ⟨j, hj, ?_⟩
  by_cases hs : j.status = .compensated
  · exact .inl ⟨hs, hr.compensated hs⟩
  · refine .inr ?_
    have hS := hr.status
    cases hc : j.status <;> rw [hc] at hS hs <;> first | rfl | exact absurd rfl hs | cases hS

end

/-! ## The apply -/

/-- An apply that saved a journal, however it stopped, and any rollbacks after it, leave
what a rollback recovers; and when the apply has returned an error its journal is
compensated for or taken up by a rollback. -/
theorem applyInner_recovers (render : Render) (options : HomeHookOptions)
    (failAfter : Option Nat) (m : Machine World) (hm : ∀ fate ∈ m.reads, fate.Quiet)
    {path : Path} (hpath : path = transactionPath options.home m.world.clock m.world.pid) :
    (applyInner render options failAfter m).2.world.journals path = m.world.journals path ∨
      ∃ ts, (∀ t ∈ ts, t.IsBefore (m.world.disk t.path)) ∧
        (∀ w, Rollbacks path (applyInner render options failAfter m).2.world w →
          Recovers path ts w) ∧
        ∀ error, (applyInner render options failAfter m).1 = .err error →
          Accepted path ts (applyInner render options failAfter m).2.world := by
  have hends := (applyInner_triple render options failAfter m.world hpath m hm rfl).2
  have hrecovers : ∀ ts, WellFormed ts →
      Saved path ts Status.ofApply (applyInner render options failAfter m).2.world →
      ∀ w, Rollbacks path (applyInner render options failAfter m).2.world w →
        Recovers path ts w := fun ts hw hs w hr =>
    have hsaved : Saved path ts (fun _ => True) _ := hs.mono fun _ _ => trivial
    (hsaved.rollbacks hw (fun _ _ => trivial) hr).recovers hw fun _ _ => trivial
  cases hx : (applyInner render options failAfter m).1 with
  | ok result =>
      rw [hx] at hends
      rcases hends with ⟨-, hsame⟩ | ⟨-, ts, hdone⟩
      · exact .inl (by rw [hsame])
      · refine .inr ⟨ts, hdone.before, hrecovers ts hdone.wellFormed ?_, fun _ h => by cases h⟩
        exact ⟨_, hdone.applied.2, hdone.applied.1.recoverable trivial⟩
  | err error =>
      rw [hx] at hends
      obtain ⟨ts, hw, hbefore, hold | hs⟩ := hends
      · exact .inl hold
      · exact .inr ⟨ts, hbefore, hrecovers ts hw hs, fun _ _ => hs.accepted⟩
  | crash =>
      rw [hx] at hends
      obtain ⟨ts, hw, hbefore, hold | hs⟩ := hends
      · exact .inl hold
      · exact .inr ⟨ts, hbefore, hrecovers ts hw hs, fun _ h => by cases h⟩

def piOptions : HomeHookOptions := ⟨["home"], ["pi"], ["bin", "hook"], none⟩

def piTarget : Path := ["home", ".pi", "agent", "extensions", "agent-otel-bridge.ts"]

/-- A HOME with one file. -/
def piWorld : World where
  disk path := if path = piTarget then some ⟨[1], 0o640⟩ else none
  journals _ := none
  clock := 7
  pid := 5
  agentOtelSocket := none
  journal := ⟨1, [], [], none, [], .prepared, false, []⟩
  attempted := 0
  applied := 0
  log := []

/-- An apply that crashes after its file is written. -/
def crashedApply : Machine World where
  world := piWorld
  reads := []
  writes := [.ok, .crashAfter]
  faults := 0

/-- The crash leaves the file written and the journal prepared, and a rollback recovers. -/
theorem applyInner_recovers_crashed :
    let w := (applyInner (fun _ _ _ _ => .ok [2]) piOptions none crashedApply).2.world
    w.disk piTarget = some ⟨[2], 0o640⟩ ∧
      ∃ ts, ∀ w', Rollbacks (transactionPath ["home"] 7 5) w w' →
        Recovers (transactionPath ["home"] 7 5) ts w' := by
  refine ⟨by decide +kernel, ?_⟩
  obtain hold | ⟨ts, -, h, -⟩ := applyInner_recovers (fun _ _ _ _ => .ok [2]) piOptions none
    crashedApply (by simp [crashedApply]) rfl
  · exact absurd hold (by decide +kernel)
  · exact ⟨ts, h⟩

end AgentOtelBridge.HomeApply
