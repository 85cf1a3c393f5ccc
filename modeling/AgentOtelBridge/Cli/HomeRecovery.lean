import AgentOtelBridge.Cli.HomeRestore
import Mathlib.Data.List.Nodup

/-!
# Recovery of a transaction

A journal that is saved describes the disk: its status and the progress of each file
say which states the file may be in.  `Recoverable` is that description.  It holds
after every write of every program here, failed or not, when nobody else edits the
files; and from a journal it holds of, a rollback that meets no fault restores every
target.

The programs work on the journal in memory, which may be ahead of the saved one.
What is known of it is a condition on the journal and the disk, and
`saveJournal_triple` makes it the saved one.
-/

namespace AgentOtelBridge.HomeApply

open Faulty

abbrev Disk := Path → Option File

/-! ## What a journal says of the disk -/

/-- The targets of a transaction: each has its own path, a file and its mode are
recorded together, and no file is writable by other accounts. -/
structure WellFormed (ts : List Target) : Prop where
  distinct : ∀ (i k : Nat) (t u : Target), ts[i]? = some t → ts[k]? = some u → t.path = u.path → i = k
  present : ∀ t ∈ ts, t.before.isSome = t.mode.isSome
  ownMode : ∀ t ∈ ts, ∀ mode, t.mode = some mode → mode &&& 0o022 = 0

/-- The states a file may be in, by its progress. -/
def FileOk (allowBefore : Bool) (disk : Disk) (file : RecordedFile) : Prop :=
  match file.restoreProgress with
  | .restored => file.target.IsBefore (disk file.path)
  | .restoring => file.target.IsBefore (disk file.path) ∨ file.target.IsAfter (disk file.path)
  | .pending => file.target.IsAfter (disk file.path) ∨
      (allowBefore = true ∧ file.target.IsBefore (disk file.path))

/-- The states of all files, by the status of the journal. -/
def Journal.Describes (j : Journal) (disk : Disk) : Prop :=
  match j.status with
  | .compensated | .rolledBack => ∀ file ∈ j.files, file.target.IsBefore (disk file.path)
  | .other _ => False
  | .prepared | .applied | .partial_ | .rollingBack | .rollbackPartial =>
      ∀ file ∈ j.files, FileOk j.allowBefore disk file

/-- A journal of a transaction that describes the disk. -/
structure Recoverable (path : Path) (ts : List Target) (S : Status → Prop) (j : Journal)
    (disk : Disk) : Prop where
  targets : j.targets = ts
  scope : j.inScope path = true
  status : S j.status
  describes : j.Describes disk

/-- The saved journal describes the disk. -/
def Saved (path : Path) (ts : List Target) (S : Status → Prop) (w : World) : Prop :=
  ∃ j, w.journals path = some j ∧ Recoverable path ts S j w.disk

/-- A recorded file's target is one of the transaction's. -/
theorem getElem?_target {j : Journal} {ts : List Target} (h : j.targets = ts) {k : Nat}
    {file : RecordedFile} (hf : j.files[k]? = some file) : ts[k]? = some file.target := by
  rw [← h, Journal.targets, List.getElem?_map, hf]
  rfl

theorem FileOk.before_or_after {allowBefore : Bool} {disk : Disk} {file : RecordedFile}
    (h : FileOk allowBefore disk file) :
    file.target.IsBefore (disk file.path) ∨ file.target.IsAfter (disk file.path) := by
  unfold FileOk at h
  split at h
  · exact .inl h
  · exact h
  · exact h.elim .inr fun h => .inl h.2

/-- A file in a recorded state passes the inspection. -/
theorem inspect_ok {ts : List Target} (hw : WellFormed ts) {t : Target} (ht : t ∈ ts)
    {disk : Disk} {path : Path} (h : t.IsBefore (disk path) ∨ t.IsAfter (disk path)) :
    inspect disk path = .ok () := by
  unfold inspect
  cases hd : disk path with
  | none => rfl
  | some file =>
      have hmode : file.mode &&& 0o022 = 0 := by
        rw [hd] at h
        rcases h with ⟨-, hm⟩ | ⟨-, hm⟩
        · exact hw.ownMode t ht file.mode hm.symm
        · simp only [Option.map_some, Option.some.injEq] at hm
          rw [hm]
          cases hx : t.mode with
          | none => rfl
          | some mode => exact hw.ownMode t ht mode hx
      simp [hmode]

/-- What a restoration leaves is the state before. -/
theorem isBefore_restored {ts : List Target} (hw : WellFormed ts) {t : Target} (ht : t ∈ ts) :
    t.IsBefore t.restored := by
  have hp := hw.present t ht
  unfold Target.IsBefore Target.restored
  cases hb : t.before with
  | none =>
      rw [hb] at hp
      exact ⟨rfl, (Option.not_isSome_iff_eq_none.mp (by simp [← hp])).symm⟩
  | some bytes =>
      rw [hb] at hp
      obtain ⟨mode, hm⟩ := Option.isSome_iff_exists.mp hp.symm
      simp [hm]

/-- A status that rollback takes up allows what the progress allows. -/
theorem Journal.describes_of_eligible {j : Journal} {disk : Disk}
    (he : j.status.eligible = true) :
    j.Describes disk ↔ ∀ file ∈ j.files, FileOk j.allowBefore disk file := by
  unfold Journal.Describes
  cases hs : j.status <;> first | exact Iff.rfl | simp [hs, Status.eligible] at he

/-! ## The journal in memory -/

/-- The journal in memory while files are restored: the files at `done` are restored,
and those from `count` on are as they were. -/
structure Restoring (path : Path) (ts : List Target) (allowBefore : Bool) (count : Nat)
    (done : List Nat) (j : Journal) (disk : Disk) : Prop where
  targets : j.targets = ts
  scope : j.inScope path = true
  status : j.status = .rollingBack
  allow : j.rollbackAllowBefore = allowBefore
  ok : ∀ (k : Nat) file, j.files[k]? = some file → FileOk allowBefore disk file
  restored : ∀ k ∈ done, ∀ file, j.files[k]? = some file → file.restoreProgress = .restored
  rest : ∀ (k : Nat) file, count ≤ k → j.files[k]? = some file →
    file.target.IsBefore (disk file.path)

namespace Restoring

variable {path : Path} {ts : List Target} {allowBefore : Bool} {count : Nat} {done : List Nat}
  {j : Journal} {disk : Disk} {S : Status → Prop}

theorem recoverable (h : Restoring path ts allowBefore count done j disk)
    (hS : S .rollingBack) : Recoverable path ts S j disk where
  targets := h.targets
  scope := h.scope
  status := h.status ▸ hS
  describes := by
    rw [Journal.describes_of_eligible (by rw [h.status]; rfl)]
    intro file hf
    obtain ⟨k, hk⟩ := List.mem_iff_getElem?.mp hf
    have hallow : j.allowBefore = allowBefore := by
      rw [Journal.allowBefore, h.status, h.allow]
      cases allowBefore <;> rfl
    rw [hallow]
    exact h.ok k file hk

theorem forget (h : Restoring path ts allowBefore count done j disk) :
    Restoring path ts allowBefore count [] j disk :=
  { h with restored := fun k hk => by cases hk }

/-- The progress of a file is changed to one its state allows. -/
theorem setProgress (h : Restoring path ts allowBefore count done j disk) {i : Nat}
    (hi : i ∉ done) {progress : RestoreProgress}
    (hok : ∀ file, j.files[i]? = some file →
      FileOk allowBefore disk { file with restoreProgress := progress }) :
    Restoring path ts allowBefore count done (j.setProgress i progress) disk where
  targets := (j.targets_setProgress i progress).trans h.targets
  scope := (j.inScope_setProgress path i progress).trans h.scope
  status := h.status
  allow := h.allow
  ok k file hf := by
    rw [Journal.getElem?_setProgress, Option.map_eq_some_iff] at hf
    obtain ⟨file', hf', rfl⟩ := hf
    split
    · rename_i heq
      exact hok file' (heq ▸ hf')
    · exact h.ok k file' hf'
  restored k hk file hf := by
    have hne : i ≠ k := fun heq => hi (heq ▸ hk)
    rw [Journal.getElem?_setProgress, Option.map_eq_some_iff] at hf
    obtain ⟨file', hf', rfl⟩ := hf
    rw [if_neg hne]
    exact h.restored k hk file' hf'
  rest k file hk hf := by
    rw [Journal.getElem?_setProgress, Option.map_eq_some_iff] at hf
    obtain ⟨file', hf', rfl⟩ := hf
    have hr := h.rest k file' hk hf'
    split
    · exact hr
    · exact hr

/-- A file that is marked as restored joins those that are done. -/
theorem finish (h : Restoring path ts allowBefore count done j disk) {i : Nat} (hi : i ∉ done)
    (hb : ∀ file, j.files[i]? = some file → file.target.IsBefore (disk file.path)) :
    Restoring path ts allowBefore count (done ++ [i]) (j.setProgress i .restored) disk := by
  have h' : Restoring path ts allowBefore count done (j.setProgress i .restored) disk :=
    h.setProgress hi hb
  refine { h' with restored := fun k hk file hf => ?_ }
  rcases List.mem_append.mp hk with hk | hk
  · exact h'.restored k hk file hf
  · obtain rfl := List.mem_singleton.mp hk
    rw [Journal.getElem?_setProgress, Option.map_eq_some_iff] at hf
    obtain ⟨file', hf', rfl⟩ := hf
    rw [if_pos rfl]

/-- A file that is being restored is replaced; the other files have other paths. -/
theorem put (h : Restoring path ts allowBefore count done j disk) (hw : WellFormed ts) {i : Nat}
    (hi : i < count) {file : RecordedFile} (hf : j.files[i]? = some file)
    (hp : file.restoreProgress = .restoring) :
    Restoring path ts allowBefore count done j
      (Function.update disk file.path file.target.restored) := by
  have hbefore : file.target.IsBefore file.target.restored :=
    isBefore_restored hw (List.mem_of_getElem? (getElem?_target h.targets hf))
  have hother : ∀ k file', j.files[k]? = some file' → k ≠ i →
      Function.update disk file.path file.target.restored file'.path = disk file'.path := by
    intro k file' hf' hne
    refine Function.update_of_ne (fun heq => hne ?_) _ _
    exact hw.distinct k i _ _ (getElem?_target h.targets hf') (getElem?_target h.targets hf) heq
  refine { h with ok := fun k file' hf' => ?_, rest := fun k file' hk hf' => ?_ }
  · by_cases hki : k = i
    · subst hki
      obtain rfl : file = file' := by
        rw [hf] at hf'
        exact Option.some.inj hf'
      unfold FileOk
      rw [hp, Function.update_self]
      exact .inl hbefore
    · have hok := h.ok k file' hf'
      unfold FileOk at hok ⊢
      rw [hother k file' hf' hki]
      exact hok
  · rw [hother k file' hf' (by omega)]
    exact h.rest k file' hk hf'

end Restoring

/-! ## Saving -/

/-- A condition on the journal in memory and the disk, when that journal is saved. -/
def Synced (path : Path) (M : Journal → Disk → Prop) (w : World) (_ : Nat) : Prop :=
  M w.journal w.disk ∧ w.journals path = some w.journal

/-- A condition that may be ahead of the saved journal. -/
def Ahead (path : Path) (ts : List Target) (S : Status → Prop) (M : Journal → Disk → Prop)
    (w : World) (_ : Nat) : Prop :=
  M w.journal w.disk ∧ Saved path ts S w

/-- After a fault: the program goes on with the journal in memory. -/
def Failed (path : Path) (ts : List Target) (S : Status → Prop) (M : Journal → Disk → Prop)
    (w : World) (n : Nat) : Prop :=
  0 < n ∧ Ahead path ts S M w n

/-- After a crash: what is saved is left. -/
def Crashed (path : Path) (ts : List Target) (S : Status → Prop) (w : World) (n : Nat) : Prop :=
  0 < n ∧ Saved path ts S w

section

variable {path : Path} {ts : List Target} {S : Status → Prop} {M : Journal → Disk → Prop}
  {A : ReadFate World → Prop}

theorem Synced.saved {w : World} {n : Nat} (h : Synced path M w n)
    (hM : ∀ j disk, M j disk → Recoverable path ts S j disk) : Saved path ts S w :=
  ⟨w.journal, h.2, hM _ _ h.1⟩

theorem Synced.ahead {w : World} {n : Nat} (h : Synced path M w n)
    (hM : ∀ j disk, M j disk → Recoverable path ts S j disk) : Ahead path ts S M w n :=
  ⟨h.1, h.saved hM⟩

/-- A journal that describes the disk becomes the saved one, or the saved one stays. -/
theorem saveJournal_triple (hM : ∀ j disk, M j disk → Recoverable path ts S j disk) :
    Triple A (Ahead path ts S M) (saveJournal path) (fun _ => Synced path M)
      (Failed path ts S M) (Crashed path ts S) := by
  have hafter : ∀ w : World, M w.journal w.disk → Saved path ts S
      { w with journals := Function.update w.journals path (some w.journal) } := fun w h =>
    ⟨w.journal, Function.update_self .., hM _ _ h⟩
  refine Triple.write (fun w n h => ⟨h.1, Function.update_self ..⟩) (fun w n h => ⟨?_, ?_⟩)
    fun w n h => ⟨?_, ?_⟩
  · exact ⟨n.succ_pos, h⟩
  · exact ⟨n.succ_pos, h.1, hafter w h.1⟩
  · exact ⟨n.succ_pos, h.2⟩
  · exact ⟨n.succ_pos, hafter w h.1⟩

/-- The same after a fault. -/
theorem saveJournal_failed (hM : ∀ j disk, M j disk → Recoverable path ts S j disk) :
    Triple A (Failed path ts S M) (saveJournal path) (fun _ => Crashed path ts S)
      (Crashed path ts S) (Crashed path ts S) := by
  have hafter : ∀ w n, Failed path ts S M w n → Crashed path ts S
      { w with journals := Function.update w.journals path (some w.journal) } n := fun w n h =>
    ⟨h.1, w.journal, Function.update_self .., hM _ _ h.2.1⟩
  have hbefore : ∀ w n, Failed path ts S M w n → Crashed path ts S w (n + 1) := fun w n h =>
    ⟨n.succ_pos, h.2.2⟩
  exact Triple.write hafter (fun w n h => ⟨hbefore w n h, n.succ_pos, (hafter w n h).2⟩)
    fun w n h => ⟨hbefore w n h, n.succ_pos, (hafter w n h).2⟩

/-- What only looks at the journal and the disk holds after a fault if it did before. -/
theorem syncParent_triple (hM : ∀ j disk, M j disk → Recoverable path ts S j disk) :
    Triple A (Synced path M) syncParent (fun _ => Synced path M) (Failed path ts S M)
      (Crashed path ts S) :=
  Triple.write (fun _ _ => id)
    (fun _ n h => ⟨⟨n.succ_pos, h.ahead hM⟩, n.succ_pos, h.ahead hM⟩)
    fun _ n h => ⟨⟨n.succ_pos, h.saved hM⟩, n.succ_pos, h.saved hM⟩

end

/-- A quiet check of a file that passes the inspection says how the file is. -/
theorem matchesRecordedState_quiet {P E C : World → Nat → Prop} (file : RecordedFile)
    (before : Bool) (hs : ∀ w n, P w n → inspect w.disk file.path = .ok ())
    (hc : ∀ w n, P w n → C w (n + 1)) :
    Triple ReadFate.Quiet P (matchesRecordedState file before)
      (fun found w n => P w n ∧ found = file.matchesState (w.disk file.path) before) E C := by
  refine Triple.readQuiet (fun w n hP => ?_) hc
  rw [hs w n hP]
  exact ⟨hP, rfl⟩

/-! ## Restoration -/

section

variable {path : Path} {ts : List Target} {S : Status → Prop} {allowBefore : Bool} {count : Nat}

/-- A file that is being restored: it is as before when it was recovered, and as after
otherwise. -/
structure Half (path : Path) (ts : List Target) (allowBefore : Bool) (count : Nat)
    (done : List Nat) (i : Nat) (file : RecordedFile) (recoveredBefore : Bool) (j : Journal)
    (disk : Disk) : Prop where
  restoring : Restoring path ts allowBefore count done j disk
  found : j.files[i]? = some { file with restoreProgress := .restoring }
  recovered : recoveredBefore = true → file.target.IsBefore (disk file.path)
  fresh : recoveredBefore = false → file.target.IsAfter (disk file.path)

/-- A file that is being restored and is as before. -/
structure Whole (path : Path) (ts : List Target) (allowBefore : Bool) (count : Nat)
    (done : List Nat) (i : Nat) (file : RecordedFile) (j : Journal) (disk : Disk) : Prop where
  restoring : Restoring path ts allowBefore count done j disk
  found : j.files[i]? = some { file with restoreProgress := .restoring }
  before : file.target.IsBefore (disk file.path)

variable {done : List Nat} {i : Nat} {file : RecordedFile} {recoveredBefore : Bool}

theorem Half.mem {j : Journal} {disk : Disk}
    (h : Half path ts allowBefore count done i file recoveredBefore j disk) :
    file.target ∈ ts := by
  have ht := getElem?_target h.restoring.targets h.found
  exact List.mem_of_getElem? ht

/-- The update makes the file whole. -/
theorem Half.put {w : World} (hw : WellFormed ts) (hi : i < count)
    (h : Half path ts allowBefore count done i file recoveredBefore w.journal w.disk) :
    Whole path ts allowBefore count done i file (w.put file.path file.target.restored).journal
      (w.put file.path file.target.restored).disk where
  restoring := by
    have hput := h.restoring.put hw hi h.found rfl
    exact hput
  found := h.found
  before := by
    simp only [World.put, Function.update_self]
    exact isBefore_restored hw h.mem

theorem restoreState_triple (hw : WellFormed ts) (hS : S .rollingBack) (hi : i < count) :
    Triple ReadFate.Quiet
      (Synced path (Half path ts allowBefore count done i file recoveredBefore))
      (restoreState file recoveredBefore)
      (fun _ => Synced path (Whole path ts allowBefore count done i file))
      (Failed path ts S (Restoring path ts allowBefore count [])) (Crashed path ts S) := by
  have hrec : ∀ j disk, Half path ts allowBefore count done i file recoveredBefore j disk →
      Recoverable path ts S j disk := fun j disk h => h.restoring.recoverable hS
  have hrec' : ∀ j disk, Whole path ts allowBefore count done i file j disk →
      Recoverable path ts S j disk := fun j disk h => h.restoring.recoverable hS
  have hcrash : ∀ w n, Synced path (Half path ts allowBefore count done i file recoveredBefore)
      w n → Crashed path ts S w (n + 1) := fun w n h => ⟨n.succ_pos, h.saved hrec⟩
  have hsafe : ∀ w n, Synced path (Half path ts allowBefore count done i file recoveredBefore)
      w n → inspect w.disk file.path = .ok () := by
    intro w n h
    refine inspect_ok hw h.1.mem ?_
    cases hr : recoveredBefore with
    | true => exact .inl (h.1.recovered hr)
    | false => exact .inr (h.1.fresh hr)
  refine Triple.bind (matchesRecordedState_quiet file true hsafe hcrash) fun before => ?_
  refine Triple.ite (fun hcond => ?_) fun hcond => ?_
  · -- A recovered file is found as before, so this one is as after.
    have hfresh : ∀ w n,
        Synced path (Half path ts allowBefore count done i file recoveredBefore) w n ∧
          before = file.matchesState (w.disk file.path) true → recoveredBefore = false := by
      rintro w n ⟨h, hb⟩
      cases hr : recoveredBefore with
      | false => rfl
      | true =>
          rw [RecordedFile.matchesState_before.mpr (h.1.recovered hr)] at hb
          simp [hr, hb] at hcond
    refine Triple.pre (P := fun w n => recoveredBefore = false ∧
      Synced path (Half path ts allowBefore count done i file recoveredBefore) w n)
      (Triple.of_pure fun hr => ?_) fun w n h => ⟨hfresh w n h, h.1⟩
    refine Triple.bind (matchesRecordedState_quiet file false hsafe hcrash) fun after => ?_
    refine Triple.bind
      (R := fun _ => Synced path (Half path ts allowBefore count done i file recoveredBefore))
      (Triple.post (Triple.ensure fun ha w n h => absurd ?_ ha) fun _ w n h => h.2.1) fun _ => ?_
    · rw [h.2]
      exact RecordedFile.matchesState_after.mpr (h.1.1.fresh hr)
    rw [replaceOrRemove_eq]
    have hput : ∀ w n,
        Synced path (Half path ts allowBefore count done i file recoveredBefore) w n →
          Synced path (Whole path ts allowBefore count done i file)
            (w.put file.path file.target.restored) n := fun w n h => ⟨h.1.put hw hi, h.2⟩
    refine Triple.write hput (fun w n h => ⟨?_, ?_⟩) fun w n h => ⟨hcrash w n h, ?_⟩
    · exact ⟨n.succ_pos, h.1.restoring.forget, h.saved hrec⟩
    · exact ⟨n.succ_pos, (hput w n h).1.restoring.forget, (hput w n h).saved hrec'⟩
    · exact ⟨n.succ_pos, (hput w n h).saved hrec'⟩
  · refine Triple.pure fun w n h => ?_
    have hr : recoveredBefore = true := by
      simp only [Bool.and_eq_false_iff, not_or, Bool.not_eq_false] at hcond
      exact hcond.1
    exact ⟨⟨h.1.1.restoring, h.1.1.found, h.1.1.recovered hr⟩, h.1.2⟩

theorem Journal.getElem?_setProgress_self {j : Journal} (progress : RestoreProgress)
    (h : j.files[i]? = some file) :
    (j.setProgress i progress).files[i]? = some { file with restoreProgress := progress } := by
  rw [Journal.getElem?_setProgress, h]
  simp

/-- A file that is not restored yet and is in a state its progress allows may be
restored, and is as after unless it was recovered. -/
theorem FileOk.admits {disk : Disk} (h : FileOk allowBefore disk file)
    (hp : file.restoreProgress ≠ .restored) :
    let before := file.matchesState (disk file.path) true
    let after := file.matchesState (disk file.path) false
    let resumed := allowBefore || file.restoreProgress == .restoring
    (after || (resumed && before)) = true ∧
      ((before && resumed) = true → file.target.IsBefore (disk file.path)) ∧
      ((before && resumed) = false → file.target.IsAfter (disk file.path)) := by
  have hb : file.matchesState (disk file.path) true = true ↔
    file.target.IsBefore (disk file.path) := RecordedFile.matchesState_before
  have ha : file.matchesState (disk file.path) false = true ↔
    file.target.IsAfter (disk file.path) := RecordedFile.matchesState_after
  intro before after resumed
  have hadmitted : (after || (resumed && before)) = true := by
    unfold FileOk at h
    rw [← hb, ← ha] at h
    cases hq : file.restoreProgress with
    | restored => exact absurd hq hp
    | restoring =>
        rw [hq] at h
        rcases h with h | h <;> simp [before, after, resumed, hq, h]
    | pending =>
        rw [hq] at h
        rcases h with h | ⟨hal, h⟩
        · simp [after, h]
        · simp [before, resumed, hal, h]
  refine ⟨hadmitted, fun hr => ?_, fun hr => ?_⟩
  · rw [Bool.and_eq_true] at hr
    exact hb.mp hr.1
  · rw [Bool.and_comm, hr, Bool.or_false] at hadmitted
    exact ha.mp hadmitted

theorem restoreFile_triple (hw : WellFormed ts) (hS : S .rollingBack) (hi : i < count)
    (hcount : count ≤ ts.length) (hdone : i ∉ done) :
    Triple ReadFate.Quiet (Synced path (Restoring path ts allowBefore count done))
      (restoreFile path allowBefore i)
      (fun _ => Synced path (Restoring path ts allowBefore count (done ++ [i])))
      (Failed path ts S (Restoring path ts allowBefore count [])) (Crashed path ts S) := by
  have hrec : ∀ done j disk, Restoring path ts allowBefore count done j disk →
      Recoverable path ts S j disk := fun done j disk h => h.recoverable hS
  refine Triple.bind (R := fun o w n => o = w.journal.files[i]? ∧
    Synced path (Restoring path ts allowBefore count done) w n)
    (Triple.get fun w n h => ⟨rfl, h⟩) fun o => ?_
  cases o with
  | none =>
      refine Triple.throw fun w n h => ?_
      have hlen : w.journal.files.length = ts.length := by
        rw [← h.2.1.targets, Journal.targets, List.length_map]
      have hnone := List.getElem?_eq_none_iff.mp h.1.symm
      omega
  | some file =>
      refine Triple.ite (fun hp => ?_) fun hp => ?_
      · have hcrash : ∀ w n, some file = w.journal.files[i]? ∧
            Synced path (Restoring path ts allowBefore count done) w n →
              Crashed path ts S w (n + 1) := fun w n h => ⟨n.succ_pos, h.2.saved (hrec done)⟩
        have hsafe : ∀ w n, some file = w.journal.files[i]? ∧
            Synced path (Restoring path ts allowBefore count done) w n →
              inspect w.disk file.path = .ok () := by
          rintro w n ⟨hf, h⟩
          exact inspect_ok hw (List.mem_of_getElem? (getElem?_target h.1.targets hf.symm))
            (h.1.ok i file hf.symm).before_or_after
        refine Triple.bind (matchesRecordedState_quiet file true hsafe hcrash) fun before => ?_
        refine Triple.bind (matchesRecordedState_quiet file false (fun w n h => hsafe w n h.1)
          fun w n h => hcrash w n h.1) fun after => ?_
        refine Triple.bind (Triple.ensure fun hc w n h => ?_) fun _ => ?_
        · obtain ⟨⟨⟨hf, h⟩, rfl⟩, rfl⟩ := h
          exact absurd ((h.1.ok i file hf.symm).admits hp).1 hc
        refine Triple.bind (R := fun _ => Ahead path ts S (Half path ts allowBefore count done i
          file (before && (allowBefore || file.restoreProgress == .restoring))))
          (Triple.modify fun w n h => ?_) fun _ => ?_
        · obtain ⟨-, ⟨⟨hf, h⟩, rfl⟩, rfl⟩ := h
          have hadmits := (h.1.ok i file hf.symm).admits hp
          refine ⟨⟨h.1.setProgress hdone fun file' hf' => ?_,
            Journal.getElem?_setProgress_self .restoring hf.symm, hadmits.2.1, hadmits.2.2⟩,
            h.saved (hrec done)⟩
          obtain rfl : file = file' := by simpa [← hf] using hf'
          exact (h.1.ok i file hf.symm).before_or_after
        have hhalf : ∀ r j disk, Half path ts allowBefore count done i file r j disk →
            Recoverable path ts S j disk := fun r j disk h => hrec done j disk h.restoring
        have hwhole : ∀ j disk, Whole path ts allowBefore count done i file j disk →
            Recoverable path ts S j disk := fun j disk h => hrec done j disk h.restoring
        refine Triple.bind ((saveJournal_triple (hhalf _)).conseq (fun _ _ => id)
          (fun _ _ _ => id) (fun w n h => ⟨h.1, h.2.1.restoring.forget, h.2.2⟩)
          fun _ _ => id) fun _ => ?_
        refine Triple.bind (restoreState_triple hw hS hi) fun _ => ?_
        refine Triple.bind ((syncParent_triple hwhole).conseq (fun _ _ => id)
          (fun _ _ _ => id) (fun w n h => ⟨h.1, h.2.1.restoring.forget, h.2.2⟩)
          fun _ _ => id) fun _ => ?_
        refine Triple.bind (R := fun _ => Ahead path ts S
          (Restoring path ts allowBefore count (done ++ [i])))
          (Triple.modify fun w n h => ?_) fun _ => ?_
        · refine ⟨h.1.restoring.finish hdone fun file' hf' => ?_, h.saved hwhole⟩
          have heq := Option.some.inj (h.1.found.symm.trans hf')
          rw [← heq]
          exact h.1.before
        · exact (saveJournal_triple (hrec (done ++ [i]))).conseq (fun _ _ => id)
            (fun _ _ _ => id) (fun w n h => ⟨h.1, h.2.1.forget, h.2.2⟩) fun _ _ => id
      · refine Triple.pure fun w n h => ⟨{ h.2.1 with restored := fun k hk file' hf' => ?_ }, h.2.2⟩
        rcases List.mem_append.mp hk with hk | hk
        · exact h.2.1.restored k hk file' hf'
        · obtain rfl := List.mem_singleton.mp hk
          obtain rfl : file = file' := by simpa [← h.1] using hf'
          exact not_not.mp hp

/-- A journal in memory whose files, those below `count`, may be restored. -/
structure Ready (path : Path) (ts : List Target) (allowBefore : Bool) (count : Nat) (j : Journal)
    (disk : Disk) : Prop where
  targets : j.targets = ts
  scope : j.inScope path = true
  ok : ∀ (k : Nat) file, j.files[k]? = some file → FileOk allowBefore disk file
  rest : ∀ (k : Nat) file, count ≤ k → j.files[k]? = some file →
    file.target.IsBefore (disk file.path)

theorem Ready.restoring {j : Journal} {disk : Disk} (h : Ready path ts allowBefore count j disk) :
    Restoring path ts allowBefore count []
      { j with rollbackAllowBefore := allowBefore, status := .rollingBack } disk where
  targets := h.targets
  scope := h.scope
  status := rfl
  allow := rfl
  ok := h.ok
  restored k hk := by cases hk
  rest := h.rest

/-- The preflight passes a file in a state its progress allows. -/
theorem FileOk.valid {disk : Disk} (h : FileOk allowBefore disk file) :
    file.restoreProgress.valid allowBefore (file.matchesState (disk file.path) true)
      (file.matchesState (disk file.path) false) = true := by
  unfold FileOk at h
  rw [← RecordedFile.matchesState_before, ← RecordedFile.matchesState_after] at h
  cases hq : file.restoreProgress with
  | restored =>
      rw [hq] at h
      exact h
  | restoring =>
      rw [hq] at h
      exact Bool.or_eq_true_iff.mpr h
  | pending =>
      rw [hq] at h
      simpa [RestoreProgress.valid] using h

theorem preflight_triple {P E C : World → Nat → Prop} (hw : WellFormed ts)
    (hok : ∀ w n, P w n → file.target ∈ ts ∧ FileOk allowBefore w.disk file)
    (hcrash : ∀ w n, P w n → C w (n + 1)) :
    Triple ReadFate.Quiet P (preflight allowBefore file) (fun _ => P) E C := by
  have hsafe : ∀ w n, P w n → inspect w.disk file.path = .ok () := fun w n h =>
    inspect_ok hw (hok w n h).1 (hok w n h).2.before_or_after
  refine Triple.bind (matchesRecordedState_quiet file true hsafe hcrash) fun before => ?_
  refine Triple.bind (matchesRecordedState_quiet file false (fun w n h => hsafe w n h.1)
    fun w n h => hcrash w n h.1) fun after => ?_
  refine Triple.post (Triple.ensure fun hv w n h => ?_) fun _ _ _ h => h.2.1.1
  obtain ⟨⟨hP, rfl⟩, rfl⟩ := h
  exact absurd (hok w n hP).2.valid hv

theorem restoreFiles_triple (hw : WellFormed ts) (hS : S .rollingBack)
    (hcount : count ≤ ts.length) :
    Triple ReadFate.Quiet (Ahead path ts S (Ready path ts allowBefore count))
      (restoreFiles path count allowBefore)
      (fun _ => Synced path
        (Restoring path ts allowBefore count (List.range count).reverse))
      (Failed path ts S (Restoring path ts allowBefore count [])) (Crashed path ts S) := by
  have hrec : ∀ done j disk, Restoring path ts allowBefore count done j disk →
      Recoverable path ts S j disk := fun done j disk h => h.recoverable hS
  refine Triple.bind (R := fun files w n => files = w.journal.files ∧
    Ahead path ts S (Ready path ts allowBefore count) w n)
    (Triple.get fun w n h => ⟨rfl, h⟩) fun files => ?_
  refine Triple.bind (Triple.forM (fun _ w n => files = w.journal.files ∧
    Ahead path ts S (Ready path ts allowBefore count) w n) _ [] fun before file after heq =>
      preflight_triple hw (fun w n h => ?_) fun w n h => ⟨n.succ_pos, h.2.2⟩) fun _ => ?_
  · rw [List.nil_append] at heq
    have hmem : file ∈ files := List.mem_of_mem_take (i := count) (by rw [heq]; simp)
    obtain ⟨k, hk⟩ := List.mem_iff_getElem?.mp (h.1 ▸ hmem)
    exact ⟨List.mem_of_getElem? (getElem?_target h.2.1.targets hk), h.2.1.ok k file hk⟩
  refine Triple.bind (R := fun _ => Ahead path ts S (Restoring path ts allowBefore count []))
    (Triple.modify fun w n h => ⟨h.2.1.restoring, h.2.2⟩) fun _ => ?_
  refine Triple.bind (saveJournal_triple (hrec [])) fun _ => ?_
  refine Triple.forM (fun done => Synced path (Restoring path ts allowBefore count done)) _ []
    fun before i after heq => ?_
  rw [List.nil_append] at heq
  have hi : i < count := by
    have hmem : i ∈ (List.range count).reverse := by
      rw [heq]
      simp
    simpa using hmem
  have hnodup : (before ++ i :: after).Nodup := by
    rw [← heq, List.nodup_reverse]
    exact List.nodup_range
  have hnot : i ∉ before := fun hmem =>
    (List.nodup_append.mp hnodup).2.2 i hmem i List.mem_cons_self rfl
  exact restoreFile_triple hw hS hi hcount hnot

/-- When all files below `count` are done, every file is as before. -/
theorem Restoring.all_before {j : Journal} {disk : Disk}
    (h : Restoring path ts allowBefore count (List.range count).reverse j disk) :
    ∀ file ∈ j.files, file.target.IsBefore (disk file.path) := by
  intro file hf
  obtain ⟨k, hk⟩ := List.mem_iff_getElem?.mp hf
  by_cases hkc : k < count
  · have hok := h.ok k file hk
    have hr := h.restored k (by simpa using hkc) file hk
    unfold FileOk at hok
    rw [hr] at hok
    exact hok
  · exact h.rest k file (Nat.not_lt.mp hkc) hk

/-! ## Rollback -/

/-- A journal whose files are all as before, with a status that says so. -/
structure Undone (path : Path) (ts : List Target) (status : Status) (j : Journal) (disk : Disk) :
    Prop where
  targets : j.targets = ts
  scope : j.inScope path = true
  status_eq : j.status = status
  before : ∀ file ∈ j.files, file.target.IsBefore (disk file.path)

theorem Undone.recoverable {status : Status} {j : Journal} {disk : Disk}
    (h : Undone path ts status j disk) (hS : S status)
    (hstatus : status = .compensated ∨ status = .rolledBack) : Recoverable path ts S j disk where
  targets := h.targets
  scope := h.scope
  status := h.status_eq ▸ hS
  describes := by
    unfold Journal.Describes
    rw [h.status_eq]
    rcases hstatus with rfl | rfl
    · exact h.before
    · exact h.before

/-- The journal in memory after a failure, with another status that rollback takes up. -/
theorem Restoring.recoverable_status {done : List Nat} {j : Journal} {disk : Disk}
    (h : Restoring path ts allowBefore count done j disk) {status : Status} (hS : S status)
    (he : status.eligible = true)
    (hallow : ({ j with status := status } : Journal).allowBefore = allowBefore) :
    Recoverable path ts S { j with status := status } disk where
  targets := h.targets
  scope := h.scope
  status := hS
  describes := by
    rw [Journal.describes_of_eligible he, hallow]
    intro file hf
    obtain ⟨k, hk⟩ := List.mem_iff_getElem?.mp hf
    exact h.ok k file hk

/-- The statuses a rollback saves. -/
def Status.ofRollback : Status → Prop
  | .rollingBack | .rollbackPartial | .rolledBack => True
  | .prepared | .applied | .compensated | .partial_ | .other _ => False

theorem restoreAll_triple (hw : WellFormed ts) (hS : ∀ s : Status, s.ofRollback → S s) (j : Journal)
    (he : j.status.eligible = true) :
    Triple ReadFate.Quiet
      (fun w _ => w.journal = j ∧ w.journals path = some j ∧ Recoverable path ts S j w.disk)
      (restoreAll path j)
      (fun _ => Synced path (Undone path ts .rolledBack)) (Crashed path ts S)
      (Crashed path ts S) := by
  have hlen : ∀ w : World, w.journal = j ∧ w.journals path = some j ∧
      Recoverable path ts S j w.disk → j.files.length ≤ ts.length := by
    rintro w ⟨-, -, h⟩
    have hl : ts.length = j.files.length := by rw [← h.targets, Journal.targets, List.length_map]
    exact Nat.le_of_eq hl.symm
  by_cases hcount : j.files.length ≤ ts.length
  case neg => exact fun m _ h => absurd (hlen m.world h) hcount
  refine Triple.recover ((restoreFiles_triple hw (hS _ trivial) hcount).pre ?_) (fun _ => ?_)
    fun error => ?_
  · rintro w n ⟨hj, hs, h⟩
    refine ⟨⟨hj ▸ h.targets, hj ▸ h.scope, fun k file hf => ?_, fun k file hk hf => ?_⟩, j, hs, h⟩
    · exact (Journal.describes_of_eligible he).mp h.describes file
        (List.mem_of_getElem? (hj ▸ hf))
    · rw [hj, List.getElem?_eq_none hk] at hf
      cases hf
  · refine Triple.bind (R := fun _ => Ahead path ts S (Undone path ts .rolledBack))
      (Triple.modify fun w n h => ?_) fun _ => ?_
    · exact ⟨⟨h.1.targets, h.1.scope, rfl, h.1.all_before⟩,
        h.saved fun j disk h => h.recoverable (hS _ trivial)⟩
    · exact (saveJournal_triple fun j disk h => h.recoverable (hS _ trivial) (.inr rfl)).conseq
        (fun _ _ => id) (fun _ _ _ => id) (fun w n h => ⟨h.1, h.2.2⟩) fun _ _ => id
  · refine Triple.bind (R := fun _ => Failed path ts S
      (Restoring path ts j.allowBefore j.files.length [])) (Triple.get fun _ _ => id)
      fun status => ?_
    refine Triple.ite (fun _ => ?_) fun _ => Triple.throw fun w n h => ⟨h.1, h.2.2⟩
    let M : Journal → Disk → Prop := fun j' disk =>
      Recoverable path ts S j' disk
    refine Triple.bind (R := fun _ => Failed path ts S M)
      (Triple.modify fun w n h => ⟨h.1, ?_, h.2.2⟩) fun _ => ?_
    · refine h.2.1.recoverable_status (hS _ trivial) rfl ?_
      rw [Journal.allowBefore, h.2.1.allow]
      cases j.allowBefore <;> rfl
    refine Triple.bind (Triple.attempt (Q := fun _ => Crashed path ts S)
      ((saveJournal_failed fun j disk h => h).conseq (fun _ _ => id) (fun _ _ _ => id)
        (fun _ _ h _ => h) fun _ _ => id)) fun saved => ?_
    cases saved <;> exact Triple.throw fun _ _ => id

/-- A rollback of a journal that describes the disk restores every target, unless a
fault stops it; then the journal that is saved describes the disk.  One that says the
files are compensated for is refused. -/
theorem rollback_triple (hw : WellFormed ts) (hS : ∀ s : Status, s.ofRollback → S s) (j : Journal) :
    Triple ReadFate.Quiet
      (fun w _ => w.journals path = some j ∧ Recoverable path ts S j w.disk)
      (rollback path)
      (fun _ w _ => ∃ j', w.journals path = some j' ∧ Undone path ts .rolledBack j' w.disk)
      (fun w n => (0 < n ∨ j.status = .compensated) ∧ Saved path ts S w)
      (Crashed path ts S) := by
  have hcrash : ∀ w n, w.journals path = some j ∧ Recoverable path ts S j w.disk →
      Crashed path ts S w (n + 1) := fun w n h => ⟨n.succ_pos, j, h⟩
  refine Triple.bind (Triple.readQuiet (Q := fun _ w _ => w.journals path = some j ∧
    Recoverable path ts S j w.disk) (fun _ _ => id) hcrash) fun _ => ?_
  refine Triple.bind (R := fun a w _ => a = j ∧ w.journals path = some j ∧
    Recoverable path ts S j w.disk) (Triple.readQuiet (fun w n h => ?_) hcrash) fun a => ?_
  · rw [h.1]
    exact ⟨rfl, h⟩
  refine Triple.of_pure fun ha => ?_
  subst ha
  have hcrash' : ∀ w n, w.journal = a ∧ w.journals path = some a ∧
      Recoverable path ts S a w.disk → Crashed path ts S w (n + 1) := fun w n h => hcrash w n h.2
  refine Triple.bind (R := fun _ w _ => w.journal = a ∧ w.journals path = some a ∧
    Recoverable path ts S a w.disk) (Triple.modify fun w n h => ⟨rfl, h⟩) fun _ => ?_
  refine Triple.bind ((Triple.ensure fun hs w n h => absurd h.2.2.scope hs).post
    fun _ w n h => h.2) fun _ => ?_
  refine Triple.bind (Triple.readQuiet (Q := fun _ w _ => w.journal = a ∧
    w.journals path = some a ∧ Recoverable path ts S a w.disk) (fun _ _ => id) hcrash')
    fun _ => ?_
  refine Triple.bind (R := fun again w _ => again = a ∧ w.journal = a ∧
    w.journals path = some a ∧ Recoverable path ts S a w.disk)
    (Triple.readQuiet (fun w n h => ?_) hcrash') fun again => ?_
  · rw [h.2.1]
    exact ⟨rfl, h⟩
  refine Triple.bind ((Triple.ensure fun hs w n h => absurd h.1 hs).post
    fun _ w n h => h.2.2) fun _ => ?_
  refine Triple.ite (fun hstatus => ?_) fun hstatus => ?_
  · by_cases he : a.status.eligible = true
    · refine Triple.bind ((Triple.ensure fun hs => absurd he hs).post fun _ w n h => h.2)
        fun _ => ?_
      exact (restoreAll_triple hw hS a he).conseq (fun _ _ => id)
        (fun _ w n h => ⟨w.journal, h.2, h.1⟩) (fun w n h => ⟨.inl h.1, h.2⟩) fun _ _ => id
    · -- A journal that describes a disk and is not taken up says it is compensated for.
      have hcomp : ∀ disk, a.Describes disk → a.status = .compensated := by
        intro disk hd
        unfold Journal.Describes at hd
        cases hs : a.status <;> simp [hs, Status.eligible] at he hstatus hd ⊢
      refine Triple.bind (Triple.ensure fun _ w n h => ?_) fun _ => ?_
      · exact ⟨.inr (hcomp _ h.2.2.describes), a, h.2⟩
      · exact Triple.of_pure fun h => absurd h he
  · refine Triple.pure fun w n h => ⟨a, h.2.1, h.2.2.targets, h.2.2.scope, not_not.mp hstatus, ?_⟩
    have hd := h.2.2.describes
    unfold Journal.Describes at hd
    rw [not_not.mp hstatus] at hd
    exact hd

end

end AgentOtelBridge.HomeApply
