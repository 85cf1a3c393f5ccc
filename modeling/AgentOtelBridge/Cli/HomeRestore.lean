import AgentOtelBridge.Cli.HomeApply

/-!
# What a restoration may touch

A restoration replaces or removes a target only where it finds the state that was
recorded after the apply, whatever others do to the files between its steps.  A
check and the update that follows it are one step.

The log of the updates carries this: `Respects` says of one update that the state it
replaced was the recorded one, and every program here keeps it.
-/

namespace AgentOtelBridge.HomeApply

open Faulty

/-! ## Recorded states -/

/-- The part of a recorded file that does not change. -/
structure Target where
  path : Path
  before : Option (List UInt8)
  after : List UInt8
  mode : Option Nat
deriving DecidableEq, Repr

def RecordedFile.target (file : RecordedFile) : Target :=
  ⟨file.path, file.before, file.after, file.mode⟩

namespace Target

/-- A file is as it was before the apply: its bytes and its mode, or absent. -/
def IsBefore (t : Target) (current : Option File) : Prop :=
  current.map File.bytes = t.before ∧ current.map File.mode = t.mode

/-- A file is as the apply left it. -/
def IsAfter (t : Target) (current : Option File) : Prop :=
  current.map File.bytes = some t.after ∧ current.map File.mode = some (t.mode.getD 0o600)

/-- The file a restoration leaves. -/
def restored (t : Target) : Option File := t.before.map fun bytes => ⟨bytes, t.mode.getD 0o600⟩

/-- The file an apply leaves. -/
def written (t : Target) : File := ⟨t.after, t.mode.getD 0o600⟩

theorem isAfter_written (t : Target) : t.IsAfter (some t.written) := ⟨rfl, rfl⟩

theorem isAfter_iff {t : Target} {current : Option File} :
    t.IsAfter current ↔ current = some t.written := by
  constructor
  · rintro ⟨hb, hm⟩
    cases current with
    | none => cases hb
    | some file =>
        cases file
        simp only [Option.map_some, Option.some.injEq] at hb hm
        subst hb hm
        rfl
  · rintro rfl
    exact t.isAfter_written

end Target

namespace RecordedFile

theorem matchesState_before {file : RecordedFile} {current : Option File} :
    file.matchesState current true = true ↔ file.target.IsBefore current := by
  simp [matchesState, expectedBytes, expectedMode, Target.IsBefore, target]

theorem matchesState_after {file : RecordedFile} {current : Option File} :
    file.matchesState current false = true ↔ file.target.IsAfter current := by
  simp [matchesState, expectedBytes, expectedMode, Target.IsAfter, target]

end RecordedFile

/-- The targets of a journal. -/
def Journal.targets (j : Journal) : List Target := j.files.map RecordedFile.target

theorem Journal.getElem?_setProgress (j : Journal) (index k : Nat) (progress : RestoreProgress) :
    (j.setProgress index progress).files[k]? = (j.files[k]?).map fun file =>
      if index = k then { file with restoreProgress := progress } else file := by
  simp only [setProgress, List.getElem?_modify]
  split <;> simp

theorem Journal.targets_setProgress (j : Journal) (index : Nat) (progress : RestoreProgress) :
    (j.setProgress index progress).targets = j.targets := by
  refine List.ext_getElem? fun k => ?_
  rw [targets, targets, List.getElem?_map, List.getElem?_map, getElem?_setProgress]
  cases j.files[k]? with
  | none => rfl
  | some file =>
      simp only [Option.map_some]
      split <;> rfl

/-- Whether a journal is in scope does not depend on its progress. -/
theorem Journal.inScope_eq (j : Journal) (path : Path) :
    j.inScope path = (j.version == 1 && path.getLast? == some "journal.json" &&
      path.dropLast.dropLast == j.home ++ stateRelative &&
      j.targets.all fun t => HomeApply.targets.any fun target => t.path == j.home ++ target) := by
  rw [targets, List.all_map]
  rfl

theorem Journal.inScope_setProgress (j : Journal) (path : Path) (index : Nat)
    (progress : RestoreProgress) : (j.setProgress index progress).inScope path = j.inScope path := by
  rw [inScope_eq, inScope_eq, targets_setProgress]
  rfl

/-! ## Checks -/

section

variable {A : ReadFate World → Prop} {P E C : World → Nat → Prop}

/-- A check says whether the file is in the recorded state at that moment. -/
theorem matchesRecordedState_triple (file : RecordedFile) (before : Bool)
    (hfate : ∀ fate, A fate → ∀ w n, P w n → P (fate.edit w) n)
    (he : ∀ w n m, P w n → E w m) (hc : ∀ w n, P w n → C w (n + 1)) :
    Triple A P (matchesRecordedState file before)
      (fun found w n => P w n ∧ found = file.matchesState (w.disk file.path) before) E C := by
  refine Triple.read (fun w n hP => ?_) hfate (fun _ _ _ _ w n hP => he w n _ hP) hc
  cases inspect w.disk file.path with
  | ok => exact ⟨hP, rfl⟩
  | error error => exact he w n _ hP

end

theorem matchesRecordedState_keeps {A : ReadFate World → Prop} {I : World → Prop}
    (hA : ∀ fate, A fate → ∀ w, I w → I (fate.edit w)) (file : RecordedFile) (before : Bool) :
    Keeps A I (matchesRecordedState file before) :=
  (matchesRecordedState_triple file before (fun fate h w _ => hA fate h w) (fun _ _ _ => id)
    fun _ _ => id).post fun _ _ _ h => h.1

theorem preflight_keeps {A : ReadFate World → Prop} {I : World → Prop}
    (hA : ∀ fate, A fate → ∀ w, I w → I (fate.edit w)) (allowBefore : Bool)
    (file : RecordedFile) : Keeps A I (preflight allowBefore file) :=
  .bind (matchesRecordedState_keeps hA file true) fun _ =>
    .bind (matchesRecordedState_keeps hA file false) fun _ => .ensure _ _

/-! ## Updates -/

/-- The update of a file puts what the restoration is to leave. -/
theorem replaceOrRemove_eq (file : RecordedFile) :
    replaceOrRemove file = write fun w => w.put file.path file.target.restored := by
  unfold replaceOrRemove Target.restored
  cases hb : file.before with
  | some bytes => simp [RecordedFile.target, hb, atomicWrite]
  | none => simp [RecordedFile.target, hb, removeFile]

/-- A condition on the world that a restoration cannot break: the targets of the
journal at work are known, others keep it, and so do the updates of the journal and
of a target that is found as after. -/
structure Stable (A : ReadFate World → Prop) (path : Path) (ts : List Target)
    (I : World → Prop) : Prop where
  targets : ∀ w, I w → w.journal.targets = ts
  edit : ∀ fate, A fate → ∀ w, I w → I (fate.edit w)
  setJournal : ∀ w f, (f w.journal).targets = w.journal.targets → I w → I (w.setJournal f)
  save : ∀ w, I w →
    I { w with journals := Function.update w.journals path (some w.journal) }
  put : ∀ w t, t ∈ ts → t.IsAfter (w.disk t.path) → I w → I (w.put t.path t.restored)

namespace Stable

variable {A : ReadFate World → Prop} {path : Path} {ts : List Target} {I : World → Prop}

theorem saveJournal (h : Stable A path ts I) : Keeps A I (saveJournal path) := .write h.save

theorem setStatus (h : Stable A path ts I) (status : Status) : Keeps A I (setStatus status) :=
  .modify fun w => h.setJournal w _ rfl

/-- The check and the update that follows it are one step, so the update finds what
the check has found. -/
theorem restoreState (h : Stable A path ts I) {file : RecordedFile} (hf : file.target ∈ ts)
    (recoveredBefore : Bool) : Keeps A I (restoreState file recoveredBefore) := by
  refine .bind (matchesRecordedState_keeps h.edit file true) fun before => ?_
  refine .ite ?_ (.pure ())
  refine Triple.bind (matchesRecordedState_triple file false
    (fun fate hA w _ => h.edit fate hA w) (fun _ _ _ => id) fun _ _ => id) fun after => ?_
  refine Triple.bind (R := fun _ w _ => I w ∧ file.target.IsAfter (w.disk file.path)) ?_
    fun _ => ?_
  · refine Triple.post (Triple.ensure fun _ _ _ h => h.1) fun _ w n h => ⟨h.2.1, ?_⟩
    exact RecordedFile.matchesState_after.mp (h.2.2 ▸ h.1)
  · have hput : ∀ w, I w ∧ file.target.IsAfter (w.disk file.path) →
        I (w.put file.path file.target.restored) := fun w hI => h.put w _ hf hI.2 hI.1
    rw [replaceOrRemove_eq]
    exact Triple.write (fun w _ => hput w) (fun w _ h => ⟨h.1, hput w h⟩)
      fun w _ h => ⟨h.1, hput w h⟩

theorem restoreFile (h : Stable A path ts I) (allowBefore : Bool) (index : Nat) :
    Keeps A I (restoreFile path allowBefore index) := by
  have hprogress : ∀ progress, Keeps A I
      (modify fun w => w.setJournal fun j => j.setProgress index progress) := fun progress =>
    .modify fun w => h.setJournal w _ (w.journal.targets_setProgress index progress)
  -- The file read is one of the journal's, so its target is in scope.
  refine Triple.bind (R := fun file w _ => (∀ f, file = some f → f.target ∈ ts) ∧ I w) ?_
    fun file => ?_
  · refine Triple.get fun w n hI => ⟨fun f hf => ?_, hI⟩
    rw [← h.targets w hI]
    exact List.mem_map_of_mem (List.mem_of_getElem? hf)
  refine Triple.of_pure fun hscope => ?_
  cases file with
  | none => exact Keeps.throw _
  | some file =>
      refine Keeps.ite ?_ (.pure ())
      refine .bind (matchesRecordedState_keeps h.edit file true) fun before => ?_
      refine .bind (matchesRecordedState_keeps h.edit file false) fun after => ?_
      refine .bind (.ensure _ _) fun _ => ?_
      refine .bind (hprogress .restoring) fun _ => ?_
      refine .bind h.saveJournal fun _ => ?_
      refine .bind (h.restoreState (hscope file rfl) _) fun _ => ?_
      refine .bind (.write fun _ => id) fun _ => ?_
      exact .bind (hprogress .restored) fun _ => h.saveJournal

/-- A restoration keeps what is stable, however it ends. -/
theorem restoreFiles (h : Stable A path ts I) (count : Nat) (allowBefore : Bool) :
    Keeps A I (restoreFiles path count allowBefore) := by
  refine .bind (.get _) fun files => ?_
  refine .bind (.forM (preflight_keeps h.edit allowBefore) _) fun _ => ?_
  refine .bind (.modify fun w => h.setJournal w _ rfl) fun _ => ?_
  exact .bind h.saveJournal fun _ => .forM (h.restoreFile allowBefore) _

theorem compensate (h : Stable A path ts I) (error : String) :
    Keeps A I (compensate path error) := by
  refine .bind (.get _) fun attempted => ?_
  refine .bind (.attempt (h.restoreFiles attempted true)) fun result => ?_
  cases result with
  | ok =>
      refine .bind (h.setStatus .compensated) fun _ => ?_
      refine .bind (.attempt h.saveJournal) fun saved => ?_
      cases saved <;> exact .throw _
  | error error =>
      refine .bind (h.setStatus .partial_) fun _ => ?_
      refine .bind (.attempt h.saveJournal) fun saved => ?_
      cases saved <;> exact .throw _

theorem restoreAll (h : Stable A path ts I) (j : Journal) : Keeps A I (restoreAll path j) := by
  refine .bind (.attempt (h.restoreFiles _ _)) fun result => ?_
  cases result with
  | ok => exact .bind (h.setStatus .rolledBack) fun _ => h.saveJournal
  | error error =>
      refine .bind (.get _) fun status => .ite ?_ (.throw _)
      refine .bind (h.setStatus .rollbackPartial) fun _ => ?_
      refine .bind (.attempt h.saveJournal) fun saved => ?_
      cases saved <;> exact .throw _

end Stable

/-! ## Foreign edits -/

/-- Others edit the target files, and nothing else. -/
def Foreign (fate : ReadFate World) : Prop :=
  ∃ edit : (Path → Option File) → Path → Option File,
    fate.edit = fun w => { w with disk := edit w.disk }

theorem Foreign.of_quiet {fate : ReadFate World} (h : fate.Quiet) : Foreign fate := ⟨id, h.1⟩

/-- A condition that holds when some journal is in memory. -/
def HoldsFor (I : World → Prop) (w : World) : Prop := ∃ j, I (w.setJournal fun _ => j)

/-- A rollback keeps what is stable for the journal that is saved. -/
theorem Stable.rollback {A : ReadFate World → Prop} {path : Path} {I : World → Prop} {j : Journal}
    (h : Stable A path j.targets I) (hA : ∀ fate, A fate → Foreign fate) :
    Triple A (fun w _ => w.journals path = some j ∧ I (w.setJournal fun _ => j)) (rollback path)
      (fun _ w _ => HoldsFor I w) (fun w _ => HoldsFor I w) fun w _ => HoldsFor I w := by
  have hholds : ∀ (w : World) (n : Nat), w.journals path = some j ∧ I (w.setJournal fun _ => j) →
      HoldsFor I w := fun w n h => ⟨j, h.2⟩
  have hedit : ∀ fate, A fate → ∀ (w : World) (n : Nat),
      w.journals path = some j ∧ I (w.setJournal fun _ => j) →
        (fate.edit w).journals path = some j ∧ I ((fate.edit w).setJournal fun _ => j) := by
    intro fate hf w n hw
    have hkept := h.edit fate hf _ hw.2
    obtain ⟨edit, he⟩ := hA fate hf
    rw [he] at hkept ⊢
    exact ⟨hw.1, hkept⟩
  refine Triple.bind (Triple.read (Q := fun _ w _ => w.journals path = some j ∧
    I (w.setJournal fun _ => j)) (fun _ _ => id) hedit (fun _ _ _ _ w n hw => hholds w n hw) hholds)
    fun _ => ?_
  refine Triple.bind (R := fun a w _ => a = j ∧ I (w.setJournal fun _ => j))
    (Triple.read (fun w n hw => ?_) hedit (fun _ _ _ _ w n hw => hholds w n hw) hholds) fun a => ?_
  · rw [hw.1]
    exact ⟨rfl, hw.2⟩
  refine Triple.of_pure fun ha => ?_
  subst ha
  -- From here on the journal at work is the one that was saved.
  refine Triple.bind (R := fun _ w _ => I w) (Triple.modify fun w n hw => hw) fun _ => ?_
  have hkeeps : Keeps A I (do
      ensure (a.inScope path) "Rollback journal ownership or target scope is invalid"
      checkEnvironment
      let again ← readJournal path
      ensure (again = a) "Rollback journal changed; operation refused"
      if a.status ≠ .rolledBack then
        ensure a.status.eligible "Hook transaction is not eligible for rollback"
        HomeApply.restoreAll path a) :=
    .bind (.ensure _ _) fun _ => .bind (.read h.edit) fun _ => .bind (.read h.edit) fun _ =>
      .bind (.ensure _ _) fun _ => .ite (.bind (.ensure _ _) fun _ => h.restoreAll a) (.pure ())
  exact hkeeps.conseq (fun _ _ => id) (fun _ w _ hw => ⟨w.journal, hw⟩)
    (fun w _ hw => ⟨w.journal, hw⟩) fun w _ hw => ⟨w.journal, hw⟩

/-- An update restores a target that was in the state recorded after the apply. -/
def Respects (ts : List Target) (u : Update) : Prop :=
  ∃ t ∈ ts, u.path = t.path ∧ t.IsAfter u.was ∧ u.now = t.restored

/-- The updates since a log restore targets that were as after. -/
def RespectsSince (ts : List Target) (log : List Update) (w : World) : Prop :=
  ∃ new, w.log = log ++ new ∧ ∀ u ∈ new, Respects ts u

/-- The updates since a log respect the targets of the journal at work. -/
structure Respectful (ts : List Target) (log : List Update) (w : World) : Prop where
  targets : w.journal.targets = ts
  updates : RespectsSince ts log w

theorem respectsSince_refl (ts : List Target) (w : World) : RespectsSince ts w.log w :=
  ⟨[], (List.append_nil _).symm, by simp⟩

theorem respectful_stable (path : Path) (ts : List Target) (log : List Update) :
    Stable Foreign path ts (Respectful ts log) where
  targets _ h := h.targets
  edit fate hf w h := by
    obtain ⟨edit, he⟩ := hf
    rw [he]
    exact ⟨h.targets, h.updates⟩
  setJournal _ _ hf h := ⟨hf.trans h.targets, h.updates⟩
  save _ h := ⟨h.targets, h.updates⟩
  put w t ht ha h := by
    obtain ⟨new, hl, hnew⟩ := h.updates
    refine ⟨h.targets, new ++ [⟨t.path, w.disk t.path, t.restored⟩], ?_, ?_⟩
    · simp [World.put, hl]
    · intro u hu
      rcases List.mem_append.mp hu with hu | hu
      · exact hnew u hu
      · obtain rfl := List.mem_singleton.mp hu
        exact ⟨t, ht, rfl, ha, rfl⟩

theorem RespectsSince.of_keeps {α : Type} {p : Prog World α} {m : Machine World}
    (h : Keeps Foreign (Respectful m.world.journal.targets m.world.log) p)
    (hm : ∀ fate ∈ m.reads, Foreign fate) :
    RespectsSince m.world.journal.targets m.world.log (p m).2.world := by
  have hends := (h m hm ⟨rfl, respectsSince_refl _ _⟩).2
  cases hx : (p m).1 <;> rw [hx] at hends <;> exact hends.updates

/-- A restoration touches a target only in its state after the apply. -/
theorem restoreFiles_respectful {m : Machine World} (hm : ∀ fate ∈ m.reads, Foreign fate)
    (path : Path) (count : Nat) (allowBefore : Bool) :
    RespectsSince m.world.journal.targets m.world.log
      (restoreFiles path count allowBefore m).2.world :=
  .of_keeps ((respectful_stable path _ _).restoreFiles count allowBefore) hm

/-- So does the compensation of an apply. -/
theorem compensate_respectful {m : Machine World} (hm : ∀ fate ∈ m.reads, Foreign fate)
    (path : Path) (error : String) :
    RespectsSince m.world.journal.targets m.world.log (compensate path error m).2.world :=
  .of_keeps ((respectful_stable path _ _).compensate error) hm

/-- So does a rollback, for the targets of the journal that is saved. -/
theorem rollback_respectful {m : Machine World} (hm : ∀ fate ∈ m.reads, Foreign fate)
    {path : Path} {j : Journal} (hj : m.world.journals path = some j) :
    RespectsSince j.targets m.world.log (rollback path m).2.world := by
  have hends := ((respectful_stable path j.targets m.world.log).rollback (fun _ => id) m hm
    ⟨hj, rfl, respectsSince_refl _ (m.world.setJournal fun _ => j)⟩).2
  have hholds : HoldsFor (Respectful j.targets m.world.log) (rollback path m).2.world := by
    cases hx : (rollback path m).1 <;> rw [hx] at hends <;> exact hends
  obtain ⟨j', h⟩ := hholds
  exact h.updates

/-! ## Conflicts -/

/-- When the preflight fails the restoration ends with it, and no target is touched. -/
theorem restoreFiles_conflict {path : Path} {count : Nat} {allowBefore : Bool}
    {m m' : Machine World} {error : String} (hm : ∀ fate ∈ m.reads, Foreign fate)
    (h : (m.world.journal.files.take count).forM (preflight allowBefore) m = (.err error, m')) :
    restoreFiles path count allowBefore m = (.err error, m') ∧ m'.world.log = m.world.log := by
  constructor
  · change Prog.bind ((m.world.journal.files.take count).forM (preflight allowBefore)) _ m = _
    unfold Prog.bind
    rw [h]
  · have hkeeps : Keeps Foreign (fun w => w.log = m.world.log)
        ((m.world.journal.files.take count).forM (preflight allowBefore)) := by
      refine .forM (preflight_keeps (fun fate hf w hw => ?_) allowBefore) _
      obtain ⟨edit, he⟩ := hf
      rw [he]
      exact hw
    have hlog := (hkeeps m hm rfl).2
    rw [h] at hlog
    exact hlog

end AgentOtelBridge.HomeApply
