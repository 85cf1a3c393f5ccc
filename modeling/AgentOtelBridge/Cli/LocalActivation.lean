import AgentOtelBridge.Cli.LocalVersions

/-!
# Activation and rollback of versions

Each operation on a file has one rule, with what it does when it ends well and what
it leaves when it fails.  The rules are used on a condition that the operation does
not touch (`Apart`), so that what a sequence of copies does is read off one after
the other.
-/

namespace AgentOtelBridge.Local

open Faulty FiniteMap Text

/-! ## Files after an operation -/

namespace Runtime

variable {w : Runtime} {dir dir' : DirName} {name name' : String} {path path' : FilePath}

@[simp] theorem dirs_setDir_self (entries : Option Dir) : (w.setDir dir entries).dirs dir = entries :=
  Function.update_self ..

theorem file_setDir_ne (entries : Option Dir) (other : ∀ name, path ≠ .inDir dir name) :
    (w.setDir dir entries).file path = w.file path := by
  cases path with
  | activeManifest => rfl
  | inDir dir' name' =>
      have different : dir' ≠ dir := fun same => other name' (by rw [same])
      simp only [file, setDir, Function.update_of_ne different]

theorem file_setDir_self (entries : Option Dir) (name : String) :
    (w.setDir dir entries).file (.inDir dir name) = entries.bind fun es => es.lookup name := by
  rw [file, dirs_setDir_self]

@[simp] theorem file_createDir (w : Runtime) (dir : DirName) (path : FilePath) :
    (w.createDir dir).file path = w.file path := by
  unfold createDir
  cases path with
  | activeManifest => rfl
  | inDir dir' name =>
      rcases Decidable.em (dir' = dir) with rfl | different
      · rw [file_setDir_self, file]
        cases w.dirs dir' <;> rfl
      · exact file_setDir_ne _ fun name same => different (by cases same; rfl)

theorem file_put_ne (bytes : Bytes) (other : path' ≠ path) : (w.put path bytes).file path' = w.file path' := by
  cases path with
  | activeManifest =>
      cases path' with
      | activeManifest => exact absurd rfl other
      | inDir dir name => rfl
  | inDir dir name =>
      rcases Classical.em (∃ name', path' = .inDir dir name') with ⟨name', rfl⟩ | elsewhere
      · have different : name' ≠ name := fun same => other (by rw [same])
        rw [put, file_setDir_self, file]
        cases w.dirs dir with
        | none => rfl
        | some entries => exact AList.lookup_insert_ne different
      · exact file_setDir_ne _ fun name same => elsewhere ⟨name, same⟩

/-- The directory of a file is there. -/
def Writable (w : Runtime) : FilePath → Prop
  | .inDir dir _ => (w.dirs dir).isSome = true
  | .activeManifest => True

theorem file_put_self (writable : w.Writable path) (bytes : Bytes) :
    (w.put path bytes).file path = some bytes := by
  cases path with
  | activeManifest => rfl
  | inDir dir name =>
      obtain ⟨entries, there⟩ := Option.isSome_iff_exists.mp writable
      rw [put, file_setDir_self, there]
      exact AList.lookup_insert _

theorem writable_createDir (w : Runtime) (dir : DirName) (name : String) :
    (w.createDir dir).Writable (.inDir dir name) := by
  simp [Writable, createDir]

theorem Writable.put (h : w.Writable path) (path' : FilePath) (bytes : Bytes) :
    (w.put path' bytes).Writable path := by
  cases path with
  | activeManifest => trivial
  | inDir dir name =>
      cases path' with
      | activeManifest => exact h
      | inDir dir' name' =>
          rcases Decidable.em (dir = dir') with rfl | different
          · simpa [Writable, Runtime.put] using h
          · simpa [Writable, Runtime.put, setDir, Function.update_of_ne different] using h

theorem file_remove_self : (w.remove dir name).file (.inDir dir name) = none := by
  rw [remove, file_setDir_self]
  cases w.dirs dir with
  | none => rfl
  | some entries => exact AList.lookup_erase _ _

theorem file_remove_ne (other : path ≠ .inDir dir name) : (w.remove dir name).file path = w.file path := by
  rcases Classical.em (∃ name', path = .inDir dir name') with ⟨name', rfl⟩ | elsewhere
  · have different : name' ≠ name := fun same => other (by rw [same])
    rw [remove, file_setDir_self, file]
    cases w.dirs dir with
    | none => rfl
    | some entries => exact AList.lookup_erase_ne different
  · exact file_setDir_ne _ fun name same => elsewhere ⟨name, same⟩

theorem Writable.remove (h : w.Writable path) (dir : DirName) (name : String) :
    (w.remove dir name).Writable path := by
  cases path with
  | activeManifest => trivial
  | inDir dir' name' =>
      rcases Decidable.em (dir' = dir) with rfl | different
      · simpa [Writable, Runtime.remove] using h
      · simpa [Writable, Runtime.remove, setDir, Function.update_of_ne different] using h

theorem file_rename_ne (other : path ≠ .inDir dir name) (other' : path ≠ .inDir dir name') :
    (w.rename dir name name').file path = w.file path := by
  unfold rename
  split
  · rw [file_put_ne _ other', file_remove_ne other]
  · rfl

/-- A file that was renamed is not under its first name any more. -/
theorem file_rename_self (different : name' ≠ name) :
    (w.rename dir name name').file (.inDir dir name) = none := by
  unfold rename
  split
  · rw [file_put_ne _ fun same => different (by cases same; rfl), file_remove_self]
  next missing => exact missing

theorem Writable.rename (h : w.Writable path) (dir : DirName) (name name' : String) :
    (w.rename dir name name').Writable path := by
  unfold Runtime.rename
  split
  · exact (h.remove dir name).put _ _
  · exact h

end Runtime

/-! ## The names -/

theorem fileStem_hookName (windows : Bool) :
    (UnixPath.fileStem (hookName windows).toList).getD [] = "agent-hook".toList := by
  cases windows <;> decide

theorem fileStem_bridgeName (windows : Bool) :
    (UnixPath.fileStem (bridgeName windows).toList).getD [] = "agent-otel-bridge".toList := by
  cases windows <;> decide

/-- No name of the runtime is one that a replaced binary gets. -/
theorem oldName_ne (windows windows' : Bool) (timestamp : Nat) :
    oldName (hookName windows) timestamp ≠ hookName windows' ∧
      oldName (hookName windows) timestamp ≠ bridgeName windows' ∧
      oldName (bridgeName windows) timestamp ≠ hookName windows' ∧
      oldName (bridgeName windows) timestamp ≠ bridgeName windows' := by
  have hook : (oldName (hookName windows) timestamp).toList =
      "agent-hook.old.".toList ++ (toString timestamp).toList := by
    simp [oldName, fileStem_hookName]
  have bridge : (oldName (bridgeName windows) timestamp).toList =
      "agent-otel-bridge.old.".toList ++ (toString timestamp).toList := by
    simp [oldName, fileStem_bridgeName]
  refine ⟨?_, ?_, ?_, ?_⟩ <;> intro same <;> have texts := congrArg String.toList same
  all_goals first | rw [hook] at texts | rw [bridge] at texts
  all_goals cases windows' <;> simp [hookName, bridgeName] at texts

theorem hookName_ne_bridgeName (windows : Bool) : hookName windows ≠ bridgeName windows := by
  cases windows <;> decide

theorem hookName_ne_manifestName (windows : Bool) : hookName windows ≠ manifestName := by
  cases windows <;> decide

theorem bridgeName_ne_manifestName (windows : Bool) : bridgeName windows ≠ manifestName := by
  cases windows <;> decide

/-! ## Rules of the operations -/

/-- Only the process touches the runtime while it works. -/
def Undisturbed (fate : ReadFate Runtime) : Prop := fate.edit = id

/-- A condition that an operation on a file does not touch. -/
structure Apart (dir : DirName) (name : String) (I : Runtime → Prop) : Prop where
  create : ∀ w, I w → I (w.createDir dir)
  put : ∀ w bytes, I w → I (w.put (.inDir dir name) bytes)
  rename : ∀ w timestamp, I w → I (w.rename dir name (oldName name timestamp))
  remove : ∀ w timestamp, I w → I (w.remove dir (oldName name timestamp))

/-- A condition that no operation in a directory touches. -/
def Elsewhere (dir : DirName) (I : Runtime → Prop) : Prop := ∀ w entries, I w → I (w.setDir dir entries)

variable {dir : DirName} {name : String} {src path : FilePath} {I J : Runtime → Prop}
  {content : Option Bytes}

theorem Apart.and (h : Apart dir name I) (h' : Apart dir name J) :
    Apart dir name fun w => I w ∧ J w where
  create w := And.imp (h.create w) (h'.create w)
  put w bytes := And.imp (h.put w bytes) (h'.put w bytes)
  rename w timestamp := And.imp (h.rename w timestamp) (h'.rename w timestamp)
  remove w timestamp := And.imp (h.remove w timestamp) (h'.remove w timestamp)

theorem Apart.file (other : path ≠ .inDir dir name)
    (other' : ∀ timestamp, path ≠ .inDir dir (oldName name timestamp)) :
    Apart dir name fun w => w.file path = content where
  create w h := by rwa [Runtime.file_createDir]
  put w bytes h := by rwa [Runtime.file_put_ne _ other]
  rename w timestamp h := by rwa [Runtime.file_rename_ne other (other' timestamp)]
  remove w timestamp h := by rwa [Runtime.file_remove_ne (other' timestamp)]

theorem Elsewhere.apart (h : Elsewhere dir I) (name : String) : Apart dir name I where
  create w := h w _
  put w _ := h w _
  rename w timestamp holds := by
    unfold Runtime.rename
    split
    · exact h _ _ (h _ _ holds)
    · exact holds
  remove w _ := h w _

/-- A check changes nothing, and a yes is true. -/
theorem test_triple (f : Runtime → Bool) {E : Runtime → Nat → Prop} :
    Triple Undisturbed (fun w _ => I w) (test f) (fun answer w _ => I w ∧ (answer = true → f w = true))
      E fun w _ => I w := by
  refine Triple.bind (R := fun answer w _ => I w ∧ ∀ b, answer = .ok b → b = f w) ?_ ?_
  · refine Triple.attempt (Triple.read ?_ ?_ ?_ fun _ _ => id)
    · intro w _ holds
      exact ⟨holds, fun b same => (Except.ok.inj same).symm⟩
    · intro fate alone w _ holds
      rwa [alone]
    · intro fate error _ _ w _ holds
      exact fun _ => ⟨holds, nofun⟩
  · intro answer
    cases answer with
    | ok b => exact Triple.pure fun w _ ⟨holds, same⟩ => ⟨holds, fun yes => by rw [← same b rfl, yes]⟩
    | error _ => exact Triple.pure fun w _ ⟨holds, _⟩ => ⟨holds, nofun⟩

/-- A check of what is not so answers no. -/
theorem test_no {f : Runtime → Bool} (no : ∀ w, I w → f w = false) {E : Runtime → Nat → Prop} :
    Triple Undisturbed (fun w _ => I w) (test f) (fun answer w _ => answer = false ∧ I w)
      E fun w _ => I w := by
  refine (test_triple f).post fun answer w _ ⟨holds, yes⟩ => ⟨?_, holds⟩
  cases answer with
  | false => rfl
  | true => exact absurd (yes rfl) (by rw [no w holds]; decide)

/-- A file is cut to nothing and grows to what is written. -/
theorem writeFile_triple (kept : ∀ w bytes, I w → I (w.put path bytes))
    (writable : ∀ w, I w → w.Writable path) (bytes : Bytes) :
    Triple Undisturbed (fun w _ => I w) (writeFile path bytes)
      (fun _ w _ => I w ∧ w.file path = some bytes) (fun w _ => I w) fun w _ => I w := by
  let grown : List UInt8 → Runtime → Nat → Prop := fun done w _ => I w ∧ w.file path = some done
  refine Triple.bind (R := fun _ => grown []) ?_ ?_
  · refine Triple.write ?_ ?_ ?_
    · intro w _ holds
      exact ⟨kept w _ holds, Runtime.file_put_self (writable w holds) _⟩
    · exact fun w _ holds => ⟨holds, kept w _ holds⟩
    · exact fun w _ holds => ⟨holds, kept w _ holds⟩
  · intro _
    refine (Triple.forM grown bytes [] ?_).conseq (fun _ _ => id) (fun _ _ _ => id) (fun _ _ => id)
      fun _ _ => id
    intro done byte _ _
    refine Triple.write ?_ ?_ ?_
    · intro w _ ⟨holds, sofar⟩
      rw [Runtime.append, sofar]
      exact ⟨kept w _ holds, Runtime.file_put_self (writable w holds) _⟩
    · exact fun w _ ⟨holds, _⟩ => ⟨holds, kept w _ holds⟩
    · exact fun w _ ⟨holds, _⟩ => ⟨holds, kept w _ holds⟩

theorem copyFile_triple (kept : ∀ w bytes, I w → I (w.put path bytes))
    (writable : ∀ w, I w → w.Writable path) (source : ∀ w, I w → w.file src = content) :
    Triple Undisturbed (fun w _ => I w) (copyFile src path)
      (fun _ w _ => I w ∧ content ≠ none ∧ w.file path = content) (fun w _ => I w) fun w _ => I w := by
  refine Triple.bind (R := fun bytes w _ => content = some bytes ∧ I w) ?_ ?_
  · refine Triple.read ?_ ?_ (fun _ _ _ _ _ _ => id) fun _ _ => id
    · intro w _ holds
      rw [source w holds]
      cases content with
      | none => exact holds
      | some bytes => exact ⟨rfl, holds⟩
    · intro fate alone w _ holds
      rwa [alone]
  · intro bytes
    refine Triple.of_pure fun found => ?_
    refine (writeFile_triple kept writable bytes).post fun _ w _ ⟨holds, written⟩ => ?_
    rw [found]
    exact ⟨holds, nofun, written⟩

/-- The name of a replaced file is another one. -/
def Fresh (name : String) : Prop := ∀ timestamp, oldName name timestamp ≠ name

theorem renameAndReplace_triple (apart : Apart dir name I)
    (source : ∀ w, I w → w.file src = content) :
    Triple Undisturbed (fun w _ => I w ∧ w.Writable (.inDir dir name)) (renameAndReplace src dir name)
      (fun _ w _ => I w ∧ content ≠ none ∧ (Fresh name → w.file (.inDir dir name) = content))
      (fun w _ => I w) fun w _ => I w := by
  let here : Runtime → Prop := fun w => I w ∧ w.Writable (.inDir dir name)
  let copied : Runtime → Prop := fun w =>
    here w ∧ content ≠ none ∧ (Fresh name → w.file (.inDir dir name) = content)
  refine Triple.bind (R := fun _ w _ => here w) (Triple.get fun _ _ => id) fun timestamp => ?_
  refine Triple.bind (R := fun _ w _ => here w) ?_ fun _ => ?_
  · refine Triple.write ?_ ?_ ?_
    · exact fun w _ ⟨holds, there⟩ => ⟨apart.rename w _ holds, there.rename ..⟩
    · exact fun w _ ⟨holds, _⟩ => ⟨holds, apart.rename w _ holds⟩
    · exact fun w _ ⟨holds, _⟩ => ⟨holds, apart.rename w _ holds⟩
  refine Triple.bind (R := fun _ w _ => copied w) ?_ fun _ => ?_
  · refine (copyFile_triple (I := here) ?_ (fun _ => And.right) fun w holds => source w holds.1).conseq
      (fun _ _ => id) ?_ (fun _ _ => And.left) fun _ _ => And.left
    · exact fun w bytes ⟨holds, there⟩ => ⟨apart.put w bytes holds, there.put ..⟩
    · exact fun _ w _ ⟨holds, found, same⟩ => ⟨holds, found, fun _ => same⟩
  · have removed : ∀ w, copied w → copied (w.remove dir (oldName name timestamp)) := by
      intro w ⟨⟨holds, there⟩, found, same⟩
      refine ⟨⟨apart.remove w _ holds, there.remove ..⟩, found, fun fresh => ?_⟩
      rw [Runtime.file_remove_ne fun equal => fresh timestamp (FilePath.inDir.inj equal).2.symm]
      exact same fresh
    refine Triple.bind (R := fun _ w _ => copied w) (Triple.attempt ?_) fun _ => ?_
    · refine Triple.write (fun w _ => removed w) ?_ ?_
      · exact fun w _ holds => ⟨fun _ => holds, fun _ => removed w holds⟩
      · exact fun w _ holds => ⟨holds.1.1, (removed w holds).1.1⟩
    · exact Triple.pure fun w _ ⟨⟨holds, _⟩, rest⟩ => ⟨holds, rest⟩

/-- A copy that ends well leaves the file of its source, and touches nothing else. -/
theorem safeCopyOrReplace_triple (apart : Apart dir name I)
    (source : ∀ w, I w → w.file src = content) :
    Triple Undisturbed (fun w _ => I w) (safeCopyOrReplace src dir name)
      (fun _ w _ => I w ∧ content ≠ none ∧ (Fresh name → w.file (.inDir dir name) = content))
      (fun w _ => I w) fun w _ => I w := by
  let here : Runtime → Prop := fun w => I w ∧ w.Writable (.inDir dir name)
  have copies : Triple Undisturbed (fun w _ => here w) (copyFile src (.inDir dir name))
      (fun _ w _ => I w ∧ content ≠ none ∧ (Fresh name → w.file (.inDir dir name) = content))
      (fun w _ => here w) fun w _ => here w := by
    refine (copyFile_triple (I := here) ?_ (fun _ => And.right) fun w holds => source w holds.1).post ?_
    · exact fun w bytes ⟨holds, there⟩ => ⟨apart.put w bytes holds, there.put ..⟩
    · exact fun _ w _ ⟨holds, found, same⟩ => ⟨holds.1, found, fun _ => same⟩
  refine Triple.bind (R := fun _ w _ => here w) ?_ fun _ => ?_
  · refine Triple.write ?_ ?_ ?_
    · exact fun w _ holds => ⟨apart.create w holds, w.writable_createDir dir name⟩
    · exact fun w _ holds => ⟨holds, apart.create w holds⟩
    · exact fun w _ holds => ⟨holds, apart.create w holds⟩
  refine Triple.bind (R := fun _ w _ => here w) ?_ fun found => ?_
  · exact (test_triple _).conseq (fun _ _ => id) (fun _ _ _ => And.left) (fun _ _ => id)
      fun _ _ => And.left
  refine Triple.ite (fun _ => ?_) fun _ => copies.conseq (fun _ _ => id) (fun _ _ _ => id)
    (fun _ _ => And.left) fun _ _ => And.left
  refine Triple.recover (copies.conseq (fun _ _ => id) (fun _ _ _ => id) (fun _ _ => id)
    fun _ _ => And.left) (fun _ => ?_) fun _ => ?_
  · exact Triple.pure fun _ _ => id
  · exact renameAndReplace_triple apart source

/-- With no file at either end, the copy fails and touches nothing. -/
theorem safeCopyOrReplace_missing (created : ∀ w, I w → I (w.createDir dir))
    (source : ∀ w, I w → w.file src = none) (target : ∀ w, I w → w.file (.inDir dir name) = none) :
    Triple Undisturbed (fun w _ => I w) (safeCopyOrReplace src dir name) (fun _ _ _ => False)
      (fun w _ => I w) fun w _ => I w := by
  have fails : Triple Undisturbed (fun w _ => I w) (copyFile src (.inDir dir name))
      (fun _ _ _ => False) (fun w _ => I w) fun w _ => I w := by
    refine Triple.bind (R := fun _ _ _ => False) ?_ fun _ => fun _ _ absurd_ => absurd_.elim
    refine Triple.read ?_ ?_ (fun _ _ _ _ _ _ => id) fun _ _ => id
    · intro w _ holds
      rw [source w holds]
      exact holds
    · intro fate alone w _ holds
      rwa [alone]
  refine Triple.bind (R := fun _ w _ => I w) ?_ fun _ => ?_
  · refine Triple.write (fun w _ => created w) ?_ ?_
    · exact fun w _ holds => ⟨holds, created w holds⟩
    · exact fun w _ holds => ⟨holds, created w holds⟩
  refine Triple.bind (R := fun answer w _ => answer = false ∧ I w) ?_ fun answer => ?_
  · exact test_no fun w holds => by rw [target w holds]; rfl
  · refine Triple.of_pure fun no => ?_
    subst no
    exact fails

/-! ## What the backup keeps -/

namespace Elsewhere

theorem put (h : Elsewhere dir I) (w : Runtime) (name : String) (bytes : Bytes) (holds : I w) :
    I (w.put (.inDir dir name) bytes) :=
  h w _ holds

theorem writeFile (h : Elsewhere dir I) (name : String) (bytes : Bytes) :
    Keeps Undisturbed I (writeFile (.inDir dir name) bytes) :=
  Keeps.bind (Keeps.write fun w => h.put w name []) fun _ =>
    Keeps.forM (fun _ => Keeps.write fun w => h.put w name _) bytes

theorem copyFile (h : Elsewhere dir I) (src : FilePath) (name : String) :
    Keeps Undisturbed I (copyFile src (.inDir dir name)) :=
  Keeps.bind (Keeps.read fun _ alone w holds => by rwa [alone]) fun bytes => h.writeFile name bytes

theorem renameAndReplace (h : Elsewhere dir I) (src : FilePath) (name : String) :
    Keeps Undisturbed I (renameAndReplace src dir name) := by
  refine Keeps.bind (Keeps.get _) fun timestamp => ?_
  refine Keeps.bind (Keeps.write fun w => (h.apart name).rename w timestamp) fun _ => ?_
  refine Keeps.bind (h.copyFile src name) fun _ => ?_
  refine Keeps.bind (Keeps.attempt (Keeps.write fun w => h w _)) fun _ => ?_
  exact Keeps.pure ()

theorem test (f : Runtime → Bool) : Keeps Undisturbed I (test f) :=
  (test_triple f).post fun _ _ _ => And.left

theorem safeCopyOrReplace (h : Elsewhere dir I) (src : FilePath) (name : String) :
    Keeps Undisturbed I (safeCopyOrReplace src dir name) := by
  refine Keeps.bind (Keeps.write fun w => h w _) fun _ => ?_
  refine Keeps.bind (test _) fun _ => Keeps.ite ?_ (h.copyFile src name)
  refine Keeps.bind (Keeps.attempt (h.copyFile src name)) fun result => ?_
  cases result with
  | ok _ => exact Keeps.pure ()
  | error _ => exact h.renameAndReplace src name

theorem removeDirAll (h : Elsewhere dir I) : Keeps Undisturbed I (removeDirAll dir) := by
  refine Keeps.bind (Keeps.read fun _ alone w holds => by rwa [alone]) fun names => ?_
  refine Keeps.bind (Keeps.forM (fun _ => Keeps.write fun w => h w _) names) fun _ => ?_
  exact Keeps.write fun w => h w _

theorem backUp (h : Elsewhere .previous I) : Keeps Undisturbed I backUp := by
  refine Keeps.bind (Keeps.attempt h.removeDirAll) fun _ => ?_
  refine Keeps.bind (Keeps.write fun w => h w _) fun _ => ?_
  refine Keeps.bind ?_ fun _ => ?_
  · refine Keeps.bind (Keeps.attempt (Keeps.read fun _ alone w holds => by rwa [alone])) fun listed => ?_
    cases listed with
    | error _ => exact Keeps.pure ()
    | ok names =>
        refine Keeps.forM (fun name => ?_) names
        refine Keeps.bind (test _) fun _ => Keeps.ite ?_ (Keeps.pure ())
        exact Keeps.bind (Keeps.attempt (h.safeCopyOrReplace _ _)) fun _ => Keeps.pure ()
  · refine Keeps.bind (test _) fun _ => Keeps.ite ?_ (Keeps.pure ())
    exact Keeps.bind (Keeps.attempt (h.safeCopyOrReplace _ _)) fun _ => Keeps.pure ()

theorem preservePrevious (h : Elsewhere .previous I) : Keeps Undisturbed I preservePrevious :=
  Keeps.bind (test _) fun _ => Keeps.ite h.backUp (Keeps.pure ())

theorem of_ne {dir' : DirName} {name : String} (other : dir' ≠ dir) :
    Elsewhere dir fun w => w.file (.inDir dir' name) = content := by
  intro w entries holds
  rwa [Runtime.file_setDir_ne _ fun _ same => other (by cases same; rfl)]

end Elsewhere

/-! ## What is installed -/

/-- The two binaries and the manifest of a version. -/
structure Release where
  hook : Bytes
  bridge : Bytes
  manifest : Bytes

def RollbackEnv.accepts (env : RollbackEnv) (bytes : Bytes) : Bool :=
  (fromUtf8 bytes).any env.isManifest

/-- The binaries in `bin/` and `active.json`. -/
def Runtime.installed (w : Runtime) (windows : Bool) : Option Bytes × Option Bytes × Option Bytes :=
  (w.file (.inDir .bin (hookName windows)), w.file (.inDir .bin (bridgeName windows)), w.active)

/-- The binaries and the manifest in a directory. -/
def Runtime.staged (w : Runtime) (windows : Bool) (dir : DirName) :
    Option Bytes × Option Bytes × Option Bytes :=
  (w.file (.inDir dir (hookName windows)), w.file (.inDir dir (bridgeName windows)),
    w.file (.inDir dir manifestName))

def Release.files (r : Release) : Option Bytes × Option Bytes × Option Bytes :=
  (some r.hook, some r.bridge, some r.manifest)

/-- `previous/` has a release to roll back to. -/
def Runtime.AllowsRollback (w : Runtime) (env : RollbackEnv) (windows : Bool) (r : Release) : Prop :=
  w.staged windows .previous = r.files ∧ env.accepts r.manifest = true

/-- Nothing of the installation and of what a rollback restores is lost. -/
def Unchanged (env : RollbackEnv) (windows : Bool) (w w' : Runtime) : Prop :=
  w'.installed windows = w.installed windows ∧
    ∀ r, w.AllowsRollback env windows r → w'.AllowsRollback env windows r

theorem fresh_hookName (windows : Bool) : Fresh (hookName windows) := fun timestamp =>
  (oldName_ne windows windows timestamp).1

theorem fresh_bridgeName (windows : Bool) : Fresh (bridgeName windows) := fun timestamp =>
  (oldName_ne windows windows timestamp).2.2.2

variable {env : RollbackEnv} {windows : Bool} {w₀ : Runtime} {source : DirName}

/-- The files of the source are those of the first world. -/
def SourceKept (w₀ : Runtime) (source : DirName) (w : Runtime) : Prop :=
  ∀ name, w.file (.inDir source name) = w₀.file (.inDir source name)

theorem SourceKept.elsewhere (other : source ≠ dir) : Elsewhere dir (SourceKept w₀ source) :=
  fun w entries holds name => Elsewhere.of_ne other w entries (holds name)

/-- Two copies that end well install the binaries of the source. -/
theorem installFrom_triple (other : source ≠ .bin) :
    Triple Undisturbed (fun w _ => SourceKept w₀ source w) (installFrom windows source)
      (fun _ w _ => SourceKept w₀ source w ∧
        w₀.file (.inDir source (hookName windows)) ≠ none ∧
        w₀.file (.inDir source (bridgeName windows)) ≠ none ∧
        w.file (.inDir .bin (hookName windows)) = w₀.file (.inDir source (hookName windows)) ∧
        w.file (.inDir .bin (bridgeName windows)) = w₀.file (.inDir source (bridgeName windows)))
      (fun _ _ => True) fun _ _ => True := by
  let hooked : Runtime → Prop := fun w => SourceKept w₀ source w ∧
    w.file (.inDir .bin (hookName windows)) = w₀.file (.inDir source (hookName windows))
  have kept : Elsewhere .bin (SourceKept w₀ source) := SourceKept.elsewhere other
  have hookKept : Apart .bin (bridgeName windows) hooked := by
    refine (kept.apart _).and (Apart.file ?_ fun timestamp => ?_)
    · exact fun same => hookName_ne_bridgeName windows (FilePath.inDir.inj same).2
    · exact fun same => (oldName_ne windows windows timestamp).2.2.1 (FilePath.inDir.inj same).2.symm
  refine Triple.bind (R := fun _ w _ =>
    w₀.file (.inDir source (hookName windows)) ≠ none ∧ hooked w) ?_ fun _ => ?_
  · refine (safeCopyOrReplace_triple (kept.apart _) fun w holds => holds _).conseq
      (fun _ _ => id) ?_ (fun _ _ _ => trivial) fun _ _ _ => trivial
    exact fun _ w _ ⟨holds, found, same⟩ => ⟨found, holds, same (fresh_hookName windows)⟩
  · refine Triple.of_pure fun foundHook => ?_
    refine (safeCopyOrReplace_triple hookKept fun w holds => holds.1 _).conseq
      (fun _ _ => id) ?_ (fun _ _ _ => trivial) fun _ _ _ => trivial
    exact fun _ w _ ⟨⟨holds, hook⟩, found, same⟩ =>
      ⟨holds, foundHook, found, hook, same (fresh_bridgeName windows)⟩

/-- A text that is read is the content of its file. -/
theorem readToString_triple {bytes : Option Bytes} (found : ∀ w, I w → w.file path = bytes) :
    Triple Undisturbed (fun w _ => I w) (readToString path)
      (fun text w _ => bytes = some (asBytes text) ∧ I w) (fun w _ => I w) fun w _ => I w := by
  refine Triple.read ?_ ?_ (fun _ _ _ _ _ _ => id) fun _ _ => id
  · intro w _ holds
    rw [found w holds]
    cases bytes with
    | none => exact holds
    | some bytes =>
        cases valid : fromUtf8 bytes with
        | none =>
            simp only [valid]
            exact holds
        | some text =>
            simp only [valid]
            exact ⟨congrArg some (asBytes_of_fromUtf8 valid).symm, holds⟩
  · intro fate alone w _ holds
    rwa [alone]

theorem version_ne_bin (versionId : String) : DirName.version versionId ≠ .bin := nofun

theorem previous_ne_bin : DirName.previous ≠ .bin := nofun

theorem version_ne_previous (versionId : String) : DirName.version versionId ≠ .previous := nofun

/-- **After an activation** that ends well, what is installed are the three files of
the version. -/
theorem activateVersion_ok (w₀ : Runtime) (versionId : String) :
    Triple Undisturbed (fun w _ => w = w₀) (activateVersion windows versionId)
      (fun _ w _ => w.installed windows = w₀.staged windows (.version versionId) ∧
        ∃ r : Release, w₀.staged windows (.version versionId) = r.files ∧
          ∃ text, fromUtf8 r.manifest = some text)
      (fun _ _ => True) fun _ _ => True := by
  let kept := SourceKept w₀ (.version versionId)
  refine Triple.bind (R := fun _ w _ => kept w) ?_ fun versionDir => ?_
  · refine (test_triple (I := kept) _).conseq ?_ (fun _ _ _ => And.left) (fun _ _ => id) fun _ _ _ => trivial
    exact fun w _ same _ => by rw [same]
  refine Triple.bind (R := fun _ w _ => kept w) ?_ fun _ => ?_
  · exact (Triple.ensure fun _ _ _ _ => trivial).post fun _ _ _ => And.right
  refine Triple.bind (R := fun _ w _ => kept w) ?_ fun _ => ?_
  · have preserved : Keeps Undisturbed kept preservePrevious :=
      (SourceKept.elsewhere (version_ne_previous versionId)).preservePrevious
    exact preserved.conseq (fun _ _ => id) (fun _ _ _ => id) (fun _ _ _ => trivial) fun _ _ _ => trivial
  refine Triple.bind (R := fun _ w _ => kept w) ?_ fun _ => ?_
  · refine Triple.write ?_ (fun _ _ _ => ⟨trivial, trivial⟩) fun _ _ _ => ⟨trivial, trivial⟩
    exact fun w _ => SourceKept.elsewhere (version_ne_bin versionId) w _
  refine Triple.bind (installFrom_triple (version_ne_bin versionId)) fun _ => ?_
  let done : Runtime → Prop := fun w =>
    w.file (.inDir .bin (hookName windows)) = w₀.file (.inDir (.version versionId) (hookName windows)) ∧
    w.file (.inDir .bin (bridgeName windows)) = w₀.file (.inDir (.version versionId) (bridgeName windows))
  refine Triple.bind (R := fun text w _ =>
      (w₀.file (.inDir (.version versionId) manifestName) = some (asBytes text) ∧
        w₀.file (.inDir (.version versionId) (hookName windows)) ≠ none ∧
        w₀.file (.inDir (.version versionId) (bridgeName windows)) ≠ none) ∧ done w) ?_ fun text => ?_
  · refine (readToString_triple (I := fun w => kept w ∧ _ ∧ _ ∧ done w) fun w holds => holds.1 _).conseq
      (fun _ _ => id) ?_ (fun _ _ _ => trivial) fun _ _ _ => trivial
    exact fun text w _ ⟨manifest, _, hook, bridge, holds⟩ => ⟨⟨manifest, hook, bridge⟩, holds⟩
  · refine Triple.of_pure fun ⟨manifest, hook, bridge⟩ => ?_
    have kept : ∀ w bytes, done w → done (w.put .activeManifest bytes) := fun _ _ holds => holds
    refine (writeFile_triple kept (fun _ _ => trivial) _).conseq (fun _ _ => id) ?_
      (fun _ _ _ => trivial) fun _ _ _ => trivial
    · intro _ w _ ⟨⟨h, h'⟩, active⟩
      obtain ⟨hookBytes, hookIs⟩ := Option.ne_none_iff_exists'.mp hook
      obtain ⟨bridgeBytes, bridgeIs⟩ := Option.ne_none_iff_exists'.mp bridge
      refine ⟨?_, ⟨⟨hookBytes, bridgeBytes, asBytes text⟩, ?_, text, fromUtf8_asBytes text⟩⟩
      · exact Prod.ext h (Prod.ext h' (active.trans manifest.symm))
      · rw [Runtime.staged, hookIs, bridgeIs, manifest]
        rfl

/-- **After a rollback** that ends well, what is installed are the three files of
`previous/`, and their manifest is one. -/
theorem rollbackCandidate_ok (updateHooks : Bool) (w₀ : Runtime) :
    Triple Undisturbed (fun w _ => w = w₀) (rollbackCandidate env windows updateHooks)
      (fun _ w _ => ∃ r, w₀.AllowsRollback env windows r ∧ w.installed windows = r.files)
      (fun _ _ => True) fun _ _ => True := by
  let kept := SourceKept w₀ .previous
  refine Triple.bind (R := fun _ w _ => kept w) ?_ fun found => ?_
  · refine (test_triple (I := kept) _).conseq ?_ (fun _ _ _ => And.left) (fun _ _ => id) fun _ _ _ => trivial
    exact fun w _ same _ => by rw [same]
  refine Triple.bind (R := fun _ w _ => kept w) ?_ fun _ => ?_
  · exact (Triple.ensure fun _ _ _ _ => trivial).post fun _ _ _ => And.right
  refine Triple.bind (R := fun text w _ =>
    w₀.file (.inDir .previous manifestName) = some (asBytes text) ∧ kept w) ?_ fun text => ?_
  · exact (readToString_triple fun w holds => holds manifestName).conseq (fun _ _ => id)
      (fun _ _ _ => id) (fun _ _ _ => trivial) fun _ _ _ => trivial
  refine Triple.of_pure fun manifest => ?_
  refine Triple.bind (R := fun _ w _ => env.isManifest text = true ∧ kept w) ?_ fun _ => ?_
  · exact Triple.ensure fun _ _ _ _ => trivial
  refine Triple.of_pure fun isManifest => ?_
  refine Triple.bind (R := fun _ w _ => kept w) ?_ fun _ => ?_
  · refine Triple.write ?_ (fun _ _ _ => ⟨trivial, trivial⟩) fun _ _ _ => ⟨trivial, trivial⟩
    exact fun w _ => SourceKept.elsewhere previous_ne_bin w _
  refine Triple.bind (installFrom_triple previous_ne_bin) fun _ => ?_
  let done : Runtime → Prop := fun w =>
    (w₀.file (.inDir .previous (hookName windows)) ≠ none ∧
      w₀.file (.inDir .previous (bridgeName windows)) ≠ none) ∧
    w.file (.inDir .bin (hookName windows)) = w₀.file (.inDir .previous (hookName windows)) ∧
    w.file (.inDir .bin (bridgeName windows)) = w₀.file (.inDir .previous (bridgeName windows))
  have accepted : env.accepts (asBytes text) = true := by
    simp [RollbackEnv.accepts, isManifest]
  let restored : Runtime → Prop := fun w =>
    ∃ r, w₀.AllowsRollback env windows r ∧ w.installed windows = r.files
  refine Triple.bind (R := fun _ w _ => restored w) ?_ fun _ => ?_
  · have kept : ∀ w bytes, done w → done (w.put .activeManifest bytes) := fun _ _ holds => holds
    refine (writeFile_triple kept (fun _ _ => trivial) _).conseq ?_ ?_ (fun _ _ _ => trivial)
      fun _ _ _ => trivial
    · exact fun w _ ⟨_, hook, bridge, holds⟩ => ⟨⟨hook, bridge⟩, holds⟩
    · intro _ w _ ⟨⟨⟨hook, bridge⟩, h, h'⟩, active⟩
      obtain ⟨hookBytes, hookIs⟩ := Option.ne_none_iff_exists'.mp hook
      obtain ⟨bridgeBytes, bridgeIs⟩ := Option.ne_none_iff_exists'.mp bridge
      refine ⟨⟨hookBytes, bridgeBytes, asBytes text⟩, ⟨?_, accepted⟩, ?_⟩
      · rw [Runtime.staged, hookIs, bridgeIs, manifest]
        rfl
      · exact Prod.ext (h.trans hookIs) (Prod.ext (h'.trans bridgeIs) active)
  · refine Triple.ite (fun _ => ?_) fun _ => Triple.pure fun _ _ => id
    refine Triple.read ?_ ?_ (fun _ _ _ _ _ _ _ => trivial) fun _ _ _ => trivial
    · intro w _ holds
      cases env.runInstall with
      | ok _ => exact holds
      | error _ => trivial
    · intro fate alone w _ holds
      rwa [alone]

/-! ## Failures that lose nothing -/

/-- The state from which an activation cannot lose anything. -/
def Runtime.ActivationSafe (w : Runtime) (env : RollbackEnv) (windows : Bool) (versionId : String) :
    Prop :=
  w.dirs (.version versionId) = none ∨
    (w.file (.inDir (.version versionId) (hookName windows)) = none ∧
      w.file (.inDir .bin (hookName windows)) = none ∧
      (w.dirs .bin = none ∨ ∀ r, ¬ w.AllowsRollback env windows r))

/-- The state from which a rollback cannot lose anything. -/
def Runtime.RollbackSafe (w : Runtime) (env : RollbackEnv) (windows : Bool) : Prop :=
  (∀ bytes, w.file (.inDir .previous manifestName) = some bytes → env.accepts bytes = false) ∨
    (w.file (.inDir .previous (hookName windows)) = none ∧
      w.file (.inDir .bin (hookName windows)) = none)

theorem Unchanged.refl (w : Runtime) : Unchanged env windows w w := ⟨rfl, fun _ => id⟩

theorem createDir_installed (w : Runtime) (dir : DirName) :
    (w.createDir dir).installed windows = w.installed windows := by
  simp [Runtime.installed]
  rfl

theorem createDir_staged (w : Runtime) (dir dir' : DirName) :
    (w.createDir dir).staged windows dir' = w.staged windows dir' := by
  simp [Runtime.staged]

/-- Nothing is lost so far, and there is no hook to copy and none to replace. -/
def Lossless (env : RollbackEnv) (windows : Bool) (w₀ : Runtime) (source : DirName) (w : Runtime) :
    Prop :=
  w.file (.inDir source (hookName windows)) = none ∧
    w.file (.inDir .bin (hookName windows)) = none ∧ Unchanged env windows w₀ w

theorem Lossless.createDir {w : Runtime} (h : Lossless env windows w₀ source w) :
    Lossless env windows w₀ source (w.createDir .bin) := by
  obtain ⟨source, hook, same, allows⟩ := h
  refine ⟨by rwa [Runtime.file_createDir], by rwa [Runtime.file_createDir], ?_, ?_⟩
  · rwa [createDir_installed]
  · intro r before
    obtain ⟨staged, accepted⟩ := allows r before
    exact ⟨by rwa [createDir_staged], accepted⟩

/-- The copies into `bin/` fail at the hook. -/
theorem Lossless.installFrom {next : Unit → Prog Runtime Unit} :
    Triple Undisturbed (fun w _ => Lossless env windows w₀ source w)
      (installFrom windows source >>= next)
      (fun _ _ _ => False) (fun w _ => Unchanged env windows w₀ w) fun _ _ => True := by
  refine Triple.bind (R := fun _ _ _ => False) ?_ fun _ _ _ absurd_ => absurd_.elim
  refine Triple.bind (R := fun _ _ _ => False) ?_ fun _ _ _ absurd_ => absurd_.elim
  exact (safeCopyOrReplace_missing (fun _ => Lossless.createDir) (fun _ => And.left)
      fun _ holds => holds.2.1).conseq
    (fun _ _ => id) (fun _ _ _ => id) (fun _ _ holds => holds.2.2) fun _ _ _ => trivial

/-- An activation from a safe state fails without loss. -/
theorem activateVersion_safe {versionId : String} (safe : w₀.ActivationSafe env windows versionId) :
    Triple Undisturbed (fun w _ => w = w₀) (activateVersion windows versionId)
      (fun _ _ _ => False) (fun w _ => Unchanged env windows w₀ w) fun _ _ => True := by
  rcases safe with noVersion | ⟨noSource, noHook, kept⟩
  · refine Triple.bind (R := fun answer w _ => answer = false ∧ w = w₀) ?_ fun versionDir => ?_
    · exact (test_no fun w same => by rw [same, noVersion]; rfl).conseq (fun _ _ => id)
        (fun _ _ _ => id) (fun _ _ => id) fun _ _ _ => trivial
    refine Triple.of_pure fun no => Triple.bind (R := fun _ _ _ => False) ?_ fun _ _ _ absurd_ => absurd_.elim
    subst no
    exact Triple.throw fun w _ same => same ▸ Unchanged.refl w
  · let lossless : Runtime → Prop := Lossless env windows w₀ (.version versionId)
    refine Triple.bind (R := fun _ w _ => w = w₀) ?_ fun versionDir => ?_
    · exact (test_triple _).conseq (fun _ _ => id) (fun _ _ _ => And.left) (fun _ _ => id)
        fun _ _ _ => trivial
    refine Triple.bind (R := fun _ w _ => w = w₀) ?_ fun _ => ?_
    · exact (Triple.ensure fun _ w _ same => same ▸ Unchanged.refl w).post fun _ _ _ => And.right
    refine Triple.bind (R := fun _ w _ => lossless w) ?_ fun _ => ?_
    · rcases kept with noBin | nothing
      · -- without `bin/` there is no backup
        refine Triple.bind (R := fun answer w _ => answer = false ∧ w = w₀) ?_ fun binDir => ?_
        · exact (test_no fun w same => by rw [same, noBin]; rfl).conseq (fun _ _ => id)
            (fun _ _ _ => id) (fun _ _ => id) fun _ _ _ => trivial
        · refine Triple.of_pure fun no => ?_
          subst no
          exact Triple.pure fun w _ same => same ▸ ⟨noSource, noHook, Unchanged.refl w₀⟩
      · have elsewhere : Elsewhere .previous lossless := by
          intro w entries ⟨source, hook, same, _⟩
          refine ⟨?_, ?_, ?_, fun r before => absurd before (nothing r)⟩
          · exact Elsewhere.of_ne (version_ne_previous versionId) w entries source
          · exact Elsewhere.of_ne previous_ne_bin.symm w entries hook
          · rw [← same]
            rfl
        refine elsewhere.preservePrevious.conseq ?_ (fun _ _ _ => id) (fun _ _ holds => holds.2.2)
          fun _ _ _ => trivial
        exact fun w _ same => same ▸ ⟨noSource, noHook, Unchanged.refl w₀⟩
    refine Triple.bind (R := fun _ w _ => lossless w) ?_ fun _ => ?_
    · refine Triple.write (fun _ _ => Lossless.createDir) ?_ fun _ _ _ => ⟨trivial, trivial⟩
      exact fun w _ holds => ⟨holds.2.2, holds.createDir.2.2⟩
    exact Lossless.installFrom

/-- A rollback from a safe state fails without loss. -/
theorem rollbackCandidate_safe {updateHooks : Bool} (safe : w₀.RollbackSafe env windows) :
    Triple Undisturbed (fun w _ => w = w₀) (rollbackCandidate env windows updateHooks)
      (fun _ _ _ => False) (fun w _ => Unchanged env windows w₀ w) fun _ _ => True := by
  have unchanged : ∀ w (_ : Nat), w = w₀ → Unchanged env windows w₀ w := fun w _ same =>
    same ▸ Unchanged.refl w
  refine Triple.bind (R := fun _ w _ => w = w₀) ?_ fun found => ?_
  · exact (test_triple _).conseq (fun _ _ => id) (fun _ _ _ => And.left) (fun _ _ => id)
      fun _ _ _ => trivial
  refine Triple.bind (R := fun _ w _ => w = w₀) ?_ fun _ => ?_
  · exact (Triple.ensure fun _ => unchanged).post fun _ _ _ => And.right
  refine Triple.bind (R := fun text w _ =>
    w₀.file (.inDir .previous manifestName) = some (asBytes text) ∧ w = w₀) ?_ fun text => ?_
  · exact (readToString_triple fun w same => by rw [same]).conseq (fun _ _ => id) (fun _ _ _ => id)
      unchanged fun _ _ _ => trivial
  refine Triple.of_pure fun manifest => ?_
  refine Triple.bind (R := fun _ w _ => env.isManifest text = true ∧ w = w₀) ?_ fun _ => ?_
  · exact Triple.ensure fun _ => unchanged
  refine Triple.of_pure fun isManifest => ?_
  obtain noManifest | ⟨noSource, noHook⟩ := safe
  · have accepted : env.accepts (asBytes text) = true := by
      simp [RollbackEnv.accepts, isManifest]
    rw [noManifest _ manifest] at accepted
    cases accepted
  · have first : ∀ w (_ : Nat), w = w₀ → Lossless env windows w₀ .previous w := by
      intro w _ same
      rw [same]
      exact ⟨noSource, noHook, Unchanged.refl w₀⟩
    refine Triple.bind (R := fun _ w _ => Lossless env windows w₀ .previous w) ?_ fun _ => ?_
    · refine Triple.write ?_ ?_ fun _ _ _ => ⟨trivial, trivial⟩
      · exact fun w n same => (first w n same).createDir
      · exact fun w n same => ⟨unchanged w n same, (first w n same).createDir.2.2⟩
    exact Lossless.installFrom

end AgentOtelBridge.Local
