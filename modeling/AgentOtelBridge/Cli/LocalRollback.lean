import AgentOtelBridge.Cli.LocalActivation

/-!
# Rollback of an activation

Without faults an activation followed by a rollback restores what was installed.
With faults the backup may be lost without an error, and a copy that fails leaves
`bin/` without a binary.  The main result says from which states a failure loses
nothing, whatever the faults are.
-/

namespace AgentOtelBridge.Local

open Faulty FiniteMap Text

/-! ## Copies without faults -/

variable {w w' w'' : Runtime} {dir : DirName} {name : String} {src path : FilePath} {bytes : Bytes}

/-- One file has been written, and nothing else. -/
structure Wrote (path : FilePath) (bytes : Bytes) (w w' : Runtime) : Prop where
  written : w'.file path = some bytes
  others : ∀ path', path' ≠ path → w'.file path' = w.file path'
  dirs : ∀ dir, (w.dirs dir).isSome = true → (w'.dirs dir).isSome = true

theorem dirs_put (w : Runtime) (path : FilePath) (bytes : Bytes) (dir : DirName) :
    ((w.put path bytes).dirs dir).isSome = (w.dirs dir).isSome := by
  cases path with
  | activeManifest => rfl
  | inDir dir' name =>
      rcases Decidable.em (dir = dir') with rfl | different
      · simp [Runtime.put]
      · simp [Runtime.put, Runtime.setDir, Function.update_of_ne different]

theorem Wrote.put (writable : w.Writable path) (bytes : Bytes) : Wrote path bytes w (w.put path bytes) where
  written := Runtime.file_put_self writable bytes
  others _ other := Runtime.file_put_ne bytes other
  dirs dir there := by rwa [dirs_put]

theorem Wrote.trans {bytes' : Bytes} (h : Wrote path bytes w w') (h' : Wrote path bytes' w' w'') :
    Wrote path bytes' w w'' where
  written := h'.written
  others path' other := (h'.others path' other).trans (h.others path' other)
  dirs dir there := h'.dirs dir (h.dirs dir there)

theorem Wrote.writable (h : Wrote path bytes w w') (writable : w.Writable path) : w'.Writable path := by
  cases path with
  | activeManifest => trivial
  | inDir dir name => exact h.dirs dir writable

theorem writeFile_settles (path : FilePath) (writable : w.Writable path) (bytes : Bytes) :
    ∃ w', Settles (writeFile path bytes) w (.ok ()) w' ∧ Wrote path bytes w w' := by
  obtain ⟨w', runs, written⟩ := Settles.forM
    (I := fun done w' => Wrote path done w w' ∧ w'.Writable path) bytes []
    ⟨Wrote.put writable [], writable.put path []⟩ fun done byte _ w' _ ⟨sofar, there⟩ => by
      refine ⟨w'.append path byte, Settles.write _, ?_⟩
      rw [Runtime.append, sofar.written]
      have next_ := Wrote.put there (done ++ [byte])
      exact ⟨sofar.trans next_, next_.writable there⟩
  exact ⟨w', (Settles.write _).bind runs, written.1⟩

theorem copyFile_settles (found : w.file src = some bytes) (writable : w.Writable path) :
    ∃ w', Settles (copyFile src path) w (.ok ()) w' ∧ Wrote path bytes w w' := by
  obtain ⟨w', runs, written⟩ := writeFile_settles path writable bytes
  exact ⟨w', (Settles.read_ok (by rw [found])).bind runs, written⟩

theorem test_settles (f : Runtime → Bool) (w : Runtime) : Settles (test f) w (.ok (f w)) w := by
  have answers : Settles (read fun w => Except.ok (f w)) w (.ok (f w)) w := Settles.read_ok rfl
  exact answers.attempt.bind (Settles.pure (f w))

theorem dirs_createDir (w : Runtime) (dir dir' : DirName) (there : (w.dirs dir').isSome = true) :
    ((w.createDir dir).dirs dir').isSome = true := by
  rcases Decidable.em (dir' = dir) with rfl | different
  · exact w.writable_createDir dir' ""
  · simpa [Runtime.createDir, Runtime.setDir, Function.update_of_ne different] using there

theorem safeCopyOrReplace_settles (dir : DirName) (name : String) (found : w.file src = some bytes) :
    ∃ w', Settles (safeCopyOrReplace src dir name) w (.ok ()) w' ∧
      Wrote (.inDir dir name) bytes w w' ∧ (w'.dirs dir).isSome = true := by
  have created : (w.createDir dir).file src = some bytes := by rwa [Runtime.file_createDir]
  obtain ⟨w', runs, written⟩ := copyFile_settles created (w.writable_createDir dir name)
  have whole : Wrote (.inDir dir name) bytes w w' :=
    { written := written.written
      others := fun path' other => (written.others path' other).trans (w.file_createDir dir path')
      dirs := fun dir' there => written.dirs dir' (dirs_createDir w dir dir' there) }
  refine ⟨w', (Settles.write _).bind ((test_settles _ _).bind ?_), whole,
    written.writable (w.writable_createDir dir name)⟩
  split
  · exact runs.attempt.bind (Settles.pure ())
  · exact runs

/-! ## The backup without faults -/

/-- Nothing outside `previous/` has changed. -/
def SameOutside (w w' : Runtime) : Prop :=
  ∀ path, (∀ name, path ≠ .inDir .previous name) → w'.file path = w.file path

theorem bin_outside (name name' : String) : FilePath.inDir .bin name ≠ .inDir .previous name' := nofun

theorem version_outside (versionId name name' : String) :
    FilePath.inDir (.version versionId) name ≠ .inDir .previous name' := nofun

theorem inDir_ne_active (dir : DirName) (name : String) : FilePath.inDir dir name ≠ .activeManifest :=
  nofun

theorem active_outside (name : String) : FilePath.activeManifest ≠ .inDir .previous name := nofun

theorem SameOutside.trans (h : SameOutside w w') (h' : SameOutside w' w'') : SameOutside w w'' :=
  fun path outside => (h' path outside).trans (h path outside)

theorem SameOutside.of_wrote (h : Wrote (.inDir .previous name) bytes w w') : SameOutside w w' :=
  fun path outside => h.others path (outside name)

/-- A runtime without `previous/`. -/
def Runtime.wiped (w : Runtime) : Runtime :=
  match w.dirs .previous with
  | some entries =>
      (entries.keys.foldl (fun w name => w.remove .previous name) w).setDir .previous none
  | none => w

theorem foldl_remove (names : List String) (w : Runtime) :
    SameOutside w (names.foldl (fun w name => w.remove .previous name) w) ∧
      (names.foldl (fun w name => w.remove .previous name) w).dirs .bin = w.dirs .bin := by
  induction names generalizing w with
  | nil => exact ⟨fun _ _ => rfl, rfl⟩
  | cons name names ih =>
      obtain ⟨same, bin⟩ := ih (w.remove .previous name)
      have first : SameOutside w (w.remove .previous name) := fun path outside =>
        Runtime.file_setDir_ne _ outside
      exact ⟨first.trans same, bin⟩

theorem Runtime.wiped_spec (w : Runtime) :
    w.wiped.dirs .previous = none ∧ SameOutside w w.wiped ∧ w.wiped.dirs .bin = w.dirs .bin := by
  unfold Runtime.wiped
  cases there : w.dirs .previous with
  | none => exact ⟨there, fun _ _ => rfl, rfl⟩
  | some entries =>
      obtain ⟨same, bin⟩ := foldl_remove entries.keys w
      exact ⟨Runtime.dirs_setDir_self none,
        same.trans fun path outside => Runtime.file_setDir_ne _ outside, bin⟩

/-- With `previous/` listed and no write to fail, it is removed. -/
theorem removeDirAll_of_listed (m : Faulty.Machine Runtime) (reads : List (ReadFate Runtime)) (n : Nat)
    (missing : w.dirs .previous = none →
      readDir .previous m = (.err "No such file or directory", ⟨w, reads, [], n⟩))
    (listed : ∀ entries, w.dirs .previous = some entries →
      readDir .previous m = (.ok entries.keys, ⟨w, reads, [], n⟩)) :
    ∃ result, attempt (removeDirAll .previous) m = (.ok result, ⟨w.wiped, reads, [], n⟩) := by
  unfold Runtime.wiped
  cases there : w.dirs .previous with
  | none => exact ⟨_, attempt_err (bind_err (missing there))⟩
  | some entries =>
      refine ⟨.ok (), attempt_ok ((bind_ok (listed entries there)).trans ?_)⟩
      exact (bind_ok (forM_write_end _ _ w)).trans (write_end _)

theorem file_eq_none_of_dirs (w : Runtime) (dir : DirName) (gone : w.dirs dir = none) (name : String) :
    w.file (.inDir dir name) = none := by
  rw [Runtime.file, gone]
  rfl

/-- The loop of the backup copies every file of `bin/`. -/
theorem backUpBinaries_settles {entries : Dir} (there : w.dirs .bin = some entries)
    (empty : ∀ name, w.file (.inDir .previous name) = none) :
    ∃ w', Settles backUpBinaries w (.ok ()) w' ∧ SameOutside w w' ∧
      ∀ name, w'.file (.inDir .previous name) = w.file (.inDir .bin name) := by
  have inBin : ∀ name, w.file (.inDir .bin name) = entries.lookup name := fun name => by
    rw [Runtime.file, there]
    rfl
  obtain ⟨w', runs, same, copied, others⟩ := Settles.forM (f := backUpFile)
    (I := fun done w' => SameOutside w w' ∧
      (∀ name ∈ done, w'.file (.inDir .previous name) = w.file (.inDir .bin name)) ∧
      ∀ name ∉ done, w'.file (.inDir .previous name) = none)
    entries.keys [] ⟨fun _ _ => rfl, fun _ member => absurd member List.not_mem_nil, fun name _ => empty name⟩
    fun done name rest w₁ split_ held => by
      obtain ⟨same, copied, others⟩ := held
      have member : name ∈ entries.keys := by
        rw [← List.nil_append entries.keys, split_]
        simp
      obtain ⟨content, found⟩ := Option.isSome_iff_exists.mp (AList.lookup_isSome.mpr (AList.mem_keys.mpr member))
      have found₁ : w₁.file (.inDir .bin name) = some content :=
        (same _ (bin_outside name)).trans ((inBin name).trans found)
      obtain ⟨w₂, runs, wrote, -⟩ := safeCopyOrReplace_settles .previous name found₁
      refine ⟨w₂, (test_settles _ _).bind ?_, same.trans (.of_wrote wrote), ?_, ?_⟩
      · rw [found₁]
        exact runs.attempt.bind (Settles.pure ())
      · intro other member
        rcases Decidable.em (other = name) with rfl | different
        · rw [wrote.written, inBin, found]
        · have before : other ∈ done := by simpa [different] using member
          rw [wrote.others _ fun h => different (FilePath.inDir.inj h).2]
          exact copied other before
      · intro other absent
        have absent' : other ∉ done ∧ other ≠ name := by simpa using absent
        rw [wrote.others _ fun h => absent'.2 (FilePath.inDir.inj h).2]
        exact others other absent'.1
  refine ⟨w', ?_, same, ?_⟩
  · have listed : Settles (readDir .bin) w (.ok entries.keys) w := Settles.read_ok (by rw [there])
    exact listed.attempt.bind runs
  · intro name
    rcases Decidable.em (name ∈ entries.keys) with member | absent
    · exact copied name member
    · rw [others name absent, inBin]
      exact (AList.lookup_eq_none.mpr fun h => absent (AList.mem_keys.mp h)).symm

theorem backUpManifest_settles {manifest : Bytes} (active : w.active = some manifest) :
    ∃ w', Settles backUpManifest w (.ok ()) w' ∧ Wrote (.inDir .previous manifestName) manifest w w' := by
  have found : w.file .activeManifest = some manifest := active
  obtain ⟨w', runs, wrote, -⟩ :=
    safeCopyOrReplace_settles .previous manifestName found
  refine ⟨w', (test_settles _ _).bind ?_, wrote⟩
  rw [active]
  exact runs.attempt.bind (Settles.pure ())

/-- The backup of a whole installation. -/
theorem preservePrevious_settles {windows : Bool} {r : Release} (installed : w.installed windows = r.files) :
    ∃ w', Settles preservePrevious w (.ok ()) w' ∧ SameOutside w w' ∧
      w'.staged windows .previous = r.files := by
  obtain ⟨hook, bridge, active⟩ : w.file (.inDir .bin (hookName windows)) = some r.hook ∧
      w.file (.inDir .bin (bridgeName windows)) = some r.bridge ∧ w.active = some r.manifest := by
    simpa [Runtime.installed, Release.files] using installed
  obtain ⟨entries, there⟩ : ∃ entries, w.dirs .bin = some entries := by
    cases there : w.dirs .bin with
    | none =>
        rw [file_eq_none_of_dirs w .bin there] at hook
        cases hook
    | some entries => exact ⟨entries, rfl⟩
  obtain ⟨gone, same₁, bin₁⟩ := w.wiped_spec
  let w₂ := w.wiped.createDir .previous
  have same₂ : SameOutside w w₂ := fun path outside =>
    (w.wiped.file_createDir .previous path).trans (same₁ path outside)
  have empty : ∀ name, w₂.file (.inDir .previous name) = none := fun name => by
    rw [Runtime.file_createDir, file_eq_none_of_dirs w.wiped .previous gone]
  have there₂ : w₂.dirs .bin = some entries := bin₁.trans there
  obtain ⟨w₃, copies, same₃, copied⟩ := backUpBinaries_settles there₂ empty
  have active₃ : w₃.active = some r.manifest :=
    ((same₂.trans same₃) _ active_outside).trans active
  obtain ⟨w₄, saves, wrote⟩ := backUpManifest_settles active₃
  have inPrevious : ∀ name, name ≠ manifestName →
      w₄.file (.inDir .previous name) = w.file (.inDir .bin name) := by
    intro name other
    rw [wrote.others _ fun h => other (FilePath.inDir.inj h).2, copied]
    exact same₂ _ (bin_outside name)
  refine ⟨w₄, (test_settles _ _).bind ?_, (same₂.trans same₃).trans (.of_wrote wrote), ?_⟩
  · rw [there]
    intro n
    obtain ⟨result, wipes⟩ := removeDirAll_of_listed ⟨w, [], [], n⟩ [] n
      (fun there => Settles.read_error (by rw [there]) n)
      fun entries there => Settles.read_ok (by rw [there]) n
    exact (bind_ok wipes).trans (((Settles.write _).bind (copies.bind saves)) n)
  · rw [Runtime.staged, inPrevious _ (hookName_ne_manifestName windows),
      inPrevious _ (bridgeName_ne_manifestName windows), wrote.written, hook, bridge]
    rfl

/-! ## Activation and rollback without faults -/

variable {env : RollbackEnv} {windows updateHooks : Bool} {versionId : String} {source : DirName}
  {r : Release}

theorem installFrom_settles (other : source ≠ .bin) {hook bridge : Bytes}
    (hookIs : w.file (.inDir source (hookName windows)) = some hook)
    (bridgeIs : w.file (.inDir source (bridgeName windows)) = some bridge) :
    ∃ w', Settles (installFrom windows source) w (.ok ()) w' ∧
      (∀ dir name, dir ≠ .bin → w'.file (.inDir dir name) = w.file (.inDir dir name)) ∧
      (w'.file (.inDir .bin (hookName windows))).isSome = true := by
  have outside : ∀ {dir : DirName} name name', dir ≠ .bin → FilePath.inDir dir name ≠ .inDir .bin name' :=
    fun _ _ different same => different (FilePath.inDir.inj same).1
  obtain ⟨w₁, copiesHook, wrote₁, -⟩ := safeCopyOrReplace_settles .bin (hookName windows) hookIs
  have bridgeIs₁ : w₁.file (.inDir source (bridgeName windows)) = some bridge := by
    rw [wrote₁.others _ (outside _ _ other), bridgeIs]
  obtain ⟨w₂, copiesBridge, wrote₂, -⟩ := safeCopyOrReplace_settles .bin (bridgeName windows) bridgeIs₁
  refine ⟨w₂, copiesHook.bind copiesBridge, ?_, ?_⟩
  · intro dir name different
    rw [wrote₂.others _ (outside _ _ different), wrote₁.others _ (outside _ _ different)]
  · rw [wrote₂.others _ fun same => hookName_ne_bridgeName windows (FilePath.inDir.inj same).2,
      wrote₁.written]
    rfl

/-- What comes behind the backup in an activation. -/
theorem activation_settles {v : Release} {content : String}
    (staged : w.staged windows (.version versionId) = v.files)
    (isText : fromUtf8 v.manifest = some content) :
    ∃ w', Settles (do
        createDirAll .bin
        installFrom windows (.version versionId)
        let manifestContent ← readToString (.inDir (.version versionId) manifestName)
        writeFile .activeManifest (asBytes manifestContent)) w (.ok ()) w' ∧
      w'.staged windows .previous = w.staged windows .previous ∧
      (w'.file (.inDir .bin (hookName windows))).isSome = true := by
  obtain ⟨hook, bridge, manifest⟩ : w.file (.inDir (.version versionId) (hookName windows)) = some v.hook ∧
      w.file (.inDir (.version versionId) (bridgeName windows)) = some v.bridge ∧
      w.file (.inDir (.version versionId) manifestName) = some v.manifest := by
    simpa [Runtime.staged, Release.files] using staged
  obtain ⟨w₁, installs, same, hooked⟩ := installFrom_settles (w := w.createDir .bin) (version_ne_bin versionId)
    (by rwa [Runtime.file_createDir]) (by rwa [Runtime.file_createDir])
  have manifest₁ : w₁.file (.inDir (.version versionId) manifestName) = some v.manifest := by
    rw [same _ _ (version_ne_bin versionId), Runtime.file_createDir, manifest]
  have reads : Settles (readToString (.inDir (.version versionId) manifestName)) w₁ (.ok content) w₁ :=
    Settles.read_ok (by simp only [manifest₁, isText])
  obtain ⟨w₂, writes, wrote⟩ := writeFile_settles (w := w₁) .activeManifest trivial (asBytes content)
  have previous : ∀ name, w₂.file (.inDir .previous name) = w.file (.inDir .previous name) := by
    intro name
    rw [wrote.others _ (inDir_ne_active _ _), same _ _ previous_ne_bin, Runtime.file_createDir]
  refine ⟨w₂, (Settles.write _).bind (installs.bind (reads.bind writes)), ?_, ?_⟩
  · simp only [Runtime.staged, previous]
  · rwa [wrote.others _ (inDir_ne_active _ _)]

theorem activateVersion_settles {v : Release} {content : String}
    (installed : w.installed windows = r.files)
    (staged : w.staged windows (.version versionId) = v.files)
    (isText : fromUtf8 v.manifest = some content) :
    ∃ w', Settles (activateVersion windows versionId) w (.ok ()) w' ∧
      w'.staged windows .previous = r.files := by
  obtain ⟨w₁, backsUp, same, backup⟩ := preservePrevious_settles installed
  have staged₁ : w₁.staged windows (.version versionId) = v.files := by
    rw [← staged]
    simp only [Runtime.staged, same _ (version_outside versionId _)]
  obtain ⟨w₂, activates, previous, -⟩ := activation_settles staged₁ isText
  have there : (w.dirs (.version versionId)).isSome = true := by
    cases there : w.dirs (.version versionId) with
    | none =>
        rw [Runtime.staged, file_eq_none_of_dirs w _ there] at staged
        cases congrArg Prod.fst staged
    | some entries => rfl
  refine ⟨w₂, (test_settles _ _).bind ?_, previous.trans backup⟩
  exact (Settles.ensure there _).bind (backsUp.bind activates)

/-- A rollback to what `previous/` allows ends well. -/
theorem rollbackCandidate_settles (allows : w.AllowsRollback env windows r)
    (hooks : updateHooks = true → env.runInstall = .ok ()) :
    ∃ w', Settles (rollbackCandidate env windows updateHooks) w (.ok ()) w' := by
  obtain ⟨staged, accepted⟩ := allows
  obtain ⟨hook, bridge, manifest⟩ : w.file (.inDir .previous (hookName windows)) = some r.hook ∧
      w.file (.inDir .previous (bridgeName windows)) = some r.bridge ∧
      w.file (.inDir .previous manifestName) = some r.manifest := by
    simpa [Runtime.staged, Release.files] using staged
  obtain ⟨content, isText, isManifest⟩ : ∃ content, fromUtf8 r.manifest = some content ∧
      env.isManifest content = true := by
    simpa [RollbackEnv.accepts, Option.any_eq_true] using accepted
  have reads : Settles (readToString (.inDir .previous manifestName)) w (.ok content) w :=
    Settles.read_ok (by simp only [manifest, isText])
  obtain ⟨w₁, installs, -⟩ := installFrom_settles (w := w.createDir .bin) previous_ne_bin
    (by rwa [Runtime.file_createDir]) (by rwa [Runtime.file_createDir])
  obtain ⟨w₂, writes, -⟩ := writeFile_settles (w := w₁) .activeManifest trivial (asBytes content)
  have updates : Settles (if updateHooks = true then read fun _ => env.runInstall else pure ()) w₂
      (.ok ()) w₂ := by
    split
    next wanted => exact Settles.read_ok (hooks wanted)
    next => exact Settles.pure ()
  refine ⟨w₂, (test_settles _ _).bind ?_⟩
  refine (Settles.ensure (by rw [manifest]; rfl) _).bind (reads.bind ?_)
  exact (Settles.ensure isManifest _).bind ((Settles.write _).bind (installs.bind (writes.bind updates)))

/-! ## Scripts -/

/-- What the reads and the writes of a program meet, while only it touches the runtime. -/
structure Script where
  reads : List (ReadFate Runtime)
  writes : List WriteFate
  undisturbed : ∀ fate ∈ reads, Undisturbed fate

def Script.calm : Script := ⟨[], [], fun _ member => absurd member List.not_mem_nil⟩

/-- How a program ends on a script, and in which world. -/
def runOn (p : Prog Runtime Unit) (w : Runtime) (s : Script) : Exit Unit × Runtime :=
  ((p ⟨w, s.reads, s.writes, 0⟩).1, (p ⟨w, s.reads, s.writes, 0⟩).2.world)

theorem runOn_calm {p : Prog Runtime Unit} {exit : Exit Unit} (settles : Settles p w exit w') :
    runOn p w .calm = (exit, w') := by
  rw [runOn]
  simp only [Script.calm, settles 0]

theorem runOn_of_eq {p : Prog Runtime Unit} {s : Script} {exit : Exit Unit}
    {reads : List (ReadFate Runtime)} {writes : List WriteFate} {n : Nat}
    (runs : p ⟨w, s.reads, s.writes, 0⟩ = (exit, ⟨w', reads, writes, n⟩)) :
    runOn p w s = (exit, w') := by
  rw [runOn, runs]

/-- The rule of a program on a script. -/
theorem runOn_of_triple {p : Prog Runtime Unit} {Q : Unit → Runtime → Nat → Prop}
    {E C : Runtime → Nat → Prop} (rule : Triple Undisturbed (fun w' _ => w' = w) p Q E C) (s : Script) :
    ∃ n, Ends Q E C (runOn p w s).1 (runOn p w s).2 n :=
  ⟨_, (rule ⟨w, s.reads, s.writes, 0⟩ s.undisturbed rfl).2⟩

section

variable {reads : List (ReadFate Runtime)} {writes : List WriteFate} {n : Nat}

theorem test_done (f : Runtime → Bool) :
    test f ⟨w, .done :: reads, writes, n⟩ = (.ok (f w), ⟨w, reads, writes, n⟩) := by
  have answers : Faulty.read (fun w => Except.ok (f w)) ⟨w, .done :: reads, writes, n⟩ =
      (.ok (f w), ⟨w, reads, writes, n⟩) := read_done rfl
  exact bind_ok (attempt_ok answers)

theorem test_fails (f : Runtime → Bool) :
    test f ⟨w, .fails :: reads, writes, n⟩ = (.ok false, ⟨w, reads, writes, n + 1⟩) :=
  bind_ok (attempt_err (read_fails _))

theorem ensure_ok {φ : Prop} [Decidable φ] (holds : φ) (error : String) (m : Faulty.Machine Runtime) :
    ensure φ error m = (.ok (), m) := by
  rw [ensure, if_pos holds]
  rfl

/-- A copy whose source cannot be read twice takes the file away. -/
theorem safeCopyOrReplace_unreadable (reads : List (ReadFate Runtime)) (src : FilePath)
    (fresh : Fresh name)
    (there : (w.file (.inDir dir name)).isSome = true) :
    ∃ w', safeCopyOrReplace src dir name ⟨w, .done :: .fails :: .fails :: reads, [], n⟩ =
        (.err "Input/output error", ⟨w', reads, [], n + 1 + 1⟩) ∧
      w'.file (.inDir dir name) = none := by
  have there' : ((w.createDir dir).file (.inDir dir name)).isSome = true := by
    rwa [Runtime.file_createDir]
  refine ⟨(w.createDir dir).rename dir name (oldName name w.clock), ?_,
    Runtime.file_rename_self (fresh w.clock)⟩
  refine (bind_ok (write_end _)).trans ((bind_ok (test_done _)).trans ?_)
  rw [there']
  refine (bind_ok (attempt_err (bind_err (read_fails _)))).trans ?_
  refine (bind_ok rfl).trans ((bind_ok (write_end _)).trans ?_)
  exact bind_err (bind_err (read_fails _))

/-- A copy to a new file that fails behind its creation leaves an empty file. -/
theorem safeCopyOrReplace_full (found : w.file src = some bytes)
    (missing : w.file (.inDir dir name) = none) :
    ∃ w', safeCopyOrReplace src dir name ⟨w, [], [.ok, .errAfter "No space left on device"], n⟩ =
        (.err "No space left on device", ⟨w', [], [], n + 1⟩) ∧
      w'.file (.inDir dir name) = some [] := by
  have found' : (w.createDir dir).file src = some bytes := by rwa [Runtime.file_createDir]
  have missing' : (w.createDir dir).file (.inDir dir name) = none := by rwa [Runtime.file_createDir]
  refine ⟨(w.createDir dir).put (.inDir dir name) [], ?_,
    Runtime.file_put_self (w.writable_createDir dir name) []⟩
  have created : createDirAll dir ⟨w, [], [.ok, .errAfter "No space left on device"], n⟩ =
      (.ok (), ⟨w.createDir dir, [], [.errAfter "No space left on device"], n⟩) := rfl
  have absent : test (fun w => (w.file (.inDir dir name)).isSome)
      ⟨w.createDir dir, [], [.errAfter "No space left on device"], n⟩ =
      (.ok false, ⟨w.createDir dir, [], [.errAfter "No space left on device"], n⟩) := by
    refine bind_ok (attempt_ok ?_)
    simp only [Faulty.read, missing', Option.isSome_none]
  have sourceRead : readFile src ⟨w.createDir dir, [], [.errAfter "No space left on device"], n⟩ =
      (.ok bytes, ⟨w.createDir dir, [], [.errAfter "No space left on device"], n⟩) := by
    simp only [readFile, Faulty.read, found']
  refine (bind_ok created).trans ((bind_ok absent).trans ?_)
  exact (bind_ok sourceRead).trans (bind_err rfl)

end

theorem undisturbed_of_mem {fates : List (ReadFate Runtime)}
    (listed : ∀ fate ∈ fates, fate = .done ∨ fate = .fails) : ∀ fate ∈ fates, Undisturbed fate := by
  intro fate member
  rcases listed fate member with rfl | rfl <;> rfl

/-- The source cannot be read, and `bin/` looks as if it were not there. -/
def Script.unreadable : Script where
  reads := [.done, .fails, .done, .fails, .fails]
  writes := []
  undisturbed := undisturbed_of_mem (by simp)

/-- The disk is full behind the creation of the first file. -/
def Script.full : Script where
  reads := [.done, .fails]
  writes := [.ok, .ok, .errAfter "No space left on device"]
  undisturbed := undisturbed_of_mem (by simp)

/-- `bin/` cannot be listed, and neither the manifest nor the first binary is seen. -/
def Script.unlisted : Script where
  reads := [.done, .done, .done, .fails, .fails, .fails, .fails]
  writes := []
  undisturbed := undisturbed_of_mem (by simp)

/-- `bin/` cannot be listed. -/
def Script.unlistedOnce : Script where
  reads := [.done, .done, .done, .fails]
  writes := []
  undisturbed := undisturbed_of_mem (by simp)

/-! ## From which states a failure loses nothing -/

/-- A program that fails has lost nothing, on every script. -/
def FailsLossless (env : RollbackEnv) (windows : Bool) (p : Prog Runtime Unit) (w : Runtime) : Prop :=
  ∀ s error w', runOn p w s = (.err error, w') → Unchanged env windows w w'

theorem FailsLossless.of_triple {p : Prog Runtime Unit} {Q : Unit → Runtime → Nat → Prop}
    {C : Runtime → Nat → Prop}
    (rule : Triple Undisturbed (fun w' _ => w' = w) p Q (fun w' _ => Unchanged env windows w w') C) :
    FailsLossless env windows p w := by
  intro s error w' runs
  obtain ⟨n, ends⟩ := runOn_of_triple rule s
  rw [runs] at ends
  exact ends

theorem installed_hook {w' : Runtime} (same : Unchanged env windows w w') :
    w'.file (.inDir .bin (hookName windows)) = w.file (.inDir .bin (hookName windows)) :=
  congrArg Prod.fst same.1

/-- An activation that does not see `bin/` goes on to its copies. -/
theorem activateVersion_unseen (there : (w.dirs (.version versionId)).isSome = true)
    {reads : List (ReadFate Runtime)} {writes writes' : List WriteFate} {n : Nat}
    (created : createDirAll .bin ⟨w, reads, writes, n + 1⟩ =
      (.ok (), ⟨w.createDir .bin, reads, writes', n + 1⟩)) {error : String} {m : Faulty.Machine Runtime}
    (copied : safeCopyOrReplace (.inDir (.version versionId) (hookName windows)) .bin (hookName windows)
      ⟨w.createDir .bin, reads, writes', n + 1⟩ = (.err error, m)) :
    activateVersion windows versionId ⟨w, .done :: .fails :: reads, writes, n⟩ = (.err error, m) := by
  have skipped : preservePrevious ⟨w, .fails :: reads, writes, n⟩ = (.ok (), ⟨w, reads, writes, n + 1⟩) :=
    (bind_ok (test_fails _)).trans rfl
  refine (bind_ok (test_done _)).trans ((bind_ok (ensure_ok there _ _)).trans ?_)
  exact (bind_ok skipped).trans ((bind_ok created).trans (bind_err (bind_err copied)))

/-- A hook that is in `bin/` can be lost. -/
theorem activation_loses_hook (there : (w.dirs (.version versionId)).isSome = true) {hook : Bytes}
    (hookIs : w.file (.inDir .bin (hookName windows)) = some hook) :
    ¬ FailsLossless env windows (activateVersion windows versionId) w := by
  intro lossless
  have hookThere : ((w.createDir .bin).file (.inDir .bin (hookName windows))).isSome = true := by
    rw [Runtime.file_createDir, hookIs]
    rfl
  obtain ⟨w', copied, gone⟩ := safeCopyOrReplace_unreadable [] (n := 1)
    (.inDir (.version versionId) (hookName windows)) (fresh_hookName windows) hookThere
  have runs : runOn (activateVersion windows versionId) w .unreadable =
      (.err "Input/output error", w') :=
    runOn_of_eq (activateVersion_unseen there (write_end _) copied)
  have same := installed_hook (lossless .unreadable _ w' runs)
  rw [gone, hookIs] at same
  cases same

/-- A hook that was not in `bin/` can be left there, empty. -/
theorem activation_leaves_hook (there : (w.dirs (.version versionId)).isSome = true) {hook : Bytes}
    (source : w.file (.inDir (.version versionId) (hookName windows)) = some hook)
    (missing : w.file (.inDir .bin (hookName windows)) = none) :
    ¬ FailsLossless env windows (activateVersion windows versionId) w := by
  intro lossless
  obtain ⟨w', copied, left⟩ := safeCopyOrReplace_full (n := 1)
    ((w.file_createDir .bin _).trans source) ((w.file_createDir .bin _).trans missing)
  have created : createDirAll .bin ⟨w, [], Script.full.writes, 1⟩ =
      (.ok (), ⟨w.createDir .bin, [], [.ok, .errAfter "No space left on device"], 1⟩) := rfl
  have runs : runOn (activateVersion windows versionId) w .full =
      (.err "No space left on device", w') :=
    runOn_of_eq (activateVersion_unseen there created copied)
  have same := installed_hook (lossless .full _ w' runs)
  rw [left, missing] at same
  cases same

/-- The backup with `bin/` not listed: `previous/` is empty. -/
theorem backUp_unlisted {reads : List (ReadFate Runtime)} {n : Nat} :
    ∀ {exit : Exit Unit} {m : Faulty.Machine Runtime},
      backUpManifest ⟨w.wiped.createDir .previous, reads, [], n + 1⟩ = (exit, m) →
      backUp ⟨w, .done :: .fails :: reads, [], n⟩ = (exit, m) := by
  intro exit m saved
  obtain ⟨result, wipes⟩ := removeDirAll_of_listed (w := w) ⟨w, .done :: .fails :: reads, [], n⟩
    (.fails :: reads) n
    (fun gone => by simp [readDir, Faulty.read, ReadFate.done, gone])
    fun entries listed => read_done (by rw [listed])
  have unlisted : backUpBinaries ⟨w.wiped.createDir .previous, .fails :: reads, [], n⟩ =
      (.ok (), ⟨w.wiped.createDir .previous, reads, [], n + 1⟩) :=
    (bind_ok (attempt_err (read_fails _))).trans rfl
  exact (bind_ok wipes).trans ((bind_ok (write_end _)).trans ((bind_ok unlisted).trans saved))

theorem file_wiped (w : Runtime) (name : String) :
    (w.wiped.createDir .previous).file (.inDir .previous name) = none := by
  rw [Runtime.file_createDir, file_eq_none_of_dirs w.wiped .previous w.wiped_spec.1]

/-- A backup can lose what `previous/` allowed. -/
theorem activation_loses_previous (there : (w.dirs (.version versionId)).isSome = true)
    (bin : (w.dirs .bin).isSome = true)
    (allows : w.AllowsRollback env windows r) :
    ¬ FailsLossless env windows (activateVersion windows versionId) w := by
  intro lossless
  let w₁ := (w.wiped.createDir .previous)
  have preserves : preservePrevious ⟨w, [.done, .done, .fails, .fails, .fails, .fails], [], 0⟩ =
      (.ok (), ⟨w₁, [.fails, .fails], [], 2⟩) := by
    have saved : backUpManifest ⟨w₁, [.fails, .fails, .fails], [], 0 + 1⟩ =
        (.ok (), ⟨w₁, [.fails, .fails], [], 2⟩) := (bind_ok (test_fails _)).trans rfl
    refine (bind_ok (test_done _)).trans ?_
    rw [bin]
    exact backUp_unlisted saved
  let w₂ := (w₁.createDir .bin).createDir .bin
  have copied : safeCopyOrReplace (.inDir (.version versionId) (hookName windows)) .bin (hookName windows)
      ⟨w₁.createDir .bin, [.fails, .fails], [], 2⟩ = (.err "Input/output error", ⟨w₂, [], [], 4⟩) := by
    refine (bind_ok (write_end _)).trans ((bind_ok (test_fails _)).trans ?_)
    exact bind_err (read_fails _)
  have runs : activateVersion windows versionId ⟨w, Script.unlisted.reads, [], 0⟩ =
      (.err "Input/output error", ⟨w₂, [], [], 4⟩) := by
    refine (bind_ok (test_done _)).trans ((bind_ok (ensure_ok there _ _)).trans ?_)
    exact (bind_ok preserves).trans ((bind_ok (write_end _)).trans (bind_err (bind_err copied)))
  have ended : runOn (activateVersion windows versionId) w .unlisted =
      (.err "Input/output error", w₂) := runOn_of_eq runs
  obtain ⟨-, after⟩ := lossless .unlisted _ w₂ ended
  obtain ⟨staged, -⟩ := after r allows
  have hook : w₂.file (.inDir .previous (hookName windows)) = some r.hook := congrArg Prod.fst staged
  rw [Runtime.file_createDir, Runtime.file_createDir, file_wiped] at hook
  cases hook

/-- From an unsafe state some activation loses something. -/
theorem activation_lossless_iff :
    FailsLossless env windows (activateVersion windows versionId) w ↔
      w.ActivationSafe env windows versionId := by
  constructor
  · intro lossless
    cases version : w.dirs (.version versionId) with
    | none => exact .inl version
    | some entries =>
        have there : (w.dirs (.version versionId)).isSome = true := by
          rw [version]
          rfl
        right
        cases hook : w.file (.inDir .bin (hookName windows)) with
        | some bytes => exact absurd lossless (activation_loses_hook there hook)
        | none =>
            cases source : w.file (.inDir (.version versionId) (hookName windows)) with
            | some bytes => exact absurd lossless (activation_leaves_hook there source hook)
            | none =>
                refine ⟨rfl, rfl, ?_⟩
                cases bin : w.dirs .bin with
                | none => exact .inl rfl
                | some entries =>
                    exact .inr fun r allows =>
                      activation_loses_previous there (by rw [bin]; rfl) allows lossless
  · exact fun safe => .of_triple (activateVersion_safe safe)

/-! ## From which states a failed rollback loses nothing -/

/-- A rollback with a manifest goes on to its copies. -/
theorem rollbackCandidate_copies {manifest content}
    (manifestIs : w.file (.inDir .previous manifestName) = some manifest)
    (isText : fromUtf8 manifest = some content) (isManifest : env.isManifest content = true)
    {reads : List (ReadFate Runtime)} {writes writes' : List WriteFate} {n : Nat}
    (created : createDirAll .bin ⟨w, reads, writes, n⟩ = (.ok (), ⟨w.createDir .bin, reads, writes', n⟩))
    {error : String} {m : Faulty.Machine Runtime}
    (copied : safeCopyOrReplace (.inDir .previous (hookName windows)) .bin (hookName windows)
      ⟨w.createDir .bin, reads, writes', n⟩ = (.err error, m)) :
    rollbackCandidate env windows updateHooks ⟨w, .done :: .done :: reads, writes, n⟩ = (.err error, m) := by
  have found : (w.file (.inDir .previous manifestName)).isSome = true := by
    rw [manifestIs]
    rfl
  have text : readToString (.inDir .previous manifestName) ⟨w, .done :: reads, writes, n⟩ =
      (.ok content, ⟨w, reads, writes, n⟩) := read_done (by simp only [manifestIs, isText])
  refine (bind_ok (test_done _)).trans ((bind_ok (ensure_ok found _ _)).trans ((bind_ok text).trans ?_))
  refine (bind_ok (ensure_ok isManifest _ _)).trans ((bind_ok created).trans ?_)
  exact bind_err (bind_err copied)

/-- The source cannot be read. -/
def Script.unreadableBackup : Script where
  reads := [.done, .done, .done, .fails, .fails]
  writes := []
  undisturbed := undisturbed_of_mem (by simp)

/-- The disk is full behind the creation of the first file. -/
def Script.fullBackup : Script where
  reads := [.done, .done]
  writes := [.ok, .ok, .errAfter "No space left on device"]
  undisturbed := undisturbed_of_mem (by simp)

theorem rollback_lossless_iff :
    FailsLossless env windows (rollbackCandidate env windows updateHooks) w ↔
      w.RollbackSafe env windows := by
  constructor
  · intro lossless
    by_contra exposed
    rw [Runtime.RollbackSafe, not_or, not_and_or] at exposed
    push Not at exposed
    obtain ⟨⟨manifest, manifestIs, accepted⟩, hooks⟩ := exposed
    obtain ⟨content, isText, isManifest⟩ : ∃ content, fromUtf8 manifest = some content ∧
        env.isManifest content = true := by
      simpa [RollbackEnv.accepts, Option.any_eq_true] using accepted
    cases hook : w.file (.inDir .bin (hookName windows)) with
    | some bytes =>
        have hookThere : ((w.createDir .bin).file (.inDir .bin (hookName windows))).isSome = true := by
          rw [Runtime.file_createDir, hook]
          rfl
        obtain ⟨w', copied, gone⟩ := safeCopyOrReplace_unreadable [] (n := 0)
          (.inDir .previous (hookName windows)) (fresh_hookName windows) hookThere
        have runs : runOn (rollbackCandidate env windows updateHooks) w .unreadableBackup =
            (.err "Input/output error", w') :=
          runOn_of_eq (rollbackCandidate_copies manifestIs isText isManifest (write_end _) copied)
        have same := installed_hook (lossless .unreadableBackup _ w' runs)
        rw [gone, hook] at same
        cases same
    | none =>
        obtain ⟨bytes, source⟩ :=
          Option.ne_none_iff_exists'.mp (hooks.resolve_right fun present => present hook)
        obtain ⟨w', copied, left⟩ := safeCopyOrReplace_full (n := 0)
          ((w.file_createDir .bin _).trans source) ((w.file_createDir .bin _).trans hook)
        have created : createDirAll .bin ⟨w, [], Script.fullBackup.writes, 0⟩ =
            (.ok (), ⟨w.createDir .bin, [], [.ok, .errAfter "No space left on device"], 0⟩) := rfl
        have runs : runOn (rollbackCandidate env windows updateHooks) w .fullBackup =
            (.err "No space left on device", w') :=
          runOn_of_eq (rollbackCandidate_copies manifestIs isText isManifest created copied)
        have same := installed_hook (lossless .fullBackup _ w' runs)
        rw [left, hook] at same
        cases same
  · exact fun safe => .of_triple (rollbackCandidate_safe safe)

/-! ## Activation and rollback -/

theorem Release.files_injective {r r' : Release} (same : r.files = r'.files) : r = r' := by
  cases r
  cases r'
  simpa [Release.files] using same

/-- A backup that fails without an error: what was installed does not come back. -/
theorem activation_drops_backup {v : Release} {content : String}
    (installed : w.installed windows = r.files)
    (staged : w.staged windows (.version versionId) = v.files)
    (isText : fromUtf8 v.manifest = some content) :
    ∃ s w', runOn (activateVersion windows versionId) w s = (.ok (), w') ∧
      (runOn (rollbackCandidate env windows updateHooks) w' .calm).1 ≠ .ok () := by
  have hook : w.file (.inDir .bin (hookName windows)) = some r.hook := congrArg Prod.fst installed
  have active : w.active = some r.manifest := congrArg (fun files => files.2.2) installed
  have there : (w.dirs (.version versionId)).isSome = true := by
    cases there : w.dirs (.version versionId) with
    | none =>
        rw [Runtime.staged, file_eq_none_of_dirs w _ there] at staged
        cases congrArg Prod.fst staged
    | some entries => rfl
  have bin : (w.dirs .bin).isSome = true := by
    cases bin : w.dirs .bin with
    | none =>
        rw [file_eq_none_of_dirs w _ bin] at hook
        cases hook
    | some entries => rfl
  let w₁ := w.wiped.createDir .previous
  have same₁ : SameOutside w w₁ := fun path outside =>
    (w.wiped.file_createDir .previous path).trans (w.wiped_spec.2.1 path outside)
  have active₁ : w₁.active = some r.manifest := (same₁ _ active_outside).trans active
  obtain ⟨w₂, saves, wrote⟩ := backUpManifest_settles active₁
  have staged₂ : w₂.staged windows (.version versionId) = v.files := by
    rw [← staged]
    simp only [Runtime.staged, (same₁.trans (.of_wrote wrote)) _ (version_outside versionId _)]
  obtain ⟨w₃, activates, previous, -⟩ := activation_settles staged₂ isText
  have preserves : preservePrevious ⟨w, [.done, .done, .fails], [], 0⟩ = (.ok (), ⟨w₂, [], [], 1⟩) := by
    refine (bind_ok (test_done _)).trans ?_
    rw [bin]
    exact backUp_unlisted (saves 1)
  have runs : runOn (activateVersion windows versionId) w .unlistedOnce = (.ok (), w₃) := by
    have whole : activateVersion windows versionId ⟨w, Script.unlistedOnce.reads, [], 0⟩ =
        (.ok (), ⟨w₃, [], [], 1⟩) := by
      refine (bind_ok (test_done _)).trans ((bind_ok (ensure_ok there _ _)).trans ?_)
      exact (bind_ok preserves).trans (activates 1)
    exact runOn_of_eq whole
  refine ⟨.unlistedOnce, w₃, runs, ?_⟩
  intro restored
  have rule : Triple _ _ (rollbackCandidate env windows updateHooks) _ _ _ :=
    rollbackCandidate_ok updateHooks w₃
  obtain ⟨n, ends⟩ := runOn_of_triple rule .calm
  rw [restored] at ends
  obtain ⟨r', ⟨staged', -⟩, -⟩ := ends
  have hook' : w₂.file (.inDir .previous (hookName windows)) = some r'.hook :=
    congrArg Prod.fst (previous.symm.trans staged')
  rw [wrote.others _ fun same => hookName_ne_manifestName windows (FilePath.inDir.inj same).2,
    file_wiped] at hook'
  cases hook'

/-- **Activation and rollback.**  A failed activation, and a failed rollback, have lost
nothing on every script exactly from the safe states.  What ends well installs three
files from one place, which are of one version after every rollback exactly when
`previous/` holds one.  Without faults an activation is undone by a rollback; with
them an activation that ends well can lose the backup of every installation. -/
theorem activation_rollback (env : RollbackEnv) (windows updateHooks : Bool) (w : Runtime)
    (versionId : String) :
    (FailsLossless env windows (activateVersion windows versionId) w ↔
      w.ActivationSafe env windows versionId) ∧
    (FailsLossless env windows (rollbackCandidate env windows updateHooks) w ↔
      w.RollbackSafe env windows) ∧
    (∀ s w', runOn (activateVersion windows versionId) w s = (.ok (), w') →
      w'.installed windows = w.staged windows (.version versionId) ∧
        ∃ r : Release, w.staged windows (.version versionId) = r.files) ∧
    (∀ V : Release → Prop, (updateHooks = true → env.runInstall = .ok ()) →
      ((∀ s w', runOn (rollbackCandidate env windows updateHooks) w s = (.ok (), w') →
          ∃ r, V r ∧ w'.installed windows = r.files) ↔
        ∀ r, w.AllowsRollback env windows r → V r)) ∧
    (∀ r : Release, w.installed windows = r.files → env.accepts r.manifest = true →
      ((updateHooks = true → env.runInstall = .ok ()) →
        ∀ w', runOn (activateVersion windows versionId) w .calm = (.ok (), w') →
          ∃ w'', runOn (rollbackCandidate env windows updateHooks) w' .calm = (.ok (), w'') ∧
            w''.installed windows = r.files) ∧
      ((∀ s w', runOn (activateVersion windows versionId) w s = (.ok (), w') →
          (runOn (rollbackCandidate env windows updateHooks) w' .calm).1 = .ok ()) →
        ∀ v : Release, w.staged windows (.version versionId) = v.files →
          fromUtf8 v.manifest = none)) := by
  refine ⟨activation_lossless_iff, rollback_lossless_iff, ?_, ?_, ?_⟩
  · intro s w' runs
    obtain ⟨n, ends⟩ := runOn_of_triple (activateVersion_ok w versionId) s
    rw [runs] at ends
    obtain ⟨same, r, staged, -⟩ := ends
    exact ⟨same, r, staged⟩
  · intro V hooks
    constructor
    · intro restores r allows
      obtain ⟨w', settles⟩ := rollbackCandidate_settles allows hooks
      obtain ⟨r', holds, installed⟩ := restores .calm w' (runOn_calm settles)
      obtain ⟨n, ends⟩ := runOn_of_triple (rollbackCandidate_ok updateHooks w) .calm
      rw [runOn_calm settles] at ends
      obtain ⟨r'', allows'', installed''⟩ := ends
      obtain rfl : r' = r := Release.files_injective
        (installed.symm.trans (installed''.trans (allows''.1.symm.trans allows.1)))
      exact holds
    · intro versions s w' runs
      obtain ⟨n, ends⟩ := runOn_of_triple (rollbackCandidate_ok updateHooks w) s
      rw [runs] at ends
      obtain ⟨r, allows, installed⟩ := ends
      exact ⟨r, versions r allows, installed⟩
  · intro r installed accepted
    constructor
    · intro hooks w' runs
      obtain ⟨n, ends⟩ := runOn_of_triple (activateVersion_ok w versionId) .calm
      rw [runs] at ends
      obtain ⟨-, v, staged, content, isText⟩ := ends
      obtain ⟨w₁, settles, backup⟩ := activateVersion_settles installed staged isText
      obtain rfl : w' = w₁ := congrArg Prod.snd (runs.symm.trans (runOn_calm settles))
      have allows : w'.AllowsRollback env windows r := ⟨backup, accepted⟩
      obtain ⟨w'', restores⟩ := rollbackCandidate_settles allows hooks
      refine ⟨w'', runOn_calm restores, ?_⟩
      obtain ⟨n, ends⟩ := runOn_of_triple (rollbackCandidate_ok updateHooks w') .calm
      rw [runOn_calm restores] at ends
      obtain ⟨r', allows', restored⟩ := ends
      exact restored.trans (allows'.1.symm.trans backup)
    · intro undone v staged
      cases isText : fromUtf8 v.manifest with
      | none => rfl
      | some content =>
          obtain ⟨s, w', runs, lost⟩ := activation_drops_backup installed staged isText
          exact absurd (undone s w' runs) lost

/-- A runtime with version `v1` installed and a version `v2` without a hook. -/
def incomplete : Runtime where
  dirs := fun dir => match dir with
    | .bin => some (((∅ : Dir).insert "agent-hook" [1]).insert "agent-otel-bridge" [1])
    | .version "v2" => some (((∅ : Dir).insert "agent-otel-bridge" [2]).insert manifestName [50])
    | _ => none
  active := some [49]
  clock := 0

/-- The failed activation has taken the hook out of `bin/`. -/
theorem activation_incomplete :
    runOn (activateVersion false "v2") incomplete .calm =
        (.err "No such file or directory", (runOn (activateVersion false "v2") incomplete .calm).2) ∧
      incomplete.file (.inDir .bin "agent-hook") = some [1] ∧
      (runOn (activateVersion false "v2") incomplete .calm).2.file (.inDir .bin "agent-hook") = none := by
  refine ⟨?_, rfl, ?_⟩
  · exact Prod.ext (by decide +kernel) rfl
  · decide +kernel

end AgentOtelBridge.Local
