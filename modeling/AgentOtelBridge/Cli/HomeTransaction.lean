import AgentOtelBridge.Cli.HomeRecovery

/-!
# The apply of a transaction

An apply plans the files, saves a prepared journal, writes the files one after the
other and says so in the journal.  When it fails it restores what it attempted.
However it ends, the journal that is saved describes the disk.
-/

namespace AgentOtelBridge.HomeApply

open Faulty

/-- The statuses an apply saves. -/
def Status.ofApply : Status → Prop
  | .prepared | .applied | .compensated | .partial_ | .rollingBack => True
  | .rollbackPartial | .rolledBack | .other _ => False

/-! ## The files -/

/-- A prepared journal while the files are written: those below `a` are as after, the
others as before. -/
structure Writing (path : Path) (ts : List Target) (a : Nat) (j : Journal) (disk : Disk) :
    Prop where
  targets : j.targets = ts
  scope : j.inScope path = true
  status : j.status = .prepared
  allow : j.rollbackAllowBefore = false
  pending : ∀ file ∈ j.files, file.restoreProgress = .pending
  after : ∀ (k : Nat) t, k < a → ts[k]? = some t → t.IsAfter (disk t.path)
  before : ∀ (k : Nat) t, a ≤ k → ts[k]? = some t → t.IsBefore (disk t.path)

/-- A journal whose files are all written. -/
structure Applied (path : Path) (ts : List Target) (j : Journal) (disk : Disk) : Prop where
  targets : j.targets = ts
  scope : j.inScope path = true
  status : j.status = .applied
  allow : j.rollbackAllowBefore = false
  pending : ∀ file ∈ j.files, file.restoreProgress = .pending
  after : ∀ t ∈ ts, t.IsAfter (disk t.path)

section

variable {path : Path} {ts : List Target} {S : Status → Prop} {j : Journal} {disk : Disk}
  {a : Nat}

theorem Applied.recoverable (h : Applied path ts j disk) (hS : S .applied) :
    Recoverable path ts S j disk where
  targets := h.targets
  scope := h.scope
  status := h.status ▸ hS
  describes := by
    rw [Journal.describes_of_eligible (by rw [h.status]; rfl)]
    intro file hf
    unfold FileOk
    rw [h.pending file hf]
    exact .inl (h.after file.target (h.targets ▸ List.mem_map_of_mem hf))

theorem Applied.ready (h : Applied path ts j disk) : Ready path ts true ts.length j disk where
  targets := h.targets
  scope := h.scope
  ok k file hf := by
    have hm := List.mem_of_getElem? hf
    unfold FileOk
    rw [h.pending file hm]
    exact .inl (h.after file.target (h.targets ▸ List.mem_map_of_mem hm))
  rest k file hk hf := by
    have hlt := (List.getElem?_eq_some_iff.mp (getElem?_target h.targets hf)).1
    omega

/-- The files that were attempted may be restored. -/
theorem Writing.ready (h : Writing path ts a j disk) : Ready path ts true a j disk where
  targets := h.targets
  scope := h.scope
  ok k file hf := by
    have ht := getElem?_target h.targets hf
    unfold FileOk
    rw [h.pending file (List.mem_of_getElem? hf)]
    by_cases hk : k < a
    · exact .inl (h.after k _ hk ht)
    · exact .inr ⟨rfl, h.before k _ (Nat.not_lt.mp hk) ht⟩
  rest k file hk hf := h.before k _ hk (getElem?_target h.targets hf)

theorem Writing.recoverable (h : Writing path ts a j disk) (hS : S .prepared) :
    Recoverable path ts S j disk where
  targets := h.targets
  scope := h.scope
  status := h.status ▸ hS
  describes := by
    rw [Journal.describes_of_eligible (by rw [h.status]; rfl)]
    have hallow : j.allowBefore = true := by
      rw [Journal.allowBefore, h.status, h.allow]
      rfl
    rw [hallow]
    intro file hf
    obtain ⟨k, hk⟩ := List.mem_iff_getElem?.mp hf
    exact h.ready.ok k file hk

/-- The next file is written; the other files have other paths. -/
theorem Writing.put (h : Writing path ts a j disk) (hw : WellFormed ts) {t : Target}
    (ht : ts[a]? = some t) :
    Writing path ts (a + 1) j (Function.update disk t.path (some t.written)) := by
  have hother : ∀ k u, ts[k]? = some u → k ≠ a →
      Function.update disk t.path (some t.written) u.path = disk u.path := fun k u hu hne =>
    Function.update_of_ne (fun heq => hne (hw.distinct k a u t hu ht heq)) _ _
  refine { h with after := fun k u hk hu => ?_, before := fun k u hk hu => ?_ }
  · by_cases hka : k = a
    · subst hka
      obtain rfl := Option.some.inj (hu.symm.trans ht)
      rw [Function.update_self]
      exact u.isAfter_written
    · rw [hother k u hu hka]
      exact h.after k u (by omega) hu
  · rw [hother k u hu (by omega)]
    exact h.before k u (by omega) hu

/-- A file that may be written or not is attempted. -/
theorem Ready.mono {b : Nat} (h : Ready path ts true a j disk) (hab : a ≤ b) :
    Ready path ts true b j disk :=
  { h with rest := fun k file hk => h.rest k file (by omega) }

end

/-! ## The loop -/

/-- A failed apply: the files that were attempted may be restored, and the saved
journal describes the disk. -/
def Attempted (path : Path) (ts : List Target) (w : World) (_ : Nat) : Prop :=
  Ready path ts true w.attempted w.journal w.disk ∧ w.attempted ≤ ts.length ∧
    Saved path ts Status.ofApply w

/-- The journal that is saved is prepared, `a` files are written and `b` attempted. -/
def Progress (path : Path) (ts : List Target) (files : List RecordedFile) (a b : Nat) (w : World)
    (n : Nat) : Prop :=
  files = w.journal.files ∧ w.attempted = b ∧ Synced path (Writing path ts a) w n

section

variable {path : Path} {ts : List Target} {files : List RecordedFile} {a b : Nat}

theorem Progress.saved {w : World} {n : Nat} (h : Progress path ts files a b w n) :
    Saved path ts Status.ofApply w :=
  h.2.2.saved fun _ _ h => h.recoverable trivial

theorem Progress.attempted {w : World} {n m : Nat} (h : Progress path ts files a b w n)
    (hab : a ≤ b) (hb : b ≤ ts.length) : Attempted path ts w m :=
  ⟨h.2.1 ▸ h.2.2.1.ready.mono hab, h.2.1 ▸ hb, h.saved⟩

theorem applyFile_triple (hw : WellFormed ts) (failAfter : Option Nat) {file : RecordedFile}
    (hf : files[a]? = some file) :
    Triple ReadFate.Quiet (Progress path ts files a a) (applyFile failAfter file)
      (fun _ => Progress path ts files (a + 1) (a + 1)) (Attempted path ts)
      (Crashed path ts Status.ofApply) := by
  have htarget : ∀ b w n, Progress path ts files a b w n → ts[a]? = some file.target :=
    fun b w n h => getElem?_target h.2.2.1.targets (h.1 ▸ hf)
  have hlt : ∀ b w n, Progress path ts files a b w n → a < ts.length := fun b w n h =>
    (List.getElem?_eq_some_iff.mp (htarget b w n h)).1
  have hbefore : ∀ w n, Progress path ts files a a w n →
      file.target.IsBefore (w.disk file.path) :=
    fun w n h => h.2.2.1.before a _ (Nat.le_refl a) (htarget a w n h)
  have hcrash : ∀ b w n, Progress path ts files a b w n →
      Crashed path ts Status.ofApply w (n + 1) := fun b w n h => ⟨n.succ_pos, h.saved⟩
  have hsafe : ∀ w n, Progress path ts files a a w n → inspect w.disk file.path = .ok () :=
    fun w n h => inspect_ok hw (List.mem_of_getElem? (htarget a w n h)) (.inl (hbefore w n h))
  refine Triple.bind (R := fun _ => Progress path ts files a a) (Triple.get fun _ _ => id)
    fun applied => ?_
  refine Triple.bind ((Triple.ensure fun _ w n h =>
    h.attempted (Nat.le_refl a) (Nat.le_of_lt (hlt a w n h))).post fun _ w n h => h.2) fun _ => ?_
  refine Triple.bind (matchesRecordedState_quiet file true hsafe (hcrash a)) fun before => ?_
  refine Triple.bind ((Triple.ensure fun hb w n h => ?_).post fun _ w n h => h.2.1) fun _ => ?_
  · rw [h.2] at hb
    exact absurd (RecordedFile.matchesState_before.mpr (hbefore w n h.1)) hb
  -- From here on the file counts as attempted, whether it is written or not.
  refine Triple.bind (R := fun _ => Progress path ts files a (a + 1))
    (Triple.modify fun w n h => ⟨h.1, congrArg (· + 1) h.2.1, h.2.2⟩) fun _ => ?_
  refine Triple.bind (R := fun _ => Progress path ts files (a + 1) (a + 1)) ?_ fun _ =>
    Triple.modify fun _ _ h => h
  have hput : ∀ w n, Progress path ts files a (a + 1) w n →
      Progress path ts files (a + 1) (a + 1) (w.put file.path (some file.target.written)) n :=
    fun w n h => ⟨h.1, h.2.1, h.2.2.1.put hw (htarget _ w n h), h.2.2.2⟩
  refine Triple.write hput (fun w n h => ⟨?_, ?_⟩) fun w n h => ⟨hcrash _ w n h, ?_⟩
  · exact h.attempted (Nat.le_succ a) (hlt _ w n h)
  · exact (hput w n h).attempted (Nat.le_refl _) (hlt _ w n h)
  · exact ⟨n.succ_pos, (hput w n h).saved⟩

theorem applyFiles_triple (hw : WellFormed ts) (failAfter : Option Nat) :
    Triple ReadFate.Quiet
      (fun w n => w.attempted = 0 ∧ Synced path (Writing path ts 0) w n)
      (applyFiles path failAfter) (fun _ => Synced path (Applied path ts)) (Attempted path ts)
      (Crashed path ts Status.ofApply) := by
  refine Triple.bind (R := fun files => Progress path ts files 0 0)
    (Triple.get fun w n h => ⟨rfl, h⟩) fun files => ?_
  refine Triple.bind (Triple.forM
    (fun done => Progress path ts files done.length done.length) files []
    fun before file after heq => ?_) fun _ => ?_
  · rw [List.nil_append] at heq
    have hf : files[before.length]? = some file := by
      rw [heq]
      simp
    simpa using applyFile_triple hw failAfter hf
  -- All files are written when the loop is over.
  refine Triple.bind (R := fun _ w n => Ahead path ts Status.ofApply (Applied path ts) w n ∧
    w.attempted = ts.length) (Triple.modify fun w n h => ?_) fun _ => ?_
  · have hlen : files.length = ts.length := by
      rw [h.1, ← h.2.2.1.targets, Journal.targets, List.length_map]
    rw [List.nil_append, hlen] at h
    refine ⟨⟨⟨h.2.2.1.targets, h.2.2.1.scope, rfl, h.2.2.1.allow, h.2.2.1.pending,
      fun t ht => ?_⟩, h.saved⟩, h.2.1⟩
    obtain ⟨k, hk⟩ := List.mem_iff_getElem?.mp ht
    exact h.2.2.1.after k t (List.getElem?_eq_some_iff.mp hk).1 hk
  · have hcount : Keeps ReadFate.Quiet (fun w : World => w.attempted = ts.length)
        (saveJournal path) := .write fun _ h => h
    refine ((saveJournal_triple fun j disk h => h.recoverable trivial).both hcount).conseq
      (fun _ _ => id) (fun _ w n h => h.1) (fun w n h => ⟨?_, Nat.le_of_eq h.2, h.1.2.2⟩) fun w n h => h.1
    rw [h.2]
    exact h.1.2.1.ready

/-! ## Compensation -/

/-- What an apply leaves when it ends with an error or a crash: no journal was saved and
there is the old one, or none; or the saved journal describes the disk. -/
def Left (path : Path) (ts : List Target) (old : Option Journal) (w : World) (_ : Nat) : Prop :=
  w.journals path = old ∨ Saved path ts Status.ofApply w

theorem compensate_triple (hw : WellFormed ts) (error : String) {Q : Unit → World → Nat → Prop}
    {old : Option Journal} :
    Triple ReadFate.Quiet (Attempted path ts) (compensate path error) Q (Left path ts old)
      (Left path ts old) := by
  refine Triple.bind (R := fun attempted w n => attempted ≤ ts.length ∧
    Ahead path ts Status.ofApply (Ready path ts true attempted) w n)
    (Triple.get fun w n h => ⟨h.2.1, h.1, h.2.2⟩) fun attempted => ?_
  refine Triple.of_pure fun hcount => ?_
  -- Whether the last journal is saved or not, the saved one describes the disk.
  have hsave : ∀ M : Journal → Disk → Prop,
      (∀ j disk, M j disk → Recoverable path ts Status.ofApply j disk) →
        Triple ReadFate.Quiet (Ahead path ts Status.ofApply M) (attempt (saveJournal path))
          (fun _ => Left path ts old) (Left path ts old) (Left path ts old) := fun M hM =>
    Triple.attempt ((saveJournal_triple hM).conseq (fun _ _ => id)
      (fun _ w n h => .inr (h.saved hM)) (fun w n h _ => .inr h.2.2) fun w n h => .inr h.2)
  refine Triple.recover ((restoreFiles_triple hw trivial hcount).conseq (fun _ _ => id)
    (fun _ _ _ => id) (fun _ _ => id) fun w n h => .inr h.2) (fun _ => ?_) fun error => ?_
  · refine Triple.bind (R := fun _ => Ahead path ts Status.ofApply (Undone path ts .compensated))
      (Triple.modify fun w n h => ?_) fun _ => ?_
    · exact ⟨⟨h.1.targets, h.1.scope, rfl, h.1.all_before⟩,
        h.saved fun j disk h => h.recoverable trivial⟩
    refine Triple.bind (hsave _ fun j disk h => h.recoverable trivial (.inl rfl)) fun saved => ?_
    cases saved <;> exact Triple.throw fun _ _ => id
  · refine Triple.bind (R := fun _ => Ahead path ts Status.ofApply
      fun j disk => Recoverable path ts Status.ofApply j disk)
      (Triple.modify fun w n h => ⟨?_, h.2.2⟩) fun _ => ?_
    · refine h.2.1.recoverable_status trivial rfl ?_
      rw [Journal.allowBefore, h.2.1.allow]
      rfl
    refine Triple.bind (hsave _ fun j disk h => h) fun saved => ?_
    cases saved <;> exact Triple.throw fun _ _ => id

/-- A transaction from its prepared journal: all files are written, or what was
attempted is restored as far as it goes. -/
theorem transact_triple (hw : WellFormed ts) (failAfter : Option Nat) (old : Option Journal) :
    Triple ReadFate.Quiet
      (fun w _ => w.journals path = old ∧ w.attempted = 0 ∧
        Writing path ts 0 w.journal w.disk)
      (transact path failAfter) (fun _ => Synced path (Applied path ts)) (Left path ts old)
      (Left path ts old) := by
  have hrec : ∀ j disk, Writing path ts 0 j disk → Recoverable path ts Status.ofApply j disk :=
    fun j disk h => h.recoverable trivial
  have hsaved : ∀ w : World, Writing path ts 0 w.journal w.disk → Saved path ts Status.ofApply
      { w with journals := Function.update w.journals path (some w.journal) } := fun w h =>
    ⟨w.journal, Function.update_self .., hrec _ _ h⟩
  refine Triple.bind (R := fun _ w n => w.attempted = 0 ∧ Synced path (Writing path ts 0) w n)
    (Triple.write (fun w n h => ⟨h.2.1, h.2.2, Function.update_self ..⟩)
      (fun w n h => ⟨.inl h.1, .inr (hsaved w h.2.2)⟩)
      fun w n h => ⟨.inl h.1, .inr (hsaved w h.2.2)⟩) fun _ => ?_
  refine Triple.recover ((applyFiles_triple hw failAfter).conseq (fun _ _ => id) (fun _ _ _ => id)
    (fun _ _ => id) fun w n h => .inr h.2) (fun _ => ?_) fun error => ?_
  · exact Triple.pure fun _ _ => id
  · exact compensate_triple hw error

end

/-! ## The plan -/

/-- A plan over a disk: each file once, in scope, with the bytes it has. -/
structure Planned (disk : Disk) (home : Path) (changes : List HomeHookChange) : Prop where
  distinct : (changes.map HomeHookChange.path).Nodup
  scope : ∀ c ∈ changes, ∃ target ∈ targets, c.path = home ++ target
  before : ∀ c ∈ changes, c.before = (disk c.path).map File.bytes
  inspected : ∀ c ∈ changes, inspect disk c.path = .ok ()

theorem clientTarget_mem {client : String} {relative : Path}
    (h : clientTarget client = some relative) : relative ∈ targets := by
  unfold clientTarget at h
  split at h <;> first | (cases h; decide) | cases h

/-- A plan reads the world and does not change it. -/
theorem prepare_triple (render : Render) (options : HomeHookOptions) (w₀ : World) :
    Triple ReadFate.Quiet (fun w _ => w = w₀) (prepare render options)
      (fun r w _ => w = w₀ ∧ Planned w₀.disk options.home r.1) (fun w _ => w = w₀)
      (fun w _ => w = w₀) := by
  refine Triple.bind (Triple.readQuiet (Q := fun _ w _ => w = w₀) (fun _ _ => id)
    fun _ _ => id) fun _ => ?_
  refine Triple.bind (R := fun _ w _ => w = w₀) (Triple.get fun _ _ => id) fun socket => ?_
  -- Every client's file passes the inspection.
  refine Triple.bind (Triple.pre (Triple.forM (fun done w _ => w = w₀ ∧
    ∀ client ∈ done, ∀ relative, clientTarget client = some relative →
      inspect w₀.disk (options.home ++ relative) = .ok ()) _ []
    fun before client after _ => ?_) fun w n h => ⟨h, by simp⟩) fun _ => ?_
  · unfold inspectClient
    cases hc : clientTarget client with
    | none => exact Triple.throw fun _ _ h => h.1
    | some relative =>
        refine Triple.readQuiet (fun w n h => ?_) fun _ _ h => h.1
        obtain ⟨rfl, hdone⟩ := h
        cases hx : inspect w.disk (options.home ++ relative) with
        | error error => exact rfl
        | ok =>
            refine ⟨rfl, fun client' hmem relative' hr => ?_⟩
            rcases List.mem_append.mp hmem with hmem | hmem
            · exact hdone client' hmem relative' hr
            · obtain rfl := List.mem_singleton.mp hmem
              rw [hc] at hr
              cases hr
              exact hx
  refine Triple.pre (P := fun w _ => (∀ client ∈ options.clients, ∀ relative,
    clientTarget client = some relative →
      inspect w₀.disk (options.home ++ relative) = .ok ()) ∧ w = w₀)
    (Triple.of_pure fun hinspected => ?_) fun w n h => ⟨by simpa using h.2, by simpa using h.1⟩
  refine Triple.bind (R := fun changes w _ => w = w₀ ∧ Planned w₀.disk options.home changes)
    (Triple.pre (Triple.foldlM (fun _ changes w _ => w = w₀ ∧
      Planned w₀.disk options.home changes) _ [] [] fun before client after changes heq => ?_)
      fun w n h => ⟨h, by simp, by simp, by simp, by simp⟩) fun changes =>
    Triple.pure fun _ _ => id
  have hclient : client ∈ options.clients := by
    rw [List.nil_append] at heq
    rw [heq]
    simp
  unfold planClient
  cases hc : clientTarget client with
  | none => exact Triple.throw fun _ _ h => h.1
  | some relative =>
      simp only
      refine Triple.ite (fun _ => Triple.pure fun _ _ => id) fun hnew => ?_
      refine Triple.bind (R := fun bytes w _ => bytes = (w₀.disk (options.home ++ relative)).map
        File.bytes ∧ w = w₀ ∧ Planned w₀.disk options.home changes)
        (Triple.readQuiet (fun w n h => ⟨by rw [h.1], h⟩) fun _ _ h => h.1) fun bytes => ?_
      cases render client bytes options.binary socket with
      | error error => exact Triple.throw fun _ _ h => h.2.1
      | ok after =>
          refine Triple.pure fun w n h => ⟨h.2.1, ?_, ?_, ?_, ?_⟩
          · rw [List.map_append, List.nodup_append]
            refine ⟨h.2.2.distinct, by simp, fun p hp q hq => ?_⟩
            obtain ⟨c, hcm, rfl⟩ := List.mem_map.mp hp
            obtain rfl : q = options.home ++ relative := by simpa using hq
            intro heq
            exact hnew (List.any_eq_true.mpr ⟨c, hcm, by simpa using heq⟩)
          · intro c hcm
            rcases List.mem_append.mp hcm with hcm | hcm
            · exact h.2.2.scope c hcm
            · obtain rfl := List.mem_singleton.mp hcm
              exact ⟨relative, clientTarget_mem hc, rfl⟩
          · intro c hcm
            rcases List.mem_append.mp hcm with hcm | hcm
            · exact h.2.2.before c hcm
            · obtain rfl := List.mem_singleton.mp hcm
              exact h.1
          · intro c hcm
            rcases List.mem_append.mp hcm with hcm | hcm
            · exact h.2.2.inspected c hcm
            · obtain rfl := List.mem_singleton.mp hcm
              exact hinspected client hclient relative hc

/-- What is recorded of a change of a disk. -/
def HomeHookChange.recorded (c : HomeHookChange) (disk : Disk) : RecordedFile :=
  ⟨c.path, c.before, c.after, (disk c.path).map File.mode, .pending⟩

theorem record_triple (changes : List HomeHookChange) (w₀ : World) :
    Triple ReadFate.Quiet (fun w _ => w = w₀) (changes.foldlM record [])
      (fun files w _ => w = w₀ ∧ files = changes.map fun c => c.recorded w₀.disk)
      (fun w _ => w = w₀) (fun w _ => w = w₀) := by
  refine Triple.pre (Triple.foldlM (fun (done : List HomeHookChange) files w _ => w = w₀ ∧
    files = done.map fun c => c.recorded w₀.disk) _ [] [] fun before c after files _ => ?_)
    fun w n h => ⟨h, rfl⟩
  refine Triple.bind (Triple.attempt (Q := fun mode w _ =>
    mode = .ok ((w₀.disk c.path).map File.mode) ∧ w = w₀ ∧
      files = before.map fun c => c.recorded w₀.disk)
    (Triple.readQuiet (fun w n h => ⟨by rw [h.1], h⟩) fun _ _ h => h.1)) fun mode => ?_
  refine Triple.pure fun w n h => ⟨h.2.1, ?_⟩
  rw [h.1, h.2.2, List.map_append]
  rfl

/-- The targets of a recorded plan. -/
theorem Planned.wellFormed {disk : Disk} {home : Path} {changes : List HomeHookChange}
    (h : Planned disk home changes) :
    WellFormed (changes.map fun c => (c.recorded disk).target) where
  distinct i k t u ht hu heq := by
    rw [List.getElem?_map, Option.map_eq_some_iff] at ht hu
    obtain ⟨c, hc, rfl⟩ := ht
    obtain ⟨c', hc', rfl⟩ := hu
    obtain ⟨hi, rfl⟩ := List.getElem?_eq_some_iff.mp hc
    obtain ⟨hk, rfl⟩ := List.getElem?_eq_some_iff.mp hc'
    have hd := h.distinct
    have hlen : i < (changes.map HomeHookChange.path).length := by simpa using hi
    refine (List.getElem?_inj hlen hd).mp ?_
    rw [List.getElem?_map, List.getElem?_map, hc, hc']
    exact congrArg some heq
  present t ht := by
    obtain ⟨c, hc, rfl⟩ := List.mem_map.mp ht
    simp only [RecordedFile.target, HomeHookChange.recorded, h.before c hc, Option.isSome_map]
  ownMode t ht mode hm := by
    obtain ⟨c, hc, rfl⟩ := List.mem_map.mp ht
    obtain ⟨file, hf, rfl⟩ := Option.map_eq_some_iff.mp hm
    have hi := h.inspected c hc
    unfold inspect at hi
    rw [hf] at hi
    by_contra hne
    simp [hne] at hi

theorem Planned.filter {disk : Disk} {home : Path} {changes : List HomeHookChange}
    (h : Planned disk home changes) (p : HomeHookChange → Bool) :
    Planned disk home (changes.filter p) where
  distinct := h.distinct.sublist (List.filter_sublist.map _)
  scope c hc := h.scope c (List.mem_filter.mp hc).1
  before c hc := h.before c (List.mem_filter.mp hc).1
  inspected c hc := h.inspected c (List.mem_filter.mp hc).1

/-! ## The frame -/

/-- What a transaction leaves alone: the other files, the other journals, the clock. -/
structure Frame (path : Path) (ts : List Target) (w₀ w : World) : Prop where
  targets : w.journal.targets = ts
  disk : ∀ q, (∀ t ∈ ts, t.path ≠ q) → w.disk q = w₀.disk q
  journals : ∀ q, q ≠ path → w.journals q = w₀.journals q
  clock : w.clock = w₀.clock
  pid : w.pid = w₀.pid

theorem Frame.put {path : Path} {ts : List Target} {w₀ w : World} (h : Frame path ts w₀ w)
    {t : Target} (ht : t ∈ ts) (file : Option File) : Frame path ts w₀ (w.put t.path file) :=
  { h with
    disk := fun q hq => (Function.update_of_ne (hq t ht).symm _ _).trans (h.disk q hq) }

theorem frame_stable (path : Path) (ts : List Target) (w₀ : World) :
    Stable ReadFate.Quiet path ts (Frame path ts w₀) where
  targets _ h := h.targets
  edit fate hq w h := by
    rw [hq.1]
    exact h
  setJournal _ _ hf h := { h with targets := hf.trans h.targets }
  save w h := { h with
    journals := fun q hq => (Function.update_of_ne hq _ _).trans (h.journals q hq) }
  put _ _ ht _ h := h.put ht _

theorem applyFiles_frame (path : Path) (ts : List Target) (w₀ : World)
    (failAfter : Option Nat) :
    Keeps ReadFate.Quiet (Frame path ts w₀) (applyFiles path failAfter) := by
  have hs := frame_stable path ts w₀
  refine Triple.bind (R := fun files w _ => (∀ file ∈ files, file.target ∈ ts) ∧
    Frame path ts w₀ w) (Triple.get fun w n h => ⟨fun file hf => ?_, h⟩) fun files => ?_
  · rw [← h.targets]
    exact List.mem_map_of_mem hf
  refine Triple.of_pure fun hscope => ?_
  refine Triple.bind (R := fun _ w _ => Frame path ts w₀ w) (Triple.forM
    (fun _ w _ => Frame path ts w₀ w) files [] fun before file after heq => ?_) fun _ =>
      Keeps.bind (hs.setStatus .applied) fun _ => hs.saveJournal
  have hf : file.target ∈ ts := by
    rw [List.nil_append] at heq
    exact hscope file (by rw [heq]; simp)
  refine Keeps.bind (.get _) fun applied => .bind (.ensure _ _) fun _ => ?_
  refine .bind (matchesRecordedState_keeps hs.edit file true) fun _ => ?_
  refine .bind (.ensure _ _) fun _ => .bind (.modify fun _ h => { h with }) fun _ => ?_
  exact .bind (.write fun _ h => h.put hf _) fun _ => .modify fun _ h => { h with }

theorem transact_frame (path : Path) (ts : List Target) (w₀ : World) (failAfter : Option Nat) :
    Keeps ReadFate.Quiet (Frame path ts w₀) (transact path failAfter) := by
  have hs := frame_stable path ts w₀
  refine .bind hs.saveJournal fun _ => ?_
  refine .bind (.attempt (applyFiles_frame path ts w₀ failAfter)) fun result => ?_
  cases result with
  | ok => exact .pure _
  | error error => exact hs.compensate error

/-! ## The whole apply -/

/-- A world whose clock has moved on. -/
def World.tick (w : World) : World := { w with clock := w.clock + 1 }

/-- What an apply has done when it succeeds: the files of a plan are written, and
everything else is as it was. -/
structure Done (path : Path) (ts : List Target) (w₀ w : World) : Prop where
  wellFormed : WellFormed ts
  before : ∀ t ∈ ts, t.IsBefore (w₀.disk t.path)
  applied : Synced path (Applied path ts) w 0
  frame : Frame path ts w₀.tick w

/-- What an apply leaves when it does not succeed. -/
def Undecided (path : Path) (w₀ w : World) (n : Nat) : Prop :=
  ∃ ts, WellFormed ts ∧ (∀ t ∈ ts, t.IsBefore (w₀.disk t.path)) ∧
    Left path ts (w₀.journals path) w n

theorem undecided_of_old {path : Path} {w₀ w : World} (n : Nat)
    (h : w.journals path = w₀.journals path) : Undecided path w₀ w n :=
  ⟨[], ⟨by simp, by simp, by simp⟩, by simp, .inl h⟩

theorem transactionPath_inScope {home : Path} {now pid : Nat} {j : Journal}
    (hv : j.version = 1) (hh : j.home = home)
    (hf : ∀ t ∈ j.targets, ∃ target ∈ targets, t.path = home ++ target) :
    j.inScope (transactionPath home now pid) = true := by
  rw [Journal.inScope_eq, hv, hh]
  simp only [transactionPath, beq_self_eq_true, Bool.true_and, Bool.and_eq_true, beq_iff_eq,
    List.all_eq_true, List.any_eq_true]
  refine ⟨⟨by simp, by simp⟩, fun t ht => ?_⟩
  exact hf t ht

theorem applyInner_triple (render : Render) (options : HomeHookOptions) (failAfter : Option Nat)
    (w₀ : World) {path : Path} (hpath : path = transactionPath options.home w₀.clock w₀.pid) :
    Triple ReadFate.Quiet (fun w _ => w = w₀) (applyInner render options failAfter)
      (fun result w _ => (result = none ∧ w = w₀) ∨
        (result = some path ∧ ∃ ts, Done path ts w₀ w))
      (Undecided path w₀) (Undecided path w₀) := by
  have hsame : ∀ (w : World) (n : Nat), w = w₀ → Undecided path w₀ w n :=
    fun w n h => undecided_of_old n (by rw [h])
  have hplan := (prepare_triple render options w₀).conseq (fun _ _ => id) (fun _ _ _ => id)
    hsame hsame
  refine Triple.bind (hplan.post fun _ w n h => h.1) fun _ => ?_
  refine Triple.bind (Triple.readQuiet (Q := fun _ w _ => w = w₀) (fun _ _ => id)
    fun w n h => hsame w _ h) fun _ => ?_
  refine Triple.bind hplan fun r => ?_
  obtain ⟨changes, socket⟩ := r
  refine Triple.pre (P := fun w _ => Planned w₀.disk options.home changes ∧ w = w₀)
    (Triple.of_pure fun hplanned => ?_) fun w n h => ⟨h.2, h.1⟩
  have hfiltered := hplanned.filter fun change => change.before ≠ some change.after
  refine Triple.bind ((record_triple _ w₀).conseq (fun _ _ => id) (fun _ _ _ => id) hsame hsame)
    fun files => ?_
  refine Triple.ite (fun _ => Triple.pure fun w n h => .inl ⟨rfl, h.1⟩) fun _ => ?_
  refine Triple.pre (P := fun w _ => files = (changes.filter fun change =>
    change.before ≠ some change.after).map (fun c => c.recorded w₀.disk) ∧ w = w₀)
    (Triple.of_pure fun hfiles => ?_) fun w n h => ⟨h.2, h.1⟩
  refine Triple.bind (R := fun now w _ => now = w₀.clock ∧ w = w₀.tick) ?_ fun now => ?_
  · refine Triple.bind (R := fun now w _ => now = w₀.clock ∧ w = w₀)
      (Triple.get fun w n h => ⟨by rw [h], h⟩) fun now => ?_
    exact Triple.bind (R := fun _ w _ => now = w₀.clock ∧ w = w₀.tick)
      (Triple.modify fun w n h => ⟨h.1, by rw [h.2]; rfl⟩) fun _ => Triple.pure fun _ _ => id
  refine Triple.bind (R := fun pid w _ => now = w₀.clock ∧ pid = w₀.pid ∧ w = w₀.tick)
    (Triple.get fun w n h => ⟨h.1, by rw [h.2]; rfl, h.2⟩) fun pid => ?_
  refine Triple.of_pure fun hnow => Triple.of_pure fun hpid => ?_
  subst hnow hpid
  rw [← hpath]
  have hticked : ∀ (w : World) (n : Nat), w = w₀.tick → Undecided path w₀ w n := fun w n h => undecided_of_old n (by rw [h]; rfl)
  refine Triple.bind (Triple.readQuiet (Q := fun _ w _ => w = w₀.tick) (fun _ _ => id)
    fun w n h => hticked w _ h) fun _ => ?_
  -- The targets of the transaction are those of the plan.
  generalize hts : files.map RecordedFile.target = ts
  have hts' : ts = (changes.filter fun change => change.before ≠ some change.after).map
      fun c => (c.recorded w₀.disk).target := by
    rw [← hts, hfiles, List.map_map]
    rfl
  have hw : WellFormed ts := hts' ▸ hfiltered.wellFormed
  have hbefore : ∀ t ∈ ts, t.IsBefore (w₀.disk t.path) := by
    intro t ht
    rw [hts'] at ht
    obtain ⟨c, hc, rfl⟩ := List.mem_map.mp ht
    exact ⟨(hfiltered.before c hc).symm, rfl⟩
  have hscope : ∀ t ∈ ts, ∃ target ∈ targets, t.path = options.home ++ target := by
    intro t ht
    rw [hts'] at ht
    obtain ⟨c, hc, rfl⟩ := List.mem_map.mp ht
    exact hfiltered.scope c hc
  have hpending : ∀ file ∈ files, file.restoreProgress = .pending := by
    intro file hf
    rw [hfiles] at hf
    obtain ⟨c, -, rfl⟩ := List.mem_map.mp hf
    rfl
  refine Triple.bind (R := fun _ w _ => (w.journals path = w₀.journals path ∧ w.attempted = 0 ∧
    Writing path ts 0 w.journal w.disk) ∧ Frame path ts w₀.tick w)
    (Triple.modify fun w n h => ?_) fun _ => ?_
  · subst h
    refine ⟨⟨rfl, rfl, ?_⟩, hts, fun _ _ => rfl, fun _ _ => rfl, rfl, rfl⟩
    exact {
      targets := hts
      scope := hpath ▸ transactionPath_inScope rfl rfl fun t ht =>
        hscope t (by rw [← hts]; exact ht)
      status := rfl
      allow := rfl
      pending := hpending
      after := fun k t hk => absurd hk (Nat.not_lt_zero k)
      before := fun k t _ ht => hbefore t (List.mem_of_getElem? ht) }
  refine Triple.bind (((transact_triple hw failAfter _).both
    (transact_frame path ts w₀.tick failAfter)).conseq (fun _ _ => id) (fun _ _ _ => id)
    (fun w n h => ⟨ts, hw, hbefore, h.1⟩) fun w n h => ⟨ts, hw, hbefore, h.1⟩) fun _ => ?_
  exact Triple.pure fun w n h => .inr ⟨rfl, ts, hw, hbefore, h.1, h.2⟩

end AgentOtelBridge.HomeApply
