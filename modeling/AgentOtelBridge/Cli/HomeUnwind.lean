import AgentOtelBridge.Cli.HomeCrash

/-!
# Transactions on one another

Applies follow one another, and a rollback undoes the last one that stands.  Each
transaction lies on the disk its apply has found, so that unwinding them leads back to
the first disk.

A transaction that lies below another one can be rolled back only while every one of
its targets is in its state after the apply.  The checks are on the states of the
files: they do not ask which apply has put them there.
-/

namespace AgentOtelBridge.HomeApply

open Faulty

/-! ## Paths of journals -/

/-- Applies at different times have different journals. -/
theorem transactionPath_now {home home' : Path} {now now' pid pid' : Nat}
    (h : transactionPath home now pid = transactionPath home' now' pid') : now = now' := by
  have hname := congrArg (fun path : Path => path.dropLast.getLast?) h
  have hdigits : ∀ n : Nat, '-' ∉ Nat.toDigits 10 n := fun n hmem =>
    absurd (Nat.isDigit_of_mem_toDigits (by decide) (by decide) hmem) (by decide)
  simp [transactionPath, String.ext_iff, String.toList_append] at hname
  have heq := ((List.append_cons_inj_of_notMem (hdigits now) (hdigits pid)).mp hname).1
  rw [← Nat.ofDigitChars_toDigits (b := 10) (n := now) (by decide) (by decide), heq,
    Nat.ofDigitChars_toDigits (by decide) (by decide)]

/-! ## The refusal -/

section

variable {path : Path} {ts : List Target} {j : Journal} {disk : Disk}
  {journals : Path → Option Journal}

/-- The files and the saved journals are untouched. -/
def Untouched (disk : Disk) (journals : Path → Option Journal) (w : World) : Prop :=
  w.disk = disk ∧ w.journals = journals

theorem untouched_keeps (file : RecordedFile) (before : Bool) :
    Triple ReadFate.Quiet (fun w _ => w.journal = j ∧ Untouched disk journals w)
      (matchesRecordedState file before)
      (fun found w _ => found = file.matchesState (disk file.path) before ∧
        w.journal = j ∧ Untouched disk journals w)
      (fun w _ => w.journal = j ∧ Untouched disk journals w)
      fun w _ => w.journal = j ∧ Untouched disk journals w := by
  refine Triple.post (matchesRecordedState_triple file before
    (P := fun w _ => w.journal = j ∧ Untouched disk journals w) (fun fate hq w n h => ?_)
    (fun _ _ _ => id) fun _ _ => id) fun found w n h => ⟨by rw [h.2, h.1.2.1], h.1⟩
  rw [hq.1]
  exact h

/-- The preflight of a pending file passes only when the file is as after. -/
theorem preflight_after {file : RecordedFile} (hp : file.restoreProgress = .pending) :
    Triple ReadFate.Quiet (fun w _ => w.journal = j ∧ Untouched disk journals w)
      (preflight false file)
      (fun _ w _ => file.target.IsAfter (disk file.path) ∧ w.journal = j ∧
        Untouched disk journals w)
      (fun w _ => w.journal = j ∧ Untouched disk journals w)
      fun w _ => w.journal = j ∧ Untouched disk journals w := by
  refine Triple.bind (untouched_keeps file true) fun before => ?_
  refine Triple.of_pure fun _ => ?_
  refine Triple.bind (untouched_keeps file false) fun after => ?_
  refine Triple.of_pure fun hafter => ?_
  refine (Triple.ensure fun _ _ _ => id).post fun _ w n h => ⟨?_, h.2⟩
  have hvalid := h.1
  rw [hp, hafter] at hvalid
  exact RecordedFile.matchesState_after.mp (by simpa [RestoreProgress.valid] using hvalid)

/-- A journal as an apply saves it when it succeeds. -/
structure Journal.Standing (j : Journal) (path : Path) : Prop where
  scope : j.inScope path = true
  status : j.status = .applied
  allow : j.rollbackAllowBefore = false
  pending : ∀ file ∈ j.files, file.restoreProgress = .pending

theorem Applied.standing (h : Applied path ts j disk) : j.Standing path :=
  ⟨h.scope, h.status, h.allow, h.pending⟩

theorem restoreFiles_refuses (hj : j.Standing path)
    (hnot : ¬ ∀ t ∈ j.targets, t.IsAfter (disk t.path)) :
    Triple ReadFate.Quiet (fun w _ => w.journal = j ∧ Untouched disk journals w)
      (restoreFiles path j.files.length false) (fun _ _ _ => False)
      (fun w _ => w.journal = j ∧ Untouched disk journals w)
      fun w _ => w.journal = j ∧ Untouched disk journals w := by
  refine Triple.bind (R := fun files w _ => files = j.files ∧ w.journal = j ∧
    Untouched disk journals w) (Triple.get fun w n h => ⟨by rw [h.1], h⟩) fun files => ?_
  refine Triple.of_pure fun hfiles => ?_
  subst hfiles
  rw [List.take_length]
  refine Triple.bind (R := fun _ _ _ => False) ?_ fun _ m _ h => h.elim
  refine Triple.conseq (Triple.forM (fun done w _ => (∀ file ∈ done,
    file.target.IsAfter (disk file.path)) ∧ w.journal = j ∧ Untouched disk journals w) j.files []
    fun before file after heq => ?_) (fun w n h => ⟨by simp, h⟩) (fun _ w n h => ?_)
    (fun _ _ => id) fun _ _ => id
  · refine Triple.of_pure fun hbefore => ?_
    have hmem : file ∈ j.files := by
      rw [List.nil_append] at heq
      rw [heq]
      simp
    refine (preflight_after (hj.pending file hmem)).post fun _ w n h => ⟨fun f hf => ?_, h.2⟩
    rcases List.mem_append.mp hf with hf | hf
    · exact hbefore f hf
    · obtain rfl := List.mem_singleton.mp hf
      exact h.1
  · refine hnot fun t ht => ?_
    obtain ⟨file, hf, rfl⟩ := List.mem_map.mp ht
    exact h.1 file (by simpa using hf)

/-- A rollback of a transaction that stands refuses, and touches nothing, when a target
is not as after. -/
theorem rollback_refuses (hj : j.Standing path) (hsaved : journals path = some j)
    (hnot : ¬ ∀ t ∈ j.targets, t.IsAfter (disk t.path)) :
    Triple ReadFate.Quiet (fun w _ => Untouched disk journals w) (rollback path)
      (fun _ _ _ => False) (fun w _ => Untouched disk journals w)
      fun w _ => Untouched disk journals w := by
  have hread : ∀ w : World, Untouched disk journals w → w.journals path = some j := fun w h => by
    rw [h.2, hsaved]
  refine Triple.bind (Triple.readQuiet (Q := fun _ w _ => Untouched disk journals w)
    (fun _ _ => id) fun _ _ => id) fun _ => ?_
  refine Triple.bind (R := fun a w _ => a = j ∧ Untouched disk journals w)
    (Triple.readQuiet (fun w n h => ?_) fun _ _ => id) fun a => ?_
  · rw [hread w h]
    exact ⟨rfl, h⟩
  refine Triple.of_pure fun ha => ?_
  subst ha
  refine Triple.bind (R := fun _ w _ => w.journal = a ∧ Untouched disk journals w)
    (Triple.modify fun w n h => ⟨rfl, h⟩) fun _ => ?_
  refine Triple.bind ((Triple.ensure fun hs => absurd hj.scope hs).post fun _ w n h => h.2)
    fun _ => ?_
  refine Triple.bind (Triple.readQuiet (Q := fun _ w _ => w.journal = a ∧
    Untouched disk journals w) (fun _ _ => id) fun _ _ h => h.2) fun _ => ?_
  refine Triple.bind (R := fun again w _ => again = a ∧ w.journal = a ∧
    Untouched disk journals w) (Triple.readQuiet (fun w n h => ?_) fun _ _ h => h.2)
    fun again => ?_
  · rw [hread w h.2]
    exact ⟨rfl, h⟩
  refine Triple.of_pure fun hagain => ?_
  refine Triple.bind ((Triple.ensure fun hs => absurd hagain hs).post fun _ w n h => h.2)
    fun _ => ?_
  refine Triple.ite (fun _ => ?_) fun hs => absurd hj.status (by simp [not_not.mp hs])
  refine Triple.bind ((Triple.ensure fun hs => absurd (by rw [hj.status]; rfl) hs).post
    fun _ w n h => h.2) fun _ => ?_
  have hallow : a.allowBefore = false := by
    rw [Journal.allowBefore, hj.allow, hj.status]
    rfl
  unfold restoreAll
  rw [hallow]
  refine Triple.recover ((restoreFiles_refuses hj hnot).conseq (fun _ _ => id) (fun _ _ _ => id)
    (fun _ _ => id) fun _ _ h => h.2) (fun _ => ?_) fun error => ?_
  · exact fun m _ h => h.elim
  · refine Triple.bind (R := fun status w _ => status = .applied ∧ Untouched disk journals w)
      (Triple.get fun w n h => ⟨by rw [h.1, hj.status], h.2⟩) fun status => ?_
    refine Triple.of_pure fun hs => ?_
    rw [if_neg (by rw [hs]; decide)]
    exact Triple.throw fun _ _ => id

end

/-! ## What a rollback leaves alone -/

/-- The other files and the other journals are as they were. -/
structure Kept (path : Path) (ts : List Target) (w w' : World) : Prop where
  disk : ∀ q, (∀ t ∈ ts, t.path ≠ q) → w'.disk q = w.disk q
  journals : ∀ q, q ≠ path → w'.journals q = w.journals q

section

variable {path : Path} {ts : List Target} {S : Status → Prop} {w w' : World}

theorem Later.kept {j : Journal} {m : Machine World} (hm : Later w m)
    (hj : w.journals path = some j) :
    Kept path j.targets w (rollback path m).2.world ∧
      (rollback path m).2.world.clock = m.world.clock := by
  have hends := ((frame_stable path j.targets m.world).rollback (fun _ => Foreign.of_quiet) m
    hm.quiet ⟨hm.journals ▸ hj, rfl, fun _ _ => rfl, fun _ _ => rfl, rfl, rfl⟩).2
  have hholds : HoldsFor (Frame path j.targets m.world) (rollback path m).2.world := by
    cases hx : (rollback path m).1 <;> rw [hx] at hends <;> exact hends
  obtain ⟨j', h⟩ := hholds
  refine ⟨⟨fun q hq => ?_, fun q hq => ?_⟩, h.clock⟩
  · exact (h.disk q hq).trans (by rw [hm.disk])
  · exact (h.journals q hq).trans (by rw [hm.journals])

theorem Saved.later_kept (h : Saved path ts S w) {m : Machine World} (hm : Later w m) :
    Kept path ts w (HomeApply.rollback path m).2.world ∧
      (HomeApply.rollback path m).2.world.clock = m.world.clock := by
  obtain ⟨j, hj, hr⟩ := h
  rw [← hr.targets]
  exact hm.kept hj

theorem Saved.rollbacks_kept (hw : WellFormed ts) (hS : ∀ s : Status, s.ofRollback → S s)
    (h : Saved path ts S w) (hr : Rollbacks path w w') : Kept path ts w w' := by
  induction hr with
  | refl => exact ⟨fun _ _ => rfl, fun _ _ => rfl⟩
  | rollback m hr hm ih =>
      have hkept := ((h.rollbacks hw hS hr).later_kept hm).1
      exact ⟨fun q hq => (hkept.disk q hq).trans (ih.disk q hq),
        fun q hq => (hkept.journals q hq).trans (ih.journals q hq)⟩

end

/-! ## The stack -/

/-- The state before an apply is one state. -/
theorem Target.IsBefore.unique {t : Target} {a b : Option File} (ha : t.IsBefore a)
    (hb : t.IsBefore b) : a = b := by
  have hbytes := ha.1.trans hb.1.symm
  have hmode := ha.2.trans hb.2.symm
  cases a with
  | none =>
      cases b with
      | none => rfl
      | some file => cases hbytes
  | some file =>
      cases b with
      | none => cases hbytes
      | some file' =>
          cases file
          cases file'
          simp only [Option.map_some, Option.some.injEq] at hbytes hmode
          rw [hbytes, hmode]

/-- A transaction on the disk its apply has found. -/
structure Layer (path : Path) (j : Journal) (below disk : Disk) : Prop where
  wellFormed : WellFormed j.targets
  applied : Applied path j.targets j disk
  before : ∀ t ∈ j.targets, t.IsBefore (below t.path)
  frame : ∀ q, (∀ t ∈ j.targets, t.path ≠ q) → disk q = below q

/-- Transactions on one another, the last first, over a first disk. -/
inductive Stacked (first : Disk) (journals : Path → Option Journal) : List Path → Disk → Prop where
  | nil : Stacked first journals [] first
  | cons {path : Path} {stack : List Path} {j : Journal} {below disk : Disk} (hnew : path ∉ stack)
      (hj : journals path = some j) (hl : Layer path j below disk)
      (h : Stacked first journals stack below) : Stacked first journals (path :: stack) disk

section

variable {path : Path} {j : Journal} {first below disk disk' : Disk} {stack : List Path}
  {journals journals' : Path → Option Journal}

/-- The files of a transaction as before, and the others as they were: the disk below it. -/
theorem Layer.undone (h : Layer path j below disk)
    (hbefore : ∀ t ∈ j.targets, t.IsBefore (disk' t.path))
    (hframe : ∀ q, (∀ t ∈ j.targets, t.path ≠ q) → disk' q = disk q) : disk' = below := by
  funext q
  by_cases hq : ∃ t ∈ j.targets, t.path = q
  · obtain ⟨t, ht, rfl⟩ := hq
    exact (hbefore t ht).unique (h.before t ht)
  · have hother : ∀ t ∈ j.targets, t.path ≠ q := fun t ht heq => hq ⟨t, ht, heq⟩
    rw [hframe q hother, h.frame q hother]

theorem Stacked.congr (h : Stacked first journals stack disk)
    (hsame : ∀ p ∈ stack, journals' p = journals p) : Stacked first journals' stack disk := by
  induction h with
  | nil => exact .nil
  | cons hnew hj hl _ ih =>
      refine .cons hnew ?_ hl (ih fun p hp => hsame p (List.mem_cons_of_mem _ hp))
      rw [hsame _ List.mem_cons_self, hj]

/-- The journal of a transaction in the stack stands. -/
theorem Stacked.standing (h : Stacked first journals stack disk) (hp : path ∈ stack) :
    ∃ j, journals path = some j ∧ j.Standing path ∧ WellFormed j.targets := by
  induction h with
  | nil => cases hp
  | cons hnew hj hl _ ih =>
      rcases List.mem_cons.mp hp with rfl | hp
      · exact ⟨_, hj, hl.applied.standing, hl.wellFormed⟩
      · exact ih hp

end

/-! ## Histories -/

/-- Applies that succeed and rollbacks of the last transaction that stands, each by a
later process: the transactions that stand, the last first, and the world.  Before it is
done a rollback may fail or crash any number of times. -/
inductive History (w₀ : World) : List Path → World → Prop where
  | start : History w₀ [] w₀
  | apply {stack : List Path} {w : World} {result : Option Path} (render : Render)
      (options : HomeHookOptions) (failAfter : Option Nat) (m : Machine World)
      (h : History w₀ stack w) (hm : Later w m) (hclock : w.clock ≤ m.world.clock)
      (hok : (applyInner render options failAfter m).1 = .ok result) :
      History w₀ (result.toList ++ stack) (applyInner render options failAfter m).2.world
  | rollback {path : Path} {stack : List Path} {w w' : World} (m : Machine World)
      (h : History w₀ (path :: stack) w) (hr : Rollbacks path w w') (hm : Later w' m)
      (hclock : w.clock ≤ m.world.clock)
      (hdone : (rollback path m).1 = .ok () ∨ (rollback path m).2.faults = 0) :
      History w₀ stack (rollback path m).2.world

/-- The transactions were applied at earlier times. -/
def Earlier (stack : List Path) (clock : Nat) : Prop :=
  ∀ p ∈ stack, ∃ home now pid, now < clock ∧ p = transactionPath home now pid

theorem Earlier.mono {stack : List Path} {clock clock' : Nat} (h : Earlier stack clock)
    (hc : clock ≤ clock') : Earlier stack clock' := fun p hp => by
  obtain ⟨home, now, pid, hnow, heq⟩ := h p hp
  exact ⟨home, now, pid, Nat.lt_of_lt_of_le hnow hc, heq⟩

/-- The transactions of a history lie on one another over the first disk. -/
theorem History.stacked {w₀ w : World} {stack : List Path} (h : History w₀ stack w) :
    Stacked w₀.disk w.journals stack w.disk ∧ Earlier stack w.clock := by
  induction h with
  | start => exact ⟨.nil, by simp [Earlier]⟩
  | @apply stack w result render options failAfter m _ hm hclock hok ih =>
      obtain ⟨hs, he⟩ := ih
      have hends := (applyInner_triple render options failAfter m.world rfl m hm.quiet rfl).2
      rw [hok] at hends
      rcases hends with ⟨rfl, hsame⟩ | ⟨rfl, ts, hdone⟩
      · rw [hsame, hm.disk, hm.journals]
        exact ⟨hs, he.mono hclock⟩
      · have hnew : transactionPath options.home m.world.clock m.world.pid ∉ stack := fun hp => by
          obtain ⟨home, now, pid, hnow, heq⟩ := he _ hp
          have hsame := transactionPath_now heq
          omega
        have hts := hdone.applied.1.targets
        subst hts
        have hother := fun q hq => (hdone.frame.disk q hq).trans (congrFun hm.disk q)
        refine ⟨.cons hnew hdone.applied.2 ⟨hdone.wellFormed, hdone.applied.1,
          fun t ht => hm.disk ▸ hdone.before t ht, hother⟩ (hs.congr fun p hp => ?_), ?_⟩
        · have hne : p ≠ transactionPath options.home m.world.clock m.world.pid := fun heq =>
            hnew (heq ▸ hp)
          exact (hdone.frame.journals p hne).trans (congrFun hm.journals p)
        · intro p hp
          rw [hdone.frame.clock]
          rcases List.mem_cons.mp hp with rfl | hp
          · exact ⟨_, _, _, Nat.lt_succ_self _, rfl⟩
          · exact he.mono (Nat.le_succ_of_le hclock) p hp
  | @rollback path stack w w' m _ hr hm hclock hdone ih =>
      obtain ⟨hs, he⟩ := ih
      cases hs with
      | @cons _ _ j below _ hnew hj hl hs =>
          -- The journal never says that it is compensated for.
          have hS : ∀ s : Status, s.ofRollback → s ≠ .compensated := by
            rintro s hs rfl
            exact hs
          have hsaved : Saved path j.targets (· ≠ .compensated) w :=
            ⟨j, hj, hl.applied.recoverable (by decide)⟩
          have hkept := hsaved.rollbacks_kept hl.wellFormed hS hr
          have hsaved' := hsaved.rollbacks hl.wellFormed hS hr
          obtain ⟨hkept', hclock'⟩ := hsaved'.later_kept hm
          have hok : (HomeApply.rollback path m).1 = .ok () := by
            rcases hdone with hok | hf
            · exact hok
            · refine hsaved'.rollback_ok hl.wellFormed hS (fun j' hj' => ?_) hm hf
              obtain ⟨j'', hj'', hr⟩ := hsaved'
              cases hj''.symm.trans hj'
              exact hr.status
          have hbelow := hl.undone (hsaved'.restored hl.wellFormed hS hm hok)
            fun q hq => (hkept'.disk q hq).trans (hkept.disk q hq)
          rw [hbelow, hclock']
          refine ⟨hs.congr fun p hp => ?_, fun p hp => ?_⟩
          · have hne : p ≠ path := fun heq => hnew (heq ▸ hp)
            exact (hkept'.journals p hne).trans (hkept.journals p hne)
          · exact he.mono hclock p (List.mem_cons_of_mem _ hp)

/-- A history whose transactions are all undone leaves the disk it began with. -/
theorem History.unwound {w₀ w : World} (h : History w₀ [] w) : w.disk = w₀.disk := by
  have hs := h.stacked.1
  generalize hd : w.disk = disk at hs
  cases hs with
  | nil => rfl

/-- A transaction that stands is rolled back when its targets are all as after; otherwise
its rollback refuses, and touches nothing. -/
theorem History.rollback_iff {w₀ w : World} {stack : List Path} (h : History w₀ stack w)
    {path : Path} (hp : path ∈ stack) : ∃ j, w.journals path = some j ∧ ∀ m, Later w m →
      ((∀ t ∈ j.targets, t.IsAfter (w.disk t.path)) → (HomeApply.rollback path m).2.faults = 0 →
        (HomeApply.rollback path m).1 = .ok () ∧
          ∀ t ∈ j.targets, t.IsBefore ((HomeApply.rollback path m).2.world.disk t.path)) ∧
      ((¬ ∀ t ∈ j.targets, t.IsAfter (w.disk t.path)) →
        (HomeApply.rollback path m).1 ≠ .ok () ∧
          (HomeApply.rollback path m).2.world.disk = w.disk) := by
  obtain ⟨j, hj, hstands, hw⟩ := h.stacked.1.standing hp
  refine ⟨j, hj, fun m hm => ⟨fun hafter hf => ?_, fun hnot => ?_⟩⟩
  · have happlied : Applied path j.targets j w.disk :=
      ⟨rfl, hstands.scope, hstands.status, hstands.allow, hstands.pending, hafter⟩
    have hsaved : Saved path j.targets (fun _ => True) w :=
      ⟨j, hj, happlied.recoverable trivial⟩
    refine (hsaved.recovers hw fun _ _ => trivial).restores j m hj (fun hc => ?_) hm hf
    rw [hstands.status] at hc
    cases hc
  · have hends := (rollback_refuses hstands hj hnot m hm.quiet ⟨hm.disk, hm.journals⟩).2
    cases hx : (HomeApply.rollback path m).1 with
    | ok =>
        rw [hx] at hends
        exact hends.elim
    | err error =>
        rw [hx] at hends
        exact ⟨by simp, hends.1⟩
    | crash =>
        rw [hx] at hends
        exact ⟨by simp, hends.1⟩

/-- Restorations touch a target only in its state after the apply, and nothing when the
preflight fails; transactions unwind in reverse order, and one that lies below others is
rolled back only while its targets are all in its own state after the apply. -/
theorem restorations_safe :
    (∀ (m : Machine World) (path : Path), (∀ fate ∈ m.reads, Foreign fate) →
      (∀ count allowBefore, RespectsSince m.world.journal.targets m.world.log
        (restoreFiles path count allowBefore m).2.world) ∧
      (∀ error, RespectsSince m.world.journal.targets m.world.log
        (compensate path error m).2.world) ∧
      (∀ j, m.world.journals path = some j →
        RespectsSince j.targets m.world.log (rollback path m).2.world) ∧
      ∀ count allowBefore error m',
        (m.world.journal.files.take count).forM (preflight allowBefore) m = (.err error, m') →
          restoreFiles path count allowBefore m = (.err error, m') ∧
            m'.world.log = m.world.log) ∧
    (∀ w₀ w, History w₀ [] w → w.disk = w₀.disk) ∧
    ∀ w₀ w stack path, History w₀ stack w → path ∈ stack →
      ∃ j, w.journals path = some j ∧ ∀ m, Later w m →
        ((∀ t ∈ j.targets, t.IsAfter (w.disk t.path)) → (rollback path m).2.faults = 0 →
          (rollback path m).1 = .ok () ∧
            ∀ t ∈ j.targets, t.IsBefore ((rollback path m).2.world.disk t.path)) ∧
        ((¬ ∀ t ∈ j.targets, t.IsAfter (w.disk t.path)) →
          (rollback path m).1 ≠ .ok () ∧ (rollback path m).2.world.disk = w.disk) :=
  ⟨fun _ path hm => ⟨restoreFiles_respectful hm path, compensate_respectful hm path,
      fun _ hj => rollback_respectful hm hj, fun _ _ _ _ h => restoreFiles_conflict hm h⟩,
    fun _ _ h => h.unwound, fun _ _ _ _ h hp => h.rollback_iff hp⟩

/-- A machine without faults. -/
def faultless (w : World) : Machine World := ⟨w, [], [], 0⟩

theorem later_faultless (w : World) : Later w (faultless w) := ⟨rfl, rfl, by simp [faultless], rfl⟩

/-- An apply that writes one byte to the one file. -/
def piApply (byte : UInt8) (w : World) : Exit (Option Path) × Machine World :=
  applyInner (fun _ _ _ _ => .ok [byte]) piOptions none (faultless w)

def piPath (now : Nat) : Path := transactionPath ["home"] now 5

def piJournal (status : Status) (before after : UInt8) : Journal :=
  ⟨1, ["home"], ["bin", "hook"], none, ["pi"], status, false,
    [⟨piTarget, some [before], [after], some 0o640, .pending⟩]⟩

/-- The world that such an apply leaves. -/
def piApplied (w : World) (before after : UInt8) : World := { w with
  disk := Function.update w.disk piTarget (some ⟨[after], 0o640⟩)
  journals := Function.update
    (Function.update w.journals (piPath w.clock) (some (piJournal .prepared before after)))
    (piPath w.clock) (some (piJournal .applied before after))
  clock := w.clock + 1 }

def piOnce : World := piApplied piWorld 1 2

def piTwice : World := piApplied piOnce 2 3

def piThrice : World := piApplied piTwice 3 2

theorem history_piApply {w₀ w start : World} {stack : List Path} {path : Path} (byte : UInt8)
    (h : History w₀ stack w) (hm : Later w (faultless start)) (hclock : w.clock ≤ start.clock)
    (hok : (piApply byte start).1 = .ok (some path)) :
    History w₀ (path :: stack) (piApply byte start).2.world :=
  .apply _ piOptions none (faultless start) h hm hclock hok

theorem history_piTwice : History piWorld [piPath 8, piPath 7] (piApply 3 piOnce).2.world :=
  history_piApply 3
    (history_piApply 2 .start (later_faultless piWorld) (by decide) (by decide +kernel))
    ⟨rfl, rfl, (later_faultless piOnce).quiet, rfl⟩ (by decide +kernel) (by decide +kernel)

/-- Two applies and their rollbacks in reverse order. -/
theorem restorations_safe_unwound :
    let w := (rollback (piPath 8) (faultless piTwice)).2.world
    (rollback (piPath 7) (faultless w)).2.world.disk = piWorld.disk :=
  restorations_safe.2.1 piWorld _
    (.rollback (faultless _)
      (.rollback (faultless piTwice) history_piTwice .refl
        ⟨rfl, rfl, (later_faultless piTwice).quiet, rfl⟩ (by decide +kernel)
        (.inl (by decide +kernel)))
      .refl (later_faultless _) (by decide +kernel) (.inl (by decide +kernel)))

/-- The first of three transactions is rolled back under the other two, since the third
has written again what the first had. -/
theorem rollback_belowOthers :
    History piWorld [piPath 9, piPath 8, piPath 7] (piApply 2 piTwice).2.world ∧
      Later (piApply 2 piTwice).2.world (faultless piThrice) ∧
      (rollback (piPath 7) (faultless piThrice)).1 = .ok () ∧
      (rollback (piPath 7) (faultless piThrice)).2.world.disk piTarget = some ⟨[1], 0o640⟩ ∧
      (piApply 2 piTwice).2.world.disk piTarget = some ⟨[2], 0o640⟩ :=
  ⟨history_piApply 2 history_piTwice
      ⟨rfl, rfl, (later_faultless piTwice).quiet, rfl⟩ (by decide +kernel) (by decide +kernel),
    ⟨rfl, rfl, (later_faultless piThrice).quiet, rfl⟩, by decide +kernel, by decide +kernel,
    by decide +kernel⟩

end AgentOtelBridge.HomeApply
