import AgentOtelBridge.Ipc.Listener

/-!
# Mutual exclusion of the listener

One process at a time holds the lease, and no process unlinks or replaces a socket
path that a live listener of another process owns.

The path is changed with the lease held only.  So what a process that holds the
lease knows about the path stays true while others take their steps, and `Knows`
says what it knows: that the socket it is about to unlink has no live listener, or
is its own.
-/

namespace AgentOtelBridge.Ipc.Listener

open Transition

theorem Pc.leaseFile_of_lease {pc : Pc} {file : FileId} (h : pc.lease = some file) :
    pc.leaseFile = some file := by
  cases pc <;> first | exact h | cases h

namespace System

/-- The path leads to a socket. -/
def LeadsTo (s : System) (socket : FileId) : Prop := s.path.map Entry.file = some socket

/-- What a process knows about the path. -/
def Knows (s : System) : Pc → Prop
  | .refused .. | .unlinking _ => ∃ e, s.path = some e ∧ ¬ s.Live e.file
  | .bound _ socket | .removing _ socket => s.LeadsTo socket
  | .serving _ socket identity | .cleaning _ socket identity =>
      s.LeadsTo socket ∧ identity.file = socket
  | _ => True

/-- Without the lease a process knows nothing. -/
theorem knows_of_lease_eq_none {s : System} {pc : Pc} (h : pc.lease = none) : s.Knows pc := by
  cases pc <;> trivial

/-- What is known depends on the path and on which listeners are live. -/
theorem Knows.congr {s s' : System} {pc : Pc} (h : s.Knows pc) (hp : s'.path = s.path)
    (hl : ∀ e, s.path = some e → s'.Live e.file → s.Live e.file) : s'.Knows pc := by
  have hleads : ∀ socket, s.LeadsTo socket → s'.LeadsTo socket := by
    intro socket hs
    unfold LeadsTo
    rw [hp]
    exact hs
  have hdead : (∃ e, s.path = some e ∧ ¬ s.Live e.file) →
      ∃ e, s'.path = some e ∧ ¬ s'.Live e.file := by
    rintro ⟨e, he, hd⟩
    exact ⟨e, hp ▸ he, fun hl' => hd (hl e he hl')⟩
  cases pc with
  | refused | unlinking => exact hdead h
  | bound | removing => exact hleads _ h
  | serving | cleaning => exact ⟨hleads _ h.1, h.2⟩
  | idle | checking | creating | existing | expecting | opened | locking | locked | binding | inUse
  | probing | rebinding | releasing | closing | dying => trivial

/-! ## What a system call does -/

namespace Act

variable {uid : Nat} {s : System} {pc pc' : Pc} {path : Option Entry}
  {leaseFile : Option LeaseFile}

/-- A lease file is created where there was none, and is never replaced. -/
theorem leaseFile_eq (h : Act uid s pc path leaseFile pc') :
    leaseFile = s.leaseFile ∨ s.leaseFile = none := by
  cases h with
  | create file hn => exact .inr hn
  | _ => exact .inl rfl

/-- A process finds the lease file that is there. -/
theorem leaseFile_found (h : Act uid s pc path leaseFile pc')
    (hi : ∀ file, pc.leaseFile = some file → s.leaseFile.map LeaseFile.file = some file)
    {file : FileId} (hf : pc'.leaseFile = some file) :
    leaseFile.map LeaseFile.file = some file := by
  cases h with
  | create => exact hf
  | identify h | validate _ h | recheck h => exact hf ▸ leaseIdentity_some h
  | openFile h => exact h ▸ hf
  | start | vacant | occupied | found | close | gone => cases hf
  | release => cases hf
  | dropLease => cases hf
  | tryLock | bind | addrInUse | stale | refuse | unchanged | unlink | rebind | serve | stop | own
  | keep | remove | removeError | dropListener => exact hi _ hf
  | die => exact hi _ (Pc.leaseFile_of_lease hf)

/-- A process gets a lease that nobody has. -/
theorem lease_new (h : Act uid s pc path leaseFile pc') {file : FileId}
    (hf : pc'.lease = some file) :
    pc.lease = some file ∨ ∀ p, (s.procs p).lease ≠ some file := by
  cases h with
  | @tryLock f hfree =>
      obtain rfl : f = file := by simpa [Pc.lease] using hf
      exact .inr hfree
  | start | vacant | occupied | create | found | identify | openFile | validate | release | close
  | dropLease | gone => cases hf
  | recheck | bind | addrInUse | stale | refuse | unchanged | unlink | rebind | serve | stop | own
  | keep | remove | removeError | die | dropListener => exact .inl hf

/-- A process gets a socket that no live listener has, at a path that was vacant. -/
theorem listener_new (h : Act uid s pc path leaseFile pc') {socket : FileId}
    (hs : pc'.listener = some socket) :
    pc.listener = some socket ∨ (¬ s.Live socket ∧ s.path = none) := by
  cases h with
  | @bind f socket' hv hfresh | @rebind f socket' hv hfresh =>
      obtain rfl : socket' = socket := by simpa [Pc.listener] using hs
      exact .inr ⟨hfresh, hv⟩
  | start | vacant | occupied | create | found | identify | openFile | validate | tryLock | recheck
  | addrInUse | stale | refuse | unchanged | unlink | close | dropListener | gone => cases hs
  | serve | stop | own | keep | remove | removeError | release | die | dropLease => exact .inl hs

/-- The path is changed with the lease held: where it was vacant, where it led to a
socket without a live listener, or where it led to the process's own. -/
theorem path_eq (h : Act uid s pc path leaseFile pc') (hk : s.Knows pc) :
    path = s.path ∨ (pc.lease ≠ none ∧ ∀ e, s.path = some e →
      ¬ s.Live e.file ∨ pc.listener = some e.file) := by
  cases h with
  | bind socket hv | rebind socket hv =>
      exact .inr ⟨Option.some_ne_none _, fun e he => absurd (hv ▸ he) (by simp)⟩
  | unlink =>
      obtain ⟨e, he, hdead⟩ := hk
      refine .inr ⟨Option.some_ne_none _, fun e' he' => .inl ?_⟩
      rw [he] at he'
      cases he'
      exact hdead
  | @remove file socket =>
      refine .inr ⟨Option.some_ne_none _, fun e he => .inr ?_⟩
      have hs : s.LeadsTo socket := hk
      unfold LeadsTo at hs
      rw [he] at hs
      exact hs.symm
  | start | vacant | occupied | create | found | identify | openFile | validate | tryLock | recheck
  | addrInUse | stale | refuse | unchanged | serve | stop | own | keep | removeError | release
  | close | die | dropLease | dropListener | gone => exact .inl rfl

/-- What a process knows after a system call. -/
theorem knows (h : Act uid s pc path leaseFile pc') (hk : s.Knows pc) {s' : System}
    (hp : s'.path = path) (hl : ∀ e, s.path = some e → s'.Live e.file → s.Live e.file) :
    s'.Knows pc' := by
  cases h with
  | refuse he hdead => exact ⟨_, hp.trans he, fun hlive => hdead (hl _ he hlive)⟩
  | unchanged | stop => exact hk.congr hp hl
  | bind | rebind => exact congrArg (Option.map Entry.file) hp
  | @serve file socket identity hid =>
      obtain ⟨e, he, rfl, -⟩ := ownedIdentity_ok hid
      have hs : s.LeadsTo socket := hk
      refine ⟨(congrArg (Option.map Entry.file) hp).trans hs, ?_⟩
      unfold LeadsTo at hs
      rw [he] at hs
      exact Option.some.inj hs
  | own => exact (congrArg (Option.map Entry.file) hp).trans hk.1
  | start | vacant | occupied | create | found | identify | openFile | validate | tryLock | recheck
  | addrInUse | stale | unlink | keep | remove | removeError | release | close | die | dropLease
  | dropListener | gone => trivial

end Act

/-! ## The invariant -/

/-- What every step of every process keeps. -/
structure Inv (s : System) : Prop where
  found : ∀ p file, (s.procs p).leaseFile = some file →
    s.leaseFile.map LeaseFile.file = some file
  lease : ∀ p q file, (s.procs p).lease = some file → (s.procs q).lease = some file → p = q
  listener : ∀ p q socket, (s.procs p).listener = some socket →
    (s.procs q).listener = some socket → p = q
  knows : ∀ p, s.Knows (s.procs p)

theorem inv_init {s : System} (h : s.Init) : s.Inv where
  found p file hf := by simp [h p, Pc.leaseFile] at hf
  lease p q file hf := by simp [h p, Pc.lease] at hf
  listener p q socket hs := by simp [h p, Pc.listener] at hs
  knows p := by
    rw [h p]
    trivial

/-- All leases are on one file: one process at a time holds a lease. -/
theorem Inv.lease_unique {s : System} (hi : s.Inv) {p q : Nat}
    (hp : (s.procs p).lease ≠ none) (hq : (s.procs q).lease ≠ none) : p = q := by
  obtain ⟨file, hf⟩ := Option.ne_none_iff_exists'.mp hp
  obtain ⟨file', hf'⟩ := Option.ne_none_iff_exists'.mp hq
  have h := hi.found p file (Pc.leaseFile_of_lease hf)
  have h' := hi.found q file' (Pc.leaseFile_of_lease hf')
  rw [h] at h'
  cases h'
  exact hi.lease p q file hf hf'

/-- Of two processes that have a thing after a step, one had it before or nobody
had: the thing has one owner still. -/
theorem unique_update {procs : Nat → Pc} {p : Nat} {pc : Pc} {has : Pc → Option FileId}
    {file : FileId} (hu : ∀ q r, has (procs q) = some file → has (procs r) = some file → q = r)
    (hnew : has pc = some file → has (procs p) = some file ∨ ∀ q, has (procs q) ≠ some file)
    {q r : Nat} (hq : has (Function.update procs p pc q) = some file)
    (hr : has (Function.update procs p pc r) = some file) : q = r := by
  by_cases hqp : q = p <;> by_cases hrp : r = p
  · exact hqp.trans hrp.symm
  · subst hqp
    rw [Function.update_self] at hq
    rw [Function.update_of_ne hrp] at hr
    rcases hnew hq with h | h
    · exact hu _ _ h hr
    · exact absurd hr (h r)
  · subst hrp
    rw [Function.update_self] at hr
    rw [Function.update_of_ne hqp] at hq
    rcases hnew hr with h | h
    · exact hu _ _ hq h
    · exact absurd hq (h q)
  · rw [Function.update_of_ne hqp] at hq
    rw [Function.update_of_ne hrp] at hr
    exact hu _ _ hq hr

/-- No step makes a listener live on the socket the path leads to. -/
theorem Step.live {uid : Nat → Nat} {p : Nat} {s s' : System} (h : Step uid p s s') {e : Entry}
    (he : s.path = some e) (hl : s'.Live e.file) : s.Live e.file := by
  obtain @⟨path, leaseFile, pc, h⟩ := h
  obtain ⟨q, hq⟩ := hl
  simp only at hq
  by_cases hqp : q = p
  · subst hqp
    rw [Function.update_self] at hq
    rcases h.listener_new hq with hl | ⟨-, hv⟩
    · exact ⟨q, hl⟩
    · rw [hv] at he
      cases he
  · rw [Function.update_of_ne hqp] at hq
    exact ⟨q, hq⟩

theorem inv_step {uid : Nat → Nat} {p : Nat} {s s' : System} (hi : s.Inv) (h : Step uid p s s') :
    s'.Inv := by
  have hlive := fun e => h.live (e := e)
  obtain @⟨path, leaseFile, pc, h⟩ := h
  refine ⟨fun q file hf => ?_, fun q r file => ?_, fun q r socket => ?_, fun q => ?_⟩
  · simp only at hf
    by_cases hqp : q = p
    · subst hqp
      rw [Function.update_self] at hf
      exact h.leaseFile_found (hi.found q) hf
    · rw [Function.update_of_ne hqp] at hf
      have hfound := hi.found q file hf
      rcases h.leaseFile_eq with heq | hnone
      · exact heq ▸ hfound
      · simp [hnone] at hfound
  · exact unique_update (fun q r => hi.lease q r file) h.lease_new
  · refine unique_update (fun q r => hi.listener q r socket) fun hs => ?_
    exact (h.listener_new hs).imp_right fun hn q hq => hn.1 ⟨q, hq⟩
  · by_cases hqp : q = p
    · subst hqp
      simp only [Function.update_self]
      exact h.knows (hi.knows q) rfl hlive
    · simp only [Function.update_of_ne hqp]
      rcases h.path_eq (hi.knows p) with heq | ⟨hlease, -⟩
      · exact (hi.knows q).congr heq hlive
      · cases hq : (s.procs q).lease with
        | none => exact knows_of_lease_eq_none hq
        | some file => exact absurd (hi.lease_unique (by simp [hq]) hlease) hqp

theorem Inv.of_reachable {uid : Nat → Nat} {s : System} (h : Reachable Init (Next uid) s) :
    s.Inv :=
  h.invariant (fun _ => inv_init) fun _ _ hi ⟨_, hstep⟩ => inv_step hi hstep

/-! ## Exclusion -/

/-- The exclusion in a state: one process holds the lease, and no other process
changes a path that leads to the socket of a live listener. -/
structure Exclusive (uid : Nat → Nat) (s : System) : Prop where
  lease : ∀ p q, (s.procs p).lease ≠ none → (s.procs q).lease ≠ none → p = q
  path : ∀ p q s' e, s.path = some e → (s.procs q).listener = some e.file → p ≠ q →
    Step uid p s s' → s'.path = s.path

theorem Inv.exclusive {uid : Nat → Nat} {s : System} (hi : s.Inv) : s.Exclusive uid where
  lease p q := hi.lease_unique
  path p q s' e he hq hpq h := by
    obtain @⟨path, leaseFile, pc, h⟩ := h
    rcases h.path_eq (hi.knows p) with heq | ⟨-, howner⟩
    · exact heq
    · rcases howner e he with hdead | hown
      · exact absurd ⟨q, hq⟩ hdead
      · exact absurd (hi.listener p q _ hown hq) hpq

/-- In every reachable state of any number of processes the listener is exclusive. -/
theorem reachable_exclusive {uid : Nat → Nat} {s : System} (h : Reachable Init (Next uid) s) :
    s.Exclusive uid :=
  (Inv.of_reachable h).exclusive

/-- The path leads to the socket of the process that serves. -/
theorem reachable_serving {uid : Nat → Nat} {s : System} (h : Reachable Init (Next uid) s)
    {p : Nat} {file socket : FileId} {identity : SocketIdentity}
    (hp : s.procs p = .serving file socket identity) : s.LeadsTo socket := by
  have hk := (Inv.of_reachable h).knows p
  rw [hp] at hk
  exact hk.1

/-! ## A stale socket is taken over -/

/-- One process, and nobody else. -/
def alone (path : Option Entry) (leaseFile : Option LeaseFile) (pc : Pc) : System :=
  ⟨path, leaseFile, Function.update (fun _ => .idle) 0 pc⟩

variable {uid : Nat → Nat} {path path' : Option Entry} {leaseFile leaseFile' : Option LeaseFile}
  {pc pc' : Pc}

theorem alone_reachable (h : Reachable Init (Next uid) (alone path leaseFile pc))
    (ha : Act (uid 0) (alone path leaseFile pc) pc path' leaseFile' pc') :
    Reachable Init (Next uid) (alone path' leaseFile' pc') := by
  have hpc : (alone path leaseFile pc).procs 0 = pc := by simp [alone]
  have hstep : Step uid 0 (alone path leaseFile pc) _ := .act (hpc.symm ▸ ha)
  simp only [alone, Function.update_idem] at hstep
  exact h.tail ⟨0, hstep⟩

theorem alone_free (h : pc.lease = none) (file : FileId) (p : Nat) :
    ((alone path leaseFile pc).procs p).lease ≠ some file := by
  by_cases hp : p = 0
  · subst hp
    simp [alone, h]
  · simp [alone, Function.update_of_ne hp, Pc.lease]

theorem alone_dead (h : pc.listener = none) (socket : FileId) :
    ¬ (alone path leaseFile pc).Live socket := by
  rintro ⟨p, hp⟩
  by_cases hp0 : p = 0
  · subst hp0
    simp [alone, h] at hp
  · simp [alone, Function.update_of_ne hp0, Pc.listener] at hp

/-- The socket a dead process left, and the one bound in its place. -/
def leftOver : Entry := ⟨⟨1, 10⟩, 7, true⟩
def replaced : Entry := ⟨⟨1, 11⟩, 7, true⟩
def leaseOf : LeaseFile := ⟨⟨1, 12⟩, 7, true⟩

/-- A process that serves after it has taken over a stale socket. -/
def takenOver : System :=
  alone (some replaced) (some leaseOf) (.serving ⟨1, 12⟩ ⟨1, 11⟩ replaced.identity)

theorem takenOver_reachable : Reachable Init (Next fun _ => 7) takenOver := by
  have h₀ : Reachable Init (Next fun _ => 7) (alone (some leftOver) none .idle) := by
    refine .of_init fun p => ?_
    simp only [alone, Function.update_eq_self]
  have h₁ := alone_reachable h₀ .start
  have h₂ := alone_reachable h₁ (.occupied rfl)
  have h₃ := alone_reachable h₂ (.create ⟨1, 12⟩ rfl)
  have h₄ := alone_reachable h₃ (.validate (.inl rfl) rfl)
  have h₅ := alone_reachable h₄ (.tryLock (alone_free rfl _))
  have h₆ := alone_reachable h₅ (.recheck rfl)
  have h₇ := alone_reachable h₆ (.addrInUse (Option.some_ne_none _))
  have h₈ := alone_reachable h₇ (.stale rfl)
  have h₉ := alone_reachable h₈ (.refuse rfl (alone_dead rfl _))
  have h₁₀ := alone_reachable h₉ (.unchanged rfl)
  have h₁₁ := alone_reachable h₁₀ (.unlink (Option.some_ne_none _))
  have h₁₂ := alone_reachable h₁₁ (.rebind ⟨1, 11⟩ rfl (alone_dead rfl _))
  exact alone_reachable h₁₂ (.serve rfl)

theorem reachable_exclusive_takenOver : takenOver.Exclusive fun _ => 7 :=
  reachable_exclusive takenOver_reachable

end System

end AgentOtelBridge.Ipc.Listener
