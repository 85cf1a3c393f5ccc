import AgentOtelBridge.Daemon.ContextCache

/-!
# The bound of the context cache

Every entry of the cache is charged its key and its snapshot, and an insertion evicts
until the entries are few and cheap enough.  Eviction takes the entry that was used the
longest ago.  The entry just inserted was used last of all, so it is only evicted where
no other is left, and then it alone is over the budget.

There are no aliases: a workspace is stored under the key it is looked up by.
-/

namespace AgentOtelBridge.ContextCache

open FiniteMap

variable {γ : Type*}

/-! ## What the cache is charged -/

/-- The bytes of an entry: those of its key, and of its snapshot if there is one. -/
def entryCost (size : γ → Nat) (e : Pair String (CacheEntry γ)) : Nat :=
  e.1.utf8ByteSize + e.2.snapshot.elim 0 size

def aliasCost (e : Pair String String) : Nat := e.1.utf8ByteSize + e.2.utf8ByteSize

namespace CacheState

def cost (size : γ → Nat) (s : CacheState γ) : Nat :=
  (s.entries.entries.map (entryCost size)).sum + (s.aliases.entries.map aliasCost).sum

structure Within (size : γ → Nat) (s : CacheState γ) : Prop where
  bytes : s.bytes = s.cost size
  budget : s.bytes ≤ contextCacheMaxBytes
  entries : s.entries.entries.length ≤ contextCacheMaxEntries

end CacheState

/-! ## Operations -/

/-- What a worker inserts: a snapshot it accepted, or that there is none. -/
structure Insertion (size : γ → Nat) where
  ord : IterOrder String
  key : String
  snapshot : Option γ
  capturedAt : Nat
  accepted : ∀ context ∈ snapshot, size context ≤ contextSnapshotMaxBytes

inductive Operation (size : γ → Nat) where
  | lookup (key : String) (now : Nat)
  | insertSnapshot (insertion : Insertion size)

section

variable {size : γ → Nat}

def Insertion.snapshotBytes (insertion : Insertion size) : Nat := insertion.snapshot.elim 0 size

def Insertion.entryBytes (insertion : Insertion size) : Nat :=
  insertion.key.utf8ByteSize + insertion.snapshotBytes

namespace CacheState

/-- `insert_snapshot` before it evicts. -/
def inserted (s : CacheState γ) (insertion : Insertion size) : CacheState γ :=
  let s := { s with useCounter := s.nextUse }
  let identity := insertion.key
  let s := match s.aliases.lookup insertion.key with
    | some oldIdentity =>
        { s with
          aliases := s.aliases.erase insertion.key
          bytes := s.bytes - (insertion.key.utf8ByteSize + oldIdentity.utf8ByteSize) }
    | none => s
  let s := if insertion.key ≠ identity then
      { s with
        aliases := s.aliases.insert insertion.key identity
        bytes := s.bytes + (insertion.key.utf8ByteSize + identity.utf8ByteSize) }
    else s
  let s := match s.entries.lookup identity with
    | some old => { s with entries := s.entries.erase identity, bytes := s.bytes - old.bytes }
    | none => s
  { s with
    bytes := s.bytes + insertion.entryBytes
    entries := s.entries.insert identity
      ⟨insertion.snapshot, insertion.capturedAt, insertion.entryBytes, s.useCounter⟩ }

def perform (s : CacheState γ) : Operation size → CacheState γ
  | .lookup key now => (s.read key now).2
  | .insertSnapshot insertion =>
      s.insertSnapshot insertion.ord insertion.key insertion.snapshot insertion.capturedAt
        insertion.snapshotBytes

/-- The state after some operations on an empty cache. -/
def after (operations : List (Operation size)) : CacheState γ := operations.foldl perform .empty

theorem insertSnapshot_eq (s : CacheState γ) (insertion : Insertion size) :
    s.perform (.insertSnapshot insertion) = (s.inserted insertion).evictToLimits insertion.ord := rfl

/-- What eviction does to the state before it, into which `key` was inserted last. -/
structure Evicts (before : CacheState γ) (key : String) (s : CacheState γ) : Prop where
  /-- The loop has come to its end. -/
  ended : s.overLimits = false
  kept : ∀ e ∈ s.entries.entries, e ∈ before.entries.entries
  /-- An entry that is evicted was not used after any that stays. -/
  oldest : ∀ e ∈ before.entries.entries, e ∈ s.entries.entries ∨
    ∀ e' ∈ s.entries.entries, e.2.lastUsed ≤ e'.2.lastUsed
  /-- The entry just inserted stays, unless it exceeds the budget alone. -/
  newest : ∀ e ∈ before.entries.entries, e.1 = key →
    e ∈ s.entries.entries ∨ contextCacheMaxBytes < e.2.bytes

end CacheState

/-! ## One pass of the eviction -/

namespace CacheState

variable {s : CacheState γ} {ord : IterOrder String} {key : String} {n : Nat}

/-- What every pass of the loop keeps holds at its end. -/
theorem evictLoop_induction {P : CacheState γ → Prop}
    (pass : ∀ s key, P s → s.overLimits = true → s.oldest ord = some key → P (s.evictOne ord key))
    (n : Nat) (first : P s) : P (evictLoop ord n s) := by
  induction n generalizing s with
  | zero => exact first
  | succ n ih =>
      unfold evictLoop
      split
      next above =>
        split
        next key chosen => exact ih (pass s key first above chosen)
        next => exact first
      next => exact first

/-- The entries and their charge, without aliases. -/
structure Charged (s : CacheState γ) : Prop where
  aliases : s.aliases = ∅
  bytes : s.bytes = (s.entries.entries.map (·.2.bytes)).sum

theorem iter_empty (ord : IterOrder String) : ord.iter (∅ : Map String String) = [] :=
  List.perm_nil.mp (ord.iter_perm ∅)

/-- A pass removes an entry that was used no later than any other. -/
theorem evictOne_eq (aliases : s.aliases = ∅) (chosen : s.oldest ord = some key) :
    ∃ entry, s.entries.lookup key = some entry ∧
      (∀ e ∈ s.entries.entries, entry.lastUsed ≤ e.2.lastUsed) ∧
      s.evictOne ord key =
        { s with entries := s.entries.erase key, bytes := s.bytes - entry.bytes } := by
  obtain ⟨e, least, rfl⟩ := Option.map_eq_some_iff.mp chosen
  have iterated := ord.iter_perm s.entries
  have there : e ∈ s.entries.entries := iterated.mem_iff.mp (List.argmin_mem least)
  have found : s.entries.lookup e.1 = some e.2 := mem_entries_iff.mp there
  refine ⟨e.2, found, fun e' member => ?_, ?_⟩
  · exact List.le_of_mem_argmin (f := fun e : Pair String (CacheEntry γ) => e.2.lastUsed)
      (iterated.mem_iff.mpr member) least
  · unfold evictOne
    simp only [found, aliases, iter_empty, List.filter_nil, List.map_nil, List.sum_nil, Nat.sub_zero]
    congr 1

theorem Charged.evictOne (h : s.Charged) (chosen : s.oldest ord = some key) :
    (s.evictOne ord key).Charged := by
  obtain ⟨entry, found, -, evicted⟩ := evictOne_eq h.aliases chosen
  have total := ((erase_perm found).map fun e => e.2.bytes).sum_nat
  rw [evicted]
  refine ⟨h.aliases, ?_⟩
  simp only [h.bytes, total, List.map_cons, List.sum_cons]
  omega

theorem Charged.evictLoop (h : s.Charged) (ord : IterOrder String) (n : Nat) :
    (CacheState.evictLoop ord n s).Charged :=
  evictLoop_induction (P := Charged) (fun _ _ charged _ chosen => charged.evictOne chosen) n h

/-! ## The eviction -/

/-- The states between the first and the last pass, where `newest` was used last of all. -/
structure Evicting (before : CacheState γ) (newest : Pair String (CacheEntry γ)) (s : CacheState γ) :
    Prop where
  charged : s.Charged
  counter : s.useCounter = before.useCounter
  kept : ∀ e ∈ s.entries.entries, e ∈ before.entries.entries
  oldest : ∀ e ∈ before.entries.entries, e ∈ s.entries.entries ∨
    ∀ e' ∈ s.entries.entries, e.2.lastUsed ≤ e'.2.lastUsed
  newest : newest ∈ s.entries.entries ∨ contextCacheMaxBytes < newest.2.bytes

theorem mem_erase {t : Map String (CacheEntry γ)} {e : Pair String (CacheEntry γ)} :
    e ∈ (t.erase key).entries ↔ e ∈ t.entries ∧ e.1 ≠ key := by
  rw [erase_entries, List.mem_filter, decide_eq_true_iff]

/-- Where the entry used last is chosen, it is the only one, and above the budget. -/
theorem over_of_newest {newest : Pair String (CacheEntry γ)} (h : s.Charged)
    (there : newest ∈ s.entries.entries)
    (last : ∀ e ∈ s.entries.entries, e.1 ≠ newest.1 → e.2.lastUsed < newest.2.lastUsed)
    (above : s.overLimits = true)
    (least : ∀ e ∈ s.entries.entries, newest.2.lastUsed ≤ e.2.lastUsed) :
    contextCacheMaxBytes < newest.2.bytes := by
  have found : s.entries.lookup newest.1 = some newest.2 := mem_entries_iff.mp there
  have others : (s.entries.erase newest.1).entries = [] := by
    refine List.eq_nil_iff_forall_not_mem.mpr fun e member => ?_
    obtain ⟨member, other⟩ := mem_erase.mp member
    exact absurd (least e member) (Nat.not_le.mpr (last e member other))
  have single := erase_perm found
  rw [others] at single
  have length := single.length_eq
  have total := (single.map fun e => e.2.bytes).sum_nat
  unfold overLimits at above
  rw [length, h.bytes, total] at above
  simpa [contextCacheMaxEntries] using above

theorem Evicting.evictOne {before : CacheState γ} {newest : Pair String (CacheEntry γ)}
    (last : ∀ e ∈ before.entries.entries, e.1 ≠ newest.1 → e.2.lastUsed < newest.2.lastUsed)
    (h : Evicting before newest s) (above : s.overLimits = true) (chosen : s.oldest ord = some key) :
    Evicting before newest (s.evictOne ord key) := by
  obtain ⟨entry, found, least, evicted⟩ := evictOne_eq h.charged.aliases chosen
  have charged := h.charged.evictOne chosen
  rw [evicted] at charged ⊢
  refine ⟨charged, h.counter, fun e member => h.kept e (mem_erase.mp member).1, fun e member => ?_, ?_⟩
  · rcases h.oldest e member with there | earlier
    · by_cases same : e.1 = key
      · have own : e.2 = entry := by
          have found' : s.entries.lookup e.1 = some e.2 := mem_entries_iff.mp there
          rw [same, found] at found'
          exact (Option.some.inj found').symm
        exact .inr fun e' member' => own ▸ least e' (mem_erase.mp member').1
      · exact .inl (mem_erase.mpr ⟨there, same⟩)
    · exact .inr fun e' member' => earlier e' (mem_erase.mp member').1
  · rcases h.newest with there | over_
    · by_cases same : newest.1 = key
      · have own : newest.2 = entry := by
          have found' : s.entries.lookup newest.1 = some newest.2 := mem_entries_iff.mp there
          rw [same, found] at found'
          exact (Option.some.inj found').symm
        exact .inr (over_of_newest h.charged there
          (fun e member other => last e (h.kept e member) other) above (own ▸ least))
      · exact .inl (mem_erase.mpr ⟨there, same⟩)
    · exact .inr over_

/-- The loop ends within the limits: without entries nothing is charged. -/
theorem evictToLimits_ended (h : s.Charged) (ord : IterOrder String) :
    (s.evictToLimits ord).overLimits = false := by
  rcases evictLoop_done ord _ s le_rfl with within | empty
  · exact within
  · have charged := h.evictLoop ord s.entries.entries.length
    unfold evictToLimits overLimits
    rw [charged.bytes, empty]
    rfl

theorem evictToLimits_evicting {before : CacheState γ} {newest : Pair String (CacheEntry γ)}
    (charged : before.Charged) (there : newest ∈ before.entries.entries)
    (last : ∀ e ∈ before.entries.entries, e.1 ≠ newest.1 → e.2.lastUsed < newest.2.lastUsed)
    (ord : IterOrder String) : Evicting before newest (before.evictToLimits ord) := by
  refine evictLoop_induction (P := Evicting before newest) ?_ _
    ⟨charged, rfl, fun _ member => member, fun _ member => .inl member, .inl there⟩
  intro s key evicting above chosen
  exact evicting.evictOne last above chosen

theorem Evicting.evicts {before : CacheState γ} {newest : Pair String (CacheEntry γ)}
    (h : Evicting before newest s) (there : newest ∈ before.entries.entries)
    (ended : s.overLimits = false) : Evicts before newest.1 s := by
  refine ⟨ended, h.kept, h.oldest, fun e member same => ?_⟩
  have own : e = newest := by
    have found : before.entries.lookup e.1 = some e.2 := mem_entries_iff.mp member
    have found' : before.entries.lookup newest.1 = some newest.2 := mem_entries_iff.mp there
    rw [same, found'] at found
    exact Sigma.ext same (heq_of_eq (Option.some.inj found).symm)
  rw [own]
  exact h.newest

/-! ## The operations -/

/-- What holds after `n` operations. -/
structure Kept (size : γ → Nat) (n : Nat) (s : CacheState γ) : Prop where
  charged : s.Charged
  costs : ∀ e ∈ s.entries.entries, e.2.bytes = entryCost size e
  counter : s.useCounter = n
  used : ∀ e ∈ s.entries.entries, e.2.lastUsed ≤ n
  within : s.overLimits = false

theorem empty_kept (size : γ → Nat) : Kept size 0 (empty : CacheState γ) where
  charged := ⟨rfl, rfl⟩
  costs _ member := by cases member
  counter := rfl
  used _ member := by cases member
  within := rfl

theorem Kept.nextUse (h : Kept size n s) (few : n + 1 < 2 ^ 64) : s.nextUse = n + 1 := by
  rw [CacheState.nextUse, h.counter, Nat.mod_eq_of_lt few]

theorem Kept.within_ (h : Kept size n s) : s.Within size := by
  have above := h.within
  simp only [overLimits, Bool.or_eq_false_iff, decide_eq_false_iff_not, Nat.not_lt] at above
  refine ⟨?_, above.2, above.1⟩
  rw [h.charged.bytes, cost, h.charged.aliases, List.map_congr_left h.costs]
  rfl

/-- A lookup sets the last use of one entry. -/
theorem Kept.read (h : Kept size n s) (few : n + 1 < 2 ^ 64) (key : String) (now : Nat) :
    Kept size (n + 1) (s.read key now).2 := by
  have noAlias : (s.aliases.lookup key).getD key = key := by
    rw [h.charged.aliases]
    rfl
  unfold CacheState.read
  simp only [h.nextUse few]
  generalize (s.aliases.lookup key).getD key = identity at noAlias
  subst noAlias
  cases found : s.entries.lookup identity with
  | none => exact ⟨⟨h.charged.aliases, h.charged.bytes⟩, h.costs, rfl,
      fun e member => Nat.le_succ_of_le (h.used e member), h.within⟩
  | some entry =>
      have split := erase_perm found
      have entry_ : (⟨identity, entry⟩ : Pair String (CacheEntry γ)) ∈ s.entries.entries :=
        mem_entries_iff.mpr found
      have entries : (s.entries.insert identity { entry with lastUsed := n + 1 }).entries =
          ⟨identity, { entry with lastUsed := n + 1 }⟩ :: (s.entries.erase identity).entries :=
        AList.entries_insert ..
      have others : ∀ e ∈ (s.entries.erase identity).entries, e ∈ s.entries.entries :=
        fun e member => (mem_erase.mp member).1
      have total := (split.map fun e => e.2.bytes).sum_nat
      have length := split.length_eq
      refine ⟨⟨h.charged.aliases, ?_⟩, ?_, rfl, ?_, ?_⟩
      · simp only [h.charged.bytes, entries, total, List.map_cons, List.sum_cons]
      · simp only [entries, List.forall_mem_cons]
        exact ⟨h.costs _ entry_, fun e member => h.costs e (others e member)⟩
      · simp only [entries, List.forall_mem_cons]
        exact ⟨le_rfl, fun e member => Nat.le_succ_of_le (h.used e (others e member))⟩
      · have within := h.within
        unfold overLimits at within ⊢
        simp only [entries]
        rw [length] at within
        exact within

/-- The entries of a cache into which a snapshot was inserted. -/
theorem Kept.inserted (h : Kept size n s) (few : n + 1 < 2 ^ 64) (insertion : Insertion size) :
    (s.inserted insertion).Charged ∧ (s.inserted insertion).useCounter = n + 1 ∧
      (s.inserted insertion).entries.entries =
        ⟨insertion.key, insertion.snapshot, insertion.capturedAt, insertion.entryBytes, n + 1⟩ ::
          (s.entries.erase insertion.key).entries := by
  have noAlias : s.aliases.lookup insertion.key = none := by
    rw [h.charged.aliases]
    rfl
  have fresh : insertion.key ∉ s.entries.erase insertion.key := by
    simp [AList.mem_erase]
  unfold CacheState.inserted
  simp only [noAlias, ne_eq, not_true_eq_false, if_false, h.nextUse few]
  cases found : s.entries.lookup insertion.key with
  | none =>
      have absent : insertion.key ∉ s.entries := AList.lookup_eq_none.mp found
      have same : (s.entries.erase insertion.key).entries = s.entries.entries :=
        List.kerase_of_notMem_keys absent
      have entries : (s.entries.insert insertion.key ⟨insertion.snapshot, insertion.capturedAt,
          insertion.entryBytes, n + 1⟩).entries = ⟨insertion.key, insertion.snapshot,
            insertion.capturedAt, insertion.entryBytes, n + 1⟩ :: s.entries.entries :=
        insert_perm absent _
      refine ⟨⟨h.charged.aliases, ?_⟩, rfl, by rw [same]; exact entries⟩
      simp only [entries, h.charged.bytes, List.map_cons, List.sum_cons]
      omega
  | some old =>
      have total := ((erase_perm found).map fun e => e.2.bytes).sum_nat
      have entries : ((s.entries.erase insertion.key).insert insertion.key ⟨insertion.snapshot,
          insertion.capturedAt, insertion.entryBytes, n + 1⟩).entries = ⟨insertion.key,
            insertion.snapshot, insertion.capturedAt, insertion.entryBytes, n + 1⟩ ::
              (s.entries.erase insertion.key).entries := insert_perm fresh _
      refine ⟨⟨h.charged.aliases, ?_⟩, rfl, entries⟩
      simp only [entries, h.charged.bytes, total, List.map_cons, List.sum_cons]
      omega

/-- An insertion keeps the invariant, and evicts as it should. -/
theorem Kept.insertSnapshot (h : Kept size n s) (few : n + 1 < 2 ^ 64) (insertion : Insertion size) :
    Kept size (n + 1) (s.perform (.insertSnapshot insertion)) ∧
      Evicts (s.inserted insertion) insertion.key (s.perform (.insertSnapshot insertion)) := by
  obtain ⟨charged, counter, entries⟩ := h.inserted few insertion
  rw [insertSnapshot_eq]
  generalize s.inserted insertion = before at charged counter entries
  have there : (⟨insertion.key, insertion.snapshot, insertion.capturedAt, insertion.entryBytes, n + 1⟩ :
      Pair String (CacheEntry γ)) ∈ before.entries.entries := entries ▸ .head _
  have others : ∀ e ∈ (s.entries.erase insertion.key).entries, e ∈ s.entries.entries :=
    fun e member => (mem_erase.mp member).1
  have used : ∀ e ∈ before.entries.entries, e.1 ≠ insertion.key → e.2.lastUsed < n + 1 := by
    rw [entries, List.forall_mem_cons]
    exact ⟨fun other => absurd rfl other,
      fun e member _ => Nat.lt_succ_of_le (h.used e (others e member))⟩
  have evicting := evictToLimits_evicting charged there used insertion.ord
  have ended := evictToLimits_ended charged insertion.ord
  refine ⟨⟨evicting.charged, fun e member => ?_, evicting.counter.trans counter, fun e member => ?_,
    ended⟩, evicting.evicts there ended⟩
  · have costs : ∀ e ∈ before.entries.entries, e.2.bytes = entryCost size e := by
      rw [entries, List.forall_mem_cons]
      exact ⟨rfl, fun e member => h.costs e (others e member)⟩
    exact costs e (evicting.kept e member)
  · have used : ∀ e ∈ before.entries.entries, e.2.lastUsed ≤ n + 1 := by
      rw [entries, List.forall_mem_cons]
      exact ⟨le_rfl, fun e member => Nat.le_succ_of_le (h.used e (others e member))⟩
    exact used e (evicting.kept e member)

theorem Kept.perform (h : Kept size n s) (few : n + 1 < 2 ^ 64) (operation : Operation size) :
    Kept size (n + 1) (s.perform operation) := by
  cases operation with
  | lookup key now => exact h.read few key now
  | insertSnapshot insertion => exact (h.insertSnapshot few insertion).1

theorem after_concat (operations : List (Operation size)) (operation : Operation size) :
    after (operations ++ [operation]) = (after operations).perform operation := by
  simp [after]

theorem after_kept {operations : List (Operation size)} (few : operations.length < 2 ^ 64) :
    Kept size operations.length (after operations) := by
  induction operations using List.reverseRecOn with
  | nil => exact empty_kept size
  | append_singleton operations operation ih =>
      rw [List.length_append, List.length_singleton] at few ⊢
      rw [after_concat]
      exact (ih (Nat.lt_of_succ_lt few)).perform few operation

/-- No addition of an insertion saturates a word of 64 bits, since a text has less than
`2 ^ 63` bytes. -/
theorem Within.insertion_lt (h : s.Within size) {insertion : Insertion size}
    (text : insertion.key.utf8ByteSize < 2 ^ 63) : s.bytes + insertion.entryBytes < 2 ^ 64 := by
  have budget := h.budget
  have snapshot : insertion.snapshotBytes ≤ contextSnapshotMaxBytes := by
    unfold Insertion.snapshotBytes
    cases stored : insertion.snapshot with
    | none => exact Nat.zero_le _
    | some context => exact insertion.accepted context stored
  unfold contextCacheMaxBytes at budget
  unfold contextSnapshotMaxBytes at snapshot
  unfold Insertion.entryBytes
  omega

end CacheState

open CacheState

def srvInsertion : Insertion (fun _ : Unit => 120) :=
  ⟨.id, "/srv", some (), 0, fun _ _ => by decide⟩

def srvOperations : List (Operation fun _ : Unit => 120) :=
  [.lookup "/srv" 0, .insertSnapshot srvInsertion]

end

end AgentOtelBridge.ContextCache
