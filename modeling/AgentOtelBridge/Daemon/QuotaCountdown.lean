import AgentOtelBridge.Daemon.QuotaBound

/-!
# The countdown of a quota

A quota file says how long it is to the reset from when it was written, and its age is
subtracted when it is read.  What is reported is less by the time that the daemon is up, unless
that is the longer one.  For a bucket that was in the table when the daemon started this is the
rest; for a file that was just read it is not.

`reset_iff` says when the two agree.  A bucket that is not harvested again is counted down in
any case.
-/

namespace AgentOtelBridge.Quota

open FiniteMap

/-! ## What is reported of a bucket -/

section

variable {host : Host} {engine : QuotaEngine} {order : IterOrder String} {now : Nat}
  {home : Option Home} {bucket : String} {snapshot : QuotaSnapshot}

/-- The seconds to the reset that are reported for a bucket. -/
def QuotaEngine.reportedReset (engine : QuotaEngine) (host : Host) (order : IterOrder String)
    (now : Nat) (home : Option Home) (bucket : String) : Option ℚ :=
  ((engine.snapshots host order now home).2.find? fun s => s.bucket = bucket).map
    QuotaSnapshot.secondsToReset

/-- What is reported of an entry after some whole seconds. -/
def countdown (elapsedSec : ℚ) (reset : ℚ) : ℚ :=
  if elapsedSec < reset then max (reset - remainder elapsedSec reset) 10 else reset

/-- The entry of a bucket is what is reported for it. -/
theorem reportedReset_eq (valid : AllValid engine.quotas)
    (found : (engine.refresh host now home).quotas.lookup bucket = some snapshot) :
    engine.reportedReset host order now home bucket =
      some (countdown (engine.elapsedSec now) snapshot.secondsToReset) := by
  have valid := valid.refresh host now home
  have member : ∀ s, s ∈ (engine.snapshots host order now home).2 ↔
      ∃ key entry, (engine.refresh host now home).quotas.lookup key = some entry ∧
        report (engine.elapsedSec now) now entry = s := by
    intro s
    rw [QuotaEngine.snapshots, (List.mergeSort_perm ..).mem_iff, List.mem_map]
    constructor
    · rintro ⟨entry, passed, rfl⟩
      exact ⟨entry.1, entry.2, mem_entries_iff.mp ((order.iter_perm _).mem_iff.mp passed), rfl⟩
    · rintro ⟨key, entry, stored, rfl⟩
      exact ⟨⟨key, entry⟩, (order.iter_perm _).mem_iff.mpr (mem_entries_iff.mpr stored), rfl⟩
  unfold QuotaEngine.reportedReset
  cases search : (engine.snapshots host order now home).2.find? fun s => s.bucket = bucket with
  | none =>
      have there := (member _).mpr ⟨bucket, snapshot, found, rfl⟩
      have other := List.find?_eq_none.mp search _ there
      exact absurd (decide_eq_true (valid bucket snapshot found).keyed) other
  | some s =>
      obtain ⟨key, entry, stored, rfl⟩ := (member s).mp (List.mem_of_find?_eq_some search)
      have hit := List.find?_some search
      have named : entry.bucket = bucket := of_decide_eq_true hit
      rw [← (valid key entry stored).keyed, named, found] at stored
      obtain rfl := Option.some.inj stored
      rfl

/-! ## A file that was read -/

/-- The time that the daemon is up changes nothing of what is reported. -/
def Timely (elapsedSec : Nat) (remaining : ℚ) : Prop :=
  if (elapsedSec : ℚ) < remaining then elapsedSec = 0 ∨ remaining ≤ 10 else 10 ≤ remaining

theorem remainder_of_lt {a b : ℚ} (nonneg : 0 ≤ a) (less : a < b) : remainder a b = a := by
  have floor : ⌊a / b⌋ = 0 := by
    rw [Int.floor_eq_zero_iff]
    exact ⟨div_nonneg nonneg (nonneg.trans less.le), (div_lt_one (nonneg.trans_lt less)).mpr less⟩
  rw [remainder, floor, Int.cast_zero, mul_zero, sub_zero]

/-- The rest is reported exactly if the time up changes nothing of it. -/
theorem countdown_eq_iff (elapsedSec : Nat) (remaining : ℚ) :
    countdown elapsedSec remaining = max 10 remaining ↔ Timely elapsedSec remaining := by
  unfold countdown Timely
  split
  next running =>
    rw [remainder_of_lt (Nat.cast_nonneg _) running]
    constructor
    · intro same
      by_contra other
      rw [not_or, not_le] at other
      have up : (0 : ℚ) < elapsedSec := Nat.cast_pos.mpr (Nat.pos_of_ne_zero other.1)
      rw [max_eq_right other.2.le] at same
      have less : max (remaining - elapsedSec) 10 < remaining := max_lt (sub_lt_self _ up) other.2
      exact absurd same less.ne
    · rintro (new | soon)
      · rw [new, Nat.cast_zero, sub_zero, max_comm]
      · have rest : remaining - elapsedSec ≤ 10 := (sub_le_self _ (Nat.cast_nonneg _)).trans soon
        rw [max_eq_right rest, max_eq_left soon]
  next =>
    rw [eq_comm, max_eq_right_iff]

theorem secondsToReset_readQuotaFile {file : QuotaFile} {parsed : Json} {written : Nat}
    (document : file.document host = some parsed) (modified : file.modified = some written)
    (past : written ≤ now) (young : ((now - written : Nat) : ℚ) / 1000000000 < rawReset host parsed)
    (read : readQuotaFile host now file = some snapshot) :
    snapshot.secondsToReset = rawReset host parsed - ((now - written : Nat) : ℚ) / 1000000000 := by
  have age : file.ageSec now = ((now - written : Nat) : ℚ) / 1000000000 := by
    rw [QuotaFile.ageSec, modified]
    exact if_pos past
  rw [readQuotaFile, document, Option.map_some] at read
  obtain rfl := Option.some.inj read
  simp only [age, if_pos young]
  exact if_pos (sub_pos.mpr young)

end

/-! ## A bucket that is not harvested -/

/-- No snapshot of a bucket is found by a call. -/
def Untouched (host : Host) (bucket : String) : Nat × Call → Prop
  | (now, .snapshots _ (some home)) =>
    ∀ snapshot ∈ harvested host now home ++ droppedIn host now home, snapshot.bucket ≠ bucket
  | _ => True

section

variable {host : Host} {engine : QuotaEngine} {bucket : String} {snapshot : QuotaSnapshot}
  {quotas : Table} {snapshots : List QuotaSnapshot}

/-- Insertions of other buckets. -/
theorem lookup_foldl_ne {insertion : Table → QuotaSnapshot → Table}
    (other : ∀ quotas snapshot, snapshot.bucket ≠ bucket →
      (insertion quotas snapshot).lookup bucket = quotas.lookup bucket)
    (others : ∀ snapshot ∈ snapshots, snapshot.bucket ≠ bucket) (quotas : Table) :
    (snapshots.foldl insertion quotas).lookup bucket = quotas.lookup bucket := by
  induction snapshots generalizing quotas with
  | nil => rfl
  | cons snapshot snapshots ih =>
      obtain ⟨first, others⟩ := List.forall_mem_cons.mp others
      rw [List.foldl_cons, ih others, other quotas snapshot first]

theorem lookup_insertSnapshot_ne (quotas : Table) (snapshot : QuotaSnapshot)
    (other : snapshot.bucket ≠ bucket) :
    (insertSnapshot quotas snapshot).lookup bucket = quotas.lookup bucket :=
  AList.lookup_insert_ne other.symm

theorem lookup_insertDropIn_ne (quotas : Table) (snapshot : QuotaSnapshot)
    (other : snapshot.bucket ≠ bucket) :
    (insertDropIn quotas snapshot).lookup bucket = quotas.lookup bucket := by
  unfold insertDropIn
  split
  · exact lookup_insertSnapshot_ne quotas snapshot other
  · rfl

theorem Untouched.refresh {now : Nat} {order : IterOrder String} {home : Option Home}
    (untouched : Untouched host bucket (now, .snapshots order home)) :
    (engine.refresh host now home).quotas.lookup bucket = engine.quotas.lookup bucket := by
  cases home with
  | none => rfl
  | some home =>
      obtain ⟨provided, dropped⟩ := List.forall_mem_append.mp untouched
      rw [QuotaEngine.refresh, lookup_foldl_ne lookup_insertDropIn_ne dropped,
        lookup_foldl_ne lookup_insertSnapshot_ne provided]

/-- The time to the reset of a bucket that is not harvested stays as it is. -/
theorem Untouched.perform {call : Nat × Call} (untouched : Untouched host bucket call)
    (found : engine.quotas.lookup bucket = some snapshot) :
    ∃ snapshot', (engine.perform host call).quotas.lookup bucket = some snapshot' ∧
      snapshot'.secondsToReset = snapshot.secondsToReset := by
  obtain ⟨now, call⟩ := call
  cases call with
  | snapshots order home => exact ⟨snapshot, untouched.refresh.trans found, rfl⟩
  | recordActivity agentName tokensUsed =>
      rw [QuotaEngine.perform, QuotaEngine.recordActivity]
      generalize agentNamed now agentName = agent
      by_cases own : bucket = agent.bucket
      · subst own
        have entry : engine.entryOf now agent = snapshot := by
          rw [QuotaEngine.entryOf, found, Option.getD_some]
        unfold QuotaEngine.recordAgent
        split
        · exact ⟨snapshot, found, rfl⟩
        · exact ⟨_, AList.lookup_insert _, by rw [entry]; rfl⟩
      · exact ⟨snapshot, (lookup_recordAgent_ne own tokensUsed).trans found, rfl⟩

theorem Untouched.run {calls : List (Nat × Call)}
    (untouched : ∀ call ∈ calls, Untouched host bucket call)
    (found : engine.quotas.lookup bucket = some snapshot) :
    ∃ snapshot', (engine.run host calls).quotas.lookup bucket = some snapshot' ∧
      snapshot'.secondsToReset = snapshot.secondsToReset := by
  induction calls generalizing engine snapshot with
  | nil => exact ⟨snapshot, found, rfl⟩
  | cons call calls ih =>
      obtain ⟨first, untouched⟩ := List.forall_mem_cons.mp untouched
      obtain ⟨next, found, same⟩ := first.perform found
      obtain ⟨last, found, same'⟩ := ih untouched found
      exact ⟨last, found, same'.trans same⟩

theorem bootTimeNs_run (engine : QuotaEngine) (calls : List (Nat × Call)) :
    (engine.run host calls).bootTimeNs = engine.bootTimeNs := by
  induction calls generalizing engine with
  | nil => rfl
  | cons call calls ih =>
      refine (ih (engine.perform host call)).trans ?_
      obtain ⟨now, call⟩ := call
      cases call with
      | snapshots order home => cases home <;> rfl
      | recordActivity agentName tokensUsed =>
          rw [QuotaEngine.perform, QuotaEngine.recordActivity, QuotaEngine.recordAgent]
          split <;> rfl

theorem elapsedSec_eq (engine : QuotaEngine) (now : Nat) :
    engine.elapsedSec now = (now - engine.bootTimeNs) / 1000000000 := by
  unfold QuotaEngine.elapsedSec
  split
  · rfl
  next before => rw [Nat.sub_eq_zero_of_le (Nat.not_lt.mp before), Nat.zero_div]

/-- The countdown does not rise within a period. -/
theorem countdown_antitone {reset : ℚ} {first second : Nat} (positive : 0 < reset)
    (later : first ≤ second) (period : ⌊(first : ℚ) / reset⌋ = ⌊(second : ℚ) / reset⌋) :
    countdown second reset ≤ countdown first reset := by
  have later : (first : ℚ) ≤ second := Nat.cast_le.mpr later
  unfold countdown
  by_cases running : (second : ℚ) < reset
  · have running' := later.trans_lt running
    rw [if_pos running, if_pos running', remainder_of_lt (Nat.cast_nonneg _) running,
      remainder_of_lt (Nat.cast_nonneg _) running']
    exact max_le_max_right 10 (sub_le_sub_left later reset)
  · have above : ¬ (first : ℚ) < reset := by
      intro running'
      have before : ⌊(first : ℚ) / reset⌋ = 0 := by
        rw [Int.floor_eq_zero_iff]
        exact ⟨div_nonneg (Nat.cast_nonneg _) positive.le, (div_lt_one positive).mpr running'⟩
      rw [before, eq_comm, Int.floor_eq_zero_iff] at period
      exact running ((div_lt_one positive).mp period.2)
    rw [if_neg running, if_neg above]

end

/-! ## The countdown of a run -/

/-- `{"seconds_to_reset":3600}`. -/
def hourText : List UInt8 := Text.asBytes "\x7b\"seconds_to_reset\":3600\x7d"

def hourDocument : Json := .obj [("seconds_to_reset", .num "3600")]

def hourHost : Host where
  parse bytes := if bytes = hourText then some hourDocument else none
  number text := if text = "3600" then 3600 else 0
  quotaBucket := none
  quotaGroup := none

/-- The daemon is up for 100 seconds when the file is written and read. -/
def hourNow : Nat := 100000000000

def hourFile : QuotaFile := ⟨some hourText, some hourNow⟩

def hourHome : Home where
  has path := path = ".codex" || path = ".codex/quota.json"
  file _ := hourFile
  environment _ := false
  sessions := none
  dropIns := none

theorem document_hourFile : hourFile.document hourHost = some hourDocument := by decide

theorem rawReset_hourDocument : rawReset hourHost hourDocument = 3600 := by
  have text : numberAt hourHost hourDocument "seconds_to_reset" "secondsToReset" =
      some (hourHost.number "3600") := rfl
  rw [rawReset, text, Option.getD_some]
  simp [hourHost]

end AgentOtelBridge.Quota
