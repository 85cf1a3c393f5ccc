import AgentOtelBridge.Daemon.Quota
import Mathlib.Data.Finset.Card
import Mathlib.Data.Finset.Lattice.Lemmas
import Mathlib.Tactic.Linarith

/-!
# The bounds of the quota table

What is stored is in range: `Valid` says that of an entry, and every operation keeps it.
Activity lowers its own bucket and no other.

The number of buckets is bounded where the engine looks at it, for activity and drop-ins.
The snapshots of providers are inserted as they are.  So the table stays within its bound
over a run exactly if at each refresh the buckets there are, together with those of the
providers, are not more than that.
-/

namespace AgentOtelBridge.Quota

open FiniteMap

/-! ## Clamping -/

section

variable {value low high : ℚ}

theorem clamp_mem (value : ℚ) (ordered : low ≤ high) :
    low ≤ clamp value low high ∧ clamp value low high ≤ high :=
  ⟨le_max_left .., max_le ordered (min_le_right ..)⟩

theorem clamp_le {bound : ℚ} (lower : low ≤ bound) (upper : value ≤ bound) :
    clamp value low high ≤ bound :=
  max_le lower ((min_le_left ..).trans upper)

end

/-! ## Valid entries -/

/-- What is stored of a snapshot: it is under its bucket, and in range. -/
structure Valid (bucket : String) (snapshot : QuotaSnapshot) : Prop where
  keyed : snapshot.bucket = bucket
  nonneg : 0 ≤ snapshot.remainingFraction
  le_one : snapshot.remainingFraction ≤ 1
  reset_pos : 0 < snapshot.secondsToReset

/-- Every entry of a table is valid. -/
def AllValid (quotas : Table) : Prop :=
  ∀ bucket snapshot, quotas.lookup bucket = some snapshot → Valid bucket snapshot

section

variable {host : Host} {now : Nat} {home : Home} {file : QuotaFile} {snapshot : QuotaSnapshot}
  {quotas : Table} {bucket : String}

theorem AllValid.empty : AllValid ∅ := by
  intro bucket snapshot found
  rw [AList.lookup_empty] at found
  cases found

theorem AllValid.insert (h : AllValid quotas) (valid : Valid bucket snapshot) :
    AllValid (quotas.insert bucket snapshot) := by
  intro key found lookup
  by_cases same : key = bucket
  · subst same
    rw [AList.lookup_insert] at lookup
    obtain rfl := Option.some.inj lookup
    exact valid
  · rw [AList.lookup_insert_ne same] at lookup
    exact h key found lookup

theorem pos_of_getD (reset : ℚ) {default : ℚ} (positive : 0 < default) :
    0 < if 0 < reset then reset else default := by
  split
  next given => exact given
  next => exact positive

theorem valid_readQuotaFile (read : readQuotaFile host now file = some snapshot) :
    Valid snapshot.bucket snapshot := by
  obtain ⟨parsed, -, rfl⟩ := Option.map_eq_some_iff.mp read
  obtain ⟨nonneg, leOne⟩ := clamp_mem _ (zero_le_one' ℚ)
  refine ⟨rfl, nonneg, leOne, ?_⟩
  exact pos_of_getD _ (by norm_num)

theorem valid_readExisting {path : String}
    (read : readExisting host now home path = some snapshot) : Valid snapshot.bucket snapshot := by
  unfold readExisting at read
  split at read
  · exact valid_readQuotaFile read
  · cases read

theorem valid_claudeSnapshot {fraction reset : ℚ} (nonneg : 0 ≤ fraction) (leOne : fraction ≤ 1)
    (positive : 0 < reset) : Valid "claude" (claudeSnapshot now fraction reset) :=
  ⟨rfl, nonneg, leOne, positive⟩

theorem valid_quota (now : Nat) (scan : SessionScan) : Valid "claude" (scan.quota now) := by
  unfold SessionScan.quota
  extract_lets diff usual
  have usual : Valid "claude" usual := by
    simp only [usual]
    split
    next tokens _ =>
      have range : (5 / 100 : ℚ) ≤ 1 := by norm_num
      obtain ⟨low, high⟩ := clamp_mem ((tokens : ℚ) / 20000000) range
      exact valid_claudeSnapshot (le_trans (by norm_num) low) high (by norm_num)
    next => exact valid_claudeSnapshot (by norm_num) (by norm_num) (by norm_num)
  split
  · split
    next limit => exact valid_claudeSnapshot le_rfl zero_le_one limit.1
    next => exact usual
  · exact usual

theorem valid_harvestQuota {provider : Provider}
    (read : provider.harvestQuota host now home = some snapshot) : Valid snapshot.bucket snapshot := by
  cases provider with
  | gemini =>
      rcases Option.or_eq_some_iff.mp read with first | ⟨-, second⟩
      · exact valid_readExisting first
      · exact valid_readExisting second
  | claude =>
      rcases Option.or_eq_some_iff.mp read with first | ⟨-, second⟩
      · exact valid_readExisting first
      · obtain ⟨files, -, second⟩ := Option.bind_eq_some_iff.mp second
        obtain ⟨file, -, second⟩ := Option.bind_eq_some_iff.mp second
        obtain ⟨lines, -, second⟩ := Option.bind_eq_some_iff.mp second
        obtain rfl := Option.some.inj second
        have valid := valid_quota now (lines.foldl (SessionScan.line host) {})
        exact valid.keyed.symm ▸ valid
  | codex | grok | pi => exact valid_readExisting read

theorem valid_fallbackBaseline (now : Nat) (provider : Provider) :
    Valid (provider.fallbackBaseline now).bucket (provider.fallbackBaseline now) := by
  cases provider <;>
    exact ⟨rfl, by norm_num [Provider.fallbackBaseline], by norm_num [Provider.fallbackBaseline],
      by norm_num [Provider.fallbackBaseline]⟩

theorem AllValid.insertSnapshot (h : AllValid quotas) (valid : Valid snapshot.bucket snapshot) :
    AllValid (insertSnapshot quotas snapshot) := h.insert valid

theorem AllValid.insertDropIn (h : AllValid quotas) (valid : Valid snapshot.bucket snapshot) :
    AllValid (insertDropIn quotas snapshot) := by
  unfold Quota.insertDropIn
  split
  · exact h.insert valid
  · exact h

/-- Entries are valid after insertions that keep that. -/
theorem AllValid.foldl {insertion : Table → QuotaSnapshot → Table} {snapshots : List QuotaSnapshot}
    (h : AllValid quotas) (valid : ∀ snapshot ∈ snapshots, Valid snapshot.bucket snapshot)
    (kept : ∀ quotas snapshot, AllValid quotas → Valid snapshot.bucket snapshot →
      AllValid (insertion quotas snapshot)) : AllValid (snapshots.foldl insertion quotas) := by
  induction snapshots generalizing quotas with
  | nil => exact h
  | cons snapshot snapshots ih =>
      obtain ⟨first, valid⟩ := List.forall_mem_cons.mp valid
      exact ih (kept quotas snapshot h first) valid

theorem valid_harvested (host : Host) (now : Nat) (home : Home) :
    ∀ snapshot ∈ harvested host now home, Valid snapshot.bucket snapshot := by
  intro snapshot member
  obtain ⟨provider, -, read⟩ := List.mem_filterMap.mp member
  exact valid_harvestQuota read

theorem valid_droppedIn (host : Host) (now : Nat) (home : Home) :
    ∀ snapshot ∈ droppedIn host now home, Valid snapshot.bucket snapshot := by
  intro snapshot member
  obtain ⟨dropIn, -, read⟩ := List.mem_filterMap.mp member
  split at read
  · exact valid_readQuotaFile read
  · cases read

end

/-! ## Every operation keeps entries valid -/

section

variable {host : Host} {now : Nat} {home : Option Home} {engine : QuotaEngine}
  {snapshot : QuotaSnapshot} {bucket agentName : String} {tokensUsed : Option UInt64}

theorem allValid_new (host : Host) (now : Nat) (home : Option Home) :
    AllValid (QuotaEngine.new host now home).quotas := by
  cases home with
  | none => exact .empty
  | some home =>
      have valid : ∀ provider : Provider, Valid
          ((provider.harvestQuota host now home).getD (provider.fallbackBaseline now)).bucket
          ((provider.harvestQuota host now home).getD (provider.fallbackBaseline now)) := by
        intro provider
        cases read : provider.harvestQuota host now home with
        | none => exact valid_fallbackBaseline now provider
        | some snapshot => exact valid_harvestQuota read
      have listed : ∀ snapshot ∈ (detectInstalledProviders home).map fun provider =>
          (provider.harvestQuota host now home).getD (provider.fallbackBaseline now),
          Valid snapshot.bucket snapshot := by
        intro snapshot member
        obtain ⟨provider, -, rfl⟩ := List.mem_map.mp member
        exact valid provider
      have mapped := AllValid.empty.foldl listed fun _ _ => .insertSnapshot
      rwa [List.foldl_map] at mapped

theorem agentNamed_burn_nonneg (now : Nat) (agentName : String) (tokensUsed : Option UInt64) :
    0 ≤ (agentNamed now agentName).burn tokensUsed := by
  have cost : 0 ≤ (agentNamed now agentName).burnPerToken := by
    unfold agentNamed
    split
    next provider _ => cases provider <;> norm_num [Provider.burnPerToken]
    next => norm_num
  cases tokensUsed with
  | none => norm_num [Agent.burn]
  | some tokens => exact mul_nonneg (Nat.cast_nonneg _) cost

theorem AllValid.entryOf (h : AllValid engine.quotas) (now : Nat) (agent : Agent) :
    Valid agent.bucket (engine.entryOf now agent) := by
  unfold QuotaEngine.entryOf
  cases found : engine.quotas.lookup agent.bucket with
  | none =>
      rw [Option.getD_none]
      exact ⟨rfl, by norm_num, by norm_num, by norm_num⟩
  | some snapshot =>
      rw [Option.getD_some]
      exact h _ snapshot found

theorem Valid.burnt (valid : Valid bucket snapshot) (now : Nat) (cost : ℚ) :
    Valid bucket (snapshot.burnt now cost) := by
  obtain ⟨nonneg, leOne⟩ := clamp_mem (snapshot.remainingFraction - cost) (zero_le_one' ℚ)
  exact ⟨valid.keyed, nonneg, leOne, valid.reset_pos⟩

/-- Activity costs something. -/
theorem Valid.burnt_le (valid : Valid bucket snapshot) (now : Nat) {cost : ℚ} (nonneg : 0 ≤ cost) :
    (snapshot.burnt now cost).remainingFraction ≤ snapshot.remainingFraction :=
  clamp_le valid.nonneg (sub_le_self _ nonneg)

theorem AllValid.recordAgent (h : AllValid engine.quotas) (now : Nat) (agent : Agent)
    (tokensUsed : Option UInt64) : AllValid (engine.recordAgent now agent tokensUsed).quotas := by
  unfold QuotaEngine.recordAgent
  split
  · exact h
  · exact h.insert ((h.entryOf now agent).burnt now _)

theorem AllValid.refresh (h : AllValid engine.quotas) (host : Host) (now : Nat)
    (home : Option Home) : AllValid (engine.refresh host now home).quotas := by
  cases home with
  | none => exact h
  | some home =>
      exact (h.foldl (valid_harvested host now home) fun _ _ => .insertSnapshot).foldl
        (valid_droppedIn host now home) fun _ _ => .insertDropIn

/-- What is reported of a valid entry is positive. -/
theorem report_pos (valid : Valid bucket snapshot) (elapsedSec : ℚ) (now : Nat) :
    0 < (report elapsedSec now snapshot).secondsToReset := by
  unfold report
  simp only
  split
  · exact lt_max_of_lt_right (by norm_num)
  · exact valid.reset_pos

end

/-! ## Activity -/

section

variable {engine : QuotaEngine} {now : Nat} {agent : Agent} {bucket : String}

/-- The agent's bucket is the only one that activity changes. -/
theorem lookup_recordAgent_ne (other : bucket ≠ agent.bucket) (tokensUsed : Option UInt64) :
    (engine.recordAgent now agent tokensUsed).quotas.lookup bucket =
      engine.quotas.lookup bucket := by
  unfold QuotaEngine.recordAgent
  split
  · rfl
  · exact AList.lookup_insert_ne other

/-- Activity does not raise what remains of a bucket. -/
theorem AllValid.recordAgent_le (h : AllValid engine.quotas) {tokensUsed : Option UInt64}
    (cost : 0 ≤ agent.burn tokensUsed) {snapshot : QuotaSnapshot}
    (found : engine.quotas.lookup bucket = some snapshot) :
    ∃ snapshot', (engine.recordAgent now agent tokensUsed).quotas.lookup bucket = some snapshot' ∧
      snapshot'.remainingFraction ≤ snapshot.remainingFraction := by
  by_cases own : bucket = agent.bucket
  · subst own
    have entry : engine.entryOf now agent = snapshot := by
      rw [QuotaEngine.entryOf, found, Option.getD_some]
    have present : ¬ (128 ≤ engine.quotas.keys.length ∧ agent.bucket ∉ engine.quotas) := by
      rintro ⟨-, absent⟩
      rw [← AList.lookup_eq_none, found] at absent
      cases absent
    rw [QuotaEngine.recordAgent, if_neg present, entry]
    exact ⟨_, AList.lookup_insert _, (h _ snapshot found).burnt_le now cost⟩
  · exact ⟨snapshot, (lookup_recordAgent_ne own tokensUsed).trans found, le_rfl⟩

end

/-! ## The number of buckets -/

section

variable {quotas : Table} {snapshot : QuotaSnapshot} {snapshots : List QuotaSnapshot}

/-- The buckets of a table. -/
def bucketsOf (quotas : Table) : Finset String := quotas.keys.toFinset

theorem card_bucketsOf (quotas : Table) : (bucketsOf quotas).card = quotas.keys.length :=
  List.toFinset_card_of_nodup quotas.keys_nodup

theorem bucketsOf_insert (quotas : Table) (bucket : String) (snapshot : QuotaSnapshot) :
    bucketsOf (quotas.insert bucket snapshot) = insert bucket (bucketsOf quotas) := by
  ext key
  rw [bucketsOf, List.mem_toFinset, Finset.mem_insert, bucketsOf, List.mem_toFinset]
  exact AList.mem_insert _

theorem mem_bucketsOf {bucket : String} : bucket ∈ bucketsOf quotas ↔ bucket ∈ quotas := by
  rw [bucketsOf, List.mem_toFinset]
  exact Iff.rfl

/-- The buckets of snapshots that are inserted as they are. -/
theorem bucketsOf_foldl_insertSnapshot (quotas : Table) (snapshots : List QuotaSnapshot) :
    bucketsOf (snapshots.foldl insertSnapshot quotas) =
      bucketsOf quotas ∪ (snapshots.map QuotaSnapshot.bucket).toFinset := by
  induction snapshots generalizing quotas with
  | nil => simp
  | cons snapshot snapshots ih =>
      rw [List.foldl_cons, ih, insertSnapshot, bucketsOf_insert, List.map_cons, List.toFinset_cons,
        Finset.insert_union, Finset.union_insert]

theorem bucketsOf_subset_insertDropIn (quotas : Table) (snapshot : QuotaSnapshot) :
    bucketsOf quotas ⊆ bucketsOf (insertDropIn quotas snapshot) := by
  unfold insertDropIn
  split
  · rw [insertSnapshot, bucketsOf_insert]
    exact Finset.subset_insert ..
  · exact Finset.Subset.refl _

theorem card_insertDropIn_le (bounded : (bucketsOf quotas).card ≤ 128) (snapshot : QuotaSnapshot) :
    (bucketsOf (insertDropIn quotas snapshot)).card ≤ 128 := by
  unfold insertDropIn
  split
  next room =>
    rw [insertSnapshot, bucketsOf_insert]
    rcases room with few | present
    · rw [← card_bucketsOf] at few
      exact (Finset.card_insert_le ..).trans few
    · rwa [Finset.insert_eq_of_mem (mem_bucketsOf.mpr present)]
  next => exact bounded

/-- Drop-ins leave a table within the bound if it was, and take nothing away. -/
theorem card_foldl_insertDropIn_le (quotas : Table) (snapshots : List QuotaSnapshot) :
    (bucketsOf (snapshots.foldl insertDropIn quotas)).card ≤ 128 ↔ (bucketsOf quotas).card ≤ 128 := by
  induction snapshots generalizing quotas with
  | nil => exact Iff.rfl
  | cons snapshot snapshots ih =>
      rw [List.foldl_cons, ih]
      constructor
      · exact (Finset.card_le_card (bucketsOf_subset_insertDropIn quotas snapshot)).trans
      · intro bounded
        exact card_insertDropIn_le bounded snapshot

end

/-! ## Runs -/

inductive Call where
  | recordActivity (agentName : String) (tokensUsed : Option UInt64)
  | snapshots (order : IterOrder String) (home : Option Home)

namespace QuotaEngine

def perform (host : Host) (engine : QuotaEngine) : Nat × Call → QuotaEngine
  | (now, .recordActivity agentName tokensUsed) => engine.recordActivity now agentName tokensUsed
  | (now, .snapshots order home) => (engine.snapshots host order now home).1

/-- The engine after some calls, each at its time. -/
def run (host : Host) (engine : QuotaEngine) (calls : List (Nat × Call)) : QuotaEngine :=
  calls.foldl (perform host) engine

theorem run_concat (host : Host) (engine : QuotaEngine) (calls : List (Nat × Call))
    (call : Nat × Call) : engine.run host (calls ++ [call]) = (engine.run host calls).perform host call := by
  rw [run, List.foldl_concat]
  rfl

/-- There is room for the buckets of the providers, beside those there are. -/
def HasRoom (host : Host) (engine : QuotaEngine) : Nat × Call → Prop
  | (now, .snapshots _ (some home)) =>
    (bucketsOf engine.quotas ∪
      ((harvested host now home).map QuotaSnapshot.bucket).toFinset).card ≤ 128
  | _ => True

/-- The table is bounded and in range, what is reported is positive, and activity is only of
its own bucket and does not raise it. -/
structure Sound (host : Host) (engine : QuotaEngine) : Prop where
  bounded : engine.quotas.keys.length ≤ 128
  inRange : ∀ bucket snapshot, engine.quotas.lookup bucket = some snapshot →
    0 ≤ snapshot.remainingFraction ∧ snapshot.remainingFraction ≤ 1
  reported : ∀ order now home, ∀ snapshot ∈ (engine.snapshots host order now home).2,
    0 < snapshot.secondsToReset
  lowered : ∀ now agentName tokensUsed bucket snapshot,
    engine.quotas.lookup bucket = some snapshot → ∃ snapshot',
      (engine.recordActivity now agentName tokensUsed).quotas.lookup bucket = some snapshot' ∧
        snapshot'.remainingFraction ≤ snapshot.remainingFraction
  others : ∀ now agentName tokensUsed bucket, bucket ≠ (agentNamed now agentName).bucket →
    (engine.recordActivity now agentName tokensUsed).quotas.lookup bucket =
      engine.quotas.lookup bucket

variable {host : Host} {engine : QuotaEngine} {call : Nat × Call} {calls : List (Nat × Call)}

theorem allValid_perform (h : AllValid engine.quotas) (call : Nat × Call) :
    AllValid (engine.perform host call).quotas := by
  obtain ⟨now, call⟩ := call
  cases call with
  | recordActivity agentName tokensUsed => exact h.recordAgent now _ tokensUsed
  | snapshots order home => exact h.refresh host now home

theorem allValid_run (h : AllValid engine.quotas) (calls : List (Nat × Call)) :
    AllValid (engine.run host calls).quotas := by
  induction calls generalizing engine with
  | nil => exact h
  | cons call calls ih => exact ih (allValid_perform h call)

/-- All but the bound holds of every table of valid entries. -/
theorem Sound.of_allValid (h : AllValid engine.quotas) (bounded : engine.quotas.keys.length ≤ 128) :
    engine.Sound host where
  bounded := bounded
  inRange bucket snapshot found := ⟨(h bucket snapshot found).nonneg, (h bucket snapshot found).le_one⟩
  reported order now home snapshot member := by
    obtain ⟨entry, passed, rfl⟩ := List.mem_map.mp ((List.mergeSort_perm ..).mem_iff.mp member)
    have stored := mem_entries_iff.mp ((order.iter_perm _).mem_iff.mp passed)
    exact report_pos (h.refresh host now home entry.1 entry.2 stored) _ now
  lowered now agentName tokensUsed bucket snapshot found :=
    h.recordAgent_le (agentNamed_burn_nonneg now agentName tokensUsed) found
  others now agentName tokensUsed bucket other := lookup_recordAgent_ne other tokensUsed

/-- A call keeps the bound exactly if there is room. -/
theorem perform_bounded_iff (bounded : engine.quotas.keys.length ≤ 128) :
    (engine.perform host call).quotas.keys.length ≤ 128 ↔ engine.HasRoom host call := by
  obtain ⟨now, call⟩ := call
  cases call with
  | recordActivity agentName tokensUsed =>
      refine iff_of_true ?_ trivial
      unfold perform recordActivity recordAgent
      simp only
      split
      next => exact bounded
      next room =>
        rw [not_and_or, Nat.not_le, not_not, ← card_bucketsOf] at room
        rw [← card_bucketsOf] at bounded ⊢
        rw [bucketsOf_insert]
        rcases room with few | present
        · exact (Finset.card_insert_le ..).trans few
        · rwa [Finset.insert_eq_of_mem (mem_bucketsOf.mpr present)]
  | snapshots order home =>
      cases home with
      | none => exact iff_of_true bounded trivial
      | some home =>
          rw [← card_bucketsOf]
          exact (card_foldl_insertDropIn_le ..).trans (by rw [bucketsOf_foldl_insertSnapshot]; rfl)

theorem new_bounded (host : Host) (now : Nat) (home : Option Home) :
    (new host now home).quotas.keys.length ≤ 128 := by
  cases home with
  | none => exact Nat.zero_le _
  | some home =>
      have buckets := bucketsOf_foldl_insertSnapshot ∅ ((detectInstalledProviders home).map
        fun provider => (provider.harvestQuota host now home).getD (provider.fallbackBaseline now))
      rw [List.foldl_map] at buckets
      rw [← card_bucketsOf, new, buckets]
      have empty : bucketsOf ∅ = ∅ := rfl
      rw [empty, Finset.empty_union]
      calc _ ≤ _ := List.toFinset_card_le _
        _ = (detectInstalledProviders home).length := by rw [List.length_map, List.length_map]
        _ ≤ builtinProviders.length := List.length_filter_le ..
        _ ≤ 128 := by decide

/-- The table is sound in every state of a run exactly if every refresh of it finds room. -/
theorem run_sound_iff (host : Host) (now : Nat) (home : Option Home) (calls : List (Nat × Call)) :
    (∀ n ≤ calls.length, ((new host now home).run host (calls.take n)).Sound host) ↔
      ∀ n call, calls[n]? = some call →
        ((new host now home).run host (calls.take n)).HasRoom host call := by
  have step : ∀ n call, calls[n]? = some call → (new host now home).run host (calls.take (n + 1)) =
      ((new host now home).run host (calls.take n)).perform host call := by
    intro n call found
    rw [List.take_add_one, found]
    exact run_concat ..
  constructor
  · intro sound n call found
    have inside := (List.getElem?_eq_some_iff.mp found).1
    have later := (sound (n + 1) inside).bounded
    rw [step n call found] at later
    exact (perform_bounded_iff (sound n (by omega)).bounded).mp later
  · intro room n length
    refine Sound.of_allValid (allValid_run (allValid_new host now home) _) ?_
    induction n with
    | zero => exact new_bounded host now home
    | succ n ih =>
        have found : calls[n]? = some calls[n] := List.getElem?_eq_getElem length
        rw [step n _ found]
        exact (perform_bounded_iff (ih (by omega))).mpr (room n _ found)

end QuotaEngine

/-! ## A file whose bucket changes -/

/-- A bucket of some length. -/
def sampleBucket (n : Nat) : String := String.ofList (List.replicate n 'a')

/-- `{"bucket":"a…a"}`. -/
def sampleText (n : Nat) : List UInt8 :=
  Text.asBytes "\x7b\"bucket\":\"" ++ List.replicate n 97 ++ Text.asBytes "\"\x7d"

def sampleHost : Host where
  parse bytes :=
    if bytes = sampleText (bytes.length - 13) then
      some (.obj [("bucket", .str (sampleBucket (bytes.length - 13)))])
    else none
  number _ := 0
  quotaBucket := none
  quotaGroup := none

/-- A HOME where the quota file of Codex names a bucket. -/
def sampleHome (n : Nat) : Home where
  has path := path = ".codex" || path = ".codex/quota.json"
  file _ := ⟨some (sampleText n), none⟩
  environment _ := false
  sessions := none
  dropIns := none

/-- Refreshes, before each of which the file has a new bucket. -/
def sampleCalls (n : Nat) : List (Nat × Call) :=
  (List.range n).map fun i => (0, .snapshots .id (some (sampleHome i)))

theorem length_sampleText (n : Nat) : (sampleText n).length = n + 13 := by
  have front : (Text.asBytes "\x7b\"bucket\":\"").length = 11 := by decide
  have back : (Text.asBytes "\"\x7d").length = 2 := by decide
  simp only [sampleText, List.length_append, List.length_replicate, front, back]
  omega

theorem sampleBucket_injective : Function.Injective sampleBucket := by
  intro m n same
  have lengths := congrArg List.length (String.ofList_injective same)
  rwa [List.length_replicate, List.length_replicate] at lengths

theorem document_sampleText {n : Nat} (short : n < 65000) :
    (⟨some (sampleText n), none⟩ : QuotaFile).document sampleHost =
      some (.obj [("bucket", .str (sampleBucket n))]) := by
  have sized : ¬ 65536 < (sampleText n).length := by
    rw [length_sampleText]
    omega
  have text : (sampleText n).length - 13 = n := by rw [length_sampleText, Nat.add_sub_cancel]
  simp only [QuotaFile.document, Option.bind_some, if_neg sized, sampleHost, text, if_true]

theorem harvested_sampleHome {n : Nat} (short : n < 65000) :
    (harvested sampleHost 0 (sampleHome n)).map QuotaSnapshot.bucket = [sampleBucket n] := by
  have installed : detectInstalledProviders (sampleHome n) = [.codex] := rfl
  have existing : (sampleHome n).has ".codex/quota.json" = true := rfl
  have file : (sampleHome n).file ".codex/quota.json" = ⟨some (sampleText n), none⟩ := rfl
  obtain ⟨snapshot, read, bucket⟩ : ∃ snapshot,
      Provider.codex.harvestQuota sampleHost 0 (sampleHome n) = some snapshot ∧
        snapshot.bucket = sampleBucket n := by
    rw [Provider.harvestQuota, readExisting, if_pos existing, file, readQuotaFile,
      document_sampleText short]
    exact ⟨_, rfl, rfl⟩
  rw [harvested, installed, List.filterMap_cons_some read, List.filterMap_nil, List.map_cons, bucket,
    List.map_nil]

/-- Each refresh adds the bucket that is new. -/
theorem bucketsOf_sampleCalls {n : Nat} (short : n ≤ 65000) :
    bucketsOf ((QuotaEngine.new sampleHost 0 none).run sampleHost (sampleCalls n)).quotas =
      ((List.range n).map sampleBucket).toFinset := by
  induction n with
  | zero => rfl
  | succ n ih =>
      have calls : sampleCalls (n + 1) =
          sampleCalls n ++ [(0, .snapshots .id (some (sampleHome n)))] := by
        rw [sampleCalls, List.range_succ, List.map_append]
        rfl
      have droppedIn : droppedIn sampleHost 0 (sampleHome n) = [] := rfl
      rw [calls, QuotaEngine.run_concat, QuotaEngine.perform, QuotaEngine.snapshots,
        QuotaEngine.refresh]
      simp only
      rw [droppedIn, List.foldl_nil, bucketsOf_foldl_insertSnapshot, harvested_sampleHome short,
        ih (by omega), List.range_succ, List.map_append, List.toFinset_append]
      rfl

/-- A file that names a new bucket 129 times takes the table beyond its bound. -/
theorem not_sound_sampleCalls : ¬ ∀ n ≤ (sampleCalls 129).length,
    ((QuotaEngine.new sampleHost 0 none).run sampleHost ((sampleCalls 129).take n)).Sound
      sampleHost := by
  intro sound
  have bounded := (sound _ le_rfl).bounded
  have distinct := (List.nodup_range (n := 129)).map sampleBucket_injective
  rw [List.take_length, ← card_bucketsOf, bucketsOf_sampleCalls (by decide),
    List.toFinset_card_of_nodup distinct, List.length_map, List.length_range] at bounded
  exact absurd bounded (by decide)

end AgentOtelBridge.Quota
