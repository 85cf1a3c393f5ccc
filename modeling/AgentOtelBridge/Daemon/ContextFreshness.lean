import AgentOtelBridge.Core.Input
import AgentOtelBridge.Daemon.ContextRefresh

/-!
# Freshness and isolation of the context cache

An event selects its workspace: its own absolute path, normalized lexically.  A
lookup asks the cache under that path, and a worker harvests the same path.

A traced run keeps what the cache forgets: every harvest that ended, with the
directory, the result and the time it was captured at.  The invariant says that
an entry under a key is the result of a harvest of the directory of that name.
What a lookup answers is read off the entry.
-/

namespace AgentOtelBridge.ContextCache

open FiniteMap Transition UnixPath

/-! ## The workspace of an event -/

/-- One component onto the buffer of `normalize_lexical`. -/
def normalizeStep (normalized : List Char) : Component → List Char
  | .curDir => normalized
  | .parentDir => pop normalized
  | .rootDir => push normalized ['/']
  | .normal name => push normalized name

def normalizeLexical (path : List Char) : List Char := (components path).foldl normalizeStep []

/-- The path an event says it works in: `workspace_path`, else the first of
`workspace_paths`. -/
def ownPath (input : AgentHookInput) : Option String :=
  input.workspacePath.or (input.workspacePaths.bind List.head?)

def selectWorkspace (input : AgentHookInput) : Option RefreshJob :=
  (ownPath input).bind fun raw =>
    if isAbsolute raw.toList then
      let normalized := String.ofList (normalizeLexical raw.toList)
      some ⟨normalized, normalized⟩
    else none

/-- Behind the root directory, normalizing is resolving names. -/
theorem foldl_normalizeStep {cs : List Component} (noRoot : .rootDir ∉ cs)
    (plainNames : ∀ name, .normal name ∈ cs → Plain name) {names : List (List Char)}
    (plain : ∀ name ∈ names, Plain name) :
    cs.foldl normalizeStep (render names) = render (cs.foldl resolve names) := by
  induction cs generalizing names with
  | nil => rfl
  | cons c cs ih =>
      have plainName : ∀ name, c = .normal name → Plain name :=
        fun name isName => plainNames name (isName ▸ .head _)
      have step : normalizeStep (render names) c = render (resolve names c) := by
        cases c with
        | rootDir => exact absurd (.head _) noRoot
        | curDir => rfl
        | parentDir => exact pop_render plain
        | normal name => exact push_render plain (plainName name rfl)
      rw [List.foldl_cons, List.foldl_cons, step]
      exact ih (fun h => noRoot (.tail _ h)) (fun name h => plainNames name (.tail _ h))
        (resolve_plain plain plainName)

theorem lexical_absolute (path : List Char) :
    lexical ('/' :: path) = (bodyOf (segments path)).foldl resolve [] := by
  rw [lexical, components_absolute]
  rfl

theorem plain_of_mem_lexical {path : List Char} {name : List Char}
    (membership : name ∈ lexical ('/' :: path)) : Plain name := by
  rw [lexical_absolute] at membership
  exact foldl_resolve_plain
    (fun _ h => plain_of_mem_bodyOf (fun _ => not_mem_of_mem_segments) h)
    (fun _ h => absurd h List.not_mem_nil) name membership

/-- The normalization of an absolute path is the path of its resolved names. -/
theorem normalizeLexical_absolute (path : List Char) :
    normalizeLexical ('/' :: path) = render (lexical ('/' :: path)) := by
  have noRoot : .rootDir ∉ bodyOf (segments path) := by
    intro membership
    obtain ⟨seg, -, isRoot⟩ := List.mem_map.mp membership
    unfold component at isRoot
    split at isRoot <;> cases isRoot
  have start : normalizeStep [] .rootDir = render [] := rfl
  rw [lexical_absolute, normalizeLexical, components_absolute, List.foldl_cons, start]
  exact foldl_normalizeStep noRoot
    (fun _ h => plain_of_mem_bodyOf (fun _ => not_mem_of_mem_segments) h)
    (fun _ h => absurd h List.not_mem_nil)

theorem exists_of_isAbsolute {path : List Char} (absolute : isAbsolute path = true) :
    ∃ rest, path = '/' :: rest := by
  cases path with
  | nil => cases absolute
  | cons c rest =>
      obtain rfl : c = '/' := by simpa [isAbsolute] using absolute
      exact ⟨rest, rfl⟩

/-- What is selected: the event's own absolute path, normalized. -/
theorem selectWorkspace_some {input : AgentHookInput} {job : RefreshJob}
    (selected : selectWorkspace input = some job) :
    ∃ raw, ownPath input = some raw ∧ isAbsolute raw.toList = true ∧ job.key = job.path ∧
      job.path = .ofList (render (lexical raw.toList)) := by
  obtain ⟨raw, own, branch⟩ := Option.bind_eq_some_iff.mp selected
  split at branch
  next absolute =>
    obtain ⟨rest, split_⟩ := exists_of_isAbsolute absolute
    cases branch
    exact ⟨raw, own, absolute, rfl, by rw [split_, normalizeLexical_absolute]⟩
  · cases branch

/-- Two events share a key only if their paths resolve to the same names. -/
theorem selectWorkspace_key_inj {input other : AgentHookInput} {job job' : RefreshJob}
    (selected : selectWorkspace input = some job) (selected' : selectWorkspace other = some job')
    (same : job.key = job'.key) :
    ∃ raw raw', ownPath input = some raw ∧ ownPath other = some raw' ∧
      lexical raw.toList = lexical raw'.toList := by
  obtain ⟨raw, own, absolute, key, path⟩ := selectWorkspace_some selected
  obtain ⟨raw', own', absolute', key', path'⟩ := selectWorkspace_some selected'
  refine ⟨raw, raw', own, own', ?_⟩
  obtain ⟨rest, split_⟩ := exists_of_isAbsolute absolute
  obtain ⟨rest', split_'⟩ := exists_of_isAbsolute absolute'
  rw [key, key', path, path', split_, split_'] at same
  rw [split_, split_']
  exact render_injective (fun _ => plain_of_mem_lexical) (fun _ => plain_of_mem_lexical)
    (String.ofList_injective same)

/-! ## Traced runs -/

/-- A harvest that ended. -/
structure Harvest (γ : Type*) where
  dir : String
  result : Option γ
  capturedAt : Nat

/-- A cache, the harvests that ended and the time of the last lookup. -/
structure Traced (γ : Type*) where
  cache : Cache γ
  log : List (Harvest γ)
  clock : Nat

variable {γ : Type*}

namespace Traced

def new : Traced γ := ⟨.new, [], 0⟩

/-- The lookup of an event, up to `schedule`. -/
def lookup (s : Traced γ) (input : AgentHookInput) (now : Nat) : ContextLookup γ × Traced γ :=
  match selectWorkspace input with
  | none => (⟨none, .missing, none, .invalidWorkspace⟩, { s with clock := now })
  | some job =>
      ((answer (s.cache.state.read job.key now).1).1,
        { s with cache := s.cache.lookup job now, clock := now })

/-- The end of a worker's job, with its harvest. -/
def settle (size : γ → Nat) (s : Traced γ) (ord : IterOrder String)
    (i : Fin contextRefreshWorkers) (job : RefreshJob) (result : Option γ) (capturedAt : Nat) :
    Traced γ :=
  { s with
    cache := s.cache.settle size ord i job result capturedAt
    log := s.log ++ [⟨job.path, result, capturedAt⟩] }

/-- One step of a traced run.  The lookups are those of events, at times that do
not decrease; the end of a job is logged; the other steps are those of the cache. -/
inductive Step (size : γ → Nat) (s : Traced γ) : Traced γ → Prop where
  | lookup (input : AgentHookInput) {now : Nat} (later : s.clock ≤ now) :
      Step size s (s.lookup input now).2
  | settle {i : Fin contextRefreshWorkers} {job : RefreshJob} (ord : IterOrder String)
      (result : Option γ) (capturedAt : Nat) (at_ : s.cache.workers i = .harvesting job) :
      Step size s (s.settle size ord i job result capturedAt)
  | move {cache : Cache γ} (step : Cache.Step size s.cache cache)
      (noLookup : ∀ job now, cache ≠ s.cache.lookup job now)
      (noSettle : ∀ i job ord result capturedAt, s.cache.workers i = .harvesting job →
        cache ≠ s.cache.settle size ord i job result capturedAt) :
      Step size s { s with cache := cache }

/-- Every step of the cache is a lookup or a step of a traced run. -/
theorem Step.of_cache {size : γ → Nat} {s : Traced γ} {cache : Cache γ}
    (step : Cache.Step size s.cache cache) :
    (∃ job now, cache = s.cache.lookup job now) ∨ ∃ s', Step size s s' ∧ s'.cache = cache := by
  rcases Classical.em (∃ job now, cache = s.cache.lookup job now) with isLookup | noLookup
  · exact .inl isLookup
  · right
    rcases Classical.em (∃ i job ord result capturedAt, s.cache.workers i = .harvesting job ∧
        cache = s.cache.settle size ord i job result capturedAt) with isSettle | noSettle
    · obtain ⟨i, job, ord, result, capturedAt, at_, rfl⟩ := isSettle
      exact ⟨_, .settle ord result capturedAt at_, rfl⟩
    · refine ⟨_, .move step (fun job now same => noLookup ⟨job, now, same⟩) ?_, rfl⟩
      intro i job ord result capturedAt at_ same
      exact noSettle ⟨i, job, ord, result, capturedAt, at_, same⟩

end Traced

/-! ## Jobs name what they harvest -/

/-- The key of a job is the path it harvests. -/
def RefreshJob.Genuine (job : RefreshJob) : Prop := job.key = job.path

/-- The job a caller still sends. -/
def Caller.job? : Caller → Option RefreshJob
  | .scheduling job _ => some job
  | .sending job => some job
  | _ => none

/-- Every job, wherever it is, is genuine. -/
structure Cache.Genuine (s : Cache γ) : Prop where
  callers : ∀ c ∈ s.callers, ∀ job, c.job? = some job → job.Genuine
  queue : ∀ job ∈ s.queue, job.Genuine
  workers : ∀ i job, (s.workers i).job? = some job → job.Genuine

theorem CacheState.admitJob_kept (s : CacheState γ) (key : String) (now : Nat) :
    (s.admitJob key now).2.entries = s.entries ∧ (s.admitJob key now).2.aliases = s.aliases := by
  unfold CacheState.admitJob
  split
  · exact ⟨rfl, rfl⟩
  · split <;> exact ⟨rfl, rfl⟩

namespace Cache

theorem Genuine.lookup {s : Cache γ} (h : s.Genuine) {job : RefreshJob} (genuine : job.Genuine)
    (now : Nat) : (s.lookup job now).Genuine := by
  obtain ⟨-, queue, workers, callers⟩ := s.lookup_cases job now
  refine ⟨?_, queue ▸ h.queue, workers ▸ h.workers⟩
  intro c membership held isJob
  rcases callers with same | scheduled
  · exact h.callers c (same ▸ membership) held isJob
  · rw [scheduled] at membership
    rcases List.mem_cons.mp membership with rfl | old
    · obtain rfl : job = held := by simpa [Caller.job?] using isJob
      exact genuine
    · exact h.callers c old held isJob

/-- The callers around one that moves on stay. -/
theorem Genuine.moveCaller {s : Cache γ} (h : s.Genuine) {before after : List Caller} {c c' : Caller}
    (callers : s.callers = before ++ c :: after)
    (sameJob : ∀ job, c'.job? = some job → c.job? = some job) :
    ∀ d ∈ before ++ c' :: after, ∀ job, d.job? = some job → job.Genuine := by
  intro d membership job isJob
  have all := h.callers
  rw [callers] at all
  rcases List.mem_append.mp membership with inBefore | rest
  · exact all d (List.mem_append_left _ inBefore) job isJob
  · rcases List.mem_cons.mp rest with rfl | inAfter
    · exact all c (by simp) job (sameJob job isJob)
    · exact all d (by simp [inAfter]) job isJob

theorem Genuine.dropCaller {s : Cache γ} (h : s.Genuine) {before after : List Caller} {c : Caller}
    (callers : s.callers = before ++ c :: after) :
    ∀ d ∈ before ++ after, ∀ job, d.job? = some job → job.Genuine := by
  intro d membership job isJob
  apply h.callers d _ job isJob
  rw [callers]
  rcases List.mem_append.mp membership with inBefore | inAfter
  · exact List.mem_append_left _ inBefore
  · exact List.mem_append_right _ (.tail _ inAfter)

/-- A worker moves on with a genuine job, or without one. -/
theorem Genuine.moveWorker {s : Cache γ} (h : s.Genuine) (i : Fin contextRefreshWorkers)
    {w : WorkerAt} (genuine : ∀ job, w.job? = some job → job.Genuine) :
    ∀ j job, (Function.update s.workers i w j).job? = some job → job.Genuine := by
  intro j job isJob
  rcases Decidable.em (j = i) with rfl | other
  · rw [Function.update_self] at isJob
    exact genuine job isJob
  · rw [Function.update_of_ne other] at isJob
    exact h.workers j job isJob

/-- A step that is no lookup makes no new job. -/
theorem Step.genuine {size : γ → Nat} {s s' : Cache γ} (h : s.Genuine) (step : Step size s s')
    (noLookup : ∀ job now, s' ≠ s.lookup job now) : s'.Genuine := by
  cases step with
  | lookup job now => exact absurd rfl (noLookup job now)
  | @admitJob before after job now callers =>
      obtain ⟨queue, workers, ⟨-, dropped⟩ | ⟨-, -, inserted⟩⟩ := s.admit_cases before after job now
      · exact ⟨dropped ▸ h.dropCaller callers, queue ▸ h.queue, workers ▸ h.workers⟩
      · exact ⟨inserted ▸ h.moveCaller callers fun _ => id, queue ▸ h.queue, workers ▸ h.workers⟩
  | @trySend before after job callers =>
      have genuine : job.Genuine := h.callers (.sending job) (by rw [callers]; simp) job rfl
      unfold Cache.trySend
      split
      · refine ⟨h.moveCaller callers fun _ none => absurd none (Option.some_ne_none _).symm, ?_, h.workers⟩
        intro sent membership
        rcases List.mem_append.mp membership with old | new
        · exact h.queue sent old
        · obtain rfl : sent = job := by simpa using new
          exact genuine
      · exact ⟨h.moveCaller callers fun _ none => absurd none (Option.some_ne_none _).symm, h.queue, h.workers⟩
  | countQueued callers => exact ⟨h.moveCaller callers fun _ none => absurd none (Option.some_ne_none _).symm, h.queue, h.workers⟩
  | countKey callers => exact ⟨h.dropCaller callers, h.queue, h.workers⟩
  | remove callers => exact ⟨h.moveCaller callers fun _ none => absurd none (Option.some_ne_none _).symm, h.queue, h.workers⟩
  | countFull callers => exact ⟨h.dropCaller callers, h.queue, h.workers⟩
  | @recv i job rest _ queue =>
      have genuine : job.Genuine := h.queue job (by rw [queue]; exact .head _)
      refine ⟨h.callers, fun held membership => h.queue held (by rw [queue]; exact .tail _ membership),
        h.moveWorker i ?_⟩
      intro held isJob
      obtain rfl : job = held := by simpa [WorkerAt.job?] using isJob
      exact genuine
  | @announce i job now at_ =>
      refine ⟨h.callers, h.queue, h.moveWorker i ?_⟩
      intro held isJob
      exact h.workers i held (by rw [at_]; exact isJob)
  | @uncountKey i job at_ =>
      refine ⟨h.callers, h.queue, h.moveWorker i ?_⟩
      intro held isJob
      exact h.workers i held (by rw [at_]; exact isJob)
  | @settle i job ord result capturedAt _ =>
      obtain ⟨-, queue, callers, workers⟩ := settle_facts size s ord i job result capturedAt
      exact ⟨callers ▸ h.callers, queue ▸ h.queue, workers ▸ h.moveWorker i fun _ none => absurd none (Option.some_ne_none _).symm⟩

/-- A step that is no lookup and ends no job leaves what is cached. -/
theorem Step.kept {size : γ → Nat} {s s' : Cache γ} (step : Step size s s')
    (noLookup : ∀ job now, s' ≠ s.lookup job now)
    (noSettle : ∀ i job ord result capturedAt, s.workers i = .harvesting job →
      s' ≠ s.settle size ord i job result capturedAt) :
    s'.state.entries = s.state.entries ∧ s'.state.aliases = s.state.aliases := by
  cases step with
  | lookup job now => exact absurd rfl (noLookup job now)
  | @admitJob before after job now _ =>
      have state : (s.admitJob before after job now).state = (s.state.admitJob job.key now).2 := by
        unfold Cache.admitJob
        obtain ⟨admission, state⟩ := s.state.admitJob job.key now
        cases admission <;> rfl
      rw [state]
      exact s.state.admitJob_kept job.key now
  | trySend _ =>
      unfold Cache.trySend
      split <;> exact ⟨rfl, rfl⟩
  | countQueued _ => exact ⟨rfl, rfl⟩
  | countKey _ => exact ⟨rfl, rfl⟩
  | remove _ => exact ⟨rfl, rfl⟩
  | countFull _ => exact ⟨rfl, rfl⟩
  | recv _ _ => exact ⟨rfl, rfl⟩
  | announce _ _ => exact ⟨rfl, rfl⟩
  | uncountKey _ => exact ⟨rfl, rfl⟩
  | settle ord result capturedAt at_ => exact absurd rfl (noSettle _ _ ord result capturedAt at_)

end Cache

/-! ## Entries are harvests -/

/-- No key has another name, and an entry is the result of a logged harvest of the
directory its key names. -/
structure CacheState.Explained (s : CacheState γ) (log : List (Harvest γ)) : Prop where
  aliases : s.aliases = ∅
  entries : ∀ key entry, s.entries.lookup key = some entry →
    ∃ harvest ∈ log, harvest.dir = key ∧ harvest.result = entry.snapshot ∧
      harvest.capturedAt = entry.capturedAt

namespace CacheState.Explained

variable {s : CacheState γ} {log : List (Harvest γ)}

theorem mono (h : s.Explained log) {more : List (Harvest γ)} (kept : ∀ harvest ∈ log, harvest ∈ more) :
    s.Explained more where
  aliases := h.aliases
  entries := by
    intro key entry stored
    obtain ⟨harvest, membership, facts⟩ := h.entries key entry stored
    exact ⟨harvest, kept harvest membership, facts⟩

/-- What is read under a key is a logged harvest of that directory, and its age is
the time since it was captured. -/
theorem read (h : s.Explained log) (key : String) (now : Nat) :
    (s.read key now).2.Explained log ∧
      ∀ snapshot age, (s.read key now).1 = some (snapshot, age) →
        ∃ harvest ∈ log, harvest.dir = key ∧ harvest.result = snapshot ∧
          age = now - harvest.capturedAt := by
  have own : (s.aliases.lookup key).getD key = key := by
    rw [h.aliases]
    rfl
  unfold CacheState.read
  simp only
  generalize (s.aliases.lookup key).getD key = identity at own
  obtain rfl : identity = key := own
  cases stored : s.entries.lookup identity with
  | none => exact ⟨⟨h.aliases, h.entries⟩, nofun⟩
  | some entry =>
      obtain ⟨harvest, membership, dir, result, capturedAt⟩ := h.entries identity entry stored
      refine ⟨⟨h.aliases, ?_⟩, ?_⟩
      · intro other entry' stored'
        rcases Decidable.em (other = identity) with rfl | different
        · rw [AList.lookup_insert] at stored'
          cases stored'
          exact ⟨harvest, membership, dir, result, capturedAt⟩
        · rw [AList.lookup_insert_ne different] at stored'
          exact h.entries other entry' stored'
      · intro snapshot age answered
        cases answered
        exact ⟨harvest, membership, dir, result, by rw [capturedAt]⟩

theorem evictOne (h : s.Explained log) (ord : IterOrder String) (oldest : String) :
    (s.evictOne ord oldest).Explained log where
  aliases := by
    have filtered : (s.evictOne ord oldest).aliases.entries =
        s.aliases.entries.filter fun e => e.2 ≠ oldest := by
      unfold CacheState.evictOne
      simp only
      cases s.entries.lookup oldest <;> rfl
    apply AList.ext
    rw [filtered, h.aliases]
    rfl
  entries := by
    intro key entry found
    apply h.entries key entry
    unfold CacheState.evictOne at found
    simp only at found
    cases stored : s.entries.lookup oldest with
    | none =>
        rw [stored] at found
        exact found
    | some old =>
        rw [stored] at found
        rcases Decidable.em (key = oldest) with rfl | different
        · rw [AList.lookup_erase] at found
          cases found
        · rwa [AList.lookup_erase_ne different] at found

theorem evictLoop (ord : IterOrder String) (n : Nat) :
    ∀ {s : CacheState γ}, s.Explained log → (CacheState.evictLoop ord n s).Explained log := by
  induction n with
  | zero => exact id
  | succ n ih =>
      intro s h
      unfold CacheState.evictLoop
      split
      · split
        next key _ => exact ih (h.evictOne ord key)
        next => exact h
      · exact h

/-- The snapshot of a harvest that is logged is stored under its directory. -/
theorem insertSnapshot (h : s.Explained log) (ord : IterOrder String) (harvest : Harvest γ)
    (logged : harvest ∈ log) (bytes : Nat) :
    (s.insertSnapshot ord harvest.dir harvest.result harvest.capturedAt bytes).Explained log := by
  unfold CacheState.insertSnapshot
  apply evictLoop
  have noAlias : s.aliases.lookup harvest.dir = none := by
    rw [h.aliases]
    rfl
  simp only [noAlias, ne_eq, not_true_eq_false, if_false]
  have stored : ∀ t : Map String (CacheEntry γ),
      (∀ key, key ≠ harvest.dir → t.lookup key = s.entries.lookup key) →
      ∀ bytes lastUsed key entry,
        (t.insert harvest.dir ⟨harvest.result, harvest.capturedAt, bytes, lastUsed⟩).lookup key =
          some entry →
        ∃ harvest ∈ log, harvest.dir = key ∧ harvest.result = entry.snapshot ∧
          harvest.capturedAt = entry.capturedAt := by
    intro t others bytes lastUsed key entry found
    rcases Decidable.em (key = harvest.dir) with rfl | different
    · rw [AList.lookup_insert] at found
      cases found
      exact ⟨harvest, logged, rfl, rfl, rfl⟩
    · rw [AList.lookup_insert_ne different, others key different] at found
      exact h.entries key entry found
  cases s.entries.lookup harvest.dir with
  | none => exact ⟨h.aliases, stored _ (fun _ _ => rfl) _ _⟩
  | some old => exact ⟨h.aliases, stored _ (fun _ different => AList.lookup_erase_ne different) _ _⟩

/-- A job that ends logs its harvest and stores no more than that. -/
theorem settle (h : s.Explained log) (size : γ → Nat) (ord : IterOrder String)
    (i : Fin contextRefreshWorkers) (dir : String) (result : Option γ) (capturedAt : Nat) :
    (s.settle size ord i dir result capturedAt).2.Explained (log ++ [⟨dir, result, capturedAt⟩]) := by
  have wider : s.Explained (log ++ [⟨dir, result, capturedAt⟩]) :=
    h.mono fun _ membership => List.mem_append_left _ membership
  have freed : ({ s with
      workerStarted := Function.update s.workerStarted i none
      pending := s.pending.erase dir } : CacheState γ).Explained
        (log ++ [⟨dir, result, capturedAt⟩]) := ⟨wider.aliases, wider.entries⟩
  have logged : (⟨dir, result, capturedAt⟩ : Harvest γ) ∈ log ++ [⟨dir, result, capturedAt⟩] := by
    simp
  unfold CacheState.settle
  cases result with
  | none => exact freed.insertSnapshot ord _ logged 0
  | some snapshot =>
      simp only
      split
      · exact freed
      · exact freed.insertSnapshot ord _ logged (size snapshot)

end CacheState.Explained

/-! ## Freshness and isolation -/

namespace Traced

structure Inv (s : Traced γ) : Prop where
  genuine : s.cache.Genuine
  explained : s.cache.state.Explained s.log

theorem new_inv : (new : Traced γ).Inv where
  genuine := ⟨nofun, nofun, nofun⟩
  explained := ⟨rfl, nofun⟩

theorem Inv.lookup {s : Traced γ} (h : s.Inv) (input : AgentHookInput) (now : Nat) :
    (s.lookup input now).2.Inv := by
  unfold Traced.lookup
  cases selected : selectWorkspace input with
  | none => exact ⟨h.genuine, h.explained⟩
  | some job =>
      obtain ⟨-, -, -, genuine, -⟩ := selectWorkspace_some selected
      refine ⟨h.genuine.lookup genuine now, ?_⟩
      have state : (s.cache.lookup job now).state = (s.cache.state.read job.key now).2 := by
        unfold Cache.lookup
        simp only
        split <;> rfl
      show (s.cache.lookup job now).state.Explained s.log
      rw [state]
      exact (h.explained.read job.key now).1

theorem Step.inv {size : γ → Nat} {s s' : Traced γ} (h : s.Inv) (step : Step size s s') : s'.Inv := by
  cases step with
  | lookup input later => exact h.lookup input _
  | @settle i job ord result capturedAt at_ =>
      have genuine : job.Genuine := h.genuine.workers i job (by rw [at_]; rfl)
      refine ⟨?_, ?_⟩
      · obtain ⟨-, queue, callers, workers⟩ :=
          Cache.settle_facts size s.cache ord i job result capturedAt
        exact ⟨callers ▸ h.genuine.callers, queue ▸ h.genuine.queue,
          workers ▸ h.genuine.moveWorker i nofun⟩
      · have settled := h.explained.settle size ord i job.key result capturedAt
        rwa [show (⟨job.key, result, capturedAt⟩ : Harvest γ) = ⟨job.path, result, capturedAt⟩ from
          congrArg (Harvest.mk · result capturedAt) genuine] at settled
  | move step noLookup noSettle =>
      obtain ⟨entries, aliases⟩ := step.kept noLookup noSettle
      refine ⟨step.genuine h.genuine noLookup, ?_, ?_⟩
      · show _ = _
        rw [aliases]
        exact h.explained.aliases
      · intro key entry found
        rw [entries] at found
        exact h.explained.entries key entry found

/-- A worker harvested this directory, at most so long before. -/
def HarvestedWithin (s : Traced γ) (dir : String) (result : Option γ) (now ttl : Nat) : Prop :=
  ∃ harvest ∈ s.log, harvest.dir = dir ∧ harvest.result = result ∧ now ≤ harvest.capturedAt + ttl

/-- What an answer says of what was read: a context is at most five seconds old and
one second when it is fresh, and only a recent failure or a fresh context keeps a
refresh back. -/
theorem answer_spec (cached : Option (Option γ × Nat)) :
    (∀ context, (answer cached).1.context = some context →
      ∃ age, cached = some (some context, age) ∧ age ≤ contextStaleTtl ∧
        ((answer cached).1.state = .fresh → age ≤ contextFreshTtl)) ∧
    ((answer cached).2 = false → (answer cached).1.context = none →
      ∃ age, cached = some (none, age) ∧ age ≤ contextNegativeTtl) := by
  unfold answer
  split
  next context age =>
    split
    next fresh =>
      refine ⟨?_, nofun⟩
      intro found same
      cases same
      exact ⟨age, rfl, Nat.le_trans fresh (by decide), fun _ => fresh⟩
    next =>
      split
      next stale =>
        refine ⟨?_, nofun⟩
        intro found same
        cases same
        exact ⟨age, rfl, stale, nofun⟩
      next => exact ⟨nofun, nofun⟩
  next age =>
    split
    next recent => exact ⟨nofun, fun _ _ => ⟨age, rfl, recent⟩⟩
    next => exact ⟨nofun, nofun⟩
  next => exact ⟨nofun, nofun⟩

/-- An event that works in `/srv`. -/
def srvInput : AgentHookInput := { workspacePath := some "/srv" }

end Traced

end AgentOtelBridge.ContextCache
