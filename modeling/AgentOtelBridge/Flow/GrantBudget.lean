import AgentOtelBridge.Flow.GrantLedger

/-!
# What a grant allows below it

A grant stands for what is done below it.  The admissions under a grant and under all the
grants below it are within its own limits (`spent_below`), each of them is in its scope
(`inScope_above`), and each was admitted while the grant was active and not expired
(`Timely`).
-/

namespace AgentOtelBridge.Flow

open Checked

variable {host : Host} {s s' : RunState} {event : RunEvent} {grants grants' : List Grant} {a : Grant}
  {admissions : List Admission}

/-! ## The limits -/

namespace Ledger

/-- What the admissions below a grant cost is within its limit. -/
theorem spent_below (ledger : Ledger grants admissions) (c : Counter) (member : a ∈ grants)
    {entries : List Admission} (sub : entries.Sublist admissions)
    (under : ∀ x ∈ entries, Below grants x.grantId a.id) :
    (entries.map fun x => c.cost x.operation.action).sum ≤
      c.limit a.envelope.binding.toGrantIntent := by
  classical
  let accounts := (envelopes grants).toFinset
  let family := accounts.filter fun e => Below grants e.id a.id
  have listed : ∀ {e}, e ∈ accounts ↔ e ∈ envelopes grants := List.mem_toFinset
  have distinct := ledger.family.distinct
  have once : (envelopes grants).Nodup := distinct.of_map _
  -- Each account of the family has used what is spent under it, and has given the rest.
  have within : ∀ e ∈ family, c.spent admissions e.id +
      ∑ e' ∈ accounts with e'.parentId = some e.id, c.limit e'.binding.toGrantIntent ≤
        c.limit e.binding.toGrantIntent := by
    intro e here
    obtain ⟨g, inside, rfl⟩ := List.mem_map.mp (listed.mp (Finset.mem_filter.mp here).1)
    have given : ∑ e' ∈ accounts with e'.parentId = some g.id, c.limit e'.binding.toGrantIntent =
        c.given (envelopes grants) g.id := by
      have filtered : (accounts.filter fun e' => e'.parentId = some g.id) =
          ((envelopes grants).filter fun e' => e'.parentId = some g.id).toFinset := by
        ext e'
        simp [accounts]
      rw [filtered, List.sum_toFinset _ (once.filter _)]
      rfl
    have bounded := ledger.within c g inside
    rw [ledger.used c g inside, ledger.reserved c g inside] at bounded
    exact (congrArg _ given).trans_le bounded
  have parents : ∀ e ∈ family, e ≠ a.envelope →
      ∃ b ∈ family, e.parentId = some b.id := by
    intro e here other
    obtain ⟨there, below⟩ := Finset.mem_filter.mp here
    obtain ⟨g, inside, rfl⟩ := List.mem_map.mp (listed.mp there)
    obtain ⟨p, parent, above⟩ : ∃ p, g.envelope.parentId = some p ∧ Below grants p a.id := by
      generalize name : g.envelope.id = id at below
      generalize top : a.id = above at below
      cases below with
      | refl =>
          have same := eq_of_id ledger.distinct inside member (name.trans top.symm)
          exact absurd (congrArg Grant.envelope same) other
      | @up g' p _ inside' parent rest =>
          obtain rfl := eq_of_id ledger.distinct inside inside' name
          exact ⟨p, parent, rest⟩
    obtain ⟨b, known, rfl, -⟩ := ledger.family.parents _ (listed.mp there) p parent
    exact ⟨b, Finset.mem_filter.mpr ⟨listed.mpr known, above⟩, parent⟩
  have injective : Set.InjOn (fun e : GrantEnvelope => e.id) family := by
    intro e here e' there same
    exact List.inj_on_of_nodup_map distinct (listed.mp (Finset.mem_filter.mp here).1)
      (listed.mp (Finset.mem_filter.mp there).1) same
  have covered : ∀ x ∈ entries, ∃ e ∈ family, x.grantId = e.id := by
    intro x here
    obtain ⟨e, known, named, -⟩ := ledger.family.admitted x (sub.subset here)
    exact ⟨e, Finset.mem_filter.mpr ⟨listed.mpr known, named ▸ under x here⟩, named.symm⟩
  calc
    (entries.map fun x => c.cost x.operation.action).sum
        ≤ ∑ e ∈ family, c.spent entries e.id := Allotment.sum_map_le_sum_entries covered
    _ ≤ ∑ e ∈ family, c.spent admissions e.id :=
        Finset.sum_le_sum fun e _ => Allotment.sum_map_le_of_sublist (sub.filter _)
    _ ≤ c.limit a.envelope.binding.toGrantIntent :=
        Allotment.sum_used_le (Finset.filter_subset _ _)
          (Finset.mem_filter.mpr ⟨listed.mpr (List.mem_map_of_mem member), .refl _⟩)
          injective parents within

/-- What is admitted under a grant is in the scope of each grant above it. -/
theorem inScope_above (ledger : Ledger grants admissions) {x : Admission} (admitted : x ∈ admissions)
    (member : a ∈ grants) (below : Below grants x.grantId a.id) :
    InScope a.envelope.binding.toGrantIntent x.operation := by
  obtain ⟨e, known, named, scope⟩ := ledger.family.admitted x admitted
  rw [← named] at below
  clear named
  generalize start : e.id = id at below
  generalize top : a.id = above at below
  induction below generalizing e with
  | refl id =>
      obtain ⟨g, inside, rfl⟩ := List.mem_map.mp known
      exact eq_of_id ledger.distinct inside member (start.trans top.symm) ▸ scope
  | @up g p above inside parent _ ih =>
      obtain ⟨g', inside', rfl⟩ := List.mem_map.mp known
      obtain rfl := eq_of_id ledger.distinct inside' inside start
      obtain ⟨e, there, named', narrows⟩ := ledger.family.parents _ known p parent
      exact ih e there (scope.of_narrows narrows) named' top

end Ledger

/-! ## The time of an admission -/

/-- An admission is of an event of the run, and the grants above it were not expired then. -/
def AdmittedInTime (host : Host) (grants : List Grant) (history : List HistoryEntry) (x : Admission) :
    Prop :=
  ∃ h ∈ history, h.id = x.eventId ∧ h.kind = "operation-admitted" ∧
    ∀ a ∈ grants, Below grants x.grantId a.id →
      ∃ now expiry, host.timestamp h.timestamp = .ok now ∧
        host.timestamp a.envelope.binding.expiry = .ok expiry ∧ now < expiry

def Timely (host : Host) (s : RunState) : Prop :=
  ∀ x ∈ s.admissions, AdmittedInTime host s.grants s.history x

/-- The grants above an admission are known when they were there with the same envelopes. -/
theorem AdmittedInTime.of_known {x : Admission} {history history' : List HistoryEntry}
    (timely : AdmittedInTime host grants history x) (sub : history ⊆ history')
    (known : ∀ a ∈ grants', Below grants' x.grantId a.id →
      ∃ a' ∈ grants, a'.envelope = a.envelope ∧ Below grants x.grantId a.id) :
    AdmittedInTime host grants' history' x := by
  obtain ⟨h, there, named, kind, valid⟩ := timely
  refine ⟨h, sub there, named, kind, ?_⟩
  intro a member below
  obtain ⟨a', member', envelope, below'⟩ := known a member below
  have name : a'.id = a.id := congrArg GrantEnvelope.id envelope
  rw [← envelope]
  exact valid a' member' (name ▸ below')

/-- One step keeps the admissions timely. -/
theorem DelegationStep.timely (step : DelegationStep host s event s')
    (ledger : Ledger s.grants s.admissions) (timely : Timely host s) :
    Timely host (record event s') := by
  have ledger' := step.ledger ledger
  have sub : ∀ {history}, history = s.history → s.history ⊆ history ++
      [⟨event.id, event.kind, event.timestamp, event.digest⟩] := by
    rintro _ rfl
    exact List.subset_append_left _ _
  cases step with
  | same grants admissions history =>
      intro x admitted
      refine (timely x (admissions ▸ admitted)).of_known (sub history) ?_
      intro a member below
      exact known_of_envelopes (congrArg envelopes grants) member below
  | issued e next fresh reserved grants admissions history =>
      obtain ⟨reserves, -⟩ := reserves_of_ok ledger.distinct reserved
      intro x admitted
      have old : x ∈ s.admissions := admissions ▸ admitted
      refine (timely x old).of_known (sub history) ?_
      intro a member below
      obtain ⟨e', known, named, -⟩ := ledger.family.admitted x old
      have here : x.grantId ∈ s.grants.map Grant.id := by
        rw [map_id, ← named]
        exact List.mem_map_of_mem known
      have distinct := ledger'.distinct
      rw [grants] at distinct
      refine known_of_issued reserves.same ledger.rooted distinct here (grants ▸ member) ?_
      rw [← grants]
      exact below
  | revoked id grants admissions history =>
      have same : envelopes s'.grants = envelopes s.grants := by
        rw [grants]
        exact envelopes_updateGrant fun _ => rfl
      intro x admitted
      refine (timely x (admissions ▸ admitted)).of_known (sub history) ?_
      intro a member below
      exact known_of_envelopes same member below
  | admitted g x list member named scope room ancestors fromEvent kind grants admissions history =>
      have same : envelopes s'.grants = envelopes s.grants := by
        rw [grants]
        exact envelopes_updateGrant fun _ => rfl
      intro y admitted
      rcases List.mem_append.mp (admissions ▸ admitted) with old | new
      · refine (timely y old).of_known (sub history) ?_
        intro a member below
        exact known_of_envelopes same member below
      · rw [List.mem_singleton.mp new]
        refine ⟨_, List.mem_append_right _ (List.mem_singleton_self _), fromEvent.symm, kind, ?_⟩
        intro a inside below
        obtain ⟨a', inside', envelope, below'⟩ := known_of_envelopes same inside below
        have name : a'.id = a.id := congrArg GrantEnvelope.id envelope
        rw [← named, ← name] at below'
        obtain ⟨-, now, expiry, starts, ends, later⟩ :=
          grantAncestors_active ledger.distinct below' inside' ancestors
        exact ⟨now, expiry, starts, envelope ▸ ends, later⟩

theorem timely_started {p : Started} (started : reduceStarted event p = .ok s) :
    Timely host (record event s) := by
  simp only [reduceStarted, bind_eq_ok, pure_eq_ok] at started
  obtain ⟨-, -, -, -, -, -, -, -, -, -, -, -, rfl⟩ := started
  intro x none_
  cases none_

/-- **The admissions of every run are timely.** -/
theorem Replays.timely {events : List RunEvent} {r : Replay} (replayed : Replays host events r)
    (state : r.state = some s) : Timely host s := by
  have both := replayed.invariant
    (I := fun s => Ledger s.grants s.admissions ∧ Timely host s) ?_ ?_ state
  · exact both.2
  · intro event _ p s _ started
    exact ⟨ledger_started started, timely_started started⟩
  · intro s event _ s' ⟨ledger, timely⟩ _ reduced
    have step := delegationStep ledger.distinct reduced
    exact ⟨step.ledger ledger, step.timely ledger timely⟩

/-! ## Runs -/

theorem sum_attempts (entries : List Admission) :
    (entries.map fun x => Counter.attempts.cost x.operation.action).sum = entries.length := by
  simp [Counter.cost]

theorem sum_externalEffects (entries : List Admission) :
    (entries.map fun x => Counter.externalEffects.cost x.operation.action).sum =
      (entries.filter fun x => isExternal x.operation.action).length := by
  induction entries with
  | nil => rfl
  | cons x entries ih =>
      rw [List.map_cons, List.sum_cons, ih, List.filter_cons]
      cases outside : isExternal x.operation.action with
      | false => simp [Counter.cost, outside]
      | true => simp [Counter.cost, outside, Nat.add_comm]

/-- **A grant bounds what is done below it.**  Whatever was admitted below a grant, directly or
under grants that come from it, is no more than the attempts and the external effects that
the grant itself allows. -/
theorem delegated_within {events : List RunEvent} {s : RunState} {a : Grant}
    {entries : List Admission} (reduced : reduceRun host events = .ok (some s)) (member : a ∈ s.grants)
    (sub : entries.Sublist s.admissions)
    (under : ∀ x ∈ entries, Below s.grants x.grantId a.id) :
    entries.length ≤ a.envelope.binding.maxAttempts ∧
      (entries.filter fun x => isExternal x.operation.action).length ≤
        a.envelope.binding.maxExternalEffects := by
  obtain ⟨r, replayed, state⟩ := replays_of_reduceRun reduced
  have ledger := replayed.ledger state
  constructor
  · have bounded := ledger.spent_below .attempts member sub under
    rw [sum_attempts] at bounded
    exact bounded
  · have bounded := ledger.spent_below .externalEffects member sub under
    rw [sum_externalEffects] at bounded
    exact bounded

/-- **A grant is no way out of the grants above it.**  What is admitted under a grant is in the
scope of each grant above it, and none of them was expired when it was admitted. -/
theorem delegated_inScope {events : List RunEvent} {s : RunState} {a : Grant} {x : Admission}
    (reduced : reduceRun host events = .ok (some s)) (member : a ∈ s.grants)
    (admitted : x ∈ s.admissions) (below : Below s.grants x.grantId a.id) :
    InScope a.envelope.binding.toGrantIntent x.operation ∧
      ∃ h ∈ s.history, h.id = x.eventId ∧ h.kind = "operation-admitted" ∧
        ∃ now expiry, host.timestamp h.timestamp = .ok now ∧
          host.timestamp a.envelope.binding.expiry = .ok expiry ∧ now < expiry := by
  obtain ⟨r, replayed, state⟩ := replays_of_reduceRun reduced
  have ledger := replayed.ledger state
  obtain ⟨h, there, named, kind, valid⟩ := replayed.timely state x admitted
  exact ⟨ledger.inScope_above admitted member below, h, there, named, kind, valid a member below⟩

/-! ## A sample run -/

/-- The digest of the plan, of the workspace and of the candidate. -/
def sampleContent : String := "cccccccccccccccccccccccccccccccccccccccccccccccccccccccccccccccc"
def samplePolicyDigest : String := "f082a9e81c4171d5a17bdd1ddb500a36cc51d48600b8efa458acac340300588a"
def sampleOperationDigest : String :=
  "3c89f7d3fab8cd42ca29dad9b72f5ca29b79c833c1e41821aae42c89b3b5e9b9"
def sampleTime : String := "2026-01-01T00:00:00Z"
def sampleExpiry : String := "2026-01-02T00:00:00Z"

/-- The digests of the events of the sample. -/
def sampleDigests : List (String × String) :=
  [("started", "336d2ae032cf77f30747514bcf1ed89ad25ac169dc7f22ed5d8a2c01e8f5eb4d"),
    ("candidate", "96649f3802b968cc34683fa6a7a5f66c7cce84bc6e67fbd59b24c52d5ff1d1ba"),
    ("parent", "76811bfbd3416e0a8d0e6b86c42ec8e2eec0469c2af93a26b49236e0274ae660"),
    ("child", "542cc73a7da26c1de3d0978bd072144662387222f374ac06e8dc6f609044a226"),
    ("admitted", "5372abbccacf166364eba078e885fe157aa01b2e94c91d204a08ca032b05b3f5"),
    ("revoked", "0db8067973e3ebb6bbde8886d31b75cb6c909eb976646c49cab4d4d5ae3b3c93"),
    ("next", "0ca64fdf487cbbb3edac17a6bf808752e22d7200813bcc4af94511e909438d93")]

def sampleDigest (id : String) : String := (sampleDigests.lookup id).getD ""

/-- The platform, on what the sample asks of it. -/
def sampleHost : Host where
  dateParse value :=
    if value = sampleTime then some 1767225600000
    else if value = sampleExpiry then some 1767312000000
    else none
  eventDigest event := sampleDigest event.id
  observationDigest _ := ""
  policyDigest _ := samplePolicyDigest
  requestDigest intent :=
    if intent.maxAttempts = 2 then "28e1e67a1789846b0690ce6c56e987c0c5e17fdf3a3706b3cca7b0157e5f8606"
    else "dbe177bb8ddf71ef7a6b395c8c6c635451adfef515be8c6d29a49bf18b74086b"
  envelopeDigest envelope :=
    if envelope.id = "parent" then "8c94482ea9a29200cf58d737467b730809a953d1ce5645f1e0cd942c51b8c66e"
    else "cd4abc68e3ecdb2e8e09a43dd2ec2661e07d97fbdca4976d7d7e06b3f9fbdd6e"
  operationDigest _ := sampleOperationDigest
  contractDigest _ := ""
  budgetDigest _ := ""
  safetyBytes _ := 0
  requireOraclePackageRequest _ := .error "Invalid oracle package request"
  requireOraclePackageReceipt _ _ := .error "Invalid oracle package receipt"
  requireOracleCustodyRequest _ := .error "Invalid oracle custody request"
  requireOracleCustodyReceipt _ _ := .error "Invalid oracle custody receipt"
  verifyHostIntentConsent _ _ _ := .error "Invalid intent consent"

def samplePolicy : DelegationPolicy where
  version := 1
  issuers := [⟨"lead", "host", "team", "local-cooperative", ["edit"], false⟩]
  requiredChecks := []
  reviewPolicy := "automated"
  materiality := "fixed-scope-v1"
  allowSubdelegation := true
  safetyReserve := 1
  hardCeiling := false

def sampleIntent (attempts : Nat) : GrantIntent where
  issuerMode := "local-cooperative"
  planDigest := sampleContent
  policyDigest := samplePolicyDigest
  repository := "repo"
  base := "main"
  delegate := "bot"
  allowedPaths := ["src/*"]
  allowedActions := ["edit"]
  capabilities := ["edit"]
  requiredChecks := []
  reviewPolicy := "automated"
  materiality := "fixed-scope-v1"
  allowSubdelegation := true
  maxAttempts := attempts
  maxExternalEffects := 0
  expiry := sampleExpiry
  otherFields := []

def sampleGrant (id : String) (attempts : Nat) (parentId : Option String) : GrantEnvelope where
  id := id
  issuedAt := sampleTime
  issuerActor := "lead"
  binding :=
    { sampleIntent attempts with
      issuerBinding := some ⟨"lead", "delegation-issuance", "local-cooperative", "host", "team",
        samplePolicyDigest, sampleHost.requestDigest (sampleIntent attempts), "approval"⟩ }
  parentId := parentId
  otherFields := []

def sampleOperation : Operation where
  id := "op"
  planDigest := sampleContent
  policyDigest := samplePolicyDigest
  repository := "repo"
  base := "main"
  delegate := "bot"
  action := "edit"
  paths := ["src/main"]
  capabilities := ["edit"]
  candidateDigest := sampleContent
  workspaceDigest := sampleContent
  checks := []
  review := some ⟨"pass", "automated", sampleContent⟩
  arguments := some []
  otherFields := []

def sampleAdmission : AdmissionRequest where
  grantId := "child"
  runRevision := some (sampleDigest "child")
  generation := 0
  writer := "dev"
  grantRevision := sampleDigest "child"
  grantEpoch := 0
  operation := sampleOperation
  operationDigest := sampleOperationDigest
  authorization := ⟨"delegation-resolution", "child", sampleDigest "child", samplePolicyDigest, "lead",
    "local-cooperative", "host", "team", "decision", sampleOperationDigest, "bot"⟩

def sampleEvent (id : String) (previous : Option String) (payload : Payload) : RunEvent where
  version := 1
  type := "run-event"
  runId := "run-1"
  id := id
  previousDigest := previous.map sampleDigest
  generation := 0
  timestamp := sampleTime
  payload := payload
  digest := sampleDigest id

/-- A grant, one below it, an operation that is admitted below both, and the revocation of the first. -/
def sampleRun : List RunEvent :=
  [sampleEvent "started" none (.started ⟨"bounded", "external-action", "issue-1", "dev", none, none,
      none, some samplePolicy, false⟩),
    sampleEvent "candidate" "started" (.candidate sampleContent),
    sampleEvent "parent" "candidate" (.grantIssued (sampleGrant "parent" 2 none)),
    sampleEvent "child" "parent" (.grantIssued (sampleGrant "child" 1 "parent")),
    sampleEvent "admitted" "child" (.operationAdmitted sampleAdmission),
    sampleEvent "revoked" "admitted" (.grantRevoked "parent" "done")]

def sampleNext : RunEvent := sampleEvent "next" "revoked" (.candidate sampleContent)

/-- What the sample comes to. -/
def sampleShape (s : RunState) : Bool :=
  s.grants.map (fun g => (g.id, g.envelope.parentId, g.status)) =
      [("parent", none, .revoked), ("child", some "parent", .active)] &&
    s.admissions.map (·.grantId) = ["child"]

theorem sampleRun_reduced : ∃ s s', reduceRun sampleHost sampleRun = .ok (some s) ∧
    sampleShape s = true ∧ reduceRun sampleHost (sampleRun ++ [sampleNext]) = .ok (some s') := by
  have run : gives (replay sampleHost sampleRun) (fun r => r.state.any fun s => sampleShape s &&
      gives (reduceEvent sampleHost r sampleNext) fun r' => r'.state.isSome) = true := by
    decide +kernel
  obtain ⟨r, replayed, shaped⟩ := gives_iff.mp run
  obtain ⟨s, state, shaped⟩ := (Option.any_eq_true _ _).mp shaped
  obtain ⟨shape, next⟩ := (Bool.and_eq_true _ _).mp shaped
  obtain ⟨r', further, there⟩ := gives_iff.mp next
  obtain ⟨s', state'⟩ := Option.isSome_iff_exists.mp there
  have whole : replay sampleHost (sampleRun ++ [sampleNext]) = .ok r' :=
    foldlM_append_eq_ok.mpr ⟨r, replayed, foldlM_cons_eq_ok.mpr ⟨r', further, rfl⟩⟩
  refine ⟨s, s', ?_, shape, ?_⟩
  · rw [reduceRun, replayed, ← state]
    rfl
  · rw [reduceRun, whole, ← state']
    rfl

/-- In the sample, the admission is below the first grant. -/
theorem sampleShape_below (shape : sampleShape s = true) : ∃ a ∈ s.grants, a.id = "parent" ∧
    a.status = .revoked ∧ ∃ x, s.admissions = [x] ∧ Below s.grants x.grantId a.id := by
  obtain ⟨grants, admissions⟩ := (Bool.and_eq_true _ _).mp shape
  rw [decide_eq_true_eq] at grants admissions
  have parent : ("parent", none, GrantStatus.revoked) ∈
      s.grants.map fun g => (g.id, g.envelope.parentId, g.status) := by
    rw [grants]
    exact List.mem_cons_self
  have child : ("child", some "parent", GrantStatus.active) ∈
      s.grants.map fun g => (g.id, g.envelope.parentId, g.status) := by
    rw [grants]
    exact List.mem_cons_of_mem _ List.mem_cons_self
  obtain ⟨a, here, name⟩ := List.mem_map.mp parent
  obtain ⟨c, there, name'⟩ := List.mem_map.mp child
  obtain ⟨named, -, status⟩ := by simpa only [Prod.mk.injEq] using name
  obtain ⟨named', up, -⟩ := by simpa only [Prod.mk.injEq] using name'
  obtain ⟨x, list, under⟩ := List.map_eq_singleton_iff.mp admissions
  refine ⟨a, here, named, status, x, list, ?_⟩
  rw [under, named, ← named']
  exact .up there up (.refl _)

theorem delegated_within_sample : ∃ s, reduceRun sampleHost sampleRun = .ok (some s) ∧
    ∃ a ∈ s.grants, a.id = "parent" ∧ s.admissions ≠ [] ∧
      s.admissions.length ≤ a.envelope.binding.maxAttempts ∧
        (s.admissions.filter fun x => isExternal x.operation.action).length ≤
          a.envelope.binding.maxExternalEffects := by
  obtain ⟨s, -, reduced, shape, -⟩ := sampleRun_reduced
  obtain ⟨a, member, named, -, x, list, below⟩ := sampleShape_below shape
  refine ⟨s, reduced, a, member, named, list ▸ List.cons_ne_nil x [], ?_⟩
  refine delegated_within reduced member (List.Sublist.refl _) fun y inside => ?_
  rw [list] at inside
  exact List.mem_singleton.mp inside ▸ below

theorem delegated_inScope_sample : ∃ s, reduceRun sampleHost sampleRun = .ok (some s) ∧
    ∃ a ∈ s.grants, a.id = "parent" ∧ ∃ x ∈ s.admissions,
      InScope a.envelope.binding.toGrantIntent x.operation ∧
        ∃ h ∈ s.history, h.id = x.eventId ∧ h.kind = "operation-admitted" ∧
          ∃ now expiry, sampleHost.timestamp h.timestamp = .ok now ∧
            sampleHost.timestamp a.envelope.binding.expiry = .ok expiry ∧ now < expiry := by
  obtain ⟨s, -, reduced, shape, -⟩ := sampleRun_reduced
  obtain ⟨a, member, named, -, x, list, below⟩ := sampleShape_below shape
  have admitted : x ∈ s.admissions := list ▸ List.mem_singleton_self x
  exact ⟨s, reduced, a, member, named, x, admitted, delegated_inScope reduced member admitted below⟩

end AgentOtelBridge.Flow
