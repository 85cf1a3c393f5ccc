import AgentOtelBridge.Flow.Delegation

/-!
# The reducer of a run

`reduceRun` replays a chain of events.  An event that was met before is passed over if it is
the same, and any other must name the revision that the run has.  What an event of each kind
checks and writes is a function of its own, and the events of delegation are reduced against
the same chain.

Behind each event the evidence that no longer fits is dropped: it is bound to a candidate, to
the oracle, to the generation of the writer and to the epoch of revocations
(`dropStaleEvidence`).
-/

namespace AgentOtelBridge.Flow

open Checked

/-- The boundaries of an action, each wider than those before it. -/
def boundaryOrder : List String :=
  ["observe", "propose", "mutate-worktree", "open-pr", "external-action"]

namespace RunState

def isTerminal (s : RunState) : Bool := s.status = .completed || s.status = .cancelled

/-- The oracle of a run is another one: custody of the one before it is dropped. -/
def pinOracle (s : RunState) (digest : String) (pin : OraclePin) : RunState :=
  { s with
    oracleCustody := s.oracleCustody.filter fun custody =>
      custody.receipts.all fun receipt => receipt.oracleDigest = some digest
    oracleDigest := some digest
    oraclePin := some pin }

/-- Whether the evidence of a run is of its candidate, oracle, generation and epoch. -/
def Binds (s : RunState) (evidence : RuntimeEvidence) : Prop :=
  evidence.candidateDigest = s.candidateDigest ∧ evidence.oracleDigest = s.oracleDigest ∧
    evidence.generation = s.generation ∧ evidence.revocationEpoch = s.revocationEpoch

instance (s : RunState) (evidence : RuntimeEvidence) : Decidable (s.Binds evidence) :=
  inferInstanceAs (Decidable (_ ∧ _ ∧ _ ∧ _))

/-- What is dropped behind each event. -/
def dropStaleEvidence (s : RunState) : RunState :=
  { s with
    oracleRuntimeEvidence := s.oracleRuntimeEvidence.filter fun evidence => s.Binds evidence
    oraclePackage := s.oraclePackage.filter fun package =>
      some package.receipt.oracleDigest = s.oracleDigest
    oracleCustody := s.oracleCustody.filter fun custody =>
      custody.receipts.all fun receipt =>
        receipt.generation = s.generation && receipt.revocationEpoch = s.revocationEpoch }

end RunState

/-- The pin of an oracle that comes without one. -/
def defaultPin (digest seat : String) : OraclePin := ⟨"oracle-pin", 3, some digest, seat⟩

/-- A text that is there and not empty. -/
def truthy (value : Option String) : Bool := value.any (· ≠ "")

/-! ## What each kind does -/

/-- A policy is validated when there is one. -/
def validateConfigured : Option DelegationPolicy → Except String Unit
  | some policy => (validateDelegationPolicy (some policy)).map fun _ => ()
  | none => pure ()

def reduceStarted (event : RunEvent) (p : Started) : Except String RunState := do
  require (event.generation = 0) "Run must start at generation zero"
  require (p.profile ∈ ["bounded", "standard", "high-assurance", "exploratory"]) "Invalid profile"
  require (p.boundary ∈ boundaryOrder) "Invalid action boundary"
  requireText p.goalRef "goalRef"
  requireText p.owner "owner"
  validateConfigured p.delegationPolicy
  pure {
    runId := event.runId
    goalRef := p.goalRef
    profile := p.profile
    boundary := p.boundary
    authorityProtocol := p.authorityProtocol.getD "legacy"
    owner := p.owner
    writer := p.writer
    budget := p.budget
    budgetAdmission := none
    generation := 0
    status := .active
    reason := none
    phase := 0
    candidateDigest := none
    observations := []
    openRework := []
    operations := []
    history := []
    revision := none
    grants := []
    admissions := []
    delegationPolicy := p.delegationPolicy
    safetyUsed := 0
    safetyRecords := []
    revocationEpoch := 0
    contract := none
    contractSourceRevision := none
    oracleAssuranceRequired := p.oracleAssuranceRequired
    oraclePin := none
    oracleDigest := none
    oraclePackage := none
    oraclePackageDeveloper := none
    oracleCustody := none
    oracleRuntimeEvidence := none }

def reduceContractFrozen (s : RunState) (p : ContractFrozen) : Except String RunState := do
  let contract ← given p.contract "Contract requires criteria and source revision"
  require (contract.criteria ≠ [] ∧ p.sourceRevision ≠ "")
    "Contract requires criteria and source revision"
  contract.criteria.forM fun c => requireText c.id "criterion id"
  require (contract.criteria.map (·.id)).Nodup "Duplicate acceptance criterion"
  let s := { s with
    oracleAssuranceRequired := s.oracleAssuranceRequired || p.oracleAssuranceRequired
    contract := some contract
    contractSourceRevision := some p.sourceRevision
    observations := [] }
  let named := truthy p.oracleDigest || truthy contract.oracleDigest || p.oraclePin.isSome ||
    contract.oraclePin.isSome
  let oracleDigest := (p.oracleDigest.or contract.oracleDigest).or
    ((p.oraclePin.bind (·.oracleDigest)).or (contract.oraclePin.bind (·.oracleDigest)))
  match oracleDigest.filter fun digest => named && digest ≠ "" with
    | some digest => do
        requireDigest digest "oracle digest"
        pure (s.pinOracle digest ((p.oraclePin.or contract.oraclePin).getD (defaultPin digest "dev.build")))
    | none => pure s

/-- The package that comes with a pin is of the run as it is. -/
def pinPackage (host : Host) (s : RunState) (event : RunEvent) (digest : String)
    (package : OraclePackage) : Except String RunState := do
  host.requireOraclePackageRequest package.request
  host.requireOraclePackageReceipt package.receipt package.request
  require (package.request.runId = s.runId ∧ package.request.goalRef = s.goalRef ∧
      package.request.candidateDigest = s.candidateDigest ∧
      package.request.runRevision = event.previousDigest ∧
      package.request.generation = s.generation ∧
      package.request.revocationEpoch = s.revocationEpoch ∧ package.request.stage = "pin" ∧
      package.receipt.oracleDigest = digest)
    "Oracle package proof is stale for native pin"
  pure { s with oraclePackage := some package, oracleAssuranceRequired := true }

def reduceOraclePinned (host : Host) (s : RunState) (event : RunEvent) (p : OraclePinned) :
    Except String RunState := do
  let digest := ((p.digest.or p.oracleDigest).or (p.pin.bind (·.oracleDigest))).getD ""
  requireDigest digest "oracle digest"
  let s := { s with oracleAssuranceRequired := s.oracleAssuranceRequired || p.oracleAssuranceRequired }
  let s := s.pinOracle digest (p.pin.getD (defaultPin digest (p.seat.getD "dev.build")))
  match p.oraclePackage with
    | some package => pinPackage host s event digest package
    | none => pure s

def reduceCustodyRecorded (host : Host) (s : RunState) (event : RunEvent) (p : CustodyRecorded) :
    Except String RunState := do
  host.requireOracleCustodyRequest p.request
  host.requireOracleCustodyReceipt p.receipt p.request
  require (p.request.runId = s.runId ∧ p.request.goalRef = s.goalRef ∧
      p.request.runRevision = event.previousDigest ∧ p.request.generation = s.generation ∧
      p.request.revocationEpoch = s.revocationEpoch ∧ p.request.oracleDigest = s.oracleDigest ∧
      p.request.candidateDigest = s.candidateDigest)
    "Oracle custody request is stale for current source state"
  let custody := s.oracleCustody.getD {}
  let recorded :=
    if p.request.mode = "historical-author" then { custody with author := some p.receipt }
    else { custody with assignment := some p.receipt }
  pure { s with oracleCustody := some recorded }

def reduceCandidate (s : RunState) (digest : String) : Except String RunState := do
  requireDigest digest "candidate digest"
  pure { s with
    oracleCustody := s.oracleCustody.filter fun _ => s.candidateDigest = some digest
    candidateDigest := some digest
    observations := [] }

def reduceObservation (host : Host) (s : RunState) (o : Observation) : Except String RunState := do
  requireDeliveryRecord o.version o.type o.digest (host.observationDigest o) "verification-observation"
  require (o.candidateDigest = s.candidateDigest) "Observation belongs to stale candidate"
  pure { s with observations := s.observations ++ [o] }

def reduceBudgetAdmission (s : RunState) (event : RunEvent) (p : BudgetAdmission) :
    Except String RunState := do
  require (s.budget.isSome = true)
    "Budget admission requires a configured budget and explicit result"
  pure { s with budgetAdmission := some { p with observedAt := event.timestamp } }

/-- The consent to leave the first phase is to the run as it is. -/
def verifyIntent (host : Host) (s : RunState) (event : RunEvent) (p : Advanced) :
    Except String Unit :=
  if s.phase = 0 ∧ s.authorityProtocol = "host-intent-v1" then do
    host.verifyHostIntentConsent p.intentRequest p.intentConsent event.timestamp
    require (p.intentRequest.runId = s.runId ∧ p.intentRequest.runRevision = event.previousDigest ∧
        p.intentRequest.generation = s.generation ∧ p.intentRequest.goalRef = s.goalRef ∧
        p.intentRequest.goalRevision = s.contract.bind (·.goalRevision) ∧
        p.intentRequest.contractSourceRevision = s.contractSourceRevision ∧
        p.intentRequest.contractDigest = host.contractDigest s.contract ∧
        p.intentRequest.profile = s.profile ∧ p.intentRequest.businessBoundary = s.boundary ∧
        host.budgetDigest p.intentRequest.budget = host.budgetDigest s.budget ∧
        p.intentRequest.planDigest = p.planDigest)
      "Intent consent does not bind this phase advance"
  else pure ()

/-- The oracle that an advance names. -/
def advanceOracle (s : RunState) (p : Advanced) : Except String RunState :=
  let named := truthy p.oracleDigest || p.oraclePin.isSome
  let oracleDigest := p.oracleDigest.or (p.oraclePin.bind (·.oracleDigest))
  match oracleDigest.filter fun digest => named && digest ≠ "" with
  | some digest => do
      requireDigest digest "oracle digest"
      pure (s.pinOracle digest (p.oraclePin.getD (defaultPin digest "dev.build")))
  | none => pure s

/-- Whether an observation of the run is what the evidence says was executed. -/
def RunState.observed (s : RunState) (proof : RuntimeEvidence) (package : OraclePackage) : Bool :=
  s.observations.any fun o => o.digest = proof.observationDigest &&
    o.criterionId = package.receipt.runtimeCriterionId && o.outcome = "pass" &&
      o.candidateDigest = s.candidateDigest

/-- An assured run leaves the phases of the developer and of the tester with the evidence of an
execution. -/
def advanceEvidence (s : RunState) (p : Advanced) : Except String RunState :=
  if s.oracleAssuranceRequired = true ∧ s.phase ∈ [4, 5] then
    match p.oracleRuntimeEvidence, s.oraclePackage with
    | some proof, some package => do
        require (s.Binds proof ∧ proof.manifestDigest = some package.receipt.manifestDigest ∧
            s.observed proof package = true)
          "Actual candidate runtime evidence required; calibration cannot satisfy execution"
        pure { s with oracleRuntimeEvidence := some proof }
    | some proof, none =>
        -- The receipt is read of the first observation that has the digest.
        if s.Binds proof ∧ proof.manifestDigest = none ∧
            s.observations.any (fun o => o.digest = proof.observationDigest) = true then
          .error "Cannot read properties of undefined (reading 'receipt')"
        else
          .error "Actual candidate runtime evidence required; calibration cannot satisfy execution"
    | none, _ =>
        .error "Actual candidate runtime evidence required; calibration cannot satisfy execution"
  else pure s

/-- The proof of the developer is of the package that was pinned. -/
def advancePackage (host : Host) (s : RunState) (event : RunEvent) (p : Advanced) :
    Except String RunState :=
  match p.oraclePackageVerification with
  | none => pure s
  | some verified => do
      host.requireOraclePackageReceipt verified.receipt verified.request
      require (verified.request.stage = "developer" ∧
          verified.request.runRevision = event.previousDigest ∧ verified.request.runId = s.runId ∧
          verified.request.goalRef = s.goalRef ∧
          verified.request.candidateDigest = s.candidateDigest ∧
          verified.request.generation = s.generation ∧
          verified.request.revocationEpoch = s.revocationEpoch ∧
          s.oraclePackage.map (·.receipt.identity) = some verified.receipt.identity)
        "Oracle developer package proof is stale"
      pure { s with oraclePackageDeveloper := some verified }

def reduceAdvanced (host : Host) (s : RunState) (event : RunEvent) (p : Advanced) :
    Except String RunState := do
  require (s.status = .active ∧ s.openRework.isEmpty = true) "Run blocked by state or rework"
  require (s.hasUnresolved = false) "Unresolved external operation"
  require (p.source = s.phase ∧ p.target = s.phase + 1 ∧ p.target ≤ 8) "Invalid phase advancement"
  requireDigest p.acceptanceDigest "acceptanceDigest"
  require (p.candidateDigest = s.candidateDigest) "Acceptance candidate changed"
  verifyIntent host s event p
  let s ← advanceOracle s p
  require (¬(s.oracleAssuranceRequired = true ∧ s.phase = 3 ∧ p.oraclePackageVerification.isNone = true))
    "Assured oracle developer proof required"
  let s ← advanceEvidence s p
  let s ← advancePackage host s event p
  pure { s with phase := p.target, contract := none, contractSourceRevision := none }

/-- The phase that a phase returns to. -/
def returnTarget (phase : Nat) : Option Nat :=
  if phase = 4 then some 3 else if phase ∈ [6, 7, 8] then some 4 else none

/-- `state.openRework[id]`: the names from the prototype are there as well. -/
def isOpen (openRework : List Finding) (id : String) : Bool :=
  openRework.any (fun f => f.id = id) || id ∈ inheritedNames

def openFinding (openRework : List Finding) (finding : Finding) : Except String (List Finding) := do
  requireText finding.id "finding id"
  requireText finding.requiredChange "required change"
  require (isOpen openRework finding.id = false) "Duplicate open finding"
  pure (openRework ++ [finding])

def reduceReturned (s : RunState) (p : Returned) : Except String RunState := do
  require (returnTarget s.phase = some p.target ∧ p.findings ≠ []) "Invalid rework return"
  let openRework ← p.findings.foldlM openFinding s.openRework
  pure { s with openRework := openRework, phase := p.target, contract := none, contractSourceRevision := none }

def reduceReworkResolved (s : RunState) (p : ReworkResolved) : Except String RunState := do
  require (isOpen s.openRework p.id = true ∧ p.observationDigests ≠ [])
    "Rework resolution requires current evidence"
  p.observationDigests.forM fun digest =>
    require (s.observations.any (fun o => o.digest = digest && o.outcome = "pass") = true)
      "Missing passing rework observation"
  pure { s with openRework := s.openRework.filter fun f => f.id ≠ p.id }

def reducePaused (s : RunState) (status : Status) (reason : String) : Except String RunState := do
  requireText reason "reason"
  pure { s with status := status, reason := some reason }

/-- A run is resumed by a writer of the next generation, within its boundary. -/
def reduceResumed (s : RunState) (p : Resumed) : Except String RunState := do
  require (s.status ∈ [.paused, .blocked, .active] ∧ p.previousOwnerStopped = true)
    "Prior writer must be confirmed stopped"
  require (p.boundary ∈ boundaryOrder ∧
      boundaryOrder.idxOf p.boundary ≤ boundaryOrder.idxOf s.boundary)
    "Resume cannot widen authority"
  require (s.hasUnresolved = false) "Reconcile operations before resume"
  requireText p.owner "new owner"
  let s := { s with
    owner := p.owner
    generation := s.generation + 1
    boundary := p.boundary
    status := .active
    reason := none
    writer := p.writer }
  if p.invalidateCandidate then
    pure { s with oracleCustody := none, candidateDigest := none, observations := [] }
  else pure s

/-- The states that an operation goes to from each of its own. -/
def operationTransitions (s : RunState) (p : OperationRecord) : Option String → List String
  | some "planned" =>
      ["submitted", "failed"] ++
        (if (findAdmission s.admissions p.id).isSome then ["unknown"] else []) ++
        (if p.reconciliation = some "confirmed" then ["confirmed"] else [])
  | some "submitted" => ["confirmed", "unknown", "failed"]
  | some "unknown" => ["confirmed", "failed"]
  | _ => []

/-- `{ ...prior, ...p }`. -/
def mergeOperation (prior : Option RunOperation) (p : OperationRecord) : RunOperation where
  kind := p.kind.or (prior.bind (·.kind))
  state := some p.state
  payloadDigest := some p.payloadDigest
  reconciliation := p.reconciliation.or (prior.bind (·.reconciliation))

/-- An operation is planned first, and then goes from state to state with one payload. -/
def checkTransition (s : RunState) (p : OperationRecord) : Option RunOperation → Except String Unit
  | none => require (p.state = "planned") "Operation intent must be durable first"
  | some prior =>
      require (prior.payloadDigest = some p.payloadDigest ∧
          p.state ∈ operationTransitions s p prior.state)
        "Invalid operation transition or changed payload"

def reduceOperation (s : RunState) (p : OperationRecord) : Except String RunState := do
  requireText p.id "operation id"
  requireDigest p.payloadDigest "operation payload digest"
  checkTransition s p (findOperation s.operations p.id)
  let merged := mergeOperation (findOperation s.operations p.id) p
  pure { s with operations := setOperation p.id merged s.operations }

def reduceCompleted (s : RunState) (p : Completed) : Except String RunState := do
  require (s.oracleAssuranceRequired = true →
      ∃ evidence ∈ s.oracleRuntimeEvidence.toList, s.Binds evidence ∧
        evidence.manifestDigest = s.oraclePackage.map (·.receipt.manifestDigest))
    "Current assured candidate runtime evidence required for completion"
  require (s.phase = 8 ∧ s.status = .active ∧ s.openRework.isEmpty = true ∧ s.hasUnresolved = false)
    "Run is not complete"
  requireDigest p.acceptanceDigest "final acceptance"
  require (p.candidateDigest = s.candidateDigest) "Final acceptance candidate changed"
  pure { s with status := .completed }

def reduceCancelled (s : RunState) : Except String RunState := do
  require (s.hasUnresolved = false) "Reconcile before cancellation"
  pure { s with status := .cancelled }

/-! ## The reducer -/

/-- The kinds that a run takes that is not active. -/
def recoveryKinds : List String :=
  ["checkpoint", "resumed", "operation", "cancelled", "delegation-safety", "grant-revoked"]

/-- An operation of a run that is paused or blocked. -/
def inactiveOperation (s : RunState) (p : OperationRecord) : Except String Unit :=
  require (s.status ∈ [.paused, .blocked] →
      (s.status = .paused ∧ p.kind = some "provider-safe-stop") ∨
        p.state ∈ ["confirmed", "failed", "unknown"])
    "Inactive runs may only reconcile operations"

/-- The operations that a run takes that has ended. -/
def RunEvent.isIssueProjection (event : RunEvent) : Bool :=
  match event.payload with
  | .operation p => p.kind = some "issue-projection"
  | _ => false

def guardOperation (s : RunState) (event : RunEvent) : Except String Unit :=
  match event.payload with
  | .operation p => inactiveOperation s p
  | _ => pure ()

/-- What is checked of an event before its kind. -/
def guardEvent (s : RunState) (event : RunEvent) : Except String Unit := do
  require (event.runId = s.runId ∧ event.generation = s.generation)
    "Run identity or writer generation changed"
  require (s.isTerminal = true → event.isIssueProjection = true) "Terminal run cannot be changed"
  require (s.status = .active ∨ event.kind ∈ recoveryKinds) "Paused or blocked run requires recovery"
  guardOperation s event

/-- What an event of each kind does to a run. -/
def reducePayload (host : Host) (s : RunState) (event : RunEvent) : Except String RunState :=
  match event.payload with
  | .contractFrozen p => reduceContractFrozen s p
  | .oraclePinned p => reduceOraclePinned host s event p
  | .oracleCustodyRecorded p => reduceCustodyRecorded host s event p
  | .candidate digest => reduceCandidate s digest
  | .observation o => reduceObservation host s o
  | .budgetAdmission p => reduceBudgetAdmission s event p
  | .advanced p => reduceAdvanced host s event p
  | .returned p => reduceReturned s p
  | .reworkResolved p => reduceReworkResolved s p
  | .paused reason => reducePaused s .paused reason
  | .blocked reason => reducePaused s .blocked reason
  | .resumed p => reduceResumed s p
  | .operation p => reduceOperation s p
  | .completed p => reduceCompleted s p
  | .cancelled => reduceCancelled s
  | .checkpoint => pure s
  | _ =>
      (reduceDelegationEvent host s event).getD
        (.error ("Unsupported run event: " ++ event.kind))

/-- The first event starts a run, and the others are for the run that there is. -/
def reduceNext (host : Host) (event : RunEvent) : Option RunState → Except String RunState
  | none =>
      match event.payload with
      | .started p => reduceStarted event p
      | _ => .error "Run must start at generation zero"
  | some s => do
      guardEvent s event
      reducePayload host s event

/-- The run behind an event. -/
def record (event : RunEvent) (s : RunState) : RunState :=
  { s.dropStaleEvidence with
    revision := some event.digest
    history := s.history ++ [⟨event.id, event.kind, event.timestamp, event.digest⟩] }

/-- The run that a replay has come to, and the digest of each event that it has met. -/
structure Replay where
  state : Option RunState
  seen : List (String × String)

def Replay.revision (r : Replay) : Option String := r.state.bind (·.revision)

def reduceEvent (host : Host) (r : Replay) (event : RunEvent) : Except String Replay := do
  requireDeliveryRecord event.version event.type event.digest (host.eventDigest event) "run-event"
  requireText event.id "event id"
  requireText event.runId "runId"
  require ((host.dateParse event.timestamp).isSome = true) "Invalid event timestamp"
  match r.seen.lookup event.id with
  | some known => do
      require (known = event.digest) "Conflicting duplicate event"
      pure r
  | none => do
      require (r.revision = event.previousDigest) "Stale event parent"
      let s ← reduceNext host event r.state
      pure ⟨some (record event s), r.seen ++ [(event.id, event.digest)]⟩

def replay (host : Host) (events : List RunEvent) : Except String Replay :=
  events.foldlM (reduceEvent host) ⟨none, []⟩

def reduceRun (host : Host) (events : List RunEvent) : Except String (Option RunState) :=
  (replay host events).map (·.state)

end AgentOtelBridge.Flow
