import AgentOtelBridge.Flow.RunRecords

/-!
# Delegation

A grant lets a delegate run operations on one candidate: the actions, the paths, the checks
that must have passed, and how many attempts and external effects there may be.  A grant is
issued by an issuer of the run's policy, or below another grant that allows it and that it
does not widen.

`reduceDelegationEvent` reduces the events of delegation against the state of the run: a
grant is issued or revoked, an operation is admitted under a grant, or a safety record is
kept.  What a grant gives to a child is reserved from its own budget.
-/

namespace AgentOtelBridge.Flow

open Checked

/-! ## Values -/

/-- Each action, and whether it has an external effect. -/
def actions : List (String × Bool) :=
  [("edit", false), ("commit", false), ("push", true), ("pr:create", true), ("pr:update", true),
    ("merge", true), ("rig:mutate", true), ("queue:create", true)]

def isAction (action : String) : Bool := (actions.lookup action).isSome

def isExternal (action : String) : Bool := (actions.lookup action).getD false

def safeKey (value : String) : Bool :=
  match value.toList with
  | [] => false
  | first :: rest =>
      first.isAlphanum && rest.length ≤ 199 &&
        rest.all (fun c => c.isAlphanum || c ∈ [':', '.', '_', '-']) &&
          value ∉ ["__proto__", "prototype", "constructor"]

def safePath (value : String) : Bool :=
  value ≠ "" && value.toList.all (fun c => c ∉ ['\\', ':', '*', '?'] && 0x1F < c.toNat) &&
    (value.toList.splitOn '/').all fun part =>
      part ≠ [] && part ≠ ['.'] && part ≠ ['.', '.'] &&
        part.getLast? ≠ some '.' && part.getLast? ≠ some ' '

def text (value name : String) : Except String Unit :=
  require (isBlank value = false) ("Invalid " ++ name)

def digest (value name : String) : Except String Unit :=
  require (isDigest value = true) ("Invalid " ++ name ++ " digest")

/-- A safe integer.  One that is negative or has a fraction is refused as well. -/
def integer (value min : Nat) (name : String) : Except String Unit :=
  require (min ≤ value ∧ value < 2 ^ 53) ("Invalid " ++ name)

def strings (values : List String) (name : String) : Except String Unit :=
  require ("" ∉ values ∧ values.Nodup) ("Invalid " ++ name)

def Host.timestamp (host : Host) (value : String) : Except String Int :=
  match host.dateParse value with
  | some instant => .ok instant
  | none => .error "Invalid timestamp"

/-- A pattern that ends in a star stands for what is below a directory. -/
def isWildcard (pattern : String) : Bool := "/*".toList.isSuffixOf pattern.toList

def pathMatches (path : String) (patterns : List String) : Bool :=
  safePath path && patterns.any fun p =>
    if isWildcard p then p.toList.dropLast.isPrefixOf path.toList else p = path

def patternSubset (child parent : String) : Bool :=
  child = parent || (isWildcard parent && parent.toList.dropLast.isPrefixOf child.toList)

/-! ## The policy and the requests -/

/-- The loop over the issuers, with the names that it has met. -/
def validateIssuer (ids : List String) (issuer : Issuer) : Except String (List String) := do
  require (safeKey issuer.id = true ∧ issuer.id ∉ ids) "Invalid or duplicate configured issuer"
  text issuer.origin "issuer origin"
  text issuer.authorityRef "authority reference"
  require (issuer.mode = "local-cooperative") "UNSUPPORTED: no qualified trusted-host binding"
  strings issuer.allowedActions "issuer actions"
  require (issuer.allowedActions ≠ [] ∧ ∀ a ∈ issuer.allowedActions, isAction a = true)
    "Invalid issuer actions"
  pure (issuer.id :: ids)

def validateDelegationPolicy : Option DelegationPolicy → Except String DelegationPolicy
  | none => .error "Configured issuer policy required"
  | some policy => do
      require (policy.version = 1 ∧ policy.issuers ≠ []) "Configured issuer policy required"
      let _ ← policy.issuers.foldlM validateIssuer []
      strings policy.requiredChecks "required checks"
      require (policy.reviewPolicy ∈ ["automated", "human"]) "Invalid review policy"
      require (policy.materiality = "fixed-scope-v1") "Unsupported materiality predicate"
      integer policy.safetyReserve 1 "safety reserve"
      require (policy.safetyReserve ≤ 100) "Safety reserve must be bounded at 100"
      require (policy.hardCeiling = false) "UNSUPPORTED: no enforcing hard-ceiling provider"
      pure policy

/-- The issuer of the policy that a request is bound to. -/
def bindingIssuer (host : Host) (request : GrantRequest) (policy : DelegationPolicy) :
    Except String Issuer :=
  let bound := request.issuerBinding.bind fun binding =>
    (policy.issuers.find? fun i => i.id = binding.issuerId).map fun issuer => (binding, issuer)
  match bound with
  | none => .error "Unconfigured or mismatched issuer binding"
  | some (binding, issuer) => do
      require (binding.type = "delegation-issuance" ∧ binding.mode = issuer.mode ∧
          binding.origin = issuer.origin ∧ binding.authorityRef = issuer.authorityRef ∧
          binding.policyDigest = request.policyDigest ∧
          binding.requestDigest = host.requestDigest request.toGrantIntent)
        "Unconfigured or mismatched issuer binding"
      text binding.decisionRef "explicit host approval reference"
      pure issuer

/-- The path that a pattern is made of. -/
def patternPath (pattern : String) : String :=
  if isWildcard pattern then .ofList (pattern.toList.take (pattern.toList.length - 2)) else pattern

def validateGrantRequest (host : Host) (request : GrantRequest) (atTime : String)
    (configured : Option DelegationPolicy) : Except String Unit := do
  let policy ← validateDelegationPolicy configured
  require (request.issuerMode = "local-cooperative") "UNSUPPORTED: issuer assurance"
  require ("hardCeiling" ∉ request.otherFields) "UNSUPPORTED: no enforcing hard-ceiling provider"
  require (request.otherFields = []) "Unknown grant request field"
  digest request.planDigest "plan"
  digest request.policyDigest "policy"
  require (request.policyDigest = host.policyDigest policy) "Configured policy digest mismatch"
  text request.repository "repository"
  text request.base "base"
  text request.delegate "delegate"
  let issuer ← bindingIssuer host request policy
  strings request.allowedActions "allowed actions"
  strings request.capabilities "capabilities"
  require (request.allowedActions ≠ [] ∧
      (∀ a ∈ request.allowedActions,
        isAction a = true ∧ a ∈ issuer.allowedActions ∧ a ∈ request.capabilities) ∧
      ∀ c ∈ request.capabilities, c ∈ issuer.allowedActions)
    "Unsupported action or capability"
  require ("merge" ∈ request.allowedActions → issuer.allowThroughMerge = true)
    "Through-merge cooperative policy denied"
  strings request.allowedPaths "allowed paths"
  require (request.allowedPaths ≠ [] ∧
      ∀ p ∈ request.allowedPaths, safePath (patternPath p) = true)
    "Invalid allowed path pattern"
  strings request.requiredChecks "required checks"
  require ((∀ c ∈ policy.requiredChecks, c ∈ request.requiredChecks) ∧
      (policy.reviewPolicy = "human" → request.reviewPolicy = "human") ∧
      request.reviewPolicy ∈ ["automated", "human"] ∧ request.materiality = policy.materiality)
    "Grant weakens configured checks or review policy"
  require (request.allowSubdelegation = true → policy.allowSubdelegation = true)
    "Invalid subdelegation authority"
  integer request.maxAttempts 1 "maxAttempts"
  integer request.maxExternalEffects 0 "maxExternalEffects"
  let expiry ← host.timestamp request.expiry
  let now ← host.timestamp atTime
  require (now < expiry) "Grant expiry must be in the future"

/-- The fields that a child has from its parent. -/
def fixedFields : List (String × (GrantIntent → String)) :=
  [("planDigest", (·.planDigest)), ("policyDigest", (·.policyDigest)),
    ("repository", (·.repository)), ("base", (·.base)), ("delegate", (·.delegate)),
    ("materiality", (·.materiality))]

/-- The fields that a child may narrow. -/
def narrowedFields : List (String × (GrantIntent → List String)) :=
  [("allowedActions", (·.allowedActions)), ("capabilities", (·.capabilities))]

def validateChild (host : Host) (request : GrantRequest) (parent : GrantEnvelope) :
    Except String Unit := do
  let b := parent.binding
  require (b.allowSubdelegation = true) "Parent prohibits subdelegation"
  fixedFields.forM fun field =>
    require (field.2 request.toGrantIntent = field.2 b.toGrantIntent)
      ("Child grant " ++ field.1 ++ " must match parent")
  narrowedFields.forM fun field =>
    require (∀ x ∈ field.2 request.toGrantIntent, x ∈ field.2 b.toGrantIntent)
      ("Child widens " ++ field.1)
  require (∀ p ∈ request.allowedPaths, ∃ q ∈ b.allowedPaths, patternSubset p q = true)
    "Child widens allowedPaths"
  require ((∀ c ∈ b.requiredChecks, c ∈ request.requiredChecks) ∧
      (b.reviewPolicy = "human" → request.reviewPolicy = "human"))
    "Child weakens checks/review"
  let expiry ← host.timestamp request.expiry
  let limit ← host.timestamp b.expiry
  require (expiry ≤ limit) "Child outlives parent"
  require (request.maxAttempts ≤ b.maxAttempts ∧ request.maxExternalEffects ≤ b.maxExternalEffects)
    "Child exceeds parent budget"

/-! ## Grants of a run -/

def findGrant (grants : List Grant) (id : String) : Option Grant := grants.find? fun g => g.id = id

def updateGrant (id : String) (update : Grant → Grant) (grants : List Grant) : List Grant :=
  grants.map fun g => if g.id = id then update g else g

/-- The loop from a grant to its first ancestor.  Each turn meets another grant, so there are
no more turns than grants (`grantAncestorsFrom_succ`). -/
def grantAncestorsFrom (host : Host) (grants : List Grant) (atTime : String) :
    Nat → List String → Option String → Except String (List Grant)
  | _, _, none => pure []
  | 0, _, some _ => .error "Invalid or cyclic grant ancestry"
  | turns + 1, seen, some id => do
      require (safeKey id = true ∧ id ∉ seen) "Invalid or cyclic grant ancestry"
      let current ← given (findGrant grants id) "Missing grant ancestor"
      require (current.status = .active) "REVOKED: grant or ancestor revoked"
      let expiry ← host.timestamp current.envelope.binding.expiry
      let now ← host.timestamp atTime
      require (now < expiry) "EXPIRED: grant or ancestor expired"
      let above ← grantAncestorsFrom host grants atTime turns (id :: seen) current.envelope.parentId
      pure (current :: above)

def grantAncestors (host : Host) (envelope : GrantEnvelope) (grants : List Grant) (atTime : String) :
    Except String (List Grant) :=
  grantAncestorsFrom host grants atTime (grants.length + 1) [] (some envelope.id)

/-! ## Operations -/

def normalizeOperation (operation : Operation) : Except String Operation := do
  require (operation.otherFields = []) "Unknown operation field"
  require (safeKey operation.id = true ∧ isAction operation.action = true)
    "Invalid operation identity or action"
  digest operation.planDigest "planDigest"
  digest operation.policyDigest "policyDigest"
  digest operation.candidateDigest "candidateDigest"
  digest operation.workspaceDigest "workspaceDigest"
  text operation.repository "repository"
  text operation.base "base"
  text operation.delegate "delegate"
  strings operation.paths "operation paths"
  strings operation.capabilities "operation capabilities"
  require (operation.paths ≠ [] ∧ ∀ p ∈ operation.paths, safePath p = true) "Invalid operation path"
  require (operation.review.isSome = true ∧ operation.arguments.isSome = true)
    "Operation requires checks, review and arguments"
  pure operation

def verifyDelegationDecision (host : Host) (decision : Authorization) (type : String)
    (grant : Grant) (policy : Option DelegationPolicy) : Except String Unit :=
  match grant.envelope.binding.issuerBinding with
  | none => .error "Cannot read properties of undefined (reading 'issuerId')"
  | some binding =>
      require (decision.type = type ∧ decision.grantId = grant.envelope.id ∧
          decision.grantRevision = grant.revision ∧
          policy.map host.policyDigest = some decision.policyDigest ∧
          decision.issuerId = binding.issuerId ∧ decision.mode = binding.mode ∧
          decision.origin = binding.origin ∧ decision.authorityRef = binding.authorityRef ∧
          isBlank decision.decisionRef = false)
        "Typed independently resolved delegation decision required"

/-- The fields that an operation has from its grant. -/
def scopeFields : List (String × (Operation → String) × (GrantIntent → String)) :=
  [("planDigest", (·.planDigest), (·.planDigest)),
    ("policyDigest", (·.policyDigest), (·.policyDigest)),
    ("repository", (·.repository), (·.repository)), ("base", (·.base), (·.base)),
    ("delegate", (·.delegate), (·.delegate))]

/-- `resolveGrant`: what is thrown is the reason why the operation is not admitted. -/
def resolveGrant (host : Host) (presented : GrantEnvelope) (s : RunState) (operation : Operation)
    (atTime : String) : Except String (Operation × String) := do
  let g ← given (findGrant s.grants presented.id) "Unknown or tampered grant"
  require (host.envelopeDigest presented = host.envelopeDigest g.envelope) "Unknown or tampered grant"
  let b := g.envelope.binding
  validateGrantRequest host b g.envelope.issuedAt s.delegationPolicy
  let _ ← grantAncestors host g.envelope s.grants atTime
  let op ← normalizeOperation operation
  scopeFields.forM fun field =>
    require (field.2.1 op = field.2.2 b.toGrantIntent) ("SCOPE: " ++ field.1 ++ " mismatch")
  require (s.candidateDigest = some op.candidateDigest) "Stale candidate"
  require (op.action ∈ b.allowedActions ∧ op.action ∈ op.capabilities ∧
      ∀ c ∈ op.capabilities, c ∈ b.capabilities)
    "SCOPE: action/capability mismatch"
  require (∀ p ∈ op.paths, pathMatches p b.allowedPaths = true) "SCOPE: path mismatch"
  require (∀ name ∈ b.requiredChecks, ∃ c ∈ op.checks,
      c.name = name ∧ c.outcome = "pass" ∧ c.candidateDigest = op.candidateDigest)
    "Required exact-candidate check missing"
  require (∃ review ∈ op.review.toList, review.outcome = "pass" ∧ review.policy = b.reviewPolicy ∧
      review.candidateDigest = op.candidateDigest)
    "Required exact-candidate review missing"
  require (g.budgetUsed.attempts + g.budgetReserved.attempts < b.maxAttempts)
    "BUDGET: attempts exhausted"
  require (isExternal op.action = true →
      g.budgetUsed.externalEffects + g.budgetReserved.externalEffects < b.maxExternalEffects)
    "BUDGET: external effects exhausted"
  pure (op, host.operationDigest op)

/-! ## Events -/

/-- What a grant gives to a child is reserved from its budget.  The counts are exact: a sum
above the safe integers is above each limit. -/
def reserveFromParent (host : Host) (s : RunState) (atTime : String) (grant : GrantEnvelope) :
    Except String (List Grant) :=
  match grant.parentId with
  | none => pure s.grants
  | some parentId => do
      require (safeKey parentId = true) "Invalid parent grant ID"
      let parent ← given (findGrant s.grants parentId) "Unknown parent grant"
      let _ ← grantAncestors host parent.envelope s.grants atTime
      validateChild host grant.binding parent.envelope
      require (parent.budgetUsed.attempts + parent.budgetReserved.attempts + grant.binding.maxAttempts ≤
          parent.envelope.binding.maxAttempts)
        "Child exceeds remaining parent budget"
      require (parent.budgetUsed.externalEffects + parent.budgetReserved.externalEffects +
            grant.binding.maxExternalEffects ≤
          parent.envelope.binding.maxExternalEffects)
        "Child exceeds remaining parent budget"
      pure (updateGrant parentId (fun g => { g with
        budgetReserved :=
          ⟨g.budgetReserved.attempts + grant.binding.maxAttempts,
            g.budgetReserved.externalEffects + grant.binding.maxExternalEffects⟩ }) s.grants)

def reduceGrantIssued (host : Host) (s : RunState) (event : RunEvent) (grant : GrantEnvelope) :
    Except String RunState := do
  require (safeKey grant.id = true ∧ findGrant s.grants grant.id = none)
    "Invalid or duplicate grant ID"
  require (grant.otherFields = []) "Unknown grant envelope field"
  require (grant.issuedAt = event.timestamp) "Grant issuance timestamp mismatch"
  text grant.issuerActor "issuer actor"
  validateGrantRequest host grant.binding event.timestamp s.delegationPolicy
  let grants ← reserveFromParent host s event.timestamp grant
  pure { s with grants := grants ++ [⟨grant, event.digest, .active, 0, ⟨0, 0⟩, ⟨0, 0⟩⟩] }

def reduceGrantRevoked (s : RunState) (id reason : String) : Except String RunState := do
  let g ← given (findGrant s.grants id) "Grant not found"
  require (safeKey id = true) "Grant not found"
  text reason "revocation reason"
  require (g.status = .active) "Grant already revoked"
  pure { s with
    revocationEpoch := s.revocationEpoch + 1
    grants := updateGrant id (fun g => { g with
      status := .revoked
      revocationEpoch := s.revocationEpoch + 1 }) s.grants }

def findAdmission (admissions : List Admission) (id : String) : Option Admission :=
  admissions.find? fun a => a.operation.id = id

/-- An admission uses an attempt, and an external effect if the action has one. -/
def GrantBudget.use (budget : GrantBudget) (action : String) : GrantBudget :=
  ⟨budget.attempts + 1, budget.externalEffects + if isExternal action then 1 else 0⟩

def reduceOperationAdmitted (host : Host) (s : RunState) (event : RunEvent) (p : AdmissionRequest) :
    Except String RunState := do
  let g ← given (findGrant s.grants p.grantId) "Grant not found"
  require (p.runRevision = s.revision ∧ p.generation = s.generation ∧ p.writer = s.owner)
    "Admission writer/run mismatch"
  require (p.grantRevision = g.revision ∧ p.grantEpoch = g.revocationEpoch)
    "Admission grant revision/epoch mismatch"
  let op ← normalizeOperation p.operation
  let computed := host.operationDigest op
  require (p.operationDigest = computed) "Operation digest mismatch"
  verifyDelegationDecision host p.authorization "delegation-resolution" g s.delegationPolicy
  require (p.authorization.operationDigest = computed ∧ p.authorization.delegate = op.delegate)
    "Resolution operation binding mismatch"
  require (findAdmission s.admissions op.id = none)
    "Operation ID already admitted; reconcile existing admission"
  let _ ← (resolveGrant host g.envelope s op event.timestamp).mapError ("Admission rejected: " ++ ·)
  pure { s with
    grants := updateGrant p.grantId (fun g => { g with budgetUsed := g.budgetUsed.use op.action }) s.grants
    admissions := s.admissions ++ [⟨p.grantId, op, computed, event.id, event.digest⟩] }

/-- `state.operations[id]`: a name from the prototype has an operation without fields. -/
def findOperation (operations : List (String × RunOperation)) (id : String) : Option RunOperation :=
  (operations.lookup id).or (if id ∈ inheritedNames then some {} else none)

/-- `state.operations[id] = operation`. -/
def setOperation (id : String) (operation : RunOperation) :
    List (String × RunOperation) → List (String × RunOperation)
  | [] => [(id, operation)]
  | entry :: entries =>
      if entry.1 = id then (id, operation) :: entries else entry :: setOperation id operation entries

def settledStates : List (Option String) := [some "confirmed", some "failed"]

/-- The part of a safety record that settles an operation. -/
def reconcile (s : RunState) (p : SafetyRecord) (outcome : Outcome) : Except String RunState := do
  let unsettled := (findOperation s.operations p.operationId).filter fun prior =>
    prior.state ∉ settledStates
  let prior ← given (unsettled.filter fun _ => p.kind = "reconcile")
    "Reconciliation requires a pending operation"
  require (outcome.verified = true ∧ outcome.state ∈ ["confirmed", "failed"] ∧
      outcome.operationId = p.operationId ∧
      (∃ admitted ∈ (findAdmission s.admissions p.operationId).toList,
        outcome.payloadDigest = admitted.operationDigest ∧
        outcome.candidateDigest = admitted.operation.candidateDigest) ∧
      isBlank outcome.sourceRevision = false)
    "Reconciliation requires exact authoritative operation evidence"
  let settled :=
    { prior with state := some outcome.state, reconciliation := some outcome.state }
  pure { s with operations := setOperation p.operationId settled s.operations }

/-- Whether an external operation is neither confirmed nor failed. -/
def RunState.hasUnresolved (s : RunState) : Bool :=
  s.operations.any fun entry => entry.2.state ∉ settledStates

/-- A record without an outcome settles nothing. -/
def reconcileOutcome (s : RunState) (p : SafetyRecord) : Option Outcome → Except String RunState
  | some outcome => reconcile s p outcome
  | none => pure s

def reduceDelegationSafety (host : Host) (s : RunState) (p : SafetyRecord) :
    Except String RunState := do
  let policy ← given s.delegationPolicy "Delegation policy required"
  require (p.kind = "reconcile" ∧ p.outcome.isSome = true ∨ s.safetyUsed < policy.safetyReserve)
    "Safety reserve exhausted"
  require (p.otherFields = [] ∧ safeKey p.id = true ∧ p.kind ∈ ["checkpoint", "reconcile"])
    "Invalid safety operation"
  text p.reason "safety reason"
  require (host.safetyBytes p ≤ 2048) "Safety checkpoint exceeds bounded capacity"
  require (p.kind = "reconcile" → (findAdmission s.admissions p.operationId).isSome = true)
    "Safety reconciliation requires prior admission"
  let s' ← reconcileOutcome s p p.outcome
  require (∀ r ∈ s.safetyRecords, r.id ≠ p.id) "Duplicate safety record"
  pure { s' with safetyUsed := s.safetyUsed + 1, safetyRecords := s.safetyRecords ++ [p] }

/-- The events of delegation; any other is left to the run. -/
def reduceDelegationEvent (host : Host) (s : RunState) (event : RunEvent) :
    Option (Except String RunState) :=
  match event.payload with
  | .grantIssued grant => some (reduceGrantIssued host s event grant)
  | .grantRevoked id reason => some (reduceGrantRevoked s id reason)
  | .operationAdmitted p => some (reduceOperationAdmitted host s event p)
  | .delegationSafety p => some (reduceDelegationSafety host s p)
  | _ => none

end AgentOtelBridge.Flow
