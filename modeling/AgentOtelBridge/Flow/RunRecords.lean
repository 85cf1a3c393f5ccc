import AgentOtelBridge.Lib.Checked
import AgentOtelBridge.Lib.Json
import Mathlib.Algebra.GroupWithZero.Nat

/-!
# The records of a run

A run is a chain of events.  Each event is a sealed record that names the digest of the one
before it, and carries what its kind needs: a contract, a candidate, an operation, a grant.
The state of a run is what the events give when they are reduced.

A record has the fields of its kind.  A text that is missing is empty, which each check
refuses as it refuses one that is missing.  The digests of the records and the instants of
their timestamps are the platform's (`Host`).
-/

namespace AgentOtelBridge.Flow

open Checked

/-! ## Checks of values -/

/-- White space that `trim` drops. -/
def isSpace (c : Char) : Bool :=
  let n := c.toNat
  (9 ≤ n && n ≤ 13) || n == 0x20 || n == 0xA0 || n == 0x1680 || (0x2000 ≤ n && n ≤ 0x200A) ||
    n == 0x2028 || n == 0x2029 || n == 0x202F || n == 0x205F || n == 0x3000 || n == 0xFEFF

def isBlank (value : String) : Bool := value.toList.all isSpace

/-- A text of 64 small hexadecimal digits, each of which is one byte. -/
def isDigest (value : String) : Bool :=
  let bytes := value.toByteArray.data.toList
  bytes.length = 64 && bytes.all fun b => (0x61 ≤ b && b ≤ 0x66) || (0x30 ≤ b && b ≤ 0x39)

def requireText (value name : String) : Except String Unit :=
  require (isBlank value = false) (name ++ " is required")

def requireDigest (value name : String) : Except String Unit :=
  require (isDigest value = true) (name ++ " must be a SHA-256 digest")

/-- `requireDeliveryRecord`, for a record whose digest is `current`. -/
def requireDeliveryRecord (version : Nat) (recordType digest current type : String) :
    Except String Unit :=
  require (version = 1 ∧ recordType = type ∧ isDigest digest = true ∧ current = digest)
    ("Invalid or stale " ++ type ++ " record")

/-- The names that every object has from its prototype. -/
def inheritedNames : List String :=
  ["constructor", "__defineGetter__", "__defineSetter__", "hasOwnProperty", "__lookupGetter__",
    "__lookupSetter__", "isPrototypeOf", "propertyIsEnumerable", "toString", "valueOf",
    "__proto__", "toLocaleString"]

/-! ## Delegation -/

structure Issuer where
  id : String
  origin : String
  authorityRef : String
  mode : String
  allowedActions : List String
  allowThroughMerge : Bool

structure DelegationPolicy where
  version : Nat
  issuers : List Issuer
  requiredChecks : List String
  reviewPolicy : String
  materiality : String
  allowSubdelegation : Bool
  safetyReserve : Nat
  /-- Whether the policy has a `hardCeiling`. -/
  hardCeiling : Bool

structure IssuerBinding where
  issuerId : String
  type : String
  mode : String
  origin : String
  authorityRef : String
  policyDigest : String
  requestDigest : String
  decisionRef : String

/-- What is requested, without the binding to an issuer. -/
structure GrantIntent where
  issuerMode : String
  planDigest : String
  policyDigest : String
  repository : String
  base : String
  delegate : String
  allowedPaths : List String
  allowedActions : List String
  capabilities : List String
  requiredChecks : List String
  reviewPolicy : String
  materiality : String
  allowSubdelegation : Bool
  maxAttempts : Nat
  maxExternalEffects : Nat
  expiry : String
  /-- The names of fields that a request does not have. -/
  otherFields : List String

structure GrantRequest extends GrantIntent where
  issuerBinding : Option IssuerBinding

structure GrantEnvelope where
  id : String
  issuedAt : String
  issuerActor : String
  binding : GrantRequest
  parentId : Option String
  otherFields : List String

structure Check where
  name : String
  outcome : String
  candidateDigest : String

structure Review where
  outcome : String
  policy : String
  candidateDigest : String

structure Operation where
  id : String
  planDigest : String
  policyDigest : String
  repository : String
  base : String
  delegate : String
  action : String
  paths : List String
  capabilities : List String
  candidateDigest : String
  workspaceDigest : String
  checks : List Check
  review : Option Review
  arguments : Option (List (String × Json))
  otherFields : List String

/-- The decision of a host on an operation. -/
structure Authorization where
  type : String
  grantId : String
  grantRevision : String
  policyDigest : String
  issuerId : String
  mode : String
  origin : String
  authorityRef : String
  decisionRef : String
  operationDigest : String
  delegate : String

structure AdmissionRequest where
  grantId : String
  runRevision : Option String
  generation : Nat
  writer : String
  grantRevision : String
  grantEpoch : Nat
  operation : Operation
  operationDigest : String
  authorization : Authorization

/-- What an authoritative source says of an operation. -/
structure Outcome where
  verified : Bool
  state : String
  operationId : String
  payloadDigest : String
  candidateDigest : String
  sourceRevision : String

structure SafetyRecord where
  id : String
  kind : String
  reason : String
  operationId : String
  outcome : Option Outcome
  otherFields : List String

/-! ## Evidence -/

structure Criterion where
  id : String
  definitionDigest : String

structure OraclePin where
  type : String
  phase : Nat
  oracleDigest : Option String
  pinnedBefore : String

structure Contract where
  criteria : List Criterion
  goalRevision : Option String
  oracleDigest : Option String
  oraclePin : Option OraclePin

structure Observation where
  version : Nat
  type : String
  digest : String
  candidateDigest : Option String
  criterionId : String
  definitionDigest : String
  outcome : String

/-- What the reducer reads of the request for an oracle package. -/
structure PackageRequest where
  runId : String
  goalRef : String
  candidateDigest : Option String
  runRevision : Option String
  generation : Nat
  revocationEpoch : Nat
  stage : String

/-- What the reducer reads of a receipt.  `identity` is the digest of its proofs. -/
structure PackageReceipt where
  oracleDigest : String
  manifestDigest : String
  runtimeCriterionId : String
  identity : String

structure OraclePackage where
  request : PackageRequest
  receipt : PackageReceipt

structure CustodyRequest where
  runId : String
  goalRef : String
  runRevision : Option String
  generation : Nat
  revocationEpoch : Nat
  oracleDigest : Option String
  candidateDigest : Option String
  mode : String

structure CustodyReceipt where
  oracleDigest : Option String
  generation : Nat
  revocationEpoch : Nat

structure OracleCustody where
  author : Option CustodyReceipt := none
  assignment : Option CustodyReceipt := none

/-- `Object.values`. -/
def OracleCustody.receipts (custody : OracleCustody) : List CustodyReceipt :=
  custody.author.toList ++ custody.assignment.toList

structure RuntimeEvidence where
  candidateDigest : Option String
  oracleDigest : Option String
  manifestDigest : Option String
  generation : Nat
  revocationEpoch : Nat
  observationDigest : String

/-- A budget is an object that the run does not read. -/
abbrev Budget := List (String × Json)

/-- What the reducer reads of a request for consent. -/
structure IntentRequest where
  runId : String
  runRevision : Option String
  generation : Nat
  goalRef : String
  goalRevision : Option String
  contractSourceRevision : Option String
  contractDigest : String
  profile : String
  businessBoundary : String
  budget : Option Budget
  planDigest : Option String

structure IntentConsent where
  digest : String
  requestDigest : String
  decision : String

structure Finding where
  id : String
  requiredChange : String

/-! ## Events -/

structure Started where
  profile : String
  boundary : String
  goalRef : String
  owner : String
  writer : Option String
  budget : Option Budget
  authorityProtocol : Option String
  delegationPolicy : Option DelegationPolicy
  oracleAssuranceRequired : Bool

structure ContractFrozen where
  contract : Option Contract
  sourceRevision : String
  oracleDigest : Option String
  oraclePin : Option OraclePin
  oracleAssuranceRequired : Bool

structure OraclePinned where
  digest : Option String
  oracleDigest : Option String
  pin : Option OraclePin
  seat : Option String
  oraclePackage : Option OraclePackage
  oracleAssuranceRequired : Bool

structure CustodyRecorded where
  request : CustodyRequest
  receipt : CustodyReceipt

structure BudgetAdmission where
  admitted : Bool
  known : Bool
  usageKnown : Bool
  observedAt : String

structure Advanced where
  source : Nat
  target : Nat
  acceptanceDigest : String
  candidateDigest : Option String
  intentRequest : IntentRequest
  intentConsent : IntentConsent
  planDigest : Option String
  oracleDigest : Option String
  oraclePin : Option OraclePin
  oraclePackageVerification : Option OraclePackage
  oracleRuntimeEvidence : Option RuntimeEvidence

structure Returned where
  target : Nat
  findings : List Finding

structure ReworkResolved where
  id : String
  observationDigests : List String

structure Resumed where
  previousOwnerStopped : Bool
  boundary : String
  owner : String
  writer : Option String
  invalidateCandidate : Bool

/-- The state of an external operation, as an event has it. -/
structure OperationRecord where
  id : String
  kind : Option String
  state : String
  payloadDigest : String
  /-- The state that a reconciliation names. -/
  reconciliation : Option String

structure Completed where
  acceptanceDigest : String
  candidateDigest : Option String

inductive Payload where
  | started (p : Started)
  | contractFrozen (p : ContractFrozen)
  | oraclePinned (p : OraclePinned)
  | oracleCustodyRecorded (p : CustodyRecorded)
  | candidate (digest : String)
  | observation (observation : Observation)
  | budgetAdmission (p : BudgetAdmission)
  | advanced (p : Advanced)
  | returned (p : Returned)
  | reworkResolved (p : ReworkResolved)
  | paused (reason : String)
  | blocked (reason : String)
  | resumed (p : Resumed)
  | operation (p : OperationRecord)
  | completed (p : Completed)
  | cancelled
  | checkpoint
  | grantIssued (grant : GrantEnvelope)
  | grantRevoked (id reason : String)
  | operationAdmitted (p : AdmissionRequest)
  | delegationSafety (p : SafetyRecord)
  /-- A kind that the reducer does not know. -/
  | other (kind : String)

def Payload.kind : Payload → String
  | started _ => "started"
  | contractFrozen _ => "contract-frozen"
  | oraclePinned _ => "oracle-pinned"
  | oracleCustodyRecorded _ => "oracle-custody-recorded"
  | candidate _ => "candidate"
  | observation _ => "observation"
  | budgetAdmission _ => "budget-admission"
  | advanced _ => "advanced"
  | returned _ => "returned"
  | reworkResolved _ => "rework-resolved"
  | paused _ => "paused"
  | blocked _ => "blocked"
  | resumed _ => "resumed"
  | operation _ => "operation"
  | completed _ => "completed"
  | cancelled => "cancelled"
  | checkpoint => "checkpoint"
  | grantIssued _ => "grant-issued"
  | grantRevoked _ _ => "grant-revoked"
  | operationAdmitted _ => "operation-admitted"
  | delegationSafety _ => "delegation-safety"
  | other kind => kind

structure RunEvent where
  version : Nat
  type : String
  runId : String
  id : String
  previousDigest : Option String
  generation : Nat
  timestamp : String
  payload : Payload
  digest : String

def RunEvent.kind (event : RunEvent) : String := event.payload.kind

/-! ## The state of a run -/

inductive GrantStatus where
  | active
  | revoked
deriving DecidableEq

/-- What is counted of a grant. -/
structure GrantBudget where
  attempts : Nat
  externalEffects : Nat

structure Grant where
  envelope : GrantEnvelope
  revision : String
  status : GrantStatus
  revocationEpoch : Nat
  budgetUsed : GrantBudget
  budgetReserved : GrantBudget

def Grant.id (grant : Grant) : String := grant.envelope.id

structure Admission where
  grantId : String
  operation : Operation
  operationDigest : String
  eventId : String
  eventDigest : String

/-- An operation as the run has it: what an outcome alone has written has no payload. -/
structure RunOperation where
  kind : Option String := none
  state : Option String := none
  payloadDigest : Option String := none
  reconciliation : Option String := none

inductive Status where
  | active
  | paused
  | blocked
  | completed
  | cancelled
deriving DecidableEq

structure HistoryEntry where
  id : String
  kind : String
  timestamp : String
  digest : String

structure RunState where
  runId : String
  goalRef : String
  profile : String
  boundary : String
  authorityProtocol : String
  owner : String
  writer : Option String
  budget : Option Budget
  budgetAdmission : Option BudgetAdmission
  generation : Nat
  status : Status
  reason : Option String
  phase : Nat
  candidateDigest : Option String
  observations : List Observation
  openRework : List Finding
  operations : List (String × RunOperation)
  history : List HistoryEntry
  revision : Option String
  grants : List Grant
  admissions : List Admission
  delegationPolicy : Option DelegationPolicy
  safetyUsed : Nat
  safetyRecords : List SafetyRecord
  revocationEpoch : Nat
  contract : Option Contract
  contractSourceRevision : Option String
  oracleAssuranceRequired : Bool
  oraclePin : Option OraclePin
  oracleDigest : Option String
  oraclePackage : Option OraclePackage
  oraclePackageDeveloper : Option OraclePackage
  oracleCustody : Option OracleCustody
  oracleRuntimeEvidence : Option RuntimeEvidence

/-- What the platform gives: instants, digests, and the checks of the records of an oracle. -/
structure Host where
  /-- `Date.parse`, without a value for what it cannot read. -/
  dateParse : String → Option Int
  /-- `recordDigest` of an event without its digest, and of the other records. -/
  eventDigest : RunEvent → String
  observationDigest : Observation → String
  policyDigest : DelegationPolicy → String
  requestDigest : GrantIntent → String
  envelopeDigest : GrantEnvelope → String
  operationDigest : Operation → String
  contractDigest : Option Contract → String
  budgetDigest : Option Budget → String
  /-- The bytes of a safety record as JSON. -/
  safetyBytes : SafetyRecord → Nat
  requireOraclePackageRequest : PackageRequest → Except String Unit
  requireOraclePackageReceipt : PackageReceipt → PackageRequest → Except String Unit
  requireOracleCustodyRequest : CustodyRequest → Except String Unit
  requireOracleCustodyReceipt : CustodyReceipt → CustodyRequest → Except String Unit
  verifyHostIntentConsent : IntentRequest → IntentConsent → String → Except String Unit

end AgentOtelBridge.Flow
