import AgentOtelBridge.Lib.FiniteMap
import AgentOtelBridge.Lib.Json
import AgentOtelBridge.Lib.Text
import Mathlib.Data.Rat.Floor

/-!
# The quota engine

A table of quotas by bucket.  It is filled from the quota files and session logs of the
installed providers and from a directory of drop-ins, each time that snapshots are asked for,
and by the activity of agents.

Floating point numbers are rationals here, and the clock counts nanoseconds.  One call reads
it once.  The parser of JSON and the value of its numbers are up to the `Host`.
-/

namespace AgentOtelBridge.Quota

open FiniteMap Text

structure QuotaSnapshot where
  remainingFraction : ℚ
  secondsToReset : ℚ
  observedAtUnixNano : Nat
  bucket : String
  group : String
deriving DecidableEq

def clamp (value low high : ℚ) : ℚ := max low (min value high)

/-- What the engine has of its platform. -/
structure Host where
  /-- `serde_json::from_slice`. -/
  parse : List UInt8 → Option Json
  /-- The value of a JSON number as `f64`. -/
  number : String → ℚ
  /-- `AGENT_OTEL_QUOTA_BUCKET`. -/
  quotaBucket : Option String
  /-- `AGENT_OTEL_QUOTA_GROUP`. -/
  quotaGroup : Option String

def Host.asF64 (host : Host) : Json → Option ℚ
  | .num text => some (host.number text)
  | _ => none

def quotaDefaultBucket : String := "gemini-weekly"

def quotaDefaultGroup : String := "gemini"

/-! ## Quota files -/

/-- A file: its bytes if they can be read, and when it was modified if that is known. -/
structure QuotaFile where
  bytes : Option (List UInt8)
  modified : Option Nat

/-- The document of a file that is not too long. -/
def QuotaFile.document (host : Host) (file : QuotaFile) : Option Json :=
  file.bytes.bind fun bytes => if 65536 < bytes.length then none else host.parse bytes

/-- The age of a file in seconds.  A file of the future has none. -/
def QuotaFile.ageSec (file : QuotaFile) (now : Nat) : ℚ :=
  match file.modified with
  | some modified => if modified ≤ now then ((now - modified : Nat) : ℚ) / 1000000000 else 0
  | none => 0

/-- A member under one of two names, as a number. -/
def numberAt (host : Host) (parsed : Json) (name other : String) : Option ℚ :=
  ((parsed.get name).or (parsed.get other)).bind host.asF64

def rawReset (host : Host) (parsed : Json) : ℚ :=
  (numberAt host parsed "seconds_to_reset" "secondsToReset").getD 0

def readQuotaFile (host : Host) (now : Nat) (file : QuotaFile) : Option QuotaSnapshot :=
  (file.document host).map fun parsed =>
    let remaining := (numberAt host parsed "remaining_fraction" "remainingFraction").getD 1
    let rawReset := rawReset host parsed
    let fileAgeSec := file.ageSec now
    let secondsToReset := if fileAgeSec < rawReset then rawReset - fileAgeSec else 0
    -- a quota that was used up is healthy again when its time is over
    let remaining := if remaining = 0 ∧ 0 < rawReset ∧ rawReset ≤ fileAgeSec then 3 / 4 else remaining
    let bucket := (((parsed.get "bucket").bind Json.asStr).or host.quotaBucket).getD quotaDefaultBucket
    let group := ((((parsed.get "group").or (parsed.get "provider")).bind Json.asStr).or
      host.quotaGroup).getD quotaDefaultGroup
    { remainingFraction := clamp remaining 0 1
      secondsToReset := if 0 < secondsToReset then secondsToReset else 3600
      observedAtUnixNano := now
      bucket
      group }

/-! ## Providers -/

/-- A session log of Claude, with the lines up to one that cannot be read. -/
structure SessionFile where
  modified : Nat
  lines : Option (List String)

/-- An entry of the directory of drop-ins. -/
structure DropIn where
  json : Bool
  file : QuotaFile

/-- What is under a HOME when it is looked at. -/
structure Home where
  /-- Which paths exist. -/
  has : String → Bool
  file : String → QuotaFile
  /-- Which environment variables are set. -/
  environment : String → Bool
  /-- The session logs in `.claude/projects`, if that is a directory. -/
  sessions : Option (List SessionFile)
  /-- The entries of `.agent-otel/quotas` that can be read, among those there are. -/
  dropIns : Option (List (Option DropIn))

inductive Provider where
  | gemini
  | claude
  | codex
  | grok
  | pi
deriving DecidableEq, Repr

/-- `BUILTIN_PROVIDERS`. -/
def builtinProviders : List Provider := [.gemini, .claude, .codex, .grok, .pi]

namespace Provider

def id : Provider → String
  | gemini => "antigravity"
  | claude => "claude"
  | codex => "codex"
  | grok => "grok"
  | pi => "pi"

def aliases : Provider → List String
  | gemini => ["agy", "gemini"]
  | claude => ["claude-code", "claudecode"]
  | codex => ["openai", "codex-cli"]
  | grok => ["xai", "grok-cli"]
  | pi => ["pi-cli"]

def matchesName (provider : Provider) (name : String) : Bool :=
  let lower := asciiLower (trim name)
  provider.id = lower || provider.aliases.contains lower

def isInstalled (home : Home) : Provider → Bool
  | gemini => home.has ".gemini" || home.has ".state/quota.json" || home.environment "GEMINI_API_KEY"
  | claude => home.has ".claude" || home.environment "ANTHROPIC_API_KEY"
  | codex => home.has ".codex" || home.environment "OPENAI_API_KEY"
  | grok => home.has ".grok" || home.environment "XAI_API_KEY"
  | pi => home.has ".pi"

def fallbackBaseline (now : Nat) : Provider → QuotaSnapshot
  | gemini => ⟨35 / 100, 1800, now, "gemini", "google"⟩
  | claude => ⟨75 / 100, 3600, now, "claude", "anthropic"⟩
  | codex => ⟨40 / 100, 2400, now, "codex", "openai"⟩
  | grok => ⟨45 / 100, 3600, now, "grok", "xai"⟩
  | pi => ⟨95 / 100, 3600, now, "pi", "pi"⟩

def burnPerToken : Provider → ℚ
  | claude => 1 / 20000000
  | _ => 1 / 500000

end Provider

/-- A file that exists, read. -/
def readExisting (host : Host) (now : Nat) (home : Home) (path : String) : Option QuotaSnapshot :=
  if home.has path then readQuotaFile host now (home.file path) else none

/-! ## Session logs -/

/-- What was found in the lines of a session log. -/
structure SessionScan where
  lastQuotaLimit : Option (String × ℚ) := none
  lastTokensLeft : Option Nat := none
  hasRecentMessages : Bool := false

/-- The number of tokens that a line says are left. -/
def tokensLeft (line : String) : Option Nat := do
  let (_, after) ← splitOnce "<total_tokens>" line
  let (number, _) ← splitOnce " tokens left" after
  parseUnsigned 64 (trim number)

/-- The limit that a line says there is. -/
def quotaLimit (host : Host) (line : String) : Option (String × ℚ) := do
  let value ← host.parse (asBytes line)
  let limits ← value.get "quotaLimits"
  some (((limits.get "status").bind Json.asStr).getD "",
    ((limits.get "resetsAt").bind host.asF64).getD 0)

def SessionScan.line (host : Host) (scan : SessionScan) (line : String) : SessionScan where
  lastTokensLeft :=
    if contains line "total_tokens_reminder" || contains line "tokens left" then
      (tokensLeft line).or scan.lastTokensLeft
    else scan.lastTokensLeft
  lastQuotaLimit :=
    if contains line "quotaLimits" then (quotaLimit host line).or scan.lastQuotaLimit
    else scan.lastQuotaLimit
  hasRecentMessages := scan.hasRecentMessages || contains line "\"role\":\"assistant\"" ||
    contains line "\"type\":\"assistant\""

/-- The first of the files that were modified last. -/
def latestFile (files : List SessionFile) : Option SessionFile :=
  files.foldl (fun latest file => match latest with
    | some found => if found.modified < file.modified then some file else some found
    | none => some file) none

def claudeSnapshot (now : Nat) (remainingFraction secondsToReset : ℚ) : QuotaSnapshot :=
  ⟨remainingFraction, secondsToReset, now, "claude", "anthropic"⟩

/-- What a scan says about the quota of Claude. -/
def SessionScan.quota (now : Nat) (scan : SessionScan) : QuotaSnapshot :=
  let diff (resetsAt : ℚ) : ℚ := resetsAt - (now / 1000000000 : Nat)
  let usual :=
    match scan.lastTokensLeft with
    | some tokens => claudeSnapshot now (clamp (tokens / 20000000) (5 / 100) 1) 3600
    | none => claudeSnapshot now (3 / 4) 3600
  match scan.lastQuotaLimit with
  | some (status, resetsAt) =>
    if 0 < diff resetsAt ∧ status = "rejected" then claudeSnapshot now 0 (diff resetsAt) else usual
  | none => usual

def detectClaudeSessionQuota (host : Host) (now : Nat) (home : Home) : Option QuotaSnapshot := do
  let files ← home.sessions
  let file ← latestFile files
  let lines ← file.lines
  some ((lines.foldl (SessionScan.line host) {}).quota now)

def Provider.harvestQuota (host : Host) (now : Nat) (home : Home) : Provider → Option QuotaSnapshot
  | gemini => (readExisting host now home ".gemini/quota.json").or
      (readExisting host now home ".state/quota.json")
  | claude => (readExisting host now home ".claude/quota.json").or
      (detectClaudeSessionQuota host now home)
  | codex => readExisting host now home ".codex/quota.json"
  | grok => readExisting host now home ".grok/quota.json"
  | pi => readExisting host now home ".pi/quota.json"

def detectInstalledProviders (home : Home) : List Provider :=
  builtinProviders.filter (Provider.isInstalled home)

def findProviderByName (name : String) : Option Provider :=
  builtinProviders.find? (Provider.matchesName · name)

/-! ## The engine -/

abbrev Table := Map String QuotaSnapshot

structure QuotaEngine where
  quotas : Table
  bootTimeNs : Nat

/-- A snapshot goes to its bucket. -/
def insertSnapshot (quotas : Table) (snapshot : QuotaSnapshot) : Table :=
  quotas.insert snapshot.bucket snapshot

def QuotaEngine.new (host : Host) (now : Nat) (home : Option Home) : QuotaEngine where
  quotas :=
    match home with
    | some home => (detectInstalledProviders home).foldl (fun quotas provider =>
        insertSnapshot quotas
          ((provider.harvestQuota host now home).getD (provider.fallbackBaseline now))) ∅
    | none => ∅
  bootTimeNs := now

/-- The bucket of an agent, what a token costs it, and its group. -/
structure Agent where
  bucket : String
  burnPerToken : ℚ
  group : String

def agentNamed (now : Nat) (agentName : String) : Agent :=
  match findProviderByName agentName with
  | some provider =>
    let base := provider.fallbackBaseline now
    ⟨base.bucket, provider.burnPerToken, base.group⟩
  | none => ⟨asciiLower agentName, 1 / 500000, "ai-agent"⟩

/-- What some activity costs. -/
def Agent.burn (agent : Agent) (tokensUsed : Option UInt64) : ℚ :=
  match tokensUsed with
  | some tokens => tokens.toNat * agent.burnPerToken
  | none => 5 / 1000

/-- The entry of an agent, which is made if it is not there. -/
def QuotaEngine.entryOf (engine : QuotaEngine) (now : Nat) (agent : Agent) : QuotaSnapshot :=
  (engine.quotas.lookup agent.bucket).getD ⟨95 / 100, 3600, now, agent.bucket, agent.group⟩

/-- An entry that some activity has cost something. -/
def QuotaSnapshot.burnt (entry : QuotaSnapshot) (now : Nat) (cost : ℚ) : QuotaSnapshot :=
  { entry with
    remainingFraction := clamp (entry.remainingFraction - cost) 0 1
    observedAtUnixNano := now }

/-- The activity of an agent, unless that is new and there is no place. -/
def QuotaEngine.recordAgent (engine : QuotaEngine) (now : Nat) (agent : Agent)
    (tokensUsed : Option UInt64) : QuotaEngine :=
  if 128 ≤ engine.quotas.keys.length ∧ agent.bucket ∉ engine.quotas then engine
  else
    { engine with
      quotas := engine.quotas.insert agent.bucket
        ((engine.entryOf now agent).burnt now (agent.burn tokensUsed)) }

def QuotaEngine.recordActivity (engine : QuotaEngine) (now : Nat) (agentName : String)
    (tokensUsed : Option UInt64) : QuotaEngine :=
  engine.recordAgent now (agentNamed now agentName) tokensUsed

/-- The snapshots of the installed providers. -/
def harvested (host : Host) (now : Nat) (home : Home) : List QuotaSnapshot :=
  (detectInstalledProviders home).filterMap (Provider.harvestQuota host now home)

/-- The snapshots of the drop-ins, of 128 entries at most. -/
def droppedIn (host : Host) (now : Nat) (home : Home) : List QuotaSnapshot :=
  (((home.dropIns.getD []).take 128).filterMap fun entry => entry).filterMap fun dropIn =>
    if dropIn.json then readQuotaFile host now dropIn.file else none

/-- A drop-in does not take a place where there is none. -/
def insertDropIn (quotas : Table) (snapshot : QuotaSnapshot) : Table :=
  if quotas.keys.length < 128 ∨ snapshot.bucket ∈ quotas then insertSnapshot quotas snapshot
  else quotas

/-- The table with what is found under the HOME. -/
def QuotaEngine.refresh (engine : QuotaEngine) (host : Host) (now : Nat) (home : Option Home) :
    QuotaEngine :=
  match home with
  | some home =>
    { engine with
      quotas := (droppedIn host now home).foldl insertDropIn
        ((harvested host now home).foldl insertSnapshot engine.quotas) }
  | none => engine

/-- Whole seconds since the engine was made. -/
def QuotaEngine.elapsedSec (engine : QuotaEngine) (now : Nat) : Nat :=
  if engine.bootTimeNs < now then (now - engine.bootTimeNs) / 1000000000 else 0

/-- The remainder of `%`, of numbers that are not negative. -/
def remainder (a b : ℚ) : ℚ := a - b * ⌊a / b⌋

/-- A snapshot as it is reported. -/
def report (elapsedSec : ℚ) (now : Nat) (s : QuotaSnapshot) : QuotaSnapshot :=
  { s with
    observedAtUnixNano := now
    secondsToReset :=
      if elapsedSec < s.secondsToReset then
        max (s.secondsToReset - remainder elapsedSec s.secondsToReset) 10
      else s.secondsToReset }

/-- `snapshots`: the table after it, and what it reports in the order of the buckets. -/
def QuotaEngine.snapshots (engine : QuotaEngine) (host : Host) (order : IterOrder String)
    (now : Nat) (home : Option Home) : QuotaEngine × List QuotaSnapshot :=
  let engine' := engine.refresh host now home
  (engine', ((order.iter engine'.quotas).map fun entry =>
    report (engine.elapsedSec now) now entry.2).mergeSort fun a b => a.bucket ≤ b.bucket)

end AgentOtelBridge.Quota
