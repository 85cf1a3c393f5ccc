import AgentOtelBridge.Lib.Text
import AgentOtelBridge.Lib.UnixPath

/-!
# Tool archetypes

What a shell command is for, read from its words: the binary of the first pipeline
segment, its subcommand, and marks of the whole command.
-/

namespace AgentOtelBridge

inductive ToolArchetype where
  | filterCompressor
  | structuredParser
  | inspectorDiff
  | searchRetrieval
  | buildTestVerify
  | stateMutation
  | envPkgManager
  | vcsLifecycle
  | networkTransfer
  | genericExec
deriving DecidableEq, Repr

def ToolArchetype.asStr : ToolArchetype → String
  | .filterCompressor => "filter_compressor"
  | .structuredParser => "structured_parser"
  | .inspectorDiff => "inspector_diff"
  | .searchRetrieval => "search_retrieval"
  | .buildTestVerify => "build_test_verify"
  | .stateMutation => "state_mutation"
  | .envPkgManager => "env_pkg_manager"
  | .vcsLifecycle => "vcs_lifecycle"
  | .networkTransfer => "network_transfer"
  | .genericExec => "generic_exec"

structure ClassifiedCommand where
  archetype : ToolArchetype
  binary : String
  pipelineDepth : Nat
  wrappedBinary : Option String
deriving DecidableEq, Repr

namespace ClassifiedCommand

/-- The loop of `count_pipeline_segments`, with the quotes it is in. -/
def countPipes (inSingleQuote inDoubleQuote : Bool) (count : Nat) : List Char → Nat
  | [] => count
  | '\'' :: cs =>
      if inDoubleQuote then countPipes inSingleQuote inDoubleQuote count cs
      else countPipes (!inSingleQuote) inDoubleQuote count cs
  | '"' :: cs =>
      if inSingleQuote then countPipes inSingleQuote inDoubleQuote count cs
      else countPipes inSingleQuote (!inDoubleQuote) count cs
  | '|' :: '|' :: cs =>
      -- A logical or outside quotes is skipped whole; inside, both are text.
      countPipes inSingleQuote inDoubleQuote count cs
  | '|' :: cs =>
      if inSingleQuote || inDoubleQuote then countPipes inSingleQuote inDoubleQuote count cs
      else countPipes inSingleQuote inDoubleQuote (count + 1) cs
  | _ :: cs => countPipes inSingleQuote inDoubleQuote count cs

def countPipelineSegments (cmd : String) : Nat := countPipes false false 1 cmd.toList

def normalizeBinary (raw : String) : String :=
  let clean := Text.trimMatches ['"', '\'', '`'] raw
  Text.asciiLower (((UnixPath.fileStem clean.toList).map String.ofList).getD clean)

def isProxyWrapper (bin : String) : Bool := bin ∈ ["rtk", "tee", "time", "stdbuf", "timeout"]

/-- The loop of `extract_subcommand`: the first word that is no option. -/
def firstOperand : List String → Option String
  | [] => none
  | tok :: toks =>
      if Text.startsWith tok "+" then firstOperand toks
      else if Text.startsWith tok "-" then
        if tok ∈ ["-C", "-p", "--prefix", "--manifest-path", "-m", "--cwd"] then
          match toks with
          | [] => none
          | _ :: toks => firstOperand toks
        else firstOperand toks
      else some tok

def extractSubcommand (tokens : List String) : Option String := firstOperand tokens.tail

def inferArchetype (bin rawCmd : String) (tokens : List String) : ToolArchetype :=
  if Text.contains rawCmd "| jq" || Text.contains rawCmd "| yq" || Text.contains rawCmd "| dasel" then
    .structuredParser
  else
    let subcmd := (extractSubcommand tokens).getD ""
    if bin = "git" then
      if subcmd ∈ ["diff", "log", "show", "status", "blame", "whatchanged"] then .inspectorDiff
      else if subcmd = "grep" then .searchRetrieval
      else .vcsLifecycle
    else if bin = "gh" then
      if subcmd = "api" then .networkTransfer else .vcsLifecycle
    else if bin ∈ ["npm", "pnpm", "yarn", "bun"] then
      if subcmd ∈ ["test", "run-script"] ∧ Text.contains rawCmd "test" then .buildTestVerify
      else if subcmd ∈ ["lint", "check"] then .buildTestVerify
      else if subcmd ∈ ["install", "i", "add", "update", "up", "remove", "rm", "uninstall", "audit",
          "outdated", "link", "ci"] then .envPkgManager
      else if Text.contains rawCmd "test" then .buildTestVerify
      else .envPkgManager
    else if bin = "cargo" then
      if subcmd ∈ ["test", "check", "clippy", "build", "bench", "doc", "verify", "fmt"] then
        .buildTestVerify
      else if subcmd ∈ ["add", "rm", "install", "uninstall", "update", "upgrade",
          "generate-lockfile"] then .envPkgManager
      else .buildTestVerify
    else if bin ∈ ["pip", "pip3", "poetry", "uv", "conda", "mamba", "pipenv", "gem", "apt", "apt-get",
        "brew", "dnf", "yum", "pacman", "nuget"] then .envPkgManager
    else if bin = "go" then
      if subcmd ∈ ["test", "vet", "build"] then .buildTestVerify
      else if subcmd ∈ ["get", "install", "mod"] then .envPkgManager
      else .buildTestVerify
    else if bin ∈ ["python", "python3"] then
      if Text.contains rawCmd "-m pip" || Text.contains rawCmd "-m uv" then .envPkgManager
      else if Text.contains rawCmd "-m pytest" || Text.contains rawCmd "-m unittest" ||
          Text.contains rawCmd "test" then .buildTestVerify
      else .genericExec
    else if bin ∈ ["curl", "wget", "httpie", "http", "fetch", "ftp", "sftp", "rsync", "scp"] then
      .networkTransfer
    else if bin ∈ ["touch", "mkdir", "rm", "rmdir", "cp", "mv", "patch", "truncate", "chmod", "chown",
        "ln", "unlink", "write_to_file"] then .stateMutation
    else if bin = "sed" ∧ (Text.contains rawCmd "-i" || Text.contains rawCmd "--in-place") then
      .stateMutation
    else if bin ∈ ["rtk", "head", "tail", "cut", "sed", "awk", "fold", "summarize"] then
      .filterCompressor
    else if bin ∈ ["jq", "yq", "dasel", "fx", "gron", "xmllint", "jmespath"] then .structuredParser
    else if bin ∈ ["cat", "bat", "delta", "diff", "colordiff", "less", "more", "view_file", "nl",
        "od"] then .inspectorDiff
    else if bin ∈ ["rg", "grep", "findstr", "fd", "find", "ag", "ack", "ast-grep", "sg", "locate",
        "where", "which"] then .searchRetrieval
    else if bin ∈ ["pytest", "tsc", "eslint", "ruff", "golangci-lint", "make", "ninja", "cmake", "mvn",
        "gradle", "vitest", "jest", "mocha"] then .buildTestVerify
    else .genericExec

/-- `ClassifiedCommand::classify`.  The first segment is cut at the first `|`,
whatever the quotes. -/
def classify (rawCmd : String) : ClassifiedCommand :=
  let trimmed := Text.trim rawCmd
  if trimmed = "" then ⟨.genericExec, "", 1, none⟩
  else
    let pipelineDepth := countPipelineSegments trimmed
    let firstSegment := Text.trim (Text.beforeFirst '|' trimmed)
    let tokens := Text.splitWhitespace firstSegment
    let binary := normalizeBinary (tokens.headD "")
    if isProxyWrapper binary then
      ⟨.filterCompressor, binary, pipelineDepth, (tokens[1]?).map normalizeBinary⟩
    else ⟨inferArchetype binary trimmed tokens, binary, pipelineDepth, none⟩

end ClassifiedCommand

end AgentOtelBridge
