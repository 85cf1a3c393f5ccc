import AgentOtelBridge.Lib.TextScan

/-!
# Hook commands

The command of a hook is a line for a shell: the socket as an assignment, the quoted
path of the executable, the event and the client.  `isBridgeCommand` is the
recognizer that says which handlers of a configuration belong to the bridge.  It
splits a line into literal words and refuses one that a shell would expand.

A quoted path is read back as it was, whatever characters it has
(`shellWords_quote`, `shellWords_escapePath`).
-/

namespace AgentOtelBridge.HookCommand

open Text

def apostrophe : Char := '\x27'
def quotation : Char := '\x22'
def backtick : Char := '\x60'

/-! ## Words -/

/-- The words that are read, the one that is being read, and the quotation it is in. -/
structure ShellState where
  words : List String
  word : List Char
  started : Bool
  quote : Option Char
deriving DecidableEq, Repr

namespace ShellState

def push (s : ShellState) (c : Char) : ShellState :=
  { s with word := s.word ++ [c], started := true }

/-- A character behind a backslash.  In quotation marks most keep the backslash. -/
def escape (s : ShellState) (next : Char) : ShellState :=
  if s.quote = some quotation ∧ next ∉ ['$', backtick, quotation, '\\', '\n'] then
    (s.push '\\').push next
  else s.push next

def endWord (s : ShellState) : ShellState :=
  if s.started then { s with words := s.words ++ [.ofList s.word], word := [], started := false }
  else s

end ShellState

/-- The characters that a shell does not take as they are. -/
def shellSpecial : List Char :=
  [';', '|', '&', '<', '>', '(', ')', '*', '?', '[', ']', '\x7b', '\x7d', '~', '\n', '\r']

/-- The loop of `literal_shell_words`. -/
def shellWords (s : ShellState) : List Char → Option (List String)
  | [] => if s.quote.isSome then none else some s.endWord.words
  | ch :: rest =>
    if s.quote = some ch then shellWords { s with quote := none } rest
    else if s.quote = none ∧ (ch = apostrophe ∨ ch = quotation) then
      shellWords { s with quote := some ch, started := true } rest
    else if s.quote = some apostrophe then shellWords (s.push ch) rest
    else if ch = '\\' then
      match rest with
      | [] => none
      | next :: rest => shellWords (s.escape next) rest
    else if ch = '$' ∨ ch = backtick then none
    else if s.quote = none ∧ ch ∈ shellSpecial then none
    else if s.quote = none ∧ isWhitespace ch then shellWords s.endWord rest
    else shellWords (s.push ch) rest

def literalShellWords (command : String) : Option (List String) :=
  shellWords ⟨[], [], false, none⟩ command.toList

/-! ## Formatters -/

/-- A value between apostrophes. -/
def quote (value : List Char) : List Char :=
  apostrophe :: (value.flatMap fun c =>
    if c = apostrophe then [apostrophe, quotation, apostrophe, quotation, apostrophe] else [c]) ++
      [apostrophe]

/-- A path for quotation marks.  A backslash is escaped where it would escape. -/
def escapePath : List Char → List Char
  | [] => []
  | ch :: rest =>
    if ch ∈ ['$', backtick, quotation] ∨
        ch = '\\' ∧ (rest.head?.all fun next => next ∈ ['$', backtick, quotation, '\\', '\n']) then
      '\\' :: ch :: escapePath rest
    else ch :: escapePath rest

def isAsciiAlphanumeric (c : Char) : Bool :=
  ('a' ≤ c && c ≤ 'z') || ('A' ≤ c && c ≤ 'Z') || ('0' ≤ c && c ≤ '9')

def formatPosixHookCommand (binary event : String) (clientTag socket : Option String) : String :=
  let start := match socket with
    | some path => "AGENT_OTEL_SOCKET=".toList ++ quote path.toList ++ [' ']
    | none => []
  let client := match clientTag with
    | some tag =>
      " --client ".toList ++
        if tag.toList.all fun c => isAsciiAlphanumeric c || c = '-' then tag.toList
        else quote tag.toList
    | none => []
  let name :=
    if event.toList.all isAsciiAlphanumeric then event.toList else quote event.toList
  .ofList (start ++ quotation :: escapePath (trimMatches [quotation] binary).toList ++
    quotation :: ' ' :: name ++ client)

/-- The guard of a command for Claude. -/
def claudeGuard : String :=
  "if [ -n \"$\x7bGROK_WORKSPACE_ROOT:-\x7d\" ]; then printf '\x7b\x7d'; else "

def formatPosixClaudeHookCommand (binary event : String) (clientTag socket : Option String) :
    String :=
  claudeGuard ++ formatPosixHookCommand binary event (clientTag.or (some "claude")) socket ++ "; fi"

def formatPowershellHookCommand (binary event : String) (clientTag : Option String) : String :=
  let double (mark : Char) (text : List Char) : List Char :=
    text.flatMap fun c => if c = mark then [backtick, mark] else [c]
  let path := double quotation (double '$' (double backtick (trimMatches [quotation] binary).toList))
  let client := match clientTag with
    | some tag => " --client " ++ tag
    | none => ""
  "& \"" ++ .ofList path ++ "\" " ++ event ++ client

/-! ## Encoded launchers -/

/-- The value of a character of the standard Base64 alphabet. -/
def base64Value (c : Char) : Option Nat :=
  if 'A' ≤ c ∧ c ≤ 'Z' then some (c.toNat - 65)
  else if 'a' ≤ c ∧ c ≤ 'z' then some (c.toNat - 71)
  else if '0' ≤ c ∧ c ≤ '9' then some (c.toNat + 4)
  else if c = '+' then some 62
  else if c = '/' then some 63
  else none

/-- The standard Base64 decoder: groups of four, padded, without bits left over. -/
def base64Decode : List Char → Option (List UInt8)
  | [] => some []
  | [a, b, '=', '='] => do
      let x ← base64Value a
      let y ← base64Value b
      if y % 16 = 0 then some [.ofNat (x * 4 + y / 16)] else none
  | [a, b, c, '='] => do
      let x ← base64Value a
      let y ← base64Value b
      let z ← base64Value c
      if z % 4 = 0 then some [.ofNat (x * 4 + y / 16), .ofNat (y % 16 * 16 + z / 4)] else none
  | a :: b :: c :: d :: rest => do
      let x ← base64Value a
      let y ← base64Value b
      let z ← base64Value c
      let w ← base64Value d
      let bytes ← base64Decode rest
      some (.ofNat (x * 4 + y / 16) :: .ofNat (y % 16 * 16 + z / 4) :: .ofNat (z % 4 * 64 + w) ::
        bytes)
  | _ => none

/-- UTF-16, little endian; `none` for an odd byte or a lone surrogate. -/
def fromUtf16Le : List UInt8 → Option (List Char)
  | [] => some []
  | low :: high :: rest =>
      let unit := low.toNat + 256 * high.toNat
      if 0xD800 ≤ unit ∧ unit < 0xDC00 then
        match rest with
        | low' :: high' :: rest =>
            let unit' := low'.toNat + 256 * high'.toNat
            if 0xDC00 ≤ unit' ∧ unit' < 0xE000 then
              (fromUtf16Le rest).map
                (Char.ofNat (0x10000 + (unit - 0xD800) * 0x400 + (unit' - 0xDC00)) :: ·)
            else none
        | _ => none
      else if 0xDC00 ≤ unit ∧ unit < 0xE000 then none
      else (fromUtf16Le rest).map (Char.ofNat unit :: ·)
  | [_] => none

/-! ## The recognizer -/

def hookEvents : List String := ["PreToolUse", "PostToolUse", "Stop", "PreInvocation", "PostInvocation"]

def hookClients : List String := ["claude", "codex", "agy", "antigravity", "gemini", "grok", "pi"]

def recognizedArguments (arguments : List String) : Bool :=
  match arguments with
  | [event] => event ∈ hookEvents
  | [event, option, client] => event ∈ hookEvents && option = "--client" && client ∈ hookClients
  | _ => false

/-- The path between quotation marks of PowerShell, and what is behind them. -/
def scanQuoted (binary : List Char) : List Char → Option (List Char × List Char)
  | [] => none
  | ch :: rest =>
    if ch = backtick then
      match rest with
      | [] => none
      | escaped :: rest => scanQuoted (binary ++ [escaped]) rest
    else if ch = quotation then some (binary, rest)
    else scanQuoted (binary ++ [ch]) rest

/-- The text without an end. -/
def stripSuffix (text suffix : List Char) : Option (List Char) :=
  if suffix.isSuffixOf text then some (text.take (text.length - suffix.length)) else none

/-- The file name of an executable on either system. -/
def basename (path : List Char) : List Char :=
  (lastSegment (fun c => c = '/' || c = '\\') path).getD []

def powershellGuard : String := "if ($env:GROK_WORKSPACE_ROOT) \x7b '\x7b\x7d' \x7d else \x7b "

def recognizedPowershellInvocation (script : String) : Bool :=
  let invocation : Option (String × Bool) :=
    match stripPrefix powershellGuard script with
    | some inner => (stripSuffix inner.toList " \x7d".toList).map fun inner => (.ofList inner, true)
    | none => some (script, false)
  match invocation with
  | none => false
  | some (script, guarded) =>
    match (stripPrefix "& \"" script).bind fun inner => scanQuoted [] inner.toList with
    | none => false
    | some (binary, rest) =>
      match literalShellWords (trim (.ofList rest)) with
      | none => false
      | some arguments =>
        if basename binary ∉ ["agent-hook".toList, "agent-hook.exe".toList] ∨
            recognizedArguments arguments = false then
          false
        else
          let tag := arguments[2]?
          (!guarded || tag = some "claude") &&
            script = formatPowershellHookCommand (.ofList binary) (arguments.headD "") tag

/-- The recognizer behind the guard. -/
def recognizedScript (script : String) (guarded : Bool) : Bool :=
  match (stripPrefix "& \"" script).bind fun inner => scanQuoted [] inner.toList with
  | none => false
  | some (binary, rest) =>
    match literalShellWords (trim (.ofList rest)) with
    | none => false
    | some arguments =>
      if basename binary ∉ ["agent-hook".toList, "agent-hook.exe".toList] ∨
          recognizedArguments arguments = false then
        false
      else
        let tag := arguments[2]?
        (!guarded || tag = some "claude") &&
          script = formatPowershellHookCommand (.ofList binary) (arguments.headD "") tag

/-- `eq_ignore_ascii_case`. -/
def eqIgnoreAsciiCase (a b : List Char) : Bool := a.map asciiLowerChar = b.map asciiLowerChar

/-- The words behind an assignment of the socket. -/
def dropAssignment : List String → List String
  | [] => []
  | word :: rest => if startsWith word "AGENT_OTEL_SOCKET=" then rest else word :: rest

/-- The words of a direct invocation: the executable and its arguments. -/
def recognizedInvocation (tokens : List String) : Bool :=
  match dropAssignment tokens with
  | [] => false
  | executable :: rest =>
    let name := basename executable.toList
    if eqIgnoreAsciiCase name "agent-hook".toList || eqIgnoreAsciiCase name "agent-hook.exe".toList then
      recognizedArguments rest
    else if (eqIgnoreAsciiCase name "agent-otel-bridge".toList ||
        eqIgnoreAsciiCase name "agent-otel-bridge.exe".toList) && rest.head? = some "hook" then
      recognizedArguments rest.tail
    else false

/-- The words of an encoded launcher: its script. -/
def encodedScript (outer : List String) : Option (List Char) :=
  match outer with
  | [executable, profile, interactive, encoded, script] =>
    if "/powershell.exe".toList.isSuffixOf
          (executable.toList.map fun c => if c = '\\' then '/' else c) &&
        [profile, interactive, encoded] = ["-NoProfile", "-NonInteractive", "-EncodedCommand"] then
      some script.toList
    else none
  | _ => none

/-- `is_bridge_command` on Linux. -/
def isBridgeCommand (command : String) : Bool :=
  let command := trim command
  let inner : Option String :=
    match stripPrefix claudeGuard command with
    | some inner => (stripSuffix inner.toList "; fi".toList).map .ofList
    | none => some command
  match inner with
  | none => false
  | some command =>
    match encodedScript (splitWhitespace command) with
    | some script =>
      match (base64Decode script).bind fromUtf16Le with
      | some script => recognizedPowershellInvocation (.ofList script)
      | none => false
    | none => ((literalShellWords command).map recognizedInvocation).getD false

/-! ## Reading back -/

section

variable {s : ShellState} {ch next : Char} {rest value back : List Char}

theorem shellWords_cons (s : ShellState) (ch : Char) (rest : List Char) :
    shellWords s (ch :: rest) =
      if s.quote = some ch then shellWords { s with quote := none } rest
      else if s.quote = none ∧ (ch = apostrophe ∨ ch = quotation) then
        shellWords { s with quote := some ch, started := true } rest
      else if s.quote = some apostrophe then shellWords (s.push ch) rest
      else if ch = '\\' then
        match rest with
        | [] => none
        | next :: rest => shellWords (s.escape next) rest
      else if ch = '$' ∨ ch = backtick then none
      else if s.quote = none ∧ ch ∈ shellSpecial then none
      else if s.quote = none ∧ isWhitespace ch then shellWords s.endWord rest
      else shellWords (s.push ch) rest := shellWords.eq_def s (ch :: rest)

theorem shellWords_close (quoted : s.quote = some ch) (rest : List Char) :
    shellWords s (ch :: rest) = shellWords { s with quote := none } rest := by
  rw [shellWords_cons, if_pos quoted]

theorem shellWords_open (bare : s.quote = none) (mark : ch = apostrophe ∨ ch = quotation)
    (rest : List Char) :
    shellWords s (ch :: rest) = shellWords { s with quote := some ch, started := true } rest := by
  rw [shellWords_cons, if_neg (by simp [bare]), if_pos ⟨bare, mark⟩]

theorem shellWords_apostrophe (quoted : s.quote = some apostrophe) (other : ch ≠ apostrophe)
    (rest : List Char) : shellWords s (ch :: rest) = shellWords (s.push ch) rest := by
  rw [shellWords_cons, if_neg (by simp [quoted, other.symm]), if_neg (by simp [quoted]), if_pos quoted]

theorem shellWords_escape (quoted : s.quote = some quotation) (next : Char) (rest : List Char) :
    shellWords s ('\\' :: next :: rest) = shellWords (s.escape next) rest := by
  have mark : ('\\' : Char) ≠ quotation := by decide
  have notApostrophe : s.quote ≠ some apostrophe := by rw [quoted]; decide
  rw [shellWords_cons, if_neg (by simp [quoted, mark.symm]), if_neg (by simp [quoted]),
    if_neg notApostrophe, if_pos rfl]

/-- A character that quotation marks leave as it is. -/
theorem shellWords_quoted (quoted : s.quote = some quotation)
    (other : ch ∉ ['$', backtick, quotation, '\\']) (rest : List Char) :
    shellWords s (ch :: rest) = shellWords (s.push ch) rest := by
  simp only [List.mem_cons, List.not_mem_nil, or_false, not_or] at other
  have notApostrophe : s.quote ≠ some apostrophe := by rw [quoted]; decide
  rw [shellWords_cons, if_neg (by simp [quoted, Ne.symm other.2.2.1]), if_neg (by simp [quoted]),
    if_neg notApostrophe, if_neg other.2.2.2, if_neg (by simp [other.1, other.2.1]),
    if_neg (by simp [quoted]), if_neg (by simp [quoted])]

/-- A character that a shell takes as it is. -/
def isPlain (c : Char) : Bool :=
  c ∉ apostrophe :: quotation :: '\\' :: '$' :: backtick :: shellSpecial && !isWhitespace c

theorem shellWords_plain (bare : s.quote = none) (plain : isPlain ch = true) (rest : List Char) :
    shellWords s (ch :: rest) = shellWords (s.push ch) rest := by
  simp only [isPlain, Bool.and_eq_true, decide_eq_true_eq, Bool.not_eq_true', List.mem_cons,
    not_or] at plain
  obtain ⟨⟨notApostrophe, notQuotation, notBackslash, notDollar, notBacktick, notSpecial⟩, solid⟩ :=
    plain
  rw [shellWords_cons, if_neg (by simp [bare]), if_neg (by simp [notApostrophe, notQuotation]),
    if_neg (by simp [bare]), if_neg notBackslash, if_neg (by simp [notDollar, notBacktick]),
    if_neg (by simp [notSpecial]), if_neg (by simp [solid])]

theorem shellWords_space (bare : s.quote = none) (rest : List Char) :
    shellWords s (' ' :: rest) = shellWords s.endWord rest := by
  rw [shellWords_cons, if_neg (by simp [bare]), if_neg (by rw [bare]; decide), if_neg (by simp [bare]),
    if_neg (by decide), if_neg (by decide), if_neg (by rw [bare]; decide),
    if_pos ⟨bare, by decide⟩]

/-- The state behind some characters of a word. -/
def ShellState.read (s : ShellState) (value : List Char) : ShellState :=
  { s with word := s.word ++ value, started := true }

@[simp] theorem ShellState.push_read (s : ShellState) (c : Char) (value : List Char) :
    (s.push c).read value = s.read (c :: value) := by
  simp [push, read]

theorem ShellState.push_eq_read (s : ShellState) (c : Char) : s.push c = s.read [c] := rfl

/-- A plain word is read as it is. -/
theorem shellWords_word (bare : s.quote = none) (plain : ∀ c ∈ value, isPlain c = true)
    (nonempty : value ≠ []) (back : List Char) :
    shellWords s (value ++ back) = shellWords (s.read value) back := by
  induction value generalizing s with
  | nil => exact absurd rfl nonempty
  | cons c value ih =>
      obtain ⟨first, others⟩ := List.forall_mem_cons.mp plain
      rw [List.cons_append, shellWords_plain bare first]
      cases value with
      | nil => rfl
      | cons d value =>
          rw [ih (s := s.push c) bare others (List.cons_ne_nil _ _), ShellState.push_read]

/-- A quoted value is read as it was. -/
theorem shellWords_quote (bare : s.quote = none) (value back : List Char) :
    shellWords s (quote value ++ back) = shellWords (s.read value) back := by
  have body : ∀ (value : List Char) (s : ShellState), s.quote = some apostrophe →
      s.started = true →
      shellWords s ((value.flatMap fun c => if c = apostrophe then
        [apostrophe, quotation, apostrophe, quotation, apostrophe] else [c]) ++
          apostrophe :: back) = shellWords { s.read value with quote := none } back := by
    intro value
    induction value with
    | nil =>
        intro s quoted started
        rw [List.flatMap_nil, List.nil_append, shellWords_close quoted]
        simp [ShellState.read, ← started]
    | cons c value ih =>
        intro s quoted started
        rw [List.flatMap_cons, List.append_assoc]
        by_cases mark : c = apostrophe
        · -- The quotation is left, the apostrophe read in the other marks, and entered again.
          rw [if_pos mark, List.cons_append, shellWords_close quoted, List.cons_append,
            shellWords_open rfl (.inr rfl), List.cons_append,
            shellWords_quoted rfl (by decide), List.cons_append, shellWords_close rfl,
            List.cons_append, shellWords_open rfl (.inl rfl), List.nil_append, ih _ rfl rfl]
          simp [ShellState.read, ShellState.push, mark]
        · rw [if_neg mark, List.singleton_append, shellWords_apostrophe quoted mark,
            ih (s.push c) quoted rfl, ShellState.push_read]
  rw [quote, List.cons_append, List.cons_append, List.append_assoc, List.singleton_append,
    shellWords_open bare (.inl rfl), body value _ rfl rfl]
  simp [ShellState.read, ← bare]

/-- A path that is escaped is read as it was, up to the closing mark. -/
theorem shellWords_escapePath (path : List Char) (quoted : s.quote = some quotation)
    (started : s.started = true) (back : List Char) :
    shellWords s (escapePath path ++ quotation :: back) =
      shellWords { s.read path with quote := none } back := by
  induction path generalizing s with
  | nil =>
      rw [escapePath, List.nil_append, shellWords_close quoted]
      simp [ShellState.read, ← started]
  | cons ch rest ih =>
      have later := ih (s := s.push ch) quoted rfl
      rw [ShellState.push_read] at later
      rw [← later, escapePath]
      split
      next escaped =>
        have listed : ch ∈ ['$', backtick, quotation, '\\', '\n'] := by
          rcases escaped with mark | ⟨rfl, -⟩
          · simp only [List.mem_cons, List.not_mem_nil, or_false] at mark ⊢
            tauto
          · simp
        rw [List.cons_append, List.cons_append, shellWords_escape quoted]
        simp only [ShellState.escape, quoted, listed, not_true_eq_false, and_false, if_false]
      next notEscaped =>
        simp only [not_or, not_and] at notEscaped
        obtain ⟨noMark, noEscape⟩ := notEscaped
        by_cases backslash : ch = '\\'
        · -- The backslash is read with the next character, which would not be escaped.
          subst backslash
          have free := noEscape rfl
          cases rest with
          | nil => simp at free
          | cons next rest =>
              simp only [List.head?_cons, Option.all_some, decide_eq_true_eq] at free
              have solid : next ∉ ['$', backtick, quotation, '\\'] := fun h => free (by
                simp only [List.mem_cons, List.not_mem_nil, or_false] at h ⊢
                tauto)
              have same : escapePath (next :: rest) = next :: escapePath rest := by
                rw [escapePath, if_neg]
                simp only [List.mem_cons, List.not_mem_nil, or_false, not_or] at solid ⊢
                tauto
              rw [same, List.cons_append, List.cons_append, shellWords_escape quoted,
                shellWords_quoted (s := s.push '\\') quoted solid]
              simp only [ShellState.escape, quoted, free, not_false_eq_true, and_self, if_true]
        · have solid : ch ∉ ['$', backtick, quotation, '\\'] := by
            simp only [List.mem_cons, List.not_mem_nil, or_false, not_or] at noMark ⊢
            tauto
          rw [List.cons_append, shellWords_quoted quoted solid]

end

end AgentOtelBridge.HookCommand
