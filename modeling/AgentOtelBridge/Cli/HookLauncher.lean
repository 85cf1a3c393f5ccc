import AgentOtelBridge.Cli.HookPowershell

/-!
# Encoded launchers

On Windows the command of a hook is a script for PowerShell, and the line that the
harness gets is a launcher of that script: the path of the interpreter, three options
and the script as Base64 of UTF-16.  The line has no quotation marks, so no outer shell
can expand what the script has.

The words of a launcher are read back (`Launches`), and the script with them, whatever
characters the path of the hook has (`fromUtf16Le_utf16LeBytes`, `base64Decode_encode`).  A
registration that was written on Windows is known on Linux by its script
(`isBridgeCommand_launcher`).
-/

namespace AgentOtelBridge.HookCommand

open Text

/-! ## The encoding of a script -/

/-- A character of the standard Base64 alphabet. -/
def base64Char (value : Nat) : Char :=
  if value < 26 then .ofNat (value + 65)
  else if value < 52 then .ofNat (value + 71)
  else if value < 62 then .ofNat (value - 4)
  else if value = 62 then '+'
  else '/'

/-- The standard Base64 encoder, with padding. -/
def base64Encode : List UInt8 → List Char
  | [] => []
  | [x] => [base64Char (x.toNat / 4), base64Char (x.toNat % 4 * 16), '=', '=']
  | [x, y] =>
      [base64Char (x.toNat / 4), base64Char (x.toNat % 4 * 16 + y.toNat / 16),
        base64Char (y.toNat % 16 * 4), '=']
  | x :: y :: z :: rest =>
      base64Char (x.toNat / 4) :: base64Char (x.toNat % 4 * 16 + y.toNat / 16) ::
        base64Char (y.toNat % 16 * 4 + z.toNat / 64) :: base64Char (z.toNat % 64) ::
          base64Encode rest

/-- `u16::to_le_bytes`. -/
def toLeBytes (unit : Nat) : List UInt8 := [.ofNat (unit % 256), .ofNat (unit / 256)]

/-- The units of a character: one, or two surrogates. -/
def encodeUtf16 (c : Char) : List Nat :=
  if c.toNat < 0x10000 then [c.toNat]
  else [0xD800 + (c.toNat - 0x10000) / 0x400, 0xDC00 + (c.toNat - 0x10000) % 0x400]

def utf16LeBytes (text : List Char) : List UInt8 := (text.flatMap encodeUtf16).flatMap toLeBytes

theorem base64Value_char {value : Nat} (small : value < 64) :
    base64Value (base64Char value) = some value := by
  have all : ∀ value < 64, base64Value (base64Char value) = some value := by decide +kernel
  exact all value small

theorem base64Char_ne_pad {value : Nat} (small : value < 64) : base64Char value ≠ '=' := by
  intro pad
  have read := base64Value_char small
  rw [pad] at read
  cases read

/-- What is encoded is decoded, whatever the number of the bytes. -/
theorem base64Decode_encode (bytes : List UInt8) : base64Decode (base64Encode bytes) = some bytes := by
  induction bytes using base64Encode.induct with
  | case1 => rfl
  | case2 x =>
      have bound := x.toNat_lt
      have whole : x.toNat / 4 * 4 + x.toNat % 4 * 16 / 16 = x.toNat := by omega
      have empty : x.toNat % 4 * 16 % 16 = 0 := by omega
      simp only [base64Encode, base64Decode, base64Value_char (show x.toNat / 4 < 64 by omega),
        base64Value_char (show x.toNat % 4 * 16 < 64 by omega), whole, empty, Option.bind_eq_bind,
        Option.bind_some, if_true, UInt8.ofNat_toNat]
  | case3 x y =>
      have boundX := x.toNat_lt
      have boundY := y.toNat_lt
      have first : x.toNat / 4 * 4 + (x.toNat % 4 * 16 + y.toNat / 16) / 16 = x.toNat := by omega
      have second : (x.toNat % 4 * 16 + y.toNat / 16) % 16 * 16 + y.toNat % 16 * 4 / 4 = y.toNat := by
        omega
      have empty : y.toNat % 16 * 4 % 4 = 0 := by omega
      have solid := base64Char_ne_pad (show y.toNat % 16 * 4 < 64 by omega)
      rw [base64Encode, base64Decode]
      · simp only [base64Value_char (show x.toNat / 4 < 64 by omega),
          base64Value_char (show x.toNat % 4 * 16 + y.toNat / 16 < 64 by omega),
          base64Value_char (show y.toNat % 16 * 4 < 64 by omega), first, second, empty,
          Option.bind_eq_bind, Option.bind_some, if_true, UInt8.ofNat_toNat]
      · exact solid
  | case4 x y z rest ih =>
      have boundX := x.toNat_lt
      have boundY := y.toNat_lt
      have boundZ := z.toNat_lt
      have first : x.toNat / 4 * 4 + (x.toNat % 4 * 16 + y.toNat / 16) / 16 = x.toNat := by omega
      have second : (x.toNat % 4 * 16 + y.toNat / 16) % 16 * 16 +
          (y.toNat % 16 * 4 + z.toNat / 64) / 4 = y.toNat := by omega
      have third : (y.toNat % 16 * 4 + z.toNat / 64) % 4 * 64 + z.toNat % 64 = z.toNat := by omega
      have solid := base64Char_ne_pad (show z.toNat % 64 < 64 by omega)
      rw [base64Encode, base64Decode]
      · simp only [base64Value_char (show x.toNat / 4 < 64 by omega),
          base64Value_char (show x.toNat % 4 * 16 + y.toNat / 16 < 64 by omega),
          base64Value_char (show y.toNat % 16 * 4 + z.toNat / 64 < 64 by omega),
          base64Value_char (show z.toNat % 64 < 64 by omega), ih, first, second, third,
          Option.bind_eq_bind, Option.bind_some, UInt8.ofNat_toNat]
      · exact fun _ pad _ => solid pad
      · exact fun pad _ => solid pad

/-- The value of the bytes of a unit. -/
theorem toLeBytes_value {unit : Nat} (small : unit < 0x10000) :
    (UInt8.ofNat (unit % 256)).toNat + 256 * (UInt8.ofNat (unit / 256)).toNat = unit := by
  rw [UInt8.toNat_ofNat', UInt8.toNat_ofNat']
  omega

/-- A unit that is no surrogate is a character. -/
theorem fromUtf16Le_unit {unit : Nat} (small : unit < 0x10000)
    (plain : unit < 0xD800 ∨ 0xDFFF < unit) (rest : List UInt8) :
    fromUtf16Le (toLeBytes unit ++ rest) = (fromUtf16Le rest).map (Char.ofNat unit :: ·) := by
  have notHigh : ¬(0xD800 ≤ unit ∧ unit < 0xDC00) := by omega
  have notLow : ¬(0xDC00 ≤ unit ∧ unit < 0xE000) := by omega
  rw [toLeBytes, List.cons_append, List.cons_append, List.nil_append, fromUtf16Le.eq_def]
  simp only [toLeBytes_value small, if_neg notHigh, if_neg notLow]

/-- Two surrogates are a character. -/
theorem fromUtf16Le_pair {high low : Nat} (isHigh : 0xD800 ≤ high ∧ high < 0xDC00)
    (isLow : 0xDC00 ≤ low ∧ low < 0xE000) (rest : List UInt8) :
    fromUtf16Le (toLeBytes high ++ (toLeBytes low ++ rest)) = (fromUtf16Le rest).map
      (Char.ofNat (0x10000 + (high - 0xD800) * 0x400 + (low - 0xDC00)) :: ·) := by
  rw [toLeBytes, toLeBytes, List.cons_append, List.cons_append, List.nil_append, List.cons_append,
    List.cons_append, List.nil_append, fromUtf16Le.eq_def]
  simp only [toLeBytes_value (show high < 0x10000 by omega), if_pos isHigh,
    toLeBytes_value (show low < 0x10000 by omega), if_pos isLow]

/-- A text is read back from its units. -/
theorem fromUtf16Le_utf16LeBytes (text : List Char) : fromUtf16Le (utf16LeBytes text) = some text := by
  induction text with
  | nil => rfl
  | cons c text ih =>
      have valid : c.toNat < 0xD800 ∨ 0xDFFF < c.toNat ∧ c.toNat < 0x110000 := c.valid
      have front : utf16LeBytes (c :: text) = (encodeUtf16 c).flatMap toLeBytes ++ utf16LeBytes text := by
        simp [utf16LeBytes]
      rw [front, encodeUtf16]
      by_cases small : c.toNat < 0x10000
      · rw [if_pos small, List.flatMap_singleton, fromUtf16Le_unit small (by omega), ih,
          Option.map_some, Char.ofNat_toNat]
      · have whole : 0x10000 + (0xD800 + (c.toNat - 0x10000) / 0x400 - 0xD800) * 0x400 +
            (0xDC00 + (c.toNat - 0x10000) % 0x400 - 0xDC00) = c.toNat := by omega
        rw [if_neg small, List.flatMap_cons, List.flatMap_singleton, List.append_assoc,
          fromUtf16Le_pair (by omega) (by omega), ih, Option.map_some, whole, Char.ofNat_toNat]

/-- A character of the encoding: a letter, a digit or one of three marks. -/
def isBase64 (c : Char) : Bool := isAsciiAlphanumeric c || c ∈ ['+', '/', '=']

theorem isBase64_char {value : Nat} (small : value < 64) : isBase64 (base64Char value) = true := by
  have all : ∀ value < 64, isBase64 (base64Char value) = true := by decide +kernel
  exact all value small

theorem isBase64_encode (bytes : List UInt8) : ∀ c ∈ base64Encode bytes, isBase64 c = true := by
  have pad : isBase64 '=' = true := by decide
  induction bytes using base64Encode.induct with
  | case1 => exact List.forall_mem_nil _
  | case2 x =>
      have boundX := x.toNat_lt
      rw [base64Encode]
      exact List.forall_mem_cons.mpr ⟨isBase64_char (by omega), List.forall_mem_cons.mpr
        ⟨isBase64_char (by omega), by simp [pad]⟩⟩
  | case3 x y =>
      have boundX := x.toNat_lt
      have boundY := y.toNat_lt
      rw [base64Encode]
      exact List.forall_mem_cons.mpr ⟨isBase64_char (by omega), List.forall_mem_cons.mpr
        ⟨isBase64_char (by omega), List.forall_mem_cons.mpr ⟨isBase64_char (by omega), by simp [pad]⟩⟩⟩
  | case4 x y z rest ih =>
      have boundX := x.toNat_lt
      have boundY := y.toNat_lt
      have boundZ := z.toNat_lt
      rw [base64Encode]
      exact List.forall_mem_cons.mpr ⟨isBase64_char (by omega), List.forall_mem_cons.mpr
        ⟨isBase64_char (by omega), List.forall_mem_cons.mpr ⟨isBase64_char (by omega),
          List.forall_mem_cons.mpr ⟨isBase64_char (by omega), ih⟩⟩⟩⟩

theorem base64Encode_ne_nil {bytes : List UInt8} (some_ : bytes ≠ []) : base64Encode bytes ≠ [] := by
  cases bytes using base64Encode.fun_cases with
  | case1 => exact absurd rfl some_
  | case2 | case3 | case4 => exact List.cons_ne_nil _ _

theorem utf16LeBytes_ne_nil {text : List Char} (some_ : text ≠ []) : utf16LeBytes text ≠ [] := by
  cases text with
  | nil => exact absurd rfl some_
  | cons c text =>
      have unit : ∃ first rest, encodeUtf16 c = first :: rest := by
        unfold encodeUtf16
        split <;> exact ⟨_, _, rfl⟩
      obtain ⟨first, rest, same⟩ := unit
      simp [utf16LeBytes, same, toLeBytes]

/-! ## Launchers -/

/-- The line that runs an encoded script. -/
def launcher (executable script : String) : String :=
  executable ++ " -NoProfile -NonInteractive -EncodedCommand " ++
    .ofList (base64Encode (utf16LeBytes script.toList))

/-- The path with the separators of the other system. -/
def replaceSeparators (old new : Char) (path : String) : List Char :=
  path.toList.map fun c => if c = old then new else c

/-- `format_claude_windows_hook_command`, by what the variable `SystemRoot` is. -/
def formatClaudeWindowsHookCommand (systemRoot : Option String) (binary event : String) : String :=
  let root := replaceSeparators '\\' '/' (systemRoot.getD "C:\\Windows")
  launcher (.ofList root ++ "/System32/WindowsPowerShell/v1.0/powershell.exe")
    (claudeImportedGrokGuardScript binary event)

/-- A root that is one token for PowerShell and for `cmd`: a drive and names of plain characters.
A character that is not ASCII has no byte that is accepted. -/
def isTokenSafeRoot : List Char → Bool
  | drive :: ':' :: '/' :: path =>
      (('a' ≤ drive && drive ≤ 'z') || ('A' ≤ drive && drive ≤ 'Z')) &&
        path.all fun c => isAsciiAlphanumeric c || c ∈ ['/', '_', '-']
  | _ => false

def formatCodexWindowsCommand (systemRoot binary event : String) (clientTag : Option String) :
    Except String String :=
  let root := replaceSeparators '\\' '/' systemRoot
  if isTokenSafeRoot root then
    .ok (launcher (.ofList (replaceSeparators '/' '\\' (.ofList root)) ++
      "\\System32\\WindowsPowerShell\\v1.0\\powershell.exe")
      (formatPowershellHookCommand binary event clientTag))
  else .error "Codex hooks require a token-safe absolute SystemRoot; configuration unchanged"

/-- `format_antigravity_hook_command` on Windows. -/
def formatAntigravityWindowsCommand (binary event : String) (clientTag : Option String) : String :=
  launcher "%SystemRoot%\\System32\\WindowsPowerShell\\v1.0\\powershell.exe"
    (formatPowershellHookCommand binary event clientTag)

/-- `is_bridge_command` where the system is not Linux. -/
def isBridgeCommandElsewhere (cmd : String) : Bool :=
  let script := (splitOnce "-EncodedCommand " cmd).bind fun parts =>
    (base64Decode (trim parts.2).toList).bind fromUtf16Le
  match script with
  | some script => contains (asciiLower (.ofList script)) "agent-hook"
  | none =>
    contains (asciiLower cmd) "agent-hook" || contains (asciiLower cmd) "agent-otel-bridge hook"

/-- The line is an interpreter, the options and a script. -/
def Launches (command script : String) : Prop :=
  ∃ executable encoded, splitWhitespace command =
      [executable, "-NoProfile", "-NonInteractive", "-EncodedCommand", encoded] ∧
    (base64Decode encoded.toList).bind fromUtf16Le = some script.toList

/-- An interpreter as the formatters write it. -/
structure IsInterpreter (executable : List Char) : Prop where
  solid : ∀ c ∈ executable, isWhitespace c = false
  named : "powershell.exe".toList <:+ executable
  path : "/powershell.exe".toList <:+ executable.map fun c => if c = '\\' then '/' else c

section

variable {executable script : String}

/-- The text of a script as a word. -/
def encodedText (script : String) : List Char := base64Encode (utf16LeBytes script.toList)

theorem toList_launcher (executable script : String) : (launcher executable script).toList =
    executable.toList ++ ' ' :: ("-NoProfile".toList ++ ' ' :: ("-NonInteractive".toList ++
      ' ' :: ("-EncodedCommand".toList ++ ' ' :: encodedText script))) := by
  have options : " -NoProfile -NonInteractive -EncodedCommand ".toList =
      ' ' :: ("-NoProfile".toList ++ ' ' :: ("-NonInteractive".toList ++
        ' ' :: ("-EncodedCommand".toList ++ [' ']))) := by decide
  rw [launcher]
  simp only [String.toList_append, options, String.toList_ofList, encodedText, List.append_assoc,
    List.cons_append, List.nil_append]

/-- What holds of the first characters holds of a letter or a digit. -/
theorem of_isAsciiAlphanumeric {P : Char → Prop} {c : Char} (plain : isAsciiAlphanumeric c = true)
    (all : ∀ n < 128, isAsciiAlphanumeric (.ofNat n) = true → P (.ofNat n)) : P c := by
  have small : c.toNat < 128 := by
    simp only [isAsciiAlphanumeric, Bool.or_eq_true, Bool.and_eq_true, decide_eq_true_eq] at plain
    have last : c ≤ 'z' := by
      rcases plain with (⟨-, below⟩ | ⟨-, below⟩) | ⟨-, below⟩
      · exact below
      · exact Char.le_trans below (by decide)
      · exact Char.le_trans below (by decide)
    exact Nat.lt_of_le_of_lt last (by decide)
  have here := all c.toNat small
  rw [Char.ofNat_toNat] at here
  exact here plain

theorem isWhitespace_of_base64 {c : Char} (plain : isBase64 c = true) : isWhitespace c = false := by
  rw [isBase64, Bool.or_eq_true] at plain
  rcases plain with plain | mark
  · exact of_isAsciiAlphanumeric (P := fun c => isWhitespace c = false) plain (by decide)
  · have all : ['+', '/', '='].all fun c => !isWhitespace c := by decide
    simpa using List.all_eq_true.mp all c (of_decide_eq_true mark)

theorem encodedText_solid (script : String) : ∀ c ∈ encodedText script, isWhitespace c = false :=
  fun c inside => isWhitespace_of_base64 (isBase64_encode _ c inside)

theorem encodedText_ne_nil (written : script.toList ≠ []) : encodedText script ≠ [] :=
  base64Encode_ne_nil (utf16LeBytes_ne_nil written)

theorem decode_encodedText (script : String) :
    (base64Decode (encodedText script)).bind fromUtf16Le = some script.toList := by
  rw [encodedText, base64Decode_encode, Option.bind_some, fromUtf16Le_utf16LeBytes]

theorem IsInterpreter.ne_nil (interpreter : IsInterpreter executable.toList) :
    executable.toList ≠ [] := by
  intro empty
  have named := interpreter.named
  rw [empty] at named
  exact absurd (List.suffix_nil.mp named) (by decide)

/-- The words of a launcher. -/
theorem splitWhitespace_launcher (interpreter : IsInterpreter executable.toList)
    (written : script.toList ≠ []) : splitWhitespace (launcher executable script) =
      [executable, "-NoProfile", "-NonInteractive", "-EncodedCommand", .ofList (encodedText script)] := by
  have space : isWhitespace ' ' = true := by decide
  have option : ∀ word ∈ ["-NoProfile", "-NonInteractive", "-EncodedCommand"],
      splitWhitespace (.ofList word.toList) = [word] := by decide +kernel
  rw [← String.ofList_toList (s := launcher executable script), toList_launcher,
    splitWhitespace_append_cons space, splitWhitespace_append_cons space,
    splitWhitespace_append_cons space, splitWhitespace_append_cons space,
    splitWhitespace_word interpreter.ne_nil interpreter.solid,
    splitWhitespace_word (encodedText_ne_nil written) (encodedText_solid script),
    option _ (by simp), option _ (by simp), option _ (by simp), String.ofList_toList]
  rfl

theorem launches_launcher (interpreter : IsInterpreter executable.toList)
    (written : script.toList ≠ []) : Launches (launcher executable script) script :=
  ⟨executable, .ofList (encodedText script), splitWhitespace_launcher interpreter written, by
    rw [String.toList_ofList, decode_encodedText]⟩

/-- A launcher is not in the guard for Claude, which has a blank in its third place. -/
theorem stripPrefix_launcher (interpreter : IsInterpreter executable.toList) (script : String) :
    stripPrefix claudeGuard (launcher executable script) = none := by
  have long : 2 < executable.toList.length :=
    lt_of_lt_of_le (by decide) interpreter.named.length_le
  rw [stripPrefix, if_neg]
  intro guarded
  obtain ⟨rest, whole⟩ := List.isPrefixOf_iff_prefix.mp guarded
  have blank : claudeGuard.toList[2]? = some ' ' := by decide
  have third : (launcher executable script).toList[2]? = some ' ' := by
    rw [← whole, List.getElem?_append_left (by decide), blank]
  rw [toList_launcher, List.getElem?_append_left long] at third
  have solid := interpreter.solid ' ' (List.mem_of_getElem? third)
  exact absurd solid (by decide)

/-- **A launcher is known by its script.** -/
theorem isBridgeCommand_launcher (interpreter : IsInterpreter executable.toList)
    (written : script.toList ≠ []) :
    isBridgeCommand (launcher executable script) = recognizedPowershellInvocation script := by
  have start : (launcher executable script).toList.head? =
      some (executable.toList.head interpreter.ne_nil) := by
    rw [toList_launcher, List.head?_append_of_ne_nil _ interpreter.ne_nil, List.head?_eq_some_head]
  have stop : (launcher executable script).toList.getLast? =
      some ((encodedText script).getLast (encodedText_ne_nil written)) := by
    rw [toList_launcher]
    simp [List.getLast?_append, List.getLast?_cons, List.getLast?_eq_some_getLast (encodedText_ne_nil written)]
  have trimmed := trim_eq_self start stop (interpreter.solid _ (List.head_mem _))
    (encodedText_solid script _ (List.getLast_mem _))
  rw [String.ofList_toList] at trimmed
  have encoded : encodedScript [executable, "-NoProfile", "-NonInteractive", "-EncodedCommand",
      .ofList (encodedText script)] = some (encodedText script) := by
    rw [encodedScript, List.isSuffixOf_iff_suffix.mpr interpreter.path]
    simp
  rw [isBridgeCommand]
  simp only [trimmed, stripPrefix_launcher interpreter script,
    splitWhitespace_launcher interpreter written, encoded, decode_encodedText, String.ofList_toList]

end

/-! ## The scripts of the hooks -/

section

variable {binary event : String} {clientTag : Option String}

theorem formatPowershell_ne_nil (binary event : String) (clientTag : Option String) :
    (formatPowershellHookCommand binary event clientTag).toList ≠ [] := by
  rw [toList_formatPowershell]
  exact List.append_ne_nil_of_left_ne_nil (by decide) _

theorem guardScript_ne_nil (binary event : String) :
    (claudeImportedGrokGuardScript binary event).toList ≠ [] := by
  rw [claudeImportedGrokGuardScript, String.toList_append, String.toList_append, List.append_assoc]
  exact List.append_ne_nil_of_left_ne_nil (by decide) _

/-- A command is recognized in no other way than as the command of its own path. -/
theorem recognizedScript_formatPowershell (event_ : event ∈ hookEvents) (tag_ : IsTag clientTag)
    {guarded : Bool} (tag : guarded = true → clientTag = some "claude") :
    recognizedScript (formatPowershellHookCommand binary event clientTag) guarded = true ↔
      IsPowershellHook binary := by
  rw [recognizedScript_iff]
  constructor
  · rintro ⟨binary', event', clientTag', named, -, -, -, same⟩
    have scanned := scan_formatPowershell binary event clientTag
    rw [same, scan_formatPowershell, Option.some.injEq, Prod.mk.injEq] at scanned
    rw [IsPowershellHook, ← scanned.1]
    exact named
  · exact fun named => ⟨binary, event, clientTag, named, event_, tag_, tag, rfl⟩

theorem recognized_formatPowershell (event_ : event ∈ hookEvents) (tag_ : IsTag clientTag) :
    recognizedPowershellInvocation (formatPowershellHookCommand binary event clientTag) = true ↔
      IsPowershellHook binary := by
  have bare := stripPrefix_formatPowershell binary event clientTag
  rw [recognizedPowershellInvocation_cases,
    recognizedScript_formatPowershell event_ tag_ (fun guarded => Bool.noConfusion guarded)]
  constructor
  · rintro (⟨-, named⟩ | ⟨inner, guarded, -⟩)
    · exact named
    · rw [guarded, String.append_assoc, stripPrefix_eq_some.mpr rfl] at bare
      cases bare
  · exact fun named => .inl ⟨bare, named⟩

theorem recognized_guardScript (event_ : event ∈ hookEvents) :
    recognizedPowershellInvocation (claudeImportedGrokGuardScript binary event) = true ↔
      IsPowershellHook binary := by
  have known : recognizedScript (formatPowershellHookCommand binary event (some "claude")) true =
      true ↔ IsPowershellHook binary :=
    recognizedScript_formatPowershell event_ (isTag_some (by decide)) fun _ => rfl
  have unwrapped : stripPrefix powershellGuard (claudeImportedGrokGuardScript binary event) =
      some (formatPowershellHookCommand binary event (some "claude") ++ " \x7d") := by
    rw [claudeImportedGrokGuardScript, String.append_assoc]
    exact stripPrefix_eq_some.mpr rfl
  rw [recognizedPowershellInvocation_cases, unwrapped]
  constructor
  · rintro (⟨bare, -⟩ | ⟨inner, same, accepted⟩)
    · cases bare
    · rw [claudeImportedGrokGuardScript, String.append_left_inj, String.append_right_inj] at same
      rw [← same] at accepted
      exact known.mp accepted
  · exact fun named => .inr ⟨_, rfl, known.mpr named⟩

end

/-! ## The recognizer of the other systems -/

/-- The cut is not in a word that does not end in the pattern. -/
theorem splitOnceChars_word {part word : List Char} {sep : Char} (clean : sep ∉ part)
    (oneWord : sep ∉ word) (other : ¬part <:+ word) (back : List Char) :
    splitOnceChars (part ++ [sep]) (word ++ sep :: back) =
      (splitOnceChars (part ++ [sep]) back).map fun parts => (word ++ sep :: parts.1, parts.2) := by
  have whole : ∀ word : List Char, sep ∉ word → part ≠ word →
      (part ++ [sep]).isPrefixOf (word ++ sep :: back) = false := by
    intro word oneWord differs
    rw [Bool.eq_false_iff]
    intro here
    obtain ⟨rest, same⟩ := List.isPrefixOf_iff_prefix.mp here
    rw [List.append_assoc, List.singleton_append] at same
    -- What is before the first separator is both.
    have front : ∀ {text : List Char} (back : List Char), sep ∉ text →
        (text ++ sep :: back).takeWhile (· ≠ sep) = text := by
      intro text back clean
      rw [List.takeWhile_append_of_pos (fun c inside => by simp [ne_of_mem_of_not_mem inside clean])]
      simp
    have taken := congrArg (List.takeWhile (· ≠ sep)) same
    rw [front _ clean, front _ oneWord] at taken
    exact differs taken
  induction word with
  | nil =>
      have start := whole [] List.not_mem_nil fun empty => other (empty ▸ List.suffix_refl _)
      rw [List.nil_append] at start
      rw [List.nil_append, splitOnceChars, start, if_neg Bool.false_ne_true]
      rfl
  | cons w word ih =>
      have start := whole (w :: word) oneWord fun same => other (same ▸ List.suffix_refl _)
      rw [List.cons_append] at start
      rw [List.cons_append, splitOnceChars, start, if_neg Bool.false_ne_true,
        ih (fun inside => oneWord (.tail _ inside)) fun ends => other (ends.trans (List.suffix_cons w word)),
        Option.map_map]
      rfl

theorem isBridgeCommandElsewhere_launcher {executable script : String}
    (interpreter : IsInterpreter executable.toList) (written : script.toList ≠ []) :
    isBridgeCommandElsewhere (launcher executable script) =
      contains (asciiLower script) "agent-hook" := by
  have option : "-EncodedCommand ".toList = "-EncodedCommand".toList ++ [' '] := by decide
  have blank : ' ' ∉ executable.toList := fun inside =>
    absurd (interpreter.solid ' ' inside) (by decide)
  -- The path ends in another letter than the option.
  have other : ¬"-EncodedCommand".toList <:+ executable.toList := by
    intro ends
    have longer := List.suffix_of_suffix_length_le interpreter.named ends (by decide)
    exact absurd longer (by decide)
  have cut : splitOnceChars ("-EncodedCommand".toList ++ [' '])
      ("-EncodedCommand".toList ++ ' ' :: encodedText script) = some ([], encodedText script) :=
    splitOnceChars_self '-' ("EncodedCommand".toList ++ [' ']) (encodedText script)
  have trimmed := trim_eq_self (List.head?_eq_some_head (encodedText_ne_nil written))
    (List.getLast?_eq_some_getLast (encodedText_ne_nil written))
    (encodedText_solid script _ (List.head_mem _)) (encodedText_solid script _ (List.getLast_mem _))
  have split : ∃ front, splitOnce "-EncodedCommand " (launcher executable script) =
      some (front, .ofList (encodedText script)) := by
    rw [splitOnce, option, toList_launcher, splitOnceChars_word (by decide) blank other,
      splitOnceChars_word (by decide) (by decide) (by decide),
      splitOnceChars_word (by decide) (by decide) (by decide), cut]
    exact ⟨_, rfl⟩
  obtain ⟨front, split⟩ := split
  rw [isBridgeCommandElsewhere]
  simp only [split, Option.bind_some, trimmed, String.toList_ofList, decode_encodedText,
    String.ofList_toList]

/-- The file name is the end of the path. -/
theorem basename_suffix (path : List Char) : basename path <:+ path := by
  unfold basename
  rcases eq_or_exists_separator (fun c => c = '/' || c = '\\') path with
    clean | ⟨front, sep, last, rfl, separates, clean⟩
  · rw [lastSegment_of_forall clean]
    exact List.suffix_refl _
  · rw [lastSegment_append_cons separates, lastSegment_of_forall clean]
    exact (List.suffix_cons sep last).trans (List.suffix_append front _)

theorem escapePowershell_append (front back : List Char) :
    escapePowershell (front ++ back) = escapePowershell front ++ escapePowershell back :=
  List.flatMap_append

/-- The command of a hook has the name of the hook. -/
theorem name_infix_formatPowershell {binary : String} (named : IsPowershellHook binary)
    (event : String) (clientTag : Option String) :
    "agent-hook".toList <:+: (formatPowershellHookCommand binary event clientTag).toList := by
  obtain ⟨front, whole⟩ := basename_suffix (trimMatches [quotation] binary).toList
  have ends : "agent-hook".toList <:+: escapePowershell
      (basename (trimMatches [quotation] binary).toList) := by
    rcases List.mem_cons.mp named with same | same
    · rw [same]
      decide
    · rw [List.mem_singleton.mp same]
      decide
  rw [toList_formatPowershell, ← whole, escapePowershell_append]
  exact ((ends.trans (List.suffix_append _ _).isInfix).trans (List.prefix_append _ _).isInfix).trans
    (List.suffix_append _ _).isInfix

theorem contains_name {script : String} (named : "agent-hook".toList <:+: script.toList) :
    contains (asciiLower script) "agent-hook" = true := by
  have small : "agent-hook".toList.map asciiLowerChar = "agent-hook".toList := by decide
  have lower := named.map asciiLowerChar
  rw [small] at lower
  rw [contains_iff]
  simpa only [asciiLower, String.toList_ofList] using lower

/-! ## Every launcher is known -/

/-- A character that no shell of the system reads as more than itself. -/
def isLauncherChar (c : Char) : Bool :=
  isAsciiAlphanumeric c || c ∈ [' ', '-', '\\', ':', '.', '_', '+', '/', '=']

theorem isInterpreter_append {front back : List Char} (solid : ∀ c ∈ front, isWhitespace c = false)
    (interpreter : IsInterpreter back) : IsInterpreter (front ++ back) where
  solid := fun c inside => (List.mem_append.mp inside).elim (solid c) (interpreter.solid c)
  named := interpreter.named.trans (List.suffix_append _ _)
  path := by
    rw [List.map_append]
    exact interpreter.path.trans (List.suffix_append _ _)

theorem isInterpreter_system :
    IsInterpreter "\\System32\\WindowsPowerShell\\v1.0\\powershell.exe".toList ∧
      IsInterpreter "/System32/WindowsPowerShell/v1.0/powershell.exe".toList ∧
        ∀ c ∈ "%SystemRoot%".toList, isWhitespace c = false :=
  ⟨⟨List.all_iff_forall_prop.mp (by decide), by decide, by decide⟩,
    ⟨List.all_iff_forall_prop.mp (by decide), by decide, by decide⟩,
    List.all_iff_forall_prop.mp (by decide)⟩

/-- A line that runs the script of a hook, and is known by it on every system. -/
structure KnownLauncher (command script binary : String) : Prop where
  launches : Launches command script
  linux : isBridgeCommand command = true ↔ IsPowershellHook binary
  elsewhere : IsPowershellHook binary → isBridgeCommandElsewhere command = true

theorem knownLauncher {executable script binary : String}
    (interpreter : IsInterpreter executable.toList) (written : script.toList ≠ [])
    (known : recognizedPowershellInvocation script = true ↔ IsPowershellHook binary)
    (named : IsPowershellHook binary → "agent-hook".toList <:+: script.toList) :
    KnownLauncher (launcher executable script) script binary where
  launches := launches_launcher interpreter written
  linux := by rw [isBridgeCommand_launcher interpreter written, known]
  elsewhere := fun hook => by
    rw [isBridgeCommandElsewhere_launcher interpreter written, contains_name (named hook)]

/-- The characters of a root that is accepted. -/
theorem isTokenSafeRoot_chars {root : List Char} (safe : isTokenSafeRoot root = true) :
    ∀ c ∈ root, isAsciiAlphanumeric c = true ∨ c ∈ [':', '/', '_', '-'] := by
  unfold isTokenSafeRoot at safe
  split at safe
  next drive path =>
    rw [Bool.and_eq_true, List.all_eq_true] at safe
    have letter : isAsciiAlphanumeric drive = true := by
      rw [isAsciiAlphanumeric, Bool.or_eq_true]
      exact .inl safe.1
    intro c inside
    rcases List.mem_cons.mp inside with rfl | inside
    · exact .inl letter
    rcases List.mem_cons.mp inside with rfl | inside
    · exact .inr (by decide)
    rcases List.mem_cons.mp inside with rfl | inside
    · exact .inr (by decide)
    have plain := safe.2 c inside
    rw [Bool.or_eq_true, decide_eq_true_eq] at plain
    exact plain.imp id fun mark => List.mem_cons_of_mem ':' mark
  next => cases safe

/-- The root of a launcher for Codex, with its own separators. -/
theorem codexRoot_chars {systemRoot : String}
    (safe : isTokenSafeRoot (replaceSeparators '\\' '/' systemRoot) = true) :
    ∀ c ∈ replaceSeparators '/' '\\' (.ofList (replaceSeparators '\\' '/' systemRoot)),
      isLauncherChar c = true ∧ c ≠ ' ' := by
  intro c inside
  rw [replaceSeparators, String.toList_ofList, List.mem_map] at inside
  obtain ⟨old, there, rfl⟩ := inside
  split
  · decide
  next notSlash =>
    rcases isTokenSafeRoot_chars safe old there with plain | mark
    · refine ⟨by rw [isLauncherChar, plain, Bool.true_or], ?_⟩
      rintro rfl
      exact absurd plain (by decide)
    · simp only [List.mem_cons, List.not_mem_nil, or_false, notSlash, false_or] at mark
      rcases mark with rfl | rfl | rfl <;> decide

theorem isWhitespace_of_launcherChar {c : Char} (plain : isLauncherChar c = true) (solid : c ≠ ' ') :
    isWhitespace c = false := by
  rw [isLauncherChar, Bool.or_eq_true] at plain
  rcases plain with plain | mark
  · exact of_isAsciiAlphanumeric (P := fun c => isWhitespace c = false) plain (by decide)
  · have all : ['-', '\\', ':', '.', '_', '+', '/', '='].all fun c => !isWhitespace c := by decide
    have listed := (List.mem_cons.mp (of_decide_eq_true mark)).resolve_left solid
    simpa using List.all_eq_true.mp all c listed

theorem isLauncherChar_launcher {executable : String}
    (plain : ∀ c ∈ executable.toList, isLauncherChar c = true) (script : String) :
    ∀ c ∈ (launcher executable script).toList, isLauncherChar c = true := by
  have option : ∀ word ∈ ["-NoProfile", "-NonInteractive", "-EncodedCommand", " "],
      word.toList.all isLauncherChar = true := by decide
  have encoded : ∀ c ∈ encodedText script, isLauncherChar c = true := by
    intro c inside
    have base64 := isBase64_encode _ c inside
    rw [isBase64, Bool.or_eq_true] at base64
    rw [isLauncherChar, Bool.or_eq_true]
    refine base64.imp id fun mark => decide_eq_true ?_
    have marks : ['+', '/', '='] ⊆ [' ', '-', '\\', ':', '.', '_', '+', '/', '='] := by decide
    exact marks (of_decide_eq_true mark)
  rw [toList_launcher]
  simp only [List.forall_mem_append, List.forall_mem_cons]
  exact ⟨plain, by decide, List.all_eq_true.mp (option _ (by simp)), by decide,
    List.all_eq_true.mp (option _ (by simp)), by decide, List.all_eq_true.mp (option _ (by simp)),
    by decide, encoded⟩

variable {binary event : String} {clientTag : Option String}

/-- The launcher for Claude, when the root of the system is one word. -/
theorem knownLauncher_claude (event_ : event ∈ hookEvents) {systemRoot : Option String}
    (solid : ∀ c ∈ (systemRoot.getD "C:\\Windows").toList, isWhitespace c = false) :
    KnownLauncher (formatClaudeWindowsHookCommand systemRoot binary event)
      (claudeImportedGrokGuardScript binary event) binary := by
  have root : ∀ c ∈ replaceSeparators '\\' '/' (systemRoot.getD "C:\\Windows"),
      isWhitespace c = false := by
    intro c inside
    obtain ⟨old, there, rfl⟩ := List.mem_map.mp inside
    split
    · decide
    · exact solid old there
  refine knownLauncher ?_ (guardScript_ne_nil binary event) (recognized_guardScript event_) fun named => ?_
  · rw [String.toList_append, String.toList_ofList]
    exact isInterpreter_append root isInterpreter_system.2.1
  · have inside := name_infix_formatPowershell named event (some "claude")
    rw [claudeImportedGrokGuardScript, String.toList_append, String.toList_append]
    exact (inside.trans (List.suffix_append _ _).isInfix).trans (List.prefix_append _ _).isInfix

/-- The launcher for Codex, when there is one. -/
theorem knownLauncher_codex (event_ : event ∈ hookEvents) (tag_ : IsTag clientTag)
    {systemRoot command : String}
    (rendered : formatCodexWindowsCommand systemRoot binary event clientTag = .ok command) :
    (∀ c ∈ command.toList, isLauncherChar c = true) ∧
      KnownLauncher command (formatPowershellHookCommand binary event clientTag) binary := by
  unfold formatCodexWindowsCommand at rendered
  simp only at rendered
  split at rendered
  next safe =>
    obtain rfl := Except.ok.inj rendered
    have root := codexRoot_chars safe
    constructor
    · refine isLauncherChar_launcher (fun c inside => ?_) _
      rw [String.toList_append, String.toList_ofList, List.mem_append] at inside
      have rest : ∀ c ∈ "\\System32\\WindowsPowerShell\\v1.0\\powershell.exe".toList,
          isLauncherChar c = true := List.all_iff_forall_prop.mp (by decide)
      exact inside.elim (fun front => (root c front).1) (rest c)
    · refine knownLauncher ?_ (formatPowershell_ne_nil binary event clientTag)
        (recognized_formatPowershell event_ tag_) fun named =>
          name_infix_formatPowershell named event clientTag
      rw [String.toList_append, String.toList_ofList]
      exact isInterpreter_append
        (fun c inside => isWhitespace_of_launcherChar (root c inside).1 (root c inside).2)
        isInterpreter_system.1
  next => cases rendered

/-- The launcher for Antigravity, which names the root by its variable. -/
theorem knownLauncher_antigravity (event_ : event ∈ hookEvents) (tag_ : IsTag clientTag) :
    KnownLauncher (formatAntigravityWindowsCommand binary event clientTag)
      (formatPowershellHookCommand binary event clientTag) binary := by
  refine knownLauncher ?_ (formatPowershell_ne_nil binary event clientTag)
    (recognized_formatPowershell event_ tag_) fun named =>
      name_infix_formatPowershell named event clientTag
  have text : "%SystemRoot%\\System32\\WindowsPowerShell\\v1.0\\powershell.exe".toList =
      "%SystemRoot%".toList ++ "\\System32\\WindowsPowerShell\\v1.0\\powershell.exe".toList := by
    decide
  rw [text]
  exact isInterpreter_append isInterpreter_system.2.2 isInterpreter_system.1

end AgentOtelBridge.HookCommand
