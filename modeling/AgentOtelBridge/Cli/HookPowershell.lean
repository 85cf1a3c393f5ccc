import AgentOtelBridge.Cli.HookLiteral

/-!
# Commands for PowerShell

The recognizer of a script unescapes the path, splits the arguments and formats the
command again.  It accepts a script exactly if it is the command of a hook, or that
command in the guard for Grok (`recognizedPowershellInvocation_iff`).

The path that is scanned back is the one that was formatted, without the quotation
marks at its ends.
-/

namespace AgentOtelBridge.HookCommand

open Text

/-! ## A path between quotation marks -/

/-- The characters that a backtick stands before. -/
def powershellSpecial : List Char := [backtick, '$', quotation]

def escapePowershell (path : List Char) : List Char :=
  path.flatMap fun c => if c ∈ powershellSpecial then [backtick, c] else [c]

variable {binary event : String} {clientTag : Option String}

/-- An escaped path is scanned back up to the closing mark. -/
theorem scanQuoted_escapePowershell (path read rest : List Char) :
    scanQuoted read (escapePowershell path ++ quotation :: rest) = some (read ++ path, rest) := by
  induction path generalizing read with
  | nil =>
      have other : quotation ≠ backtick := by decide
      rw [escapePowershell, List.flatMap_nil, List.nil_append, List.append_nil, scanQuoted.eq_def]
      simp only [if_neg other, if_true]
  | cons c path ih =>
      have later := ih (read ++ [c])
      rw [List.append_assoc, List.singleton_append] at later
      rw [← later]
      by_cases special : c ∈ powershellSpecial
      · have escaped : escapePowershell (c :: path) = backtick :: c :: escapePowershell path := by
          simp [escapePowershell, special]
        rw [escaped, List.cons_append, List.cons_append, scanQuoted.eq_def]
        simp only [if_true]
      · have plain : escapePowershell (c :: path) = c :: escapePowershell path := by
          simp [escapePowershell, special]
        simp only [powershellSpecial, List.mem_cons, List.not_mem_nil, or_false, not_or] at special
        rw [plain, List.cons_append, scanQuoted.eq_def]
        simp only [if_neg special.1, if_neg special.2.2]

/-- The text of a command: the call operator, the path and the arguments. -/
theorem toList_formatPowershell (binary event : String) (clientTag : Option String) :
    (formatPowershellHookCommand binary event clientTag).toList =
      "& \"".toList ++ (escapePowershell (trimMatches [quotation] binary).toList ++
        quotation :: ' ' :: argumentText event clientTag) := by
  -- No replacement meets a character that one before it has written.
  have path : ∀ text : List Char,
      ((text.flatMap fun c => if c = backtick then [backtick, backtick] else [c]).flatMap
        fun c => if c = '$' then [backtick, '$'] else [c]).flatMap
          (fun c => if c = quotation then [backtick, quotation] else [c]) = escapePowershell text := by
    intro text
    induction text with
    | nil => rfl
    | cons c text ih =>
        have marks : backtick ≠ '$' ∧ backtick ≠ quotation ∧ '$' ≠ quotation := by decide
        rw [escapePowershell, List.flatMap_cons, List.flatMap_cons, List.flatMap_append,
          List.flatMap_append, ih, ← escapePowershell]
        refine congrArg (· ++ _) ?_
        by_cases first : c = backtick
        · simp [first, marks, powershellSpecial]
        by_cases second : c = '$'
        · simp [second, marks, marks.1.symm, powershellSpecial]
        by_cases third : c = quotation
        · simp [third, marks.2.1.symm, marks.2.2.symm, powershellSpecial]
        simp [first, second, third, powershellSpecial]
  have client : ∀ tag : String, (" --client " ++ tag).toList =
      ' ' :: ("--client".toList ++ ' ' :: tag.toList) := by
    intro tag
    rw [String.toList_append]
    rfl
  unfold formatPowershellHookCommand argumentText clientText
  cases clientTag with
  | none =>
      simp only [String.toList_append, String.toList_ofList, path]
      simp [quotation]
  | some tag =>
      simp only [String.toList_append, String.toList_ofList, path, Option.elim_some] at client ⊢
      simp [quotation]

/-- What is trimmed has no mark at its ends. -/
theorem unquoted_trimMatches (binary : String) : Unquoted (trimMatches [quotation] binary) := by
  have stops : ∀ text : List Char, (text.dropWhile (· ∈ [quotation])).head? ≠ some quotation := by
    intro text first
    have stopped := List.head?_dropWhile_not (· ∈ [quotation]) text
    rw [first] at stopped
    exact absurd stopped (by decide)
  refine ⟨fun first => ?_, fun last => ?_⟩
  · -- What is left at the end begins as it did.
    rw [trimMatches, String.toList_ofList] at first
    have begins : ((binary.toList.dropWhile (· ∈ [quotation])).rdropWhile (· ∈ [quotation])).head? =
        some quotation := first
    obtain ⟨rest, same⟩ := List.head?_eq_some_iff.mp begins
    obtain ⟨dropped, whole⟩ := List.rdropWhile_prefix (· ∈ [quotation])
      (l := binary.toList.dropWhile (· ∈ [quotation]))
    rw [same] at whole
    exact stops binary.toList (by rw [← whole]; rfl)
  · rw [trimMatches, String.toList_ofList, List.getLast?_reverse] at last
    exact stops _ last

/-! ## The script -/

theorem recognizedPowershellInvocation_eq (script : String) :
    recognizedPowershellInvocation script =
      match stripPrefix powershellGuard script with
      | some inner =>
        ((stripSuffix inner.toList " \x7d".toList).map fun inner =>
          recognizedScript (.ofList inner) true).getD false
      | none => recognizedScript script false := by
  unfold recognizedPowershellInvocation recognizedScript
  generalize stripPrefix "& \"" = start, stripPrefix powershellGuard script = unwrapped,
    literalShellWords = split
  cases unwrapped with
  | none => rfl
  | some inner =>
      simp only
      generalize stripSuffix inner.toList " \x7d".toList = cut
      cases cut with
      | none => rfl
      | some inner => rfl

/-- `claude_imported_grok_guard_script`. -/
def claudeImportedGrokGuardScript (binary event : String) : String :=
  powershellGuard ++ formatPowershellHookCommand binary event (some "claude") ++ " \x7d"

/-- The last component of the path, of either system, is the name of the hook. -/
def IsPowershellHook (binary : String) : Prop :=
  basename (trimMatches [quotation] binary).toList ∈ ["agent-hook".toList, "agent-hook.exe".toList]

/-- What is scanned of a command. -/
theorem scan_formatPowershell (binary event : String) (clientTag : Option String) :
    ((stripPrefix "& \"" (formatPowershellHookCommand binary event clientTag)).bind
      fun inner => scanQuoted [] inner.toList) =
        some ((trimMatches [quotation] binary).toList, ' ' :: argumentText event clientTag) := by
  have text := toList_formatPowershell binary event clientTag
  rw [stripPrefix, text, if_pos (List.isPrefixOf_iff_prefix.mpr (List.prefix_append _ _)),
    List.drop_left, Option.bind_some, String.toList_ofList, scanQuoted_escapePowershell,
    List.nil_append]

/-- The arguments behind the path. -/
theorem literalShellWords_arguments (event_ : event ∈ hookEvents) (tag_ : IsTag clientTag) :
    literalShellWords (trim (.ofList (' ' :: argumentText event clientTag))) =
      some (event :: clientWords clientTag) := by
  obtain ⟨last, stop, solid'⟩ := getLast?_argumentText event_ tag_
  obtain ⟨eventSome, eventPlain⟩ := plain_of_mem (.inl event_)
  obtain ⟨first, rest, same⟩ := List.exists_cons_of_ne_nil eventSome
  have start : (argumentText event clientTag).head? = some first := by
    rw [argumentText, same]
    rfl
  have solid : isWhitespace first = false := isWhitespace_of_plain (eventPlain first (by simp [same]))
  have space : trim (.ofList (' ' :: argumentText event clientTag)) =
      trim (.ofList (argumentText event clientTag)) := by
    simp only [trim, String.toList_ofList, trimChars]
    rw [List.dropWhile_cons_of_pos (by decide)]
  rw [space, trim_eq_self start stop solid solid', literalShellWords, String.toList_ofList,
    shellWords_argumentText rfl rfl event_ tag_]
  rfl

theorem getElem?_clientWords (event : String) (clientTag : Option String) :
    (event :: clientWords clientTag)[2]? = clientTag := by
  cases clientTag <;> rfl

/-- A script is accepted exactly if it is a command, with the tag of the guard in a guard. -/
theorem recognizedScript_iff {script : String} {guarded : Bool} :
    recognizedScript script guarded = true ↔ ∃ binary event clientTag, IsPowershellHook binary ∧
      event ∈ hookEvents ∧ IsTag clientTag ∧ (guarded = true → clientTag = some "claude") ∧
        script = formatPowershellHookCommand binary event clientTag := by
  constructor
  · intro recognized
    unfold recognizedScript at recognized
    split at recognized
    · cases recognized
    next binary rest scanned =>
      split at recognized
      · cases recognized
      next arguments split_ =>
        split at recognized
        · cases recognized
        next accepted =>
          rw [not_or, not_not, Bool.not_eq_false] at accepted
          obtain ⟨named, recognizedArguments_⟩ := accepted
          obtain ⟨event, clientTag, event_, tag_, rfl⟩ := recognizedArguments_iff.mp recognizedArguments_
          simp only [getElem?_clientWords, List.headD_cons, Bool.and_eq_true, Bool.or_eq_true,
            Bool.not_eq_true', decide_eq_true_eq] at recognized
          obtain ⟨tag, rfl⟩ := recognized
          -- The path that was scanned is the one that is formatted, without its marks.
          rw [scan_formatPowershell] at scanned
          obtain ⟨same, -⟩ := Prod.mk.inj (Option.some.inj scanned)
          refine ⟨.ofList binary, event, clientTag, ?_, event_, tag_, fun inside => ?_, rfl⟩
          · rw [IsPowershellHook, same]
            exact named
          · exact tag.resolve_left (by simp [inside])
  · rintro ⟨binary, event, clientTag, named, event_, tag_, tag, rfl⟩
    have again : formatPowershellHookCommand (trimMatches [quotation] binary) event clientTag =
        formatPowershellHookCommand binary event clientTag := by
      simp only [formatPowershellHookCommand.eq_def, (unquoted_trimMatches binary).trimMatches_eq]
    have arguments : recognizedArguments (event :: clientWords clientTag) = true :=
      recognizedArguments_iff.mpr ⟨event, clientTag, event_, tag_, rfl⟩
    have accepted : ¬ (basename (trimMatches [quotation] binary).toList ∉
        ["agent-hook".toList, "agent-hook.exe".toList] ∨
          recognizedArguments (event :: clientWords clientTag) = false) := by
      rw [not_or, not_not, Bool.not_eq_false]
      exact ⟨named, arguments⟩
    unfold recognizedScript
    simp only [scan_formatPowershell, literalShellWords_arguments event_ tag_]
    rw [if_neg accepted, getElem?_clientWords, List.headD_cons, String.ofList_toList, again]
    cases guarded with
    | false => simp
    | true => simp [tag rfl]

theorem stripPrefix_eq_some {start script inner : String} :
    stripPrefix start script = some inner ↔ script = start ++ inner := by
  unfold stripPrefix
  constructor
  · intro unwrapped
    split at unwrapped
    next begins =>
      obtain ⟨rest, whole⟩ := List.isPrefixOf_iff_prefix.mp begins
      rw [← whole, List.drop_left] at unwrapped
      rw [← Option.some.inj unwrapped, ← String.toList_inj, String.toList_append, String.toList_ofList,
        whole]
    · cases unwrapped
  · rintro rfl
    rw [String.toList_append, if_pos (List.isPrefixOf_iff_prefix.mpr (List.prefix_append _ _)),
      List.drop_left, String.ofList_toList]

theorem stripSuffix_eq_some {text suffix_ inner : List Char} :
    stripSuffix text suffix_ = some inner ↔ text = inner ++ suffix_ := by
  unfold stripSuffix
  constructor
  · intro unwrapped
    split at unwrapped
    next ends =>
      obtain ⟨front, whole⟩ := List.isSuffixOf_iff_suffix.mp ends
      rw [← whole, List.length_append, Nat.add_sub_cancel, List.take_left] at unwrapped
      rw [← Option.some.inj unwrapped, whole]
    · cases unwrapped
  · rintro rfl
    rw [if_pos (List.isSuffixOf_iff_suffix.mpr (List.suffix_append _ _)), List.length_append,
      Nat.add_sub_cancel, List.take_left]

/-- A command does not begin like the guard. -/
theorem stripPrefix_formatPowershell (binary event : String) (clientTag : Option String) :
    stripPrefix powershellGuard (formatPowershellHookCommand binary event clientTag) = none := by
  have operator : "& \"".toList = '&' :: [' ', quotation] := by decide
  have guard : powershellGuard.toList = 'i' :: powershellGuard.toList.tail := by decide
  have differs : ('i' == '&') = false := by decide
  rw [stripPrefix, toList_formatPowershell, operator, List.cons_append, guard, List.isPrefixOf,
    differs, Bool.false_and, if_neg Bool.false_ne_true]

/-- What is accepted is a command, or one with the tag of Claude in the guard. -/
theorem recognizedPowershellInvocation_cases (script : String) :
    recognizedPowershellInvocation script = true ↔
      (stripPrefix powershellGuard script = none ∧ recognizedScript script false = true) ∨
        ∃ inner, script = powershellGuard ++ inner ++ " \x7d" ∧ recognizedScript inner true = true := by
  rw [recognizedPowershellInvocation_eq]
  cases unwrapped : stripPrefix powershellGuard script with
  | none =>
      have other : ∀ inner, script ≠ powershellGuard ++ inner ++ " \x7d" := by
        rintro inner rfl
        rw [String.append_assoc, stripPrefix_eq_some.mpr rfl] at unwrapped
        cases unwrapped
      exact ⟨fun accepted => .inl ⟨rfl, accepted⟩, fun accepted => accepted.elim And.right
        fun ⟨inner, same, _⟩ => absurd same (other inner)⟩
  | some rest =>
      obtain rfl := stripPrefix_eq_some.mp unwrapped
      have inside : ∀ inner : String, powershellGuard ++ rest = powershellGuard ++ inner ++ " \x7d" ↔
          rest.toList = inner.toList ++ " \x7d".toList := by
        intro inner
        rw [← String.toList_inj, String.append_assoc, String.toList_append, String.toList_append,
          String.toList_append, List.append_cancel_left_eq]
      simp only [inside, reduceCtorEq, false_and, false_or]
      cases cut : stripSuffix rest.toList " \x7d".toList with
      | none =>
          refine ⟨fun accepted => absurd accepted Bool.false_ne_true, ?_⟩
          rintro ⟨inner, same, -⟩
          rw [stripSuffix_eq_some.mpr same] at cut
          cases cut
      | some inner =>
          have whole := stripSuffix_eq_some.mp cut
          rw [Option.map_some, Option.getD_some]
          constructor
          · exact fun accepted => ⟨.ofList inner, by simp only [whole, String.toList_ofList], accepted⟩
          · rintro ⟨inner', same, accepted⟩
            rw [whole, List.append_cancel_right_eq] at same
            rw [same, String.ofList_toList]
            exact accepted

/-- **The recognizer is exact**: it accepts the commands of a hook, and those for Claude in
the guard for Grok. -/
theorem recognizedPowershellInvocation_iff (script : String) :
    recognizedPowershellInvocation script = true ↔
      ∃ binary event clientTag, IsPowershellHook binary ∧ event ∈ hookEvents ∧ IsTag clientTag ∧
        (script = formatPowershellHookCommand binary event clientTag ∨
          clientTag = some "claude" ∧ script = claudeImportedGrokGuardScript binary event) := by
  simp only [recognizedPowershellInvocation_cases, recognizedScript_iff]
  constructor
  · rintro (⟨-, binary, event, clientTag, named, event_, tag_, -, rfl⟩ |
      ⟨_, rfl, binary, event, clientTag, named, event_, tag_, tag, rfl⟩)
    · exact ⟨binary, event, clientTag, named, event_, tag_, .inl rfl⟩
    · obtain rfl := tag trivial
      exact ⟨binary, event, _, named, event_, tag_, .inr ⟨rfl, rfl⟩⟩
  · rintro ⟨binary, event, clientTag, named, event_, tag_, rfl | ⟨rfl, rfl⟩⟩
    · exact .inl ⟨stripPrefix_formatPowershell binary event clientTag,
        binary, event, clientTag, named, event_, tag_, nofun, rfl⟩
    · exact .inr ⟨_, rfl, binary, event, some "claude", named, event_, tag_, fun _ => rfl, rfl⟩

end AgentOtelBridge.HookCommand
