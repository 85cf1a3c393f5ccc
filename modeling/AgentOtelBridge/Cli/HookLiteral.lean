import AgentOtelBridge.Cli.HookCommand

/-!
# What is formatted is recognized

The words of a formatted command are the parts it was made of, whatever characters
the paths have (`literalShellWords_formatPosix`).  So the recognizer accepts it when
the executable has the name of the hook (`isBridgeCommand_formatPosix`), in the guard
for Claude as well.

The recognizer knows an assignment by the text of the first word, and not by its
quotation.  Without a socket it takes an executable for an assignment when the path
begins like one.
-/

namespace AgentOtelBridge.HookCommand

open Text

/-! ## Words of a command -/

/-- The words behind the event. -/
def clientWords (clientTag : Option String) : List String :=
  clientTag.elim [] fun tag => ["--client", tag]

/-- The words of a command: the assignment of the socket, the executable and its arguments. -/
def commandWords (binary event : String) (clientTag socket : Option String) : List String :=
  (socket.elim [] fun path => ["AGENT_OTEL_SOCKET=" ++ path]) ++
    binary :: event :: clientWords clientTag

/-- The tag is of a client, when there is one. -/
def IsTag (clientTag : Option String) : Prop := ∀ tag, clientTag = some tag → tag ∈ hookClients

variable {binary event tag : String} {clientTag socket : Option String}

theorem isTag_none : IsTag none := fun _ found => nomatch found

theorem isTag_some (tag_ : tag ∈ hookClients) : IsTag (some tag) :=
  fun _ found => Option.some.inj found ▸ tag_

/-- The words that the names of events and clients are. -/
theorem plain_of_mem {word : String} (listed : word ∈ hookEvents ∨ word ∈ hookClients) :
    word.toList ≠ [] ∧ ∀ c ∈ word.toList, isPlain c = true := by
  have all : ∀ word ∈ hookEvents ++ hookClients,
      word.toList ≠ [] ∧ word.toList.all isPlain = true := by decide +kernel
  obtain ⟨nonempty, plain⟩ := all word (List.mem_append.mpr listed)
  exact ⟨nonempty, List.all_eq_true.mp plain⟩

/-- The text of the client. -/
def clientText (clientTag : Option String) : List Char :=
  clientTag.elim [] fun tag => ' ' :: ("--client".toList ++ ' ' :: tag.toList)

/-- The text of the arguments. -/
def argumentText (event : String) (clientTag : Option String) : List Char :=
  event.toList ++ clientText clientTag

/-- The text of the assignment. -/
def socketText (socket : Option String) : List Char :=
  socket.elim [] fun path => "AGENT_OTEL_SOCKET=".toList ++ (quote path.toList ++ [' '])

/-- The text of a command: what comes before the event, the event, and the client. -/
theorem toList_formatPosix (event_ : event ∈ hookEvents) (tag_ : IsTag clientTag)
    (binary : String) (socket : Option String) :
    (formatPosixHookCommand binary event clientTag socket).toList =
      (socketText socket ++ quotation ::
        (escapePath (trimMatches [quotation] binary).toList ++ [quotation])) ++
          ' ' :: argumentText event clientTag := by
  have plainEvent : event.toList.all isAsciiAlphanumeric = true := by
    revert event
    decide
  have plainTag : ∀ tag ∈ hookClients,
      (tag.toList.all fun c => isAsciiAlphanumeric c || c = '-') = true := by decide
  have option : " --client ".toList = ' ' :: ("--client".toList ++ [' ']) := by decide
  unfold formatPosixHookCommand argumentText clientText socketText
  cases clientTag with
  | none =>
      simp only [plainEvent, if_true, String.toList_ofList]
      cases socket <;> simp
  | some tag =>
      simp only [plainEvent, plainTag tag (tag_ tag rfl), if_true, String.toList_ofList, option]
      cases socket <;> simp

/-- The arguments are read as the event and the words of the client. -/
theorem shellWords_argumentText {s : ShellState} (bare : s.quote = none) (fresh : s.word = [])
    (event_ : event ∈ hookEvents) (tag_ : IsTag clientTag) :
    shellWords s (argumentText event clientTag) = some (s.words ++ event :: clientWords clientTag) := by
  obtain ⟨eventSome, eventPlain⟩ := plain_of_mem (.inl event_)
  have optionPlain : ∀ c ∈ "--client".toList, isPlain c = true := by
    rw [← List.all_eq_true]
    decide
  unfold argumentText clientText clientWords
  rw [shellWords_word bare eventPlain eventSome]
  cases clientTag with
  | none =>
      rw [Option.elim_none, shellWords, if_neg (by simp [ShellState.read, bare])]
      simp [ShellState.endWord, ShellState.read, fresh]
  | some tag =>
      obtain ⟨tagSome, tagPlain⟩ := plain_of_mem (.inr (tag_ tag rfl))
      have last := List.append_nil tag.toList
      rw [Option.elim_some, ← last, shellWords_space (by simp [ShellState.read, bare]),
        shellWords_word (by simp [ShellState.endWord, ShellState.read, bare]) optionPlain (by decide),
        shellWords_space (by simp [ShellState.endWord, ShellState.read, bare]),
        shellWords_word (by simp [ShellState.endWord, ShellState.read, bare]) tagPlain tagSome,
        shellWords, if_neg (by simp [ShellState.endWord, ShellState.read, bare])]
      simp [ShellState.endWord, ShellState.read, fresh]

/-- Behind a space the word that was read is one of the words. -/
theorem shellWords_space_argumentText {s : ShellState} (bare : s.quote = none)
    (started : s.started = true) (event_ : event ∈ hookEvents) (tag_ : IsTag clientTag) :
    shellWords s (' ' :: argumentText event clientTag) =
      some (s.words ++ .ofList s.word :: event :: clientWords clientTag) := by
  rw [shellWords_space bare, shellWords_argumentText (by simp [ShellState.endWord, started, bare])
    (by simp [ShellState.endWord, started]) event_ tag_]
  simp [ShellState.endWord, started]

/-- A command is split into its words, whatever the paths are. -/
theorem literalShellWords_formatPosix (event_ : event ∈ hookEvents) (tag_ : IsTag clientTag)
    (binary : String) (socket : Option String) :
    literalShellWords (formatPosixHookCommand binary event clientTag socket) =
      some (commandWords (trimMatches [quotation] binary) event clientTag socket) := by
  have executable : ∀ (words : List String) (path back : List Char),
      shellWords ⟨words, [], false, none⟩
        (quotation :: (escapePath path ++ quotation :: back)) =
          shellWords ⟨words, path, true, none⟩ back := by
    intro words path back
    rw [shellWords_open rfl (.inr rfl), shellWords_escapePath _ rfl rfl]
    rfl
  unfold literalShellWords
  rw [toList_formatPosix event_ tag_]
  cases socket with
  | none =>
      simp only [socketText, Option.elim_none, List.nil_append, List.cons_append, List.append_assoc]
      rw [executable, shellWords_space_argumentText rfl rfl event_ tag_]
      simp [commandWords]
  | some path =>
      have assignment : ∀ c ∈ "AGENT_OTEL_SOCKET=".toList, isPlain c = true := by
        rw [← List.all_eq_true]
        decide
      simp only [socketText, Option.elim_some, List.nil_append, List.cons_append, List.append_assoc]
      have word : String.ofList ("AGENT_OTEL_SOCKET=".toList ++ path.toList) =
          "AGENT_OTEL_SOCKET=" ++ path := by
        rw [String.ofList_append, String.ofList_toList, String.ofList_toList]
      rw [shellWords_word rfl assignment (by decide), shellWords_quote rfl, shellWords_space rfl]
      refine (executable [.ofList ("AGENT_OTEL_SOCKET=".toList ++ path.toList)] _ _).trans ?_
      rw [shellWords_space_argumentText rfl rfl event_ tag_, word, String.ofList_toList]
      rfl

/-! ## Recognition of the words -/

/-- The executable has the name of the hook. -/
def isHookName (path : List Char) : Bool :=
  eqIgnoreAsciiCase (basename path) "agent-hook".toList ||
    eqIgnoreAsciiCase (basename path) "agent-hook.exe".toList

/-- The first word is no assignment for the recognizer, or it is the one of the socket. -/
def Unassigned (binary : String) (socket : Option String) : Prop :=
  socket = none → startsWith binary "AGENT_OTEL_SOCKET=" = false

theorem recognizedArguments_iff {arguments : List String} : recognizedArguments arguments = true ↔
    ∃ event clientTag, event ∈ hookEvents ∧ IsTag clientTag ∧
      arguments = event :: clientWords clientTag := by
  constructor
  · intro recognized
    unfold recognizedArguments at recognized
    split at recognized
    next event => exact ⟨event, none, by simpa using recognized, isTag_none, rfl⟩
    next event option client =>
      simp only [Bool.and_eq_true, decide_eq_true_eq] at recognized
      obtain ⟨⟨event_, rfl⟩, client_⟩ := recognized
      exact ⟨event, some client, event_, isTag_some client_, rfl⟩
    · exact absurd recognized Bool.false_ne_true
  · rintro ⟨event, clientTag, event_, tag_, rfl⟩
    cases clientTag with
    | none => simpa [recognizedArguments, clientWords] using event_
    | some tag => simpa [recognizedArguments, clientWords, event_] using tag_ tag rfl

/-- Behind the assignment there are the executable and the arguments of the hook. -/
theorem recognizedInvocation_of_dropAssignment {tokens : List String} (event_ : event ∈ hookEvents)
    (tag_ : IsTag clientTag)
    (dropped : dropAssignment tokens = binary :: event :: clientWords clientTag) :
    recognizedInvocation tokens = isHookName binary.toList := by
  have arguments : recognizedArguments (event :: clientWords clientTag) = true :=
    recognizedArguments_iff.mpr ⟨event, clientTag, event_, tag_, rfl⟩
  have notHook : event ≠ "hook" := by
    rintro rfl
    exact absurd event_ (by decide)
  unfold recognizedInvocation
  cases name : isHookName binary.toList with
  | true =>
      rw [isHookName] at name
      simp only [dropped, name, arguments, if_true]
  | false =>
      rw [isHookName] at name
      have other : (some event = some "hook") = False := by simp [notHook]
      simp only [dropped, name, Bool.false_eq_true, if_false, List.head?_cons, other, decide_false,
        Bool.and_false]

theorem startsWith_append (start rest : String) : startsWith (start ++ rest) start = true := by
  rw [startsWith, String.toList_append]
  exact List.isPrefixOf_iff_prefix.mpr (List.prefix_append _ _)

/-- An executable that is taken for an assignment leaves the event as the executable. -/
theorem recognizedInvocation_assigned (event_ : event ∈ hookEvents)
    (assigned : startsWith binary "AGENT_OTEL_SOCKET=" = true) (clientTag : Option String) :
    recognizedInvocation (binary :: event :: clientWords clientTag) = false := by
  have names : ∀ event ∈ hookEvents,
      (eqIgnoreAsciiCase (basename event.toList) "agent-hook".toList ||
        eqIgnoreAsciiCase (basename event.toList) "agent-hook.exe".toList) = false ∧
      (eqIgnoreAsciiCase (basename event.toList) "agent-otel-bridge".toList ||
        eqIgnoreAsciiCase (basename event.toList) "agent-otel-bridge.exe".toList) = false := by
    decide +kernel
  obtain ⟨notHook, notBridge⟩ := names event event_
  have dropped : dropAssignment (binary :: event :: clientWords clientTag) =
      event :: clientWords clientTag := if_pos assigned
  unfold recognizedInvocation
  simp only [dropped, notHook, notBridge, Bool.false_and, Bool.false_eq_true, if_false]

theorem recognizedInvocation_commandWords (event_ : event ∈ hookEvents) (tag_ : IsTag clientTag) :
    recognizedInvocation (commandWords binary event clientTag socket) = true ↔
      isHookName binary.toList = true ∧ Unassigned binary socket := by
  cases socket with
  | some path =>
      have dropped : dropAssignment (commandWords binary event clientTag (some path)) =
          binary :: event :: clientWords clientTag := if_pos (startsWith_append _ _)
      rw [recognizedInvocation_of_dropAssignment event_ tag_ dropped]
      simp [Unassigned]
  | none =>
      cases assigned : startsWith binary "AGENT_OTEL_SOCKET=" with
      | true =>
          have refused := recognizedInvocation_assigned event_ assigned clientTag
          simp [commandWords, refused, Unassigned, assigned]
      | false =>
          have dropped : dropAssignment (commandWords binary event clientTag none) =
              binary :: event :: clientWords clientTag :=
            if_neg (by rw [assigned]; exact Bool.false_ne_true)
          rw [recognizedInvocation_of_dropAssignment event_ tag_ dropped]
          simp [Unassigned, assigned]

/-! ## The line as a whole -/

theorem trim_eq_self {text : List Char} {first last : Char} (start : text.head? = some first)
    (stop : text.getLast? = some last) (solid : isWhitespace first = false)
    (solid' : isWhitespace last = false) : trim (.ofList text) = .ofList text := by
  have front : text.dropWhile isWhitespace = text := by
    obtain ⟨rest, rfl⟩ := List.head?_eq_some_iff.mp start
    rw [List.dropWhile_cons_of_neg (by simp [solid])]
  have back : text.reverse.dropWhile isWhitespace = text.reverse := by
    rw [← List.head?_reverse] at stop
    obtain ⟨rest, reversed⟩ := List.head?_eq_some_iff.mp stop
    rw [reversed, List.dropWhile_cons_of_neg (by simp [solid'])]
  rw [trim, String.toList_ofList, trimChars, front, back, List.reverse_reverse]

theorem splitWhitespace_append_cons {sep : Char} (separates : isWhitespace sep = true)
    (front back : List Char) : splitWhitespace (.ofList (front ++ sep :: back)) =
      splitWhitespace (.ofList front) ++ splitWhitespace (.ofList back) := by
  simp only [splitWhitespace, String.toList_ofList]
  rw [List.splitOnP_append_cons _ _ separates, List.filter_append, List.map_append]

theorem splitWhitespace_word {word : List Char} (nonempty : word ≠ [])
    (solid : ∀ c ∈ word, isWhitespace c = false) :
    splitWhitespace (.ofList word) = [.ofList word] := by
  rw [splitWhitespace, String.toList_ofList, List.splitOnP_eq_singleton solid]
  simp [nonempty]

/-- A text that ends in no white space ends in the last of its words. -/
theorem splitWhitespace_concat (last : Char) (solid : isWhitespace last = false) (front : List Char) :
    ∃ words word, splitWhitespace (.ofList (front ++ [last])) = words ++ [word] ∧
      word.toList.getLast? = some last := by
  have ends : ∀ word : List Char, (∀ c ∈ word, isWhitespace c = false) →
      splitWhitespace (.ofList (word ++ [last])) = [.ofList (word ++ [last])] := fun word clean =>
    splitWhitespace_word (by simp) fun c member => (List.mem_append.mp member).elim (clean c)
      fun there => List.mem_singleton.mp there ▸ solid
  rcases eq_or_exists_separator isWhitespace front with clean | ⟨before, sep, word, rfl, separates, clean⟩
  · exact ⟨[], .ofList (front ++ [last]), ends front clean, by simp⟩
  · refine ⟨splitWhitespace (.ofList before), .ofList (word ++ [last]), ?_, by simp⟩
    rw [List.append_assoc, List.cons_append, splitWhitespace_append_cons separates, ends word clean]

theorem isWhitespace_of_plain {c : Char} (plain : isPlain c = true) : isWhitespace c = false := by
  simp only [isPlain, Bool.and_eq_true, Bool.not_eq_true'] at plain
  exact plain.2

/-- A line that ends in an event or in a client is no encoded launcher, when a quotation
mark stands before the event. -/
theorem encodedScript_arguments (front : List String) {path : String}
    (marked : path.toList.getLast? = some quotation) (event : String) (clientTag : Option String) :
    encodedScript (front ++ path :: event :: clientWords clientTag) = none := by
  unfold encodedScript
  split
  next executable profile interactive encoded script same =>
    have length := congrArg List.length same
    cases clientTag with
    | none =>
        simp only [clientWords, Option.elim_none, List.length_append, List.length_cons,
          List.length_nil] at length
        obtain ⟨a, b, c, rfl⟩ := List.length_eq_three.mp (show front.length = 3 by omega)
        obtain ⟨-, -, -, rfl, -⟩ : a = executable ∧ b = profile ∧ c = interactive ∧
            path = encoded ∧ event = script := by simpa [clientWords] using same
        have other : path ≠ "-EncodedCommand" := by
          rintro rfl
          exact absurd marked (by decide)
        simp [other]
    | some tag =>
        simp only [clientWords, Option.elim_some, List.length_append, List.length_cons,
          List.length_nil] at length
        obtain ⟨a, rfl⟩ := List.length_eq_one_iff.mp (show front.length = 1 by omega)
        obtain ⟨-, -, -, rfl, -⟩ : a = executable ∧ path = profile ∧ event = interactive ∧
            "--client" = encoded ∧ tag = script := by simpa [clientWords] using same
        simp
  · rfl

/-- The text of a command is trimmed, and neither guarded nor encoded. -/
theorem isBridgeCommand_text {text : List Char} {first last : Char} (start : text.head? = some first)
    (stop : text.getLast? = some last) (solid : isWhitespace first = false)
    (solid' : isWhitespace last = false) (bare : first ≠ 'i')
    (direct : encodedScript (splitWhitespace (.ofList text)) = none) :
    isBridgeCommand (.ofList text) =
      ((literalShellWords (.ofList text)).map recognizedInvocation).getD false := by
  have unguarded : stripPrefix claudeGuard (.ofList text) = none := by
    obtain ⟨rest, rfl⟩ := List.head?_eq_some_iff.mp start
    have guard : claudeGuard.toList = 'i' :: claudeGuard.toList.tail := by decide
    have differs : ('i' == first) = false := beq_eq_false_iff_ne.mpr bare.symm
    rw [stripPrefix, String.toList_ofList, guard, List.isPrefixOf, differs, Bool.false_and,
      if_neg Bool.false_ne_true]
  unfold isBridgeCommand
  simp only [trim_eq_self start stop solid solid', unguarded, direct]

/-- A guarded command is one if the command in the guard is. -/
theorem isBridgeCommand_guarded {inner : String}
    (direct : encodedScript (splitWhitespace inner) = none) :
    isBridgeCommand (claudeGuard ++ inner ++ "; fi") =
      ((literalShellWords inner).map recognizedInvocation).getD false := by
  have whole : claudeGuard ++ inner ++ "; fi" =
      .ofList (claudeGuard.toList ++ (inner.toList ++ "; fi".toList)) := by
    rw [String.ofList_append, String.ofList_append, String.ofList_toList, String.ofList_toList,
      String.ofList_toList, String.append_assoc]
  have start : (claudeGuard.toList ++ (inner.toList ++ "; fi".toList)).head? = some 'i' := by
    have guard : claudeGuard.toList = 'i' :: claudeGuard.toList.tail := by decide
    rw [guard]
    rfl
  have stop : (claudeGuard.toList ++ (inner.toList ++ "; fi".toList)).getLast? = some 'i' := by
    rw [List.getLast?_append_of_ne_nil _ (by simp), List.getLast?_append_of_ne_nil _ (by simp)]
    decide
  have unwrapped : stripPrefix claudeGuard
      (.ofList (claudeGuard.toList ++ (inner.toList ++ "; fi".toList))) =
        some (.ofList (inner.toList ++ "; fi".toList)) := by
    rw [stripPrefix, String.toList_ofList,
      if_pos (List.isPrefixOf_iff_prefix.mpr (List.prefix_append _ _)), List.drop_left]
  have cut : stripSuffix (inner.toList ++ "; fi".toList) "; fi".toList = some inner.toList := by
    rw [stripSuffix, if_pos (List.isSuffixOf_iff_suffix.mpr (List.suffix_append _ _)),
      List.length_append, Nat.add_sub_cancel, List.take_left]
  rw [whole]
  unfold isBridgeCommand
  simp only [trim_eq_self start stop (by decide) (by decide), unwrapped, String.toList_ofList, cut,
    Option.map_some, String.ofList_toList, direct]

theorem splitWhitespace_argumentText (event_ : event ∈ hookEvents) (tag_ : IsTag clientTag) :
    splitWhitespace (.ofList (argumentText event clientTag)) = event :: clientWords clientTag := by
  obtain ⟨eventSome, eventPlain⟩ := plain_of_mem (.inl event_)
  have eventWord := splitWhitespace_word eventSome fun c h => isWhitespace_of_plain (eventPlain c h)
  have option : splitWhitespace (.ofList "--client".toList) = ["--client"] := by
    have bare : ∀ c ∈ "--client".toList, isWhitespace c = false :=
      List.all_iff_forall_prop.mp (by decide)
    rw [splitWhitespace_word (by decide) bare, String.ofList_toList]
  have space : isWhitespace ' ' = true := by decide
  unfold argumentText clientText clientWords
  cases clientTag with
  | none => rw [Option.elim_none, List.append_nil, eventWord, String.ofList_toList]; rfl
  | some tag =>
      obtain ⟨tagSome, tagPlain⟩ := plain_of_mem (.inr (tag_ tag rfl))
      rw [Option.elim_some, splitWhitespace_append_cons space, splitWhitespace_append_cons space,
        eventWord, option, splitWhitespace_word tagSome fun c h => isWhitespace_of_plain (tagPlain c h),
        String.ofList_toList, String.ofList_toList]
      rfl

/-- A formatted command is no encoded launcher. -/
theorem encodedScript_formatPosix (event_ : event ∈ hookEvents) (tag_ : IsTag clientTag)
    (binary : String) (socket : Option String) :
    encodedScript (splitWhitespace (formatPosixHookCommand binary event clientTag socket)) = none := by
  have front : socketText socket ++ quotation ::
      (escapePath (trimMatches [quotation] binary).toList ++ [quotation]) =
        (socketText socket ++ quotation :: escapePath (trimMatches [quotation] binary).toList) ++
          [quotation] := by simp
  obtain ⟨words, word, split, marked⟩ := splitWhitespace_concat quotation (by decide)
    (socketText socket ++ quotation :: escapePath (trimMatches [quotation] binary).toList)
  rw [← String.ofList_toList (s := formatPosixHookCommand binary event clientTag socket),
    toList_formatPosix event_ tag_, splitWhitespace_append_cons (by decide), front, split,
    splitWhitespace_argumentText event_ tag_, List.append_assoc]
  exact encodedScript_arguments words marked event clientTag

/-- The arguments end in a character of a name. -/
theorem getLast?_argumentText (event_ : event ∈ hookEvents) (tag_ : IsTag clientTag) :
    ∃ last, (argumentText event clientTag).getLast? = some last ∧ isWhitespace last = false := by
  obtain ⟨eventSome, eventPlain⟩ := plain_of_mem (.inl event_)
  unfold argumentText clientText
  cases clientTag with
  | none =>
      rw [Option.elim_none, List.append_nil]
      exact ⟨_, List.getLast?_eq_some_getLast eventSome,
        isWhitespace_of_plain (eventPlain _ (List.getLast_mem eventSome))⟩
  | some tag =>
      obtain ⟨tagSome, tagPlain⟩ := plain_of_mem (.inr (tag_ tag rfl))
      refine ⟨tag.toList.getLast tagSome, ?_,
        isWhitespace_of_plain (tagPlain _ (List.getLast_mem tagSome))⟩
      rw [Option.elim_some, List.getLast?_append_of_ne_nil _ (by simp), List.getLast?_cons,
        List.getLast?_append_of_ne_nil _ (by simp), List.getLast?_cons,
        List.getLast?_eq_some_getLast tagSome]
      rfl

/-! ## Recognition of a command -/

/-- The recognizer accepts what the formatter writes for an executable of the name, if it
takes the path for no assignment. -/
theorem isBridgeCommand_formatPosix (event_ : event ∈ hookEvents) (tag_ : IsTag clientTag) :
    isBridgeCommand (formatPosixHookCommand binary event clientTag socket) = true ↔
      isHookName (trimMatches [quotation] binary).toList = true ∧
        Unassigned (trimMatches [quotation] binary) socket := by
  have text := toList_formatPosix event_ tag_ binary socket
  have words := literalShellWords_formatPosix event_ tag_ binary socket
  have direct := encodedScript_formatPosix event_ tag_ binary socket
  obtain ⟨first, start, solid, bare⟩ : ∃ first,
      (formatPosixHookCommand binary event clientTag socket).toList.head? = some first ∧
        isWhitespace first = false ∧ first ≠ 'i' := by
    rw [text]
    cases socket with
    | none => exact ⟨quotation, rfl, by decide, by decide⟩
    | some path => exact ⟨'A', rfl, by decide, by decide⟩
  obtain ⟨last, ends, solid'⟩ := getLast?_argumentText event_ tag_
  have stop : (formatPosixHookCommand binary event clientTag socket).toList.getLast? =
      some last := by
    rw [text, List.getLast?_append_of_ne_nil _ (by simp), List.getLast?_cons, ends]
    rfl
  rw [← String.ofList_toList (s := formatPosixHookCommand binary event clientTag socket)] at words direct ⊢
  rw [isBridgeCommand_text start stop solid solid' bare direct, words, Option.map_some,
    Option.getD_some]
  exact recognizedInvocation_commandWords event_ tag_

/-- And so it does in the guard of a command for Claude. -/
theorem isBridgeCommand_formatPosixClaude (event_ : event ∈ hookEvents) (tag_ : IsTag clientTag) :
    isBridgeCommand (formatPosixClaudeHookCommand binary event clientTag socket) = true ↔
      isHookName (trimMatches [quotation] binary).toList = true ∧
        Unassigned (trimMatches [quotation] binary) socket := by
  have guarded : IsTag (clientTag.or (some "claude")) := by
    cases clientTag with
    | none => exact isTag_some (by decide)
    | some tag => exact tag_
  unfold formatPosixClaudeHookCommand
  rw [isBridgeCommand_guarded (encodedScript_formatPosix event_ guarded binary socket),
    literalShellWords_formatPosix event_ guarded, Option.map_some, Option.getD_some]
  exact recognizedInvocation_commandWords event_ guarded

/-! ## Executables with the name of the hook -/

/-- The path starts and ends with no quotation mark. -/
structure Unquoted (binary : String) : Prop where
  start : binary.toList.head? ≠ some quotation
  stop : binary.toList.getLast? ≠ some quotation

theorem Unquoted.trimMatches_eq (unquoted : Unquoted binary) :
    trimMatches [quotation] binary = binary := by
  have keeps : ∀ text : List Char, text.head? ≠ some quotation →
      text.dropWhile (· ∈ [quotation]) = text := by
    intro text start
    cases text with
    | nil => rfl
    | cons c rest =>
        refine List.dropWhile_cons_of_neg ?_
        simpa using start
  have reversed : binary.toList.reverse.head? ≠ some quotation := by
    rw [List.head?_reverse]
    exact unquoted.stop
  rw [trimMatches, keeps _ unquoted.start, keeps _ reversed, List.reverse_reverse,
    String.ofList_toList]

/-- The last component of a path. -/
def lastComponent (path : String) : String :=
  .ofList ((lastSegment (fun c => c = '/') path.toList).getD [])

theorem isHookName_of_lastComponent (named : lastComponent binary = "agent-hook") :
    isHookName binary.toList = true := by
  have clean : ∀ c ∈ "agent-hook".toList, (c = '/' || c = '\\') = false :=
    List.all_iff_forall_prop.mp (by decide)
  have basename_ : basename binary.toList = "agent-hook".toList := by
    rcases eq_or_exists_separator (fun c => decide (c = '/')) binary.toList with
      whole | ⟨front, sep, last, same, separates, rest⟩
    · have last : binary.toList = "agent-hook".toList := by
        rw [← named, lastComponent, lastSegment_of_forall whole, Option.getD_some,
          String.toList_ofList]
      rw [basename, last, lastSegment_of_forall clean]
      rfl
    · have last_ : last = "agent-hook".toList := by
        rw [← named, lastComponent, same, lastSegment_append_cons separates,
          lastSegment_of_forall rest, Option.getD_some, String.toList_ofList]
      rw [basename, same, lastSegment_append_cons (by simp_all), last_, lastSegment_of_forall clean]
      rfl
  rw [isHookName, basename_]
  decide

/-- An executable the recognizer knows by its path: absolute, and the hook by its name. -/
structure IsHook (binary : String) : Prop where
  absolute : binary.toList.head? = some '/'
  named : "/agent-hook".toList <:+ binary.toList

namespace IsHook

theorem lastComponent_eq (hook : IsHook binary) : lastComponent binary = "agent-hook" := by
  obtain ⟨front, same⟩ := hook.named
  have split : binary.toList = front ++ '/' :: "agent-hook".toList := same.symm
  have clean : ∀ c ∈ "agent-hook".toList, decide (c = '/') = false :=
    List.all_iff_forall_prop.mp (by decide)
  rw [lastComponent, split, lastSegment_append_cons (by decide), lastSegment_of_forall clean,
    Option.getD_some, String.ofList_toList]

theorem unquoted (hook : IsHook binary) : Unquoted binary := by
  obtain ⟨front, same⟩ := hook.named
  refine ⟨?_, ?_⟩
  · rw [hook.absolute]
    decide
  · rw [← same, List.getLast?_append_of_ne_nil _ (by decide)]
    decide

theorem unassigned (hook : IsHook binary) (socket : Option String) : Unassigned binary socket := by
  intro _
  obtain ⟨rest, first⟩ : ∃ rest, binary.toList = '/' :: rest := List.head?_eq_some_iff.mp hook.absolute
  rw [startsWith, first]
  rfl

end IsHook

theorem isBridgeCommand_posix (event_ : event ∈ hookEvents) (tag_ : tag ∈ hookClients)
    (hook : IsHook binary) (socket : Option String) :
    isBridgeCommand (formatPosixHookCommand binary event (some tag) socket) = true := by
  rw [isBridgeCommand_formatPosix event_ (isTag_some tag_), hook.unquoted.trimMatches_eq]
  exact ⟨isHookName_of_lastComponent hook.lastComponent_eq, hook.unassigned socket⟩

theorem isBridgeCommand_claude (event_ : event ∈ hookEvents) (tag_ : tag ∈ hookClients)
    (hook : IsHook binary) (socket : Option String) :
    isBridgeCommand (formatPosixClaudeHookCommand binary event (some tag) socket) = true := by
  rw [isBridgeCommand_formatPosixClaude event_ (isTag_some tag_), hook.unquoted.trimMatches_eq]
  exact ⟨isHookName_of_lastComponent hook.lastComponent_eq, hook.unassigned socket⟩

/-! ## The command of a path -/

/-- The words of the command are the parts it was made of, and the recognizer accepts it,
and its guard for Claude, when the executable is the hook by its name. -/
def FormatsLiterally (binary event : String) (clientTag socket : Option String) : Prop :=
  literalShellWords (formatPosixHookCommand binary event clientTag socket) =
      some (commandWords binary event clientTag socket) ∧
    (lastComponent binary = "agent-hook" →
      isBridgeCommand (formatPosixHookCommand binary event clientTag socket) = true ∧
        isBridgeCommand (formatPosixClaudeHookCommand binary event clientTag socket) = true)

/-- The words are always those parts.  The recognizer accepts the command unless there is
no socket and the path begins like the assignment of one. -/
theorem formatsLiterally_iff (unquoted : Unquoted binary) (event_ : event ∈ hookEvents)
    (tag_ : IsTag clientTag) : FormatsLiterally binary event clientTag socket ↔
      (lastComponent binary = "agent-hook" → socket = none →
        startsWith binary "AGENT_OTEL_SOCKET=" = false) := by
  have words := literalShellWords_formatPosix event_ tag_ binary socket
  rw [unquoted.trimMatches_eq] at words
  unfold FormatsLiterally
  rw [isBridgeCommand_formatPosix event_ tag_, isBridgeCommand_formatPosixClaude event_ tag_,
    unquoted.trimMatches_eq, and_self]
  constructor
  · intro literally named
    exact (literally.2 named).2
  · intro unassigned
    exact ⟨words, fun named => ⟨isHookName_of_lastComponent named, unassigned named⟩⟩

theorem formatsLiterally_opt :
    FormatsLiterally "/opt/a b$c'\\/agent-hook" "Stop" (some "codex") none :=
  (formatsLiterally_iff ⟨by decide, by decide⟩ (by decide) (isTag_some (by decide))).mpr
    fun _ _ => by decide

theorem not_formatsLiterally_assignment :
    ¬ FormatsLiterally "AGENT_OTEL_SOCKET=/agent-hook" "Stop" none none := by
  intro literally
  exact absurd (literally.2 (by decide)).1 (by decide +kernel)

end AgentOtelBridge.HookCommand
