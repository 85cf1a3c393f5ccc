import AgentOtelBridge.Cli.HomePlan
import AgentOtelBridge.Lib.JsonPrint
import Mathlib.Data.List.Chain

/-!
# The extension of Pi

The extension is a template with two placeholders, for the path of the hook and for the environment
of its socket.  They are replaced one behind the other, by a JSON string and a JSON object, and each
wherever it stands.  So the second one is also replaced in the path that is put in place of the
first one.

`renderPiExtension_toList` is what is rendered: nothing of the template but the placeholders, and in
the path nothing but the second placeholder.  The path is a literal in the extension exactly if it
does not have that placeholder (`inert_iff`).
-/

namespace AgentOtelBridge.PiExtension

open HomeApply JsonPrint Text
open HookCommand (Unquoted)

def hookPath : String := "__AGENT_OTEL_HOOK_PATH__"

def socketEnv : String := "__AGENT_OTEL_SOCKET_ENV__"

/-- `pi-extension.ts`. -/
def template : String := piManaged ++ piBody

/-- The template with its first placeholder of each kind replaced. -/
def fillTemplate (hook environment : List Char) : Option (List Char) := do
  let (before, rest) ← splitOnceChars hookPath.toList template.toList
  let (between, after) ← splitOnceChars socketEnv.toList rest
  some (before ++ hook ++ between ++ environment ++ after)

/-! ## The template -/

/-- No two underscores stand side by side. -/
abbrev Single (cs : List Char) : Prop := cs.IsChain fun c d => ¬(c = '_' ∧ d = '_')

/-- What starts with two underscores is in no such text. -/
theorem not_infix_of_single {part cs : List Char} (clean : Single cs) :
    ¬('_' :: '_' :: part) <:+: cs := by
  intro present
  have chain := List.IsChain.infix clean present
  have start := List.isChain_cons_cons.mp chain
  exact start.1 ⟨rfl, rfl⟩

/-- Lines without two underscores side by side. -/
inductive SingleLines : List String → Prop
  | nil : SingleLines []
  | cons {line : List Char} {lines : List String} (clean : Single line)
      (more : SingleLines lines) : SingleLines (.ofList line :: lines)

theorem SingleLines.intercalate {lines : List String} (clean : SingleLines lines) :
    Single ("\n".intercalate lines).toList := by
  induction clean with
  | nil => exact .nil
  | @cons line lines clean more ih =>
      cases more with
      | nil =>
          rw [String.intercalate_singleton, String.toList_ofList]
          exact clean
      | @cons line' lines' clean' more =>
          have feed : "\n".toList = ['\n'] := rfl
          rw [String.intercalate_cons_cons, String.toList_append, String.toList_append,
            String.toList_ofList, feed, List.append_assoc]
          refine List.isChain_append.mpr ⟨clean, ?_, ?_⟩
          · refine List.isChain_append.mpr ⟨.singleton _, ih, ?_⟩
            rintro c ⟨⟩ d - ⟨other, -⟩
            exact absurd other (by decide)
          · rintro c - d ⟨⟩ ⟨-, other⟩
            exact absurd other (by decide)

/-- The template before the first placeholder, without the last space. -/
def start : String := "\n".intercalate
  ["// Managed by agent-otel-bridge. Native Pi event adapter; no model-visible output.",
    "import \x7b spawn \x7d from \"node:child_process\";", "", "const hook ="]

/-- What stands between the placeholders, without the last space. -/
def middle : String := "\n".intercalate [";", "const socketEnv ="]

set_option maxRecDepth 2000 in
theorem single_start : Single start.toList := by
  apply SingleLines.intercalate
  repeat first | exact .nil | refine .cons (by decide) ?_

theorem single_middle : Single middle.toList := by
  apply SingleLines.intercalate
  repeat first | exact .nil | refine .cons (by decide) ?_

set_option maxRecDepth 2000 in
/-- The placeholders stand in the fourth and the fifth line. -/
theorem piBody_lines : ∃ rest, rest ≠ [] ∧ SingleLines rest ∧ piBody = "\n".intercalate
    (" Native Pi event adapter; no model-visible output." ::
      "import \x7b spawn \x7d from \"node:child_process\";" :: "" ::
      "const hook = __AGENT_OTEL_HOOK_PATH__;" ::
      "const socketEnv = __AGENT_OTEL_SOCKET_ENV__;" :: rest) := by
  refine ⟨_, ?_, ?_, rfl⟩
  · exact List.cons_ne_nil _ _
  · repeat first | exact .nil | refine .cons (by decide) ?_

/-- The template with some texts in the places of its placeholders. -/
def layout (after hook environment : List Char) : List Char :=
  start.toList ++ ' ' :: (hook ++ (middle.toList ++ ' ' :: (environment ++ ';' :: after)))

/-- What stands behind the second placeholder. -/
structure Behind (after : List Char) : Prop where
  same : template.toList = layout after hookPath.toList socketEnv.toList
  clean : Single after

theorem exists_behind : ∃ after, Behind after := by
  obtain ⟨rest, nonempty, clean, lines⟩ := piBody_lines
  have firstLine : piManaged ++ " Native Pi event adapter; no model-visible output." =
      "// Managed by agent-otel-bridge. Native Pi event adapter; no model-visible output." := by
    decide
  have hookLine : "const hook = __AGENT_OTEL_HOOK_PATH__;" =
      "const hook =" ++ (" " ++ (hookPath ++ ";")) := by
    decide
  have socketLine : "const socketEnv = __AGENT_OTEL_SOCKET_ENV__;" =
      "const socketEnv =" ++ (" " ++ (socketEnv ++ ";")) := by
    decide
  have same : template = start ++ (" " ++ (hookPath ++ (middle ++ (" " ++ (socketEnv ++ (";" ++
      ("\n" ++ "\n".intercalate rest))))))) := by
    rw [template, lines, ← String.intercalate_cons_append, firstLine, hookLine, socketLine]
    simp only [start, middle, String.intercalate_cons_cons, String.intercalate_singleton,
      String.intercalate_cons_of_ne_nil nonempty, String.append_assoc]
  refine ⟨'\n' :: ("\n".intercalate rest).toList, ?_, ?_⟩
  · have space : " ".toList = [' '] := rfl
    have semicolon : ";".toList = [';'] := rfl
    have feed : "\n".toList = ['\n'] := rfl
    rw [same, String.toList_append, String.toList_append, String.toList_append,
      String.toList_append, String.toList_append, String.toList_append, String.toList_append,
      String.toList_append, space, semicolon, feed]
    simp only [List.singleton_append, layout]
  · refine List.isChain_append.mpr ⟨.singleton '\n', clean.intercalate, ?_⟩
    rintro c ⟨⟩ d - ⟨other, -⟩
    exact absurd other (by decide)

/-! ## The placeholders -/

/-- Both placeholders start with two underscores and are without white space and punctuation. -/
theorem hookPath_toList : hookPath.toList = '_' :: '_' :: "AGENT_OTEL_HOOK_PATH__".toList := by
  rfl

theorem socketEnv_toList : socketEnv.toList = '_' :: '_' :: "AGENT_OTEL_SOCKET_ENV__".toList := by
  rfl

/-- The characters of the second placeholder are in no escape. -/
theorem socketEnv_letters :
    ∀ c ∈ '_' :: '_' :: "AGENT_OTEL_SOCKET_ENV__".toList, ¬InEscape c :=
  List.all_iff_forall_prop.mp (by decide)

theorem not_infix_hookPath {cs : List Char} (clean : Single cs) : ¬hookPath.toList <:+: cs := by
  rw [hookPath_toList]
  exact not_infix_of_single clean

theorem not_infix_socketEnv {cs : List Char} (clean : Single cs) : ¬socketEnv.toList <:+: cs := by
  rw [socketEnv_toList]
  exact not_infix_of_single clean

theorem space_not_mem : ' ' ∉ hookPath.toList ∧ ' ' ∉ socketEnv.toList := by decide

theorem Behind.fillTemplate {after : List Char} (behind : Behind after)
    (hook environment : List Char) :
    fillTemplate hook environment = some (layout after hook environment) := by
  have noHook := not_infix_hookPath single_start
  have noSocket := not_infix_socketEnv single_middle
  obtain ⟨space, space'⟩ := space_not_mem
  rw [PiExtension.fillTemplate, behind.same, layout]
  rw [hookPath_toList] at noHook space ⊢
  rw [socketEnv_toList] at noSocket space' ⊢
  rw [splitOnceChars_append noHook space, splitOnceChars_self]
  simp only [Option.map_some, Option.bind_eq_bind, Option.bind_some]
  rw [splitOnceChars_append noSocket space', splitOnceChars_self]
  simp only [Option.map_some, Option.bind_some, layout, List.append_assoc, List.cons_append,
    List.nil_append]

/-- The first replacement only sees the template. -/
theorem Behind.replace_hookPath {after : List Char} (behind : Behind after) (hook : List Char) :
    replaceFrom hookPath.toList hook 0 template.toList = layout after hook socketEnv.toList := by
  have noStart := replaceFrom_of_not_infix (not_infix_hookPath single_start) hook
  have noMiddle := replaceFrom_of_not_infix (not_infix_hookPath single_middle) hook
  have noSocket : replaceFrom hookPath.toList hook 0 socketEnv.toList = socketEnv.toList :=
    replaceFrom_of_not_infix (by decide) hook
  have noAfter := replaceFrom_of_not_infix (not_infix_hookPath behind.clean) hook
  have space := space_not_mem.1
  have semicolon : ';' ∉ hookPath.toList := by decide
  rw [behind.same, layout, layout]
  rw [hookPath_toList] at noStart noMiddle noSocket noAfter space semicolon ⊢
  rw [replaceFrom_append_cons space, noStart, replaceFrom_self, replaceFrom_append_cons space, noMiddle,
    replaceFrom_append_cons semicolon, noSocket, noAfter]

/-- The second one also sees what stands between the quotation marks of the first one. -/
theorem Behind.replace_socketEnv {after : List Char} (behind : Behind after)
    (text environment : List Char) :
    replaceFrom socketEnv.toList environment 0
        (layout after ('"' :: (text ++ ['"'])) socketEnv.toList) =
      layout after ('"' :: (replaceFrom socketEnv.toList environment 0 text ++ ['"'])) environment := by
  have noStart := replaceFrom_of_not_infix (not_infix_socketEnv single_start) environment
  have noMiddle := replaceFrom_of_not_infix (not_infix_socketEnv single_middle) environment
  have noAfter := replaceFrom_of_not_infix (not_infix_socketEnv behind.clean) environment
  have space := space_not_mem.2
  have semicolon : ';' ∉ socketEnv.toList := by decide
  have quotation_ : '"' ∉ socketEnv.toList := by decide
  rw [layout, layout]
  simp only [List.cons_append, List.append_assoc, List.nil_append]
  rw [socketEnv_toList] at noStart noMiddle noAfter space semicolon quotation_ ⊢
  have opened := replaceFrom_append_cons quotation_ environment []
  have ended := replaceFrom_append_cons semicolon environment []
  rw [show replaceFrom _ environment 0 [] = [] from rfl] at opened ended
  simp only [List.nil_append] at opened ended
  rw [replaceFrom_append_cons space, noStart, opened, replaceFrom_append_cons quotation_,
    replaceFrom_append_cons space, noMiddle, replaceFrom_self, ended, noAfter]

/-! ## What is rendered -/

/-- A codec that prints values as `serde_json` does. -/
def serde (codec : JsonCodec) : JsonCodec := { codec with compact := JsonPrint.compact }

/-- The object of the environment, printed. -/
def environmentText (socket : Option String) : List Char :=
  print (match socket with
    | some socket => .obj [("AGENT_OTEL_SOCKET", .str socket)]
    | none => .obj [])

/-- An object literal that the environment of a socket is read from. -/
def EnvironmentLiteral (literal : List Char) : Option String → Prop
  | none => literal = ['\x7b', '\x7d']
  | some socket => ∃ key value, StringLiteral key "AGENT_OTEL_SOCKET".toList ∧
      StringLiteral value socket.toList ∧
      literal = '\x7b' :: (key ++ ':' :: (value ++ ['\x7d']))

/-- The extension is the template with a literal of the path and one of the environment. -/
def Inert (codec : JsonCodec) (binary : String) (socket : Option String) : Prop :=
  ∃ hook environment, StringLiteral hook binary.toList ∧ EnvironmentLiteral environment socket ∧
    fillTemplate hook environment = some (renderPiExtension codec binary socket).toList

theorem environmentText_literal (socket : Option String) :
    EnvironmentLiteral (environmentText socket) socket := by
  cases socket with
  | none => rfl
  | some socket =>
      refine ⟨_, _, .quoted _, .quoted _, ?_⟩
      simp only [environmentText, print, printFields, List.append_assoc, List.cons_append]

theorem Behind.render {after : List Char} (behind : Behind after) (codec : JsonCodec)
    {binary : String} (unquoted : Unquoted binary) (socket : Option String) :
    (renderPiExtension (serde codec) binary socket).toList =
      layout after ('"' :: (replaceFrom socketEnv.toList (environmentText socket) 0
        (escape binary.toList) ++ ['"'])) (environmentText socket) := by
  have hook : (serde codec).compact (.str binary) = .ofList (quote binary.toList) := rfl
  unfold renderPiExtension
  rw [unquoted.trimMatches_eq, hook]
  simp only [replace, String.toList_ofList]
  have first := behind.replace_hookPath (quote binary.toList)
  have second := behind.replace_socketEnv (escape binary.toList) (environmentText socket)
  rw [hookPath, template] at first
  rw [first]
  have printed (value : Json) : ((serde codec).compact value).toList = print value :=
    String.toList_ofList
  cases socket with
  | none =>
      simp only [printed]
      exact second
  | some socket =>
      simp only [printed]
      exact second

/-- A path without the second placeholder is in the extension as it is printed. -/
theorem Behind.render_plain {after : List Char} (behind : Behind after) (codec : JsonCodec)
    {binary : String} (unquoted : Unquoted binary) (absent : contains binary socketEnv = false)
    (socket : Option String) : (renderPiExtension (serde codec) binary socket).toList =
      layout after (quote binary.toList) (environmentText socket) := by
  have clean : ¬socketEnv.toList <:+: escape binary.toList := by
    intro present
    obtain ⟨front, back, same⟩ := present
    rw [socketEnv_toList] at same
    obtain ⟨front', back', same', -⟩ := escape_infix socketEnv_letters same.symm
    have found : contains binary socketEnv = true := by
      rw [contains_iff, socketEnv_toList, same']
      exact List.infix_append ..
    rw [absent] at found
    cases found
  rw [behind.render codec unquoted, replaceFrom_of_not_infix clean]
  rfl

/-- A path with the second placeholder is no literal in the extension. -/
theorem Behind.not_literal {after : List Char} (behind : Behind after) (codec : JsonCodec)
    {binary : String} (unquoted : Unquoted binary) (present : contains binary socketEnv = true)
    {socket : Option String} {hook environment : List Char}
    (literal : StringLiteral hook binary.toList) :
    (renderPiExtension (serde codec) binary socket).toList ≠ layout after hook environment := by
  intro same
  obtain ⟨body, rfl, read⟩ := literal
  rw [contains_iff, socketEnv_toList] at present
  obtain ⟨before, behind', split⟩ := present
  -- the first place of the placeholder, in the escaped path and in the path
  have found : '_' :: '_' :: "AGENT_OTEL_SOCKET_ENV__".toList <:+: escape binary.toList := by
    rw [← split, escape_append, escape_append]
    have plain : escape ('_' :: '_' :: "AGENT_OTEL_SOCKET_ENV__".toList) =
        '_' :: '_' :: "AGENT_OTEL_SOCKET_ENV__".toList := by decide
    rw [plain]
    exact List.infix_append ..
  obtain ⟨front, back, escaped, replaced⟩ := replaceFrom_first found (environmentText socket)
  obtain ⟨front', back', path, rfl⟩ := escape_infix socketEnv_letters escaped
  rw [behind.render codec unquoted, socketEnv_toList, replaced, layout, layout] at same
  -- behind the front, the one has the environment and the other the placeholder
  obtain ⟨environment', start_⟩ : ∃ rest, environmentText socket = '\x7b' :: rest := by
    cases socket <;> exact ⟨_, rfl⟩
  simp only [start_, List.cons_append, List.append_assoc, List.append_cancel_left_eq,
    List.cons.injEq, true_and, List.nil_append] at same
  obtain ⟨body', text, read', same', text_⟩ := read.front same.symm
  have brace : escapeChar '\x7b' = ['\x7b'] := by decide
  have begins := @StringBody.char '\x7b' _ _ _ _ read' (by rw [brace]; exact same')
  obtain ⟨body'', text', -, -, rfl⟩ := begins
  rw [path, List.append_assoc, List.append_cancel_left_eq] at text_
  cases text_

/-- The path is a literal in the extension exactly if it is without the second placeholder. -/
theorem inert_iff (codec : JsonCodec) {binary : String} (unquoted : Unquoted binary)
    (socket : Option String) :
    Inert (serde codec) binary socket ↔ contains binary socketEnv = false := by
  obtain ⟨after, behind⟩ := exists_behind
  constructor
  · rintro ⟨hook, environment, literal, -, filled⟩
    rw [behind.fillTemplate, Option.some.injEq] at filled
    by_contra found
    rw [Bool.not_eq_false] at found
    exact behind.not_literal codec unquoted found literal filled.symm
  · intro absent
    refine ⟨_, _, .quoted _, environmentText_literal socket, ?_⟩
    rw [behind.fillTemplate, behind.render_plain codec unquoted absent]

theorem environmentText_injective {socket socket' : Option String}
    (same : environmentText socket = environmentText socket') : socket = socket' := by
  cases socket with
  | none =>
      cases socket' with
      | none => rfl
      | some socket' => cases same
  | some socket =>
      cases socket' with
      | none => cases same
      | some socket' =>
          simp only [environmentText, print, printFields, List.cons_append, List.append_assoc,
            List.cons.injEq, true_and, List.append_cancel_left_eq] at same
          have read := (StringLiteral.quoted socket.toList).of_quote same
          exact congrArg some (String.toList_inj.mp read.1)

/-- Different paths and sockets are in different extensions. -/
theorem renderPiExtension_injective (codec : JsonCodec) {binary binary' : String}
    {socket socket' : Option String} (unquoted : Unquoted binary) (unquoted' : Unquoted binary')
    (absent : contains binary socketEnv = false) (absent' : contains binary' socketEnv = false)
    (same : renderPiExtension (serde codec) binary socket =
      renderPiExtension (serde codec) binary' socket') : binary = binary' ∧ socket = socket' := by
  obtain ⟨after, behind⟩ := exists_behind
  have layouts := congrArg String.toList same
  rw [behind.render_plain codec unquoted absent, behind.render_plain codec unquoted' absent', layout,
    layout, List.append_cancel_left_eq, List.cons.injEq] at layouts
  obtain ⟨binaries, rest⟩ := (StringLiteral.quoted binary.toList).of_quote layouts.2
  rw [List.append_cancel_left_eq, List.cons.injEq, List.append_cancel_right_eq] at rest
  exact ⟨String.toList_inj.mp binaries, environmentText_injective rest.2⟩

/-- The path and the environment are literals in the extension exactly if the path is without the
second placeholder, and two such extensions with other values are different. -/
theorem renderPiExtension_literals (codec : JsonCodec) {binary : String}
    (unquoted : Unquoted binary) (socket : Option String) :
    (Inert (serde codec) binary socket ↔ contains binary socketEnv = false) ∧
      ∀ binary' socket', Unquoted binary' → contains binary socketEnv = false →
        contains binary' socketEnv = false → (binary, socket) ≠ (binary', socket') →
        renderPiExtension (serde codec) binary socket ≠
          renderPiExtension (serde codec) binary' socket' := by
  refine ⟨inert_iff codec unquoted socket, ?_⟩
  intro binary' socket' unquoted' absent absent' different same
  obtain ⟨rfl, rfl⟩ := renderPiExtension_injective codec unquoted unquoted' absent absent' same
  exact different rfl

/-- A hook and a socket, and the same hook without one. -/
theorem opt_literals :
    Inert (serde codexCodec) "/opt/agent-hook" (some "/run/hook.sock") ∧
      renderPiExtension (serde codexCodec) "/opt/agent-hook" (some "/run/hook.sock") ≠
        renderPiExtension (serde codexCodec) "/opt/agent-hook" none := by
  have unquoted : Unquoted "/opt/agent-hook" := ⟨by decide, by decide⟩
  have absent : contains "/opt/agent-hook" socketEnv = false := by decide
  have literals := renderPiExtension_literals codexCodec unquoted (some "/run/hook.sock")
  exact ⟨literals.1.mpr absent,
    literals.2 "/opt/agent-hook" none unquoted absent absent (by decide)⟩

/-- A directory with the name of the second placeholder. -/
theorem placeholder_in_path :
    ¬∀ (codec : JsonCodec) (binary : String) (socket : Option String), Unquoted binary →
      Inert (serde codec) binary socket := by
  intro literal
  have unquoted : Unquoted "/opt/__AGENT_OTEL_SOCKET_ENV__/agent-hook" := ⟨by decide, by decide⟩
  have inert := literal codexCodec _ (some "/run/hook.sock") unquoted
  rw [inert_iff codexCodec unquoted] at inert
  exact absurd inert (by decide)

end AgentOtelBridge.PiExtension
