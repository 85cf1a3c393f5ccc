import AgentOtelBridge.Cli.HookReinstall
import AgentOtelBridge.Lib.JsonCode

/-!
# Aligning a project

`run_sync` installs hooks into the project files of the clients whose projects have
hooks of their own.  It leaves a file alone that its detection takes for registered:
for Antigravity by a text that occurs in it, for Claude by any command of the bridge.
The detection is not the check of what an installation writes, so a file may be left
alone that has not every event (`established_iff`).
-/

namespace AgentOtelBridge.HookMerge

open Json HookCommand

/-! ## Commands in a value -/

mutual

/-- `has_bridge_command`: some object of the value has a command of the bridge. -/
def hasBridgeCommand : Json → Bool
  | .obj fields => ownsCommand (.obj fields) || fieldsHaveBridgeCommand fields
  | .arr items => itemsHaveBridgeCommand items
  | _ => false

def itemsHaveBridgeCommand : List Json → Bool
  | [] => false
  | item :: items => hasBridgeCommand item || itemsHaveBridgeCommand items

def fieldsHaveBridgeCommand : Fields → Bool
  | [] => false
  | (_, value) :: fields => hasBridgeCommand value || fieldsHaveBridgeCommand fields

end

section

variable {value part group : Json} {key event : String} {fields hooks : Fields}

theorem itemsHaveBridgeCommand_eq (items : List Json) :
    itemsHaveBridgeCommand items = items.any hasBridgeCommand := by
  induction items with
  | nil => rfl
  | cons item items ih => rw [itemsHaveBridgeCommand, ih, List.any_cons]

theorem fieldsHaveBridgeCommand_eq (fields : Fields) :
    fieldsHaveBridgeCommand fields = fields.any fun field => hasBridgeCommand field.2 := by
  induction fields with
  | nil => rfl
  | cons field fields ih =>
      obtain ⟨key, value⟩ := field
      rw [fieldsHaveBridgeCommand, ih, List.any_cons]

theorem hasBridgeCommand_arr (items : List Json) :
    hasBridgeCommand (.arr items) = items.any hasBridgeCommand := by
  rw [hasBridgeCommand, itemsHaveBridgeCommand_eq]

theorem hasBridgeCommand_of_owns (owns : ownsCommand value = true) : hasBridgeCommand value = true := by
  cases value with
  | obj fields => rw [hasBridgeCommand, owns, Bool.true_or]
  | null | bool | num | str | arr => simp [ownsCommand, commandOf, Json.get] at owns

theorem hasBridgeCommand_of_get (there : value.get key = some part)
    (found : hasBridgeCommand part = true) : hasBridgeCommand value = true := by
  cases value with
  | obj fields =>
      obtain ⟨field, first, rfl⟩ := Option.map_eq_some_iff.mp there
      have any : fieldsHaveBridgeCommand fields = true := by
        rw [fieldsHaveBridgeCommand_eq]
        exact List.any_eq_true.mpr ⟨field, List.mem_of_find?_eq_some first, found⟩
      rw [hasBridgeCommand, any, Bool.or_true]
  | null | bool | num | str | arr => cases there

/-- A group with a handler of the bridge. -/
theorem hasBridgeCommand_of_hasOwned (owned : hasOwned ownsCommand group = true) :
    hasBridgeCommand group = true := by
  obtain ⟨handlers, found, any⟩ := (Option.any_eq_true ..).mp owned
  obtain ⟨items, there, array⟩ := Option.bind_eq_some_iff.mp found
  obtain rfl : items = .arr handlers := by
    cases items with
    | arr items => exact congrArg Json.arr (Option.some.inj array)
    | null | bool | num | str | obj => cases array
  refine hasBridgeCommand_of_get there ?_
  obtain ⟨handler, member, owns⟩ := List.any_eq_true.mp any
  rw [hasBridgeCommand_arr]
  exact List.any_eq_true.mpr ⟨handler, member, hasBridgeCommand_of_owns owns⟩

/-- An object with a command, and no other objects in it. -/
theorem hasBridgeCommand_handler (command : String) :
    hasBridgeCommand (entryHandler command) = isBridgeCommand command := by
  simp [entryHandler, hasBridgeCommand, fieldsHaveBridgeCommand_eq, ownsCommand, commandOf,
    getField_cons, asStr]

theorem hasBridgeCommand_standardEntry (event command : String) :
    hasBridgeCommand (standardEntry event command) = isBridgeCommand command := by
  unfold standardEntry
  split <;>
    simp [hasBridgeCommand, fieldsHaveBridgeCommand_eq, itemsHaveBridgeCommand_eq, ownsCommand,
      commandOf, getField_cons, asStr]

end

/-! ## The events of a file -/

/-- The event of a Claude configuration has a command of the bridge. -/
def ClaudeHas (root : Json) (event : String) : Prop :=
  ∃ hooks value, root.get "hooks" = some hooks ∧ hooks.get event = some value ∧
    hasBridgeCommand value = true

/-- The event has a command of the bridge under some key of an Antigravity configuration. -/
def AntigravityHas (root : Json) (event : String) : Prop :=
  ∃ key hooks value, root.get key = some hooks ∧ hooks.get event = some value ∧
    hasBridgeCommand value = true

/-- The events that an installation for Antigravity registers on Linux. -/
def antigravityEvents : List String := ["PostInvocation", "PostToolUse", "PreInvocation", "Stop"]

/-! ## Installation into a file -/

/-- The parser and the printer of a file of settings. -/
structure SettingsCodec where
  parse : String → Except String Json
  pretty : Json → String
  wellFormed : ∀ text value, parse text = .ok value → value.WellFormed
  inverse : ∀ value, value.WellFormed → parse (pretty value) = .ok value
  /-- The key of the bridge is printed as it is. -/
  printsKey : ∀ value, (value.get "agent-otel-bridge").isSome = true →
    Text.contains (pretty value) "agent-otel-bridge" = true

namespace SettingsCodec

variable (codec : SettingsCodec)

/-- A file is read as text, and parsed. -/
def read (content : List UInt8) : Except String Json :=
  match Text.fromUtf8 content with
  | none => .error "stream did not contain valid UTF-8"
  | some text => codec.parse text

def write (root : Json) : List UInt8 := Text.asBytes (codec.pretty root)

/-- `install_antigravity_hooks` of a file that exists. -/
def installAntigravityHooks (command : String → String) (content : List UInt8) :
    Except String (List UInt8) := do
  match ← codec.read content with
  | .obj fields =>
    .ok (codec.write (.obj (insertField "agent-otel-bridge" (antigravityBridgeHooks command) fields)))
  | _ => .error "Invalid Antigravity hook configuration; configuration unchanged"

/-- `install_claude_hooks` of a file that exists. -/
def installClaudeHooks (command : String → String) (content : List UInt8) :
    Except String (List UInt8) := do
  let root ← codec.read content
  let root ← mergeFormattedHooks command root
  .ok (codec.write root)

/-- `is_registered_fn` of Antigravity. -/
def antigravityRegistered (content : List UInt8) : Bool :=
  (Text.fromUtf8 content).any fun text =>
    Text.contains text "agent-otel-bridge" || Text.contains text "agent-hook"

/-- `is_registered_fn` of Claude. -/
def claudeRegistered (content : List UInt8) : Bool :=
  (codec.read content).toOption.any hasBridgeCommand

end SettingsCodec

/-! ## The alignment -/

/-- The files of a project, where they exist. -/
structure ProjectFiles where
  antigravity : Option (List UInt8)
  claude : Option (List UInt8)
deriving DecidableEq, Repr

/-- A run of the alignment, with the binary it resolves to and the socket of its
environment. -/
structure SyncRun where
  userProvided : Option String
  installed : InstalledHooks
  socket : Option String
  binary : String
  resolves : resolveCanonicalHookBinary userProvided installed = .ok binary

namespace SyncRun

/-- The command for Antigravity, whose adapter has no tag. -/
def antigravityCommand (run : SyncRun) (event : String) : String :=
  formatPosixHookCommand run.binary event (some "agy") run.socket

def claudeCommand (run : SyncRun) (event : String) : String :=
  formatPosixClaudeHookCommand run.binary event none run.socket

/-- The binary has the name of the hook, and is taken for no assignment. -/
def Recognized (run : SyncRun) : Prop :=
  isHookName (Text.trimMatches [quotation] run.binary).toList = true ∧
    Unassigned (Text.trimMatches [quotation] run.binary) run.socket

end SyncRun

/-- A file that is there is installed into, unless it is registered. -/
def syncFile (registered : List UInt8 → Bool) (install : List UInt8 → Except String (List UInt8))
    (file : Option (List UInt8)) : Except String (Option (List UInt8)) :=
  match file with
  | none => .ok none
  | some content => if registered content then .ok file else (install content).map some

/-- `run_sync`: what it returns, and the files afterwards.  The adapters of one scope only
are reported. -/
def runSync (codec : SettingsCodec) (run : SyncRun) (files : ProjectFiles) :
    Except String Unit × ProjectFiles :=
  match syncFile SettingsCodec.antigravityRegistered
    (codec.installAntigravityHooks run.antigravityCommand) files.antigravity with
  | .error error => (.error error, files)
  | .ok antigravity =>
    match syncFile codec.claudeRegistered (codec.installClaudeHooks run.claudeCommand) files.claude with
    | .error error => (.error error, { files with antigravity := antigravity })
    | .ok claude => (.ok (), ⟨antigravity, claude⟩)

/-- The file can be read, and each of the events is in it. -/
def HoldsEvents (codec : SettingsCodec) (has : Json → String → Prop) (events : List String)
    (content : List UInt8) : Prop :=
  ∃ root, codec.read content = .ok root ∧ ∀ event ∈ events, has root event

/-- The registration is established: the files have every event that is installed, and
another run changes none of them. -/
structure Established (codec : SettingsCodec) (run : SyncRun) (files : ProjectFiles) : Prop where
  antigravity : ∀ content, files.antigravity = some content →
    HoldsEvents codec AntigravityHas antigravityEvents content
  claude : ∀ content, files.claude = some content → HoldsEvents codec ClaudeHas bridgeEvents content
  settled : (runSync codec run files).2 = files

/-- A file that is taken for registered has every event already.  Any other one is
installed into, by a binary that is recognized; one for Antigravity may also have every
event outside of the key of the bridge. -/
structure Aligned (codec : SettingsCodec) (run : SyncRun) (files : ProjectFiles) : Prop where
  antigravity : ∀ content, files.antigravity = some content →
    if SettingsCodec.antigravityRegistered content then
      HoldsEvents codec AntigravityHas antigravityEvents content
    else run.Recognized ∨ HoldsEvents codec
      (fun root => AntigravityHas (mapObject (without ["agent-otel-bridge"]) root)) antigravityEvents
        content
  claude : ∀ content, files.claude = some content →
    if codec.claudeRegistered content then HoldsEvents codec ClaudeHas bridgeEvents content
    else run.Recognized

/-! ## What an installation establishes -/

section

variable {codec : SettingsCodec} {run : SyncRun} {command : String → String} {fields : Fields}
  {root root' : Json} {content content' : List UInt8} {event : String}

theorem SyncRun.antigravityCommand_iff (run : SyncRun) (event_ : event ∈ hookEvents) :
    isBridgeCommand (run.antigravityCommand event) = true ↔ run.Recognized :=
  isBridgeCommand_formatPosix event_ (isTag_some (by decide))

theorem SyncRun.claudeCommand_iff (run : SyncRun) (event_ : event ∈ hookEvents) :
    isBridgeCommand (run.claudeCommand event) = true ↔ run.Recognized :=
  isBridgeCommand_formatPosixClaude event_ isTag_none

theorem SettingsCodec.read_write (codec : SettingsCodec) (wellFormed : root.WellFormed) :
    codec.read (codec.write root) = .ok root := by
  rw [SettingsCodec.read, SettingsCodec.write, Text.fromUtf8_asBytes]
  exact codec.inverse root wellFormed

theorem SettingsCodec.wellFormed_read (read : codec.read content = .ok root) : root.WellFormed := by
  unfold SettingsCodec.read at read
  split at read
  · cases read
  · exact codec.wellFormed _ _ read

/-- What is installed for Antigravity has the command in each of its events. -/
theorem antigravityBridgeHooks_has (command : String → String) (member : event ∈ antigravityEvents) :
    ∃ value, (antigravityBridgeHooks command).get event = some value ∧
      hasBridgeCommand value = isBridgeCommand (command event) := by
  simp only [antigravityEvents, List.mem_cons, List.not_mem_nil, or_false] at member
  rcases member with rfl | rfl | rfl | rfl <;>
    refine ⟨_, rfl, ?_⟩ <;>
    simp [hasBridgeCommand, fieldsHaveBridgeCommand_eq, itemsHaveBridgeCommand_eq, ownsCommand,
      commandOf, getField_cons, asStr]

/-- An event is under the key of the bridge, or under another one. -/
theorem antigravityHas_insertField (hooks : Json) (fields : Fields) (event : String) :
    AntigravityHas (.obj (insertField "agent-otel-bridge" hooks fields)) event ↔
      (∃ value, hooks.get event = some value ∧ hasBridgeCommand value = true) ∨
        AntigravityHas (.obj (without ["agent-otel-bridge"] fields)) event := by
  constructor
  · rintro ⟨key, there, value, found, value_, has⟩
    by_cases same : key = "agent-otel-bridge"
    · subst same
      rw [get_obj, getField_insertField_self] at found
      obtain rfl := Option.some.inj found
      exact .inl ⟨value, value_, has⟩
    · have other : key ∉ ["agent-otel-bridge"] := by simpa using same
      rw [get_obj, getField_insertField_ne same, ← getField_without other] at found
      exact .inr ⟨key, there, value, found, value_, has⟩
  · rintro (⟨value, value_, has⟩ | ⟨key, there, value, found, value_, has⟩)
    · exact ⟨"agent-otel-bridge", hooks, value, getField_insertField_self .., value_, has⟩
    · by_cases same : key = "agent-otel-bridge"
      · rw [get_obj, same, getField_eq_none_of_without List.mem_cons_self] at found
        cases found
      · have other : key ∉ ["agent-otel-bridge"] := by simpa using same
        rw [get_obj, getField_without other] at found
        exact ⟨key, there, value, by rw [get_obj, getField_insertField_ne same, found], value_, has⟩

/-- What an event of Claude holds in a configuration that was merged. -/
theorem claudeHas_iff (merged : mergeFormattedHooks command root = .ok root')
    (member : event ∈ bridgeEvents) : ClaudeHas root' event ↔
      hasBridgeCommand (.arr (standardGroups (command event) event ((eventGroups root event).getD []))) =
        true := by
  obtain ⟨fields, hooks, rfl, isHooks, -, rfl⟩ := mergeFormattedHooks_eq_ok.mp merged
  have there : (Json.obj (standardRoot command fields hooks)).get "hooks" =
      some (.obj (updateFields bridgeEvents (standardValue command) hooks)) :=
    getField_insertField_self ..
  have found : (Json.obj (updateFields bridgeEvents (standardValue command) hooks)).get event =
      some (.arr (standardGroups (command event) event (groupsOf (getField event hooks)))) :=
    getField_standardHooks member hooks
  rw [eventGroups_getD isHooks]
  constructor
  · rintro ⟨_, value, hooks_, value_, has⟩
    obtain rfl := Option.some.inj (there.symm.trans hooks_)
    obtain rfl := Option.some.inj (found.symm.trans value_)
    exact has
  · exact fun has => ⟨_, _, there, found, has⟩

/-- The groups of an event are parts of the configuration. -/
theorem hasBridgeCommand_of_eventGroups {group : Json}
    (member : group ∈ (eventGroups root event).getD []) (has : hasBridgeCommand group = true) :
    hasBridgeCommand root = true := by
  cases found : eventGroups root event with
  | none =>
      rw [found] at member
      cases member
  | some groups =>
      rw [found] at member
      obtain ⟨value, there, array⟩ := Option.bind_eq_some_iff.mp found
      obtain ⟨hooks, hooks_, value_⟩ := Option.bind_eq_some_iff.mp there
      obtain rfl : value = .arr groups := by
        cases value with
        | arr items => exact congrArg Json.arr (Option.some.inj array)
        | null | bool | num | str | obj => cases array
      refine hasBridgeCommand_of_get hooks_ (hasBridgeCommand_of_get value_ ?_)
      rw [hasBridgeCommand_arr]
      exact List.any_eq_true.mpr ⟨group, member, has⟩

/-- An event of Claude that is merged into a configuration without commands of the bridge has
one if the recognizer accepts it. -/
theorem claudeHas_merged (foreign : hasBridgeCommand root = false)
    (merged : mergeFormattedHooks command root = .ok root') (member : event ∈ bridgeEvents) :
    ClaudeHas root' event ↔ isBridgeCommand (command event) = true := by
  have none_ : ∀ group ∈ (eventGroups root event).getD [], hasBridgeCommand group = false := by
    intro group there
    by_contra has
    rw [Bool.not_eq_false] at has
    rw [hasBridgeCommand_of_eventGroups there has] at foreign
    cases foreign
  have unowned : ∀ group ∈ (eventGroups root event).getD [], hasOwned ownsCommand group = false := by
    intro group there
    by_contra owned
    rw [Bool.not_eq_false] at owned
    have has := none_ group there
    rw [hasBridgeCommand_of_hasOwned owned] at has
    cases has
  have others : ((eventGroups root event).getD []).any hasBridgeCommand = false :=
    List.any_eq_false.mpr fun group there => by simp [none_ group there]
  rw [claudeHas_iff merged member, standardGroups_foreign unowned, hasBridgeCommand_arr,
    List.any_append, others, Bool.false_or, List.any_cons, List.any_nil, Bool.or_false,
    hasBridgeCommand_standardEntry]

theorem hasBridgeCommand_of_claudeHas (has : ClaudeHas root event) : hasBridgeCommand root = true := by
  obtain ⟨hooks, value, hooks_, value_, found⟩ := has
  exact hasBridgeCommand_of_get hooks_ (hasBridgeCommand_of_get value_ found)

/-! ## One file -/

/-- A file of Antigravity after a run: it is registered, and has its events as it should. -/
theorem sync_antigravity {file : Option (List UInt8)}
    (synced : syncFile SettingsCodec.antigravityRegistered
      (codec.installAntigravityHooks run.antigravityCommand) (some content) = .ok file) :
    ∃ content', file = some content' ∧ SettingsCodec.antigravityRegistered content' = true ∧
      (HoldsEvents codec AntigravityHas antigravityEvents content' ↔
        if SettingsCodec.antigravityRegistered content then
          HoldsEvents codec AntigravityHas antigravityEvents content
        else run.Recognized ∨ HoldsEvents codec
          (fun root => AntigravityHas (mapObject (without ["agent-otel-bridge"]) root))
            antigravityEvents content) := by
  unfold syncFile at synced
  simp only at synced
  split at synced
  next registered =>
    obtain rfl := Except.ok.inj synced
    exact ⟨content, rfl, registered, by rw [if_pos registered]⟩
  next unregistered =>
    rw [if_neg unregistered]
    unfold SettingsCodec.installAntigravityHooks at synced
    cases read : codec.read content with
    | error error =>
        rw [read] at synced
        cases synced
    | ok root =>
        rw [read] at synced
        cases root with
        | null | bool | num | str | arr => cases synced
        | obj fields =>
            obtain rfl := Except.ok.inj synced
            have wellFormed : (Json.obj (insertField "agent-otel-bridge"
                (antigravityBridgeHooks run.antigravityCommand) fields)).WellFormed :=
              wellFormed_obj.mpr ((wellFormed_obj.mp (codec.wellFormed_read read)).insertField _
                (wellFormed_antigravityBridgeHooks _))
            refine ⟨_, rfl, ?_, ?_⟩
            · -- The key of the bridge is a part of the text.
              unfold SettingsCodec.antigravityRegistered SettingsCodec.write
              rw [Text.fromUtf8_asBytes, Option.any_some,
                codec.printsKey _ (by rw [get_obj, getField_insertField_self]; rfl), Bool.true_or]
            · have listed : antigravityEvents ⊆ hookEvents := by decide
              have each : ∀ event ∈ antigravityEvents,
                  (AntigravityHas (.obj (insertField "agent-otel-bridge"
                    (antigravityBridgeHooks run.antigravityCommand) fields)) event ↔
                  run.Recognized ∨ AntigravityHas (.obj (without ["agent-otel-bridge"] fields)) event) := by
                intro event member
                obtain ⟨value, found, has⟩ := antigravityBridgeHooks_has run.antigravityCommand member
                rw [antigravityHas_insertField, ← run.antigravityCommand_iff (listed member), ← has]
                refine or_congr_left ⟨?_, fun has => ⟨value, found, has⟩⟩
                rintro ⟨value', found', has'⟩
                obtain rfl := Option.some.inj (found.symm.trans found')
                exact has'
              simp only [HoldsEvents, codec.read_write wellFormed, read, Except.ok.injEq,
                exists_eq_left', mapObject]
              constructor
              · intro all
                by_cases recognized : run.Recognized
                · exact .inl recognized
                · exact .inr fun event member =>
                    ((each event member).mp (all event member)).resolve_left recognized
              · rintro (recognized | elsewhere) event member
                · exact (each event member).mpr (.inl recognized)
                · exact (each event member).mpr (.inr (elsewhere event member))

/-- A file of Claude after a run: it has its events as it should, and is registered then. -/
theorem sync_claude {file : Option (List UInt8)}
    (synced : syncFile codec.claudeRegistered (codec.installClaudeHooks run.claudeCommand)
      (some content) = .ok file) :
    ∃ content', file = some content' ∧
      (HoldsEvents codec ClaudeHas bridgeEvents content' → codec.claudeRegistered content' = true) ∧
      (HoldsEvents codec ClaudeHas bridgeEvents content' ↔
        if codec.claudeRegistered content then HoldsEvents codec ClaudeHas bridgeEvents content
        else run.Recognized) := by
  have registered_of_holds : ∀ content', HoldsEvents codec ClaudeHas bridgeEvents content' →
      codec.claudeRegistered content' = true := by
    rintro content' ⟨root, read, has⟩
    rw [SettingsCodec.claudeRegistered, read]
    exact hasBridgeCommand_of_claudeHas (has "Stop" (by decide))
  unfold syncFile at synced
  simp only at synced
  split at synced
  next registered =>
    obtain rfl := Except.ok.inj synced
    exact ⟨content, rfl, registered_of_holds content, by rw [if_pos registered]⟩
  next unregistered =>
    rw [if_neg unregistered]
    unfold SettingsCodec.installClaudeHooks at synced
    cases read : codec.read content with
    | error error =>
        rw [read] at synced
        cases synced
    | ok root =>
        rw [read] at synced
        cases merged : mergeFormattedHooks run.claudeCommand root with
        | error error =>
            simp only [bind, Except.bind, merged] at synced
            cases synced
        | ok root' =>
            simp only [bind, Except.bind, merged] at synced
            obtain rfl := Except.ok.inj synced
            have foreign : hasBridgeCommand root = false := by
              rw [SettingsCodec.claudeRegistered, read] at unregistered
              exact Bool.eq_false_of_not_eq_true unregistered
            have wellFormed := mergeFormattedHooks_wellFormed merged (codec.wellFormed_read read)
            have listed : bridgeEvents ⊆ hookEvents := by decide
            refine ⟨_, rfl, registered_of_holds _, ?_⟩
            simp only [HoldsEvents, codec.read_write wellFormed, Except.ok.injEq, exists_eq_left']
            constructor
            · intro all
              have stop : "Stop" ∈ bridgeEvents := by decide
              exact (run.claudeCommand_iff (listed stop)).mp
                ((claudeHas_merged foreign merged stop).mp (all "Stop" stop))
            · intro recognized event member
              exact (claudeHas_merged foreign merged member).mpr
                ((run.claudeCommand_iff (listed member)).mpr recognized)

theorem syncFile_registered {registered : List UInt8 → Bool}
    {install : List UInt8 → Except String (List UInt8)} (found : registered content = true) :
    syncFile registered install (some content) = .ok (some content) := if_pos found

end

/-! ## The project -/

/-- The files after a run that returned. -/
theorem runSync_returned {codec : SettingsCodec} {run : SyncRun} {files : ProjectFiles}
    (returned : (runSync codec run files).1 = .ok ()) :
    ∃ antigravity claude,
      syncFile SettingsCodec.antigravityRegistered
        (codec.installAntigravityHooks run.antigravityCommand) files.antigravity = .ok antigravity ∧
      syncFile codec.claudeRegistered (codec.installClaudeHooks run.claudeCommand) files.claude =
        .ok claude ∧
      (runSync codec run files).2 = ⟨antigravity, claude⟩ := by
  unfold runSync at returned ⊢
  cases first : syncFile SettingsCodec.antigravityRegistered
      (codec.installAntigravityHooks run.antigravityCommand) files.antigravity with
  | error error =>
      rw [first] at returned
      cases returned
  | ok antigravity =>
      cases second : syncFile codec.claudeRegistered (codec.installClaudeHooks run.claudeCommand)
          files.claude with
      | error error =>
          rw [first, second] at returned
          cases returned
      | ok claude => exact ⟨antigravity, claude, rfl, rfl, rfl⟩

/-- **A run establishes the registration it reports** exactly if what it takes for registered
has every event, and what it installs is recognized. -/
theorem established_iff {codec : SettingsCodec} {run : SyncRun} {files : ProjectFiles}
    (returned : (runSync codec run files).1 = .ok ()) :
    Established codec run (runSync codec run files).2 ↔ Aligned codec run files := by
  obtain ⟨antigravity, claude, first, second, after⟩ := runSync_returned returned
  obtain ⟨antigravity₀, claude₀⟩ := files
  rw [after]
  constructor
  · intro established
    refine ⟨?_, ?_⟩
    · rintro content rfl
      obtain ⟨content', rfl, -, holds⟩ := sync_antigravity first
      exact holds.mp (established.antigravity content' rfl)
    · rintro content rfl
      obtain ⟨content', rfl, -, holds⟩ := sync_claude second
      exact holds.mp (established.claude content' rfl)
  · intro aligned
    -- Either file is left alone by the next run: it is not there, or it is registered.
    have antigravity_ : (∀ content, antigravity = some content →
          HoldsEvents codec AntigravityHas antigravityEvents content) ∧
        syncFile SettingsCodec.antigravityRegistered
          (codec.installAntigravityHooks run.antigravityCommand) antigravity = .ok antigravity := by
      cases antigravity₀ with
      | none =>
          obtain rfl := Except.ok.inj first
          refine ⟨?_, rfl⟩
          intro _ there
          cases there
      | some content =>
          obtain ⟨content', rfl, registered, holds⟩ := sync_antigravity first
          refine ⟨?_, syncFile_registered registered⟩
          intro _ there
          obtain rfl := Option.some.inj there
          exact holds.mpr (aligned.antigravity content rfl)
    have claude_ : (∀ content, claude = some content →
          HoldsEvents codec ClaudeHas bridgeEvents content) ∧
        syncFile codec.claudeRegistered (codec.installClaudeHooks run.claudeCommand) claude =
          .ok claude := by
      cases claude₀ with
      | none =>
          obtain rfl := Except.ok.inj second
          refine ⟨?_, rfl⟩
          intro _ there
          cases there
      | some content =>
          obtain ⟨content', rfl, registered, holds⟩ := sync_claude second
          have has := holds.mpr (aligned.claude content rfl)
          refine ⟨?_, syncFile_registered (registered has)⟩
          intro _ there
          obtain rfl := Option.some.inj there
          exact has
    refine ⟨antigravity_.1, claude_.1, ?_⟩
    rw [runSync, antigravity_.2, claude_.2]

/-! A configuration of Claude where only the event of stopping has a hook. -/

def stopDocument : Json :=
  .obj [("hooks", .obj [("Stop", .arr [.obj [("hooks", .arr [.obj
    [("command", .str "/opt/agent-hook Stop"), ("type", .str "command")]])]])])]

def stopText : String := "\n".intercalate [
  "\x7b",
  "  \"hooks\": \x7b",
  "    \"Stop\": [",
  "      \x7b",
  "        \"hooks\": [",
  "          \x7b",
  "            \"command\": \"/opt/agent-hook Stop\",",
  "            \"type\": \"command\"",
  "          \x7d",
  "        ]",
  "      \x7d",
  "    ]",
  "  \x7d",
  "\x7d"]

theorem wellFormed_stopDocument : stopDocument.WellFormed := by
  have leaf : ∀ field ∈ ([("command", .str "/opt/agent-hook Stop"), ("type", .str "command")] : Fields),
      field.2.WellFormed := by simp [WellFormed.str]
  have handler := WellFormed.obj (by decide) leaf
  have single : ∀ {key : String} {value : Json}, value.WellFormed → (Json.obj [(key, value)]).WellFormed :=
    fun value => .obj (List.pairwise_singleton ..) (by simpa using value)
  have array : ∀ {value : Json}, value.WellFormed → (Json.arr [value]).WellFormed :=
    fun value => .arr (by simpa using value)
  exact single (single (array (single (array handler))))

/-- A printer that is right for this document, and injective. -/
def printStop (value : Json) : String :=
  if value = stopDocument then stopText
  else "agent-otel-bridge" ++ String.ofList (List.replicate (code value) '1')

theorem printStop_injective {a b : Json} (same : printStop a = printStop b) : a = b := by
  have apart : ∀ text, stopText ≠ "agent-otel-bridge" ++ text := fun text same => by
    have first := congrArg (fun text : String => text.toList.head?) same
    have start : stopText.toList.head? = some '\x7b' := by decide +kernel
    simp [start] at first
  unfold printStop at same
  split at same
  next left =>
    split at same
    next right => exact left.trans right.symm
    next right => exact absurd same (apart _)
  next left =>
    split at same
    next right => exact absurd same.symm (apart _)
    next right =>
      have length := congrArg String.length same
      simp only [String.length_append, String.length_ofList, List.length_replicate,
        Nat.add_left_cancel_iff] at length
      exact code_injective _ _ length

open Classical in
noncomputable def stopCodec : SettingsCodec where
  parse text :=
    if printed : ∃ value, value.WellFormed ∧ printStop value = text then .ok printed.choose
    else .error "expected value at line 1 column 1"
  pretty := printStop
  wellFormed text value parsed := by
    split at parsed
    next printed =>
      obtain rfl := Except.ok.inj parsed
      exact printed.choose_spec.1
    next => cases parsed
  inverse value wellFormed := by
    have printed : ∃ value', value'.WellFormed ∧ printStop value' = printStop value :=
      ⟨value, wellFormed, rfl⟩
    rw [dif_pos printed]
    exact congrArg Except.ok (printStop_injective printed.choose_spec.2)
  printsKey value there := by
    unfold printStop
    split
    next same =>
      subst same
      cases there
    next =>
      rw [Text.contains, String.toList_append, List.any_eq_true]
      exact ⟨_, (List.mem_tails ..).mpr (List.suffix_refl _),
        List.isPrefixOf_iff_prefix.mpr (List.prefix_append ..)⟩

def stopRun : SyncRun := ⟨some "/opt/agent-hook", ⟨none, none, none⟩, none, "/opt/agent-hook", rfl⟩

def stopFiles : ProjectFiles := ⟨none, some (Text.asBytes stopText)⟩

theorem read_stopFiles : stopCodec.read (Text.asBytes stopText) = .ok stopDocument := by
  have printed : stopCodec.write stopDocument = Text.asBytes stopText :=
    congrArg Text.asBytes (show printStop stopDocument = stopText from if_pos rfl)
  rw [← printed]
  exact stopCodec.read_write wellFormed_stopDocument

theorem runSync_stopFiles : runSync stopCodec stopRun stopFiles = (.ok (), stopFiles) := by
  have registered : stopCodec.claudeRegistered (Text.asBytes stopText) = true := by
    rw [SettingsCodec.claudeRegistered, read_stopFiles]
    decide +kernel
  rw [runSync, stopFiles, syncFile_registered registered]
  rfl

theorem established_iff_stopFiles :
    Established stopCodec stopRun (runSync stopCodec stopRun stopFiles).2 ↔
      Aligned stopCodec stopRun stopFiles :=
  established_iff (congrArg Prod.fst runSync_stopFiles)

/-- The run returns, and the file has still no hook before a tool is used. -/
theorem not_established_stopFiles : ¬ ∀ codec run files, (runSync codec run files).1 = .ok () →
    Established codec run (runSync codec run files).2 := by
  intro all
  have established := all stopCodec stopRun stopFiles (congrArg Prod.fst runSync_stopFiles)
  rw [runSync_stopFiles] at established
  obtain ⟨root, read, has⟩ := established.claude _ rfl
  obtain rfl := Except.ok.inj (read_stopFiles.symm.trans read)
  obtain ⟨hooks, value, hooks_, value_, -⟩ := has "PreToolUse" (by decide)
  obtain rfl := Option.some.inj hooks_
  cases value_

end AgentOtelBridge.HookMerge
