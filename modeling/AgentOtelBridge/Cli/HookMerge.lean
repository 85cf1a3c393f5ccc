import AgentOtelBridge.Cli.HookCommand
import AgentOtelBridge.Lib.JsonObject
import Mathlib.Data.List.Forall2

/-!
# Merging hooks into a configuration

A configuration has for each event a list of groups, and a group a list of handlers.
The bridge owns some handlers.  A merge gives these the command, and appends a group
of its own where there is none.  `owned` says which handlers they are: by their
command for Claude, Codex and Grok, by their name for the Gemini CLI.  For Antigravity
the bridge owns a key of the root.

A merge is idempotent when the command leaves its handlers owned, and differs from the
old configuration only in what is owned (`Kept`).
-/

namespace AgentOtelBridge.HookMerge

open Json HookCommand

/-! ## Handlers and groups -/

def commandOf (handler : Json) : Option String := (handler.get "command").bind asStr

/-- The handler has a command of the bridge. -/
def ownsCommand (handler : Json) : Bool := (commandOf handler).any isBridgeCommand

/-- The handler has a name of the bridge. -/
def ownsName (name : String) (handler : Json) : Bool := (handler.get "name").bind asStr = some name

/-- `handler["command"] = ..` of an object. -/
def setCommand (command : String) (handler : Json) : Json :=
  mapObject (insertField "command" (.str command)) handler

def updateHandler (owned : Json → Bool) (command : String) (handler : Json) : Json :=
  if owned handler then setCommand command handler else handler

def handlersOf (group : Json) : Option (List Json) := (group.get "hooks").bind asArray

def updateGroup (owned : Json → Bool) (command : String) (group : Json) : Json :=
  mapObject (modifyField "hooks" (mapArray (List.map (updateHandler owned command)))) group

/-- A handler of the group is owned. -/
def hasOwned (owned : Json → Bool) (group : Json) : Bool := (handlersOf group).any (·.any owned)

/-- All handlers of the group are owned. -/
def allOwned (owned : Json → Bool) (group : Json) : Bool :=
  (handlersOf group).any fun handlers => !handlers.isEmpty && handlers.all owned

/-- The owned handlers are updated, and when there are none a group is appended. -/
def mergeGroups (owned : Json → Bool) (command : String) (entry : Json) (groups : List Json) :
    List Json :=
  let merged := groups.map (updateGroup owned command)
  if groups.any (hasOwned owned) then merged else merged ++ [entry]

/-- A Stop group of the bridge has no matcher. -/
def dropMatcher (group : Json) : Json :=
  if allOwned ownsCommand group then mapObject (without ["matcher"]) group else group

/-! ## Claude, Codex and Grok -/

def bridgeEvents : List String := ["PreToolUse", "PostToolUse", "Stop"]

def standardEntry (event command : String) : Json :=
  let hooks : Json := .arr [.obj [("command", .str command), ("timeout", .num "5"), ("type", .str "command")]]
  .obj (if event = "Stop" then [("hooks", hooks)] else [("hooks", hooks), ("matcher", .str ".*")])

/-- The groups of an event after its merge. -/
def standardGroups (command event : String) (groups : List Json) : List Json :=
  let merged := mergeGroups ownsCommand command (standardEntry event command) groups
  if event = "Stop" then merged.map dropMatcher else merged

/-- One event of the loop of `merge_formatted_hooks`. -/
def mergeEvent (command event : String) (hooks : Fields) : Fields :=
  match getField event hooks with
  | some (.arr groups) => modifyField event (fun _ => .arr (standardGroups command event groups)) hooks
  | _ => insertField event (.arr [standardEntry event command]) hooks

def checkGroup (group : Json) : Except String Unit :=
  match handlersOf group with
  | none => .error "Invalid hook group"
  | some handlers =>
    if handlers.all isObject then .ok () else .error "Invalid hook handler"

def checkEvent (root : Fields) (event : String) : Except String Unit :=
  match (getField "hooks" root).bind (·.get event) with
  | none => .ok ()
  | some (.arr groups) => groups.forM checkGroup
  | some _ => .error "Invalid hook event array"

/-- `merge_formatted_hooks` for another system than Windows, with the command of each
event. -/
def mergeFormattedHooks (command : String → String) (root : Json) : Except String Json :=
  match root with
  | .obj fields =>
    if (getField "hooks" fields).any (!·.isObject) then
      .error "Invalid hook configuration; configuration unchanged"
    else do
      bridgeEvents.forM (checkEvent fields)
      let fields := without ["agent-otel-bridge"] fields
      let fields := match getField "hooks" fields with
        | some (.obj _) => fields
        | _ => insertField "hooks" (.obj []) fields
      let merge := fun hooks =>
        bridgeEvents.foldl (fun hooks event => mergeEvent (command event) event hooks) hooks
      .ok (.obj (modifyField "hooks" (mapObject merge) fields))
  | _ => .error "Invalid hook configuration; configuration unchanged"

/-! ## Gemini CLI -/

/-- The events of the Gemini CLI and the hook events they are. -/
def geminiEvents : List (String × String) :=
  [("BeforeTool", "PreToolUse"), ("AfterTool", "PostToolUse"), ("SessionStart", "PreInvocation"),
    ("SessionEnd", "PostInvocation")]

def geminiName (source : String) : String := "agent-otel-bridge-" ++ source

def geminiEntry (source command : String) : Json :=
  .obj [("hooks", .arr [.obj [("command", .str command), ("name", .str (geminiName source)),
    ("timeout", .num "1000"), ("type", .str "command")]]), ("matcher", .str ".*")]

/-- One event of the loop of `merge_gemini_hooks`. -/
def mergeGeminiEvent (command source : String) (hooks : Fields) : Except String Fields :=
  match (getField source hooks).getD (.arr []) with
  | .arr groups =>
    if groups.all fun group => (handlersOf group).isSome then
      .ok (insertField source (.arr (mergeGroups (ownsName (geminiName source)) command
        (geminiEntry source command) groups)) hooks)
    else .error "Invalid Gemini CLI hook group"
  | _ => .error "Invalid Gemini CLI hook array"

/-- `merge_gemini_hooks`, with the command of each event. -/
def mergeGeminiHooks (command : String → String) (root : Fields) : Except String Fields :=
  match (getField "hooks" root).getD (.obj []) with
  | .obj hooks => do
    let hooks ← geminiEvents.foldlM
      (fun hooks event => mergeGeminiEvent (command event.2) event.1 hooks) hooks
    .ok (insertField "hooks" (.obj hooks) root)
  | _ => .error "Invalid Gemini CLI hooks object"

/-! ## Antigravity -/

/-- `antigravity_bridge_hooks_with_formatter` on Linux. -/
def antigravityBridgeHooks (command : String → String) : Json :=
  let handler (event : String) : Json :=
    .obj [("command", .str (command event)), ("timeout", .num "5"), ("type", .str "command")]
  .obj [
    ("PostInvocation", .arr [handler "PostInvocation"]),
    ("PostToolUse", .arr [.obj [("hooks", .arr [handler "PostToolUse"]), ("matcher", .str ".*")]]),
    ("PreInvocation", .arr [handler "PreInvocation"]),
    ("Stop", .arr [handler "Stop"])]

/-! ## Handlers that stay owned -/

/-- The command leaves what it is given to in the hands of the bridge. -/
def Keeps (owned : Json → Bool) (command : String) : Prop :=
  ∀ handler, owned handler = true → owned (setCommand command handler) = true

theorem keeps_ownsCommand {command : String} (accepted : isBridgeCommand command = true) :
    Keeps ownsCommand command := by
  intro handler owns
  cases handler with
  | obj fields => simpa [ownsCommand, commandOf, setCommand, mapObject, asStr] using accepted
  | null | bool | num | str | arr => exact owns

theorem keeps_ownsName (name command : String) : Keeps (ownsName name) command := by
  intro handler owns
  cases handler with
  | obj fields =>
      have other : "name" ≠ "command" := by decide
      rw [ownsName, setCommand, mapObject, get_obj, getField_insertField_ne other]
      exact owns
  | null | bool | num | str | arr => exact owns

section

variable {owned : Json → Bool} {command : String} {group entry : Json} {groups : List Json}

theorem setCommand_setCommand (command : String) (handler : Json) :
    setCommand command (setCommand command handler) = setCommand command handler := by
  cases handler with
  | obj fields => exact congrArg Json.obj (insertField_eq_self (getField_insertField_self ..))
  | null | bool | num | str | arr => rfl

theorem owned_updateHandler (keeps : Keeps owned command) (handler : Json) :
    owned (updateHandler owned command handler) = owned handler := by
  unfold updateHandler
  split
  next owns => rw [owns, keeps handler owns]
  · rfl

theorem updateHandler_updateHandler (keeps : Keeps owned command) (handler : Json) :
    updateHandler owned command (updateHandler owned command handler) =
      updateHandler owned command handler := by
  cases owns : owned handler with
  | true =>
      have again := keeps handler owns
      simp only [updateHandler, owns, again, if_true, setCommand_setCommand]
  | false => simp [updateHandler, owns]

/-! ## Groups -/

theorem handlersOf_obj (fields : Fields) :
    handlersOf (.obj fields) = (getField "hooks" fields).bind asArray := rfl

theorem handlersOf_updateGroup (owned : Json → Bool) (command : String) (group : Json) :
    handlersOf (updateGroup owned command group) =
      (handlersOf group).map (List.map (updateHandler owned command)) := by
  cases group with
  | obj fields =>
      rw [updateGroup, mapObject, handlersOf_obj, handlersOf_obj, getField_modifyField_self]
      cases getField "hooks" fields with
      | none => rfl
      | some value => cases value <;> rfl
  | null | bool | num | str | arr => rfl

theorem updateGroup_eq_self (fixed : ∀ handlers, handlersOf group = some handlers →
    ∀ handler ∈ handlers, updateHandler owned command handler = handler) :
    updateGroup owned command group = group := by
  cases group with
  | obj fields =>
      refine congrArg Json.obj (modifyField_eq_self fun value found => ?_)
      cases value with
      | arr handlers =>
          have same := fixed handlers (by rw [handlersOf_obj, found]; rfl)
          exact congrArg Json.arr ((List.map_congr_left same).trans (List.map_id handlers))
      | null | bool | num | str | obj => rfl
  | null | bool | num | str | arr => rfl

theorem updateGroup_updateGroup (keeps : Keeps owned command) (group : Json) :
    updateGroup owned command (updateGroup owned command group) = updateGroup owned command group := by
  refine updateGroup_eq_self fun handlers found handler member => ?_
  rw [handlersOf_updateGroup] at found
  obtain ⟨old, -, rfl⟩ := Option.map_eq_some_iff.mp found
  obtain ⟨first, -, rfl⟩ := List.mem_map.mp member
  exact updateHandler_updateHandler keeps first

theorem hasOwned_updateGroup (keeps : Keeps owned command) (group : Json) :
    hasOwned owned (updateGroup owned command group) = hasOwned owned group := by
  unfold hasOwned
  rw [handlersOf_updateGroup]
  cases handlersOf group with
  | none => rfl
  | some handlers =>
      simp only [Option.map_some, Option.any_some, List.any_map]
      exact congrArg (handlers.any ·) (funext fun handler => owned_updateHandler keeps handler)

theorem allOwned_updateGroup (keeps : Keeps owned command) (group : Json) :
    allOwned owned (updateGroup owned command group) = allOwned owned group := by
  unfold allOwned
  rw [handlersOf_updateGroup]
  cases handlersOf group with
  | none => rfl
  | some handlers =>
      have same : owned ∘ updateHandler owned command = owned :=
        funext fun handler => owned_updateHandler keeps handler
      simp only [Option.map_some, Option.any_some, List.all_map, same, List.isEmpty_map]

/-- A group of the bridge has the command, and its handlers are owned. -/
structure Entry (owned : Json → Bool) (command : String) (entry : Json) : Prop where
  settled : updateGroup owned command entry = entry
  all : allOwned owned entry = true

theorem hasOwned_of_allOwned (all : allOwned owned group = true) : hasOwned owned group = true := by
  unfold allOwned at all
  unfold hasOwned
  cases found : handlersOf group with
  | none => simp [found] at all
  | some handlers =>
      cases handlers with
      | nil => simp [found] at all
      | cons handler handlers =>
          simp only [found, Option.any_some, List.isEmpty_cons, Bool.not_false, Bool.true_and,
            List.all_cons, Bool.and_eq_true] at all
          simp [all.1]

/-- Every group of a merge has the command, and one is owned. -/
theorem mergeGroups_settled (keeps : Keeps owned command) (isEntry : Entry owned command entry)
    (groups : List Json) :
    (∀ group ∈ mergeGroups owned command entry groups, updateGroup owned command group = group) ∧
      (mergeGroups owned command entry groups).any (hasOwned owned) = true := by
  have updated : ∀ group ∈ groups.map (updateGroup owned command),
      updateGroup owned command group = group := by
    intro group member
    obtain ⟨old, -, rfl⟩ := List.mem_map.mp member
    exact updateGroup_updateGroup keeps old
  unfold mergeGroups
  cases found : groups.any (hasOwned owned) with
  | true =>
      refine ⟨updated, ?_⟩
      rw [if_pos rfl, List.any_map, ← found]
      exact congrArg (groups.any ·) (funext fun group => hasOwned_updateGroup keeps group)
  | false =>
      refine ⟨fun group member => ?_, ?_⟩
      · rcases List.mem_append.mp member with before | last
        · exact updated group before
        · exact List.mem_singleton.mp last ▸ isEntry.settled
      · simp [hasOwned_of_allOwned isEntry.all]

theorem mergeGroups_eq_self (settled : ∀ group ∈ groups, updateGroup owned command group = group)
    (found : groups.any (hasOwned owned) = true) :
    mergeGroups owned command entry groups = groups := by
  unfold mergeGroups
  rw [if_pos found]
  exact (List.map_congr_left settled).trans (List.map_id groups)

end

/-! ## Stop groups -/

theorem handlersOf_dropMatcher (group : Json) : handlersOf (dropMatcher group) = handlersOf group := by
  unfold dropMatcher
  split
  · cases group with
    | obj fields =>
        rw [mapObject, handlersOf_obj, handlersOf_obj, getField_without (by decide)]
    | null | bool | num | str | arr => rfl
  · rfl

theorem allOwned_dropMatcher (owned : Json → Bool) (group : Json) :
    allOwned owned (dropMatcher group) = allOwned owned group := by
  rw [allOwned, allOwned, handlersOf_dropMatcher]

theorem hasOwned_dropMatcher (owned : Json → Bool) (group : Json) :
    hasOwned owned (dropMatcher group) = hasOwned owned group := by
  rw [hasOwned, hasOwned, handlersOf_dropMatcher]

theorem dropMatcher_dropMatcher (group : Json) :
    dropMatcher (dropMatcher group) = dropMatcher group := by
  cases all : allOwned ownsCommand group with
  | false => simp [dropMatcher, all]
  | true =>
      have again := (allOwned_dropMatcher ownsCommand group).trans all
      rw [dropMatcher, if_pos again]
      rw [dropMatcher, if_pos all]
      cases group with
      | obj fields => exact congrArg Json.obj (without_without List.mem_cons_self fields)
      | null | bool | num | str | arr => rfl

/-- A group without its matcher has the command when the group has. -/
theorem updateGroup_dropMatcher {command : String} {group : Json}
    (settled : updateGroup ownsCommand command group = group) :
    updateGroup ownsCommand command (dropMatcher group) = dropMatcher group := by
  refine updateGroup_eq_self fun handlers found handler member => ?_
  rw [handlersOf_dropMatcher] at found
  have same := handlersOf_updateGroup ownsCommand command group
  rw [settled, found, Option.map_some, Option.some.injEq] at same
  obtain ⟨i, bound, rfl⟩ := List.getElem_of_mem member
  have at_ := congrArg (·[i]?) same
  simp only [List.getElem?_map, List.getElem?_eq_getElem bound, Option.map_some,
    Option.some.injEq] at at_
  exact at_.symm

/-! ## The groups of an event -/

theorem standardEntry_entry {command : String} (accepted : isBridgeCommand command = true)
    (event : String) : Entry ownsCommand command (standardEntry event command) := by
  have handlers : handlersOf (standardEntry event command) = some [.obj [("command", .str command),
      ("timeout", .num "5"), ("type", .str "command")]] := by
    unfold standardEntry
    split <;> rfl
  have handler : ownsCommand (.obj [("command", .str command), ("timeout", .num "5"),
      ("type", .str "command")]) = true := by
    simpa [ownsCommand, commandOf, getField_cons, asStr] using accepted
  refine ⟨updateGroup_eq_self fun hs found h member => ?_, ?_⟩
  · rw [handlers] at found
    obtain rfl := Option.some.inj found
    rw [List.mem_singleton.mp member, updateHandler, if_pos handler]
    simp [setCommand, mapObject, insertField, getField_cons, modifyField]
  · simp [allOwned, handlers, handler]

theorem geminiEntry_entry (command source : String) :
    Entry (ownsName (geminiName source)) command (geminiEntry source command) := by
  have handlers : handlersOf (geminiEntry source command) = some [.obj [("command", .str command),
      ("name", .str (geminiName source)), ("timeout", .num "1000"), ("type", .str "command")]] := rfl
  have handler : ownsName (geminiName source) (.obj [("command", .str command),
      ("name", .str (geminiName source)), ("timeout", .num "1000"), ("type", .str "command")]) =
        true := by
    simp [ownsName, getField_cons, asStr]
  refine ⟨updateGroup_eq_self fun hs found h member => ?_, ?_⟩
  · rw [handlers] at found
    obtain rfl := Option.some.inj found
    rw [List.mem_singleton.mp member, updateHandler, if_pos handler]
    simp [setCommand, mapObject, insertField, getField_cons, modifyField]
  · simp [allOwned, handlers, handler]

/-- The groups of an event, or none. -/
def groupsOf (value : Option Json) : List Json := (value.bind asArray).getD []

theorem mergeGroups_mergeGroups {owned : Json → Bool} {command : String} {entry : Json}
    (keeps : Keeps owned command) (isEntry : Entry owned command entry) (groups : List Json) :
    mergeGroups owned command entry (mergeGroups owned command entry groups) =
      mergeGroups owned command entry groups := by
  obtain ⟨settled, found⟩ := mergeGroups_settled keeps isEntry groups
  exact mergeGroups_eq_self settled found

theorem standardGroups_standardGroups {command : String} (accepted : isBridgeCommand command = true)
    (event : String) (groups : List Json) :
    standardGroups command event (standardGroups command event groups) =
      standardGroups command event groups := by
  have keeps := keeps_ownsCommand accepted
  have isEntry := standardEntry_entry accepted event
  by_cases stop : event = "Stop"
  · obtain ⟨settled, found⟩ := mergeGroups_settled keeps isEntry groups
    simp only [standardGroups, if_pos stop]
    rw [mergeGroups_eq_self]
    · rw [List.map_map]
      exact List.map_congr_left fun group _ => dropMatcher_dropMatcher group
    · intro group member
      obtain ⟨old, there, rfl⟩ := List.mem_map.mp member
      exact updateGroup_dropMatcher (settled old there)
    · rw [List.any_map]
      exact (congrArg _ (funext fun group => hasOwned_dropMatcher ownsCommand group)).trans found
  · simp only [standardGroups, if_neg stop]
    exact mergeGroups_mergeGroups keeps isEntry groups

/-- Without groups there is the one of the bridge. -/
theorem standardGroups_nil (command event : String) :
    standardGroups command event [] = [standardEntry event command] := by
  by_cases stop : event = "Stop"
  · subst stop
    have same : dropMatcher (standardEntry "Stop" command) = standardEntry "Stop" command := by
      unfold dropMatcher
      split <;> rfl
    rw [standardGroups, if_pos rfl]
    exact congrArg ([·]) same
  · rw [standardGroups, if_neg stop]
    rfl

/-! ## The events of Claude, Codex and Grok -/

/-- What an event has is a list of groups. -/
def Listed (hooks : Fields) (event : String) : Prop :=
  ∀ value, getField event hooks = some value → ∃ groups, value = .arr groups

theorem Listed.insertField {hooks : Fields} {event : String} (h : Listed hooks event) (key : String)
    (groups : List Json) : Listed (insertField key (.arr groups) hooks) event := by
  intro value found
  by_cases same : event = key
  · subst same
    rw [getField_insertField_self] at found
    exact ⟨groups, (Option.some.inj found).symm⟩
  · rw [getField_insertField_ne same] at found
    exact h value found

/-- What an event becomes. -/
def standardValue (command : String → String) (event : String) (old : Option Json) : Json :=
  .arr (standardGroups (command event) event (groupsOf old))

theorem mergeEvent_eq {hooks : Fields} {event : String} (listed : Listed hooks event)
    (command : String) : mergeEvent command event hooks =
      insertField event (.arr (standardGroups command event (groupsOf (getField event hooks)))) hooks := by
  unfold mergeEvent
  cases found : getField event hooks with
  | none => rw [groupsOf, Option.bind_none, Option.getD_none, standardGroups_nil]
  | some value =>
      obtain ⟨groups, rfl⟩ := listed value found
      simp only [groupsOf, asArray, Option.bind_some, Option.getD_some, insertField, found]

theorem foldl_mergeEvent {events : List String} {hooks : Fields}
    (listed : ∀ event ∈ events, Listed hooks event) (command : String → String) :
    events.foldl (fun hooks event => mergeEvent (command event) event hooks) hooks =
      updateFields events (standardValue command) hooks := by
  induction events generalizing hooks with
  | nil => rfl
  | cons event events ih =>
      rw [List.forall_mem_cons] at listed
      rw [List.foldl_cons, updateFields_cons, mergeEvent_eq listed.1, standardValue]
      exact ih fun event' member => (listed.2 event' member).insertField event _

/-- What passes the checks of `merge_formatted_hooks`: the groups of the events have
handlers, and these are objects. -/
def Checked (hooks : Fields) : Prop :=
  ∀ event ∈ bridgeEvents, ∀ value, getField event hooks = some value →
    ∃ groups, value = .arr groups ∧ ∀ group ∈ groups, checkGroup group = .ok ()

theorem Checked.listed {hooks : Fields} (h : Checked hooks) {event : String}
    (member : event ∈ bridgeEvents) : Listed hooks event := by
  intro value found
  obtain ⟨groups, same, -⟩ := h event member value found
  exact ⟨groups, same⟩

theorem forM_eq_ok {ε α : Type*} (f : α → Except ε Unit) (xs : List α) :
    xs.forM f = .ok () ↔ ∀ x ∈ xs, f x = .ok () := by
  induction xs with
  | nil => exact ⟨fun _ _ h => absurd h List.not_mem_nil, fun _ => rfl⟩
  | cons x xs ih =>
      rw [List.forall_mem_cons, ← ih]
      change (f x >>= fun _ => xs.forM f) = .ok () ↔ _
      cases f x with
      | error error => exact ⟨nofun, nofun⟩
      | ok u => exact ⟨fun h => ⟨rfl, h⟩, fun h => h.2⟩

theorem checkGroup_eq_ok {group : Json} : checkGroup group = .ok () ↔
    ∃ handlers, handlersOf group = some handlers ∧ handlers.all isObject = true := by
  unfold checkGroup
  cases handlersOf group with
  | none => simp
  | some handlers =>
      cases all : handlers.all isObject with
      | false => simp only [Bool.false_eq_true, if_false, reduceCtorEq, Option.some.injEq,
          exists_eq_left', all]
      | true => simp only [if_true, Option.some.injEq, exists_eq_left', all]

theorem isObject_updateHandler (owned : Json → Bool) (command : String) (handler : Json) :
    (updateHandler owned command handler).isObject = handler.isObject := by
  unfold updateHandler
  split
  · cases handler <;> rfl
  · rfl

theorem checkGroup_updateGroup {group : Json} (checked : checkGroup group = .ok ())
    (owned : Json → Bool) (command : String) : checkGroup (updateGroup owned command group) = .ok () := by
  obtain ⟨handlers, found, objects⟩ := checkGroup_eq_ok.mp checked
  refine checkGroup_eq_ok.mpr ⟨handlers.map (updateHandler owned command), ?_, ?_⟩
  · rw [handlersOf_updateGroup, found]
    rfl
  · have same : isObject ∘ updateHandler owned command = isObject :=
      funext fun handler => isObject_updateHandler owned command handler
    rw [List.all_map, same, objects]

theorem checkGroup_dropMatcher (group : Json) : checkGroup (dropMatcher group) = checkGroup group := by
  unfold checkGroup
  rw [handlersOf_dropMatcher]

theorem checkGroup_standardEntry (event command : String) :
    checkGroup (standardEntry event command) = .ok () := by
  unfold standardEntry
  split <;> rfl

/-- A group of a merge is one that was there, updated, or the one of the bridge. -/
theorem mem_mergeGroups {owned : Json → Bool} {command : String} {entry group : Json}
    {groups : List Json} (member : group ∈ mergeGroups owned command entry groups) :
    (∃ old ∈ groups, group = updateGroup owned command old) ∨ group = entry := by
  have updated : group ∈ groups.map (updateGroup owned command) →
      ∃ old ∈ groups, group = updateGroup owned command old := fun h => by
    obtain ⟨old, there, rfl⟩ := List.mem_map.mp h
    exact ⟨old, there, rfl⟩
  unfold mergeGroups at member
  split at member
  · exact .inl (updated member)
  · exact (List.mem_append.mp member).imp updated List.mem_singleton.mp

theorem checkGroup_standardGroups {groups : List Json}
    (checked : ∀ group ∈ groups, checkGroup group = .ok ()) (command event : String) :
    ∀ group ∈ standardGroups command event groups, checkGroup group = .ok () := by
  have merged : ∀ group ∈ mergeGroups ownsCommand command (standardEntry event command) groups,
      checkGroup group = .ok () := by
    intro group member
    rcases mem_mergeGroups member with ⟨old, there, rfl⟩ | rfl
    · exact checkGroup_updateGroup (checked old there) ownsCommand command
    · exact checkGroup_standardEntry event command
  unfold standardGroups
  split
  · intro group member
    obtain ⟨old, there, rfl⟩ := List.mem_map.mp member
    exact (checkGroup_dropMatcher old).trans (merged old there)
  · exact merged

/-! ## The configuration of Claude, Codex and Grok -/

/-- The hooks of a configuration, which may have none. -/
def HooksOf (fields hooks : Fields) : Prop := (getField "hooks" fields).getD (.obj []) = .obj hooks

/-- The configuration after a merge. -/
def standardRoot (command : String → String) (fields hooks : Fields) : Fields :=
  insertField "hooks" (.obj (updateFields bridgeEvents (standardValue command) hooks))
    (without ["agent-otel-bridge"] fields)

theorem checkEvents_eq_ok {fields hooks : Fields} (isHooks : HooksOf fields hooks) :
    bridgeEvents.forM (checkEvent fields) = .ok () ↔ Checked hooks := by
  rw [forM_eq_ok]
  refine forall₂_congr fun event _ => ?_
  have found : (getField "hooks" fields).bind (·.get event) = getField event hooks := by
    unfold HooksOf at isHooks
    cases there : getField "hooks" fields with
    | none =>
        rw [there] at isHooks
        obtain rfl : [] = hooks := by simpa using isHooks
        rfl
    | some value =>
        rw [there] at isHooks
        obtain rfl : value = .obj hooks := isHooks
        rfl
  unfold checkEvent
  rw [found]
  cases getField event hooks with
  | none => simp
  | some value =>
      cases value with
      | arr groups => simpa using forM_eq_ok checkGroup groups
      | null | bool | num | str | obj => simp

theorem mergeFormattedHooks_eq_ok {command : String → String} {root root' : Json} :
    mergeFormattedHooks command root = .ok root' ↔ ∃ fields hooks, root = .obj fields ∧
      HooksOf fields hooks ∧ Checked hooks ∧ root' = .obj (standardRoot command fields hooks) := by
  cases root with
  | null | bool | num | str | arr => simp [mergeFormattedHooks]
  | obj fields =>
      have kept : getField "hooks" (without ["agent-otel-bridge"] fields) = getField "hooks" fields :=
        getField_without (by decide) fields
      have result : ∀ hooks, HooksOf fields hooks → Checked hooks →
          mergeFormattedHooks command (.obj fields) = .ok (.obj (standardRoot command fields hooks)) := by
        intro hooks isHooks checked
        have events := (checkEvents_eq_ok isHooks).mpr checked
        have merged := foldl_mergeEvent (fun event member => checked.listed member) command
        unfold HooksOf at isHooks
        cases found : getField "hooks" fields with
        | none =>
            rw [found] at isHooks
            obtain rfl : [] = hooks := by simpa using isHooks
            simp only [mergeFormattedHooks, found, events, kept, modifyField_insertField, mapObject,
              merged, standardRoot]
            rfl
        | some value =>
            rw [found] at isHooks
            obtain rfl : value = .obj hooks := isHooks
            simp only [mergeFormattedHooks, found, events, kept, merged, standardRoot, mapObject,
              modifyField_eq_insertField (kept.trans found)]
            rfl
      constructor
      · intro ok
        obtain ⟨hooks, isHooks⟩ : ∃ hooks, HooksOf fields hooks := by
          unfold HooksOf
          cases found : getField "hooks" fields with
          | none => exact ⟨[], rfl⟩
          | some value =>
              cases value with
              | obj hooks => exact ⟨hooks, rfl⟩
              | null | bool | num | str | arr => simp [mergeFormattedHooks, found, isObject] at ok
        have checked : Checked hooks := by
          refine (checkEvents_eq_ok isHooks).mp ?_
          cases events : bridgeEvents.forM (checkEvent fields) with
          | ok => rfl
          | error error =>
              unfold mergeFormattedHooks at ok
              simp only [events] at ok
              split at ok <;> cases ok
        rw [result hooks isHooks checked] at ok
        exact ⟨fields, hooks, rfl, isHooks, checked, (Except.ok.inj ok).symm⟩
      · rintro ⟨fields', hooks, same, isHooks, checked, rfl⟩
        obtain rfl := Json.obj.inj same
        exact result hooks isHooks checked

theorem bridgeEvents_nodup : bridgeEvents.Nodup := by decide

theorem getField_standardHooks {command : String → String} {event : String}
    (member : event ∈ bridgeEvents) (hooks : Fields) :
    getField event (updateFields bridgeEvents (standardValue command) hooks) =
      some (.arr (standardGroups (command event) event (groupsOf (getField event hooks)))) :=
  getField_updateFields bridgeEvents_nodup member hooks

theorem Checked.groupsOf {hooks : Fields} (h : Checked hooks) {event : String}
    (member : event ∈ bridgeEvents) :
    ∀ group ∈ groupsOf (getField event hooks), checkGroup group = .ok () := by
  intro group there
  cases found : getField event hooks with
  | none =>
      rw [found] at there
      exact absurd there List.not_mem_nil
  | some value =>
      obtain ⟨groups, rfl, checked⟩ := h event member value found
      rw [found] at there
      exact checked group there

theorem Checked.standardHooks {hooks : Fields} (h : Checked hooks) (command : String → String) :
    Checked (updateFields bridgeEvents (standardValue command) hooks) := by
  intro event member value found
  rw [getField_standardHooks member] at found
  exact ⟨_, (Option.some.inj found).symm,
    checkGroup_standardGroups (h.groupsOf member) (command event) event⟩

/-- A merge of what was merged changes nothing. -/
theorem mergeFormattedHooks_idempotent {command : String → String} {root root' : Json}
    (accepted : ∀ event ∈ bridgeEvents, isBridgeCommand (command event) = true)
    (merged : mergeFormattedHooks command root = .ok root') :
    mergeFormattedHooks command root' = .ok root' := by
  obtain ⟨fields, hooks, rfl, isHooks, checked, rfl⟩ := mergeFormattedHooks_eq_ok.mp merged
  have again : updateFields bridgeEvents (standardValue command)
      (updateFields bridgeEvents (standardValue command) hooks) =
        updateFields bridgeEvents (standardValue command) hooks :=
    updateFields_updateFields bridgeEvents_nodup hooks fun event member =>
      congrArg Json.arr (standardGroups_standardGroups (accepted event member) event _)
  have absent : getField "agent-otel-bridge" (standardRoot command fields hooks) = none := by
    rw [standardRoot, getField_insertField_ne (by decide)]
    exact getField_eq_none_of_without List.mem_cons_self fields
  have there : getField "hooks" (standardRoot command fields hooks) =
      some (.obj (updateFields bridgeEvents (standardValue command) hooks)) :=
    getField_insertField_self ..
  refine mergeFormattedHooks_eq_ok.mpr ⟨standardRoot command fields hooks,
    updateFields bridgeEvents (standardValue command) hooks, rfl, ?_,
    checked.standardHooks command, ?_⟩
  · rw [HooksOf, there]
    rfl
  · refine congrArg Json.obj (Eq.symm ?_)
    rw [standardRoot, again, without_eq_self absent, insertField_eq_self there]

/-! ## What is kept -/

/-- The handlers are at their places, and those that are not owned are as they were. -/
def HandlersKept (owned : Json → Bool) : List Json → List Json → Prop :=
  List.Forall₂ fun handler handler' => handler' = handler ∨ owned handler = true

/-- A group keeps its handlers and its other keys, but for the matcher of a Stop group
of the bridge. -/
def GroupKept (owned : Json → Bool) (stop : Prop) (group group' : Json) : Prop :=
  group' = group ∨ ∃ fields fields' handlers handlers', group = .obj fields ∧ group' = .obj fields' ∧
    getField "hooks" fields = some (.arr handlers) ∧
    getField "hooks" fields' = some (.arr handlers') ∧ HandlersKept owned handlers handlers' ∧
    (without ["hooks"] fields' = without ["hooks"] fields ∨
      stop ∧ handlers ≠ [] ∧ (∀ handler ∈ handlers, owned handler = true) ∧
        without ["hooks", "matcher"] fields' = without ["hooks", "matcher"] fields)

/-- The groups are at their places, and those behind them are of the bridge. -/
def GroupsKept (owned : Json → Bool) (stop : Prop) (groups groups' : List Json) : Prop :=
  ∃ kept added, groups' = kept ++ added ∧ List.Forall₂ (GroupKept owned stop) groups kept ∧
    ∀ group ∈ added, allOwned owned group = true

/-- The hooks keep the groups of some events, and all other keys. -/
structure HooksKept (owned : String → Json → Bool) (events : List String) (hooks hooks' : Fields) :
    Prop where
  others : without events hooks' = without events hooks
  groups : ∀ event ∈ events, ∃ groups groups',
    (getField event hooks).getD (.arr []) = .arr groups ∧
      getField event hooks' = some (.arr groups') ∧
      GroupsKept (owned event) (event = "Stop") groups groups'

/-- A configuration keeps its hooks, and all other keys but some of the bridge. -/
structure Kept (owned : String → Json → Bool) (events keys : List String) (fields fields' : Fields) :
    Prop where
  others : without ("hooks" :: keys) fields' = without ("hooks" :: keys) fields
  hooks : ∃ hooks hooks', HooksOf fields hooks ∧ getField "hooks" fields' = some (.obj hooks') ∧
    HooksKept owned events hooks hooks'

theorem handlersKept_update (owned : Json → Bool) (command : String) (handlers : List Json) :
    HandlersKept owned handlers (handlers.map (updateHandler owned command)) := by
  refine List.forall₂_map_right_iff.mpr (List.forall₂_same.mpr fun handler _ => ?_)
  unfold updateHandler
  split
  next owns => exact .inr owns
  · exact .inl rfl

theorem obj_of_handlersOf {group : Json} {handlers : List Json}
    (found : handlersOf group = some handlers) :
    ∃ fields, group = .obj fields ∧ getField "hooks" fields = some (.arr handlers) := by
  cases group with
  | obj fields =>
      rw [handlersOf_obj] at found
      obtain ⟨value, there, isArray⟩ := Option.bind_eq_some_iff.mp found
      cases value with
      | arr items =>
          obtain rfl : items = handlers := Option.some.inj isArray
          exact ⟨fields, rfl, there⟩
      | null | bool | num | str | obj => cases isArray
  | null | bool | num | str | arr => cases found

theorem groupKept_update (owned : Json → Bool) (command : String) (stop : Prop) (group : Json) :
    GroupKept owned stop group (updateGroup owned command group) := by
  cases found : handlersOf group with
  | none => exact .inl (updateGroup_eq_self fun handlers h => by rw [found] at h; cases h)
  | some handlers =>
      obtain ⟨fields, rfl, there⟩ := obj_of_handlersOf found
      refine .inr ⟨fields, _, handlers, _, rfl, rfl, there, ?_,
        handlersKept_update owned command handlers,
        .inl (without_modifyField List.mem_cons_self _ fields)⟩
      rw [getField_modifyField_self, there]
      rfl

/-- Without its matcher, a Stop group of the bridge is kept too. -/
theorem groupKept_dropMatcher {command : String} (accepted : isBridgeCommand command = true)
    {stop : Prop} (isStop : stop) (group : Json) :
    GroupKept ownsCommand stop group (dropMatcher (updateGroup ownsCommand command group)) := by
  have same := allOwned_updateGroup (keeps_ownsCommand accepted) group
  unfold dropMatcher
  rw [same]
  cases all : allOwned ownsCommand group with
  | false => exact groupKept_update ownsCommand command stop group
  | true =>
      rw [if_pos rfl]
      unfold allOwned at all
      cases found : handlersOf group with
      | none => simp [found] at all
      | some handlers =>
          obtain ⟨fields, rfl, there⟩ := obj_of_handlersOf found
          simp only [found, Option.any_some, Bool.and_eq_true, Bool.not_eq_true',
            List.isEmpty_eq_false_iff, List.all_eq_true] at all
          refine .inr ⟨fields, _, handlers, _, rfl, rfl, there, ?_,
            handlersKept_update ownsCommand command handlers, .inr ⟨isStop, all.1, all.2, ?_⟩⟩
          · rw [getField_without (by decide), getField_modifyField_self, there]
            rfl
          · rw [without_without (by simp), without_modifyField (by simp)]

theorem groupsKept_mergeGroups {owned : Json → Bool} {command : String} {entry : Json}
    (isEntry : Entry owned command entry) (stop : Prop) (groups : List Json) :
    GroupsKept owned stop groups (mergeGroups owned command entry groups) := by
  have kept : List.Forall₂ (GroupKept owned stop) groups (groups.map (updateGroup owned command)) :=
    List.forall₂_map_right_iff.mpr (List.forall₂_same.mpr fun group _ =>
      groupKept_update owned command stop group)
  unfold mergeGroups
  split
  · exact ⟨_, [], (List.append_nil _).symm, kept, fun _ h => absurd h List.not_mem_nil⟩
  · refine ⟨_, [entry], rfl, kept, fun group member => ?_⟩
    rw [List.mem_singleton.mp member]
    exact isEntry.all

theorem groupsKept_standardGroups {command : String} (accepted : isBridgeCommand command = true)
    (event : String) (groups : List Json) :
    GroupsKept ownsCommand (event = "Stop") groups (standardGroups command event groups) := by
  have isEntry := standardEntry_entry accepted event
  unfold standardGroups
  split
  next isStop =>
    have kept : List.Forall₂ (GroupKept ownsCommand (event = "Stop")) groups
        ((groups.map (updateGroup ownsCommand command)).map dropMatcher) := by
      rw [List.map_map]
      exact List.forall₂_map_right_iff.mpr (List.forall₂_same.mpr fun group _ =>
        groupKept_dropMatcher accepted isStop group)
    unfold mergeGroups
    split
    · exact ⟨_, [], (List.append_nil _).symm, kept, fun _ h => absurd h List.not_mem_nil⟩
    · refine ⟨_, [dropMatcher (standardEntry event command)], ?_, kept, fun group member => ?_⟩
      · rw [List.map_append]
        rfl
      · rw [List.mem_singleton.mp member, allOwned_dropMatcher]
        exact isEntry.all
  · exact groupsKept_mergeGroups isEntry _ groups

/-- A merge keeps what the bridge does not own. -/
theorem mergeFormattedHooks_kept {command : String → String} {fields : Fields} {root' : Json}
    (accepted : ∀ event ∈ bridgeEvents, isBridgeCommand (command event) = true)
    (merged : mergeFormattedHooks command (.obj fields) = .ok root') :
    ∃ fields', root' = .obj fields' ∧
      Kept (fun _ => ownsCommand) bridgeEvents ["agent-otel-bridge"] fields fields' := by
  obtain ⟨fields, hooks, same, isHooks, checked, rfl⟩ := mergeFormattedHooks_eq_ok.mp merged
  obtain rfl := Json.obj.inj same
  refine ⟨_, rfl, ?_, hooks, _, isHooks, getField_insertField_self .., ?_, fun event member => ?_⟩
  · rw [standardRoot, without_insertField List.mem_cons_self, without_without (by simp)]
  · exact without_updateFields (fun _ => id) hooks
  · refine ⟨groupsOf (getField event hooks), _, ?_, getField_standardHooks member hooks,
      groupsKept_standardGroups (accepted event member) event _⟩
    cases found : getField event hooks with
    | none => rfl
    | some value =>
        obtain ⟨groups, rfl, -⟩ := checked event member value found
        rfl

/-! ## The configuration of the Gemini CLI -/

def geminiSources : List String := geminiEvents.map Prod.fst

/-- The hook event of an event of the Gemini CLI. -/
def geminiTarget (source : String) : String := (geminiEvents.lookup source).getD ""

def geminiGroups (command : String → String) (source : String) (groups : List Json) : List Json :=
  mergeGroups (ownsName (geminiName source)) (command (geminiTarget source))
    (geminiEntry source (command (geminiTarget source))) groups

/-- What an event becomes. -/
def geminiValue (command : String → String) (source : String) (old : Option Json) : Json :=
  .arr (geminiGroups command source (groupsOf old))

/-- What an event has is a list of groups, or nothing, and the groups have handlers. -/
def GroupsAt (hooks : Fields) (source : String) : Prop :=
  ∃ groups, (getField source hooks).getD (.arr []) = .arr groups ∧
    ∀ group ∈ groups, (handlersOf group).isSome = true

theorem groupsOf_of_getD {value : Option Json} {groups : List Json}
    (same : value.getD (.arr []) = .arr groups) : groupsOf value = groups := by
  cases value with
  | none => simpa [groupsOf] using same
  | some value =>
      obtain rfl : value = .arr groups := same
      rfl

theorem mergeGeminiEvent_eq_ok {command source : String} {hooks hooks' : Fields} :
    mergeGeminiEvent command source hooks = .ok hooks' ↔ GroupsAt hooks source ∧
      hooks' = insertField source (.arr (mergeGroups (ownsName (geminiName source)) command
        (geminiEntry source command) (groupsOf (getField source hooks)))) hooks := by
  unfold mergeGeminiEvent GroupsAt
  cases value : (getField source hooks).getD (.arr []) with
  | arr groups =>
      rw [groupsOf_of_getD value]
      constructor
      · intro ok
        simp only at ok
        split at ok
        next all => exact ⟨⟨groups, rfl, List.all_eq_true.mp all⟩, (Except.ok.inj ok).symm⟩
        · cases ok
      · rintro ⟨⟨groups', same, some_⟩, rfl⟩
        obtain rfl := Json.arr.inj same
        exact if_pos (List.all_eq_true.mpr some_)
  | null | bool | num | str | obj => simp

theorem GroupsAt.insertField {hooks : Fields} {source key : String} (other : source ≠ key)
    (value : Json) : GroupsAt (insertField key value hooks) source ↔ GroupsAt hooks source := by
  unfold GroupsAt
  rw [getField_insertField_ne other]

theorem foldlM_mergeGeminiEvent {command : String → String} {events : List (String × String)}
    (distinct : (events.map Prod.fst).Nodup) (targets : ∀ event ∈ events, geminiTarget event.1 = event.2)
    {hooks hooks' : Fields} :
    events.foldlM (fun hooks event => mergeGeminiEvent (command event.2) event.1 hooks) hooks =
        .ok hooks' ↔
      (∀ event ∈ events, GroupsAt hooks event.1) ∧
        hooks' = updateFields (events.map Prod.fst) (geminiValue command) hooks := by
  induction events generalizing hooks with
  | nil => simp [updateFields, pure, Except.pure, eq_comm]
  | cons event events ih =>
      rw [List.map_cons, List.nodup_cons] at distinct
      rw [List.forall_mem_cons] at targets
      obtain ⟨source, target⟩ := event
      obtain rfl : geminiTarget source = target := targets.1
      rw [List.foldlM_cons, List.forall_mem_cons, List.map_cons, updateFields_cons]
      have others : ∀ value, (∀ event ∈ events, GroupsAt (insertField source value hooks) event.1) ↔
          ∀ event ∈ events, GroupsAt hooks event.1 := by
        intro value
        refine forall₂_congr fun event member => GroupsAt.insertField ?_ value
        have there : event.1 ∈ events.map Prod.fst := List.mem_map_of_mem member
        rintro rfl
        exact distinct.1 there
      cases step : mergeGeminiEvent (command (geminiTarget source)) source hooks with
      | error error =>
          have failed : ¬ GroupsAt hooks source := fun groups => by
            rw [mergeGeminiEvent_eq_ok.mpr ⟨groups, rfl⟩] at step
            cases step
          exact ⟨nofun, fun h => absurd h.1.1 failed⟩
      | ok next =>
          obtain ⟨groups, rfl⟩ := mergeGeminiEvent_eq_ok.mp step
          refine (ih distinct.2 targets.2).trans ?_
          rw [others]
          exact ⟨fun h => ⟨⟨groups, h.1⟩, h.2⟩, fun h => ⟨h.1.2, h.2⟩⟩

theorem mergeGeminiHooks_eq_ok {command : String → String} {root root' : Fields} :
    mergeGeminiHooks command root = .ok root' ↔ ∃ hooks, HooksOf root hooks ∧
      (∀ event ∈ geminiEvents, GroupsAt hooks event.1) ∧
      root' = insertField "hooks" (.obj (updateFields geminiSources (geminiValue command) hooks))
        root := by
  have fold : ∀ hooks hooks', geminiEvents.foldlM
      (fun hooks event => mergeGeminiEvent (command event.2) event.1 hooks) hooks = .ok hooks' ↔
        (∀ event ∈ geminiEvents, GroupsAt hooks event.1) ∧
          hooks' = updateFields geminiSources (geminiValue command) hooks :=
    fun _ _ => foldlM_mergeGeminiEvent (by decide) (by decide)
  unfold mergeGeminiHooks HooksOf
  cases (getField "hooks" root).getD (.obj []) with
  | obj hooks =>
      simp only [Json.obj.injEq, exists_eq_left']
      cases result : geminiEvents.foldlM
          (fun hooks event => mergeGeminiEvent (command event.2) event.1 hooks) hooks with
      | error error =>
          have failed : ¬ ∀ event ∈ geminiEvents, GroupsAt hooks event.1 := fun groups => by
            rw [(fold hooks _).mpr ⟨groups, rfl⟩] at result
            cases result
          exact ⟨nofun, fun h => absurd h.1 failed⟩
      | ok hooks' =>
          obtain ⟨groups, rfl⟩ := (fold hooks hooks').mp result
          exact ⟨fun ok => ⟨groups, (Except.ok.inj ok).symm⟩, fun h => congrArg Except.ok h.2.symm⟩
  | null | bool | num | str | arr => simp

theorem geminiSources_nodup : geminiSources.Nodup := by decide

theorem handlersOf_mergeGroups {owned : Json → Bool} {command : String} {entry : Json}
    {groups : List Json} (entry_ : (handlersOf entry).isSome = true)
    (have_ : ∀ group ∈ groups, (handlersOf group).isSome = true) :
    ∀ group ∈ mergeGroups owned command entry groups, (handlersOf group).isSome = true := by
  intro group member
  rcases mem_mergeGroups member with ⟨old, there, rfl⟩ | rfl
  · rw [handlersOf_updateGroup, Option.isSome_map]
    exact have_ old there
  · exact entry_

/-- A merge of what was merged changes nothing. -/
theorem mergeGeminiHooks_idempotent {command : String → String} {root root' : Fields}
    (merged : mergeGeminiHooks command root = .ok root') :
    mergeGeminiHooks command root' = .ok root' := by
  obtain ⟨hooks, isHooks, groups, rfl⟩ := mergeGeminiHooks_eq_ok.mp merged
  have again : updateFields geminiSources (geminiValue command)
      (updateFields geminiSources (geminiValue command) hooks) =
        updateFields geminiSources (geminiValue command) hooks :=
    updateFields_updateFields geminiSources_nodup hooks fun source _ => congrArg Json.arr
      (mergeGroups_mergeGroups (keeps_ownsName _ _) (geminiEntry_entry _ source) _)
  refine mergeGeminiHooks_eq_ok.mpr ⟨updateFields geminiSources (geminiValue command) hooks, ?_,
    fun event member => ?_, ?_⟩
  · rw [HooksOf, getField_insertField_self]
    rfl
  · obtain ⟨old, value, have_⟩ := groups event member
    refine ⟨geminiGroups command event.1 old, ?_, handlersOf_mergeGroups rfl have_⟩
    have listed : event.1 ∈ geminiSources := List.mem_map_of_mem member
    rw [getField_updateFields geminiSources_nodup listed, geminiValue, groupsOf_of_getD value]
    rfl
  · rw [again, insertField_eq_self (getField_insertField_self ..)]

/-- A merge keeps what the bridge does not own. -/
theorem mergeGeminiHooks_kept {command : String → String} {root root' : Fields}
    (merged : mergeGeminiHooks command root = .ok root') :
    Kept (fun source => ownsName (geminiName source)) geminiSources [] root root' := by
  obtain ⟨hooks, isHooks, groups, rfl⟩ := mergeGeminiHooks_eq_ok.mp merged
  refine ⟨without_insertField List.mem_cons_self _ root, hooks, _, isHooks,
    getField_insertField_self .., without_updateFields (fun _ => id) hooks, fun source member => ?_⟩
  obtain ⟨event, there, rfl⟩ := List.mem_map.mp member
  obtain ⟨old, value, -⟩ := groups event there
  refine ⟨old, _, value, getField_updateFields geminiSources_nodup member hooks, ?_⟩
  rw [groupsOf_of_getD value]
  exact groupsKept_mergeGroups (geminiEntry_entry _ _) _ old

/-! ## Well-formed configurations -/

section

variable {owned : Json → Bool} {command : String} {group entry : Json} {groups : List Json}

theorem wellFormed_updateHandler (owned : Json → Bool) (command : String) {handler : Json}
    (h : handler.WellFormed) : (updateHandler owned command handler).WellFormed := by
  unfold updateHandler
  split
  · exact h.mapObject fun fields wellFormed => wellFormed.insertField "command" (.str command)
  · exact h

theorem wellFormed_updateGroup (owned : Json → Bool) (command : String) (h : group.WellFormed) :
    (updateGroup owned command group).WellFormed := by
  refine h.mapObject fun fields wellFormed => wellFormed.modifyField "hooks" fun value h => ?_
  refine h.mapArray fun items wellFormed v member => ?_
  obtain ⟨handler, there, rfl⟩ := List.mem_map.mp member
  exact wellFormed_updateHandler owned command (wellFormed handler there)

theorem wellFormed_mergeGroups (entry_ : entry.WellFormed) (h : ∀ group ∈ groups, group.WellFormed) :
    ∀ group ∈ mergeGroups owned command entry groups, group.WellFormed := by
  intro group member
  rcases mem_mergeGroups member with ⟨old, there, rfl⟩ | rfl
  · exact wellFormed_updateGroup owned command (h old there)
  · exact entry_

theorem wellFormed_dropMatcher (h : group.WellFormed) : (dropMatcher group).WellFormed := by
  unfold dropMatcher
  split
  · exact h.mapObject fun fields wellFormed => wellFormed.without ["matcher"]
  · exact h

theorem wellFormed_groupsOf {old : Option Json} (h : ∀ v, old = some v → v.WellFormed) :
    ∀ group ∈ groupsOf old, group.WellFormed := by
  intro group member
  cases old with
  | none => exact absurd member List.not_mem_nil
  | some value =>
      cases value with
      | arr groups => exact wellFormed_arr.mp (h _ rfl) group member
      | null | bool | num | str | obj => exact absurd member List.not_mem_nil

end

theorem wellFormed_standardEntry (event command : String) : (standardEntry event command).WellFormed := by
  have handlerKeys : ["command", "timeout", "type"].Pairwise (· < ·) := by decide
  have entryKeys : ["hooks", "matcher"].Pairwise (· < ·) := by decide
  have handler : (Json.obj [("command", .str command), ("timeout", .num "5"),
      ("type", .str "command")]).WellFormed := by
    refine .obj handlerKeys ?_
    simp only [List.forall_mem_cons]
    exact ⟨.str _, .num _, .str _, fun _ h => absurd h List.not_mem_nil⟩
  have hooks : (Json.arr [.obj [("command", .str command), ("timeout", .num "5"),
      ("type", .str "command")]]).WellFormed :=
    .arr fun v member => List.mem_singleton.mp member ▸ handler
  unfold standardEntry
  split
  · exact .obj (List.pairwise_singleton _ _) fun field member => List.mem_singleton.mp member ▸ hooks
  · refine .obj entryKeys ?_
    simp only [List.forall_mem_cons]
    exact ⟨hooks, .str _, fun _ h => absurd h List.not_mem_nil⟩

theorem wellFormed_geminiEntry (source command : String) : (geminiEntry source command).WellFormed := by
  have handlerKeys : ["command", "name", "timeout", "type"].Pairwise (· < ·) := by decide
  have entryKeys : ["hooks", "matcher"].Pairwise (· < ·) := by decide
  have handler : (Json.obj [("command", .str command), ("name", .str (geminiName source)),
      ("timeout", .num "1000"), ("type", .str "command")]).WellFormed := by
    refine .obj handlerKeys ?_
    simp only [List.forall_mem_cons]
    exact ⟨.str _, .str _, .num _, .str _, fun _ h => absurd h List.not_mem_nil⟩
  refine .obj entryKeys ?_
  simp only [List.forall_mem_cons]
  exact ⟨.arr fun v member => List.mem_singleton.mp member ▸ handler, .str _,
    fun _ h => absurd h List.not_mem_nil⟩

theorem wellFormed_antigravityBridgeHooks (command : String → String) :
    (antigravityBridgeHooks command).WellFormed := by
  have handlerKeys : ["command", "timeout", "type"].Pairwise (· < ·) := by decide
  have entryKeys : ["hooks", "matcher"].Pairwise (· < ·) := by decide
  have eventKeys : ["PostInvocation", "PostToolUse", "PreInvocation", "Stop"].Pairwise (· < ·) := by
    decide
  have handler : ∀ event, (Json.arr [.obj [("command", .str (command event)), ("timeout", .num "5"),
      ("type", .str "command")]]).WellFormed := by
    intro event
    refine .arr fun v member => List.mem_singleton.mp member ▸ .obj handlerKeys ?_
    simp only [List.forall_mem_cons]
    exact ⟨.str _, .num _, .str _, fun _ h => absurd h List.not_mem_nil⟩
  refine .obj eventKeys ?_
  simp only [List.forall_mem_cons]
  refine ⟨handler _, .arr fun v member => List.mem_singleton.mp member ▸ .obj entryKeys ?_, handler _,
    handler _, fun _ h => absurd h List.not_mem_nil⟩
  simp only [List.forall_mem_cons]
  exact ⟨handler _, .str _, fun _ h => absurd h List.not_mem_nil⟩

theorem HooksOf.wellFormed {fields hooks : Fields} (isHooks : HooksOf fields hooks)
    (h : fields.WellFormed) : hooks.WellFormed := by
  unfold HooksOf at isHooks
  cases found : getField "hooks" fields with
  | none =>
      rw [found] at isHooks
      obtain rfl : [] = hooks := by simpa using isHooks
      exact ⟨.nil, fun _ h => absurd h List.not_mem_nil⟩
  | some value =>
      rw [found] at isHooks
      obtain rfl : value = .obj hooks := isHooks
      exact wellFormed_obj.mp (h.get found)

theorem mergeFormattedHooks_wellFormed {command : String → String} {root root' : Json}
    (merged : mergeFormattedHooks command root = .ok root') (h : root.WellFormed) :
    root'.WellFormed := by
  obtain ⟨fields, hooks, rfl, isHooks, -, rfl⟩ := mergeFormattedHooks_eq_ok.mp merged
  have wellFormed := wellFormed_obj.mp h
  refine wellFormed_obj.mpr ((wellFormed.without _).insertField "hooks" (wellFormed_obj.mpr ?_))
  refine (isHooks.wellFormed wellFormed).updateFields fun event _ old groups => .arr ?_
  have merged : ∀ group ∈ mergeGroups ownsCommand (command event)
      (standardEntry event (command event)) (groupsOf old), group.WellFormed := wellFormed_mergeGroups
    (wellFormed_standardEntry event (command event)) (wellFormed_groupsOf groups)
  unfold standardGroups
  split
  · intro group member
    obtain ⟨old, there, rfl⟩ := List.mem_map.mp member
    exact wellFormed_dropMatcher (merged old there)
  · exact merged

theorem mergeGeminiHooks_wellFormed {command : String → String} {root root' : Fields}
    (merged : mergeGeminiHooks command root = .ok root') (h : root.WellFormed) :
    root'.WellFormed := by
  obtain ⟨hooks, isHooks, -, rfl⟩ := mergeGeminiHooks_eq_ok.mp merged
  refine h.insertField "hooks" (wellFormed_obj.mpr ?_)
  exact (isHooks.wellFormed h).updateFields fun source _ old groups => .arr
    (wellFormed_mergeGroups (wellFormed_geminiEntry _ _) (wellFormed_groupsOf groups))

end AgentOtelBridge.HookMerge
