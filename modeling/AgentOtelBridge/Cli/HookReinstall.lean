import AgentOtelBridge.Cli.HookLiteral
import AgentOtelBridge.Cli.HookUninstall
import Mathlib.Data.Finset.Card

/-!
# Installing again

An installation gives its command to the handlers that the recognizer finds, and
appends one where it finds none.  So the next installation writes to the same places
exactly if the recognizer finds the command of this one (`writtenPlaces_accepted`,
`writtenPlaces_refused`).

A handler is known by its place: the event, the group and the position in the group.
No installation moves a handler or removes one.
-/

namespace AgentOtelBridge.HookMerge

open Json HookCommand Text

/-! ## Places in the groups of an event -/

def handlerIn (groups : List Json) (group handler : Nat) : Option Json :=
  (groups[group]?.bind handlersOf).bind (·[handler]?)

/-- The places of the handlers that are owned. -/
def ownedPlaces (groups : List Json) : List (Nat × Nat) :=
  groups.zipIdx.flatMap fun group =>
    ((handlersOf group.1).getD []).zipIdx.filterMap fun handler =>
      if ownsCommand handler.1 then some (group.2, handler.2) else none

/-- The places that a merge writes: the owned ones, or the one it appends. -/
def writtenPlaces (groups : List Json) : List (Nat × Nat) :=
  if groups.any (hasOwned ownsCommand) then ownedPlaces groups else [(groups.length, 0)]

section

variable {groups : List Json} {group handler : Nat} {command event : String}

theorem mem_ownedPlaces : (group, handler) ∈ ownedPlaces groups ↔
    ∃ h, handlerIn groups group handler = some h ∧ ownsCommand h = true := by
  unfold ownedPlaces handlerIn
  simp only [List.mem_flatMap, List.mem_filterMap, List.mem_zipIdx_iff_getElem?, Prod.exists]
  constructor
  · rintro ⟨value, i, at_, h, j, handler_, written⟩
    split at written
    next owned =>
      obtain ⟨rfl, rfl⟩ : i = group ∧ j = handler := by simpa using written
      cases found : handlersOf value with
      | none => simp [found] at handler_
      | some handlers =>
          refine ⟨h, ?_, owned⟩
          simpa [at_, found] using handler_
    · cases written
  · rintro ⟨h, at_, owned⟩
    obtain ⟨handlers, there, handler_⟩ := Option.bind_eq_some_iff.mp at_
    obtain ⟨value, value_, found⟩ := Option.bind_eq_some_iff.mp there
    exact ⟨value, group, value_, h, handler, by simpa [found] using handler_, by simp [owned]⟩

theorem any_hasOwned_iff : groups.any (hasOwned ownsCommand) = true ↔
    ∃ group handler, (group, handler) ∈ ownedPlaces groups := by
  simp only [mem_ownedPlaces, handlerIn, List.any_eq_true, hasOwned]
  constructor
  · rintro ⟨value, member, any⟩
    obtain ⟨i, at_⟩ := List.mem_iff_getElem?.mp member
    obtain ⟨handlers, found, owned⟩ := (Option.any_eq_true ..).mp any
    obtain ⟨h, there, owned⟩ := List.any_eq_true.mp owned
    obtain ⟨j, handler_⟩ := List.mem_iff_getElem?.mp there
    exact ⟨i, j, h, by simp [at_, found, handler_], owned⟩
  · rintro ⟨i, j, h, at_, owned⟩
    obtain ⟨handlers, there, handler_⟩ := Option.bind_eq_some_iff.mp at_
    obtain ⟨value, value_, found⟩ := Option.bind_eq_some_iff.mp there
    exact ⟨value, List.mem_of_getElem? value_, by
      simpa [found] using ⟨h, List.mem_of_getElem? handler_, owned⟩⟩

/-! ## What a merge writes -/

theorem handlerIn_map {f : Json → Json} {g : Json → Json}
    (changes : ∀ group, handlersOf (f group) = (handlersOf group).map (List.map g)) (groups : List Json)
    (group handler : Nat) :
    handlerIn (groups.map f) group handler = (handlerIn groups group handler).map g := by
  unfold handlerIn
  rw [List.getElem?_map]
  cases groups[group]? with
  | none => rfl
  | some value =>
      rw [Option.map_some, Option.bind_some, Option.bind_some, changes]
      cases handlersOf value with
      | none => rfl
      | some handlers => exact List.getElem?_map ..

theorem handlerIn_map_dropMatcher (groups : List Json) (group handler : Nat) :
    handlerIn (groups.map dropMatcher) group handler = handlerIn groups group handler := by
  have same := handlerIn_map (f := dropMatcher) (g := id)
    (fun value => by rw [handlersOf_dropMatcher, List.map_id_fun, Option.map_id]; rfl) groups group handler
  rw [same, Option.map_id]
  rfl

/-- Behind the groups there is the one that is appended. -/
theorem handlerIn_concat (groups : List Json) (entry : Json) (group handler : Nat) :
    handlerIn (groups ++ [entry]) group handler =
      if group = groups.length then (handlersOf entry).bind (·[handler]?)
      else handlerIn groups group handler := by
  unfold handlerIn
  split
  next last =>
    subst last
    rw [List.getElem?_concat_length]
    rfl
  next other =>
    rcases Nat.lt_or_gt_of_ne other with before | behind
    · rw [List.getElem?_append_left before]
    · rw [List.getElem?_eq_none (by simp; omega), List.getElem?_eq_none (by omega)]

theorem handlerIn_length (groups : List Json) (handler : Nat) :
    handlerIn groups groups.length handler = none := by
  rw [handlerIn, List.getElem?_eq_none (Nat.le_refl _)]
  rfl

/-- The handler of the group that is appended. -/
def entryHandler (command : String) : Json :=
  .obj [("command", .str command), ("timeout", .num "5"), ("type", .str "command")]

theorem handlersOf_standardEntry (event command : String) :
    handlersOf (standardEntry event command) = some [entryHandler command] := by
  unfold standardEntry
  split <;> rfl

/-- The handlers of the groups behind a merge. -/
theorem handlerIn_standardGroups (command event : String) (groups : List Json) (group handler : Nat) :
    handlerIn (standardGroups command event groups) group handler =
      if groups.any (hasOwned ownsCommand) = false ∧ group = groups.length then
        [entryHandler command][handler]?
      else (handlerIn groups group handler).map (updateHandler ownsCommand command) := by
  have dropped : handlerIn (standardGroups command event groups) group handler =
      handlerIn (mergeGroups ownsCommand command (standardEntry event command) groups) group
        handler := by
    unfold standardGroups
    split
    · exact handlerIn_map_dropMatcher ..
    · rfl
  have updated := handlerIn_map (handlersOf_updateGroup ownsCommand command) groups group handler
  rw [dropped, mergeGroups]
  cases groups.any (hasOwned ownsCommand) with
  | true => rw [if_pos rfl, if_neg (by simp), updated]
  | false =>
      rw [if_neg Bool.false_ne_true, handlerIn_concat, List.length_map, handlersOf_standardEntry, updated]
      simp only [true_and, Option.bind_some]

theorem commandOf_setCommand {h : Json} (owned : ownsCommand h = true) (command : String) :
    commandOf (setCommand command h) = some command := by
  cases h with
  | obj fields => simp [commandOf, setCommand, mapObject, asStr]
  | null | bool | num | str | arr => simp [ownsCommand, commandOf, Json.get] at owned

/-- A written place has the command. -/
theorem handlerIn_written (written : (group, handler) ∈ writtenPlaces groups) (command event : String) :
    ∃ h, handlerIn (standardGroups command event groups) group handler = some h ∧
      commandOf h = some command := by
  rw [handlerIn_standardGroups]
  unfold writtenPlaces at written
  cases owned : groups.any (hasOwned ownsCommand) with
  | true =>
      rw [if_pos owned] at written
      obtain ⟨h, at_, owns⟩ := mem_ownedPlaces.mp written
      rw [if_neg (by simp), at_]
      refine ⟨setCommand command h, ?_, commandOf_setCommand owns command⟩
      rw [Option.map_some, updateHandler, if_pos owns]
  | false =>
      rw [if_neg (by rw [owned]; exact Bool.false_ne_true)] at written
      obtain ⟨rfl, rfl⟩ := Prod.mk.inj (List.mem_singleton.mp written)
      rw [if_pos ⟨rfl, rfl⟩]
      exact ⟨entryHandler command, rfl, rfl⟩

/-- Another place has what it had. -/
theorem handlerIn_other (other : (group, handler) ∉ writtenPlaces groups) (command event : String) :
    handlerIn (standardGroups command event groups) group handler = handlerIn groups group handler := by
  rw [handlerIn_standardGroups]
  unfold writtenPlaces at other
  split
  next appended =>
    obtain ⟨owned, rfl⟩ := appended
    rw [if_neg (by rw [owned]; exact Bool.false_ne_true)] at other
    rw [handlerIn_length]
    refine List.getElem?_eq_none ?_
    by_contra inside
    have first : handler = 0 := by
      simp only [List.length_cons, List.length_nil] at inside
      omega
    exact other (List.mem_singleton.mpr (by rw [first]))
  next =>
    cases at_ : handlerIn groups group handler with
    | none => rfl
    | some h =>
        have foreign : ownsCommand h ≠ true := fun owns => by
          have there := mem_ownedPlaces.mpr ⟨h, at_, owns⟩
          rw [if_pos (any_hasOwned_iff.mpr ⟨group, handler, there⟩)] at other
          exact other there
        rw [Option.map_some, updateHandler, if_neg foreign]

theorem writtenPlaces_nonempty (groups : List Json) : ∃ group handler,
    (group, handler) ∈ writtenPlaces groups := by
  unfold writtenPlaces
  split
  next owned => exact any_hasOwned_iff.mp owned
  next => exact ⟨groups.length, 0, .head _⟩

/-- What is owned behind a merge was written by it. -/
theorem written_of_owned (owned : (group, handler) ∈ ownedPlaces (standardGroups command event groups)) :
    (group, handler) ∈ writtenPlaces groups := by
  by_contra other
  obtain ⟨h, at_, owns⟩ := mem_ownedPlaces.mp owned
  rw [handlerIn_other other] at at_
  have there := mem_ownedPlaces.mpr ⟨h, at_, owns⟩
  unfold writtenPlaces at other
  rw [if_pos (any_hasOwned_iff.mpr ⟨group, handler, there⟩)] at other
  exact other there

/-- The merge behind one with a command that is recognized writes to the same places. -/
theorem writtenPlaces_accepted (accepted : isBridgeCommand command = true) :
    writtenPlaces (standardGroups command event groups) ⊆ writtenPlaces groups := by
  obtain ⟨group, handler, written⟩ := writtenPlaces_nonempty groups
  obtain ⟨h, at_, command_⟩ := handlerIn_written written command event
  have owns : ownsCommand h = true := by rw [ownsCommand, command_]; exact accepted
  have owned := any_hasOwned_iff.mpr ⟨group, handler, mem_ownedPlaces.mpr ⟨h, at_, owns⟩⟩
  rw [writtenPlaces, if_pos owned]
  exact fun place member => written_of_owned member

/-- The merge behind one with a command that is not recognized appends a handler. -/
theorem writtenPlaces_refused (event : String) (groups : List Json)
    (refused : isBridgeCommand command = false) :
    writtenPlaces (standardGroups command event groups) =
      [((standardGroups command event groups).length, 0)] := by
  refine if_neg fun owned => ?_
  obtain ⟨group, handler, there⟩ := any_hasOwned_iff.mp owned
  obtain ⟨h, at_, owns⟩ := mem_ownedPlaces.mp there
  obtain ⟨h', at_', command_⟩ := handlerIn_written (written_of_owned there) command event
  obtain rfl := Option.some.inj (at_.symm.trans at_')
  rw [ownsCommand, command_, Option.any_some, refused] at owns
  exact Bool.false_ne_true owns

end

/-! ## Installations -/

/-- The hooks that are there: the active one of the local runtime, the one next to the
executable, and the one on the path. -/
structure InstalledHooks where
  canonical : Option String
  neighbor : Option String
  onPath : Option String
deriving DecidableEq, Repr

/-- A path that is given is taken, whether a file is there or not. -/
def resolveCanonicalHookBinary (userProvided : Option String) (installed : InstalledHooks) :
    Except String String :=
  match userProvided with
  | some bin => .ok bin
  | none =>
    match installed.canonical.or (installed.neighbor.or installed.onPath) with
    | some found => .ok found
    | none => .error "Could not find an installed 'agent-hook' binary.\nRun 'agent-otel-bridge local install' to build and activate the local runtime, or specify --binary <path>."

/-- The clients with the hooks of a standard configuration. -/
inductive StandardClient where
  | claude
  | codex
  | grok
deriving DecidableEq, Repr

/-- The formatter of a client, with the tag that its adapter gives it. -/
def StandardClient.format (client : StandardClient) (binary event : String) (socket : Option String) :
    String :=
  match client with
  | .claude => formatPosixClaudeHookCommand binary event none socket
  | .codex => formatPosixHookCommand binary event (some "codex") socket
  | .grok => formatPosixHookCommand binary event (some "grok") socket

/-- A run of the installation, with the binary it resolves to and the socket of its
environment. -/
structure InstallRun where
  client : StandardClient
  userProvided : Option String
  installed : InstalledHooks
  socket : Option String
  binary : String
  resolves : resolveCanonicalHookBinary userProvided installed = .ok binary

namespace InstallRun

def command (run : InstallRun) (event : String) : String :=
  run.client.format run.binary event run.socket

/-- The binary has the name of the hook, and is taken for no assignment. -/
def Claimed (run : InstallRun) : Prop :=
  isHookName (trimMatches [quotation] run.binary).toList = true ∧
    Unassigned (trimMatches [quotation] run.binary) run.socket

end InstallRun

/-- The place of a handler in a configuration. -/
structure Place where
  event : String
  group : Nat
  handler : Nat
deriving DecidableEq, Repr

def handlerAt (root : Json) (place : Place) : Option Json :=
  handlerIn ((eventGroups root place.event).getD []) place.group place.handler

/-- The places of a configuration that a merge writes. -/
def writtenAt (root : Json) : Finset Place :=
  (bridgeEvents.flatMap fun event => (writtenPlaces ((eventGroups root event).getD [])).map
    fun place => ⟨event, place.1, place.2⟩).toFinset

/-- A configuration, and the places of it that some run wrote. -/
structure Installation where
  root : Json
  written : Finset Place

/-- One run: the configuration is merged and written back. -/
def Installation.install (s : Installation) (run : InstallRun) : Except String Installation :=
  (mergeFormattedHooks run.command s.root).map fun root => ⟨root, s.written ∪ writtenAt s.root⟩

/-- The configurations after each run. -/
def Installation.trace (s : Installation) : List InstallRun → Except String (List Installation)
  | [] => .ok []
  | run :: runs => do
    let s ← s.install run
    let later ← s.trace runs
    .ok (s :: later)

/-- The event has a handler with the command. -/
def Holds (root : Json) (event command : String) : Prop :=
  ∃ place handler, place.event = event ∧ handlerAt root place = some handler ∧
    commandOf handler = some command

/-- Every run leaves a handler with its command for each event, and no run writes to a place
that the first one did not write to. -/
def Reinstalls (root : Json) (runs : List InstallRun) : Prop :=
  ∃ states, Installation.trace ⟨root, ∅⟩ runs = .ok states ∧
    List.Forall₂ (fun run s => ∀ event ∈ bridgeEvents, Holds s.root event (run.command event))
      runs states ∧
    ∀ first, states.head? = some first → ∀ s ∈ states, s.written.card = first.written.card

/-- The configuration can be merged. -/
def Mergeable (root : Json) : Prop :=
  ∃ command root', mergeFormattedHooks command root = .ok root'

section

variable {command : String → String} {root root' : Json} {run next : InstallRun}
  {s s' s'' : Installation} {place : Place}

theorem InstallRun.isBridgeCommand_command (run : InstallRun) {event : String}
    (member : event ∈ bridgeEvents) :
    isBridgeCommand (run.command event) = true ↔ run.Claimed := by
  have subset : bridgeEvents ⊆ hookEvents := by decide
  unfold InstallRun.command StandardClient.format
  cases run.client with
  | claude => exact isBridgeCommand_formatPosixClaude (subset member) isTag_none
  | codex => exact isBridgeCommand_formatPosix (subset member) (isTag_some (by decide))
  | grok => exact isBridgeCommand_formatPosix (subset member) (isTag_some (by decide))

/-- The groups of the events after a merge, which can be merged again. -/
theorem eventGroups_merged (merged : mergeFormattedHooks command root = .ok root') :
    Mergeable root' ∧ ∀ event ∈ bridgeEvents, (eventGroups root' event).getD [] =
      standardGroups (command event) event ((eventGroups root event).getD []) := by
  obtain ⟨fields, hooks, rfl, isHooks, checked, rfl⟩ := mergeFormattedHooks_eq_ok.mp merged
  have isHooks' : HooksOf (standardRoot command fields hooks)
      (updateFields bridgeEvents (standardValue command) hooks) := by
    rw [HooksOf, standardRoot, getField_insertField_self]
    rfl
  refine ⟨⟨command, _, mergeFormattedHooks_eq_ok.mpr
    ⟨_, _, rfl, isHooks', checked.standardHooks command, rfl⟩⟩, fun event member => ?_⟩
  rw [eventGroups_getD isHooks', eventGroups_getD isHooks, getField_standardHooks member]
  rfl

/-- The checks do not look at the command. -/
theorem Mergeable.merged (mergeable : Mergeable root) (command : String → String) :
    ∃ root', mergeFormattedHooks command root = .ok root' := by
  obtain ⟨_, _, merged⟩ := mergeable
  obtain ⟨fields, hooks, rfl, isHooks, checked, -⟩ := mergeFormattedHooks_eq_ok.mp merged
  exact ⟨_, mergeFormattedHooks_eq_ok.mpr ⟨fields, hooks, rfl, isHooks, checked, rfl⟩⟩

theorem mem_writtenAt : place ∈ writtenAt root ↔ place.event ∈ bridgeEvents ∧
    (place.group, place.handler) ∈ writtenPlaces ((eventGroups root place.event).getD []) := by
  obtain ⟨event, group, handler⟩ := place
  simp only [writtenAt, List.mem_toFinset, List.mem_flatMap, List.mem_map, Prod.exists, Place.mk.injEq]
  constructor
  · rintro ⟨event', listed, i, j, written, rfl, rfl, rfl⟩
    exact ⟨listed, written⟩
  · rintro ⟨listed, written⟩
    exact ⟨event, listed, group, handler, written, rfl, rfl, rfl⟩

/-- A place that is written has the command of its event. -/
theorem handlerAt_written (merged : mergeFormattedHooks command root = .ok root')
    (written : place ∈ writtenAt root) : ∃ handler, handlerAt root' place = some handler ∧
      commandOf handler = some (command place.event) := by
  obtain ⟨listed, there⟩ := mem_writtenAt.mp written
  rw [handlerAt, (eventGroups_merged merged).2 place.event listed]
  exact handlerIn_written there _ _

/-- Another place of these events has what it had. -/
theorem handlerAt_other (merged : mergeFormattedHooks command root = .ok root')
    (listed : place.event ∈ bridgeEvents) (other : place ∉ writtenAt root) :
    handlerAt root' place = handlerAt root place := by
  rw [handlerAt, (eventGroups_merged merged).2 place.event listed]
  exact handlerIn_other (fun there => other (mem_writtenAt.mpr ⟨listed, there⟩)) _ _

/-- The command is in a handler of every event. -/
theorem holds_merged (merged : mergeFormattedHooks command root = .ok root') {event : String}
    (member : event ∈ bridgeEvents) : Holds root' event (command event) := by
  obtain ⟨group, handler, written⟩ := writtenPlaces_nonempty ((eventGroups root event).getD [])
  have there : (⟨event, group, handler⟩ : Place) ∈ writtenAt root := mem_writtenAt.mpr ⟨member, written⟩
  obtain ⟨h, at_, command_⟩ := handlerAt_written merged there
  exact ⟨⟨event, group, handler⟩, h, rfl, at_, command_⟩

/-- Every place that was written is one of the configuration. -/
def Installation.Present (s : Installation) : Prop :=
  ∀ place ∈ s.written, place.event ∈ bridgeEvents ∧ (handlerAt s.root place).isSome = true

theorem Installation.install_eq_ok : s.install run = .ok s' ↔
    ∃ root', mergeFormattedHooks run.command s.root = .ok root' ∧
      s' = ⟨root', s.written ∪ writtenAt s.root⟩ := by
  unfold Installation.install
  cases mergeFormattedHooks run.command s.root with
  | error error => exact ⟨nofun, fun ⟨_, merged, _⟩ => nomatch merged⟩
  | ok root' =>
      constructor
      · exact fun installed => ⟨root', rfl, (Except.ok.inj installed).symm⟩
      · rintro ⟨_, merged, rfl⟩
        obtain rfl := Except.ok.inj merged
        rfl

theorem Installation.Present.install (present : s.Present) (installed : s.install run = .ok s') :
    s'.Present := by
  obtain ⟨root', merged, rfl⟩ := Installation.install_eq_ok.mp installed
  intro place member
  by_cases written : place ∈ writtenAt s.root
  · obtain ⟨h, at_, -⟩ := handlerAt_written merged written
    exact ⟨(mem_writtenAt.mp written).1, by simp [at_]⟩
  · obtain ⟨listed, there⟩ := present place ((Finset.mem_union.mp member).resolve_right written)
    refine ⟨listed, ?_⟩
    rw [handlerAt_other merged listed written]
    exact there

/-- The run behind another writes to the places that were written, exactly if the
recognizer finds the command of the other one. -/
theorem writtenAt_subset_iff (present : s.Present) (installed : s.install run = .ok s') :
    writtenAt s'.root ⊆ s'.written ↔ run.Claimed := by
  have present' := present.install installed
  obtain ⟨root', merged, rfl⟩ := Installation.install_eq_ok.mp installed
  have groups := (eventGroups_merged merged).2
  constructor
  · intro subset
    by_contra unclaimed
    -- The event has no handler that is found, so one is appended behind its groups.
    have listed : "Stop" ∈ bridgeEvents := by decide
    have refused : isBridgeCommand (run.command "Stop") = false := by
      rw [← Bool.not_eq_true, run.isBridgeCommand_command listed]
      exact unclaimed
    have appended := writtenPlaces_refused "Stop" ((eventGroups s.root "Stop").getD []) refused
    rw [← groups "Stop" listed] at appended
    have there := (present' ⟨"Stop", ((eventGroups root' "Stop").getD []).length, 0⟩
      (subset (mem_writtenAt.mpr ⟨listed, by rw [appended]; exact .head _⟩))).2
    rw [handlerAt, handlerIn_length] at there
    exact Bool.false_ne_true there
  · intro claimed place member
    obtain ⟨listed, written⟩ := mem_writtenAt.mp member
    rw [groups place.event listed] at written
    have accepted := (run.isBridgeCommand_command listed).mpr claimed
    exact Finset.mem_union_right _
      (mem_writtenAt.mpr ⟨listed, writtenPlaces_accepted accepted written⟩)

/-- The count of the places stays exactly if no new one is written. -/
theorem card_install_iff (installed : s.install run = .ok s') :
    s'.written.card = s.written.card ↔ writtenAt s.root ⊆ s.written := by
  obtain ⟨root', -, rfl⟩ := Installation.install_eq_ok.mp installed
  rw [← Finset.union_eq_left]
  constructor
  · exact fun same => (Finset.eq_of_subset_of_card_le Finset.subset_union_left same.le).symm
  · exact fun same => congrArg Finset.card same

theorem card_le_install (installed : s.install run = .ok s') : s.written.card ≤ s'.written.card := by
  obtain ⟨root', -, rfl⟩ := Installation.install_eq_ok.mp installed
  exact Finset.card_le_card Finset.subset_union_left

/-! ## Runs one behind the other -/

/-- The runs behind one. -/
structure Behind (run : InstallRun) (s : Installation) (runs : List InstallRun)
    (states : List Installation) : Prop where
  holds : List.Forall₂ (fun run s => ∀ event ∈ bridgeEvents, Holds s.root event (run.command event))
    runs states
  grows : ∀ s' ∈ states, s.written.card ≤ s'.written.card
  constant : (∀ s' ∈ states, s'.written.card = s.written.card) ↔
    ∀ run' ∈ (run :: runs).dropLast, run'.Claimed

theorem trace_behind (present : s.Present) (installed : s.install run = .ok s')
    (mergeable : Mergeable s'.root) (runs : List InstallRun) :
    ∃ states, s'.trace runs = .ok states ∧ Behind run s' runs states := by
  induction runs generalizing s s' run with
  | nil => exact ⟨[], rfl, .nil, by simp, by simp⟩
  | cons next runs ih =>
      obtain ⟨root'', merged⟩ := mergeable.merged next.command
      have installed' : s'.install next = .ok ⟨root'', s'.written ∪ writtenAt s'.root⟩ :=
        Installation.install_eq_ok.mpr ⟨root'', merged, rfl⟩
      obtain ⟨states, later, behind⟩ :=
        ih (present.install installed) installed' (eventGroups_merged merged).1
      have step := (card_install_iff installed').trans (writtenAt_subset_iff present installed)
      have more := card_le_install installed'
      refine ⟨⟨root'', s'.written ∪ writtenAt s'.root⟩ :: states, ?_,
        .cons (fun event member => holds_merged merged member) behind.holds, ?_, ?_⟩
      · simp only [Installation.trace, installed', later, bind, Except.bind]
      · exact List.forall_mem_cons.mpr ⟨more, fun s member => more.trans (behind.grows s member)⟩
      · rw [List.forall_mem_cons, step, List.dropLast_cons_cons, List.forall_mem_cons, ← behind.constant]
        refine and_congr_right fun claimed => ?_
        rw [step.mpr claimed]

/-- Installations keep to the handlers of the first one exactly if the recognizer finds the
command of every run but the last. -/
theorem reinstalls_iff (mergeable : Mergeable root) (runs : List InstallRun) :
    Reinstalls root runs ↔ ∀ run ∈ runs.dropLast, run.Claimed := by
  cases runs with
  | nil => exact ⟨by simp, fun _ => ⟨[], rfl, .nil, by simp⟩⟩
  | cons run runs =>
      obtain ⟨root', merged⟩ := mergeable.merged run.command
      have installed : Installation.install ⟨root, ∅⟩ run = .ok ⟨root', ∅ ∪ writtenAt root⟩ :=
        Installation.install_eq_ok.mpr ⟨root', merged, rfl⟩
      have present : Installation.Present ⟨root, ∅⟩ := fun place member =>
        absurd member (Finset.notMem_empty place)
      obtain ⟨states, later, behind⟩ :=
        trace_behind present installed (eventGroups_merged merged).1 runs
      have trace : Installation.trace ⟨root, ∅⟩ (run :: runs) =
          .ok (⟨root', ∅ ∪ writtenAt root⟩ :: states) := by
        simp only [Installation.trace, installed, later, bind, Except.bind]
      rw [← behind.constant]
      constructor
      · rintro ⟨states', trace', -, same⟩ s member
        obtain rfl := Except.ok.inj (trace.symm.trans trace')
        exact same _ rfl s (.tail _ member)
      · intro same
        refine ⟨_, trace, .cons (fun event member => holds_merged merged member) behind.holds, ?_⟩
        intro first found
        obtain rfl := Option.some.inj found
        exact List.forall_mem_cons.mpr ⟨rfl, same⟩

end

/-- An installation for Codex, with a path that is given. -/
def codexRun (binary : String) : InstallRun :=
  ⟨.codex, some binary, ⟨none, none, none⟩, none, binary, rfl⟩

theorem reinstalls_agentHook :
    Reinstalls (.obj []) [codexRun "/opt/agent-hook", codexRun "/usr/bin/agent-hook"] :=
  (reinstalls_iff ⟨fun _ => "", _, rfl⟩ _).mpr fun run member => by
    obtain rfl := List.mem_singleton.mp member
    exact ⟨by decide, fun _ => by decide⟩

/-- With another name the second installation appends handlers of its own. -/
theorem not_reinstalls_otherName :
    ¬ Reinstalls (.obj []) [codexRun "/opt/my-hook", codexRun "/opt/my-hook"] := by
  rintro ⟨states, trace, -, same⟩
  have counts : (Installation.trace ⟨.obj [], ∅⟩
      [codexRun "/opt/my-hook", codexRun "/opt/my-hook"]).map (List.map (·.written.card)) =
        .ok [3, 6] := by decide +kernel
  rw [trace] at counts
  match states, counts with
  | [first, second], counts =>
      obtain ⟨three, six⟩ : first.written.card = 3 ∧ second.written.card = 6 := by
        simpa [Except.map] using counts
      have equal := same first rfl second (by simp)
      omega

end AgentOtelBridge.HookMerge
