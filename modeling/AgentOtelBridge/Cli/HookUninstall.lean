import AgentOtelBridge.Cli.HookLiteral
import AgentOtelBridge.Cli.HookMerge

/-!
# Uninstalling hooks

`uninstall_standard_hooks` removes the handlers of the bridge from the events of a
configuration, and then every group whose handlers are an empty list.  It does not ask
what made the list empty: a group that was empty before is removed as well.

Where no group is empty, exactly what the bridge owns is removed, and what was installed
is uninstalled again.
-/

namespace AgentOtelBridge.HookMerge

open Json HookCommand

/-! ## The removal -/

/-- `handlers.retain` of a group. -/
def removeHandlers (group : Json) : Json :=
  mapObject (modifyField "hooks" (mapArray (List.filter fun handler => !ownsCommand handler))) group

/-- The group has a list of no handlers. -/
def isEmptyGroup (group : Json) : Bool := handlersOf group = some []

/-- The groups of an event, by handlers and then by groups. -/
def uninstallGroups (groups : List Json) : List Json :=
  (groups.map removeHandlers).filter fun group => !isEmptyGroup group

/-- A handler or a group of the event is removed. -/
def uninstallChanges (groups : List Json) : Bool :=
  (groups.any fun group => (handlersOf group).any fun handlers =>
      handlers.length ≠ (handlers.filter fun handler => !ownsCommand handler).length) ||
    (uninstallGroups groups).length ≠ groups.length

/-- One event of the loop. -/
def uninstallEvent (s : Fields × Bool) (event : String) : Fields × Bool :=
  match getField event s.1 with
  | some (.arr groups) =>
      (modifyField event (fun _ => .arr (uninstallGroups groups)) s.1, s.2 || uninstallChanges groups)
  | _ => s

/-- A configuration without the hooks of the bridge, and whether it has changed. -/
def uninstallHooks (root : Json) : Json × Bool :=
  match root with
  | .obj fields =>
      match getField "hooks" fields with
      | some (.obj hooks) =>
          let (hooks, changed) := bridgeEvents.foldl uninstallEvent (hooks, false)
          (.obj (modifyField "hooks" (fun _ => .obj hooks) fields), changed)
      | _ => (root, false)
  | _ => (root, false)

/-- `uninstall_standard_hooks`: the file afterwards, and what is reported. -/
def uninstallStandardHooks (parse : String → Option Json) (pretty : Json → String)
    (file : Option String) : Option String × Bool :=
  match file with
  | none => (none, false)
  | some content =>
      match parse content with
      | none => (file, false)
      | some root =>
          let (root, changed) := uninstallHooks root
          if changed then (some (pretty root), true) else (file, false)

/-! ## Groups -/

section

variable {group : Json} {groups groups' : List Json}

theorem handlersOf_removeHandlers (group : Json) :
    handlersOf (removeHandlers group) =
      (handlersOf group).map (List.filter fun handler => !ownsCommand handler) := by
  cases group with
  | null | bool | num | str | arr => rfl
  | obj fields =>
      unfold removeHandlers mapObject
      rw [handlersOf_obj, handlersOf_obj, getField_modifyField_self]
      cases getField "hooks" fields with
      | none => rfl
      | some value => cases value <;> rfl

/-- A group that has no handler of the bridge stays as it is. -/
theorem removeHandlers_eq_self (foreign : hasOwned ownsCommand group = false) :
    removeHandlers group = group := by
  cases group with
  | null | bool | num | str | arr => rfl
  | obj fields =>
      refine congrArg Json.obj (modifyField_eq_self fun value found => ?_)
      cases value with
      | null | bool | num | str | obj => rfl
      | arr handlers =>
          have none_ : handlers.any ownsCommand = false := by
            unfold hasOwned at foreign
            rw [handlersOf_obj, found] at foreign
            exact foreign
          refine congrArg Json.arr (List.filter_eq_self.mpr fun handler member => ?_)
          have other := List.any_eq_false.mp none_ handler member
          simpa using other

/-- Its handlers are removed from a group, or the group is removed, if all of them were
handlers of the bridge. -/
inductive Uninstalled : List Json → List Json → Prop
  | nil : Uninstalled [] []
  | keep {group : Json} {groups groups' : List Json} (rest : Uninstalled groups groups') :
      Uninstalled (group :: groups) (removeHandlers group :: groups')
  | remove {group : Json} {groups groups' : List Json} (owned : allOwned ownsCommand group = true)
      (rest : Uninstalled groups groups') : Uninstalled (group :: groups) groups'

theorem isEmptyGroup_removeHandlers (group : Json) :
    isEmptyGroup (removeHandlers group) = (isEmptyGroup group || allOwned ownsCommand group) := by
  unfold isEmptyGroup allOwned
  rw [handlersOf_removeHandlers]
  cases handlersOf group with
  | none => rfl
  | some handlers =>
      rw [Bool.eq_iff_iff]
      cases handlers <;> simp

theorem uninstallGroups_cons (group : Json) (groups : List Json) :
    uninstallGroups (group :: groups) =
      if isEmptyGroup group || allOwned ownsCommand group then uninstallGroups groups
      else removeHandlers group :: uninstallGroups groups := by
  unfold uninstallGroups
  rw [List.map_cons, List.filter_cons, isEmptyGroup_removeHandlers]
  cases isEmptyGroup group || allOwned ownsCommand group <;> rfl

/-- Exactly what the bridge owns is removed where no group is empty. -/
theorem uninstalled_iff :
    Uninstalled groups (uninstallGroups groups) ↔ ∀ group ∈ groups, isEmptyGroup group = false := by
  constructor
  · intro exact_ group member
    by_contra empty
    have empty : isEmptyGroup group = true := by simpa using empty
    have solid : ∀ group ∈ uninstallGroups groups, isEmptyGroup group = false := by
      intro group member
      simpa using (List.mem_filter.mp member).2
    -- An empty group can only be kept, and is empty then.
    generalize uninstallGroups groups = groups' at exact_ solid
    induction exact_ with
    | nil => cases member
    | @keep first groups groups' rest ih =>
        rcases List.mem_cons.mp member with rfl | member
        · have kept := solid _ (.head _)
          rw [isEmptyGroup_removeHandlers, empty] at kept
          cases kept
        · exact ih member fun group there => solid group (.tail _ there)
    | @remove first groups groups' owned rest ih =>
        rcases List.mem_cons.mp member with rfl | member
        · unfold isEmptyGroup at empty
          unfold allOwned at owned
          rw [decide_eq_true_eq] at empty
          rw [empty] at owned
          cases owned
        · exact ih member solid
  · intro solid
    induction groups with
    | nil => exact .nil
    | cons group groups ih =>
        obtain ⟨first, rest⟩ := List.forall_mem_cons.mp solid
        rw [uninstallGroups_cons, first, Bool.false_or]
        split
        next owned => exact .remove owned (ih rest)
        next => exact .keep (ih rest)

/-- Groups that are not empty and have no handler of the bridge stay as they are. -/
theorem uninstallGroups_eq_self (solid : ∀ group ∈ groups, isEmptyGroup group = false)
    (foreign : ∀ group ∈ groups, hasOwned ownsCommand group = false) :
    uninstallGroups groups = groups := by
  induction groups with
  | nil => rfl
  | cons group groups ih =>
      obtain ⟨first, solid⟩ := List.forall_mem_cons.mp solid
      obtain ⟨other, foreign⟩ := List.forall_mem_cons.mp foreign
      have unowned : allOwned ownsCommand group = false := by
        by_contra owned
        rw [hasOwned_of_allOwned (by simpa using owned)] at other
        cases other
      rw [uninstallGroups_cons, first, unowned, removeHandlers_eq_self other, ih solid foreign]
      rfl

theorem uninstallChanges_foreign (solid : ∀ group ∈ groups, isEmptyGroup group = false)
    (foreign : ∀ group ∈ groups, hasOwned ownsCommand group = false) :
    uninstallChanges groups = false := by
  unfold uninstallChanges
  rw [uninstallGroups_eq_self solid foreign, Bool.or_eq_false_iff, List.any_eq_false]
  refine ⟨fun group member => ?_, by simp⟩
  have none_ := foreign group member
  unfold hasOwned at none_
  cases found : handlersOf group with
  | none => exact Bool.false_ne_true
  | some handlers =>
      rw [found] at none_
      have kept : handlers.filter (fun handler => !ownsCommand handler) = handlers := by
        refine List.filter_eq_self.mpr fun handler there => ?_
        simpa using List.any_eq_false.mp none_ handler there
      simp [kept]

theorem uninstallChanges_eq_false (h : uninstallChanges groups = false) :
    uninstallGroups groups = groups := by
  unfold uninstallChanges at h
  rw [Bool.or_eq_false_iff, List.any_eq_false, decide_eq_false_iff_not, ne_eq, not_not] at h
  obtain ⟨handlers_, length⟩ := h
  have same : groups.map removeHandlers = groups := by
    refine (List.map_congr_left fun group member => ?_).trans (List.map_id groups)
    refine removeHandlers_eq_self ?_
    have kept := handlers_ group member
    unfold hasOwned
    cases found : handlersOf group with
    | none => rfl
    | some handlers =>
        rw [found] at kept
        have all : handlers.length = (handlers.filter fun handler => !ownsCommand handler).length := by
          simpa using kept
        have foreign := List.length_filter_eq_length_iff.mp all.symm
        exact List.any_eq_false.mpr fun handler there => by simpa using foreign handler there
  unfold uninstallGroups at length ⊢
  rw [same] at length ⊢
  exact List.filter_eq_self.mpr (List.length_filter_eq_length_iff.mp length)

end

/-! ## Events -/

section

variable {hooks : Fields} {event k : String} {events : List String}

def valueChanges : Option Json → Bool
  | some (.arr groups) => uninstallChanges groups
  | _ => false

theorem uninstallEvent_eq (s : Fields × Bool) (event : String) :
    uninstallEvent s event = (modifyField event (mapArray uninstallGroups) s.1,
      s.2 || valueChanges (getField event s.1)) := by
  have other : (∀ value, getField event s.1 = some value → mapArray uninstallGroups value = value) →
      valueChanges (getField event s.1) = false →
        s = (modifyField event (mapArray uninstallGroups) s.1,
          s.2 || valueChanges (getField event s.1)) := by
    intro fixed idle
    rw [modifyField_eq_self fixed, idle, Bool.or_false]
  unfold uninstallEvent
  cases found : getField event s.1 with
  | none =>
      rw [found] at other
      exact other nofun rfl
  | some value =>
      cases value with
      | arr groups =>
          refine Prod.ext ?_ rfl
          show modifyField event (fun _ => .arr (uninstallGroups groups)) s.1 = _
          rw [modifyField_eq_insertField found, modifyField_eq_insertField found]
          rfl
      | null | bool | num | str | obj =>
          rw [found] at other
          exact other (fun value same => by obtain rfl := Option.some.inj same; rfl) rfl

/-- The loop, by the values of the events before it. -/
structure LoopResult (events : List String) (s s' : Fields × Bool) : Prop where
  listed : ∀ k ∈ events, getField k s'.1 = (getField k s.1).map (mapArray uninstallGroups)
  others : ∀ k, k ∉ events → getField k s'.1 = getField k s.1
  rest : ∀ touched, events ⊆ touched → without touched s'.1 = without touched s.1
  changed : s'.2 = (s.2 || events.any fun event => valueChanges (getField event s.1))
  same : s'.2 = false → s'.1 = s.1

theorem valueChanges_eq_false {old : Option Json} (idle : valueChanges old = false) :
    ∀ value, old = some value → mapArray uninstallGroups value = value := by
  rintro value rfl
  cases value with
  | arr groups => exact congrArg Json.arr (uninstallChanges_eq_false idle)
  | null | bool | num | str | obj => rfl

theorem foldl_uninstallEvent (distinct : events.Nodup) (s : Fields × Bool) :
    LoopResult events s (events.foldl uninstallEvent s) := by
  induction events generalizing s with
  | nil => exact ⟨nofun, fun _ _ => rfl, fun _ _ => rfl, (Bool.or_false _).symm, fun _ => rfl⟩
  | cons event events ih =>
      obtain ⟨fresh, distinct⟩ := List.nodup_cons.mp distinct
      have next_ := ih distinct (uninstallEvent s event)
      rw [List.foldl_cons]
      rw [uninstallEvent_eq] at next_ ⊢
      have apart : ∀ k ∈ events, k ≠ event := fun k listed same => fresh (same ▸ listed)
      have changed : (events.any fun k => valueChanges (getField k
          (modifyField event (mapArray uninstallGroups) s.1))) =
            events.any fun k => valueChanges (getField k s.1) := by
        rw [Bool.eq_iff_iff, List.any_eq_true, List.any_eq_true]
        constructor <;>
        · rintro ⟨k, listed, changes⟩
          refine ⟨k, listed, ?_⟩
          simpa only [getField_modifyField_ne (apart k listed)] using changes
      refine ⟨fun k listed => ?_, fun k unlisted => ?_, fun touched subset => ?_, ?_,
        fun idle => ?_⟩
      · rcases List.mem_cons.mp listed with rfl | listed
        · rw [next_.others k fresh, getField_modifyField_self]
        · rw [next_.listed k listed, getField_modifyField_ne (apart k listed)]
      · obtain ⟨other, unlisted⟩ := not_or.mp (mt List.mem_cons.mpr unlisted)
        rw [next_.others k unlisted, getField_modifyField_ne other]
      · obtain ⟨first, subset⟩ := List.cons_subset.mp subset
        rw [next_.rest touched subset, without_modifyField first]
      · rw [next_.changed, List.any_cons, changed, Bool.or_assoc]
      · have same := next_.same idle
        rw [next_.changed, Bool.or_eq_false_iff, Bool.or_eq_false_iff] at idle
        rw [same]
        exact modifyField_eq_self (valueChanges_eq_false idle.1.2)

end

/-! ## Configurations -/

/-- The groups of an event of a configuration. -/
def eventGroups (root : Json) (event : String) : Option (List Json) :=
  ((root.get "hooks").bind (·.get event)).bind asArray

/-- No handler of the bridge's events is of the bridge. -/
def Foreign (root : Json) : Prop :=
  ∀ event ∈ bridgeEvents, ∀ groups, eventGroups root event = some groups →
    ∀ group ∈ groups, hasOwned ownsCommand group = false

/-- No group of the bridge's events has a list of no handlers. -/
def Solid (root : Json) : Prop :=
  ∀ event ∈ bridgeEvents, ∀ groups, eventGroups root event = some groups →
    ∀ group ∈ groups, isEmptyGroup group = false

/-- The value of an event, with what the bridge owns removed from its groups. -/
def EventUninstalled (old new : Option Json) : Prop :=
  match old with
  | some (.arr groups) => ∃ groups', new = some (.arr groups') ∧ Uninstalled groups groups'
  | _ => new = old

/-- What the bridge owns is removed from the events of a configuration, and all else is
as it was. -/
def RootUninstalled (root root' : Json) : Prop :=
  match root with
  | .obj fields =>
      match getField "hooks" fields with
      | some (.obj hooks) => ∃ fields' hooks', root' = .obj fields' ∧
          without ["hooks"] fields' = without ["hooks"] fields ∧
          getField "hooks" fields' = some (.obj hooks') ∧
          without bridgeEvents hooks' = without bridgeEvents hooks ∧
          ∀ event ∈ bridgeEvents, EventUninstalled (getField event hooks) (getField event hooks')
      | _ => root' = root
  | _ => root' = root

/-- A configuration without hooks of the bridge that hooks can be installed in. -/
structure Installable (command : String → String) (root root' : Json) : Prop where
  merged : mergeFormattedHooks command root = .ok root'
  foreign : Foreign root
  legacy : root.get "agent-otel-bridge" = none

/-- What `uninstall_standard_hooks` is to do to a file with a configuration. -/
structure UninstallsExactly (parse : String → Option Json) (pretty : Json → String)
    (command : String → String) (content : String) (root : Json) : Prop where
  removes : RootUninstalled root (uninstallHooks root).1
  writes : uninstallStandardHooks parse pretty (some content) =
    if (uninstallHooks root).2 then (some (pretty (uninstallHooks root).1), true)
    else (some content, false)
  unchanged : (uninstallHooks root).2 = false → (uninstallHooks root).1 = root
  idle : Foreign root → uninstallStandardHooks parse pretty (some content) = (some content, false)
  givesBack : ∀ root', Installable command root root' →
    ∀ event, (eventGroups (uninstallHooks root').1 event).getD [] =
      (eventGroups root event).getD []

section

variable {root root' : Json} {fields hooks : Fields} {event : String}

theorem eventGroups_obj (found : getField "hooks" fields = some (.obj hooks)) (event : String) :
    eventGroups (.obj fields) event = (getField event hooks).bind asArray := by
  rw [eventGroups, get_obj, found]
  rfl

theorem eventGroups_eq_some (found : getField "hooks" fields = some (.obj hooks))
    {groups : List Json} :
    eventGroups (.obj fields) event = some groups ↔ getField event hooks = some (.arr groups) := by
  rw [eventGroups_obj found, Option.bind_eq_some_iff]
  constructor
  · rintro ⟨value, found, array⟩
    cases value with
    | arr groups' =>
        obtain rfl := Option.some.inj array
        exact found
    | null | bool | num | str | obj => cases array
  · exact fun found => ⟨_, found, rfl⟩

/-- The hooks of a configuration, by the loop over its events. -/
theorem uninstallHooks_obj (found : getField "hooks" fields = some (.obj hooks)) :
    ∃ s, LoopResult bridgeEvents (hooks, false) s ∧
      uninstallHooks (.obj fields) = (.obj (modifyField "hooks" (fun _ => .obj s.1) fields), s.2) := by
  refine ⟨_, foldl_uninstallEvent bridgeEvents_nodup (hooks, false), ?_⟩
  simp only [uninstallHooks, found]

/-- A configuration that has no hooks is left alone. -/
theorem uninstallHooks_other (absent : ∀ fields hooks, root = .obj fields →
    getField "hooks" fields ≠ some (.obj hooks)) : uninstallHooks root = (root, false) := by
  cases root with
  | null | bool | num | str | arr => rfl
  | obj fields =>
      unfold uninstallHooks
      cases found : getField "hooks" fields with
      | none => simp [found]
      | some value =>
          cases value with
          | obj hooks => exact absurd found (absent fields hooks rfl)
          | null | bool | num | str | arr => simp [found]

/-- Exactly what the bridge owns is removed from a configuration without empty groups. -/
theorem rootUninstalled_iff : RootUninstalled root (uninstallHooks root).1 ↔ Solid root := by
  by_cases there : ∃ fields hooks, root = .obj fields ∧ getField "hooks" fields = some (.obj hooks)
  · obtain ⟨fields, hooks, rfl, found⟩ := there
    obtain ⟨s, loop, result⟩ := uninstallHooks_obj found
    have events : ∀ event ∈ bridgeEvents,
        EventUninstalled (getField event hooks) (getField event s.1) ↔
          ∀ groups, eventGroups (.obj fields) event = some groups →
            ∀ group ∈ groups, isEmptyGroup group = false := by
      intro event listed
      simp only [eventGroups_eq_some found]
      rw [loop.listed event listed]
      show EventUninstalled (getField event hooks) ((getField event hooks).map _) ↔ _
      cases getField event hooks with
      | none => simp [EventUninstalled]
      | some value =>
          cases value with
          | arr groups => simp [EventUninstalled, mapArray, uninstalled_iff]
          | null | bool | num | str | obj => simp [EventUninstalled, mapArray]
    rw [result]
    unfold RootUninstalled
    simp only [found]
    constructor
    · rintro ⟨fields', hooks', same, -, found', -, uninstalled⟩ event listed
      obtain rfl := Json.obj.inj same
      rw [getField_modifyField_self, found] at found'
      obtain rfl := Json.obj.inj (Option.some.inj found')
      exact (events event listed).mp (uninstalled event listed)
    · intro solid
      refine ⟨_, s.1, rfl, without_modifyField List.mem_cons_self _ _, ?_,
        loop.rest bridgeEvents (List.Subset.refl _), fun event listed =>
          (events event listed).mpr (solid event listed)⟩
      rw [getField_modifyField_self, found]
      rfl
  · have absent : ∀ fields hooks, root = .obj fields → getField "hooks" fields ≠ some (.obj hooks) :=
      fun fields hooks same found => there ⟨fields, hooks, same, found⟩
    rw [uninstallHooks_other absent]
    have idle : RootUninstalled root root := by
      unfold RootUninstalled
      cases root with
      | null | bool | num | str | arr => rfl
      | obj fields =>
          cases found : getField "hooks" fields with
          | none => simp [found]
          | some value =>
              cases value with
              | obj hooks => exact absurd found (absent fields hooks rfl)
              | null | bool | num | str | arr => simp [found]
    refine iff_of_true idle fun event listed groups found => ?_
    cases root with
    | null | bool | num | str | arr => cases found
    | obj fields =>
        rw [eventGroups, get_obj] at found
        cases hooks_ : getField "hooks" fields with
        | none => simp [hooks_] at found
        | some value =>
            cases value with
            | obj hooks => exact absurd hooks_ (absent fields hooks rfl)
            | null | bool | num | str | arr => simp [hooks_, Json.get] at found

/-- A configuration that does not change stays as it is. -/
theorem uninstallHooks_unchanged (idle : (uninstallHooks root).2 = false) :
    (uninstallHooks root).1 = root := by
  by_cases there : ∃ fields hooks, root = .obj fields ∧ getField "hooks" fields = some (.obj hooks)
  · obtain ⟨fields, hooks, rfl, found⟩ := there
    obtain ⟨s, loop, result⟩ := uninstallHooks_obj found
    rw [result] at idle ⊢
    refine congrArg Json.obj (modifyField_eq_self fun value same => ?_)
    rw [found] at same
    rw [loop.same idle]
    exact Option.some.inj same
  · rw [uninstallHooks_other fun fields hooks same found => there ⟨fields, hooks, same, found⟩]

/-- Where there is nothing to remove, nothing changes. -/
theorem uninstallHooks_idle (solid : Solid root) (foreign : Foreign root) :
    (uninstallHooks root).2 = false := by
  by_cases there : ∃ fields hooks, root = .obj fields ∧ getField "hooks" fields = some (.obj hooks)
  · obtain ⟨fields, hooks, rfl, found⟩ := there
    obtain ⟨s, loop, result⟩ := uninstallHooks_obj found
    rw [result]
    show s.2 = false
    rw [loop.changed, Bool.false_or, List.any_eq_false]
    intro event listed
    show ¬ valueChanges (getField event hooks) = true
    cases value : getField event hooks with
    | none => exact Bool.false_ne_true
    | some value_ =>
        cases value_ with
        | null | bool | num | str | obj => exact Bool.false_ne_true
        | arr groups =>
            have at_ := (eventGroups_eq_some found).mpr value
            have other := foreign event listed groups at_
            simpa [valueChanges] using uninstallChanges_foreign (solid event listed groups at_) other
  · rw [uninstallHooks_other fun fields hooks same found => there ⟨fields, hooks, same, found⟩]

end

/-! ## What is installed is uninstalled -/

section

variable {command event : String} {groups : List Json}

theorem allOwned_standardEntry (event command : String) :
    allOwned ownsCommand (standardEntry event command) = isBridgeCommand command ∧
      isEmptyGroup (standardEntry event command) = false := by
  have handlers : handlersOf (standardEntry event command) = some [.obj [("command", .str command),
      ("timeout", .num "5"), ("type", .str "command")]] := by
    unfold standardEntry
    split <;> rfl
  constructor
  · simp [allOwned, handlers, ownsCommand, commandOf, getField_cons, asStr]
  · simp [isEmptyGroup, handlers]

theorem dropMatcher_standardEntry (command : String) :
    dropMatcher (standardEntry "Stop" command) = standardEntry "Stop" command := by
  unfold dropMatcher
  split <;> rfl

/-- To groups without handlers of the bridge, one is appended. -/
theorem standardGroups_foreign (foreign : ∀ group ∈ groups, hasOwned ownsCommand group = false)
    (command event : String) :
    standardGroups command event groups = groups ++ [standardEntry event command] := by
  have same : groups.map (updateGroup ownsCommand command) = groups := by
    refine (List.map_congr_left fun group member => ?_).trans (List.map_id groups)
    refine updateGroup_eq_self fun handlers found handler there => if_neg fun owned => ?_
    have none_ := foreign group member
    unfold hasOwned at none_
    rw [found] at none_
    exact List.any_eq_false.mp none_ handler there owned
  have none_ : groups.any (hasOwned ownsCommand) = false :=
    List.any_eq_false.mpr fun group member => by simp [foreign group member]
  have merged : mergeGroups ownsCommand command (standardEntry event command) groups =
      groups ++ [standardEntry event command] := by
    unfold mergeGroups
    rw [none_, same]
    rfl
  unfold standardGroups
  rw [merged]
  simp only
  split
  next stop =>
    subst stop
    rw [List.map_append, List.map_singleton, dropMatcher_standardEntry]
    refine congrArg (· ++ _) ((List.map_congr_left fun group member => ?_).trans (List.map_id groups))
    refine if_neg fun owned => ?_
    have other := foreign group member
    rw [hasOwned_of_allOwned owned] at other
    cases other
  next => rfl

/-- The group that was appended is removed again if its command is recognized. -/
theorem uninstallGroups_standardGroups (solid : ∀ group ∈ groups, isEmptyGroup group = false)
    (foreign : ∀ group ∈ groups, hasOwned ownsCommand group = false) :
    uninstallGroups (standardGroups command event groups) = groups ↔ isBridgeCommand command = true := by
  obtain ⟨owned, solid_⟩ := allOwned_standardEntry event command
  have kept := uninstallGroups_eq_self solid foreign
  have split_ : uninstallGroups (groups ++ [standardEntry event command]) =
      groups ++ uninstallGroups [standardEntry event command] := by
    unfold uninstallGroups at kept ⊢
    rw [List.map_append, List.filter_append, kept]
  rw [standardGroups_foreign foreign, split_, uninstallGroups_cons, solid_, owned, Bool.false_or]
  cases isBridgeCommand command with
  | true => simp [uninstallGroups]
  | false => simp [uninstallGroups]

end

section

variable {command : String → String} {root root' : Json} {fields hooks : Fields}

theorem eventGroups_getD (isHooks : HooksOf fields hooks) (event : String) :
    (eventGroups (.obj fields) event).getD [] = groupsOf (getField event hooks) := by
  unfold HooksOf at isHooks
  cases found : getField "hooks" fields with
  | none =>
      rw [found] at isHooks
      obtain rfl : [] = hooks := by simpa using isHooks
      rw [eventGroups, get_obj, found]
      rfl
  | some value =>
      rw [found] at isHooks
      obtain rfl : value = .obj hooks := isHooks
      rw [eventGroups_obj found]
      rfl

theorem groups_of_groupsOf {event : String} (isHooks : HooksOf fields hooks) {p : Json → Bool}
    (all : ∀ groups, eventGroups (.obj fields) event = some groups → ∀ group ∈ groups, p group = false) :
    ∀ group ∈ groupsOf (getField event hooks), p group = false := by
  intro group member
  rw [← eventGroups_getD isHooks] at member
  cases found : eventGroups (.obj fields) event with
  | none =>
      rw [found] at member
      cases member
  | some groups =>
      rw [found] at member
      exact all groups found group member

/-- **Uninstalling gives back what there was**, if the commands are recognized. -/
theorem givesBack_iff (installed : Installable command root root') (solid : Solid root) :
    (∀ event, (eventGroups (uninstallHooks root').1 event).getD [] =
      (eventGroups root event).getD []) ↔
        ∀ event ∈ bridgeEvents, isBridgeCommand (command event) = true := by
  obtain ⟨fields, hooks, rfl, isHooks, checked, rfl⟩ := mergeFormattedHooks_eq_ok.mp installed.merged
  have found : getField "hooks" (standardRoot command fields hooks) =
      some (.obj (updateFields bridgeEvents (standardValue command) hooks)) :=
    getField_insertField_self ..
  obtain ⟨s, loop, result⟩ := uninstallHooks_obj found
  have found' : getField "hooks" (modifyField "hooks" (fun _ => .obj s.1)
      (standardRoot command fields hooks)) = some (.obj s.1) := by
    rw [getField_modifyField_self, found]
    rfl
  rw [result]
  simp only [eventGroups_obj found', eventGroups_getD isHooks]
  have listed : ∀ event ∈ bridgeEvents, (((getField event s.1).bind asArray).getD [] =
      groupsOf (getField event hooks) ↔ isBridgeCommand (command event) = true) := by
    intro event listed
    rw [loop.listed event listed]
    show ((((getField event (updateFields bridgeEvents (standardValue command) hooks)).map
      (mapArray uninstallGroups)).bind asArray).getD [] = _) ↔ _
    rw [getField_standardHooks listed]
    exact uninstallGroups_standardGroups (groups_of_groupsOf isHooks (solid event listed))
      (groups_of_groupsOf isHooks (installed.foreign event listed))
  constructor
  · exact fun same event member => (listed event member).mp (same event)
  · intro accepted event
    by_cases member : event ∈ bridgeEvents
    · exact (listed event member).mpr (accepted event member)
    · rw [loop.others event member]
      show ((getField event (updateFields bridgeEvents (standardValue command) hooks)).bind
        asArray).getD [] = _
      rw [getField_updateFields_of_notMem member]
      rfl

/-- A configuration is uninstalled exactly, if it has no empty group and what is installed
into it is recognized. -/
theorem uninstallsExactly_iff {parse : String → Option Json} (pretty : Json → String)
    (command : String → String) {content : String} (parsed : parse content = some root) :
    UninstallsExactly parse pretty command content root ↔
      Solid root ∧ ∀ root', Installable command root root' →
        ∀ event ∈ bridgeEvents, isBridgeCommand (command event) = true := by
  have writes : uninstallStandardHooks parse pretty (some content) =
      if (uninstallHooks root).2 then (some (pretty (uninstallHooks root).1), true)
      else (some content, false) := by
    simp only [uninstallStandardHooks, parsed]
  constructor
  · intro exact_
    have solid := rootUninstalled_iff.mp exact_.removes
    exact ⟨solid, fun root' installed =>
      (givesBack_iff installed solid).mp (exact_.givesBack root' installed)⟩
  · rintro ⟨solid, accepted⟩
    refine ⟨rootUninstalled_iff.mpr solid, writes, uninstallHooks_unchanged, fun foreign => ?_,
      fun root' installed => (givesBack_iff installed solid).mpr (accepted root' installed)⟩
    rw [writes, uninstallHooks_idle solid foreign]
    rfl

end

/-- The command of a hook in its usual place. -/
def usualCommand (event : String) : String :=
  formatPosixHookCommand "/opt/agent-hook" event (some "claude") none

theorem usualCommand_accepted : ∀ event ∈ bridgeEvents, isBridgeCommand (usualCommand event) = true := by
  have subset : bridgeEvents ⊆ hookEvents := by decide
  exact fun event member => isBridgeCommand_posix (subset member) (by decide) ⟨by decide, by decide⟩ none

/-- A configuration with one group, of no handlers. -/
def emptyGroup : Json :=
  .obj [("hooks", .obj [("PreToolUse", .arr [.obj [("hooks", .arr []), ("matcher", .str "Bash")]])])]

/-- A configuration with one group, of a handler of someone else. -/
def foreignGroup : Json :=
  .obj [("hooks", .obj [("PreToolUse", .arr [.obj [
    ("hooks", .arr [.obj [("command", .str "moshi"), ("type", .str "command")]]),
    ("matcher", .str "Bash")]])])]

theorem uninstallsExactly_foreignGroup :
    UninstallsExactly (fun _ => some foreignGroup) (fun _ => "") usualCommand "" foreignGroup ↔
      Solid foreignGroup ∧ ∀ root', Installable usualCommand foreignGroup root' →
        ∀ event ∈ bridgeEvents, isBridgeCommand (usualCommand event) = true :=
  uninstallsExactly_iff (fun _ => "") usualCommand rfl

/-- A group that was empty is removed, though no handler of it was the bridge's. -/
theorem uninstalls_emptyGroup :
    ¬ ∀ (parse : String → Option Json) (pretty : Json → String) (command : String → String)
      (content : String) (root : Json), parse content = some root →
        (∀ event ∈ bridgeEvents, isBridgeCommand (command event) = true) →
          UninstallsExactly parse pretty command content root := by
  intro claim
  have exact_ := claim (fun _ => some emptyGroup) (fun _ => "") usualCommand "" emptyGroup rfl
    usualCommand_accepted
  have solid := rootUninstalled_iff.mp exact_.removes
  exact absurd (solid "PreToolUse" (by decide) _ rfl _ (.head _)) (by decide)

end AgentOtelBridge.HookMerge
