import AgentOtelBridge.Daemon.Config
import AgentOtelBridge.Lib.Upsert

/-!
# The resource of an environment

The attributes of a resource are detected ones with those of the environment in their place.
The name of the service and the identity of the bridge are not replaced, and an empty value
replaces nothing.

The deployment environment is detected from the attributes themselves, by the last value of its
key even if that is empty.  So it is there just if a value of it is not empty.
-/

namespace AgentOtelBridge

open Upsert (occurrences upsertAll)

/-! ## Statements -/

/-- A value without white space at its ends, or another one if nothing is left. -/
def trimmedOr (otherwise : String) (value : Option String) : String :=
  match value with
  | some raw => if Text.trim raw = "" then otherwise else Text.trim raw
  | none => otherwise

section

variable (get : Vars) (os instanceId : String)

def serviceVersion : String := trimmedOr packageVersion (get "OTEL_SERVICE_VERSION")

/-- The attributes that are not replaced. -/
def ownAttributes : List (String × String) :=
  [("service.name", trimmedOr "agent-otel-bridge" (get "OTEL_SERVICE_NAME")),
    ("telemetry.sdk.name", "agent-otel-bridge"), ("telemetry.sdk.language", "rust"),
    ("telemetry.sdk.version", serviceVersion get),
    ("telemetry.distro.name", "agent-otel-bridge"),
    ("telemetry.distro.version", serviceVersion get)]

/-- The other attributes that are detected. -/
def detectedAttributes : List (String × String) :=
  [("service.version", serviceVersion get),
    ("host.name", ((get "COMPUTERNAME").or (get "HOSTNAME")).getD "localhost"),
    ("os.type", semanticOsType os)] ++
  if instanceId = "" then [] else [("service.instance.id", instanceId)]

/-- The last value of a key that is not empty. -/
def givenAttribute (key : String) : Option String :=
  ((splitBaggage ((get "OTEL_RESOURCE_ATTRIBUTES").getD "")).filter fun attr =>
    attr.1 = key ∧ attr.2 ≠ "").getLast?.map (·.2)

/-- The value that a key is to have. -/
def resourceValue (key : String) : Option String :=
  ((ownAttributes get).lookup key).or
    ((givenAttribute get key).or ((detectedAttributes get os instanceId).lookup key))

/-- The attributes of the resource of an environment. -/
def resourceAttributes : List KeyValue :=
  ((DaemonConfig.fromVars get instanceId).resource (Machine.fromVars get os)).attributes

end

/-! ## Lists of attributes -/

def kvPair (attr : String × String) : KeyValue := kvString attr.1 attr.2

theorem upsertString_eq (key value : String) (attributes : List KeyValue) :
    upsertString key value attributes =
      Upsert.upsert KeyValue.key (kvString key value) attributes := by
  induction attributes with
  | nil => rfl
  | cons kv attributes ih =>
      rw [upsertString, Upsert.upsert, ih]
      rfl

/-- An attribute of the environment that is merged. -/
def mergedAttr (attr : String × String) : Bool :=
  attr.2 ≠ "" ∧ attr.1 ≠ "service.name" ∧ ¬ sdkIdentityKey attr.1

theorem foldl_upsertString (extra : List (String × String)) (detected : List KeyValue) :
    extra.foldl (fun attributes attr =>
      if attr.2 = "" ∨ attr.1 = "service.name" ∨ sdkIdentityKey attr.1 then attributes
      else upsertString attr.1 attr.2 attributes) detected =
    upsertAll KeyValue.key ((extra.filter mergedAttr).map kvPair) detected := by
  induction extra generalizing detected with
  | nil => rfl
  | cons attr extra ih =>
      rw [List.foldl_cons, ih, List.filter_cons]
      split
      next skipped =>
        have unmerged : mergedAttr attr = false := by
          simp only [mergedAttr, decide_eq_false_iff_not]
          tauto
        rw [unmerged]
        rfl
      next kept =>
        have merged : mergedAttr attr = true := by
          simp only [mergedAttr, decide_eq_true_eq]
          tauto
        rw [merged, upsertString_eq]
        rfl

/-- In a list of distinct keys, a key is looked up once. -/
theorem occurrences_kvPair {pairs : List (String × String)} (distinct : (pairs.map Prod.fst).Nodup)
    (key : String) :
    occurrences KeyValue.key key (pairs.map kvPair) =
      ((pairs.lookup key).map (kvString key)).toList := by
  induction pairs with
  | nil => rfl
  | cons attr pairs ih =>
      obtain ⟨name, value⟩ := attr
      rw [List.map_cons, List.nodup_cons] at distinct
      rw [List.map_cons, Upsert.occurrences_cons, ih distinct.2, List.lookup_cons]
      by_cases same : key = name
      · subst same
        have absent : pairs.lookup key = none := by
          refine List.lookup_eq_none_iff.mpr fun other member => ?_
          rw [bne_iff_ne]
          exact fun same => distinct.1 (List.mem_map.mpr ⟨other, member, same.symm⟩)
        rw [if_pos (show (kvPair (key, value)).key = key from rfl), absent, beq_self_eq_true]
        rfl
      · rw [if_neg (show (kvPair (name, value)).key ≠ key from Ne.symm same),
          beq_eq_false_iff_ne.mpr same]

/-- The last entry of a key, of those that are merged. -/
theorem getLast?_merged (extra : List (String × String)) (key : String) :
    (occurrences KeyValue.key key ((extra.filter mergedAttr).map kvPair)).getLast? =
      if key = "service.name" ∨ sdkIdentityKey key then none
      else ((extra.filter fun attr => attr.1 = key ∧ attr.2 ≠ "").getLast?).map
        fun attr => kvString key attr.2 := by
  have picked : occurrences KeyValue.key key ((extra.filter mergedAttr).map kvPair) =
      (extra.filter fun attr => attr.1 = key ∧ mergedAttr attr).map kvPair := by
    rw [occurrences, List.filter_map, List.filter_filter]
    refine congrArg (List.map kvPair) (List.filter_congr fun attr _ => ?_)
    rw [Bool.decide_and, Bool.decide_eq_true]
    rfl
  rw [picked, List.getLast?_map]
  split
  next reserved =>
    have empty : (extra.filter fun attr => attr.1 = key ∧ mergedAttr attr) = [] := by
      refine List.filter_eq_nil_iff.mpr fun attr _ hit => ?_
      simp only [mergedAttr, decide_eq_true_eq] at hit
      obtain ⟨rfl, _, notName, notSdk⟩ := hit
      exact reserved.elim notName notSdk
    rw [empty]
    rfl
  next free =>
    have same : (extra.filter fun attr => attr.1 = key ∧ mergedAttr attr) =
        extra.filter fun attr => attr.1 = key ∧ attr.2 ≠ "" := by
      refine List.filter_congr fun attr _ => ?_
      simp only [mergedAttr, decide_eq_decide, decide_eq_true_eq]
      constructor
      · exact fun hit => ⟨hit.1, hit.2.1⟩
      · rintro ⟨rfl, nonempty⟩
        exact ⟨rfl, nonempty, not_or.mp free⟩
    rw [same]
    cases last : (extra.filter fun attr => attr.1 = key ∧ attr.2 ≠ "").getLast? with
    | none => rfl
    | some attr =>
        have keyed := (List.mem_filter.mp (List.mem_of_getLast? last)).2
        rw [decide_eq_true_eq] at keyed
        rw [Option.map_some, Option.map_some, kvPair, keyed.1]

/-! ## The detected attributes -/

variable (get : Vars) (os instanceId : String)

theorem nonEmpty_getD (otherwise : String) (value : Option String) :
    (nonEmpty value).getD otherwise = trimmedOr otherwise value := by
  cases value with
  | none => rfl
  | some raw =>
      simp only [nonEmpty, trimmedOr, Option.bind_some]
      split
      next => rfl
      next => rfl

/-- The attributes that `build_resource_with` starts from. -/
def detectedPairs (environment : String) : List (String × String) :=
  [("service.name", trimmedOr "agent-otel-bridge" (get "OTEL_SERVICE_NAME")),
    ("service.version", serviceVersion get),
    ("host.name", ((get "COMPUTERNAME").or (get "HOSTNAME")).getD "localhost"),
    ("os.type", semanticOsType os),
    ("telemetry.sdk.name", "agent-otel-bridge"), ("telemetry.sdk.language", "rust"),
    ("telemetry.sdk.version", serviceVersion get),
    ("telemetry.distro.name", "agent-otel-bridge"),
    ("telemetry.distro.version", serviceVersion get)] ++
  (if environment = "" then [] else [("deployment.environment", environment)]) ++
  (if instanceId = "" then [] else [("service.instance.id", instanceId)])

/-- Without a list there are no attributes. -/
theorem givenList_eq : ((get "OTEL_RESOURCE_ATTRIBUTES").map splitBaggage).getD [] =
    splitBaggage ((get "OTEL_RESOURCE_ATTRIBUTES").getD "") := by
  cases get "OTEL_RESOURCE_ATTRIBUTES" with
  | none => rfl
  | some raw => rfl

theorem resourceAttributes_eq :
    resourceAttributes get os instanceId =
      upsertAll KeyValue.key
        (((splitBaggage ((get "OTEL_RESOURCE_ATTRIBUTES").getD "")).filter mergedAttr).map kvPair)
        ((detectedPairs get os instanceId (parseOtlpEnv get).environment).map kvPair) := by
  have attrs : (DaemonConfig.fromVars get instanceId).resourceAttributes =
      splitBaggage ((get "OTEL_RESOURCE_ATTRIBUTES").getD "") := givenList_eq get
  simp only [resourceAttributes, DaemonConfig.resource, buildResourceWith]
  rw [foldl_upsertString, attrs]
  have name : (DaemonConfig.fromVars get instanceId).serviceName =
      trimmedOr "agent-otel-bridge" (get "OTEL_SERVICE_NAME") := nonEmpty_getD _ _
  have version : (DaemonConfig.fromVars get instanceId).serviceVersion = serviceVersion get :=
    nonEmpty_getD _ _
  have optional : ∀ key value : String, (if value = "" then [] else [(key, value)]).map kvPair =
      if value = "" then [] else [kvString key value] := by
    intro key value
    split <;> rfl
  rw [name, version]
  simp only [detectedPairs, List.map_append, optional]
  rfl

theorem detectedPairs_distinct (environment : String) :
    ((detectedPairs get os instanceId environment).map Prod.fst).Nodup := by
  unfold detectedPairs
  split <;> split <;> simp

theorem lookup_optional (key other value : String) :
    (if value = "" then [] else [(other, value)]).lookup key =
      if key = other ∧ value ≠ "" then some value else none := by
  rcases eq_or_ne value "" with rfl | nonempty
  · simp
  · rcases eq_or_ne key other with rfl | differs
    · simp [nonempty]
    · simp [nonempty, differs, List.lookup_cons, beq_eq_false_iff_ne.mpr differs]

/-- The detected attributes are the bridge's own, the environment and the others. -/
theorem lookup_detectedPairs (environment key : String) :
    (detectedPairs get os instanceId environment).lookup key =
      ((ownAttributes get).lookup key).or
        ((if key = "deployment.environment" ∧ environment ≠ "" then some environment else none).or
          ((detectedAttributes get os instanceId).lookup key)) := by
  simp only [detectedPairs, detectedAttributes, ownAttributes, List.lookup_append, lookup_optional]
  by_cases known : key ∈ ["service.name", "service.version", "host.name", "os.type",
      "telemetry.sdk.name", "telemetry.sdk.language", "telemetry.sdk.version",
      "telemetry.distro.name", "telemetry.distro.version", "deployment.environment",
      "service.instance.id"]
  · simp only [List.mem_cons, List.not_mem_nil, or_false] at known
    rcases known with rfl | rfl | rfl | rfl | rfl | rfl | rfl | rfl | rfl | rfl | rfl <;>
      simp [List.lookup_cons]
  · simp only [List.mem_cons, List.not_mem_nil, or_false, not_or] at known
    simp [List.lookup_cons, known, beq_eq_false_iff_ne.mpr]

/-! ## The merge -/

theorem lookup_own_isSome (key : String) :
    ((ownAttributes get).lookup key).isSome ↔ key = "service.name" ∨ sdkIdentityKey key := by
  rw [← not_iff_not, Option.not_isSome_iff_eq_none, List.lookup_eq_none_iff]
  simp [ownAttributes, sdkIdentityKey]

/-- An environment that is detected is one that the attributes give. -/
theorem environment_eq (absent : givenAttribute get "deployment.environment" = none) :
    (parseOtlpEnv get).environment = "" := by
  simp only [parseOtlpEnv, givenList_eq]
  rw [givenAttribute, Option.map_eq_none_iff, List.getLast?_eq_none_iff] at absent
  cases last : (splitBaggage ((get "OTEL_RESOURCE_ATTRIBUTES").getD "")).reverse.find? fun attr =>
      attr.1 = "deployment.environment" with
  | none => rfl
  | some attr =>
      have member := List.mem_reverse.mp (List.mem_of_find?_eq_some last)
      have keyed : attr.1 = "deployment.environment" := by simpa using List.find?_some last
      have empty : attr.2 = "" := by
        by_contra nonempty
        exact List.filter_eq_nil_iff.mp absent attr member (decide_eq_true ⟨keyed, nonempty⟩)
      simp [Option.filter_some, empty]

/-- A key has the value it is to have, once. -/
theorem occurrences_resourceAttributes (key : String) :
    occurrences KeyValue.key key (resourceAttributes get os instanceId) =
      ((resourceValue get os instanceId key).map (kvString key)).toList := by
  have detected := occurrences_kvPair
    (detectedPairs_distinct get os instanceId (parseOtlpEnv get).environment) key
  rw [resourceAttributes_eq, Upsert.occurrences_upsertAll, getLast?_merged, detected,
    lookup_detectedPairs, resourceValue]
  split
  next reserved =>
    obtain ⟨value, own⟩ := Option.isSome_iff_exists.mp ((lookup_own_isSome get key).mpr reserved)
    rw [own]
    rfl
  next free =>
    have notOwn : (ownAttributes get).lookup key = none := by
      rw [← Option.not_isSome_iff_eq_none, lookup_own_isSome]
      exact free
    rw [notOwn, Option.none_or, Option.none_or]
    cases given : givenAttribute get key with
    | some value =>
        obtain ⟨attr, last, rfl⟩ := Option.map_eq_some_iff.mp given
        rw [last]
        cases (if key = "deployment.environment" ∧ (parseOtlpEnv get).environment ≠ "" then
          some (parseOtlpEnv get).environment else none).or
            ((detectedAttributes get os instanceId).lookup key) with
        | none => rfl
        | some detected => rfl
    | none =>
        have noEnvironment : ¬ (key = "deployment.environment" ∧
            (parseOtlpEnv get).environment ≠ "") := by
          rintro ⟨rfl, nonempty⟩
          exact nonempty (environment_eq get given)
        rw [Option.map_eq_none_iff.mp given, if_neg noEnvironment]
        rfl

/-- The keys of a resource are distinct, and each has the value it is to have. -/
theorem resource_merge :
    ((resourceAttributes get os instanceId).map KeyValue.key).Nodup ∧
      ∀ key, (resourceAttributes get os instanceId).filter (fun attr => attr.key = key) =
        ((resourceValue get os instanceId key).map (kvString key)).toList := by
  constructor
  · rw [resourceAttributes_eq]
    refine Upsert.nodup_upsertAll _ ?_
    rw [List.map_map]
    exact detectedPairs_distinct get os instanceId _
  · exact occurrences_resourceAttributes get os instanceId

end AgentOtelBridge
