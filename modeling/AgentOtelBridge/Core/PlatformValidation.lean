import AgentOtelBridge.Lib.TextScan
import AgentOtelBridge.Lib.Upsert
import Mathlib.Data.List.Induction

/-!
# Platform descriptors

`validate_descriptors` checks a list of descriptors: the form of their ids and names, and that no
two of them claim an id, a wire id or an alias.  It keeps who claimed what in maps, in which a
later claim takes the place of an earlier one; but then there is an error already, so a list
without errors is told by its claims alone (`validateDescriptors_ok`).

The validation reads an alias trimmed and in small letters.  `matches_name` reads the query so,
but the alias as it is.
-/

namespace AgentOtelBridge.Platform

/-- What the static checks read of a descriptor. -/
structure PlatformDescriptor where
  id : String
  displayName : String
  aliases : List String
  wireClientId : UInt16
  deriving DecidableEq

/-- The form in which names are compared. -/
def normalize (name : String) : String := Text.asciiLower (Text.trim name)

def PlatformDescriptor.matchesName (platform : PlatformDescriptor) (name : String) : Bool :=
  let lower := normalize name
  platform.id = lower || platform.aliases.any fun known => known = lower

/-- `find_platform_by_name`, in some list. -/
def findPlatformByName (platforms : List PlatformDescriptor) (name : String) :
    Option PlatformDescriptor :=
  platforms.find? fun platform => platform.matchesName name

/-- `find_platform_by_wire_id`, in some list. -/
def findPlatformByWireId (platforms : List PlatformDescriptor) (id : UInt16) :
    Option PlatformDescriptor :=
  platforms.find? fun platform => platform.wireClientId = id

/-! ## The validation -/

/-- The errors so far, and who claimed what. -/
structure Validation where
  errors : List String
  seenIds : List String
  seenWireIds : List (UInt16 × String)
  seenAliases : List (String × String)

namespace Validation

def push (seen : Validation) (error : String) : Validation :=
  { seen with errors := seen.errors ++ [error] }

def isIdChar (c : Char) : Bool :=
  ('a' ≤ c && c ≤ 'z') || ('0' ≤ c && c ≤ '9') || c = '-' || c = '_'

def checkIdFormat (seen : Validation) (id : String) : Validation :=
  if id = "" then seen.push "Platform ID cannot be empty"
  else if !id.toList.all isIdChar then
    seen.push s!"Platform ID '{id}' contains invalid characters. Must be lowercase ASCII alphanumeric, hyphens, or underscores."
  else seen

def claimId (seen : Validation) (id : String) : Validation :=
  if seen.seenIds.elem id then seen.push s!"Duplicate platform ID detected: '{id}'"
  else { seen with seenIds := seen.seenIds ++ [id] }

def checkDisplayName (seen : Validation) (id displayName : String) : Validation :=
  if Text.trim displayName = "" then seen.push s!"Platform '{id}' has an empty display name"
  else seen

def claimWireId (seen : Validation) (id : String) (wireId : UInt16) : Validation :=
  if wireId = 0 then
    seen.push s!"Platform '{id}' specifies wire_client_id 0, which is reserved for Unspecified"
  else
    let owner := seen.seenWireIds.lookup wireId
    let seen := { seen with seenWireIds := Upsert.upsert Prod.fst (wireId, id) seen.seenWireIds }
    match owner with
    | some owner =>
        seen.push s!"Wire client ID collision on {wireId}: both '{owner}' and '{id}' use the same wire ID"
    | none => seen

def claimAlias (id : String) (seen : Validation) (name : String) : Validation :=
  let trimmed := normalize name
  if trimmed = "" then seen.push s!"Platform '{id}' contains an empty alias"
  else
    let owner := seen.seenAliases.lookup trimmed
    let seen := { seen with seenAliases := Upsert.upsert Prod.fst (trimmed, id) seen.seenAliases }
    match owner with
    | some owner =>
        seen.push s!"Alias collision on '{trimmed}': claimed by both '{owner}' and '{id}'"
    | none => seen

/-- The round of the loop for a platform. -/
def checkPlatform (seen : Validation) (platform : PlatformDescriptor) : Validation :=
  let seen := seen.checkIdFormat platform.id
  let seen := seen.claimId platform.id
  let seen := seen.checkDisplayName platform.id platform.displayName
  let seen := seen.claimWireId platform.id platform.wireClientId
  platform.aliases.foldl (claimAlias platform.id) seen

/-- The last loop: the aliases that are ids of others, in the order of the first claims (the
source takes them in the order of its map, which is arbitrary). -/
def foreignAliases (seen : Validation) : List String :=
  (seen.seenAliases.filter fun claim => seen.seenIds.elem claim.1 && claim.2 ≠ claim.1).map
    fun (name, owner) =>
      s!"Alias collision: '{name}' claimed as alias by '{owner}' matches primary ID of another platform"

/-- What has been seen of some platforms. -/
def run (platforms : List PlatformDescriptor) : Validation :=
  platforms.foldl checkPlatform ⟨[], [], [], []⟩

end Validation

def validateDescriptors (platforms : List PlatformDescriptor) : Except (List String) Unit :=
  let seen := Validation.run platforms
  let errors := seen.errors ++ seen.foreignAliases
  if errors = [] then .ok () else .error errors

/-! ## Valid lists -/

/-- The aliases of a platform in their normal form, each with its id. -/
def claims (platform : PlatformDescriptor) : List (String × String) :=
  platform.aliases.map fun name => (normalize name, platform.id)

/-- What the loop of the validation demands of a list of platforms. -/
structure Unclaimed (platforms : List PlatformDescriptor) : Prop where
  idFormat : ∀ platform ∈ platforms,
    platform.id ≠ "" ∧ platform.id.toList.all Validation.isIdChar = true
  ids : (platforms.map PlatformDescriptor.id).Nodup
  displayNames : ∀ platform ∈ platforms, Text.trim platform.displayName ≠ ""
  reserved : ∀ platform ∈ platforms, platform.wireClientId ≠ 0
  wireIds : (platforms.map PlatformDescriptor.wireClientId).Nodup
  named : ∀ claim ∈ platforms.flatMap claims, claim.1 ≠ ""
  aliases : ((platforms.flatMap claims).map Prod.fst).Nodup

/-- What the validation demands of a list of platforms. -/
structure Valid (platforms : List PlatformDescriptor) : Prop extends Unclaimed platforms where
  owners : ∀ claim ∈ platforms.flatMap claims,
    claim.1 ∈ platforms.map PlatformDescriptor.id → claim.2 = claim.1

namespace Validation

/-- What has been seen of platforms without errors. -/
def settled (platforms : List PlatformDescriptor) : Validation :=
  ⟨[], platforms.map PlatformDescriptor.id,
    platforms.map fun platform => (platform.wireClientId, platform.id), platforms.flatMap claims⟩

/-- A check that demands something and, if it is met, comes to a state without errors. -/
structure Demands (result : Validation) (good : Prop) (next : Validation) : Prop where
  met : result.errors = [] → good
  next : good → result = next

variable {seen : Validation}

theorem push_errors (seen : Validation) (error : String) : (seen.push error).errors ≠ [] :=
  List.append_ne_nil_of_right_ne_nil _ (List.cons_ne_nil _ _)

theorem demands_push (error : String) {good : Prop} (refused : ¬good) (next : Validation) :
    Demands (seen.push error) good next :=
  ⟨fun none => absurd none (push_errors seen error), fun this => absurd this refused⟩

theorem checkIdFormat_demands (seen : Validation) (id : String) :
    Demands (seen.checkIdFormat id) (id ≠ "" ∧ id.toList.all isIdChar = true) seen := by
  rw [checkIdFormat]
  split
  next empty => exact demands_push _ (fun good => good.1 empty) _
  next some =>
    split
    next other => exact demands_push _ (fun good => by simp [good.2] at other) _
    next format => exact ⟨fun _ => ⟨some, by simpa using format⟩, fun _ => rfl⟩

theorem claimId_demands (seen : Validation) (id : String) :
    Demands (seen.claimId id) (id ∉ seen.seenIds)
      { seen with seenIds := seen.seenIds ++ [id] } := by
  rw [claimId]
  split
  next there => exact demands_push _ (fun good => good (List.mem_of_elem_eq_true there)) _
  next absent =>
    exact ⟨fun _ member => absent (List.elem_eq_true_of_mem member), fun _ => rfl⟩

theorem checkDisplayName_demands (seen : Validation) (id displayName : String) :
    Demands (seen.checkDisplayName id displayName) (Text.trim displayName ≠ "") seen := by
  rw [checkDisplayName]
  split
  next empty => exact demands_push _ (fun good => good empty) _
  next some => exact ⟨fun _ => some, fun _ => rfl⟩

theorem nodup_append_singleton {α : Type} {list : List α} {last : α} :
    (list ++ [last]).Nodup ↔ list.Nodup ∧ last ∉ list := by
  rw [List.nodup_append_comm, List.singleton_append, List.nodup_cons, and_comm]

theorem lookup_eq_none_iff {κ ω : Type} [DecidableEq κ] {key : κ} {entries : List (κ × ω)} :
    entries.lookup key = none ↔ key ∉ entries.map Prod.fst := by
  rw [List.lookup_eq_none_iff, List.mem_map]
  constructor
  · rintro others ⟨entry, member, rfl⟩
    simpa using others entry member
  · intro absent entry member
    simpa using fun same => absent ⟨entry, member, same.symm⟩

theorem claimWireId_demands (seen : Validation) (id : String) (wireId : UInt16) :
    Demands (seen.claimWireId id wireId)
      (wireId ≠ 0 ∧ wireId ∉ seen.seenWireIds.map Prod.fst)
      { seen with seenWireIds := seen.seenWireIds ++ [(wireId, id)] } := by
  rw [claimWireId]
  split
  next zero => exact demands_push _ (fun good => good.1 zero) _
  next some =>
    cases owned : seen.seenWireIds.lookup wireId with
    | some owner =>
        refine demands_push _ (fun good => ?_) _
        rw [lookup_eq_none_iff.mpr good.2] at owned
        cases owned
    | none =>
        have new := lookup_eq_none_iff.mp owned
        refine ⟨fun _ => ⟨some, new⟩, fun _ => ?_⟩
        dsimp only
        rw [Upsert.upsert_of_new (wireId, id) new]

theorem claimAlias_demands (id : String) (seen : Validation) (name : String) :
    Demands (claimAlias id seen name)
      (normalize name ≠ "" ∧ normalize name ∉ seen.seenAliases.map Prod.fst)
      { seen with seenAliases := seen.seenAliases ++ [(normalize name, id)] } := by
  rw [claimAlias]
  dsimp only
  split
  next empty => exact demands_push _ (fun good => good.1 empty) _
  next some =>
    cases owned : seen.seenAliases.lookup (normalize name) with
    | some owner =>
        refine demands_push _ (fun good => ?_) _
        rw [lookup_eq_none_iff.mpr good.2] at owned
        cases owned
    | none =>
        have new := lookup_eq_none_iff.mp owned
        refine ⟨fun _ => ⟨some, new⟩, fun _ => ?_⟩
        dsimp only
        rw [Upsert.upsert_of_new (normalize name, id) new]

/-- One check after the other: the second is made of what the first one has left. -/
theorem Demands.andThen {first : Validation} {good : Prop} {left : Validation}
    (demands : Demands first good left) {check : Validation → Validation}
    {good' : Validation → Prop} {left' : Validation → Validation}
    (demands' : ∀ seen, Demands (check seen) (good' seen) (left' seen))
    (kept : ∀ seen, (left' seen).errors = seen.errors) :
    Demands (check first) (good ∧ good' left) (left' left) := by
  constructor
  · intro none
    have second := (demands' first).met none
    rw [(demands' first).next second, kept] at none
    have met := demands.met none
    rw [demands.next met] at second
    exact ⟨met, second⟩
  · rintro ⟨met, met'⟩
    rw [demands.next met]
    exact (demands' left).next met'

theorem Demands.congr {result : Validation} {good good' : Prop} {next next' : Validation}
    (demands : Demands result good next) (same : good ↔ good') (same' : next = next') :
    Demands result good' next' := by
  subst same'
  exact ⟨fun none => same.mp (demands.met none), fun this => demands.next (same.mpr this)⟩

/-- What the aliases of a platform demand of those before. -/
theorem claimAliases_demands (id : String) (names : List String) (seen : Validation) :
    Demands (names.foldl (claimAlias id) seen)
      ((∀ name ∈ names, normalize name ≠ "" ∧ normalize name ∉ seen.seenAliases.map Prod.fst) ∧
        (names.map normalize).Nodup)
      { seen with
        seenAliases := seen.seenAliases ++ names.map fun name => (normalize name, id) } := by
  induction names using List.reverseRecOn with
  | nil => exact ⟨fun _ => ⟨fun _ member => absurd member List.not_mem_nil, List.nodup_nil⟩,
      fun _ => by rw [List.map_nil, List.append_nil]; rfl⟩
  | append_singleton names name ih =>
      rw [List.foldl_append, List.foldl_cons, List.foldl_nil]
      have both := ih.andThen (fun seen => claimAlias_demands id seen name) (fun _ => rfl)
      have keys : (names.map fun name => (normalize name, id)).map Prod.fst =
          names.map normalize := by rw [List.map_map]; rfl
      refine both.congr ?_ (by simp)
      rw [List.map_append, keys, List.mem_append, not_or, List.forall_mem_append,
        List.forall_mem_singleton, List.map_append, List.map_singleton, nodup_append_singleton]
      exact ⟨fun ⟨⟨each, distinct⟩, named, new, fresh⟩ => ⟨⟨each, named, new⟩, distinct, fresh⟩,
        fun ⟨⟨each, named, new⟩, distinct, fresh⟩ => ⟨⟨each, distinct⟩, named, new, fresh⟩⟩

/-- What a platform demands of what has been seen. -/
structure Fresh (seen : Validation) (platform : PlatformDescriptor) : Prop where
  idFormat : platform.id ≠ "" ∧ platform.id.toList.all isIdChar = true
  id : platform.id ∉ seen.seenIds
  displayName : Text.trim platform.displayName ≠ ""
  reserved : platform.wireClientId ≠ 0
  wireId : platform.wireClientId ∉ seen.seenWireIds.map Prod.fst
  names : ∀ name ∈ platform.aliases,
    normalize name ≠ "" ∧ normalize name ∉ seen.seenAliases.map Prod.fst
  aliases : (platform.aliases.map normalize).Nodup

theorem checkPlatform_demands (seen : Validation) (platform : PlatformDescriptor) :
    Demands (seen.checkPlatform platform) (Fresh seen platform)
      { seen with
        seenIds := seen.seenIds ++ [platform.id],
        seenWireIds := seen.seenWireIds ++ [(platform.wireClientId, platform.id)],
        seenAliases := seen.seenAliases ++ claims platform } := by
  have first := (checkIdFormat_demands seen platform.id).andThen
    (fun seen => claimId_demands seen platform.id) fun _ => rfl
  have second := first.andThen
    (fun seen => checkDisplayName_demands seen platform.id platform.displayName) fun _ => rfl
  have third := second.andThen
    (fun seen => claimWireId_demands seen platform.id platform.wireClientId) fun _ => rfl
  have last := third.andThen
    (fun seen => claimAliases_demands platform.id platform.aliases seen) fun _ => rfl
  refine last.congr ⟨?_, ?_⟩ rfl
  · rintro ⟨⟨⟨⟨idFormat, id⟩, displayName⟩, reserved, wireId⟩, names, aliases⟩
    exact ⟨idFormat, id, displayName, reserved, wireId, names, aliases⟩
  · rintro ⟨idFormat, id, displayName, reserved, wireId, names, aliases⟩
    exact ⟨⟨⟨⟨idFormat, id⟩, displayName⟩, reserved, wireId⟩, names, aliases⟩

theorem unclaimed_nil : Unclaimed [] where
  idFormat _ member := absurd member List.not_mem_nil
  ids := List.nodup_nil
  displayNames _ member := absurd member List.not_mem_nil
  reserved _ member := absurd member List.not_mem_nil
  wireIds := List.nodup_nil
  named _ member := absurd member List.not_mem_nil
  aliases := List.nodup_nil

theorem keys_claims (platform : PlatformDescriptor) :
    (claims platform).map Prod.fst = platform.aliases.map normalize := by
  rw [claims, List.map_map]
  rfl

theorem keys_flatMap_claims (platforms : List PlatformDescriptor) (platform : PlatformDescriptor) :
    ((platforms ++ [platform]).flatMap claims).map Prod.fst =
      (platforms.flatMap claims).map Prod.fst ++ platform.aliases.map normalize := by
  rw [List.flatMap_append, List.flatMap_singleton, List.map_append, keys_claims]

theorem wireIds_settled (platforms : List PlatformDescriptor) :
    (settled platforms).seenWireIds.map Prod.fst =
      platforms.map PlatformDescriptor.wireClientId := by
  rw [settled, List.map_map]
  rfl

theorem unclaimed_append_singleton (platforms : List PlatformDescriptor)
    (platform : PlatformDescriptor) :
    Unclaimed (platforms ++ [platform]) ↔
      Unclaimed platforms ∧ Fresh (settled platforms) platform := by
  have named : (∀ claim ∈ (platforms ++ [platform]).flatMap claims, claim.1 ≠ "") ↔
      (∀ claim ∈ platforms.flatMap claims, claim.1 ≠ "") ∧
        ∀ name ∈ platform.aliases, normalize name ≠ "" := by
    rw [List.flatMap_append, List.flatMap_singleton, List.forall_mem_append, claims,
      List.forall_mem_map]
  have disjoint : List.Disjoint ((platforms.flatMap claims).map Prod.fst)
      (platform.aliases.map normalize) ↔
      ∀ name ∈ platform.aliases, normalize name ∉ (platforms.flatMap claims).map Prod.fst := by
    rw [List.disjoint_comm]
    exact List.forall_mem_map
  constructor
  · rintro ⟨idFormat, ids, displayNames, reserved, wireIds, names, aliases⟩
    rw [List.map_append, List.map_singleton, nodup_append_singleton] at ids wireIds
    rw [List.forall_mem_append, List.forall_mem_singleton] at idFormat displayNames reserved
    rw [named] at names
    rw [keys_flatMap_claims, List.nodup_append', disjoint] at aliases
    refine ⟨⟨idFormat.1, ids.1, displayNames.1, reserved.1, wireIds.1, names.1, aliases.1⟩,
      ⟨idFormat.2, ids.2, displayNames.2, reserved.2, ?_, fun name member =>
        ⟨names.2 name member, aliases.2.2 name member⟩, aliases.2.1⟩⟩
    rw [wireIds_settled]
    exact wireIds.2
  · rintro ⟨before, fresh⟩
    have wireId := fresh.wireId
    rw [wireIds_settled] at wireId
    constructor
    case idFormat =>
      exact List.forall_mem_append.mpr ⟨before.idFormat, List.forall_mem_singleton.mpr fresh.idFormat⟩
    case displayNames =>
      exact List.forall_mem_append.mpr
        ⟨before.displayNames, List.forall_mem_singleton.mpr fresh.displayName⟩
    case reserved =>
      exact List.forall_mem_append.mpr
        ⟨before.reserved, List.forall_mem_singleton.mpr fresh.reserved⟩
    case ids =>
      rw [List.map_append, List.map_singleton, nodup_append_singleton]
      exact ⟨before.ids, fresh.id⟩
    case wireIds =>
      rw [List.map_append, List.map_singleton, nodup_append_singleton]
      exact ⟨before.wireIds, wireId⟩
    case named => exact named.mpr ⟨before.named, fun name member => (fresh.names name member).1⟩
    case aliases =>
      rw [keys_flatMap_claims, List.nodup_append', disjoint]
      exact ⟨before.aliases, fresh.aliases, fun name member => (fresh.names name member).2⟩

/-- A list without errors is one of which nothing is claimed twice, and what is seen of it is
what it claims. -/
theorem run_demands (platforms : List PlatformDescriptor) :
    Demands (run platforms) (Unclaimed platforms) (settled platforms) := by
  induction platforms using List.reverseRecOn with
  | nil => exact ⟨fun _ => unclaimed_nil, fun _ => rfl⟩
  | append_singleton platforms platform ih =>
      have both := ih.andThen (fun seen => checkPlatform_demands seen platform) fun _ => rfl
      rw [run, List.foldl_append]
      refine both.congr ?_ (by simp [settled])
      rw [unclaimed_append_singleton]

theorem foreignAliases_settled (platforms : List PlatformDescriptor) :
    (settled platforms).foreignAliases = [] ↔ ∀ claim ∈ platforms.flatMap claims,
      claim.1 ∈ platforms.map PlatformDescriptor.id → claim.2 = claim.1 := by
  rw [foreignAliases, List.map_eq_nil_iff, List.filter_eq_nil_iff]
  refine forall₂_congr fun claim _ => ?_
  simp [settled]

end Validation

/-- The lists of descriptors that are accepted. -/
theorem validateDescriptors_ok (platforms : List PlatformDescriptor) :
    validateDescriptors platforms = .ok () ↔ Valid platforms := by
  have run := Validation.run_demands platforms
  rw [validateDescriptors]
  constructor
  · intro ok
    split at ok
    next none =>
      obtain ⟨errors, foreign⟩ := List.append_eq_nil_iff.mp none
      have unclaimed := run.met errors
      rw [run.next unclaimed] at foreign
      exact ⟨unclaimed, (Validation.foreignAliases_settled platforms).mp foreign⟩
    next => cases ok
  · intro valid
    have foreign := (Validation.foreignAliases_settled platforms).mpr valid.owners
    rw [run.next valid.toUnclaimed, if_pos]
    rw [foreign]
    rfl

end AgentOtelBridge.Platform
