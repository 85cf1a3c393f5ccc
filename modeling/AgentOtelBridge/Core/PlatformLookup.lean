import AgentOtelBridge.Core.PlatformValidation
import Mathlib.Tactic.IntervalCases

/-!
# Looking platforms up

No two platforms of a list that has been accepted answer to one name or to one wire id, so the
first that does is the only one, in any order.  A platform answers to its id.  It answers to an
alias only if that is written in normal form, for the query is in that form when it is compared.
-/

namespace AgentOtelBridge.Platform

/-! ## Statements -/

/-- Two platforms claim an id, a wire id or an alias, or one of them the id of the other as an
alias. -/
def Clash (first second : PlatformDescriptor) : Prop :=
  first.id = second.id ∨ first.wireClientId = second.wireClientId ∨
    (∃ name ∈ first.aliases, ∃ other ∈ second.aliases, normalize name = normalize other) ∨
    (∃ name ∈ first.aliases, normalize name = second.id) ∨
    ∃ name ∈ second.aliases, normalize name = first.id

/-- A name that is the id of a platform or one of its aliases, in normal form. -/
def Names (platform : PlatformDescriptor) (query : String) : Prop :=
  normalize query = platform.id ∨ ∃ name ∈ platform.aliases, normalize query = normalize name

/-- Each platform is found by its names. -/
def Resolves (platforms : List PlatformDescriptor) : Prop :=
  ∀ platform ∈ platforms, ∀ query, Names platform query →
    findPlatformByName platforms query = some platform

/-- The aliases are written in normal form, but for those that are the id of their platform. -/
def WrittenNormal (platforms : List PlatformDescriptor) : Prop :=
  ∀ platform ∈ platforms, ∀ name ∈ platform.aliases,
    normalize name = name ∨ normalize name = platform.id

/-! ## Normal forms -/

/-- A capital, and the small letter of it. -/
theorem asciiLowerChar_cases (c : Char) :
    Text.asciiLowerChar c = c ∧ ¬(65 ≤ c.toNat ∧ c.toNat ≤ 90) ∨
      (65 ≤ c.toNat ∧ c.toNat ≤ 90) ∧ (Text.asciiLowerChar c).toNat = c.toNat + 32 := by
  have bounds : ('A' ≤ c ∧ c ≤ 'Z') ↔ 65 ≤ c.toNat ∧ c.toNat ≤ 90 := Iff.rfl
  rw [Text.asciiLowerChar]
  split
  next capital =>
    have range := bounds.mp capital
    have valid : (c.toNat + 32).isValidChar := Or.inl (by omega)
    refine Or.inr ⟨range, ?_⟩
    rw [Char.ofNat, dif_pos valid]
    rfl
  next other => exact Or.inl ⟨rfl, fun range => other (bounds.mpr range)⟩

theorem isWhitespace_asciiLowerChar (c : Char) :
    Text.isWhitespace (Text.asciiLowerChar c) = Text.isWhitespace c := by
  rcases asciiLowerChar_cases c with ⟨same, _⟩ | ⟨⟨low, high⟩, small⟩
  · rw [same]
  · rw [Text.isWhitespace, Text.isWhitespace, small]
    generalize c.toNat = n at low high
    interval_cases n <;> rfl

theorem asciiLowerChar_asciiLowerChar (c : Char) :
    Text.asciiLowerChar (Text.asciiLowerChar c) = Text.asciiLowerChar c := by
  rcases asciiLowerChar_cases c with ⟨same, _⟩ | ⟨⟨low, high⟩, small⟩
  · rw [same, same]
  · rcases asciiLowerChar_cases (Text.asciiLowerChar c) with ⟨same, _⟩ | ⟨⟨low', high'⟩, _⟩
    · exact same
    · omega

theorem trimmed_trimChars (cs : List Char) : Text.Trimmed (Text.trimChars cs) := by
  rw [Text.trimChars_eq, Text.trimEnd]
  constructor
  · intro c first
    obtain ⟨dropped, whole⟩ := List.rdropWhile_prefix Text.isWhitespace (cs.dropWhile Text.isWhitespace)
    have head : c ∈ (cs.dropWhile Text.isWhitespace).head? := by
      rw [← whole, List.head?_append, Option.mem_def.mp first]
      rfl
    have stops := List.head?_dropWhile_not Text.isWhitespace cs
    rw [Option.mem_def.mp head] at stops
    exact stops
  · intro c last
    have some : (cs.dropWhile Text.isWhitespace).rdropWhile Text.isWhitespace ≠ [] := by
      intro nil
      rw [nil] at last
      cases last
    rw [List.getLast?_eq_some_getLast some] at last
    obtain rfl := Option.some.inj last
    exact Bool.eq_false_of_not_eq_true (List.rdropWhile_last_not Text.isWhitespace _ some)

theorem normalize_normalize (name : String) : normalize (normalize name) = normalize name := by
  have trimmed := trimmed_trimChars name.toList
  have lowered : Text.Trimmed ((Text.trimChars name.toList).map Text.asciiLowerChar) := by
    constructor
    · intro c first
      rw [List.head?_map] at first
      obtain ⟨c, head, rfl⟩ := Option.map_eq_some_iff.mp first
      rw [isWhitespace_asciiLowerChar, trimmed.head c head]
    · intro c last
      rw [List.getLast?_map] at last
      obtain ⟨c, final, rfl⟩ := Option.map_eq_some_iff.mp last
      rw [isWhitespace_asciiLowerChar, trimmed.last c final]
  have blank : Text.Blank [] := fun _ member => absurd member List.not_mem_nil
  have kept := Text.trimChars_between lowered blank blank
  rw [List.append_nil, List.nil_append] at kept
  simp only [normalize, Text.asciiLower, Text.trim, String.toList_ofList]
  rw [kept, List.map_map]
  exact congrArg String.ofList (List.map_congr_left fun c _ => asciiLowerChar_asciiLowerChar c)

/-! ## At most one -/

section

variable {α : Type} {answers : α → Bool} {list list' : List α}

theorem filter_length_le_one (apart : list.Pairwise fun first second =>
    ¬(answers first = true ∧ answers second = true)) : (list.filter answers).length ≤ 1 := by
  have rest := apart.filter answers
  match shape : list.filter answers with
  | [] => exact Nat.zero_le 1
  | [_] => exact Nat.le_refl 1
  | first :: second :: others =>
      have both : ∀ member ∈ list.filter answers, answers member = true := fun member there =>
        (List.mem_filter.mp there).2
      rw [shape] at rest both
      exact absurd ⟨both first (.head _), both second (.tail _ (.head _))⟩
        (List.rel_of_pairwise_cons rest (.head _))

/-- What answers alone is found first. -/
theorem find?_eq_some_of_unique (unique : (list.filter answers).length ≤ 1) {member : α}
    (there : member ∈ list) (answer : answers member = true) : list.find? answers = some member := by
  have listed : member ∈ list.filter answers := List.mem_filter.mpr ⟨there, answer⟩
  rw [← List.head?_filter]
  match shape : list.filter answers with
  | [] =>
      rw [shape] at listed
      cases listed
  | [only] =>
      rw [shape] at listed
      rw [List.mem_singleton.mp listed]
      rfl
  | _ :: _ :: _ =>
      rw [shape] at unique
      exact absurd unique (by simp)

/-- What is found does not depend on the order. -/
theorem find?_perm (unique : (list.filter answers).length ≤ 1) (order : list.Perm list') :
    list'.find? answers = list.find? answers := by
  have same := order.filter answers
  rw [← List.head?_filter, ← List.head?_filter]
  match shape : list.filter answers with
  | [] =>
      rw [shape] at same
      rw [List.nil_perm.mp same]
  | [only] =>
      rw [shape] at same
      rw [List.singleton_perm.mp same]
  | _ :: _ :: _ =>
      rw [shape] at unique
      exact absurd unique (by simp)

end

/-! ## Accepted lists -/

section

variable {platforms : List PlatformDescriptor}

theorem keys_flatMap (platforms : List PlatformDescriptor) :
    (platforms.flatMap claims).map Prod.fst =
      platforms.flatMap fun platform => platform.aliases.map normalize := by
  rw [List.map_flatMap]
  exact congrArg (fun f => platforms.flatMap f) (funext Validation.keys_claims)

theorem Valid.claims_disjoint (valid : Valid platforms) :
    platforms.Pairwise fun first second =>
      List.Disjoint (first.aliases.map normalize) (second.aliases.map normalize) := by
  have distinct := valid.aliases
  rw [keys_flatMap, List.nodup_flatMap] at distinct
  exact distinct.2

/-- An alias that is an id is the id of its own platform. -/
theorem Valid.owner (valid : Valid platforms) {first second : PlatformDescriptor}
    (member : first ∈ platforms) (member' : second ∈ platforms) {name : String}
    (listed : name ∈ first.aliases) (same : normalize name = second.id) :
    first.id = second.id := by
  have claim : (normalize name, first.id) ∈ platforms.flatMap claims :=
    List.mem_flatMap.mpr ⟨first, member, List.mem_map.mpr ⟨name, listed, rfl⟩⟩
  have known : normalize name ∈ platforms.map PlatformDescriptor.id :=
    List.mem_map.mpr ⟨second, member', same.symm⟩
  exact (valid.owners _ claim known).trans same

/-- No two platforms of an accepted list claim the same. -/
theorem Valid.apart (valid : Valid platforms) :
    platforms.Pairwise fun first second => ¬Clash first second := by
  rw [List.pairwise_iff_forall_sublist]
  intro first second both clash
  have ids := List.pairwise_iff_forall_sublist.mp (List.pairwise_map.mp valid.ids) both
  have wireIds := List.pairwise_iff_forall_sublist.mp (List.pairwise_map.mp valid.wireIds) both
  have aliases := List.pairwise_iff_forall_sublist.mp valid.claims_disjoint both
  have member : first ∈ platforms := both.subset (.head _)
  have member' : second ∈ platforms := both.subset (.tail _ (.head _))
  rcases clash with id | wireId | ⟨name, listed, other, listed', same⟩ | ⟨name, listed, same⟩ |
    ⟨name, listed, same⟩
  · exact ids id
  · exact wireIds wireId
  · exact aliases (List.mem_map.mpr ⟨name, listed, rfl⟩)
      (List.mem_map.mpr ⟨other, listed', same.symm⟩)
  · exact ids (valid.owner member member' listed same)
  · exact ids (valid.owner member' member listed same).symm

theorem matchesName_iff (platform : PlatformDescriptor) (query : String) :
    platform.matchesName query = true ↔
      platform.id = normalize query ∨ normalize query ∈ platform.aliases := by
  simp [PlatformDescriptor.matchesName]

theorem clash_of_matches {first second : PlatformDescriptor} {query : String}
    (answers : first.matchesName query = true) (answers' : second.matchesName query = true) :
    Clash first second := by
  have normal := normalize_normalize query
  rcases (matchesName_iff first query).mp answers with id | listed <;>
    rcases (matchesName_iff second query).mp answers' with id' | listed'
  · exact Or.inl (id.trans id'.symm)
  · exact Or.inr (Or.inr (Or.inr (Or.inr ⟨_, listed', normal.trans id.symm⟩)))
  · exact Or.inr (Or.inr (Or.inr (Or.inl ⟨_, listed, normal.trans id'.symm⟩)))
  · exact Or.inr (Or.inr (Or.inl ⟨_, listed, _, listed', rfl⟩))

/-- At most one platform of an accepted list answers to a name. -/
theorem Valid.unique (valid : Valid platforms) (query : String) :
    (platforms.filter fun platform => platform.matchesName query).length ≤ 1 :=
  filter_length_le_one (valid.apart.imp fun apart both =>
    apart (clash_of_matches both.1 both.2))

theorem Valid.unique_wireId (valid : Valid platforms) (id : UInt16) :
    (platforms.filter fun platform => platform.wireClientId = id).length ≤ 1 :=
  filter_length_le_one ((List.pairwise_map.mp valid.wireIds).imp fun differs both =>
    differs ((of_decide_eq_true both.1).trans (of_decide_eq_true both.2).symm))

/-- Two aliases of a platform of an accepted list have not the same normal form. -/
theorem Valid.alias_inj (valid : Valid platforms) {platform : PlatformDescriptor}
    (member : platform ∈ platforms) {name other : String} (listed : name ∈ platform.aliases)
    (listed' : other ∈ platform.aliases) (same : normalize name = normalize other) :
    name = other := by
  have distinct := valid.aliases
  rw [keys_flatMap, List.nodup_flatMap] at distinct
  exact List.inj_on_of_nodup_map (distinct.1 platform member) listed listed' same

theorem Valid.resolves_iff (valid : Valid platforms) :
    Resolves platforms ↔ WrittenNormal platforms := by
  constructor
  · intro resolves platform member name listed
    have found := resolves platform member name (Or.inr ⟨name, listed, rfl⟩)
    have answers : platform.matchesName name = true := by
      have answers := List.find?_some found
      exact answers
    rcases (matchesName_iff platform name).mp answers with id | listed'
    · exact Or.inr id.symm
    · exact Or.inl (valid.alias_inj member listed' listed (normalize_normalize name))
  · intro normal platform member query named
    refine find?_eq_some_of_unique (valid.unique query) member ?_
    rw [matchesName_iff]
    rcases named with id | ⟨name, listed, same⟩
    · exact Or.inl id.symm
    · rcases normal platform member name listed with written | id
      · exact Or.inr (by rw [same, written]; exact listed)
      · exact Or.inl (by rw [same, id])

end

/-- In an accepted list, look-ups by wire id and by name do not depend on the order, and each
platform is found by its names exactly if its aliases are written in normal form.  A list with two
platforms that claim the same is refused. -/
theorem validateDescriptors_resolves (platforms : List PlatformDescriptor) :
    (validateDescriptors platforms = .ok () →
      (∀ platform ∈ platforms, platform.wireClientId ≠ 0) ∧
      (platforms.map PlatformDescriptor.wireClientId).Nodup ∧
      (∀ others, platforms.Perm others → ∀ id,
        findPlatformByWireId others id = findPlatformByWireId platforms id) ∧
      (∀ query, (platforms.filter fun platform => platform.matchesName query).length ≤ 1) ∧
      (∀ others, platforms.Perm others → ∀ query,
        findPlatformByName others query = findPlatformByName platforms query) ∧
      (Resolves platforms ↔ WrittenNormal platforms)) ∧
    ∀ first second, [first, second].Sublist platforms → Clash first second →
      ∃ errors, validateDescriptors platforms = .error errors := by
  constructor
  · intro ok
    have valid := (validateDescriptors_ok platforms).mp ok
    exact ⟨valid.reserved, valid.wireIds,
      fun others order id => find?_perm (valid.unique_wireId id) order, valid.unique,
      fun others order query => find?_perm (valid.unique query) order, valid.resolves_iff⟩
  · intro first second both clash
    cases result : validateDescriptors platforms with
    | error errors => exact ⟨errors, rfl⟩
    | ok =>
        have valid := (validateDescriptors_ok platforms).mp result
        exact absurd clash (List.pairwise_iff_forall_sublist.mp valid.apart both)

def builtinPlatforms : List PlatformDescriptor :=
  [⟨"antigravity", "Google Antigravity", ["agy", "gemini"], 1⟩,
    ⟨"claude", "Claude Code", ["claude-code", "claudecode"], 2⟩,
    ⟨"codex", "OpenAI Codex", ["openai", "codex-cli"], 3⟩,
    ⟨"grok", "xAI Grok", ["xai", "grok-cli"], 4⟩,
    ⟨"pi", "Pi Agent", ["pi-cli"], 5⟩]

theorem builtinPlatforms_resolve :
    Resolves builtinPlatforms ∧
      ∃ errors, validateDescriptors (builtinPlatforms ++ builtinPlatforms) = .error errors := by
  have ok : validateDescriptors builtinPlatforms = .ok () := by decide +kernel
  have normal : WrittenNormal builtinPlatforms := by
    unfold WrittenNormal
    decide +kernel
  have twice : [⟨"pi", "Pi Agent", ["pi-cli"], 5⟩, ⟨"pi", "Pi Agent", ["pi-cli"], 5⟩].Sublist
      (builtinPlatforms ++ builtinPlatforms) := by decide +kernel
  exact ⟨((validateDescriptors_resolves builtinPlatforms).1 ok).2.2.2.2.2.mpr normal,
    (validateDescriptors_resolves _).2 _ _ twice (Or.inl rfl)⟩

/-- An alias with a capital is accepted, but no query finds it. -/
theorem capital_alias_lost :
    validateDescriptors [⟨"hermes", "Hermes", ["Messenger"], 6⟩] = .ok () ∧
      Names ⟨"hermes", "Hermes", ["Messenger"], 6⟩ "Messenger" ∧
      findPlatformByName [⟨"hermes", "Hermes", ["Messenger"], 6⟩] "Messenger" = none := by
  exact ⟨by decide +kernel, Or.inr ⟨_, .head _, rfl⟩, by decide +kernel⟩

end AgentOtelBridge.Platform
