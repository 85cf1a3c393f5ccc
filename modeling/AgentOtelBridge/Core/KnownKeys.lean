import AgentOtelBridge.Core.PayloadDialects

/-!
# Known keys

A known key names one field.  The camel case of a known key with an underscore is a key of the
same field, but for two keys, whose camel case is unknown.
-/

namespace AgentOtelBridge

open Json

theorem toUpper_ne_underscore {c : Char} (upper : c.toUpper = '_') : c = '_' := by
  unfold Char.toUpper at upper
  split at upper
  next lower =>
    have value := congrArg (fun d : Char => d.val.toNat) upper
    have least : 97 ≤ c.val.toNat := lower.1
    have most : c.val.toNat ≤ 122 := lower.2
    simp only [UInt32.toNat_add] at value
    have moved : (c.val.toNat + 4294967264) % 2 ^ 32 = 95 := value
    omega
  next => exact upper

/-- The upper case of ASCII. -/
def asciiUppercase : Uppercase where
  toUppercase c := [c.toUpper]
  ascii _ _ := rfl
  underscore _ member := toUpper_ne_underscore (List.mem_singleton.mp member).symm

theorem camelLoop_ascii (upper : Uppercase) (uppercase : Bool) {chars : List Char}
    (ascii : ∀ c ∈ chars, c.val < 128) :
    camelLoop upper uppercase chars = camelLoop asciiUppercase uppercase chars := by
  induction chars generalizing uppercase with
  | nil => rfl
  | cons ch chars ih =>
      rw [List.forall_mem_cons] at ascii
      simp only [camelLoop, ih _ ascii.2, upper.ascii ch ascii.1]
      rfl

/-- The bytes of a key as one number. -/
def keyCode (key : String) : Nat :=
  key.toByteArray.data.toList.foldl (fun n byte => n * 256 + byte.toNat) 0

theorem knownKeys_nodup : knownKeys.Nodup := by
  have codes : (knownKeys.map keyCode).Nodup := by decide +kernel
  exact codes.of_map keyCode

/-- The camel case of a name is a name of the same field, but for two. -/
theorem hookNames_camelCase : ∀ names ∈ (hookFields fun _ => 0).map RecordField.names,
    ∀ key ∈ names, underscored key = true → (∀ c ∈ key.toList, c.val < 128) ∧
      (camelCase asciiUppercase key ∈ names ∨
        key = "trace_parent" ∨ key = "cache_read_input_tokens") := by
  have spelled : ∀ names ∈ (hookFields fun _ => 0).map RecordField.names, ∀ key ∈ names,
      underscored key = true → (key.toList.all fun c => c.val < 128) = true ∧
        (camelCase asciiUppercase key ∈ names ∨
          key = "trace_parent" ∨ key = "cache_read_input_tokens") := by
    decide +kernel
  intro names listed key named under
  obtain ⟨ascii, kept⟩ := spelled names listed key named under
  exact ⟨fun c member => of_decide_eq_true (List.all_eq_true.mp ascii c member), kept⟩

section

variable (float : String → UInt64)

theorem knownKeys_eq : knownKeys = (hookFields float).flatMap RecordField.names := rfl

theorem fieldOf_eq_some {key : String} {field : RecordField AgentHookInput}
    (listed : field ∈ hookFields float) (named : key ∈ field.names) :
    fieldOf (hookFields float) key = some field := by
  have found : (fieldOf (hookFields float) key).isSome :=
    List.find?_isSome.mpr ⟨field, listed, by simpa using named⟩
  obtain ⟨other, first⟩ := Option.isSome_iff_exists.mp found
  obtain ⟨listed', named'⟩ := fieldOf_mem first
  rw [first]
  by_contra differ
  have apart : other ≠ field := fun same => differ (congrArg some same)
  have distinct := knownKeys_nodup
  rw [knownKeys_eq float, List.nodup_flatMap] at distinct
  have symm : Std.Symm (Function.onFun List.Disjoint (@RecordField.names AgentHookInput)) :=
    ⟨fun _ _ disjoint _ right left => disjoint left right⟩
  have disjoint := distinct.2.forall listed' listed apart
  exact disjoint named' named

theorem fieldOf_unknown {key : String} (unknown : key ∉ knownKeys) :
    fieldOf (hookFields float) key = none :=
  fieldOf_eq_none unknown

theorem exists_fieldOf {key : String} (known : key ∈ knownKeys) :
    ∃ field, fieldOf (hookFields float) key = some field := by
  rw [knownKeys_eq float] at known
  obtain ⟨field, listed, name⟩ := List.mem_flatMap.mp known
  exact ⟨field, fieldOf_eq_some float listed name⟩

theorem mem_knownKeys {key : String} {field : RecordField AgentHookInput}
    (named : fieldOf (hookFields float) key = some field) : key ∈ knownKeys := by
  obtain ⟨listed, name⟩ := fieldOf_mem named
  rw [knownKeys_eq float]
  exact List.mem_flatMap.mpr ⟨field, listed, name⟩

theorem camelCase_lost : ∀ key ∈ ["trace_parent", "cache_read_input_tokens"],
    camelCase asciiUppercase key ∉ knownKeys := by
  decide +kernel

/-- The camel case of a known key is a key of its field, but for two keys. -/
theorem camelCase_known (upper : Uppercase) {key : String} {field : RecordField AgentHookInput}
    (named : fieldOf (hookFields float) key = some field) (under : underscored key = true) :
    fieldOf (hookFields float) (camelCase upper key) = some field ∨
      camelCase upper key ∉ knownKeys ∧
        (key = "trace_parent" ∨ key = "cache_read_input_tokens") := by
  obtain ⟨listed, name⟩ := fieldOf_mem named
  have same : (hookFields fun _ => 0).map RecordField.names =
      (hookFields float).map RecordField.names := rfl
  have names : field.names ∈ (hookFields fun _ => 0).map RecordField.names := by
    rw [same]
    exact List.mem_map_of_mem listed
  obtain ⟨ascii, camel⟩ := hookNames_camelCase field.names names key name under
  have plain : camelCase upper key = camelCase asciiUppercase key :=
    congrArg String.ofList (camelLoop_ascii upper false ascii)
  rw [plain]
  rcases camel with known | lost
  · exact .inl (fieldOf_eq_some float listed known)
  · exact .inr ⟨camelCase_lost key (by simpa using lost), lost⟩

end

end AgentOtelBridge
