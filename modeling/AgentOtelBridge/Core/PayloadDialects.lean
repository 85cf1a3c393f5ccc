import AgentOtelBridge.Core.Model
import AgentOtelBridge.Core.PayloadFields

/-!
# Payloads in two dialects

A payload that spells a field under two of its names is decoded a second time.  Its entries
are collected in a map, and a key with an underscore is removed if its camel case is a key
too.  The two values have to be one, or two spellings of one recognized event.

A payload is what its text parses to: the keys in their order, each with its `Value`.  So no
object within a value repeats a key, and a number has one text.

`parseObject_eq_ok_iff` says when a payload is accepted in terms of its entries.
-/

namespace AgentOtelBridge

open Json

/-! ## Camel case -/

/-- `char::to_uppercase`, as far as it is known. -/
structure Uppercase where
  toUppercase : Char → List Char
  ascii : ∀ c : Char, c.val < 128 → toUppercase c = [c.toUpper]
  underscore : ∀ c : Char, '_' ∈ toUppercase c → c = '_'

def camelLoop (upper : Uppercase) : Bool → List Char → List Char
  | _, [] => []
  | uppercase, ch :: chars =>
      if ch = '_' then camelLoop upper true chars
      else if uppercase then upper.toUppercase ch ++ camelLoop upper false chars
      else ch :: camelLoop upper false chars

def camelCase (upper : Uppercase) (key : String) : String :=
  String.ofList (camelLoop upper false key.toList)

def underscored (key : String) : Bool := key.toList.contains '_'

section

variable (upper : Uppercase)

theorem underscore_notMem_camelLoop (uppercase : Bool) (chars : List Char) :
    '_' ∉ camelLoop upper uppercase chars := by
  induction chars generalizing uppercase with
  | nil => exact List.not_mem_nil
  | cons ch chars ih =>
      unfold camelLoop
      split
      · exact ih true
      next other =>
        split
        · intro member
          rcases List.mem_append.mp member with first | later
          · exact other (upper.underscore ch first)
          · exact ih false later
        · intro member
          rcases List.mem_cons.mp member with same | later
          · exact other same.symm
          · exact ih false later

@[simp] theorem underscored_camelCase (key : String) : underscored (camelCase upper key) = false := by
  simpa [underscored, camelCase] using underscore_notMem_camelLoop upper false key.toList

/-! ## The second decoder -/

/-- Two spellings of one recognized event. -/
def equivalentEvent (key : String) (value : Json) (other : Option Json) : Bool :=
  match key, asStr value, other.bind asStr with
  | "hook_event_name", some a, some b =>
      HookEvent.fromStrName a ≠ .unknown ∧ HookEvent.fromStrName a = HookEvent.fromStrName b
  | _, _, _ => false

def insertUnique (result : Fields) (entry : String × Json) : Option Fields :=
  if (getField entry.1 result).isSome then none else some (insertField entry.1 entry.2 result)

/-- `UniqueObject`: the entries in a map, if no key is repeated. -/
def uniqueObject (payload : Fields) : Option Fields := payload.foldlM insertUnique []

/-- A key with an underscore goes if its camel case is there, with its value. -/
def unifyKey (s : Fields × Bool) (key : String) : Option (Fields × Bool) :=
  match getField (camelCase upper key) s.1 with
  | none => some s
  | some value =>
    if some value ≠ getField key s.1 ∧ ¬ equivalentEvent key value (getField key s.1) then none
    else some (without [key] s.1, true)

inductive PayloadError where
  | decode (error : DecodeError)
  | repeatedKey
deriving DecidableEq, Repr

/-- `AgentHookInput::parse_slice` of an object that is within the limits. -/
def AgentHookInput.parseObject (float : String → UInt64) (payload : Fields) :
    Except PayloadError AgentHookInput :=
  match AgentHookInput.deserialize float payload with
  | .ok input => .ok input
  | .error (.invalidType name) => .error (.decode (.invalidType name))
  | .error (.duplicateField name) =>
    match uniqueObject payload with
    | none => .error .repeatedKey
    | some object =>
      match ((Json.keysOf object).filter underscored).foldlM (unifyKey upper) (object, false) with
      | none => .error (.decode (.duplicateField name))
      | some (object, removed) =>
        if removed then (AgentHookInput.deserialize float object).mapError .decode
        else .error (.decode (.duplicateField name))

end

/-! ## The map -/

theorem getField_eq_none {key : String} {fields : Fields} :
    getField key fields = none ↔ key ∉ Json.keysOf fields := by
  induction fields with
  | nil => simp [Json.keysOf]
  | cons field rest ih =>
      obtain ⟨k, v⟩ := field
      rw [getField_cons]
      by_cases same : k = key
      · simp [same, Json.keysOf]
      · rw [if_neg same, ih]
        simp [Json.keysOf, Ne.symm same]

theorem getField_eq_some {key : String} {value : Json} {fields : Fields}
    (distinct : (Json.keysOf fields).Nodup) :
    getField key fields = some value ↔ (key, value) ∈ fields := by
  induction fields with
  | nil => simp
  | cons field rest ih =>
      obtain ⟨k, v⟩ := field
      obtain ⟨fresh, distinct⟩ := List.nodup_cons.mp distinct
      rw [getField_cons, List.mem_cons, Prod.mk.injEq]
      by_cases same : k = key
      · subst same
        have later : (k, value) ∉ rest := fun member =>
          fresh (List.mem_map.mpr ⟨(k, value), member, rfl⟩)
        simp [later, eq_comm]
      · simp [same, ih distinct, Ne.symm same]

theorem insertSorted_perm (key : String) (value : Json) (fields : Fields) :
    (insertSorted key value fields).Perm ((key, value) :: fields) := by
  induction fields with
  | nil => exact .refl _
  | cons field rest ih =>
      obtain ⟨k, v⟩ := field
      unfold insertSorted
      split
      · exact .refl _
      · exact (ih.cons (k, v)).trans (.swap (key, value) (k, v) rest)

theorem insertUnique_eq_some {result result' : Fields} {entry : String × Json} :
    insertUnique result entry = some result' ↔
      entry.1 ∉ Json.keysOf result ∧ result' = insertSorted entry.1 entry.2 result := by
  unfold insertUnique insertField
  rw [← getField_eq_none]
  cases getField entry.1 result with
  | none => simp [eq_comm]
  | some value => simp

theorem keysOf_perm {fields others : Fields} (perm : fields.Perm others) :
    (Json.keysOf fields).Perm (Json.keysOf others) :=
  perm.map _

theorem foldlM_insertUnique_perm {payload result object : Fields}
    (distinct : (Json.keysOf result).Nodup) (found : payload.foldlM insertUnique result = some object) :
    object.Perm (payload ++ result) ∧ (Json.keysOf (payload ++ result)).Nodup := by
  induction payload generalizing result with
  | nil =>
      obtain rfl : result = object := Option.some.inj found
      exact ⟨.refl _, distinct⟩
  | cons entry payload ih =>
      rw [List.foldlM_cons] at found
      obtain ⟨result', inserted, later⟩ := Option.bind_eq_some_iff.mp found
      obtain ⟨fresh, rfl⟩ := insertUnique_eq_some.mp inserted
      have grown := insertSorted_perm entry.1 entry.2 result
      have distinct' : (Json.keysOf (insertSorted entry.1 entry.2 result)).Nodup :=
        (keysOf_perm grown).nodup_iff.mpr (List.nodup_cons.mpr ⟨fresh, distinct⟩)
      obtain ⟨perm, keys⟩ := ih distinct' later
      have moved : (payload ++ insertSorted entry.1 entry.2 result).Perm
          (entry :: payload ++ result) :=
        (grown.append_left payload).trans List.perm_middle
      exact ⟨perm.trans moved, (keysOf_perm moved).nodup_iff.mp keys⟩

theorem exists_foldlM_insertUnique {payload result : Fields}
    (distinct : (Json.keysOf (payload ++ result)).Nodup) :
    ∃ object, payload.foldlM insertUnique result = some object := by
  induction payload generalizing result with
  | nil => exact ⟨result, rfl⟩
  | cons entry payload ih =>
      have grown := insertSorted_perm entry.1 entry.2 result
      have moved : (payload ++ insertSorted entry.1 entry.2 result).Perm
          (entry :: payload ++ result) :=
        (grown.append_left payload).trans List.perm_middle
      have fresh : entry.1 ∉ Json.keysOf result := by
        intro member
        obtain ⟨first, -⟩ := List.nodup_cons.mp distinct
        obtain ⟨field, there, same⟩ := List.mem_map.mp member
        exact first (List.mem_map.mpr ⟨field, List.mem_append_right payload there, same⟩)
      obtain ⟨object, found⟩ := ih ((keysOf_perm moved).nodup_iff.mpr distinct)
      refine ⟨object, ?_⟩
      rw [List.foldlM_cons, insertUnique_eq_some.mpr ⟨fresh, rfl⟩]
      exact found

/-- The map has the entries of a payload that repeats no key. -/
theorem uniqueObject_eq_some {payload object : Fields} (found : uniqueObject payload = some object) :
    object.Perm payload ∧ (Json.keysOf payload).Nodup := by
  have empty : (Json.keysOf []).Nodup := List.nodup_nil
  simpa using foldlM_insertUnique_perm empty found

theorem exists_uniqueObject {payload : Fields} (distinct : (Json.keysOf payload).Nodup) :
    ∃ object, uniqueObject payload = some object :=
  exists_foldlM_insertUnique (by simpa using distinct)

/-! ## The removal -/

section

variable (upper : Uppercase)

/-- A key whose camel case is there too. -/
def Doubled (fields : Fields) (key : String) : Prop :=
  underscored key = true ∧ camelCase upper key ∈ Json.keysOf fields

instance (fields : Fields) (key : String) : Decidable (Doubled upper fields key) :=
  inferInstanceAs (Decidable (_ ∧ _))

/-- The values of each doubled key are one value, or two spellings of one event. -/
def Agrees (fields : Fields) : Prop :=
  ∀ key value other, underscored key = true → (key, other) ∈ fields →
    (camelCase upper key, value) ∈ fields →
      value = other ∨ equivalentEvent key value (some other) = true

/-- The entries without the doubled keys. -/
def unified (fields : Fields) : Fields := fields.filter fun entry => ¬ Doubled upper fields entry.1

/-- One key agrees with its camel case, or has none. -/
def KeyAgrees (object : Fields) (key : String) : Prop :=
  ∀ value, getField (camelCase upper key) object = some value →
    some value = getField key object ∨ equivalentEvent key value (getField key object) = true

theorem without_without_append (keys others : List String) (fields : Fields) :
    without others (without keys fields) = without (keys ++ others) fields := by
  unfold without
  rw [List.filter_filter]
  refine List.filter_congr fun field _ => ?_
  simp [Bool.and_comm]

/-- The loop removes the keys that are doubled, if all agree. -/
theorem foldlM_unifyKey (object : Fields) (keys : List String) {gone : List String} (removed : Bool)
    (distinct : (gone ++ keys).Nodup) (under : ∀ key ∈ gone ++ keys, underscored key = true)
    (result : Fields × Bool) :
    keys.foldlM (unifyKey upper) (without gone object, removed) = some result ↔
      (∀ key ∈ keys, KeyAgrees upper object key) ∧
        result = (without (gone ++ keys.filter fun key =>
            camelCase upper key ∈ Json.keysOf object) object,
          removed || keys.any fun key => camelCase upper key ∈ Json.keysOf object) := by
  induction keys generalizing gone removed with
  | nil => simp [eq_comm]
  | cons key keys ih =>
      have kept : key ∉ gone := fun member =>
        (List.nodup_append.mp distinct).2.2 key member key (List.mem_cons_self ..) rfl
      have camel : camelCase upper key ∉ gone := fun member => by
        have := under _ (List.mem_append_left (key :: keys) member)
        simp at this
      have step : unifyKey upper (without gone object, removed) key =
          match getField (camelCase upper key) object with
          | none => some (without gone object, removed)
          | some value =>
            if some value ≠ getField key object ∧
                ¬ equivalentEvent key value (getField key object) then none
            else some (without (gone ++ [key]) object, true) := by
        unfold unifyKey
        rw [getField_without camel, getField_without kept, without_without_append]
      rw [List.foldlM_cons, step]
      cases found : getField (camelCase upper key) object with
      | none =>
          have absent := getField_eq_none.mp found
          have agrees : KeyAgrees upper object key := by
            intro value there
            rw [found] at there
            cases there
          have distinct' : (gone ++ keys).Nodup :=
            distinct.sublist ((List.sublist_cons_self key keys).append_left gone)
          have under' : ∀ key ∈ gone ++ keys, underscored key = true := fun k member =>
            under k (by simp only [List.mem_append, List.mem_cons] at member ⊢; tauto)
          simp [ih removed distinct' under', agrees, absent]
      | some value =>
          have present : camelCase upper key ∈ Json.keysOf object := by
            by_contra absent
            rw [getField_eq_none.mpr absent] at found
            cases found
          have agrees : KeyAgrees upper object key ↔ ¬ (some value ≠ getField key object ∧
              ¬ equivalentEvent key value (getField key object) = true) := by
            unfold KeyAgrees
            rw [found]
            simp only [Option.some.injEq, forall_eq']
            tauto
          by_cases clash : some value ≠ getField key object ∧
              ¬ equivalentEvent key value (getField key object) = true
          · simp [agrees, clash]
          · have same : gone ++ [key] ++ keys = gone ++ key :: keys := by simp
            have later := ih true (same ▸ distinct) (same ▸ under)
            simp only [if_neg clash, Option.bind_eq_bind, Option.bind_some, later]
            simp [agrees.mpr clash, present]

/-! ## Acceptance -/

variable {float : String → UInt64} {payload : Fields} {input : AgentHookInput}

/-- What the second decoder makes of a payload that repeats no key. -/
theorem foldlM_unifyKey_object {object : Fields} (perm : object.Perm payload)
    (distinct : (Json.keysOf payload).Nodup) (result : Fields × Bool) :
    ((Json.keysOf object).filter underscored).foldlM (unifyKey upper) (object, false) = some result ↔
      Agrees upper payload ∧ result = (unified upper object,
        ((Json.keysOf object).filter underscored).any fun key =>
          camelCase upper key ∈ Json.keysOf object) := by
  have distinct' : (Json.keysOf object).Nodup := (keysOf_perm perm).nodup_iff.mpr distinct
  have under : ∀ key ∈ [] ++ (Json.keysOf object).filter underscored, underscored key = true :=
    fun key member => (List.mem_filter.mp member).2
  have loop := foldlM_unifyKey upper object ((Json.keysOf object).filter underscored) false
    (distinct'.filter _) under result
  have start : without [] object = object := by simp [without]
  have all : (∀ key ∈ (Json.keysOf object).filter underscored, KeyAgrees upper object key) ↔
      Agrees upper payload := by
    constructor
    · intro agrees key value other under member there
      have found : getField key object = some other :=
        (getField_eq_some distinct').mpr (perm.mem_iff.mpr member)
      have listed : key ∈ (Json.keysOf object).filter underscored :=
        List.mem_filter.mpr ⟨List.mem_map.mpr ⟨_, perm.mem_iff.mpr member, rfl⟩, under⟩
      have agree := agrees key listed value
        ((getField_eq_some distinct').mpr (perm.mem_iff.mpr there))
      rw [found] at agree
      exact agree.imp_left Option.some.inj
    · intro agrees key listed value there
      obtain ⟨member, under⟩ := List.mem_filter.mp listed
      obtain ⟨⟨k, other⟩, entry, rfl⟩ := List.mem_map.mp member
      have found : getField k object = some other := (getField_eq_some distinct').mpr entry
      rw [found]
      exact (agrees k value other under (perm.mem_iff.mp entry)
        (perm.mem_iff.mp ((getField_eq_some distinct').mp there))).imp_left (congrArg some)
  have gone : without ((Json.keysOf object).filter underscored |>.filter fun key =>
      camelCase upper key ∈ Json.keysOf object) object = unified upper object := by
    unfold without unified
    refine List.filter_congr fun entry member => ?_
    have key : entry.1 ∈ Json.keysOf object := List.mem_map_of_mem member
    simp [Doubled, key, Bool.or_comm]
  rw [start, all, List.nil_append, gone, Bool.false_or] at loop
  exact loop

theorem unified_perm {fields others : Fields} (perm : fields.Perm others) :
    (unified upper fields).Perm (unified upper others) := by
  have same : unified upper fields = fields.filter fun entry => ¬ Doubled upper others entry.1 := by
    refine List.filter_congr fun entry _ => ?_
    simp [Doubled, (keysOf_perm perm).mem_iff]
  rw [same]
  exact perm.filter _

/-- The second decoder accepts a payload that repeats no key, whose doubled keys agree and are
some, and whose other entries decode. -/
structure Unifies (float : String → UInt64) (payload : Fields) (input : AgentHookInput) : Prop where
  distinct : (Json.keysOf payload).Nodup
  agrees : Agrees upper payload
  doubled : ∃ key ∈ Json.keysOf payload, Doubled upper payload key
  decodes : Decodes (hookFields float) {} (unified upper payload) input

theorem parseObject_eq_ok_of_unifies (unifies : Unifies upper float payload input) {name : String}
    (duplicate : AgentHookInput.deserialize float payload = .error (.duplicateField name)) :
    AgentHookInput.parseObject upper float payload = .ok input := by
  obtain ⟨object, found⟩ := exists_uniqueObject unifies.distinct
  obtain ⟨perm, distinct⟩ := uniqueObject_eq_some found
  have loop := (foldlM_unifyKey_object upper perm distinct _).mpr ⟨unifies.agrees, rfl⟩
  have removed : ((Json.keysOf object).filter underscored).any
      (fun key => camelCase upper key ∈ Json.keysOf object) = true := by
    obtain ⟨key, member, under, there⟩ := unifies.doubled
    have keys := keysOf_perm perm
    refine List.any_eq_true.mpr ⟨key, List.mem_filter.mpr ⟨keys.mem_iff.mpr member, under⟩, ?_⟩
    simpa using keys.mem_iff.mpr there
  have decoded : AgentHookInput.deserialize float (unified upper object) = .ok input :=
    decodeObject_eq_ok_iff.mpr
      (unifies.decodes.perm (hookFields_commute float) (unified_perm upper perm.symm))
  simp only [AgentHookInput.parseObject, duplicate, found, loop, removed, if_true, decoded]
  rfl

theorem unifies_of_parseObject_eq_ok {name : String}
    (duplicate : AgentHookInput.deserialize float payload = .error (.duplicateField name))
    (accepted : AgentHookInput.parseObject upper float payload = .ok input) :
    Unifies upper float payload input := by
  simp only [AgentHookInput.parseObject, duplicate] at accepted
  cases found : uniqueObject payload with
  | none => simp [found] at accepted
  | some object =>
      obtain ⟨perm, distinct⟩ := uniqueObject_eq_some found
      simp only [found] at accepted
      cases loop : ((Json.keysOf object).filter underscored).foldlM (unifyKey upper) (object, false) with
      | none => simp [loop] at accepted
      | some result =>
          simp only [loop] at accepted
          obtain ⟨agrees, rfl⟩ := (foldlM_unifyKey_object upper perm distinct result).mp loop
          split at accepted
          next removed =>
            have decoded : AgentHookInput.deserialize float (unified upper object) = .ok input := by
              cases decoded : AgentHookInput.deserialize float (unified upper object) with
              | error e => simp [decoded, Except.mapError] at accepted
              | ok input' => simpa [decoded, Except.mapError] using accepted
            obtain ⟨key, listed, there⟩ := List.any_eq_true.mp removed
            obtain ⟨member, under⟩ := List.mem_filter.mp listed
            have keys := keysOf_perm perm
            exact {
              distinct
              agrees
              doubled := ⟨key, keys.mem_iff.mp member, under,
                keys.mem_iff.mp (by simpa using there)⟩
              decodes := (decodeObject_eq_ok_iff.mp decoded).perm (hookFields_commute float)
                (unified_perm upper perm) }
          next => cases accepted

/-- A payload is accepted if it decodes, or if a field is met twice before a value that cannot be
read, and the second decoder accepts it. -/
theorem parseObject_eq_ok_iff :
    AgentHookInput.parseObject upper float payload = .ok input ↔
      Decodes (hookFields float) {} payload input ∨
        DuplicateFirst (hookFields float) payload ∧ Unifies upper float payload input := by
  have decodes : AgentHookInput.deserialize float payload = .ok input ↔
      Decodes (hookFields float) {} payload input := decodeObject_eq_ok_iff
  have duplicate : (∃ name, AgentHookInput.deserialize float payload =
      .error (.duplicateField name)) ↔ DuplicateFirst (hookFields float) payload :=
    decodeObject_eq_duplicate_iff
  rw [← decodes, ← duplicate]
  constructor
  · intro accepted
    cases first : AgentHookInput.deserialize float payload with
    | ok input' =>
        simp only [AgentHookInput.parseObject, first] at accepted
        cases accepted
        exact .inl rfl
    | error e =>
        cases e with
        | duplicateField name =>
            exact .inr ⟨⟨name, rfl⟩, unifies_of_parseObject_eq_ok upper first accepted⟩
        | invalidType name => simp [AgentHookInput.parseObject, first] at accepted
  · rintro (first | ⟨⟨name, first⟩, unifies⟩)
    · simp only [AgentHookInput.parseObject, first]
    · exact parseObject_eq_ok_of_unifies upper unifies first

end

end AgentOtelBridge
