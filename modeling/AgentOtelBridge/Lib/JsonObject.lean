import AgentOtelBridge.Lib.Json
import Mathlib.Data.String.Basic

/-!
# JSON objects

The fields of an object are a map in the order of its keys.  A field is modified in
place, inserted or removed, and `without` are the fields of the other keys.

In a well-formed value the keys of every object ascend.  The operations on fields
keep that.
-/

namespace Json

abbrev Fields := List (String × Json)

def keysOf (fields : Fields) : List String := fields.map Prod.fst

def isObject : Json → Bool
  | .obj _ => true
  | _ => false

def asArray : Json → Option (List Json)
  | .arr items => some items
  | _ => none

def asObject : Json → Option Fields
  | .obj fields => some fields
  | _ => none

def mapArray (f : List Json → List Json) : Json → Json
  | .arr items => .arr (f items)
  | value => value

def mapObject (f : Fields → Fields) : Json → Json
  | .obj fields => .obj (f fields)
  | value => value

/-- The value of a key is modified where it is. -/
def modifyField (key : String) (f : Json → Json) : Fields → Fields
  | [] => []
  | (k, v) :: rest => if k = key then (k, f v) :: rest else (k, v) :: modifyField key f rest

/-- A new key comes before the first that is greater. -/
def insertSorted (key : String) (value : Json) : Fields → Fields
  | [] => [(key, value)]
  | (k, v) :: rest =>
      if key < k then (key, value) :: (k, v) :: rest else (k, v) :: insertSorted key value rest

/-- A key that is there keeps its place and has the value. -/
def insertField (key : String) (value : Json) (fields : Fields) : Fields :=
  match getField key fields with
  | some _ => modifyField key (fun _ => value) fields
  | none => insertSorted key value fields

/-- The fields of other keys. -/
def without (keys : List String) (fields : Fields) : Fields :=
  fields.filter fun field => field.1 ∉ keys

/-- Each of some keys has a value that is made of what it had. -/
def updateFields (keys : List String) (f : String → Option Json → Json) (fields : Fields) : Fields :=
  keys.foldl (fun fields key => insertField key (f key (getField key fields)) fields) fields

section

variable {key k : String} {value v : Json} {f g : Json → Json} {fields : Fields}
  {keys : List String}

/-! ## What is in a key -/

@[simp] theorem get_obj (fields : Fields) (key : String) :
    (Json.obj fields).get key = getField key fields := rfl

@[simp] theorem getField_nil (key : String) : getField key [] = none := rfl

theorem getField_cons (key k : String) (v : Json) (rest : Fields) :
    getField key ((k, v) :: rest) = if k = key then some v else getField key rest := by
  unfold getField
  rw [List.find?_cons]
  by_cases same : k = key <;> simp [same]

theorem getField_modifyField_self (key : String) (f : Json → Json) (fields : Fields) :
    getField key (modifyField key f fields) = (getField key fields).map f := by
  induction fields with
  | nil => rfl
  | cons field rest ih =>
      obtain ⟨k, v⟩ := field
      by_cases same : k = key <;> simp [modifyField, getField_cons, same, ih]

theorem getField_modifyField_ne (other : k ≠ key) (f : Json → Json) (fields : Fields) :
    getField k (modifyField key f fields) = getField k fields := by
  induction fields with
  | nil => rfl
  | cons field rest ih =>
      obtain ⟨l, v⟩ := field
      by_cases same : l = key
      · simp [modifyField, getField_cons, same, other.symm]
      · simp [modifyField, getField_cons, same, ih]

theorem getField_insertSorted_ne (other : k ≠ key) (value : Json) (fields : Fields) :
    getField k (insertSorted key value fields) = getField k fields := by
  induction fields with
  | nil => simp [insertSorted, getField_cons, other.symm]
  | cons field rest ih =>
      obtain ⟨l, v⟩ := field
      by_cases less : key < l
      · simp [insertSorted, getField_cons, less, other.symm]
      · simp [insertSorted, getField_cons, less, ih]

theorem getField_insertSorted_self (absent : getField key fields = none) (value : Json) :
    getField key (insertSorted key value fields) = some value := by
  induction fields with
  | nil => simp [insertSorted, getField_cons]
  | cons field rest ih =>
      obtain ⟨l, v⟩ := field
      rw [getField_cons] at absent
      have differs : l ≠ key := by
        rintro rfl
        simp at absent
      rw [if_neg differs] at absent
      by_cases less : key < l
      · simp [insertSorted, getField_cons, less]
      · simp [insertSorted, getField_cons, less, differs, ih absent]

@[simp] theorem getField_insertField_self (key : String) (value : Json) (fields : Fields) :
    getField key (insertField key value fields) = some value := by
  unfold insertField
  split
  next v found => simp [getField_modifyField_self, found]
  next absent => exact getField_insertSorted_self absent value

theorem getField_insertField_ne (other : k ≠ key) (value : Json) (fields : Fields) :
    getField k (insertField key value fields) = getField k fields := by
  unfold insertField
  split
  · exact getField_modifyField_ne other _ fields
  · exact getField_insertSorted_ne other value fields

theorem without_cons (keys : List String) (k : String) (v : Json) (rest : Fields) :
    without keys ((k, v) :: rest) =
      if k ∈ keys then without keys rest else (k, v) :: without keys rest := by
  unfold without
  rw [List.filter_cons]
  by_cases listed : k ∈ keys <;> simp [listed]

theorem getField_without (kept : k ∉ keys) (fields : Fields) :
    getField k (without keys fields) = getField k fields := by
  induction fields with
  | nil => rfl
  | cons field rest ih =>
      obtain ⟨l, v⟩ := field
      rw [without_cons, getField_cons]
      by_cases listed : l ∈ keys
      · have differs : l ≠ k := fun same => kept (same ▸ listed)
        rw [if_pos listed, if_neg differs, ih]
      · rw [if_neg listed, getField_cons, ih]

theorem getField_eq_none_of_without (listed : k ∈ keys) (fields : Fields) :
    getField k (without keys fields) = none := by
  unfold getField
  rw [List.find?_eq_none.mpr]
  · rfl
  · intro field kept
    obtain ⟨-, notListed⟩ := List.mem_filter.mp kept
    have differs : field.1 ≠ k := fun same => by simp [same, listed] at notListed
    simpa using differs

/-! ## Operations that change nothing -/

theorem modifyField_eq_self (fixed : ∀ v, getField key fields = some v → f v = v) :
    modifyField key f fields = fields := by
  induction fields with
  | nil => rfl
  | cons field rest ih =>
      obtain ⟨l, w⟩ := field
      rw [getField_cons] at fixed
      by_cases same : l = key
      · rw [if_pos same] at fixed
        simp [modifyField, same, fixed w rfl]
      · rw [if_neg same] at fixed
        simp [modifyField, same, ih fixed]

theorem insertField_eq_self (found : getField key fields = some value) :
    insertField key value fields = fields := by
  unfold insertField
  rw [found]
  exact modifyField_eq_self fun v again => Option.some.inj (found.symm.trans again)

theorem modifyField_modifyField (key : String) (f g : Json → Json) (fields : Fields) :
    modifyField key f (modifyField key g fields) = modifyField key (f ∘ g) fields := by
  induction fields with
  | nil => rfl
  | cons field rest ih =>
      obtain ⟨l, w⟩ := field
      by_cases same : l = key <;> simp [modifyField, same, ih]

theorem modifyField_insertSorted (absent : getField key fields = none) (f : Json → Json)
    (value : Json) :
    modifyField key f (insertSorted key value fields) = insertSorted key (f value) fields := by
  induction fields with
  | nil => simp [insertSorted, modifyField]
  | cons field rest ih =>
      obtain ⟨l, w⟩ := field
      rw [getField_cons] at absent
      have differs : l ≠ key := fun same => by simp [same] at absent
      rw [if_neg differs] at absent
      by_cases less : key < l
      · simp [insertSorted, modifyField, less]
      · simp [insertSorted, modifyField, less, differs, ih absent]

/-- A value that was just inserted is modified. -/
theorem modifyField_insertField (key : String) (f : Json → Json) (value : Json) (fields : Fields) :
    modifyField key f (insertField key value fields) = insertField key (f value) fields := by
  unfold insertField
  split
  · exact modifyField_modifyField key f _ fields
  next absent => exact modifyField_insertSorted absent f value

theorem modifyField_eq_insertField (found : getField key fields = some value) (f : Json → Json) :
    modifyField key f fields = insertField key (f value) fields := by
  rw [← modifyField_insertField, insertField_eq_self found]

theorem without_eq_self (absent : getField key fields = none) : without [key] fields = fields := by
  refine List.filter_eq_self.mpr fun field member => ?_
  have differs : field.1 ≠ key := by
    intro same
    have notFound := List.find?_eq_none.mp (Option.map_eq_none_iff.mp absent) field member
    simp [same] at notFound
  simpa using differs

/-! ## The fields of other keys -/

theorem without_modifyField (listed : key ∈ keys) (f : Json → Json) (fields : Fields) :
    without keys (modifyField key f fields) = without keys fields := by
  induction fields with
  | nil => rfl
  | cons field rest ih =>
      obtain ⟨l, v⟩ := field
      by_cases same : l = key
      · simp [modifyField, without_cons, same, listed]
      · rw [modifyField, if_neg same, without_cons, without_cons, ih]

theorem without_insertSorted (listed : key ∈ keys) (value : Json) (fields : Fields) :
    without keys (insertSorted key value fields) = without keys fields := by
  induction fields with
  | nil => simp [insertSorted, without, listed]
  | cons field rest ih =>
      obtain ⟨l, v⟩ := field
      by_cases less : key < l
      · simp [insertSorted, without_cons, less, listed]
      · rw [insertSorted, if_neg less, without_cons, without_cons, ih]

theorem without_insertField (listed : key ∈ keys) (value : Json) (fields : Fields) :
    without keys (insertField key value fields) = without keys fields := by
  unfold insertField
  split
  · exact without_modifyField listed _ fields
  · exact without_insertSorted listed value fields

theorem without_without (listed : key ∈ keys) (fields : Fields) :
    without keys (without [key] fields) = without keys fields := by
  unfold without
  rw [List.filter_filter]
  refine List.filter_congr fun field _ => ?_
  by_cases same : field.1 = key <;> simp [same, listed]

end

/-! ## Updates of several keys -/

section

variable {key : String} {keys : List String} {f : String → Option Json → Json}

theorem updateFields_cons (key : String) (keys : List String) (f : String → Option Json → Json)
    (fields : Fields) : updateFields (key :: keys) f fields =
      updateFields keys f (insertField key (f key (getField key fields)) fields) := rfl

theorem getField_updateFields_of_notMem (other : key ∉ keys) (fields : Fields) :
    getField key (updateFields keys f fields) = getField key fields := by
  induction keys generalizing fields with
  | nil => rfl
  | cons k keys ih =>
      rw [List.mem_cons, not_or] at other
      rw [updateFields_cons, ih other.2, getField_insertField_ne other.1]

theorem getField_updateFields (distinct : keys.Nodup) (listed : key ∈ keys) (fields : Fields) :
    getField key (updateFields keys f fields) = some (f key (getField key fields)) := by
  induction keys generalizing fields with
  | nil => exact absurd listed List.not_mem_nil
  | cons k keys ih =>
      obtain ⟨fresh, distinct⟩ := List.nodup_cons.mp distinct
      rw [updateFields_cons]
      by_cases same : key = k
      · subst same
        rw [getField_updateFields_of_notMem fresh, getField_insertField_self]
      · have later := (List.mem_cons.mp listed).resolve_left same
        rw [ih distinct later, getField_insertField_ne same]

theorem updateFields_eq_self {fields : Fields}
    (fixed : ∀ key ∈ keys, getField key fields = some (f key (getField key fields))) :
    updateFields keys f fields = fields := by
  induction keys with
  | nil => rfl
  | cons k keys ih =>
      rw [List.forall_mem_cons] at fixed
      rw [updateFields_cons, insertField_eq_self fixed.1, ih fixed.2]

/-- An update that leaves its own values as they are is idempotent. -/
theorem updateFields_updateFields (distinct : keys.Nodup) (fields : Fields)
    (fixed : ∀ key ∈ keys, f key (some (f key (getField key fields))) = f key (getField key fields)) :
    updateFields keys f (updateFields keys f fields) = updateFields keys f fields := by
  refine updateFields_eq_self fun key listed => ?_
  rw [getField_updateFields distinct listed, fixed key listed]

theorem without_updateFields {touched : List String} (subset : ∀ key ∈ keys, key ∈ touched)
    (fields : Fields) : without touched (updateFields keys f fields) = without touched fields := by
  induction keys generalizing fields with
  | nil => rfl
  | cons k keys ih =>
      rw [List.forall_mem_cons] at subset
      rw [updateFields_cons, ih subset.2, without_insertField subset.1]

end

/-! ## Well-formed values -/

inductive WellFormed : Json → Prop
  | null : WellFormed .null
  | bool (value : Bool) : WellFormed (.bool value)
  | num (text : String) : WellFormed (.num text)
  | str (value : String) : WellFormed (.str value)
  | arr {items : List Json} (values : ∀ v ∈ items, WellFormed v) : WellFormed (.arr items)
  | obj {fields : Fields} (keys : (keysOf fields).Pairwise (· < ·))
      (values : ∀ field ∈ fields, WellFormed field.2) : WellFormed (.obj fields)

/-- The fields of a well-formed object. -/
structure Fields.WellFormed (fields : Fields) : Prop where
  keys : (keysOf fields).Pairwise (· < ·)
  values : ∀ field ∈ fields, field.2.WellFormed

theorem wellFormed_obj {fields : Fields} : (Json.obj fields).WellFormed ↔ fields.WellFormed := by
  constructor
  · intro h
    cases h with
    | obj keys values => exact ⟨keys, values⟩
  · intro h
    exact .obj h.keys h.values

theorem wellFormed_arr {items : List Json} :
    (Json.arr items).WellFormed ↔ ∀ v ∈ items, v.WellFormed := by
  constructor
  · intro h
    cases h with
    | arr values => exact values
  · exact .arr

namespace Fields.WellFormed

variable {key : String} {value v : Json} {f : Json → Json} {fields : Fields} {keys : List String}

theorem get (h : fields.WellFormed) (found : getField key fields = some v) : v.WellFormed := by
  obtain ⟨field, search, rfl⟩ := Option.map_eq_some_iff.mp found
  exact h.values field (List.mem_of_find?_eq_some search)

theorem without (h : fields.WellFormed) (keys : List String) :
    Fields.WellFormed (without keys fields) where
  keys := h.keys.sublist (List.filter_sublist.map _)
  values field member := h.values field (List.mem_of_mem_filter member)

theorem keysOf_modifyField (key : String) (f : Json → Json) (fields : Fields) :
    keysOf (modifyField key f fields) = keysOf fields := by
  induction fields with
  | nil => rfl
  | cons field rest ih =>
      obtain ⟨l, v⟩ := field
      unfold keysOf at ih
      by_cases same : l = key <;> simp [modifyField, keysOf, same, ih]

theorem modifyField (h : fields.WellFormed) (key : String)
    (kept : ∀ v, v.WellFormed → (f v).WellFormed) :
    Fields.WellFormed (modifyField key f fields) where
  keys := keysOf_modifyField key f fields ▸ h.keys
  values := by
    have values := h.values
    clear h
    induction fields with
    | nil => exact fun _ member => absurd member List.not_mem_nil
    | cons field rest ih =>
        obtain ⟨l, w⟩ := field
        rw [List.forall_mem_cons] at values
        unfold Json.modifyField
        split
        · exact List.forall_mem_cons.mpr ⟨kept w values.1, values.2⟩
        · exact List.forall_mem_cons.mpr ⟨values.1, ih values.2⟩

theorem mem_insertSorted {field : String × Json} (member : field ∈ insertSorted key value fields) :
    field = (key, value) ∨ field ∈ fields := by
  induction fields with
  | nil => exact .inl (List.mem_singleton.mp member)
  | cons first rest ih =>
      obtain ⟨l, w⟩ := first
      unfold insertSorted at member
      split at member
      · exact List.mem_cons.mp member
      · rcases List.mem_cons.mp member with same | later
        · exact .inr (same ▸ .head _)
        · exact (ih later).imp_right (.tail _)

/-- A key that is not there goes to its place in the order. -/
theorem insertSorted (h : fields.WellFormed) (absent : getField key fields = none)
    (wellFormed : value.WellFormed) : Fields.WellFormed (insertSorted key value fields) where
  keys := by
    have ascend := h.keys
    clear h
    induction fields with
    | nil => exact List.pairwise_singleton _ _
    | cons field rest ih =>
        obtain ⟨l, w⟩ := field
        rw [getField_cons] at absent
        have differs : l ≠ key := fun same => by simp [same] at absent
        rw [if_neg differs] at absent
        rw [keysOf, List.map_cons, List.pairwise_cons] at ascend
        unfold Json.insertSorted
        split
        next less =>
          refine List.pairwise_cons.mpr ⟨fun k member => ?_, List.pairwise_cons.mpr ascend⟩
          rcases List.mem_cons.mp member with rfl | later
          · exact less
          · exact less.trans (ascend.1 k later)
        next notLess =>
          refine List.pairwise_cons.mpr ⟨fun k member => ?_, ih absent ascend.2⟩
          obtain ⟨field, there, rfl⟩ := List.mem_map.mp member
          rcases mem_insertSorted there with rfl | before
          · exact lt_of_le_of_ne (not_lt.mp notLess) differs
          · exact ascend.1 _ (List.mem_map_of_mem before)
  values field member := by
    rcases mem_insertSorted member with rfl | before
    · exact wellFormed
    · exact h.values field before

theorem insertField (h : fields.WellFormed) (key : String) (wellFormed : value.WellFormed) :
    Fields.WellFormed (insertField key value fields) := by
  unfold Json.insertField
  split
  · exact h.modifyField key fun _ _ => wellFormed
  next absent => exact h.insertSorted absent wellFormed

theorem updateFields {f : String → Option Json → Json} (h : fields.WellFormed)
    (made : ∀ key ∈ keys, ∀ old, (∀ v, old = some v → v.WellFormed) → (f key old).WellFormed) :
    Fields.WellFormed (updateFields keys f fields) := by
  induction keys generalizing fields with
  | nil => exact h
  | cons k keys ih =>
      rw [List.forall_mem_cons] at made
      rw [updateFields_cons]
      exact ih (h.insertField k (made.1 _ fun _ found => h.get found)) made.2

end Fields.WellFormed

theorem WellFormed.mapObject {f : Fields → Fields} {value : Json} (h : value.WellFormed)
    (kept : ∀ fields : Fields, fields.WellFormed → Fields.WellFormed (f fields)) :
    (mapObject f value).WellFormed := by
  cases value with
  | obj fields => exact wellFormed_obj.mpr (kept fields (wellFormed_obj.mp h))
  | null | bool | num | str | arr => exact h

theorem WellFormed.mapArray {f : List Json → List Json} {value : Json} (h : value.WellFormed)
    (kept : ∀ items : List Json, (∀ v ∈ items, v.WellFormed) → ∀ v ∈ f items, v.WellFormed) :
    (mapArray f value).WellFormed := by
  cases value with
  | arr items => exact .arr (kept items (wellFormed_arr.mp h))
  | null | bool | num | str | obj => exact h

/-- A value as the parser builds it. -/
abbrev Value := { value : Json // value.WellFormed }

end Json
