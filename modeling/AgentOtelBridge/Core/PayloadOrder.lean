import AgentOtelBridge.Core.HookPayload
import Mathlib.Data.List.Nodup
import Mathlib.Data.List.Pairwise
import Mathlib.Data.List.Perm.Basic

/-!
# The order of a payload

Decoding takes the entries of an object in their order.  The order decides which error comes
first, and nothing else: an object that is decoded in one order is decoded in each, with one
result (`Decodes.perm`).

The readings of an object are its entries under the names of the table, each with its field.
An object decodes if no two readings are of one field and each can be read, and its record is
then the default with what the readings set.
-/

namespace AgentOtelBridge

open Json

variable {ρ : Type} {table : List (RecordField ρ)} {default record result : ρ}
  {fields others : Fields}

/-! ## Readings -/

/-- The field that a key names. -/
def fieldOf (table : List (RecordField ρ)) (key : String) : Option (RecordField ρ) :=
  table.find? fun field => key ∈ field.names

/-- The entries under the names of the table, each with its field. -/
def readings (table : List (RecordField ρ)) (fields : Fields) : List (RecordField ρ × Json) :=
  fields.filterMap fun entry => (fieldOf table entry.1).map fun field => (field, entry.2)

/-- The names of the fields that are read. -/
def readNames (table : List (RecordField ρ)) (fields : Fields) : List String :=
  (readings table fields).map fun reading => reading.1.name

/-- What a reading does to the record. -/
def put (record : ρ) (reading : RecordField ρ × Json) : ρ :=
  ((reading.1.read reading.2).getD id) record

def Readable (table : List (RecordField ρ)) (fields : Fields) : Prop :=
  ∀ reading ∈ readings table fields, (reading.1.read reading.2).isSome

theorem readings_cons (table : List (RecordField ρ)) (entry : String × Json) (fields : Fields) :
    readings table (entry :: fields) =
      ((fieldOf table entry.1).map fun field => (field, entry.2)).toList ++
        readings table fields := by
  unfold readings
  rw [List.filterMap_cons]
  cases (fieldOf table entry.1).map fun field => (field, entry.2) <;> rfl

theorem readings_append (table : List (RecordField ρ)) (fields others : Fields) :
    readings table (fields ++ others) = readings table fields ++ readings table others :=
  List.filterMap_append

theorem mem_readings {reading : RecordField ρ × Json} :
    reading ∈ readings table fields ↔
      ∃ key, (key, reading.2) ∈ fields ∧ fieldOf table key = some reading.1 := by
  constructor
  · intro member
    obtain ⟨entry, there, found⟩ := List.mem_filterMap.mp member
    obtain ⟨field, named, rfl⟩ := Option.map_eq_some_iff.mp found
    exact ⟨entry.1, there, named⟩
  · rintro ⟨key, there, named⟩
    exact List.mem_filterMap.mpr ⟨(key, reading.2), there, by simp [named]⟩

theorem fieldOf_mem {key : String} {field : RecordField ρ} (named : fieldOf table key = some field) :
    field ∈ table ∧ key ∈ field.names :=
  ⟨List.mem_of_find?_eq_some named, by simpa using List.find?_some named⟩

theorem fieldOf_eq_none {key : String} (unknown : key ∉ table.flatMap RecordField.names) :
    fieldOf table key = none := by
  refine List.find?_eq_none.mpr fun field member named => unknown ?_
  exact List.mem_flatMap.mpr ⟨field, member, by simpa using named⟩

theorem readings_perm (perm : fields.Perm others) :
    (readings table fields).Perm (readings table others) :=
  perm.filterMap _

/-- The field of an entry is read twice if two entries are of one field. -/
theorem readNames_perm (perm : fields.Perm others) :
    (readNames table fields).Perm (readNames table others) :=
  (readings_perm perm).map _

theorem keysOf_nodup {fields : Fields} (distinct : (Json.keysOf fields).Nodup) {entry other : String × Json}
    (member : entry ∈ fields) (member' : other ∈ fields) (same : entry.1 = other.1) :
    entry = other :=
  List.inj_on_of_nodup_map distinct member member' same

/-- No field is read twice if two entries of one field are one entry. -/
theorem readNames_nodup_iff (distinct : (Json.keysOf fields).Nodup) :
    (readNames table fields).Nodup ↔ ∀ entry ∈ fields, ∀ other ∈ fields, ∀ field field',
      fieldOf table entry.1 = some field → fieldOf table other.1 = some field' →
        field.name = field'.name → entry = other := by
  have names : readNames table fields =
      fields.filterMap fun entry => (fieldOf table entry.1).map RecordField.name := by
    unfold readNames readings
    rw [List.map_filterMap]
    simp only [Option.map_map]
    rfl
  rw [names, List.Nodup, List.pairwise_filterMap]
  constructor
  · intro apart entry member other member' field field' named named' same
    by_contra differ
    have symm : Std.Symm fun entry other : String × Json =>
        ∀ name, (fieldOf table entry.1).map RecordField.name = some name →
          ∀ name', (fieldOf table other.1).map RecordField.name = some name' → name ≠ name' :=
      ⟨fun _ _ apart name found name' found' same => apart name' found' name found same.symm⟩
    have apart := apart.forall member member' differ
    exact apart field.name (by rw [named]; rfl) field'.name (by rw [named']; rfl) same
  · intro single
    refine (distinct.of_map Prod.fst).pairwise_of_forall_ne fun entry member other member' differ => ?_
    intro name found name' found' same
    obtain ⟨field, named, rfl⟩ := Option.map_eq_some_iff.mp found
    obtain ⟨field', named', rfl⟩ := Option.map_eq_some_iff.mp found'
    exact differ (single entry member other member' field field' named named' same)

/-! ## Decoding -/

/-- The entries of an object are read, each field once, and the record is the result. -/
structure Decodes (table : List (RecordField ρ)) (default : ρ) (fields : Fields) (result : ρ) :
    Prop where
  readable : Readable table fields
  distinct : (readNames table fields).Nodup
  result : (readings table fields).foldl put default = result

/-- One step of the decoder, on the field that the entry names. -/
theorem decodeEntry_eq (table : List (RecordField ρ)) (seen : List String) (record : ρ)
    (entry : String × Json) :
    decodeEntry table (seen, record) entry =
      match fieldOf table entry.1 with
      | none => .ok (seen, record)
      | some field =>
        if field.name ∈ seen then .error (.duplicateField field.name)
        else if (field.read entry.2).isSome then
          .ok (field.name :: seen, put record (field, entry.2))
        else .error (.invalidType field.name) := by
  unfold decodeEntry fieldOf put
  cases table.find? fun field => entry.1 ∈ field.names with
  | none => rfl
  | some field => cases found : field.read entry.2 <;> simp [found]

theorem foldlM_decodeEntry_eq_ok (table : List (RecordField ρ)) (result : ρ) (fields : Fields)
    (seen : List String) (record : ρ) :
    (∃ seen', fields.foldlM (decodeEntry table) (seen, record) = .ok (seen', result)) ↔
      Readable table fields ∧
        ((readNames table fields).Nodup ∧ ∀ name ∈ readNames table fields, name ∉ seen) ∧
        (readings table fields).foldl put record = result := by
  induction fields generalizing seen record with
  | nil =>
      simp [Readable, readNames, readings, pure, Except.pure]
  | cons entry fields ih =>
      rw [List.foldlM_cons, decodeEntry_eq]
      simp only [Readable, readNames, readings_cons]
      cases fieldOf table entry.1 with
      | none => exact ih seen record
      | some field =>
          by_cases again : field.name ∈ seen
          · simp [again, bind, Except.bind]
          · by_cases read : (field.read entry.2).isSome
            · have later := ih (field.name :: seen) (put record (field, entry.2))
              simp only [again, read, if_true, if_false, bind, Except.bind, later]
              simp only [Readable, readNames, Option.map_some, Option.toList_some,
                List.singleton_append, List.map_cons, List.nodup_cons, List.forall_mem_cons,
                List.foldl_cons]
              simp only [List.mem_cons, not_or]
              constructor
              · rintro ⟨readable, ⟨distinct, fresh⟩, rfl⟩
                exact ⟨⟨read, readable⟩, ⟨⟨fun same => (fresh _ same).1 rfl, distinct⟩, again,
                  fun name member => (fresh name member).2⟩, rfl⟩
              · rintro ⟨⟨-, readable⟩, ⟨⟨new, distinct⟩, -, fresh⟩, rfl⟩
                exact ⟨readable, ⟨distinct, fun name member =>
                  ⟨fun same => new (same ▸ member), fresh name member⟩⟩, rfl⟩
            · simp [again, read, bind, Except.bind]

theorem decodeObject_eq_ok_iff :
    decodeObject table default fields = .ok result ↔ Decodes table default fields result := by
  have run := foldlM_decodeEntry_eq_ok table result fields [] default
  have mapped : decodeObject table default fields = .ok result ↔
      ∃ seen, fields.foldlM (decodeEntry table) ([], default) = .ok (seen, result) := by
    unfold decodeObject
    cases fields.foldlM (decodeEntry table) ([], default) with
    | error e => simp [Except.map]
    | ok state => simp [Except.map, Prod.ext_iff]
  rw [mapped, run]
  constructor
  · rintro ⟨readable, ⟨distinct, -⟩, rfl⟩
    exact ⟨readable, distinct, rfl⟩
  · rintro ⟨readable, distinct, rfl⟩
    exact ⟨readable, ⟨distinct, fun _ _ => List.not_mem_nil⟩, rfl⟩

/-- A field is met a second time, and each value before it can be read. -/
def DuplicateFirst (table : List (RecordField ρ)) (fields : Fields) : Prop :=
  ∃ before entry after, fields = before ++ entry :: after ∧ Readable table before ∧
    ∃ field, fieldOf table entry.1 = some field ∧ field.name ∈ readNames table before

theorem foldlM_decodeEntry_eq_duplicate (table : List (RecordField ρ)) (fields : Fields)
    (seen : List String) (record : ρ) :
    (∃ name, fields.foldlM (decodeEntry table) (seen, record) = .error (.duplicateField name)) ↔
      ∃ before entry after, fields = before ++ entry :: after ∧ Readable table before ∧
        ∃ field, fieldOf table entry.1 = some field ∧
          (field.name ∈ seen ∨ field.name ∈ readNames table before) := by
  induction fields generalizing seen record with
  | nil => simp [pure, Except.pure]
  | cons entry fields ih =>
      -- the first entry is the one that repeats a field, or it is before that entry
      have split : (∃ before e after, entry :: fields = before ++ e :: after ∧
          Readable table before ∧ ∃ field, fieldOf table e.1 = some field ∧
            (field.name ∈ seen ∨ field.name ∈ readNames table before)) ↔
          (∃ field, fieldOf table entry.1 = some field ∧ field.name ∈ seen) ∨
          ∃ before e after, fields = before ++ e :: after ∧
            Readable table (entry :: before) ∧ ∃ field, fieldOf table e.1 = some field ∧
              (field.name ∈ seen ∨ field.name ∈ readNames table (entry :: before)) := by
        constructor
        · rintro ⟨before, e, after, same, readable, field, named, repeated⟩
          cases before with
          | nil =>
              obtain ⟨rfl, rfl⟩ := List.cons.inj same
              exact .inl ⟨field, named, repeated.resolve_right List.not_mem_nil⟩
          | cons first before =>
              obtain ⟨rfl, rfl⟩ := List.cons.inj same
              exact .inr ⟨before, e, after, rfl, readable, field, named, repeated⟩
        · rintro (⟨field, named, repeated⟩ | ⟨before, e, after, rfl, readable, twice⟩)
          · exact ⟨[], entry, fields, rfl, fun _ member => absurd member List.not_mem_nil,
              field, named, .inl repeated⟩
          · exact ⟨entry :: before, e, after, rfl, readable, twice⟩
      rw [split, List.foldlM_cons, decodeEntry_eq]
      simp only [Readable, readNames, readings_cons]
      cases fieldOf table entry.1 with
      | none => simpa [bind, Except.bind, Readable, readNames] using ih seen record
      | some field =>
          by_cases again : field.name ∈ seen
          · simp [again, bind, Except.bind]
          · by_cases read : (field.read entry.2).isSome
            · have later := ih (field.name :: seen) (put record (field, entry.2))
              simp only [again, read, if_true, if_false, bind, Except.bind, later]
              simp [Readable, readNames, read, again, or_assoc, or_left_comm]
            · simp [again, read, bind, Except.bind]

theorem decodeObject_eq_duplicate_iff :
    (∃ name, decodeObject table default fields = .error (.duplicateField name)) ↔
      DuplicateFirst table fields := by
  have run := foldlM_decodeEntry_eq_duplicate table fields [] default
  have mapped : (∃ name, decodeObject table default fields = .error (.duplicateField name)) ↔
      ∃ name, fields.foldlM (decodeEntry table) ([], default) = .error (.duplicateField name) := by
    unfold decodeObject
    cases fields.foldlM (decodeEntry table) ([], default) <;> simp [Except.map]
  rw [mapped, run]
  simp [DuplicateFirst]

/-! ## The order of readings -/

/-- What two fields do to a record does not depend on their order. -/
def RecordField.Commutes (field other : RecordField ρ) : Prop :=
  ∀ value value' set set', field.read value = some set → other.read value' = some set' →
    ∀ record, set (set' record) = set' (set record)

instance : Std.Symm (@RecordField.Commutes ρ) where
  symm field other commutes := by
    intro value value' set set' read read' record
    exact (commutes value' value set' set read' read record).symm

theorem RecordField.Commutes.put {field other : RecordField ρ} (commutes : field.Commutes other)
    (record : ρ) (value value' : Json) :
    put (put record (field, value)) (other, value') =
      put (put record (other, value')) (field, value) := by
  unfold AgentOtelBridge.put
  cases read : field.read value with
  | none => rfl
  | some set =>
      cases read' : other.read value' with
      | none => rfl
      | some set' => exact (commutes value value' set set' read read' record).symm

section

variable (commutes : table.Pairwise RecordField.Commutes)
  {reads others' : List (RecordField ρ × Json)}

include commutes

/-- Readings of different fields are put in any order. -/
theorem put_put {x y : RecordField ρ × Json} (hx : x.1 ∈ table) (hy : y.1 ∈ table)
    (differ : x.1.name ≠ y.1.name) (record : ρ) :
    put (put record x) y = put (put record y) x := by
  have apart : x.1 ≠ y.1 := fun same => differ (congrArg RecordField.name same)
  have commute := commutes.forall hx hy apart
  exact commute.put record x.2 y.2

theorem foldl_put_perm (listed : ∀ read ∈ reads, read.1 ∈ table)
    (distinct : (reads.map fun read => read.1.name).Nodup) (perm : reads.Perm others') (record : ρ) :
    reads.foldl put record = others'.foldl put record := by
  refine perm.foldl_eq' (fun x hx y hy z => ?_) record
  by_cases same : x = y
  · rw [same]
  · have differ : x.1.name ≠ y.1.name := fun name =>
      same (List.inj_on_of_nodup_map distinct hx hy name)
    exact put_put commutes (listed x hx) (listed y hy) differ z

/-- A reading of a field that no other reading is of is put last. -/
theorem foldl_put_comm {x : RecordField ρ × Json} (hx : x.1 ∈ table)
    (listed : ∀ read ∈ reads, read.1 ∈ table)
    (fresh : ∀ read ∈ reads, read.1.name ≠ x.1.name) (record : ρ) :
    reads.foldl put (put record x) = put (reads.foldl put record) x := by
  induction reads generalizing record with
  | nil => rfl
  | cons first reads ih =>
      rw [List.forall_mem_cons] at listed fresh
      rw [List.foldl_cons, List.foldl_cons,
        put_put commutes hx listed.1 fresh.1.symm record, ih listed.2 fresh.2]

end

theorem readings_listed (table : List (RecordField ρ)) (fields : Fields) :
    ∀ read ∈ readings table fields, read.1 ∈ table := by
  intro read member
  obtain ⟨key, -, named⟩ := mem_readings.mp member
  exact (fieldOf_mem named).1

theorem Decodes.perm (commutes : table.Pairwise RecordField.Commutes)
    (decodes : Decodes table default fields result) (perm : fields.Perm others) :
    Decodes table default others result where
  readable read member := decodes.readable read ((readings_perm perm).mem_iff.mpr member)
  distinct := (readNames_perm perm).nodup_iff.mp decodes.distinct
  result := by
    rw [← foldl_put_perm commutes (readings_listed table fields) decodes.distinct
      (readings_perm perm) default]
    exact decodes.result

theorem map_replace {key : String} {value : Json} (value' : Json) {before after : Fields}
    (distinct : (Json.keysOf (before ++ (key, value) :: after)).Nodup) :
    (before ++ (key, value) :: after).map (fun entry =>
        if entry.1 = key then (key, value') else entry) = before ++ (key, value') :: after := by
  rw [Json.keysOf, List.map_append, List.map_cons, List.nodup_append, List.nodup_cons] at distinct
  obtain ⟨-, ⟨later, -⟩, apart⟩ := distinct
  have kept {fields : Fields} (absent : key ∉ fields.map Prod.fst) :
      fields.map (fun entry => if entry.1 = key then (key, value') else entry) = fields := by
    have each : ∀ entry ∈ fields,
        (if entry.1 = key then (key, value') else entry) = id entry := by
      intro entry member
      have other : entry.1 ≠ key := fun same =>
        absent (List.mem_map.mpr ⟨entry, member, same⟩)
      exact if_neg other
    rw [List.map_congr_left each, List.map_id]
  rw [List.map_append, List.map_cons, kept later, kept fun member => apart key member key (.head _) rfl]
  simp

/-- A value in the place of another of its field. -/
theorem Decodes.replace (commutes : table.Pairwise RecordField.Commutes)
    (decodes : Decodes table default fields result) (distinct : (Json.keysOf fields).Nodup)
    {key : String} {value value' : Json} {field : RecordField ρ}
    (named : fieldOf table key = some field) (member : (key, value) ∈ fields)
    (absorbs : ∀ record, put (put record (field, value)) (field, value') =
      put record (field, value'))
    (readable : (field.read value').isSome) :
    Decodes table default
      (fields.map fun entry => if entry.1 = key then (key, value') else entry)
      (put result (field, value')) := by
  obtain ⟨before, after, rfl⟩ := List.append_of_mem member
  rw [map_replace value' distinct]
  have split (value : Json) : readings table (before ++ (key, value) :: after) =
      readings table before ++ (field, value) :: readings table after := by
    rw [readings_append, readings_cons, named]
    rfl
  have names : readNames table (before ++ (key, value') :: after) =
      readNames table (before ++ (key, value) :: after) := by
    simp [readNames, split]
  have listed := readings_listed table after
  have fresh : ∀ read ∈ readings table after, read.1.name ≠ field.name := by
    have distinct := decodes.distinct
    rw [readNames, split, List.map_append, List.map_cons, List.nodup_append,
      List.nodup_cons] at distinct
    intro read later same
    exact distinct.2.1.1 (List.mem_map.mpr ⟨read, later, same⟩)
  exact {
    readable := by
      intro read there
      rw [split] at there
      rcases List.mem_append.mp there with earlier | there
      · exact decodes.readable read (by rw [split]; exact List.mem_append_left _ earlier)
      · rcases List.mem_cons.mp there with rfl | later
        · exact readable
        · exact decodes.readable read
            (by rw [split]; exact List.mem_append_right _ (List.mem_cons_of_mem _ later))
    distinct := names ▸ decodes.distinct
    result := by
      rw [← decodes.result, split, split, List.foldl_append, List.foldl_append, List.foldl_cons,
        List.foldl_cons, ← foldl_put_comm commutes (fieldOf_mem named).1 listed fresh, absorbs] }

/-! ## Nulls -/

/-- A null leaves a default as it is. -/
def RecordField.NullKeeps (field : RecordField ρ) (default : ρ) : Prop :=
  ∀ set, field.read .null = some set → set default = default

def NullDefault (table : List (RecordField ρ)) (default : ρ) : Prop :=
  ∀ field ∈ table, field.NullKeeps default

theorem foldl_put_null {reads : List (RecordField ρ × Json)} (nulls : NullDefault table default)
    (listed : ∀ read ∈ reads, read.1 ∈ table) (null : ∀ read ∈ reads, read.2 = .null) :
    reads.foldl put default = default := by
  induction reads with
  | nil => rfl
  | cons first reads ih =>
      rw [List.forall_mem_cons] at listed null
      have kept : put default first = default := by
        unfold put
        rw [null.1]
        cases read : first.1.read .null with
        | none => rfl
        | some set => exact nulls first.1 listed.1 set read
      rw [List.foldl_cons, kept, ih listed.2 null.2]

/-- The readings that are not null. -/
def present (table : List (RecordField ρ)) (fields : Fields) : List (RecordField ρ × Json) :=
  (readings table fields).filter fun read => read.2 ≠ .null

theorem mem_present {read : RecordField ρ × Json} :
    read ∈ present table fields ↔ read ∈ readings table fields ∧ read.2 ≠ .null := by
  simp [present]

theorem foldl_put_present (commutes : table.Pairwise RecordField.Commutes)
    (nulls : NullDefault table default) (distinct : (readNames table fields).Nodup) :
    (readings table fields).foldl put default = (present table fields).foldl put default := by
  have listed := readings_listed table fields
  have perm := List.filter_append_perm (fun read => decide (read.2 = .null)) (readings table fields)
  rw [foldl_put_perm commutes listed distinct perm.symm, List.foldl_append,
    foldl_put_null nulls (fun read member => listed read (List.mem_of_mem_filter member))
      (fun read member => by simpa using (List.mem_filter.mp member).2)]
  unfold present
  simp

/-- An object decodes as another does if they have the same readings, up to nulls. -/
theorem Decodes.of_present (commutes : table.Pairwise RecordField.Commutes)
    (nulls : NullDefault table default) (decodes : Decodes table default fields result)
    (readable : Readable table others) (distinct : (readNames table others).Nodup)
    (same : ∀ read, read ∈ present table others ↔ read ∈ present table fields) :
    Decodes table default others result where
  readable := readable
  distinct := distinct
  result := by
    have nodup {fields : Fields} (distinct : (readNames table fields).Nodup) :
        ((present table fields).map fun read => read.1.name).Nodup :=
      distinct.sublist (List.filter_sublist.map _)
    have perm := (List.perm_ext_iff_of_nodup (List.Nodup.of_map _ (nodup distinct))
      (List.Nodup.of_map _ (nodup decodes.distinct))).mpr same
    rw [foldl_put_present commutes nulls distinct, ← decodes.result,
      foldl_put_present commutes nulls decodes.distinct]
    exact foldl_put_perm commutes
      (fun read member => readings_listed table others read (List.mem_of_mem_filter member))
      (nodup distinct) perm default

/-! ## One field -/

/-- The field leaves a view as it is. -/
def RecordField.Keeps {γ : Type} (field : RecordField ρ) (view : ρ → γ) : Prop :=
  ∀ value set, field.read value = some set → ∀ record, view (set record) = view record

/-- The fields of other names leave a view as it is. -/
def Reads {γ : Type} (table : List (RecordField ρ)) (name : String) (view : ρ → γ) : Prop :=
  ∀ field ∈ table, field.name ≠ name → field.Keeps view

section

variable {γ : Type} {name : String} {view : ρ → γ} {reads : List (RecordField ρ × Json)}

theorem get_foldl_put (gets : Reads table name view) (listed : ∀ read ∈ reads, read.1 ∈ table)
    (absent : ∀ read ∈ reads, read.1.name ≠ name) (record : ρ) :
    view (reads.foldl put record) = view record := by
  induction reads generalizing record with
  | nil => rfl
  | cons first reads ih =>
      rw [List.forall_mem_cons] at listed absent
      rw [List.foldl_cons, ih listed.2 absent.2]
      unfold put
      cases read : first.1.read first.2 with
      | none => rfl
      | some set => exact gets first.1 listed.1 absent.1 first.2 set read record

/-- The record has in the field what its only reading puts there. -/
theorem Decodes.get (gets : Reads table name view) (decodes : Decodes table default fields result)
    {field : RecordField ρ} {value : Json} (member : (field, value) ∈ readings table fields)
    (named : field.name = name) :
    ∃ record, view result = view (put record (field, value)) := by
  obtain ⟨before, after, split⟩ := List.append_of_mem member
  have listed := readings_listed table fields
  have distinct := decodes.distinct
  rw [readNames, split, List.map_append, List.map_cons, List.nodup_append,
    List.nodup_cons] at distinct
  rw [split] at listed
  refine ⟨before.foldl put default, ?_⟩
  rw [← decodes.result, split, List.foldl_append, List.foldl_cons]
  refine get_foldl_put gets (fun read later => listed read
    (List.mem_append_right before (List.mem_cons_of_mem _ later))) (fun read later same => ?_) _
  exact distinct.2.1.1 (List.mem_map.mpr ⟨read, later, same.trans named.symm⟩)

/-- A field that is not read has its default. -/
theorem Decodes.get_default (gets : Reads table name view)
    (decodes : Decodes table default fields result) (absent : name ∉ readNames table fields) :
    view result = view default := by
  rw [← decodes.result]
  exact get_foldl_put gets (readings_listed table fields)
    (fun read member same => absent (List.mem_map.mpr ⟨read, member, same⟩)) default

end

end AgentOtelBridge
