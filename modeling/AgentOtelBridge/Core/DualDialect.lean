import AgentOtelBridge.Core.KnownKeys
import Mathlib.Data.Bool.AllAny

/-!
# Both dialects

A payload that is accepted is extended with twins, the camel case of known keys that it has,
and with keys that are unknown.  The result stays as it is if no field is spelled twice.  If
one is, the second decoder takes every key with an underscore for a spelling of its camel
case, and so two unknown keys can clash, and a known key can go that has no known twin.

`dualDialect_iff` says exactly when an extension has the result, and what two spellings with
different values come to.
-/

namespace AgentOtelBridge

open Json

variable (upper : Uppercase) (float : String → UInt64)

/-! ## Extensions -/

/-- The camel case of a known key, which is known, with its value. -/
def Twin (o : Fields) (entry : String × Json) : Prop :=
  ∃ key, (key, entry.2) ∈ o ∧ key ∈ knownKeys ∧ underscored key = true ∧
    camelCase upper key = entry.1 ∧ entry.1 ∈ knownKeys

/-- The camel case of the key of the event, with another spelling of the event. -/
def Respelling (o : Fields) (entry : String × Json) : Prop :=
  entry.1 = "hookEventName" ∧ ∃ other, ("hook_event_name", other) ∈ o ∧
    equivalentEvent "hook_event_name" entry.2 (some other) = true

/-- A payload of an object, of twins of its keys and of unknown keys, in any order. -/
structure PayloadExtension (o twins others payload : Fields) : Prop where
  twin : ∀ entry ∈ twins, Twin upper o entry ∨ Respelling o entry
  unknown : ∀ entry ∈ others, entry.1 ∉ knownKeys
  perm : payload.Perm (o ++ twins ++ others)
  distinct : (Json.keysOf payload).Nodup

/-- The event is spelled as the twin spells it. -/
def respelled (twins : Fields) (input : AgentHookInput) : AgentHookInput :=
  { input with
    hookEventName := ((getField "hookEventName" twins).bind asStr).or input.hookEventName }

/-- Each known key that goes, though its camel case is unknown, is null, or was gone before. -/
def KeepsLost (o payload : Fields) : Prop :=
  ∀ key value, (key, value) ∈ o → key ∈ knownKeys → underscored key = true →
    camelCase upper key ∉ knownKeys → camelCase upper key ∈ Json.keysOf payload →
      value = .null ∨
        ¬ (readNames (hookFields float) o).Nodup ∧ camelCase upper key ∈ Json.keysOf o

/-- The second decoder has nothing to do, or it does what it is for. -/
def Unhindered (o payload : Fields) : Prop :=
  (readNames (hookFields float) payload).Nodup ∨
    DuplicateFirst (hookFields float) payload ∧ Agrees upper payload ∧ KeepsLost upper float o payload

/-! ## The event -/

def hookEventField : RecordField AgentHookInput :=
  ⟨["hookEventName", "hook_event_name"], optional asStr fun v i => { i with hookEventName := v }⟩

theorem hookEventField_mem : hookEventField ∈ hookFields float :=
  List.mem_of_getElem? (show (hookFields float)[13]? = some hookEventField from rfl)

theorem fieldOf_hook_event_name :
    fieldOf (hookFields float) "hook_event_name" = some hookEventField :=
  fieldOf_eq_some float (hookEventField_mem float) (by decide)

theorem fieldOf_hookEventName :
    fieldOf (hookFields float) "hookEventName" = some hookEventField :=
  fieldOf_eq_some float (hookEventField_mem float) (by decide)

theorem camelCase_hook_event_name : camelCase upper "hook_event_name" = "hookEventName" := by
  have ascii : ∀ c ∈ "hook_event_name".toList, c.val < 128 :=
    List.all_iff_forall_prop.mp (by decide)
  have plain : camelCase upper "hook_event_name" = camelCase asciiUppercase "hook_event_name" :=
    congrArg String.ofList (camelLoop_ascii upper false ascii)
  rw [plain]
  decide

theorem equivalentEvent_iff {key : String} {value other : Json} :
    equivalentEvent key value (some other) = true ↔
      key = "hook_event_name" ∧ ∃ a b, value = .str a ∧ other = .str b ∧
        HookEvent.fromStrName a ≠ .unknown ∧
        HookEvent.fromStrName a = HookEvent.fromStrName b := by
  unfold equivalentEvent
  split
  next a b found found' =>
    cases value <;> cases other <;> simp_all [asStr]
  next none =>
    constructor
    · intro absurd
      cases absurd
    · rintro ⟨rfl, a, b, rfl, rfl, -⟩
      exact absurd rfl (none a b rfl rfl)

/-- What the field of the event puts in the record. -/
theorem put_hookEventField {value : Json} (readable : (hookEventField.read value).isSome)
    (record : AgentHookInput) :
    put record (hookEventField, value) = { record with hookEventName := asStr value } := by
  cases value with
  | null => rfl
  | str text => rfl
  | bool b => cases readable
  | num text => cases readable
  | arr items => cases readable
  | obj fields => cases readable

/-! ## The entries that count -/

variable {o twins others payload : Fields} {input : AgentHookInput}

/-- The entries that the result of a payload is read from. -/
def base (o : Fields) : Fields :=
  if (readNames (hookFields float) o).Nodup then o else unified upper o

theorem mem_base {entry : String × Json} :
    entry ∈ base upper float o ↔
      entry ∈ o ∧ ((readNames (hookFields float) o).Nodup ∨ ¬ Doubled upper o entry.1) := by
  unfold base unified
  split
  next single => simp [single]
  next twice => simp [twice]

theorem keysOf_filter_nodup (kept : String × Json → Bool) (distinct : (Json.keysOf o).Nodup) :
    (Json.keysOf (o.filter kept)).Nodup :=
  distinct.sublist (List.filter_sublist.map _)

theorem keysOf_base_nodup (distinct : (Json.keysOf o).Nodup) : (Json.keysOf (base upper float o)).Nodup := by
  unfold base
  split
  · exact distinct
  · exact keysOf_filter_nodup _ distinct

theorem not_nodup_of_duplicateFirst {ρ : Type} {table : List (RecordField ρ)} {fields : Fields}
    (duplicate : DuplicateFirst table fields) : ¬ (readNames table fields).Nodup := by
  obtain ⟨before, entry, after, rfl, -, field, named, repeated⟩ := duplicate
  intro distinct
  rw [readNames, readings_append, readings_cons, named, List.map_append,
    List.nodup_append] at distinct
  exact distinct.2.2 field.name repeated field.name (List.mem_cons_self ..) rfl

/-- An accepted payload decodes from the entries that count. -/
theorem decodes_base (accepted : AgentHookInput.parseObject upper float o = .ok input) :
    Decodes (hookFields float) {} (base upper float o) input ∧
      ((readNames (hookFields float) o).Nodup ∨ ∃ key ∈ Json.keysOf o, Doubled upper o key) := by
  rcases (parseObject_eq_ok_iff upper).mp accepted with decodes | ⟨duplicate, unifies⟩
  · exact ⟨by rwa [base, if_pos decodes.distinct], .inl decodes.distinct⟩
  · have twice := not_nodup_of_duplicateFirst duplicate
    exact ⟨by rw [base, if_neg twice]; exact unifies.decodes, .inr unifies.doubled⟩

section

variable (extension : PayloadExtension upper o twins others payload)

include extension

theorem PayloadExtension.mem {entry : String × Json} :
    entry ∈ payload ↔ entry ∈ o ∨ entry ∈ twins ∨ entry ∈ others := by
  rw [extension.perm.mem_iff, List.mem_append, List.mem_append, or_assoc]

theorem PayloadExtension.keys {key : String} (member : key ∈ Json.keysOf o) : key ∈ Json.keysOf payload := by
  obtain ⟨entry, there, rfl⟩ := List.mem_map.mp member
  exact List.mem_map_of_mem (extension.mem upper |>.mpr (.inl there))

theorem PayloadExtension.keys_nodup : (Json.keysOf o).Nodup ∧ (Json.keysOf twins).Nodup ∧
    ∀ entry ∈ twins, entry.1 ∉ Json.keysOf o := by
  have distinct := (keysOf_perm extension.perm).nodup_iff.mp extension.distinct
  rw [Json.keysOf, List.map_append, List.map_append, List.nodup_append, List.nodup_append] at distinct
  obtain ⟨⟨keys, twinKeys, apart⟩, -, -⟩ := distinct
  exact ⟨keys, twinKeys, fun entry member there =>
    apart entry.1 there entry.1 (List.mem_map_of_mem member) rfl⟩

/-- An entry that counts is not doubled by an entry of the object, and a twin has a source that
counts. -/
theorem PayloadExtension.source_base {entry : String × Json} (member : entry ∈ twins) {key : String}
    {value : Json} (there : (key, value) ∈ o) (camel : camelCase upper key = entry.1) :
    (key, value) ∈ base upper float o := by
  refine (mem_base upper float).mpr ⟨there, .inr fun doubled => ?_⟩
  exact (extension.keys_nodup upper).2.2 entry member (camel ▸ doubled.2)

end

/-- The entry of the event has the spelling of its twin. -/
def spelled (twins : Fields) (entry : String × Json) : String × Json :=
  if entry.1 = "hook_event_name" then
    ("hook_event_name", (getField "hookEventName" twins).getD entry.2)
  else entry

theorem spelled_fst (twins : Fields) (entry : String × Json) : (spelled twins entry).1 = entry.1 := by
  unfold spelled
  split
  next same => exact same.symm
  next => rfl

theorem keysOf_map_spelled (twins fields : Fields) :
    Json.keysOf (fields.map (spelled twins)) = Json.keysOf fields := by
  simp only [Json.keysOf, List.map_map]
  exact List.map_congr_left fun entry _ => spelled_fst twins entry

/-- The twin of the event is that of one key. -/
theorem twin_event {value : Json} (twin : Twin upper o ("hookEventName", value)) :
    ("hook_event_name", value) ∈ o := by
  obtain ⟨key, there, known, under, camel, -⟩ := twin
  let float : String → UInt64 := fun _ => 0
  obtain ⟨field, named⟩ := exists_fieldOf float known
  have event : field = hookEventField := by
    rcases camelCase_known float upper named under with same | ⟨unknown, -⟩
    · rw [camel, fieldOf_hookEventName] at same
      exact (Option.some.inj same).symm
    · rw [camel] at unknown
      exact absurd (mem_knownKeys float (fieldOf_hookEventName float)) unknown
  have name : key ∈ hookEventField.names := by
    rw [← event]
    exact (fieldOf_mem named).2
  rcases List.mem_cons.mp name with rfl | name
  · cases under
  · obtain rfl := List.mem_singleton.mp name
    exact there

section

variable (extension : PayloadExtension upper o twins others payload)

include extension

/-- A twin of the event has its value, or another spelling of the event. -/
theorem PayloadExtension.event {value : Json} (member : ("hookEventName", value) ∈ twins) :
    ∃ other, ("hook_event_name", other) ∈ base upper float o ∧
      (value = other ∨ equivalentEvent "hook_event_name" value (some other) = true) := by
  have camel := camelCase_hook_event_name upper
  rcases extension.twin _ member with twin | ⟨-, other, there, same⟩
  · exact ⟨value, extension.source_base upper float member (twin_event upper twin) camel, .inl rfl⟩
  · exact ⟨other, extension.source_base upper float member there camel, .inr same⟩

/-- With its own spelling, the entry of the event is as its twin. -/
theorem PayloadExtension.spelled_event {value other : Json} (member : ("hookEventName", value) ∈ twins) :
    spelled twins ("hook_event_name", other) = ("hook_event_name", value) := by
  have found := (getField_eq_some (extension.keys_nodup upper).2.1).mpr member
  simp [spelled, found]

/-- An entry that is not doubled keeps its value: that of the event has no twin. -/
theorem PayloadExtension.spelled_single {entry : String × Json}
    (single : ¬ Doubled upper payload entry.1) : spelled twins entry = entry := by
  unfold spelled
  split
  next event =>
    have absent : getField "hookEventName" twins = none := by
      refine getField_eq_none.mpr fun twin => single ?_
      obtain ⟨other, listed, name⟩ := List.mem_map.mp twin
      rw [event]
      refine ⟨by decide, ?_⟩
      rw [camelCase_hook_event_name, ← name]
      exact List.mem_map_of_mem ((extension.mem upper).mpr (.inr (.inl listed)))
    rw [absent, Option.getD_none, ← event]
  next => rfl

/-- A twin has a source that counts, of the field and with the spelling of the twin. -/
theorem PayloadExtension.source {entry : String × Json} (member : entry ∈ twins) :
    ∃ key field, (key, entry.2) ∈ (base upper float o).map (spelled twins) ∧
      underscored key = true ∧ camelCase upper key = entry.1 ∧
      fieldOf (hookFields float) key = some field ∧
      fieldOf (hookFields float) entry.1 = some field := by
  rcases extension.twin entry member with ⟨key, there, known, under, camel, known'⟩ |
    ⟨name, other, there, -⟩
  · obtain ⟨field, named⟩ := exists_fieldOf float known
    have counts := extension.source_base upper float member there camel
    have same : spelled twins (key, entry.2) = (key, entry.2) := by
      by_cases event : key = "hook_event_name"
      · subst event
        rw [camelCase_hook_event_name] at camel
        exact extension.spelled_event upper (by rw [camel]; exact member)
      · exact if_neg event
    rcases camelCase_known float upper named under with twin | ⟨unknown, -⟩
    · exact ⟨key, field, List.mem_map.mpr ⟨_, counts, same⟩, under, camel, named, camel ▸ twin⟩
    · exact absurd (camel ▸ known') unknown
  · have camel := camelCase_hook_event_name upper
    have counts := extension.source_base upper float member there (camel.trans name.symm)
    have same : spelled twins ("hook_event_name", other) = ("hook_event_name", entry.2) :=
      extension.spelled_event upper (by rw [← name]; exact member)
    exact ⟨"hook_event_name", hookEventField, List.mem_map.mpr ⟨_, counts, same⟩, by decide,
      camel.trans name.symm, fieldOf_hook_event_name float, name ▸ fieldOf_hookEventName float⟩

variable (decodes : Decodes (hookFields float) {} (base upper float o) input)

include decodes

/-- With the spelling of the twin, the entries that count decode to the result with it. -/
theorem PayloadExtension.decodes_spelled :
    Decodes (hookFields float) {} ((base upper float o).map (spelled twins))
      (respelled twins input) := by
  obtain ⟨keys, twinKeys, -⟩ := extension.keys_nodup upper
  cases found : getField "hookEventName" twins with
  | none =>
      have same : spelled twins = id := by
        funext entry
        unfold spelled
        rw [found]
        split
        next same => exact Prod.ext same.symm rfl
        next => rfl
      rw [same, List.map_id]
      simpa [respelled, found] using decodes
  | some value =>
      obtain ⟨other, there, same⟩ :=
        extension.event upper float ((getField_eq_some twinKeys).mp found)
      have named := fieldOf_hook_event_name float
      have member : (hookEventField, other) ∈
          readings (hookFields float) (base upper float o) :=
        mem_readings.mpr ⟨"hook_event_name", there, named⟩
      have readable' := decodes.readable _ member
      have readable : (hookEventField.read value).isSome := by
        rcases same with rfl | same
        · exact readable'
        · obtain ⟨-, a, b, rfl, -⟩ := equivalentEvent_iff.mp same
          rfl
      have replaced := decodes.replace (hookFields_commute float)
        (keysOf_base_nodup upper float keys) named there
        (fun record => by
          rw [put_hookEventField readable, put_hookEventField readable, put_hookEventField readable'])
        readable
      have result : put input (hookEventField, value) = respelled twins input := by
        rw [put_hookEventField readable, respelled, found, Option.bind_some]
        rcases same with rfl | same
        · obtain ⟨record, event⟩ :=
            decodes.get (reads_hookEventName float) member rfl
          rw [put_hookEventField readable] at event
          rw [event, Option.or_self]
        · obtain ⟨-, a, b, rfl, -⟩ := equivalentEvent_iff.mp same
          rfl
      have map : (base upper float o).map (spelled twins) = (base upper float o).map
          fun entry => if entry.1 = "hook_event_name" then ("hook_event_name", value) else entry := by
        refine List.map_congr_left fun entry _ => ?_
        rw [spelled, found, Option.getD_some]
      rw [map, ← result]
      exact replaced

omit decodes

/-- An entry that is left by the second decoder is one that counts, or the twin of one. -/
theorem PayloadExtension.source_unified {entry : String × Json} (member : entry ∈ unified upper payload)
    {field : RecordField AgentHookInput}
    (named : fieldOf (hookFields float) entry.1 = some field) :
    ∃ key, (key, entry.2) ∈ (base upper float o).map (spelled twins) ∧
      fieldOf (hookFields float) key = some field ∧
      (key = entry.1 ∨ underscored key = true ∧ camelCase upper key = entry.1) := by
  obtain ⟨there, left⟩ := List.mem_filter.mp member
  have single : ¬ Doubled upper payload entry.1 := by simpa using left
  obtain ⟨keys, twinKeys, -⟩ := extension.keys_nodup upper
  rcases (extension.mem upper).mp there with mine | twin | other
  · have counts : entry ∈ base upper float o :=
      (mem_base upper float).mpr ⟨mine, .inr fun doubled =>
        single ⟨doubled.1, extension.keys upper doubled.2⟩⟩
    refine ⟨entry.1, List.mem_map.mpr ⟨entry, counts, ?_⟩, named, .inl rfl⟩
    exact extension.spelled_single upper single
  · obtain ⟨key, field', counts, under, camel, named', named''⟩ :=
      extension.source upper float twin
    obtain rfl : field' = field := Option.some.inj (named''.symm.trans named)
    exact ⟨key, counts, named', .inr ⟨under, camel⟩⟩
  · exact absurd (mem_knownKeys float named) (extension.unknown entry other)

theorem PayloadExtension.readable_unified
    (readable : Readable (hookFields float) ((base upper float o).map (spelled twins))) :
    Readable (hookFields float) (unified upper payload) := by
  intro read member
  obtain ⟨key, there, named⟩ := mem_readings.mp member
  obtain ⟨source, counts, named', -⟩ := extension.source_unified upper float there named
  exact readable read (mem_readings.mpr ⟨source, counts, named'⟩)

/-- Two entries of one field, among those that count, are one. -/
theorem PayloadExtension.single_spelled
    (distinct : (readNames (hookFields float) ((base upper float o).map (spelled twins))).Nodup) :
    ∀ entry ∈ (base upper float o).map (spelled twins),
      ∀ other ∈ (base upper float o).map (spelled twins), ∀ field field',
        fieldOf (hookFields float) entry.1 = some field →
          fieldOf (hookFields float) other.1 = some field' →
            field.name = field'.name → entry = other := by
  refine (readNames_nodup_iff ?_).mp distinct
  rw [keysOf_map_spelled]
  exact keysOf_base_nodup upper float (extension.keys_nodup upper).1

theorem PayloadExtension.nodup_unified
    (distinct : (readNames (hookFields float) ((base upper float o).map (spelled twins))).Nodup) :
    (readNames (hookFields float) (unified upper payload)).Nodup := by
  refine (readNames_nodup_iff (keysOf_filter_nodup _ extension.distinct)).mpr ?_
  intro entry member other member' field field' named named' same
  obtain ⟨key, counts, key_named, from_key⟩ := extension.source_unified upper float member named
  obtain ⟨key', counts', key_named', from_key'⟩ :=
    extension.source_unified upper float member' named'
  have one := extension.single_spelled upper float distinct _ counts _ counts' field field'
    key_named key_named' same
  obtain rfl : key = key' := congrArg Prod.fst one
  refine keysOf_nodup (keysOf_filter_nodup _ extension.distinct) member member' ?_
  -- an entry and a twin of it are not both left
  rcases from_key with rfl | ⟨under, camel⟩
  · rcases from_key' with same | ⟨under, camel⟩
    · exact same
    · have left : ¬ Doubled upper payload entry.1 := by simpa using (List.mem_filter.mp member).2
      refine absurd ⟨under, ?_⟩ left
      rw [camel]
      exact List.mem_map_of_mem (List.mem_filter.mp member').1
  · rcases from_key' with rfl | ⟨-, camel'⟩
    · have left : ¬ Doubled upper payload other.1 := by simpa using (List.mem_filter.mp member').2
      refine absurd ⟨under, ?_⟩ left
      rw [camel]
      exact List.mem_map_of_mem (List.mem_filter.mp member).1
    · rw [← camel, camel']

/-- The readings that are left are those that count, if none is lost but a null. -/
theorem PayloadExtension.present_unified (keeps : KeepsLost upper float o payload)
    (distinct : (readNames (hookFields float) ((base upper float o).map (spelled twins))).Nodup)
    (read : RecordField AgentHookInput × Json) :
    read ∈ present (hookFields float) (unified upper payload) ↔
      read ∈ present (hookFields float) ((base upper float o).map (spelled twins)) := by
  rw [mem_present, mem_present]
  refine and_congr_left fun notNull => ?_
  constructor
  · intro member
    obtain ⟨key, there, named⟩ := mem_readings.mp member
    obtain ⟨source, counts, named', -⟩ := extension.source_unified upper float there named
    exact mem_readings.mpr ⟨source, counts, named'⟩
  · intro member
    obtain ⟨key, counts, named⟩ := mem_readings.mp member
    obtain ⟨⟨key', value⟩, there, same⟩ := List.mem_map.mp counts
    obtain rfl : key' = key := by
      have kept := spelled_fst twins (key', value)
      rw [same] at kept
      exact kept.symm
    obtain ⟨mine, single⟩ := (mem_base upper float).mp there
    by_cases doubled : Doubled upper payload key'
    · obtain ⟨under, camel⟩ := doubled
      rcases camelCase_known float upper named under with twin | ⟨unknown, -⟩
      · obtain ⟨entry, listed, name⟩ := List.mem_map.mp camel
        have left : entry ∈ unified upper payload := by
          refine List.mem_filter.mpr ⟨listed, ?_⟩
          simp [Doubled, name]
        obtain ⟨source, counts', named', -⟩ :=
          extension.source_unified upper float left (name ▸ twin)
        have one := extension.single_spelled upper float distinct _ counts' _ counts read.1 read.1
          named' named rfl
        have value : entry.2 = read.2 := congrArg Prod.snd one
        exact mem_readings.mpr ⟨entry.1, by rw [← value]; exact left, name ▸ twin⟩
      · have event : key' ≠ "hook_event_name" := by
          rintro rfl
          rw [camelCase_hook_event_name] at unknown
          exact unknown (mem_knownKeys float (fieldOf_hookEventName float))
        have kept : value = read.2 := by
          rw [spelled, if_neg event] at same
          exact congrArg Prod.snd same
        rcases keeps key' value mine (mem_knownKeys float named) under unknown camel with
          null | ⟨twice, before⟩
        · exact absurd (kept ▸ null) notNull
        · exact absurd ⟨under, before⟩ (single.resolve_left twice)
    · have kept : value = read.2 := by
        rw [extension.spelled_single upper doubled] at same
        exact congrArg Prod.snd same
      have left : (key', value) ∈ unified upper payload :=
        List.mem_filter.mpr ⟨(extension.mem upper).mpr (.inl mine), by simpa using doubled⟩
      exact mem_readings.mpr ⟨key', kept ▸ left, named⟩

/-- A field that is lost is read no more. -/
theorem PayloadExtension.lost_unread {key : String} {value : Json} {field : RecordField AgentHookInput}
    (distinct : (readNames (hookFields float) ((base upper float o).map (spelled twins))).Nodup)
    (counts : (key, value) ∈ base upper float o)
    (named : fieldOf (hookFields float) key = some field) (under : underscored key = true)
    (unknown : camelCase upper key ∉ knownKeys) (camel : camelCase upper key ∈ Json.keysOf payload) :
    field.name ∉ readNames (hookFields float) (unified upper payload) := by
  intro read
  obtain ⟨⟨field', value'⟩, member, same⟩ := List.mem_map.mp read
  obtain ⟨key', left, named'⟩ := mem_readings.mp member
  obtain ⟨source, counts', named'', from_source⟩ :=
    extension.source_unified upper float left named'
  have mine : spelled twins (key, value) ∈ (base upper float o).map (spelled twins) :=
    List.mem_map_of_mem counts
  have one := extension.single_spelled upper float distinct _ counts' _ mine field' field named''
    (by rw [spelled_fst]; exact named) same
  obtain rfl : source = key := by
    have kept := congrArg Prod.fst one
    rwa [spelled_fst] at kept
  rcases from_source with rfl | ⟨-, there⟩
  · have single : ¬ Doubled upper payload source := by simpa using (List.mem_filter.mp left).2
    exact single ⟨under, camel⟩
  · exact unknown (there ▸ mem_knownKeys float named')

end

/-! ## The keys that are lost -/

def traceparentField : RecordField AgentHookInput :=
  ⟨["traceparent", "trace_parent"], optional asStr fun v i => { i with traceparent := v }⟩

def cachedTokensField : RecordField AgentHookInput :=
  ⟨["cachedTokens", "cached_tokens", "cached_token_count", "cachedTokenCount",
    "cache_read_input_tokens"], optional asI64 fun v i => { i with cachedTokens := v }⟩

theorem fieldOf_trace_parent :
    fieldOf (hookFields float) "trace_parent" = some traceparentField :=
  fieldOf_eq_some float
    (List.mem_of_getElem? (show (hookFields float)[26]? = some traceparentField from rfl)) (by decide)

theorem fieldOf_cache_read_input_tokens :
    fieldOf (hookFields float) "cache_read_input_tokens" = some cachedTokensField :=
  fieldOf_eq_some float
    (List.mem_of_getElem? (show (hookFields float)[16]? = some cachedTokensField from rfl)) (by decide)

/-- A value that is not null is there in the record. -/
theorem put_optional {ρ α : Type} {names : List String} {read : Json → Option α}
    {set : Option α → ρ → ρ} {view : ρ → Option α} (lens : ∀ v record, view (set v record) = v)
    {value : Json} (notNull : value ≠ .null)
    (readable : (RecordField.read ⟨names, optional read set⟩ value).isSome) (record : ρ) :
    view (put record (⟨names, optional read set⟩, value)) ≠ none := by
  obtain ⟨f, found⟩ := Option.isSome_iff_exists.mp readable
  have there : optional read set value = (read value).map fun v => set (some v) :=
    optional_of_ne_null notNull
  have some := there.symm.trans found
  obtain ⟨v, -, rfl⟩ := Option.map_eq_some_iff.mp some
  have result : put record (⟨names, optional read set⟩, value) = set (Option.some v) record := by
    unfold put
    rw [found]
    rfl
  rw [result, lens]
  exact nofun

section

variable (extension : PayloadExtension upper o twins others payload)
  (decodes : Decodes (hookFields float) {} (base upper float o) input)

include extension decodes

/-- A result without a field that counted is another result. -/
theorem PayloadExtension.lost_ne {α : Type} {view : AgentHookInput → Option α} {key : String}
    {value : Json} {field : RecordField AgentHookInput} {name : String} (is : field.name = name)
    (reads : Reads (hookFields float) name view) (empty : view {} = none)
    (there : ∀ record, view (put record (field, value)) ≠ none)
    (kept : view (respelled twins input) = view input)
    (counts : (key, value) ∈ base upper float o)
    (named : fieldOf (hookFields float) key = some field) (under : underscored key = true)
    (unknown : camelCase upper key ∉ knownKeys) (camel : camelCase upper key ∈ Json.keysOf payload) :
    ¬ Decodes (hookFields float) {} (unified upper payload) (respelled twins input) := by
  intro left
  have spelled := extension.decodes_spelled upper float decodes
  have unread := extension.lost_unread upper float spelled.distinct counts named under unknown camel
  obtain ⟨record, before⟩ := decodes.get reads (mem_readings.mpr ⟨key, counts, named⟩) is
  have after := left.get_default reads (is ▸ unread)
  rw [kept, before, empty] at after
  exact there record after

/-- What is left decodes to the result if and only if nothing that counts is lost. -/
theorem PayloadExtension.decodes_unified_iff :
    Decodes (hookFields float) {} (unified upper payload) (respelled twins input) ↔
      KeepsLost upper float o payload := by
  have spelled := extension.decodes_spelled upper float decodes
  constructor
  · intro left key value mine known under unknown camel
    by_contra lost
    obtain ⟨notNull, here⟩ := not_or.mp lost
    have counts : (key, value) ∈ base upper float o :=
      (mem_base upper float).mpr ⟨mine, or_iff_not_imp_left.mpr fun twice doubled =>
        here ⟨twice, doubled.2⟩⟩
    obtain ⟨field, named⟩ := exists_fieldOf float known
    have readable : (field.read value).isSome :=
      decodes.readable (field, value) (mem_readings.mpr ⟨key, counts, named⟩)
    rcases (camelCase_known float upper named under).resolve_left fun same =>
      unknown (mem_knownKeys float same) with ⟨-, rfl | rfl⟩
    · obtain rfl := Option.some.inj ((fieldOf_trace_parent float).symm.trans named)
      have is : traceparentField.name = "traceparent" := rfl
      exact extension.lost_ne upper float decodes is (reads_traceparent float) rfl
        (put_optional (fun _ _ => rfl) notNull readable) rfl counts named under unknown camel left
    · obtain rfl := Option.some.inj ((fieldOf_cache_read_input_tokens float).symm.trans named)
      have is : cachedTokensField.name = "cachedTokens" := rfl
      exact extension.lost_ne upper float decodes is (reads_cachedTokens float) rfl
        (put_optional (fun _ _ => rfl) notNull readable) rfl counts named under unknown camel left
  · intro keeps
    exact spelled.of_present (hookFields_commute float) (hookFields_null float)
      (extension.readable_unified upper float spelled.readable)
      (extension.nodup_unified upper float spelled.distinct)
      (extension.present_unified upper float keeps spelled.distinct)

end

/-! ## The result of an extension -/

section

variable (extension : PayloadExtension upper o twins others payload)
  (accepted : AgentHookInput.parseObject upper float o = .ok input)

include extension

/-- The unknown keys are not read. -/
theorem PayloadExtension.readings_perm :
    (readings (hookFields float) payload).Perm
      (readings (hookFields float) o ++ readings (hookFields float) twins) := by
  have none : readings (hookFields float) others = [] := by
    refine List.filterMap_eq_nil_iff.mpr fun entry member => ?_
    rw [fieldOf_unknown float (extension.unknown entry member)]
    rfl
  have perm : (readings (hookFields float) payload).Perm
      (readings (hookFields float) (o ++ twins ++ others)) :=
    AgentOtelBridge.readings_perm extension.perm
  rwa [readings_append, readings_append, none, List.append_nil] at perm

theorem PayloadExtension.readNames_perm :
    (readNames (hookFields float) payload).Perm
      (readNames (hookFields float) o ++ readNames (hookFields float) twins) := by
  have perm := (extension.readings_perm upper float).map fun read => read.1.name
  rwa [List.map_append] at perm

/-- The key of a twin is doubled. -/
theorem PayloadExtension.doubled_of_twin {twin : String × Json} (member : twin ∈ twins) :
    ∃ key ∈ Json.keysOf payload, Doubled upper payload key := by
  obtain ⟨key, field, counts, under, camel, -, -⟩ :=
    extension.source upper (fun _ => 0) member
  obtain ⟨entry, there, same⟩ := List.mem_map.mp counts
  obtain rfl : entry.1 = key := by
    have kept := congrArg Prod.fst same
    rwa [spelled_fst] at kept
  obtain ⟨mine, -⟩ := (mem_base upper fun _ => 0).mp there
  refine ⟨entry.1, List.mem_map_of_mem ((extension.mem upper).mpr (.inl mine)), under, ?_⟩
  rw [camel]
  exact List.mem_map_of_mem ((extension.mem upper).mpr (.inr (.inl member)))

/-- If no field is spelled twice there are no twins, and the object has none either. -/
theorem PayloadExtension.plain (single : (readNames (hookFields float) payload).Nodup) :
    twins = [] ∧ (readNames (hookFields float) o).Nodup := by
  have all := (extension.readNames_perm upper float).nodup_iff.mp single
  rw [List.nodup_append] at all
  refine ⟨?_, all.1⟩
  cases twins with
  | nil => rfl
  | cons twin twins =>
      obtain ⟨key, field, counts, -, -, named, named'⟩ :=
        extension.source upper float (List.mem_cons_self ..)
      obtain ⟨entry, there, same⟩ := List.mem_map.mp counts
      obtain rfl : entry.1 = key := by
        have kept := congrArg Prod.fst same
        rwa [spelled_fst] at kept
      obtain ⟨mine, -⟩ := (mem_base upper float).mp there
      have read : (field, entry.2) ∈ readings (hookFields float) o :=
        mem_readings.mpr ⟨entry.1, mine, named⟩
      have again : (field, twin.2) ∈ readings (hookFields float) (twin :: twins) :=
        mem_readings.mpr ⟨twin.1, List.mem_cons_self .., named'⟩
      exact absurd rfl (all.2.2 field.name (List.mem_map_of_mem read) field.name
        (List.mem_map_of_mem again))

theorem PayloadExtension.decodes_plain (decodes : Decodes (hookFields float) {} (base upper float o) input)
    (single : (readNames (hookFields float) payload).Nodup) :
    Decodes (hookFields float) {} payload (respelled twins input) := by
  have perm := extension.readings_perm upper float
  obtain ⟨rfl, mine⟩ := extension.plain upper float single
  rw [base, if_pos mine] at decodes
  have same : respelled [] input = input := rfl
  have mem (read : RecordField AgentHookInput × Json) :
      read ∈ readings (hookFields float) payload ↔ read ∈ readings (hookFields float) o := by
    simpa [readings] using perm.mem_iff
  rw [same]
  exact decodes.of_present (hookFields_commute float) (hookFields_null float)
    (fun read member => decodes.readable read ((mem read).mp member)) single
    (fun read => by rw [mem_present, mem_present, mem])

include accepted

/-- An extension of an accepted payload has its result if and only if it is unhindered. -/
theorem PayloadExtension.parseObject_iff :
    AgentHookInput.parseObject upper float payload = .ok (respelled twins input) ↔
      Unhindered upper float o payload := by
  obtain ⟨decodes, some⟩ := decodes_base upper float accepted
  rw [parseObject_eq_ok_iff]
  by_cases single : (readNames (hookFields float) payload).Nodup
  · exact iff_of_true (.inl (extension.decodes_plain upper float decodes single)) (.inl single)
  · have doubled : ∃ key ∈ Json.keysOf payload, Doubled upper payload key := by
      rcases some with plain | ⟨key, member, doubled⟩
      · cases twins with
        | nil =>
            have perm := extension.readNames_perm upper float
            rw [readNames, readNames, readNames, readings, readings, readings, List.filterMap_nil,
              List.map_nil, List.append_nil] at perm
            exact absurd (perm.nodup_iff.mpr plain) single
        | cons twin twins => exact extension.doubled_of_twin upper (List.mem_cons_self ..)
      · exact ⟨key, extension.keys upper member, doubled.1, extension.keys upper doubled.2⟩
    constructor
    · rintro (whole | ⟨duplicate, unifies⟩)
      · exact absurd whole.distinct single
      · exact .inr ⟨duplicate, unifies.agrees,
          (extension.decodes_unified_iff upper float decodes).mp unifies.decodes⟩
    · rintro (whole | ⟨duplicate, agrees, keeps⟩)
      · exact absurd whole single
      · exact .inr ⟨duplicate, extension.distinct, agrees, doubled,
          (extension.decodes_unified_iff upper float decodes).mpr keeps⟩

omit accepted

/-- Twins of equal values spell the event as it is spelled. -/
theorem PayloadExtension.respelled_eq (decodes : Decodes (hookFields float) {} (base upper float o) input)
    (equal : ∀ entry ∈ twins, Twin upper o entry) : respelled twins input = input := by
  cases found : getField "hookEventName" twins with
  | none => simp [respelled, found]
  | some value =>
      have member := (getField_eq_some (extension.keys_nodup upper).2.1).mp found
      have counts := extension.source_base upper float member
        (twin_event upper (equal _ member)) (camelCase_hook_event_name upper)
      have read : (hookEventField, value) ∈ readings (hookFields float) (base upper float o) :=
        mem_readings.mpr ⟨"hook_event_name", counts, fieldOf_hook_event_name float⟩
      obtain ⟨record, event⟩ := decodes.get (reads_hookEventName float) read rfl
      have event : input.hookEventName = asStr value := by
        rw [event, put_hookEventField (decodes.readable _ read)]
      rw [respelled, found, Option.bind_some, ← event, Option.or_self]

end

/-- Two spellings of a field with different values are refused, but for two spellings of one
event, and then the event is spelled in camel case. -/
theorem parseObject_conflict {key : String} {value other : Json}
    (accepted : AgentHookInput.parseObject upper float payload = .ok input)
    (known : key ∈ knownKeys) (under : underscored key = true)
    (camel : camelCase upper key ∈ knownKeys) (mine : (key, other) ∈ payload)
    (there : (camelCase upper key, value) ∈ payload) (differ : value ≠ other) :
    equivalentEvent key value (some other) = true ∧ input.hookEventName = asStr value := by
  obtain ⟨field, named⟩ := exists_fieldOf float known
  have named' := (camelCase_known float upper named under).resolve_right fun lost => lost.1 camel
  rcases (parseObject_eq_ok_iff upper).mp accepted with whole | ⟨-, unifies⟩
  · have first : (field, other) ∈ readings (hookFields float) payload :=
      mem_readings.mpr ⟨key, mine, named⟩
    have second : (field, value) ∈ readings (hookFields float) payload :=
      mem_readings.mpr ⟨camelCase upper key, there, named'⟩
    have one := List.inj_on_of_nodup_map whole.distinct second first rfl
    exact absurd (congrArg Prod.snd one) differ
  · have same := (unifies.agrees key value other under mine there).resolve_left differ
    refine ⟨same, ?_⟩
    obtain ⟨rfl, a, b, rfl, rfl, -⟩ := equivalentEvent_iff.mp same
    have left : (camelCase upper "hook_event_name", Json.str a) ∈ unified upper payload :=
      List.mem_filter.mpr ⟨there, by simp [Doubled]⟩
    rw [camelCase_hook_event_name] at left
    have read : (hookEventField, Json.str a) ∈
        readings (hookFields float) (unified upper payload) :=
      mem_readings.mpr ⟨"hookEventName", left, fieldOf_hookEventName float⟩
    obtain ⟨record, event⟩ := unifies.decodes.get (reads_hookEventName float) read rfl
    rw [event, put_hookEventField (unifies.decodes.readable _ read)]

/-- **Both dialects.**  An extension of an accepted payload is accepted with its result if and
only if it is unhindered; the result is that of the payload, with the event as its twin spells
it, and so the very result if the twins have equal values.  Two spellings with different values
are refused, but for two spellings of one recognized event, which the result then names. -/
theorem dualDialect_iff :
    (∀ o input, AgentHookInput.parseObject upper float o = .ok input →
      ∀ twins others payload, PayloadExtension upper o twins others payload →
        (AgentHookInput.parseObject upper float payload = .ok (respelled twins input) ↔
          Unhindered upper float o payload) ∧
        ((∀ entry ∈ twins, Twin upper o entry) → respelled twins input = input)) ∧
    (∀ payload input, AgentHookInput.parseObject upper float payload = .ok input →
      ∀ key value other, key ∈ knownKeys → underscored key = true →
        camelCase upper key ∈ knownKeys → (key, other) ∈ payload →
        (camelCase upper key, value) ∈ payload → value ≠ other →
          key = "hook_event_name" ∧ ∃ a b, value = .str a ∧ other = .str b ∧
            HookEvent.fromStrName a ≠ .unknown ∧
            HookEvent.fromStrName a = HookEvent.fromStrName b ∧
            input.hookEventName = some a) := by
  constructor
  · intro o input accepted twins others payload extension
    refine ⟨extension.parseObject_iff upper float accepted, fun equal => ?_⟩
    exact extension.respelled_eq upper float (decodes_base upper float accepted).1 equal
  · intro payload input accepted key value other known under camel mine there differ
    obtain ⟨same, event⟩ :=
      parseObject_conflict upper float accepted known under camel mine there differ
    obtain ⟨name, a, b, rfl, rfl, recognized, equal⟩ := equivalentEvent_iff.mp same
    exact ⟨name, a, b, rfl, rfl, recognized, equal, event⟩

def sampleFloat : String → UInt64 := fun _ => 0

def sampleTool : Fields := [("tool_name", .str "read_file")]

def sampleTwin : Fields := [("toolName", .str "read_file")]

def sampleUnknown : Fields := [("x_y", .num "1")]

def sampleInput : AgentHookInput := { toolName := some "read_file" }

/-- A twin and one unknown key leave the tool as it is, and two spellings of an event name it. -/
theorem dualDialect_sample :
    Unhindered asciiUppercase sampleFloat sampleTool (sampleTool ++ sampleTwin ++ sampleUnknown) ∧
    ∃ a b, Json.str "pre_tool_use" = .str a ∧ Json.str "PreToolUse" = .str b ∧
      HookEvent.fromStrName a ≠ .unknown ∧ HookEvent.fromStrName a = HookEvent.fromStrName b ∧
      some "pre_tool_use" = some a := by
  have law := dualDialect_iff asciiUppercase sampleFloat
  constructor
  · have extension : PayloadExtension asciiUppercase sampleTool sampleTwin sampleUnknown
        (sampleTool ++ sampleTwin ++ sampleUnknown) := {
      twin := by
        intro entry member
        obtain rfl := List.mem_singleton.mp member
        exact .inl ⟨"tool_name", .head _, by decide +kernel⟩
      unknown := by decide +kernel
      perm := .refl _
      distinct := by decide }
    exact (law.1 sampleTool sampleInput (by rfl) _ _ _ extension).1.mp (by rfl)
  · have named := law.2
      [("hook_event_name", .str "PreToolUse"), ("hookEventName", .str "pre_tool_use")]
      { hookEventName := some "pre_tool_use" } (by rfl) "hook_event_name" (.str "pre_tool_use")
      (.str "PreToolUse") (by decide +kernel) (by decide) (by decide +kernel) (.head _)
      (by decide +kernel) (by decide)
    exact named.2

/-- Two unknown keys, one the camel case of the other. -/
def clashing : Fields := [("x_y", .num "1"), ("xY", .num "2")]

/-- The two keys are harmless in a payload of one dialect.  With the twin of the tool, which has
its value, they are refused. -/
theorem not_dualDialect_clashing :
    ¬ ∀ o input, AgentHookInput.parseObject asciiUppercase sampleFloat o = .ok input →
      ∀ twins others payload, PayloadExtension asciiUppercase o twins others payload →
        (∀ entry ∈ twins, Twin asciiUppercase o entry) →
          AgentHookInput.parseObject asciiUppercase sampleFloat payload = .ok input := by
  intro law
  have twin : ∀ entry ∈ sampleTwin, Twin asciiUppercase (sampleTool ++ clashing) entry := by
    intro entry member
    obtain rfl := List.mem_singleton.mp member
    exact ⟨"tool_name", .head _, by decide +kernel⟩
  have extension : PayloadExtension asciiUppercase (sampleTool ++ clashing) sampleTwin []
      (sampleTool ++ clashing ++ sampleTwin ++ []) := {
    twin := fun entry member => .inl (twin entry member)
    unknown := fun _ member => absurd member List.not_mem_nil
    perm := .refl _
    distinct := by decide }
  have accepted := law _ sampleInput (by rfl) sampleTwin [] _ extension twin
  have refused : AgentHookInput.parseObject asciiUppercase sampleFloat
      (sampleTool ++ clashing ++ sampleTwin ++ []) =
        .error (.decode (.duplicateField "toolName")) := by rfl
  rw [refused] at accepted
  cases accepted

end AgentOtelBridge
