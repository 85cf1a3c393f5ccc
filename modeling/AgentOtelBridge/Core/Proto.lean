import Mathlib.Data.List.Basic

/-!
# The OTLP messages

The protobuf messages the bridge builds and reads, as records.  A value of a
shape the bridge never builds is kept as its encoding, and so are the fields of
a span that it leaves at their defaults: nothing here looks inside them.
-/

namespace AgentOtelBridge

/-- `any_value::Value`.  An array is one of strings, a double its bits. -/
inductive Value where
  | stringValue (value : String)
  | boolValue (value : Bool)
  | intValue (value : Int)
  | doubleValue (bits : UInt64)
  | arrayValue (values : List String)
  | other (encoded : List UInt8)
deriving DecidableEq, Repr

structure AnyValue where
  value : Option Value
deriving DecidableEq, Repr

structure KeyValue where
  key : String
  value : Option AnyValue
deriving DecidableEq, Repr

structure Status where
  message : String
  code : Int
deriving DecidableEq, Repr

structure Span where
  traceId : List UInt8
  spanId : List UInt8
  parentSpanId : List UInt8
  flags : Nat
  name : String
  kind : Int
  startTimeUnixNano : Nat
  endTimeUnixNano : Nat
  attributes : List KeyValue
  status : Option Status
  /-- The other fields, encoded. -/
  rest : List UInt8
deriving DecidableEq, Repr

/-! ## Attributes -/

def kvString (key value : String) : KeyValue := ⟨key, some ⟨some (.stringValue value)⟩⟩
def kvInt (key : String) (value : Int) : KeyValue := ⟨key, some ⟨some (.intValue value)⟩⟩
def kvBool (key : String) (value : Bool) : KeyValue := ⟨key, some ⟨some (.boolValue value)⟩⟩

@[simp] theorem kvBool_key (key : String) (value : Bool) : (kvBool key value).key = key := rfl

/-- How often a key occurs in a list of attributes. -/
def countKey (key : String) (attributes : List KeyValue) : Nat :=
  attributes.countP fun attr => attr.key == key

@[simp] theorem countKey_nil (key : String) : countKey key [] = 0 := rfl

theorem countKey_cons (key : String) (attr : KeyValue) (attrs : List KeyValue) :
    countKey key (attr :: attrs) = countKey key attrs + if attr.key = key then 1 else 0 := by
  simp [countKey, List.countP_cons]

theorem countKey_append (key : String) (attrs more : List KeyValue) :
    countKey key (attrs ++ more) = countKey key attrs + countKey key more := by
  simp [countKey]

/-- The first attribute of a key. -/
def findKey (key : String) (attributes : List KeyValue) : Option KeyValue :=
  attributes.find? fun attr => attr.key == key

@[simp] theorem findKey_nil (key : String) : findKey key [] = none := rfl

theorem findKey_cons (key : String) (attr : KeyValue) (attrs : List KeyValue) :
    findKey key (attr :: attrs) = if attr.key = key then some attr else findKey key attrs := by
  by_cases h : attr.key = key <;> simp [findKey, h]

theorem findKey_key {key : String} {attrs : List KeyValue} {kv : KeyValue}
    (h : findKey key attrs = some kv) : kv.key = key := by
  simpa using List.find?_some h

/-- A key occurs exactly when it is found. -/
theorem countKey_pos {key : String} {attrs : List KeyValue} :
    0 < countKey key attrs ↔ (findKey key attrs).isSome = true := by
  simp [countKey, findKey, List.countP_pos_iff, List.find?_isSome]

theorem findKey_append_left {key : String} {attrs more : List KeyValue} {kv : KeyValue}
    (h : findKey key attrs = some kv) : findKey key (attrs ++ more) = some kv := by
  simp only [findKey] at h ⊢
  rw [List.find?_append, h]
  rfl

theorem findKey_append_none {key : String} {attrs more : List KeyValue}
    (h : findKey key attrs = none) : findKey key (attrs ++ more) = findKey key more := by
  simp only [findKey] at h ⊢
  rw [List.find?_append, h]
  rfl

/-- The text of an attribute's value. -/
def KeyValue.str? (kv : KeyValue) : Option String :=
  kv.value.bind fun any => any.value.bind fun
    | .stringValue value => some value
    | _ => none

/-- The integer of an attribute's value. -/
def KeyValue.int? (kv : KeyValue) : Option Int :=
  kv.value.bind fun any => any.value.bind fun
    | .intValue value => some value
    | _ => none

/-- The truth value of an attribute's value. -/
def KeyValue.bool? (kv : KeyValue) : Option Bool :=
  kv.value.bind fun any => any.value.bind fun
    | .boolValue value => some value
    | _ => none

end AgentOtelBridge
