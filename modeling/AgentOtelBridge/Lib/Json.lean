import Mathlib.Data.List.Basic

/-!
# JSON values

A number is its text.  An object is a list of fields, which a map keeps in the
order of the keys and without repeating one.
-/

inductive Json where
  | null
  | bool (value : Bool)
  | num (text : String)
  | str (value : String)
  | arr (items : List Json)
  | obj (fields : List (String × Json))
deriving Repr

namespace Json

mutual

/-- Equality of values is decided by their text. -/
def decEq : (a b : Json) → Decidable (a = b)
  | .null, .null => isTrue rfl
  | .bool a, .bool b =>
      if h : a = b then isTrue (h ▸ rfl) else isFalse fun same => h (Json.bool.inj same)
  | .num a, .num b =>
      if h : a = b then isTrue (h ▸ rfl) else isFalse fun same => h (Json.num.inj same)
  | .str a, .str b =>
      if h : a = b then isTrue (h ▸ rfl) else isFalse fun same => h (Json.str.inj same)
  | .arr as, .arr bs =>
      match decEqItems as bs with
      | isTrue h => isTrue (h ▸ rfl)
      | isFalse h => isFalse fun same => h (Json.arr.inj same)
  | .obj as, .obj bs =>
      match decEqFields as bs with
      | isTrue h => isTrue (h ▸ rfl)
      | isFalse h => isFalse fun same => h (Json.obj.inj same)
  | .null, .bool _ | .null, .num _ | .null, .str _ | .null, .arr _ | .null, .obj _
  | .bool _, .null | .bool _, .num _ | .bool _, .str _ | .bool _, .arr _ | .bool _, .obj _
  | .num _, .null | .num _, .bool _ | .num _, .str _ | .num _, .arr _ | .num _, .obj _
  | .str _, .null | .str _, .bool _ | .str _, .num _ | .str _, .arr _ | .str _, .obj _
  | .arr _, .null | .arr _, .bool _ | .arr _, .num _ | .arr _, .str _ | .arr _, .obj _
  | .obj _, .null | .obj _, .bool _ | .obj _, .num _ | .obj _, .str _ | .obj _, .arr _ =>
      isFalse nofun

def decEqItems : (as bs : List Json) → Decidable (as = bs)
  | [], [] => isTrue rfl
  | [], _ :: _ | _ :: _, [] => isFalse nofun
  | a :: as, b :: bs =>
      match decEq a b, decEqItems as bs with
      | isTrue h, isTrue t => isTrue (h ▸ t ▸ rfl)
      | isFalse h, _ => isFalse fun same => h (List.cons.inj same).1
      | _, isFalse t => isFalse fun same => t (List.cons.inj same).2

def decEqFields : (as bs : List (String × Json)) → Decidable (as = bs)
  | [], [] => isTrue rfl
  | [], _ :: _ | _ :: _, [] => isFalse nofun
  | (k, a) :: as, (l, b) :: bs =>
      if key : k = l then
        match decEq a b, decEqFields as bs with
        | isTrue h, isTrue t => isTrue (key ▸ h ▸ t ▸ rfl)
        | isFalse h, _ => isFalse fun same => h (Prod.mk.inj (List.cons.inj same).1).2
        | _, isFalse t => isFalse fun same => t (List.cons.inj same).2
      else isFalse fun same => key (Prod.mk.inj (List.cons.inj same).1).1

end

instance : DecidableEq Json := decEq

/-! ## Access -/

/-- The first field of a key, as `get` of a map or of a value that may be one. -/
def getField (key : String) (fields : List (String × Json)) : Option Json :=
  (fields.find? fun field => field.1 = key).map (·.2)

def get (value : Json) (key : String) : Option Json :=
  match value with
  | .obj fields => getField key fields
  | _ => none

def asStr : Json → Option String
  | .str value => some value
  | _ => none

end Json
