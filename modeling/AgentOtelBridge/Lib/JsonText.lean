import AgentOtelBridge.Lib.JsonObject

/-!
# JSON texts

The grammar of JSON, over bytes.  `Derives bytes phrase` says that some bytes are a value,
the items of an array or the members of an object, with their syntax tree.  White space is
around every value and every key, and nowhere else.

A tree keeps its strings and numbers as they are written.  What a string or a number is
read as is up to a `Reader`, which may also refuse it.  A value is built of a tree as a map
is: a key that is there already gets the new value.
-/

namespace JsonText

/-! ## Leaves -/

/-- White space: a space, a tab, a line feed or a carriage return. -/
def IsSpace (byte : UInt8) : Prop := byte = 32 ∨ byte = 9 ∨ byte = 10 ∨ byte = 13

instance (byte : UInt8) : Decidable (IsSpace byte) := inferInstanceAs (Decidable (_ ∨ _))

def Space (bytes : List UInt8) : Prop := ∀ byte ∈ bytes, IsSpace byte

def IsDigit (byte : UInt8) : Prop := 48 ≤ byte ∧ byte ≤ 57

def IsHexDigit (byte : UInt8) : Prop :=
  IsDigit byte ∨ (65 ≤ byte ∧ byte ≤ 70) ∨ (97 ≤ byte ∧ byte ≤ 102)

instance (byte : UInt8) : Decidable (IsDigit byte) := inferInstanceAs (Decidable (_ ∧ _))

instance (byte : UInt8) : Decidable (IsHexDigit byte) := inferInstanceAs (Decidable (_ ∨ _))

/-- Zero, or digits that do not begin with zero. -/
inductive Integer : List UInt8 → Prop
  | zero : Integer [48]
  | positive {first : UInt8} {rest : List UInt8} (leading : 49 ≤ first ∧ first ≤ 57)
      (digits : ∀ byte ∈ rest, IsDigit byte) : Integer (first :: rest)

inductive Fraction : List UInt8 → Prop
  | none : Fraction []
  | some {digits : List UInt8} (nonempty : digits ≠ []) (digits_ : ∀ byte ∈ digits, IsDigit byte) :
      Fraction (46 :: digits)

inductive Exponent : List UInt8 → Prop
  | none : Exponent []
  | some {letter : UInt8} {sign digits : List UInt8} (letter_ : letter = 69 ∨ letter = 101)
      (sign_ : sign = [] ∨ sign = [43] ∨ sign = [45]) (nonempty : digits ≠ [])
      (digits_ : ∀ byte ∈ digits, IsDigit byte) : Exponent (letter :: (sign ++ digits))

inductive Number : List UInt8 → Prop
  | mk {sign integer fraction exponent : List UInt8} (sign_ : sign = [] ∨ sign = [45])
      (integer_ : Integer integer) (fraction_ : Fraction fraction) (exponent_ : Exponent exponent) :
      Number (sign ++ integer ++ fraction ++ exponent)

/-- What may stand between the quotation marks of a string. -/
inductive Characters : List UInt8 → Prop
  | nil : Characters []
  | unescaped {c : Char} {rest : List UInt8} (printing : 32 ≤ c.toNat)
      (plain : c ≠ '"' ∧ c ≠ '\\') (more : Characters rest) :
      Characters (String.utf8EncodeChar c ++ rest)
  | escaped {byte : UInt8} {rest : List UInt8}
      (escape : byte ∈ [34, 92, 47, 98, 102, 110, 114, 116]) (more : Characters rest) :
      Characters (92 :: byte :: rest)
  | unicode {digits rest : List UInt8} (four : digits.length = 4)
      (hexadecimal : ∀ byte ∈ digits, IsHexDigit byte) (more : Characters rest) :
      Characters (92 :: 117 :: (digits ++ rest))

/-! ## Trees and phrases -/

/-- The syntax tree of a value. -/
inductive Tree where
  | null
  | bool (value : Bool)
  | num (text : List UInt8)
  | str (text : List UInt8)
  | arr (items : List Tree)
  | obj (members : List (List UInt8 × Tree))

inductive Phrase where
  | value (tree : Tree)
  | items (trees : List Tree)
  | members (members : List (List UInt8 × Tree))

inductive Derives : List UInt8 → Phrase → Prop
  | null : Derives [110, 117, 108, 108] (.value .null)
  | true : Derives [116, 114, 117, 101] (.value (.bool true))
  | false : Derives [102, 97, 108, 115, 101] (.value (.bool false))
  | num {text : List UInt8} (number : Number text) : Derives text (.value (.num text))
  | str {text : List UInt8} (characters : Characters text) :
      Derives (34 :: (text ++ [34])) (.value (.str text))
  | emptyArr {space : List UInt8} (space_ : Space space) :
      Derives (91 :: (space ++ [93])) (.value (.arr []))
  | arr {body : List UInt8} {trees : List Tree} (items : Derives body (.items trees)) :
      Derives (91 :: (body ++ [93])) (.value (.arr trees))
  | emptyObj {space : List UInt8} (space_ : Space space) :
      Derives (123 :: (space ++ [125])) (.value (.obj []))
  | obj {body : List UInt8} {members : List (List UInt8 × Tree)}
      (members_ : Derives body (.members members)) :
      Derives (123 :: (body ++ [125])) (.value (.obj members))
  | item {before body after : List UInt8} {tree : Tree} (before_ : Space before)
      (value : Derives body (.value tree)) (after_ : Space after) :
      Derives (before ++ body ++ after) (.items [tree])
  | items {first rest : List UInt8} {tree : Tree} {trees : List Tree}
      (head : Derives first (.items [tree])) (tail : Derives rest (.items trees)) :
      Derives (first ++ 44 :: rest) (.items (tree :: trees))
  | member {before key after body : List UInt8} {tree : Tree} (before_ : Space before)
      (characters : Characters key) (after_ : Space after) (value : Derives body (.items [tree])) :
      Derives (before ++ 34 :: (key ++ 34 :: (after ++ 58 :: body))) (.members [(key, tree)])
  | members {first rest : List UInt8} {member : List UInt8 × Tree}
      {members : List (List UInt8 × Tree)} (head : Derives first (.members [member]))
      (tail : Derives rest (.members members)) :
      Derives (first ++ 44 :: rest) (.members (member :: members))

/-- A JSON text: a value, with white space around it. -/
def Document (bytes : List UInt8) (tree : Tree) : Prop := Derives bytes (.items [tree])

/-! ## Nodes -/

mutual

/-- The values in a tree and the members of its objects. -/
def Tree.nodes : Tree → Nat
  | .null | .bool _ | .num _ | .str _ => 1
  | .arr items => 1 + itemNodes items
  | .obj members => 1 + memberNodes members

def itemNodes : List Tree → Nat
  | [] => 0
  | tree :: trees => tree.nodes + itemNodes trees

def memberNodes : List (List UInt8 × Tree) → Nat
  | [] => 0
  | (_, tree) :: members => 1 + tree.nodes + memberNodes members

end

def Phrase.nodes : Phrase → Nat
  | .value tree => tree.nodes
  | .items trees => itemNodes trees
  | .members fields => memberNodes fields

theorem nonempty_of_number {text : List UInt8} (number : Number text) : text ≠ [] := by
  obtain ⟨-, integer, -, -⟩ := number
  cases integer <;> simp

/-- A node takes a byte at least. -/
theorem Derives.nodes_le {bytes : List UInt8} {phrase : Phrase} (h : Derives bytes phrase) :
    phrase.nodes ≤ bytes.length := by
  induction h with
  | null | true | false => simp [Phrase.nodes, Tree.nodes]
  | num number =>
      exact List.length_pos_iff.mpr (nonempty_of_number number)
  | str _ | emptyArr _ | emptyObj _ =>
      simp [Phrase.nodes, Tree.nodes, itemNodes, memberNodes]
  | arr _ ih | obj _ ih =>
      simp only [Phrase.nodes, Tree.nodes, List.length_cons, List.length_append] at ih ⊢
      omega
  | item _ _ _ ih =>
      simp only [Phrase.nodes, itemNodes, List.length_append] at ih ⊢
      omega
  | items _ _ head tail | members _ _ head tail =>
      simp only [Phrase.nodes, itemNodes, memberNodes, List.length_cons, List.length_append]
        at head tail ⊢
      omega
  | member _ _ _ _ ih =>
      simp only [Phrase.nodes, itemNodes, memberNodes, List.length_cons, List.length_append] at ih ⊢
      omega

/-! ## The value of a tree -/

/-- What strings and numbers are read as. -/
structure Reader where
  string : List UInt8 → Option String
  number : List UInt8 → Option String

mutual

/-- The value of a tree, unless a string or a number is refused. -/
def Tree.build (reader : Reader) : Tree → Option Json
  | .null => some .null
  | .bool value => some (.bool value)
  | .num text => (reader.number text).map .num
  | .str text => (reader.string text).map .str
  | .arr items => (buildItems reader items).map .arr
  | .obj members => (buildMembers reader [] members).map .obj

def buildItems (reader : Reader) : List Tree → Option (List Json)
  | [] => some []
  | tree :: trees => do
      let value ← tree.build reader
      let values ← buildItems reader trees
      some (value :: values)

/-- The fields with those of some members: the last of a key is kept. -/
def buildMembers (reader : Reader) (fields : Json.Fields) :
    List (List UInt8 × Tree) → Option Json.Fields
  | [] => some fields
  | (text, tree) :: members => do
      let key ← reader.string text
      let value ← tree.build reader
      buildMembers reader (Json.insertField key value fields) members

end

mutual

/-- The values in a value and the fields of its objects. -/
def valueNodes : Json → Nat
  | .null | .bool _ | .num _ | .str _ => 1
  | .arr items => 1 + listNodes items
  | .obj fields => 1 + fieldNodes fields

def listNodes : List Json → Nat
  | [] => 0
  | value :: values => valueNodes value + listNodes values

def fieldNodes : Json.Fields → Nat
  | [] => 0
  | (_, value) :: fields => 1 + valueNodes value + fieldNodes fields

end

theorem fieldNodes_modifyField (key : String) (value : Json) (fields : Json.Fields) :
    fieldNodes (Json.modifyField key (fun _ => value) fields) ≤
      fieldNodes fields + valueNodes value := by
  induction fields with
  | nil => simp [Json.modifyField, fieldNodes]
  | cons field rest ih =>
      obtain ⟨k, v⟩ := field
      unfold Json.modifyField
      split
      · simp only [fieldNodes]
        omega
      · simp only [fieldNodes]
        omega

theorem fieldNodes_insertSorted (key : String) (value : Json) (fields : Json.Fields) :
    fieldNodes (Json.insertSorted key value fields) = fieldNodes fields + valueNodes value + 1 := by
  induction fields with
  | nil =>
      simp only [Json.insertSorted, fieldNodes]
      omega
  | cons field rest ih =>
      obtain ⟨k, v⟩ := field
      unfold Json.insertSorted
      split
      · simp only [fieldNodes]
        omega
      · simp only [fieldNodes, ih]
        omega

theorem fieldNodes_insertField (key : String) (value : Json) (fields : Json.Fields) :
    fieldNodes (Json.insertField key value fields) ≤ fieldNodes fields + valueNodes value + 1 := by
  unfold Json.insertField
  split
  · exact (fieldNodes_modifyField key value fields).trans (Nat.le_succ _)
  · exact (fieldNodes_insertSorted key value fields).le

mutual

/-- A value has no more nodes than its tree. -/
theorem Tree.valueNodes_le {reader : Reader} : ∀ {tree : Tree} {value : Json},
    tree.build reader = some value → valueNodes value ≤ tree.nodes
  | .null, value, built | .bool _, value, built => by
      cases built
      exact Nat.le_refl 1
  | .num text, value, built => by
      obtain ⟨number, -, rfl⟩ := Option.map_eq_some_iff.mp built
      exact Nat.le_refl 1
  | .str text, value, built => by
      obtain ⟨string, -, rfl⟩ := Option.map_eq_some_iff.mp built
      exact Nat.le_refl 1
  | .arr items, value, built => by
      obtain ⟨values, builtItems, rfl⟩ := Option.map_eq_some_iff.mp built
      exact Nat.add_le_add_left (listNodes_le builtItems) 1
  | .obj members, value, built => by
      obtain ⟨fields, builtMembers, rfl⟩ := Option.map_eq_some_iff.mp built
      have bound := fieldNodes_le builtMembers
      simp only [valueNodes, Tree.nodes, fieldNodes] at bound ⊢
      omega

theorem listNodes_le {reader : Reader} : ∀ {items : List Tree} {values : List Json},
    buildItems reader items = some values → listNodes values ≤ itemNodes items
  | [], values, built => by
      cases built
      exact Nat.le_refl 0
  | tree :: trees, values, built => by
      obtain ⟨value, head, built⟩ := Option.bind_eq_some_iff.mp built
      obtain ⟨rest, tail, built⟩ := Option.bind_eq_some_iff.mp built
      cases built
      exact Nat.add_le_add (Tree.valueNodes_le head) (listNodes_le tail)

theorem fieldNodes_le {reader : Reader} : ∀ {members : List (List UInt8 × Tree)}
    {fields fields' : Json.Fields}, buildMembers reader fields members = some fields' →
      fieldNodes fields' ≤ fieldNodes fields + memberNodes members
  | [], fields, fields', built => by
      cases built
      exact Nat.le_refl _
  | (text, tree) :: members, fields, fields', built => by
      obtain ⟨key, -, built⟩ := Option.bind_eq_some_iff.mp built
      obtain ⟨value, head, built⟩ := Option.bind_eq_some_iff.mp built
      have bound := Tree.valueNodes_le head
      have inserted := fieldNodes_insertField key value fields
      have rest := fieldNodes_le built
      simp only [memberNodes]
      omega

end

/-! ## The trees in a tree -/

/-- A tree is in another one, at some depth. -/
inductive Part (part : Tree) : Tree → Prop
  | self : Part part part
  | item {tree : Tree} {items : List Tree} (member : tree ∈ items) (inside : Part part tree) :
      Part part (.arr items)
  | member {key : List UInt8} {tree : Tree} {members : List (List UInt8 × Tree)}
      (member : (key, tree) ∈ members) (inside : Part part tree) : Part part (.obj members)

theorem nodes_le_itemNodes {tree : Tree} {items : List Tree} (member : tree ∈ items) :
    tree.nodes ≤ itemNodes items := by
  induction member with
  | head => exact Nat.le_add_right ..
  | tail _ _ ih => exact ih.trans (Nat.le_add_left ..)

theorem nodes_le_memberNodes {key : List UInt8} {tree : Tree} {members : List (List UInt8 × Tree)}
    (member : (key, tree) ∈ members) : tree.nodes ≤ memberNodes members := by
  induction members with
  | nil => exact absurd member List.not_mem_nil
  | cons first rest ih =>
      obtain ⟨k, t⟩ := first
      rw [memberNodes]
      rcases List.mem_cons.mp member with same | later
      · cases same
        omega
      · exact (ih later).trans (Nat.le_add_left ..)

theorem Part.nodes_le {part tree : Tree} (h : Part part tree) : part.nodes ≤ tree.nodes := by
  induction h with
  | self => exact Nat.le_refl _
  | item member _ ih => exact ih.trans ((nodes_le_itemNodes member).trans (Nat.le_add_left ..))
  | member member _ ih => exact ih.trans ((nodes_le_memberNodes member).trans (Nat.le_add_left ..))

end JsonText
