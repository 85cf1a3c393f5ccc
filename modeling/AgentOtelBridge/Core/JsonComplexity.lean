import AgentOtelBridge.Lib.JsonText
import AgentOtelBridge.Lib.Text

/-!
# The complexity of a hook's JSON

`validateJsonComplexity` scans the bytes of a hook before anything is built of them.  It
counts where a string, an array, an object or another scalar begins, with three flags for
where it is.

In a JSON text these are the values and the keys: the scan is ready before each of them,
and behind it where a comma, a bracket or white space makes it ready again.
-/

namespace AgentOtelBridge.JsonComplexity

open JsonText

def maxHookInputBytes : Nat := 16 * 1024 * 1024

def maxDynamicJsonNodes : Nat := 65536

def usizeMax : Nat := 2 ^ 64 - 1

/-- A slice of bytes. -/
abbrev Slice := { bytes : List UInt8 // bytes.length < 2 ^ 63 }

def saturatingAdd (a b : Nat) : Nat := min (a + b) usizeMax

/-! ## The scan -/

structure Scan where
  nodes : Nat := 0
  inString : Bool := false
  escaped : Bool := false
  inPrimitive : Bool := false
deriving DecidableEq, Repr

/-- The scan of one more byte. -/
def Scan.step (s : Scan) (byte : UInt8) : Scan :=
  if s.inString then
    if s.escaped then { s with escaped := false }
    else if byte = 92 then { s with escaped := true }
    else if byte = 34 then { s with inString := false }
    else s
  else if byte = 34 then
    { s with inString := true, inPrimitive := false, nodes := saturatingAdd s.nodes 1 }
  else if byte = 123 ∨ byte = 91 then
    { s with inPrimitive := false, nodes := saturatingAdd s.nodes 1 }
  else if byte ∈ [125, 93, 44, 58, 32, 9, 13, 10] then { s with inPrimitive := false }
  else if !s.inPrimitive then
    { s with inPrimitive := true, nodes := saturatingAdd s.nodes 1 }
  else s

/-- The loop over the bytes, which the budget ends. -/
def scanFrom (s : Scan) : List UInt8 → Except String Unit
  | [] => .ok ()
  | byte :: rest =>
      if s.inString then scanFrom (s.step byte) rest
      else if maxDynamicJsonNodes < (s.step byte).nodes then
        .error "hook JSON exceeds dynamic node budget"
      else scanFrom (s.step byte) rest

def validateJsonComplexity (bytes : Slice) : Except String Unit :=
  if maxHookInputBytes < bytes.val.length then .error "hook JSON exceeds 16 MiB"
  else scanFrom {} bytes.val

/-- The scan of some bytes, without a budget. -/
def Scan.run (s : Scan) (bytes : List UInt8) : Scan := bytes.foldl Scan.step s

@[simp] theorem Scan.run_nil (s : Scan) : s.run [] = s := rfl

@[simp] theorem Scan.run_cons (s : Scan) (byte : UInt8) (rest : List UInt8) :
    s.run (byte :: rest) = (s.step byte).run rest := rfl

@[simp] theorem Scan.run_append (s : Scan) (front back : List UInt8) :
    s.run (front ++ back) = (s.run front).run back := List.foldl_append

/-! ## The budget -/

section

variable {s : Scan} {byte : UInt8} {n : Nat}

theorem saturatingAdd_eq (room : n < usizeMax) : saturatingAdd n 1 = n + 1 :=
  Nat.min_eq_left room

theorem le_saturatingAdd (bounded : n ≤ usizeMax) : n ≤ saturatingAdd n 1 :=
  Nat.le_min.mpr ⟨Nat.le_succ n, bounded⟩

/-- What a step may do to the count. -/
theorem Scan.step_nodes (s : Scan) (byte : UInt8) :
    (s.step byte).nodes = s.nodes ∨
      s.inString = false ∧ (s.step byte).nodes = saturatingAdd s.nodes 1 := by
  unfold Scan.step
  split
  · split
    · exact .inl rfl
    · split
      · exact .inl rfl
      · split <;> exact .inl rfl
  next outside =>
    have outside := Bool.not_eq_true _ ▸ outside
    split
    · exact .inr ⟨outside, rfl⟩
    · split
      · exact .inr ⟨outside, rfl⟩
      · split
        · exact .inl rfl
        · split
          · exact .inr ⟨outside, rfl⟩
          · exact .inl rfl

theorem Scan.step_bounded (bounded : s.nodes ≤ usizeMax) (byte : UInt8) :
    s.nodes ≤ (s.step byte).nodes ∧ (s.step byte).nodes ≤ usizeMax := by
  rcases s.step_nodes byte with same | ⟨-, more⟩
  · rw [same]
    exact ⟨Nat.le_refl _, bounded⟩
  · rw [more]
    exact ⟨le_saturatingAdd bounded, Nat.min_le_right ..⟩

theorem Scan.run_bounded (bounded : s.nodes ≤ usizeMax) (bytes : List UInt8) :
    s.nodes ≤ (s.run bytes).nodes ∧ (s.run bytes).nodes ≤ usizeMax := by
  induction bytes generalizing s with
  | nil => exact ⟨Nat.le_refl _, bounded⟩
  | cons byte rest ih =>
      obtain ⟨more, bounded⟩ := s.step_bounded bounded byte
      obtain ⟨later, bounded⟩ := ih bounded
      exact ⟨more.trans later, bounded⟩

/-- The loop gets to its end if the count does not exceed the budget there. -/
theorem scanFrom_eq_ok (within : s.nodes ≤ maxDynamicJsonNodes) (bytes : List UInt8) :
    scanFrom s bytes = .ok () ↔ (s.run bytes).nodes ≤ maxDynamicJsonNodes := by
  induction bytes generalizing s with
  | nil => simp [scanFrom, within]
  | cons byte rest ih =>
      rw [Scan.run_cons]
      unfold scanFrom
      have small : maxDynamicJsonNodes ≤ usizeMax := by decide
      split
      next inside =>
        refine ih ?_
        rcases s.step_nodes byte with same | ⟨outside, -⟩
        · exact same ▸ within
        · simp [inside] at outside
      next outside =>
        split
        next exceeds =>
          have bounded := (s.step_bounded (within.trans small) byte).2
          have later := ((s.step byte).run_bounded bounded rest).1
          simp only [reduceCtorEq, false_iff]
          omega
        next within' => exact ih (Nat.not_lt.mp within')

end

/-! ## The scan of a text -/

/-- The scan is outside of strings, with a count of nodes. -/
structure Outside (n : Nat) (s : Scan) : Prop where
  nodes : s.nodes = n
  inString : s.inString = false
  escaped : s.escaped = false

/-- Moreover the next byte begins something. -/
structure Ready (n : Nat) (s : Scan) : Prop extends Outside n s where
  inPrimitive : s.inPrimitive = false

/-- The scan is in a string, with nothing escaped. -/
structure Inside (n : Nat) (s : Scan) : Prop where
  nodes : s.nodes = n
  inString : s.inString = true
  escaped : s.escaped = false
  inPrimitive : s.inPrimitive = false

/-- A byte of a scalar that is not a string. -/
def Primitive (byte : UInt8) : Prop :=
  byte ≠ 34 ∧ byte ≠ 123 ∧ byte ≠ 91 ∧ byte ∉ [125, 93, 44, 58, 32, 9, 13, 10]

instance (byte : UInt8) : Decidable (Primitive byte) := inferInstanceAs (Decidable (_ ∧ _))

section

variable {n : Nat} {s : Scan} {byte : UInt8} {bytes text : List UInt8}

theorem Outside.separator (h : Outside n s) (separator : byte ∈ [125, 93, 44, 58, 32, 9, 13, 10]) :
    Ready n (s.step byte) := by
  have quotation : byte ≠ 34 := by
    rintro rfl
    simp at separator
  have bracket : ¬ (byte = 123 ∨ byte = 91) := by
    rintro (rfl | rfl) <;> simp at separator
  have stepped : s.step byte = { s with inPrimitive := false } := by
    rw [Scan.step, h.inString, if_neg Bool.false_ne_true, if_neg quotation, if_neg bracket,
      if_pos separator]
  rw [stepped]
  exact ⟨⟨h.nodes, h.inString, h.escaped⟩, rfl⟩

theorem Outside.bracket (h : Outside n s) (bracket : byte = 123 ∨ byte = 91)
    (room : n < usizeMax) : Ready (n + 1) (s.step byte) := by
  have quotation : byte ≠ 34 := by
    rintro rfl
    simp at bracket
  have stepped : s.step byte =
      { s with inPrimitive := false, nodes := saturatingAdd s.nodes 1 } := by
    rw [Scan.step, h.inString, if_neg Bool.false_ne_true, if_neg quotation, if_pos bracket]
  rw [stepped]
  exact ⟨⟨by simp [h.nodes, saturatingAdd_eq room], h.inString, h.escaped⟩, rfl⟩

theorem Outside.quotation (h : Outside n s) (room : n < usizeMax) : Inside (n + 1) (s.step 34) := by
  have stepped : s.step 34 =
      { s with inString := true, inPrimitive := false, nodes := saturatingAdd s.nodes 1 } := by
    rw [Scan.step, h.inString, if_neg Bool.false_ne_true, if_pos rfl]
  rw [stepped]
  exact ⟨by simp [h.nodes, saturatingAdd_eq room], rfl, h.escaped, rfl⟩

theorem Inside.quotation (h : Inside n s) : Ready n (s.step 34) := by
  have stepped : s.step 34 = { s with inString := false } := by
    rw [Scan.step, if_pos h.inString, h.escaped, if_neg Bool.false_ne_true, if_neg (by decide),
      if_pos rfl]
  rw [stepped]
  exact ⟨⟨h.nodes, rfl, h.escaped⟩, h.inPrimitive⟩

theorem Inside.plain (h : Inside n s) (plain : byte ≠ 92 ∧ byte ≠ 34) : s.step byte = s := by
  rw [Scan.step, if_pos h.inString, h.escaped, if_neg Bool.false_ne_true, if_neg plain.1,
    if_neg plain.2]

theorem Inside.run_plain (h : Inside n s) (plain : ∀ byte ∈ bytes, byte ≠ 92 ∧ byte ≠ 34) :
    s.run bytes = s := by
  induction bytes with
  | nil => rfl
  | cons byte rest ih =>
      rw [List.forall_mem_cons] at plain
      rw [Scan.run_cons, h.plain plain.1, ih plain.2]

/-- A backslash and the byte that it escapes. -/
theorem Inside.run_escaped (h : Inside n s) (byte : UInt8) : s.run [92, byte] = s := by
  have stepped : s.step 92 = { s with escaped := true } := by
    rw [Scan.step, if_pos h.inString, h.escaped, if_neg Bool.false_ne_true, if_pos rfl]
  rw [Scan.run_cons, stepped, Scan.run_cons, Scan.run_nil, Scan.step, if_pos h.inString, if_pos rfl]
  exact congrArg (fun escaped => { s with escaped }) h.escaped.symm

/-- The scan does not leave a string before its end. -/
theorem Inside.run_characters (h : Inside n s) (characters : Characters text) :
    s.run text = s := by
  induction characters with
  | nil => rfl
  | @unescaped c rest printing plain more ih =>
      rw [Scan.run_append, h.run_plain, ih]
      intro byte member
      constructor
      · rintro rfl
        exact plain.2 (Char.toNat_inj.mp (Text.toNat_of_mem_utf8EncodeChar member (by decide)))
      · rintro rfl
        exact plain.1 (Char.toNat_inj.mp (Text.toNat_of_mem_utf8EncodeChar member (by decide)))
  | @escaped byte rest escape more ih =>
      rw [show 92 :: byte :: rest = [92, byte] ++ rest from rfl, Scan.run_append, h.run_escaped, ih]
  | @unicode digits rest four hexadecimal more ih =>
      rw [show 92 :: 117 :: (digits ++ rest) = [92, 117] ++ (digits ++ rest) from rfl,
        Scan.run_append, h.run_escaped, Scan.run_append, h.run_plain, ih]
      intro digit member
      have hexadecimal := hexadecimal digit member
      constructor
      · rintro rfl
        revert hexadecimal
        decide
      · rintro rfl
        revert hexadecimal
        decide

theorem Outside.run_space (h : Outside n s) (space : Space bytes) : Outside n (s.run bytes) := by
  induction bytes generalizing s with
  | nil => exact h
  | cons byte rest ih =>
      obtain ⟨first, space⟩ := List.forall_mem_cons.mp space
      refine ih (h.separator ?_).toOutside space
      rcases first with rfl | rfl | rfl | rfl <;> decide

theorem Ready.run_space (h : Ready n s) (space : Space bytes) : Ready n (s.run bytes) := by
  induction bytes generalizing s with
  | nil => exact h
  | cons byte rest ih =>
      obtain ⟨first, space⟩ := List.forall_mem_cons.mp space
      refine ih (h.toOutside.separator ?_) space
      rcases first with rfl | rfl | rfl | rfl <;> decide

/-! ## Scalars -/

theorem Outside.run_primitive (h : Outside n s) (within : s.inPrimitive = true)
    (primitive : ∀ byte ∈ bytes, Primitive byte) : s.run bytes = s := by
  induction bytes with
  | nil => rfl
  | cons byte rest ih =>
      obtain ⟨⟨quotation, brace, bracket, separator⟩, primitive⟩ := List.forall_mem_cons.mp primitive
      have stepped : s.step byte = s := by
        rw [Scan.step, h.inString, if_neg Bool.false_ne_true, if_neg quotation,
          if_neg (not_or.mpr ⟨brace, bracket⟩), if_neg separator, within, Bool.not_true,
          if_neg Bool.false_ne_true]
      rw [Scan.run_cons, stepped, ih primitive]

/-- A scalar that is not a string is one node. -/
theorem Ready.run_primitive (h : Ready n s) (room : n < usizeMax) (nonempty : bytes ≠ [])
    (primitive : ∀ byte ∈ bytes, Primitive byte) : Outside (n + 1) (s.run bytes) := by
  cases bytes with
  | nil => exact absurd rfl nonempty
  | cons byte rest =>
      obtain ⟨⟨quotation, brace, bracket, separator⟩, primitive⟩ := List.forall_mem_cons.mp primitive
      have stepped : s.step byte =
          { s with inPrimitive := true, nodes := saturatingAdd s.nodes 1 } := by
        rw [Scan.step, h.inString, if_neg Bool.false_ne_true, if_neg quotation,
          if_neg (not_or.mpr ⟨brace, bracket⟩), if_neg separator, h.inPrimitive, Bool.not_false,
          if_pos rfl]
      have begun : Outside (n + 1) (s.step byte) := by
        rw [stepped]
        exact ⟨by simp [h.nodes, saturatingAdd_eq room], h.inString, h.escaped⟩
      rw [Scan.run_cons, begun.run_primitive (by rw [stepped]) primitive]
      exact begun

theorem primitive_of_digit (digit : IsDigit byte) : Primitive byte := by
  have other : ∀ listed, ¬ IsDigit listed → byte ≠ listed := by
    rintro listed notDigit rfl
    exact notDigit digit
  refine ⟨other _ (by decide), other _ (by decide), other _ (by decide), fun separator => ?_⟩
  have none : ∀ listed ∈ [125, 93, 44, 58, 32, 9, 13, (10 : UInt8)], ¬ IsDigit listed := by
    decide +kernel
  exact none byte separator digit

theorem primitive_of_number (number : Number text) : ∀ byte ∈ text, Primitive byte := by
  have minus : Primitive 45 := by decide
  have plus : Primitive 43 := by decide
  have point : Primitive 46 := by decide
  obtain ⟨sign, integer, fraction, exponent⟩ := number
  simp only [List.forall_mem_append]
  refine ⟨⟨⟨?_, ?_⟩, ?_⟩, ?_⟩
  · rcases sign with rfl | rfl
    · simp
    · simpa using minus
  · cases integer with
    | zero => simpa using primitive_of_digit (by decide)
    | positive leading digits =>
        refine List.forall_mem_cons.mpr ⟨primitive_of_digit ⟨?_, leading.2⟩, fun byte member =>
          primitive_of_digit (digits byte member)⟩
        exact UInt8.le_trans (by decide) leading.1
  · cases fraction with
    | none => simp
    | some nonempty digits =>
        exact List.forall_mem_cons.mpr ⟨point, fun byte member =>
          primitive_of_digit (digits byte member)⟩
  · cases exponent with
    | none => simp
    | some letter sign nonempty digits =>
        refine List.forall_mem_cons.mpr ⟨?_, List.forall_mem_append.mpr ⟨?_, fun byte member =>
          primitive_of_digit (digits byte member)⟩⟩
        · rcases letter with rfl | rfl <;> decide
        · rcases sign with rfl | rfl | rfl
          · simp
          · simpa using plus
          · simpa using minus

/-! ## Phrases -/

/-- From where the scan is before a phrase to where it is behind it, its nodes are counted. -/
theorem Derives.run {phrase : Phrase} (h : Derives bytes phrase) (ready : Ready n s)
    (room : n + phrase.nodes ≤ usizeMax) : Outside (n + phrase.nodes) (s.run bytes) := by
  induction h generalizing n s with
  | null => exact ready.run_primitive room (by simp) (by decide +kernel)
  | true => exact ready.run_primitive room (by simp) (by decide +kernel)
  | false => exact ready.run_primitive room (by simp) (by decide +kernel)
  | num number => exact ready.run_primitive room (nonempty_of_number number) (primitive_of_number number)
  | str characters =>
      have opened := ready.quotation room
      rw [Scan.run_cons, Scan.run_append, opened.run_characters characters]
      exact opened.quotation.toOutside
  | emptyArr space =>
      have opened := ready.toOutside.bracket (.inr rfl) room
      rw [Scan.run_cons, Scan.run_append]
      exact ((opened.run_space space).toOutside.separator (by simp)).toOutside
  | emptyObj space =>
      have opened := ready.toOutside.bracket (.inl rfl) room
      rw [Scan.run_cons, Scan.run_append]
      exact ((opened.run_space space).toOutside.separator (by simp)).toOutside
  | @arr body trees items ih =>
      simp only [Phrase.nodes, Tree.nodes, ← Nat.add_assoc] at room ih ⊢
      have opened : Ready (n + 1) (s.step 91) := ready.toOutside.bracket (.inr rfl) (by omega)
      rw [Scan.run_cons, Scan.run_append]
      exact ((ih opened room).separator (by simp)).toOutside
  | @obj body members members_ ih =>
      simp only [Phrase.nodes, Tree.nodes, ← Nat.add_assoc] at room ih ⊢
      have opened : Ready (n + 1) (s.step 123) := ready.toOutside.bracket (.inl rfl) (by omega)
      rw [Scan.run_cons, Scan.run_append]
      exact ((ih opened room).separator (by simp)).toOutside
  | item before value after ih =>
      rw [Scan.run_append, Scan.run_append]
      exact (ih (ready.run_space before) room).run_space after
  | @items first rest tree trees head tail ihHead ihTail =>
      simp only [Phrase.nodes, itemNodes, Nat.add_zero, ← Nat.add_assoc] at room ihHead ihTail ⊢
      rw [Scan.run_append, Scan.run_cons]
      have front := ihHead ready (by omega)
      exact ihTail (front.separator (by simp)) room
  | @member before key after body tree space characters space' value ih =>
      simp only [Phrase.nodes, itemNodes, memberNodes, Nat.add_zero, ← Nat.add_assoc] at room ih ⊢
      have opened := (ready.run_space space).quotation (by omega)
      rw [Scan.run_append, Scan.run_cons, Scan.run_append, opened.run_characters characters,
        Scan.run_cons, Scan.run_append, Scan.run_cons]
      exact ih ((opened.quotation.run_space space').toOutside.separator (by simp)) room
  | @members first rest member members head tail ihHead ihTail =>
      obtain ⟨key, tree⟩ := member
      simp only [Phrase.nodes, memberNodes, Nat.add_zero, ← Nat.add_assoc] at room ihHead ihTail ⊢
      rw [Scan.run_append, Scan.run_cons]
      have front := ihHead ready (by omega)
      exact ihTail (front.separator (by simp)) room

end

/-! ## The scan is exact -/

/-- The count at the end of a text is its number of values and members.  A text is accepted
if that and its length are within the limits, and no value built of it or of a part of it
has more nodes. -/
theorem validateJsonComplexity_exact {bytes : Slice} {tree : Tree}
    (text : Document bytes.val tree) :
    (Scan.run {} bytes.val).nodes = tree.nodes ∧
      (validateJsonComplexity bytes = .ok () ↔
        bytes.val.length ≤ maxHookInputBytes ∧ tree.nodes ≤ maxDynamicJsonNodes) ∧
      (validateJsonComplexity bytes = .ok () → ∀ part, Part part tree →
        ∀ (reader : Reader) (value : Json), part.build reader = some value →
          valueNodes value ≤ maxDynamicJsonNodes) := by
  have room : 0 + (Phrase.items [tree]).nodes ≤ usizeMax := by
    have bound := text.nodes_le
    have length := bytes.property
    simp only [usizeMax]
    omega
  have count : (Scan.run {} bytes.val).nodes = tree.nodes := by
    have scanned := (Derives.run text (s := {}) ⟨⟨rfl, rfl, rfl⟩, rfl⟩ room).nodes
    simpa [Phrase.nodes, itemNodes] using scanned
  have accepts : validateJsonComplexity bytes = .ok () ↔
      bytes.val.length ≤ maxHookInputBytes ∧ tree.nodes ≤ maxDynamicJsonNodes := by
    unfold validateJsonComplexity
    split
    next long =>
      simp only [reduceCtorEq, false_iff]
      omega
    next short =>
      rw [scanFrom_eq_ok (Nat.zero_le _), count]
      exact ⟨fun nodes => ⟨Nat.not_lt.mp short, nodes⟩, And.right⟩
  refine ⟨count, accepts, fun accepted part inside reader value built => ?_⟩
  calc valueNodes value ≤ part.nodes := Tree.valueNodes_le built
    _ ≤ tree.nodes := inside.nodes_le
    _ ≤ maxDynamicJsonNodes := (accepts.mp accepted).2

/-- `{"a": [1,"\""]}`. -/
def listText : Slice :=
  ⟨[123, 34, 97, 34, 58, 32, 91, 49, 44, 34, 92, 34, 34, 93, 125], by decide⟩

def listTree : Tree := .obj [([97], .arr [.num [49], .str [92, 34]])]

theorem document_listText : Document listText.val listTree := by
  have space : Space [] := List.forall_mem_nil _
  have one : Number [49] := @Number.mk [] [49] [] [] (.inl rfl)
    (.positive (by decide) (List.forall_mem_nil _)) .none .none
  have number : Derives [49] (.items [.num [49]]) := @Derives.item [] [49] [] _ space (.num one) space
  have quotation : Derives [34, 92, 34, 34] (.items [.str [92, 34]]) :=
    @Derives.item [] [34, 92, 34, 34] [] _ space
      (@Derives.str [92, 34] (.escaped (by decide) .nil)) space
  have list : Derives [91, 49, 44, 34, 92, 34, 34, 93] (.value (.arr [.num [49], .str [92, 34]])) :=
    @Derives.arr [49, 44, 34, 92, 34, 34] _ (.items number quotation)
  have member : Derives [34, 97, 34, 58, 32, 91, 49, 44, 34, 92, 34, 34, 93]
      (.members [([97], .arr [.num [49], .str [92, 34]])]) :=
    @Derives.member [] [97] [] [32, 91, 49, 44, 34, 92, 34, 34, 93] _ space
      (@Characters.unescaped 'a' [] (by decide) (by decide) .nil) space
      (@Derives.item [32] [91, 49, 44, 34, 92, 34, 34, 93] [] _
        (List.forall_mem_singleton.mpr (.inl rfl)) list space)
  exact @Derives.item [] listText.val [] _ space
    (@Derives.obj [34, 97, 34, 58, 32, 91, 49, 44, 34, 92, 34, 34, 93] _ member) space

/-- An object, a member, an array, a number and a string. -/
theorem validateJsonComplexity_exact_listText :
    (Scan.run {} listText.val).nodes = 5 ∧ validateJsonComplexity listText = .ok () :=
  ⟨(validateJsonComplexity_exact document_listText).1,
    (validateJsonComplexity_exact document_listText).2.1.mpr (by decide)⟩

end AgentOtelBridge.JsonComplexity
