import AgentOtelBridge.Lib.JsonObject
import Mathlib.Data.Nat.Pairing

/-!
# Numbers for JSON values

`code` gives each value its own number, so that an injective printer of values exists.
-/

namespace Json

def codeText : List Char → Nat
  | [] => 0
  | c :: cs => Nat.pair c.toNat (codeText cs) + 1

mutual

/-- A number for each value. -/
def code : Json → Nat
  | .null => Nat.pair 0 0
  | .bool value => Nat.pair 1 value.toNat
  | .num text => Nat.pair 2 (codeText text.toList)
  | .str value => Nat.pair 3 (codeText value.toList)
  | .arr items => Nat.pair 4 (codeItems items)
  | .obj fields => Nat.pair 5 (codeFields fields)

def codeItems : List Json → Nat
  | [] => 0
  | item :: items => Nat.pair (code item) (codeItems items) + 1

def codeFields : Fields → Nat
  | [] => 0
  | (key, value) :: fields =>
      Nat.pair (codeText key.toList) (Nat.pair (code value) (codeFields fields)) + 1

end

theorem codeText_injective : ∀ cs ds, codeText cs = codeText ds → cs = ds
  | [], [], _ => rfl
  | c :: cs, d :: ds, same => by
      obtain ⟨head, tail⟩ := Nat.pair_eq_pair.mp (Nat.succ.inj same)
      rw [Char.toNat_inj.mp head, codeText_injective cs ds tail]

mutual

theorem code_injective : ∀ a b, code a = code b → a = b
  | .null, .null, _ => rfl
  | .bool a, .bool b, same => by
      have value := (Nat.pair_eq_pair.mp same).2
      cases a <;> cases b <;> simp_all
  | .num a, .num b, same => by
      rw [String.toList_inj.mp (codeText_injective _ _ (Nat.pair_eq_pair.mp same).2)]
  | .str a, .str b, same => by
      rw [String.toList_inj.mp (codeText_injective _ _ (Nat.pair_eq_pair.mp same).2)]
  | .arr a, .arr b, same => by
      rw [codeItems_injective a b (Nat.pair_eq_pair.mp same).2]
  | .obj a, .obj b, same => by
      rw [codeFields_injective a b (Nat.pair_eq_pair.mp same).2]
  | .null, .bool _, same | .null, .num _, same | .null, .str _, same | .null, .arr _, same
  | .null, .obj _, same | .bool _, .null, same | .bool _, .num _, same | .bool _, .str _, same
  | .bool _, .arr _, same | .bool _, .obj _, same | .num _, .null, same | .num _, .bool _, same
  | .num _, .str _, same | .num _, .arr _, same | .num _, .obj _, same | .str _, .null, same
  | .str _, .bool _, same | .str _, .num _, same | .str _, .arr _, same | .str _, .obj _, same
  | .arr _, .null, same | .arr _, .bool _, same | .arr _, .num _, same | .arr _, .str _, same
  | .arr _, .obj _, same | .obj _, .null, same | .obj _, .bool _, same | .obj _, .num _, same
  | .obj _, .str _, same | .obj _, .arr _, same => by
      have tag := (Nat.pair_eq_pair.mp same).1
      contradiction

theorem codeItems_injective : ∀ as bs, codeItems as = codeItems bs → as = bs
  | [], [], _ => rfl
  | a :: as, b :: bs, same => by
      obtain ⟨head, tail⟩ := Nat.pair_eq_pair.mp (Nat.succ.inj same)
      rw [code_injective a b head, codeItems_injective as bs tail]

theorem codeFields_injective : ∀ as bs, codeFields as = codeFields bs → as = bs
  | [], [], _ => rfl
  | (k, a) :: as, (l, b) :: bs, same => by
      obtain ⟨key, rest⟩ := Nat.pair_eq_pair.mp (Nat.succ.inj same)
      obtain ⟨head, tail⟩ := Nat.pair_eq_pair.mp rest
      rw [String.toList_inj.mp (codeText_injective _ _ key), code_injective a b head,
        codeFields_injective as bs tail]

end

end Json
