import Mathlib.Data.List.AList

/-!
# Finite maps passed over in any order

A hash map is a finite map whose iteration order is not determined.  `IterOrder`
is such an order, and `IterOrder.iter` the entries of a map as a pass meets them:
each one once, in an order the proofs know nothing else about.
-/

namespace FiniteMap

variable {κ β : Type*}

/-- A finite map from keys to values of one type. -/
abbrev Map (κ β : Type*) := AList fun _ : κ => β

/-- An entry of a finite map. -/
abbrev Pair (κ β : Type*) := Sigma fun _ : κ => β

/-- The order in which a pass over a map meets its keys. -/
structure IterOrder (κ : Type*) where
  order : List κ → List κ
  perm : ∀ ks, (order ks).Perm ks

/-- The order of insertion, newest first. -/
def IterOrder.id : IterOrder κ := ⟨fun ks => ks, fun _ => .refl _⟩

def IterOrder.reverse (ord : IterOrder κ) : IterOrder κ :=
  ⟨fun ks => (ord.order ks).reverse, fun ks => (List.reverse_perm _).trans (ord.perm ks)⟩

variable [DecidableEq κ]

/-- The entries of a map in iteration order. -/
def IterOrder.iter (ord : IterOrder κ) (t : Map κ β) : List (Pair κ β) :=
  (ord.order t.keys).filterMap fun k => (t.lookup k).map (Sigma.mk k)

theorem mem_entries_iff {t : Map κ β} {k : κ} {e : β} :
    (⟨k, e⟩ : Pair κ β) ∈ t.entries ↔ t.lookup k = some e := by
  rw [← AList.mem_lookup_iff]
  exact Iff.rfl

theorem IterOrder.iter_reverse (ord : IterOrder κ) (t : Map κ β) :
    ord.reverse.iter t = (ord.iter t).reverse := List.filterMap_reverse ..

/-- Iteration meets every entry once. -/
theorem IterOrder.iter_perm (ord : IterOrder κ) (t : Map κ β) : (ord.iter t).Perm t.entries := by
  have hkeys : t.keys.filterMap (fun k => (t.lookup k).map (Sigma.mk k)) = t.entries := by
    rw [AList.keys, List.keys, List.filterMap_map]
    calc
      _ = t.entries.filterMap some :=
        List.filterMap_congr fun e he => by
          have hl : t.lookup e.1 = some e.2 := mem_entries_iff.mp he
          simp [hl]
      _ = t.entries := List.filterMap_some
  exact ((ord.perm t.keys).filterMap _).trans (.of_eq hkeys)

theorem kerase_eq_filter (k : κ) : ∀ l : List (Pair κ β), l.NodupKeys →
    List.kerase k l = l.filter fun e => e.1 ≠ k
  | [], _ => rfl
  | e :: l, h => by
      obtain ⟨hfst, htail⟩ := List.nodupKeys_cons.mp h
      by_cases hk : k = e.1
      · rw [List.kerase_cons_eq hk, List.filter_cons_of_neg (by simp [hk])]
        refine (List.filter_eq_self.mpr fun e' he' => ?_).symm
        have : e'.1 ≠ k := fun h' => hfst (by rw [← hk, ← h']; exact List.mem_keys_of_mem he')
        simpa using this
      · rw [List.kerase_cons_ne hk, List.filter_cons_of_pos (by simpa using Ne.symm hk),
          kerase_eq_filter k l htail]

theorem erase_entries (t : Map κ β) (k : κ) :
    (t.erase k).entries = t.entries.filter fun e => e.1 ≠ k :=
  kerase_eq_filter k t.entries t.nodupKeys

/-- Erasing keys one by one leaves the entries of the other keys. -/
theorem foldl_erase_entries (ks : List κ) (t : Map κ β) :
    (ks.foldl (fun t k => t.erase k) t).entries = t.entries.filter fun e => e.1 ∉ ks := by
  induction ks generalizing t with
  | nil => simp
  | cons k ks ih =>
      rw [List.foldl_cons, ih, erase_entries, List.filter_filter]
      exact List.filter_congr fun e _ => by simp [Bool.and_comm]

/-- A table splits into an entry and what erasing its key leaves. -/
theorem erase_perm {t : Map κ β} {k : κ} {e : β} (h : t.lookup k = some e) :
    t.entries.Perm (⟨k, e⟩ :: (t.erase k).entries) := by
  have hk : k ∈ t.entries.keys := AList.lookup_isSome.mp (by rw [h]; rfl)
  obtain ⟨e', l₁, l₂, _, hl, hr⟩ := List.exists_of_kerase hk
  have he : e' = e := by
    have hm : t.lookup k = some e' := mem_entries_iff.mp (by rw [hl]; simp)
    rw [h] at hm
    exact (Option.some.inj hm).symm
  subst he
  show t.entries.Perm (⟨k, e'⟩ :: List.kerase k t.entries)
  rw [hr, hl]
  exact List.perm_middle

/-- Inserting an absent key adds one entry. -/
theorem insert_perm {t : Map κ β} {k : κ} (h : k ∉ t) (e : β) :
    (t.insert k e).entries = ⟨k, e⟩ :: t.entries := AList.entries_insert_of_notMem h

end FiniteMap
