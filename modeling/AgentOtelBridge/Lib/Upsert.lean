import Mathlib.Data.List.Nodup

/-!
# Lists with replacement

An entry takes the place of the first one of its key, and comes last if there is none.  The
other entries of its key stay, and so do those of the other keys.

`occurrences` are the entries of a key.  What a run of replacements does to a key is told by
its own occurrences alone (`occurrences_upsertAll`): the last new entry takes the first place.
-/

namespace Upsert

variable {α κ : Type*} [DecidableEq κ] (key : α → κ)

def upsert (entry : α) : List α → List α
  | [] => [entry]
  | other :: others =>
      if key other = key entry then entry :: others else other :: upsert entry others

/-- The entries replace one after the other. -/
def upsertAll (entries list : List α) : List α :=
  entries.foldl (fun list entry => upsert key entry list) list

/-- The entries of a key, in their order. -/
def occurrences (k : κ) (list : List α) : List α := list.filter fun entry => key entry = k

variable {key} {k : κ}

theorem occurrences_cons (entry : α) (list : List α) :
    occurrences key k (entry :: list) =
      if key entry = k then entry :: occurrences key k list else occurrences key k list := by
  unfold occurrences
  rw [List.filter_cons]
  simp

theorem occurrences_append (list list' : List α) :
    occurrences key k (list ++ list') = occurrences key k list ++ occurrences key k list' :=
  List.filter_append list list'

theorem mem_occurrences {entry : α} {list : List α} :
    entry ∈ occurrences key k list ↔ entry ∈ list ∧ key entry = k := by
  rw [occurrences, List.mem_filter, decide_eq_true_iff]

theorem occurrences_upsert_of_ne {entry : α} (other : key entry ≠ k) (list : List α) :
    occurrences key k (upsert key entry list) = occurrences key k list := by
  induction list with
  | nil => exact (occurrences_cons entry []).trans (if_neg other)
  | cons first list ih =>
      rw [upsert]
      split
      next same =>
        rw [occurrences_cons, occurrences_cons, if_neg other, if_neg (same ▸ other)]
      next => rw [occurrences_cons, occurrences_cons, ih]

theorem occurrences_upsert_self (entry : α) (list : List α) :
    occurrences key (key entry) (upsert key entry list) =
      entry :: (occurrences key (key entry) list).tail := by
  induction list with
  | nil => exact (occurrences_cons entry []).trans (if_pos rfl)
  | cons first list ih =>
      rw [upsert]
      split
      next same =>
        rw [occurrences_cons, occurrences_cons, if_pos rfl, if_pos same, List.tail_cons]
      next differs =>
        rw [occurrences_cons, occurrences_cons, if_neg differs, if_neg differs, ih]

/-- The last of the new entries of a key takes the place of its first one. -/
theorem occurrences_upsertAll (entries list : List α) :
    occurrences key k (upsertAll key entries list) =
      (occurrences key k entries).getLast?.elim (occurrences key k list)
        fun last => last :: (occurrences key k list).tail := by
  induction entries generalizing list with
  | nil => rfl
  | cons entry entries ih =>
      rw [upsertAll, List.foldl_cons]
      change occurrences key k (upsertAll key entries (upsert key entry list)) = _
      rw [ih, occurrences_cons]
      by_cases same : key entry = k
      · subst same
        rw [if_pos rfl, occurrences_upsert_self, List.getLast?_cons]
        cases (occurrences key (key entry) entries).getLast? with
        | none => rfl
        | some last => rfl
      · rw [if_neg same, occurrences_upsert_of_ne same]

/-- The keys are those there were, and the new ones of the entries. -/
theorem map_upsert (entry : α) (list : List α) :
    (upsert key entry list).map key =
      if key entry ∈ list.map key then list.map key else list.map key ++ [key entry] := by
  induction list with
  | nil => rfl
  | cons first list ih =>
      rw [upsert]
      split
      next same => simp [same]
      next differs =>
        rw [List.map_cons, ih]
        simp only [List.map_cons, List.mem_cons, Ne.symm differs, false_or]
        split <;> rfl

theorem upsert_of_new (entry : α) {list : List α} (new : key entry ∉ list.map key) :
    upsert key entry list = list ++ [entry] := by
  induction list with
  | nil => rfl
  | cons first list ih =>
      rw [List.map_cons, List.mem_cons, not_or] at new
      rw [upsert, if_neg (Ne.symm new.1), ih new.2, List.cons_append]

theorem nodup_upsertAll (entries : List α) {list : List α} (distinct : (list.map key).Nodup) :
    ((upsertAll key entries list).map key).Nodup := by
  induction entries generalizing list with
  | nil => exact distinct
  | cons entry entries ih =>
      refine ih ?_
      rw [map_upsert]
      split
      next => exact distinct
      next absent =>
        exact List.nodup_append.mpr ⟨distinct, List.nodup_singleton _, fun k there other last => by
          rw [List.mem_singleton.mp last]
          exact fun same => absent (same ▸ there)⟩

/-- What is upserted was there or is an entry. -/
theorem mem_upsertAll {entries list : List α} {entry : α}
    (member : entry ∈ upsertAll key entries list) : entry ∈ entries ∨ entry ∈ list := by
  have found : entry ∈ occurrences key (key entry) (upsertAll key entries list) :=
    mem_occurrences.mpr ⟨member, rfl⟩
  rw [occurrences_upsertAll] at found
  cases isLast : (occurrences key (key entry) entries).getLast? with
  | some last =>
      rw [isLast] at found
      rcases List.mem_cons.mp found with rfl | found
      · exact Or.inl (mem_occurrences.mp (List.mem_of_getLast? isLast)).1
      · exact Or.inr (mem_occurrences.mp (List.mem_of_mem_tail found)).1
  | none =>
      rw [isLast] at found
      exact Or.inr (mem_occurrences.mp found).1

end Upsert
