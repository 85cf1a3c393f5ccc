import Mathlib.Data.List.Perm.Subperm

/-!
# Matched lists

Two lists are matched by a relation when they are as long as each other and related place by place.
A matching is kept when one place of both lists, or of one list, is replaced.  A list that is a part
of what some elements of another list give is matched with a part of that list.
-/

namespace Matching

open List

variable {α β γ : Type*} {R : α → β → Prop}

/-- A matching of lists that are split at the same place. -/
theorem forall₂_middle {x : α} {y : β} {before after : List α} {before' after' : List β}
    (aligned : before'.length = before.length) :
    Forall₂ R (before ++ x :: after) (before' ++ y :: after') ↔
      Forall₂ R before before' ∧ R x y ∧ Forall₂ R after after' := by
  induction before generalizing before' with
  | nil =>
      obtain rfl := eq_nil_of_length_eq_zero aligned
      simp
  | cons first before ih =>
      cases before' with
      | nil => cases aligned
      | cons first' before' =>
          have rest := @ih before' (by simpa using aligned)
          simp only [cons_append, forall₂_cons, rest, and_assoc]

/-- One element of the second list is replaced. -/
theorem forall₂_replace {y y' : β} (keeps : ∀ x, R x y → R x y') {l : List α}
    {before after : List β} (matched : Forall₂ R l (before ++ y :: after)) :
    Forall₂ R l (before ++ y' :: after) := by
  induction before generalizing l with
  | nil =>
      cases matched with
      | cons here rest => exact .cons (keeps _ here) rest
  | cons first before ih =>
      cases matched with
      | cons here rest => exact .cons here (ih rest)

/-- Each element of the first list has one of the second. -/
theorem exists_of_mem {l : List α} {l' : List β} (matched : Forall₂ R l l') {x : α} (mem : x ∈ l) :
    ∃ y ∈ l', R x y := by
  induction matched with
  | nil => cases mem
  | @cons _ y _ _ here _ ih =>
      cases mem with
      | head => exact ⟨y, .head _, here⟩
      | tail _ later =>
          obtain ⟨y', mem', related⟩ := ih later
          exact ⟨y', .tail _ mem', related⟩

/-- What a part of the list gives is matched with that part. -/
theorem exists_matched {f : β → Option α} {l : List α} {elements : List β}
    (part : l <+~ elements.filterMap f) :
    ∃ chosen, chosen <+~ elements ∧ Forall₂ (fun x y => f y = some x) l chosen := by
  obtain ⟨l', perm, sublist⟩ := part
  obtain ⟨givers, inside, rfl⟩ := sublist_filterMap_iff.mp sublist
  have matched : Forall₂ (fun x y => f y = some x) (givers.filterMap f)
      (givers.filter fun y => (f y).isSome) := by
    clear perm sublist inside
    induction givers with
    | nil => exact .nil
    | cons y givers ih =>
        cases gives : f y with
        | none => simpa [gives] using ih
        | some x => simpa [gives] using ih
  obtain ⟨chosen, matched', perm'⟩ := perm_comp_forall₂ perm.symm matched
  exact ⟨chosen, perm'.subperm.trans (filter_sublist.trans inside).subperm, matched'⟩

/-- An element that gave nothing is replaced by one that gives something. -/
theorem filterMap_replace {f : β → Option γ} {y y' : β} (before after : List β) {z : γ}
    (nothing : f y = none) (gives : f y' = some z) :
    (before ++ y' :: after).filterMap f ~ (before ++ y :: after).filterMap f ++ [z] := by
  simp only [filterMap_append, filterMap_cons, nothing, gives, append_assoc]
  exact (@perm_append_comm _ [z] _).append_left _

end Matching
