import Mathlib.Algebra.GroupWithZero.Nat
import Mathlib.Algebra.Order.BigOperators.Group.Finset

/-!
# Limits that are given on

An account has a limit, and may give parts of it to accounts below it, each with a limit of
its own.  What it uses itself and what it has given stay within its limit.

A family of accounts is a root and accounts whose parents are in the family.  What the whole
family uses is within the limit of the root (`sum_used_le`), however deep it is: what is given
on is counted once, where it is given.

What is used is told by a list of entries, each under the key of an account.  The entries that
are under the accounts of a family are counted there (`sum_map_le_sum_entries`).
-/

namespace Allotment

variable {α κ : Type*} [DecidableEq α] [DecidableEq κ]
variable {accounts family : Finset α} {root : α} {key : α → κ} {up : α → Option κ}
  {used limit : α → ℕ}

/-- The limits below the root are among those that the family has given. -/
theorem sum_limit_erase_le (inside : family ⊆ accounts) (distinct : Set.InjOn key family)
    (parents : ∀ c ∈ family, c ≠ root → ∃ b ∈ family, up c = some (key b)) :
    ∑ c ∈ family.erase root, limit c ≤
      ∑ b ∈ family, ∑ c ∈ accounts with up c = some (key b), limit c := by
  have maps : ∀ c ∈ family.erase root, up c ∈ family.image fun b => some (key b) := by
    intro c member
    obtain ⟨other, here⟩ := Finset.mem_erase.mp member
    obtain ⟨b, there, parent⟩ := parents c here other
    exact Finset.mem_image.mpr ⟨b, there, parent.symm⟩
  have injective : Set.InjOn (fun b => some (key b)) family := fun b here b' there same =>
    distinct here there (Option.some.inj same)
  calc
    ∑ c ∈ family.erase root, limit c
        = ∑ y ∈ family.image fun b => some (key b),
            ∑ c ∈ family.erase root with up c = y, limit c :=
          (Finset.sum_fiberwise_of_maps_to maps limit).symm
    _ = ∑ b ∈ family, ∑ c ∈ family.erase root with up c = some (key b), limit c :=
          Finset.sum_image injective
    _ ≤ ∑ b ∈ family, ∑ c ∈ accounts with up c = some (key b), limit c := by
          refine Finset.sum_le_sum fun b _ => Finset.sum_le_sum_of_subset ?_
          exact Finset.filter_subset_filter _ ((Finset.erase_subset _ _).trans inside)

/-- **What a family uses is within the limit of its root.** -/
theorem sum_used_le (inside : family ⊆ accounts) (member : root ∈ family)
    (distinct : Set.InjOn key family)
    (parents : ∀ c ∈ family, c ≠ root → ∃ b ∈ family, up c = some (key b))
    (within : ∀ b ∈ family,
      used b + ∑ c ∈ accounts with up c = some (key b), limit c ≤ limit b) :
    ∑ b ∈ family, used b ≤ limit root := by
  have given : ∑ c ∈ family.erase root, limit c ≤
      ∑ b ∈ family, ∑ c ∈ accounts with up c = some (key b), limit c :=
    sum_limit_erase_le inside distinct parents
  have total := Finset.sum_le_sum within
  rw [Finset.sum_add_distrib, ← Finset.add_sum_erase family limit member] at total
  omega

omit [DecidableEq α] in
/-- Entries whose accounts are in the family are among the entries of its accounts. -/
theorem sum_map_le_sum_entries {β : Type*} {cost : β → ℕ} {under : β → κ} {entries : List β}
    (covered : ∀ x ∈ entries, ∃ b ∈ family, under x = key b) :
    (entries.map cost).sum ≤
      ∑ b ∈ family, ((entries.filter fun x => under x = key b).map cost).sum := by
  induction entries with
  | nil => exact Nat.zero_le _
  | cons x entries ih =>
      obtain ⟨first, rest⟩ := List.forall_mem_cons.mp covered
      obtain ⟨b, here, named⟩ := first
      have split : ∀ b, (((x :: entries).filter fun x => under x = key b).map cost).sum =
          (if under x = key b then cost x else 0) +
            ((entries.filter fun x => under x = key b).map cost).sum := by
        intro b
        rw [List.filter_cons]
        split <;> simp_all
      have counted : cost x ≤ ∑ b ∈ family, if under x = key b then cost x else 0 := by
        have one := Finset.single_le_sum (f := fun b => if under x = key b then cost x else 0)
          (fun _ _ => Nat.zero_le _) here
        simpa only [if_pos named] using one
      simp only [split, Finset.sum_add_distrib, List.map_cons, List.sum_cons]
      exact Nat.add_le_add counted (ih rest)

/-- Fewer entries cost less. -/
theorem sum_map_le_of_sublist {β : Type*} {cost : β → ℕ} {some_ entries : List β}
    (sub : some_.Sublist entries) : (some_.map cost).sum ≤ (entries.map cost).sum :=
  (sub.map cost).sum_le_sum fun _ _ => Nat.zero_le _

end Allotment
