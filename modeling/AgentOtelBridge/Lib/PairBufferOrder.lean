import AgentOtelBridge.Lib.PairBuffer

/-!
# The order in which entries leave a pairing buffer

Of the entries that leave without a partner, those that have expired leave in the
iteration order of the table, and the one that is evicted is the oldest of those
that remain.  So they leave oldest first exactly if the iteration order meets the
expired ones so (`oldestFirst_iff`), and whatever the order exactly if they all have
one opening time (`forall_oldestFirst_iff`).
-/

namespace PairBuffer

open FiniteMap

variable {κ α β : Type*} [DecidableEq κ]

/-! ## The entries that leave -/

/-- The entries that have expired, in the order of the iteration. -/
def expired (ord : IterOrder κ) (ttl now : ℕ) (t : Table κ α) : List (Sigma fun _ : κ => Entry α) :=
  (ord.iter t).filter fun e => e.2.stale ttl now

/-- The entry whose key an item opens again. -/
def displaced (R : Rules κ α β) (ttl now : ℕ) (t : Table κ α) (x : α) : Option (Entry α) :=
  match R.action x with
  | .open k => (fresh ttl now t).lookup k
  | _ => none

/-- The entries that remain when an item needs room. -/
def remaining (R : Rules κ α β) (ttl now : ℕ) (t : Table κ α) (x : α) : Table κ α :=
  match R.action x with
  | .open k => (displace R k (fresh ttl now t)).2
  | _ => fresh ttl now t

/-- The entry that gives room to an item. -/
def evicted (R : Rules κ α β) (cfg : Config) (ord : IterOrder κ) (t : Table κ α) (x : α) (now : ℕ) :
    Option (Sigma fun _ : κ => Entry α) :=
  match R.action x with
  | .open _ =>
      if (remaining R cfg.ttl now t x).entries.length < cfg.capacity then none
      else (ord.iter (remaining R cfg.ttl now t x)).argmin fun e => e.2.opened
  | _ => none

/-- What an item is answered with. -/
def answer (R : Rules κ α β) (ttl now : ℕ) (t : Table κ α) (x : α) : List β :=
  match R.action x with
  | .immediate => [R.single .immediate x]
  | .open _ => []
  | .close k =>
      match (fresh ttl now t).lookup k with
      | some e => [R.join e.item x]
      | none => [R.single .unmatched x]
  | .stop k =>
      match (fresh ttl now t).lookup k with
      | some e => [R.join e.item x]
      | none => R.orphan x

variable {R : Rules κ α β} {cfg : Config} {ord : IterOrder κ} {t : Table κ α} {x : α} {now : ℕ}

/-- What a step sends out: the entries that leave, and then the answer. -/
theorem observe_sent (R : Rules κ α β) (cfg : Config) (ord : IterOrder κ) (t : Table κ α) (x : α)
    (now : ℕ) :
    (observe R cfg ord t x now).1 =
      (expired ord cfg.ttl now t).map (fun e => R.single .expired e.2.item) ++
        (displaced R cfg.ttl now t x).toList.map (fun e => R.single .displaced e.item) ++
        (evicted R cfg ord t x now).toList.map (fun e => R.single .evicted e.2.item) ++
        answer R cfg.ttl now t x := by
  unfold observe flush act displaced evicted remaining answer
  simp only [List.append_assoc]
  refine congrArg (_ ++ ·) ?_
  cases R.action x with
  | immediate => rfl
  | «open» k =>
      simp only [List.append_nil]
      refine congrArg₂ (· ++ ·) ?_ ?_
      · unfold displace
        cases (fresh cfg.ttl now t).lookup k <;> rfl
      · unfold evict
        split
        · rfl
        · cases (ord.iter (displace R k (fresh cfg.ttl now t)).2).argmin fun e => e.2.opened <;> rfl
  | close k =>
      simp only
      cases (fresh cfg.ttl now t).lookup k <;> rfl
  | stop k =>
      simp only
      cases (fresh cfg.ttl now t).lookup k <;> rfl

/-! ## Oldest first -/

/-- One entry was opened no later than another. -/
def OpenedBefore (e e' : Sigma fun _ : κ => Entry α) : Prop := e.2.opened ≤ e'.2.opened

/-- The entries that leave without a partner do so oldest first, and none that remains is
older than the one that is evicted. -/
structure OldestFirst (R : Rules κ α β) (cfg : Config) (ord : IterOrder κ) (t : Table κ α) (x : α)
    (now : ℕ) : Prop where
  ordered : (expired ord cfg.ttl now t ++ (evicted R cfg ord t x now).toList).Pairwise OpenedBefore
  oldest : ∀ e, evicted R cfg ord t x now = some e →
    ∀ other ∈ (remaining R cfg.ttl now t x).entries, OpenedBefore e other

theorem mem_expired {e : Sigma fun _ : κ => Entry α} {ttl : ℕ} :
    e ∈ expired ord ttl now t ↔ e ∈ t.entries ∧ e.2.stale ttl now = true := by
  rw [expired, List.mem_filter, (ord.iter_perm t).mem_iff]

theorem remaining_subset {e : Sigma fun _ : κ => Entry α} {ttl : ℕ}
    (member : e ∈ (remaining R ttl now t x).entries) : e ∈ (fresh ttl now t).entries := by
  unfold remaining at member
  split at member
  next k _ =>
    obtain ⟨gone, leaves, -⟩ := displace_leaves R k (fresh ttl now t)
    exact leaves.mem member
  · exact member

/-- The evicted entry is the oldest of those that remain. -/
theorem evicted_oldest {e : Sigma fun _ : κ => Entry α} (found : evicted R cfg ord t x now = some e) :
    e ∈ (remaining R cfg.ttl now t x).entries ∧
      ∀ other ∈ (remaining R cfg.ttl now t x).entries, OpenedBefore e other := by
  have iterated := ord.iter_perm (remaining R cfg.ttl now t x)
  unfold evicted at found
  split at found
  · split at found
    · cases found
    · exact ⟨iterated.mem_iff.mp (List.argmin_mem found), fun other member =>
        List.le_of_mem_argmin (f := fun e : Sigma fun _ : κ => Entry α => e.2.opened)
          (iterated.mem_iff.mpr member) found⟩
  · cases found

omit [DecidableEq κ] in
/-- An entry that has expired is older than one that has not. -/
theorem openedBefore_of_stale {e e' : Sigma fun _ : κ => Entry α} {ttl : ℕ}
    (stale : e.2.stale ttl now = true) (young : e'.2.stale ttl now = false) : OpenedBefore e e' := by
  simp only [Entry.stale, decide_eq_true_eq, decide_eq_false_iff_not] at stale young
  unfold OpenedBefore
  omega

/-- They leave oldest first exactly if the iteration meets the expired ones so. -/
theorem oldestFirst_iff :
    OldestFirst R cfg ord t x now ↔ (expired ord cfg.ttl now t).Pairwise OpenedBefore := by
  constructor
  · exact fun first => (List.pairwise_append.mp first.ordered).1
  · intro ordered
    refine ⟨List.pairwise_append.mpr ⟨ordered, ?_, ?_⟩, fun e found => (evicted_oldest found).2⟩
    · cases evicted R cfg ord t x now with
      | none => exact .nil
      | some e => exact List.pairwise_singleton _ e
    · intro e expired_ e' leaves
      have found := Option.mem_toList.mp leaves
      exact openedBefore_of_stale (mem_expired.mp expired_).2
        (fresh_not_stale (remaining_subset (evicted_oldest found).1))

/-! ## Whatever the order -/

/-- The expired entries were opened at one time. -/
def SameOpening (ttl now : ℕ) (t : Table κ α) : Prop :=
  ∀ e ∈ t.entries, ∀ e' ∈ t.entries, e.2.stale ttl now = true → e'.2.stale ttl now = true →
    e.2.opened = e'.2.opened

theorem expired_reverse (ord : IterOrder κ) (ttl now : ℕ) (t : Table κ α) :
    expired ord.reverse ttl now t = (expired ord ttl now t).reverse := by
  rw [expired, expired, IterOrder.iter_reverse, List.filter_reverse]

/-- Whatever the iteration order is, the entries leave oldest first, exactly if all that
have expired were opened at one time. -/
theorem forall_oldestFirst_iff : (∀ ord, OldestFirst R cfg ord t x now) ↔ SameOpening cfg.ttl now t := by
  simp only [oldestFirst_iff]
  constructor
  · intro ordered e member e' member' stale stale'
    -- In an order and in its reverse, each of two entries is before the other.
    have forward := ordered .id
    have backward := ordered (IterOrder.id.reverse)
    rw [expired_reverse, List.pairwise_reverse] at backward
    have all := forward.forall_of_forall_of_flip (fun e _ => le_refl e.2.opened) backward
    have there : e ∈ expired .id cfg.ttl now t := mem_expired.mpr ⟨member, stale⟩
    have there' : e' ∈ expired .id cfg.ttl now t := mem_expired.mpr ⟨member', stale'⟩
    exact le_antisymm (all there there') (all there' there)
  · intro same ord
    refine List.pairwise_of_forall_mem_list fun e member e' member' => ?_
    obtain ⟨there, stale⟩ := mem_expired.mp member
    obtain ⟨there', stale'⟩ := mem_expired.mp member'
    exact (same e there e' there' stale stale').le

end PairBuffer
