import AgentOtelBridge.Lib.FiniteMap
import Mathlib.Data.List.MinMax

/-!
# A bounded buffer that pairs opening and closing items

Items arrive one at a time, each with the time of its arrival.  The rules of a
buffer say what an item does: it passes through, it opens a key, it closes a
key, or it stops one.  An opening item is stored under its key until a closing
item of the same key joins it.  Three things end the wait early: a second
opening of the key displaces it, a full buffer evicts the oldest, and the time
to live expires it.

The table is a finite map, and every pass over it takes the order in which it
meets the keys.  `observe` is the buffer as a function.  `Step` is what
the buffer is for, one constructor for each way an item can be taken in, with
the order left open; `observe_step` says the function is an instance of it, and
every invariant is derived from `Step`.
-/

namespace PairBuffer

open FiniteMap

variable {κ α β : Type*}

/-! ## Rules, entries and tables -/

/-- What an item does to the table. -/
inductive Action (κ : Type*) where
  | immediate
  | «open» (key : κ)
  | close (key : κ)
  | stop (key : κ)
deriving DecidableEq, Repr

/-- Why an item leaves the buffer alone. -/
inductive Cause where
  | immediate
  | displaced
  | evicted
  | expired
  | unmatched
deriving DecidableEq, Repr

/-- What is sent out for an item that leaves alone, for two joined items, and
for a stop that finds nothing to join. -/
structure Rules (κ α β : Type*) where
  action : α → Action κ
  single : Cause → α → β
  join : α → α → β
  orphan : α → List β

structure Entry (α : Type*) where
  item : α
  opened : ℕ
deriving DecidableEq, Repr

abbrev Table (κ α : Type*) := AList fun _ : κ => Entry α

/-- The bound on the table and the time to live of its entries. -/
structure Config where
  capacity : ℕ
  ttl : ℕ
deriving DecidableEq, Repr

/-- An entry is stale once it is as old as the time to live. -/
def Entry.stale (ttl now : ℕ) (e : Entry α) : Bool := decide (ttl ≤ now - e.opened)

/-! ### Entries that leave -/

/-- Entries that leave a table alone, each with its cause. -/
abbrev Gone (κ α : Type*) := List (Cause × Sigma fun _ : κ => Entry α)

/-- What is sent out for entries that leave alone. -/
def Rules.sendAll (R : Rules κ α β) (gone : Gone κ α) : List β :=
  gone.map fun g => R.single g.1 g.2.2.item

/-- `gone` left the table and `rest` is what stays of it. -/
def Leaves (t : Table κ α) (gone : Gone κ α) (rest : Table κ α) : Prop :=
  t.entries.Perm (gone.map Prod.snd ++ rest.entries)

theorem Leaves.length_le {t rest : Table κ α} {gone : Gone κ α} (h : Leaves t gone rest) :
    rest.entries.length ≤ t.entries.length := by
  have := h.length_eq
  simp only [List.length_append] at this
  omega

theorem Leaves.mem {t rest : Table κ α} {gone : Gone κ α} (h : Leaves t gone rest)
    {e : Sigma fun _ : κ => Entry α} (he : e ∈ rest.entries) : e ∈ t.entries :=
  h.mem_iff.mpr (List.mem_append_right _ he)

theorem Leaves.mem_gone {t rest : Table κ α} {gone : Gone κ α} (h : Leaves t gone rest)
    {g : Cause × Sigma fun _ : κ => Entry α} (hg : g ∈ gone) : g.2 ∈ t.entries :=
  h.mem_iff.mpr (List.mem_append_left _ (List.mem_map_of_mem hg))

/-! ### Entries that stay -/

/-- The table without its stale entries. -/
def fresh (ttl now : ℕ) (t : Table κ α) : Table κ α :=
  ⟨t.entries.filter fun e => !e.2.stale ttl now, t.nodupKeys.sublist List.filter_sublist⟩

@[simp] theorem fresh_entries (ttl now : ℕ) (t : Table κ α) :
    (fresh ttl now t).entries = t.entries.filter fun e => !e.2.stale ttl now := rfl

theorem fresh_not_stale {ttl now : ℕ} {t : Table κ α} {e : Sigma fun _ : κ => Entry α}
    (h : e ∈ (fresh ttl now t).entries) : e.2.stale ttl now = false := by
  simpa using (List.mem_filter.mp h).2

theorem fresh_subset {ttl now : ℕ} {t : Table κ α} {e : Sigma fun _ : κ => Entry α}
    (h : e ∈ (fresh ttl now t).entries) : e ∈ t.entries := (List.mem_filter.mp h).1

variable [DecidableEq κ]

/-! ## Taking an item in -/

/-- Sends out the stale entries. -/
def flush (R : Rules κ α β) (ord : IterOrder κ) (ttl now : ℕ) (t : Table κ α) :
    List β × Table κ α :=
  (((ord.iter t).filter fun e => e.2.stale ttl now).map fun e => R.single .expired e.2.item,
    fresh ttl now t)

/-- Sends out the entry stored under a key that opens again. -/
def displace (R : Rules κ α β) (k : κ) (t : Table κ α) : List β × Table κ α :=
  match t.lookup k with
  | some e => ([R.single .displaced e.item], t.erase k)
  | none => ([], t)

/-- Sends out the oldest entry of a full table. -/
def evict (R : Rules κ α β) (ord : IterOrder κ) (capacity : ℕ) (t : Table κ α) :
    List β × Table κ α :=
  if t.entries.length < capacity then ([], t)
  else
    match (ord.iter t).argmin fun e => e.2.opened with
    | some e => ([R.single .evicted e.2.item], t.erase e.1)
    | none => ([], t)

def act (R : Rules κ α β) (cfg : Config) (ord : IterOrder κ) (t : Table κ α) (x : α) (now : ℕ) :
    List β × Table κ α :=
  match R.action x with
  | .immediate => ([R.single .immediate x], t)
  | .open k =>
      let (displaced, t₁) := displace R k t
      let (evicted, t₂) := evict R ord cfg.capacity t₁
      (displaced ++ evicted, t₂.insert k ⟨x, now⟩)
  | .close k =>
      match t.lookup k with
      | some e => ([R.join e.item x], t.erase k)
      | none => ([R.single .unmatched x], t)
  | .stop k =>
      match t.lookup k with
      | some e => ([R.join e.item x], t.erase k)
      | none => (R.orphan x, t)

def observe (R : Rules κ α β) (cfg : Config) (ord : IterOrder κ) (t : Table κ α) (x : α)
    (now : ℕ) : List β × Table κ α :=
  let (expired, t₁) := flush R ord cfg.ttl now t
  let (out, t₂) := act R cfg ord t₁ x now
  (expired ++ out, t₂)

/-- An item, the time it arrives and the iteration order it meets. -/
structure Event (κ α : Type*) where
  item : α
  now : ℕ
  ord : IterOrder κ

/-- A run over a sequence of events, with everything it sends out. -/
def run (R : Rules κ α β) (cfg : Config) : Table κ α → List (Event κ α) → List β × Table κ α
  | t, [] => ([], t)
  | t, e :: es =>
      let (out, t₁) := observe R cfg e.ord t e.item e.now
      let (rest, t₂) := run R cfg t₁ es
      (out ++ rest, t₂)

/-! ## Small facts -/

@[simp] theorem run_nil (R : Rules κ α β) (cfg : Config) (t : Table κ α) :
    run R cfg t [] = ([], t) := rfl

theorem run_cons (R : Rules κ α β) (cfg : Config) (t : Table κ α) (e : Event κ α)
    (es : List (Event κ α)) :
    run R cfg t (e :: es) =
      ((observe R cfg e.ord t e.item e.now).1 ++
          (run R cfg (observe R cfg e.ord t e.item e.now).2 es).1,
        (run R cfg (observe R cfg e.ord t e.item e.now).2 es).2) := rfl

theorem run_append (R : Rules κ α β) (cfg : Config) :
    ∀ (es fs : List (Event κ α)) (t : Table κ α),
      run R cfg t (es ++ fs) =
        ((run R cfg t es).1 ++ (run R cfg (run R cfg t es).2 fs).1,
          (run R cfg (run R cfg t es).2 fs).2)
  | [], fs, t => by simp
  | e :: es, fs, t => by
      simp only [List.cons_append, run_cons, run_append R cfg es fs, List.append_assoc]

/-- A flush splits the table into its stale and its fresh entries. -/
theorem stale_fresh_perm (ord : IterOrder κ) (ttl now : ℕ) (t : Table κ α) :
    t.entries.Perm
      (((ord.iter t).filter fun e => e.2.stale ttl now) ++ (fresh ttl now t).entries) := by
  have hsplit := List.filter_append_perm (fun e => e.2.stale ttl now) t.entries
  refine hsplit.symm.trans (List.Perm.append ?_ ?_)
  · exact (ord.iter_perm t).symm.filter _
  · exact .of_eq (List.filter_congr fun e _ => by simp)

/-! ## What a step can do -/

/-- Leaving alone at time `now`: exactly the stale entries expire. -/
structure Flushed (ttl now : ℕ) (t : Table κ α) (gone : Gone κ α) (rest : Table κ α) : Prop where
  leaves : Leaves t gone rest
  expired : ∀ g ∈ gone, g.1 = .expired ∧ g.2.2.stale ttl now = true
  fresh : ∀ e ∈ rest.entries, e.2.stale ttl now = false

/-- The room made for a key that opens: the entry of the key is displaced, and a
full table evicts an entry that is nowhere younger than another. -/
structure Room (capacity : ℕ) (k : κ) (t : Table κ α) (gone : Gone κ α) (rest : Table κ α) :
    Prop where
  leaves : Leaves t gone rest
  absent : k ∉ rest
  causes : ∀ g ∈ gone, g.1 = .displaced ∧ g.2.1 = k ∨
    g.1 = .evicted ∧ capacity ≤ t.entries.length ∧ ∀ e ∈ rest.entries, g.2.2.opened ≤ e.2.opened
  bound : rest.entries.length < capacity ∨ rest.entries = []

/-- The ways an item is taken in. -/
inductive Step (R : Rules κ α β) (cfg : Config) (t : Table κ α) (x : α) (now : ℕ) :
    List β → Table κ α → Prop where
  | immediate {gone : Gone κ α} {rest : Table κ α} (hf : Flushed cfg.ttl now t gone rest)
      (ha : R.action x = .immediate) :
      Step R cfg t x now (R.sendAll gone ++ [R.single .immediate x]) rest
  | «open» {gone gone' : Gone κ α} {mid rest : Table κ α} {k : κ}
      (hf : Flushed cfg.ttl now t gone mid) (hr : Room cfg.capacity k mid gone' rest)
      (ha : R.action x = .open k) :
      Step R cfg t x now (R.sendAll gone ++ R.sendAll gone') (rest.insert k ⟨x, now⟩)
  | joined {gone : Gone κ α} {mid rest : Table κ α} {k : κ} {e : Entry α}
      (hf : Flushed cfg.ttl now t gone mid) (hl : mid.lookup k = some e)
      (hr : rest = mid.erase k) (ha : R.action x = .close k ∨ R.action x = .stop k) :
      Step R cfg t x now (R.sendAll gone ++ [R.join e.item x]) rest
  | unmatched {gone : Gone κ α} {rest : Table κ α} {k : κ}
      (hf : Flushed cfg.ttl now t gone rest) (hn : k ∉ rest) (ha : R.action x = .close k) :
      Step R cfg t x now (R.sendAll gone ++ [R.single .unmatched x]) rest
  | orphan {gone : Gone κ α} {rest : Table κ α} {k : κ}
      (hf : Flushed cfg.ttl now t gone rest) (hn : k ∉ rest) (ha : R.action x = .stop k) :
      Step R cfg t x now (R.sendAll gone ++ R.orphan x) rest

theorem flush_flushed (R : Rules κ α β) (ord : IterOrder κ) (ttl now : ℕ) (t : Table κ α) :
    ∃ gone, Flushed ttl now t gone (flush R ord ttl now t).2 ∧
      (flush R ord ttl now t).1 = R.sendAll gone := by
  refine ⟨((ord.iter t).filter fun e => e.2.stale ttl now).map (Prod.mk .expired), ⟨?_, ?_, ?_⟩, ?_⟩
  · show t.entries.Perm _
    rw [List.map_map]
    simpa [flush, Function.comp_def] using stale_fresh_perm ord ttl now t
  · intro g hg
    obtain ⟨e, he, rfl⟩ := List.mem_map.mp hg
    exact ⟨rfl, (List.mem_filter.mp he).2⟩
  · exact fun e he => fresh_not_stale he
  · simp [flush, Rules.sendAll, Function.comp_def]

theorem displace_leaves (R : Rules κ α β) (k : κ) (t : Table κ α) :
    ∃ gone, Leaves t gone (displace R k t).2 ∧ (displace R k t).1 = R.sendAll gone ∧
      k ∉ (displace R k t).2 ∧ (∀ g ∈ gone, g.1 = Cause.displaced ∧ g.2.1 = k) := by
  unfold displace
  cases hl : t.lookup k with
  | none => exact ⟨[], .refl _, rfl, AList.lookup_eq_none.mp hl, by simp⟩
  | some e =>
      exact ⟨[(.displaced, ⟨k, e⟩)], by simpa [Leaves] using erase_perm hl, rfl,
        fun h => (AList.mem_erase.mp h).1 rfl, by simp⟩

theorem evict_leaves (R : Rules κ α β) (ord : IterOrder κ) (capacity : ℕ) (t : Table κ α) :
    ∃ gone, Leaves t gone (evict R ord capacity t).2 ∧
      (evict R ord capacity t).1 = R.sendAll gone ∧
      (∀ g ∈ gone, g.1 = Cause.evicted ∧ capacity ≤ t.entries.length ∧
        ∀ e ∈ (evict R ord capacity t).2.entries, g.2.2.opened ≤ e.2.opened) ∧
      (t.entries.length ≤ capacity →
        (evict R ord capacity t).2.entries.length < capacity ∨
          (evict R ord capacity t).2.entries = []) ∧
      (∀ e ∈ (evict R ord capacity t).2.entries, e ∈ t.entries) := by
  unfold evict
  by_cases hlt : t.entries.length < capacity
  · rw [if_pos hlt]
    exact ⟨[], .refl _, rfl, by simp, fun _ => .inl hlt, fun _ h => h⟩
  · rw [if_neg hlt]
    cases hmin : (ord.iter t).argmin fun e => e.2.opened with
    | none =>
        have hnil : t.entries = [] := by
          have := List.argmin_eq_none.mp hmin
          exact List.perm_nil.mp (this ▸ (ord.iter_perm t).symm)
        exact ⟨[], .refl _, rfl, by simp, fun _ => .inr hnil, fun _ h => h⟩
    | some m =>
        have hmem : m ∈ t.entries := (ord.iter_perm t).mem_iff.mp (List.argmin_mem hmin)
        have hl : t.lookup m.1 = some m.2 := mem_entries_iff.mp hmem
        have hperm := erase_perm hl
        have hlen := hperm.length_eq
        have hsub : ∀ e ∈ (t.erase m.1).entries, e ∈ t.entries := fun e he =>
          hperm.mem_iff.mpr (List.mem_cons_of_mem _ he)
        refine ⟨[(.evicted, m)], by simpa [Leaves] using hperm, rfl, ?_, ?_, hsub⟩
        · intro g hg
          rw [List.mem_singleton] at hg
          subst hg
          refine ⟨rfl, Nat.le_of_not_lt hlt, fun e he => ?_⟩
          exact List.le_of_mem_argmin (f := fun e : Sigma fun _ : κ => Entry α => e.2.opened)
            ((ord.iter_perm t).mem_iff.mpr (hsub e he)) hmin
        · intro hle
          left
          rw [List.length_cons] at hlen
          show (t.erase m.1).entries.length < capacity
          omega

/-- The function is an instance of the relation, as long as the table is within
its bound. -/
theorem observe_step (R : Rules κ α β) (cfg : Config) (ord : IterOrder κ) (t : Table κ α) (x : α)
    (now : ℕ) (hbound : t.entries.length ≤ cfg.capacity) :
    Step R cfg t x now (observe R cfg ord t x now).1 (observe R cfg ord t x now).2 := by
  obtain ⟨gone, hf, hout⟩ := flush_flushed R ord cfg.ttl now t
  have hmid : (flush R ord cfg.ttl now t).2.entries.length ≤ cfg.capacity := by
    have := hf.leaves.length_eq
    simp only [List.length_append] at this
    omega
  simp only [observe, act, hout]
  generalize (flush R ord cfg.ttl now t).2 = mid at hf hmid
  cases ha : R.action x with
  | immediate => exact .immediate hf ha
  | «open» k =>
      obtain ⟨d, hd, hdout, hdabs, hdc⟩ := displace_leaves R k mid
      have hdlen : (displace R k mid).2.entries.length ≤ mid.entries.length := by
        have := hd.length_eq
        simp only [List.length_append] at this
        omega
      obtain ⟨v, hv, hvout, hvc, hvb, hvsub⟩ := evict_leaves R ord cfg.capacity (displace R k mid).2
      have hroom : Room cfg.capacity k mid (d ++ v) (evict R ord cfg.capacity (displace R k mid).2).2 := by
        refine ⟨?_, ?_, ?_, hvb (by omega)⟩
        · show mid.entries.Perm _
          rw [List.map_append, List.append_assoc]
          exact hd.trans (hv.append_left _)
        · intro hk
          obtain ⟨e, he⟩ := Option.isSome_iff_exists.mp (AList.lookup_isSome.mpr hk)
          exact hdabs (AList.lookup_isSome.mp (by
            rw [mem_entries_iff.mp (hvsub _ (mem_entries_iff.mpr he))]; rfl))
        · intro g hg
          rcases List.mem_append.mp hg with h | h
          · exact .inl (hdc g h)
          · obtain ⟨h1, h2, h3⟩ := hvc g h
            exact .inr ⟨h1, by omega, h3⟩
      have hsend : R.sendAll (d ++ v) = R.sendAll d ++ R.sendAll v := by simp [Rules.sendAll]
      have hstep : Step R cfg t x now _ _ := .open hf hroom ha
      rw [hsend] at hstep
      simpa only [hdout, hvout] using hstep
  | close k =>
      simp only
      cases hl : mid.lookup k with
      | none => exact .unmatched hf (AList.lookup_eq_none.mp hl) ha
      | some e => exact .joined hf hl rfl (.inl ha)
  | stop k =>
      simp only
      cases hl : mid.lookup k with
      | none => exact .orphan hf (AList.lookup_eq_none.mp hl) ha
      | some e => exact .joined hf hl rfl (.inr ha)

/-- A table that starts within a positive bound stays within it. -/
theorem Step.bound {R : Rules κ α β} {cfg : Config} {t t' : Table κ α} {x : α} {now : ℕ}
    {out : List β} (h : Step R cfg t x now out t') (hcap : 0 < cfg.capacity)
    (hbound : t.entries.length ≤ cfg.capacity) : t'.entries.length ≤ cfg.capacity := by
  cases h with
  | immediate hf _ => exact hf.leaves.length_le.trans hbound
  | «open» hf hr _ =>
      rw [insert_perm hr.absent, List.length_cons]
      rcases hr.bound with hlt | hnil
      · omega
      · rw [hnil]
        exact hcap
  | joined hf hl hr _ =>
      have := (erase_perm hl).length_eq
      have := hf.leaves.length_le
      subst hr
      simp only [List.length_cons] at *
      omega
  | unmatched hf _ _ => exact hf.leaves.length_le.trans hbound
  | orphan hf _ _ => exact hf.leaves.length_le.trans hbound

theorem run_bound {R : Rules κ α β} {cfg : Config} (hcap : 0 < cfg.capacity) :
    ∀ (es : List (Event κ α)) (t : Table κ α), t.entries.length ≤ cfg.capacity →
      (run R cfg t es).2.entries.length ≤ cfg.capacity
  | [], _, h => h
  | e :: es, t, h =>
      run_bound hcap es _ ((observe_step R cfg e.ord t e.item e.now h).bound hcap h)

end PairBuffer
