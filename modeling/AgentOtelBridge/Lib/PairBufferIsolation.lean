import AgentOtelBridge.Lib.PairBuffer

/-!
# Two parties in one pairing buffer

A buffer serves two parties whose items never name a common key.  The joint run
takes in the items of both, the solo run those of one, each with iteration
orders of its own.  As long as the joint table stays below its bound, so that
nothing is evicted, the party cannot tell the runs apart by what it is sent,
with one exception: an item of the other party lets the joint buffer notice an
expiry that the solo buffer has not noticed yet.

`Isolated` is the invariant that relates the two runs.  The solo table is the
party's part of the joint one and the entries whose expiry it has yet to notice.
-/

namespace PairBuffer

open FiniteMap

variable {κ α β : Type*}

/-- The key an action is about. -/
def Action.key? : Action κ → Option κ
  | .immediate => none
  | .open k => some k
  | .close k => some k
  | .stop k => some k

/-- Whatever is sent out belongs to the party of the first item behind it. -/
structure Owned (R : Rules κ α β) (mine : α → Bool) (own : β → Bool) : Prop where
  single : ∀ c x, own (R.single c x) = mine x
  join : ∀ x y, own (R.join x y) = mine x
  orphan : ∀ x, ∀ b ∈ R.orphan x, own b = mine x

/-- The entries of the keys `P` holds of. -/
def restrict (P : κ → Bool) (t : Table κ α) : Table κ α :=
  ⟨t.entries.filter fun e => P e.1, t.nodupKeys.sublist List.filter_sublist⟩

@[simp] theorem restrict_entries (P : κ → Bool) (t : Table κ α) :
    (restrict P t).entries = t.entries.filter fun e => P e.1 := rfl

theorem restrict_fresh (P : κ → Bool) (ttl now : ℕ) (t : Table κ α) :
    restrict P (fresh ttl now t) = fresh ttl now (restrict P t) := by
  apply AList.ext
  simp only [restrict_entries, fresh_entries, List.filter_filter]
  exact List.filter_congr fun e _ => Bool.and_comm _ _

/-- What is sent out for entries that expire. -/
def Rules.expire (R : Rules κ α β) (es : List (Sigma fun _ : κ => Entry α)) : List β :=
  es.map fun e => R.single .expired e.2.item

/-- The time of the last event, or `start`. -/
def lastTime (start : ℕ) : List (Event κ α) → ℕ
  | [] => start
  | e :: es => lastTime e.now es

/-- Two events about one item at one time. -/
def SameEvent (e f : Event κ α) : Prop := e.item = f.item ∧ e.now = f.now

/-- How two tables, and what was sent out so far, relate when the first buffer
also serves the other party. -/
structure Isolated (R : Rules κ α β) (ttl last : ℕ) (P : κ → Bool) (mine : α → Bool)
    (own : β → Bool) (joint solo : Table κ α) (jointOut soloOut : List β)
    (early : List (Sigma fun _ : κ => Entry α)) : Prop where
  owner : ∀ e ∈ joint.entries, mine e.2.item = P e.1
  split : solo.entries.Perm ((restrict P joint).entries ++ early)
  stale : ∀ e ∈ early, e.2.stale ttl last = true
  out : (jointOut.filter own).Perm (soloOut ++ R.expire early)

theorem Entry.stale_mono {ttl now later : ℕ} {e : Entry α} (h : e.stale ttl now = true)
    (hle : now ≤ later) : e.stale ttl later = true := by
  simp only [Entry.stale, decide_eq_true_eq] at h ⊢
  omega

theorem Rules.expire_append {R : Rules κ α β} (es fs : List (Sigma fun _ : κ => Entry α)) :
    R.expire (es ++ fs) = R.expire es ++ R.expire fs := List.map_append

theorem expire_filter {R : Rules κ α β} {P : κ → Bool} {mine : α → Bool} {own : β → Bool}
    (hown : Owned R mine own) :
    ∀ l : List (Sigma fun _ : κ => Entry α), (∀ e ∈ l, mine e.2.item = P e.1) →
      (R.expire l).filter own = R.expire (l.filter fun e => P e.1)
  | [], _ => rfl
  | e :: l, h => by
      have ih := expire_filter hown l fun e' he' => h e' (.tail _ he')
      have he := h e (.head _)
      simp only [Rules.expire, List.map_cons, List.filter_cons, hown.single, he] at ih ⊢
      split <;> simp [ih]

/-- A table splits into its stale and its fresh entries. -/
theorem entries_split (ttl now : ℕ) (t : Table κ α) :
    t.entries.Perm ((fresh ttl now t).entries ++ t.entries.filter fun e => e.2.stale ttl now) := by
  have h := List.filter_append_perm (fun e : Sigma fun _ : κ => Entry α => e.2.stale ttl now)
    t.entries
  refine (h.symm.trans List.perm_append_comm).trans (.of_eq (congrArg (· ++ _) ?_))
  exact List.filter_congr fun e _ => by simp

variable [DecidableEq κ]

/-! ## Small facts -/

theorem restrict_lookup {P : κ → Bool} {k : κ} (hk : P k = true) (t : Table κ α) :
    (restrict P t).lookup k = t.lookup k := by
  cases hl : t.lookup k with
  | some e => exact mem_entries_iff.mp (List.mem_filter.mpr ⟨mem_entries_iff.mpr hl, hk⟩)
  | none =>
      rw [AList.lookup_eq_none] at hl ⊢
      exact fun h => hl (List.filter_sublist.map Sigma.fst |>.subset h)

theorem restrict_erase (P : κ → Bool) (k : κ) (t : Table κ α) :
    restrict P (t.erase k) = (restrict P t).erase k := by
  apply AList.ext
  simp only [restrict_entries, erase_entries, List.filter_filter]
  exact List.filter_congr fun e _ => Bool.and_comm _ _

theorem restrict_erase_other {P : κ → Bool} {k : κ} (hk : P k = false) (t : Table κ α) :
    restrict P (t.erase k) = restrict P t := by
  apply AList.ext
  simp only [restrict_entries, erase_entries, List.filter_filter]
  refine List.filter_congr fun e _ => ?_
  by_cases he : e.1 = k
  · simp [he, hk]
  · simp [he]

theorem restrict_insert {P : κ → Bool} {k : κ} (hk : P k = true) (e : Entry α) (t : Table κ α) :
    restrict P (t.insert k e) = (restrict P t).insert k e := by
  apply AList.ext
  have h := congrArg AList.entries (restrict_erase P k t)
  simp only [restrict_entries] at h
  rw [restrict_entries, AList.entries_insert, AList.entries_insert,
    List.filter_cons_of_pos (by simpa using hk)]
  exact congrArg _ h

theorem restrict_insert_other {P : κ → Bool} {k : κ} (hk : P k = false) (e : Entry α)
    (t : Table κ α) : restrict P (t.insert k e) = restrict P t := by
  apply AList.ext
  have h := congrArg AList.entries (restrict_erase_other hk t)
  simp only [restrict_entries] at h
  rw [restrict_entries, AList.entries_insert, List.filter_cons_of_neg (by simp [hk])]
  exact h

/-! ## Taking an item in with room to spare -/

/-- `act` when nothing has to be evicted. -/
def actRoom (R : Rules κ α β) (t : Table κ α) (x : α) (now : ℕ) : List β × Table κ α :=
  match R.action x with
  | .immediate => ([R.single .immediate x], t)
  | .open k => ((displace R k t).1, t.insert k ⟨x, now⟩)
  | .close k =>
      match t.lookup k with
      | some e => ([R.join e.item x], t.erase k)
      | none => ([R.single .unmatched x], t)
  | .stop k =>
      match t.lookup k with
      | some e => ([R.join e.item x], t.erase k)
      | none => (R.orphan x, t)

theorem act_of_lt (R : Rules κ α β) (cfg : Config) (ord : IterOrder κ) {t : Table κ α} (x : α)
    (now : ℕ) (h : t.entries.length < cfg.capacity) :
    act R cfg ord t x now = actRoom R t x now := by
  unfold act actRoom
  cases R.action x with
  | immediate => rfl
  | close k => rfl
  | stop k => rfl
  | «open» k =>
      obtain ⟨gone, hleaves, _⟩ := displace_leaves R k t
      have hlt : (displace R k t).2.entries.length < cfg.capacity :=
        Nat.lt_of_le_of_lt hleaves.length_le h
      simp only [evict, if_pos hlt, List.append_nil]
      refine Prod.ext rfl (AList.ext ?_)
      simp only [AList.entries_insert]
      unfold displace
      cases t.lookup k with
      | none => rfl
      | some e =>
          show _ :: List.kerase k (List.kerase k t.entries) = _
          have hnot : k ∉ (List.kerase k t.entries).keys := List.notMem_keys_kerase k t.nodupKeys
          rw [List.kerase_of_notMem_keys hnot]

section
variable {R : Rules κ α β} {P : κ → Bool} {mine : α → Bool} {own : β → Bool} {t u : Table κ α}
  {x : α}

theorem displace_perm (k : κ) (h : t.entries.Perm u.entries) :
    (displace R k t).1 = (displace R k u).1 := by
  unfold displace
  rw [AList.perm_lookup h]
  cases u.lookup k <;> rfl

theorem displace_restrict {k : κ} (hk : P k = true) :
    (displace R k (restrict P t)).1 = (displace R k t).1 := by
  unfold displace
  rw [restrict_lookup hk]
  cases t.lookup k <;> rfl

/-- Taking an item in does not depend on the order of the entries. -/
theorem actRoom_perm (now : ℕ) (h : t.entries.Perm u.entries) :
    (actRoom R t x now).1 = (actRoom R u x now).1 ∧
      (actRoom R t x now).2.entries.Perm (actRoom R u x now).2.entries := by
  unfold actRoom
  cases R.action x with
  | immediate => exact ⟨rfl, h⟩
  | «open» k => exact ⟨displace_perm k h, AList.perm_insert h⟩
  | close k =>
      simp only [AList.perm_lookup h]
      cases u.lookup k with
      | none => exact ⟨rfl, h⟩
      | some e => exact ⟨rfl, AList.perm_erase h⟩
  | stop k =>
      simp only [AList.perm_lookup h]
      cases u.lookup k with
      | none => exact ⟨rfl, h⟩
      | some e => exact ⟨rfl, AList.perm_erase h⟩

/-- An item of the party reads and changes the party's part only. -/
theorem actRoom_restrict (now : ℕ) (hkey : ∀ k, (R.action x).key? = some k → P k = true) :
    (actRoom R (restrict P t) x now).1 = (actRoom R t x now).1 ∧
      (actRoom R (restrict P t) x now).2 = restrict P (actRoom R t x now).2 := by
  unfold actRoom
  cases ha : R.action x with
  | immediate => exact ⟨rfl, rfl⟩
  | «open» k =>
      have hk := hkey k (by rw [ha]; rfl)
      exact ⟨displace_restrict hk, (restrict_insert hk _ t).symm⟩
  | close k =>
      have hk := hkey k (by rw [ha]; rfl)
      simp only [restrict_lookup hk]
      cases t.lookup k with
      | none => exact ⟨rfl, rfl⟩
      | some e => exact ⟨rfl, (restrict_erase P k t).symm⟩
  | stop k =>
      have hk := hkey k (by rw [ha]; rfl)
      simp only [restrict_lookup hk]
      cases t.lookup k with
      | none => exact ⟨rfl, rfl⟩
      | some e => exact ⟨rfl, (restrict_erase P k t).symm⟩

/-- An item of the other party leaves the party's part alone. -/
theorem actRoom_other (now : ℕ) (hkey : ∀ k, (R.action x).key? = some k → P k = false) :
    restrict P (actRoom R t x now).2 = restrict P t := by
  unfold actRoom
  cases ha : R.action x with
  | immediate => rfl
  | «open» k => exact restrict_insert_other (hkey k (by rw [ha]; rfl)) _ t
  | close k =>
      simp only
      cases t.lookup k with
      | none => rfl
      | some e => exact restrict_erase_other (hkey k (by rw [ha]; rfl)) t
  | stop k =>
      simp only
      cases t.lookup k with
      | none => rfl
      | some e => exact restrict_erase_other (hkey k (by rw [ha]; rfl)) t

/-- What an item sends out belongs to its party. -/
theorem actRoom_own (hown : Owned R mine own) (howner : ∀ e ∈ t.entries, mine e.2.item = P e.1)
    (now : ℕ) (hkey : ∀ k, (R.action x).key? = some k → P k = mine x) :
    ∀ b ∈ (actRoom R t x now).1, own b = mine x := by
  have hstored : ∀ {k : κ} {e : Entry α}, t.lookup k = some e → P k = mine x →
      mine e.item = mine x :=
    fun hl hk => (howner _ (mem_entries_iff.mpr hl)).trans hk
  unfold actRoom
  cases ha : R.action x with
  | immediate =>
      intro b hb
      rw [List.mem_singleton.mp hb, hown.single]
  | «open» k =>
      have hk := hkey k (by rw [ha]; rfl)
      intro b hb
      simp only [displace] at hb
      cases hl : t.lookup k with
      | none => simp [hl] at hb
      | some e =>
          simp only [hl, List.mem_singleton] at hb
          rw [hb, hown.single, hstored hl hk]
  | close k =>
      have hk := hkey k (by rw [ha]; rfl)
      simp only
      cases hl : t.lookup k with
      | none =>
          intro b hb
          rw [List.mem_singleton.mp hb, hown.single]
      | some e =>
          intro b hb
          rw [List.mem_singleton.mp hb, hown.join, hstored hl hk]
  | stop k =>
      have hk := hkey k (by rw [ha]; rfl)
      simp only
      cases hl : t.lookup k with
      | none => exact hown.orphan x
      | some e =>
          intro b hb
          rw [List.mem_singleton.mp hb, hown.join, hstored hl hk]

/-- The entries keep their owners. -/
theorem actRoom_owner (howner : ∀ e ∈ t.entries, mine e.2.item = P e.1) (now : ℕ)
    (hkey : ∀ k, (R.action x).key? = some k → P k = mine x) :
    ∀ e ∈ (actRoom R t x now).2.entries, mine e.2.item = P e.1 := by
  have herase : ∀ k, ∀ e ∈ (t.erase k).entries, mine e.2.item = P e.1 := fun k e he =>
    howner e ((List.kerase_sublist k t.entries).subset he)
  unfold actRoom
  cases ha : R.action x with
  | immediate => exact howner
  | «open» k =>
      intro e he
      rw [AList.entries_insert, List.mem_cons] at he
      rcases he with rfl | he
      · exact (hkey k (by rw [ha]; rfl)).symm
      · exact herase k e he
  | close k =>
      simp only
      cases t.lookup k with
      | none => exact howner
      | some e => exact herase k
  | stop k =>
      simp only
      cases t.lookup k with
      | none => exact howner
      | some e => exact herase k

/-! ## What a flush sends out -/

theorem flush_out_perm (R : Rules κ α β) (ord : IterOrder κ) (ttl now : ℕ) (t : Table κ α) :
    (flush R ord ttl now t).1.Perm (R.expire (t.entries.filter fun e => e.2.stale ttl now)) :=
  ((ord.iter_perm t).filter _).map _

/-- The party's part of what a flush sends out. -/
theorem flush_own_perm (hown : Owned R mine own) (howner : ∀ e ∈ t.entries, mine e.2.item = P e.1)
    (ord : IterOrder κ) (ttl now : ℕ) :
    ((flush R ord ttl now t).1.filter own).Perm
      (R.expire ((restrict P t).entries.filter fun e => e.2.stale ttl now)) := by
  refine ((flush_out_perm R ord ttl now t).filter own).trans (.of_eq ?_)
  rw [expire_filter hown _ fun e he => howner e (List.mem_filter.mp he).1, restrict_entries,
    List.filter_filter, List.filter_filter]
  exact congrArg _ (List.filter_congr fun e _ => Bool.and_comm _ _)

/-! ## The invariant -/

variable {cfg : Config} {last : ℕ} {joint solo : Table κ α} {jointOut soloOut : List β}
  {early : List (Sigma fun _ : κ => Entry α)}

/-- An item of the other party: what the joint buffer expires, the solo buffer
has yet to notice. -/
theorem Isolated.other (h : Isolated R cfg.ttl last P mine own joint solo jointOut soloOut early)
    (hown : Owned R mine own) {e : Event κ α} (hlast : last ≤ e.now)
    (hroom : joint.entries.length < cfg.capacity) (hmine : mine e.item = false)
    (hkey : ∀ k, (R.action e.item).key? = some k → P k = mine e.item) :
    ∃ early', Isolated R cfg.ttl e.now P mine own (observe R cfg e.ord joint e.item e.now).2 solo
      (jointOut ++ (observe R cfg e.ord joint e.item e.now).1) soloOut early' := by
  have hfresh : ∀ f ∈ (fresh cfg.ttl e.now joint).entries, mine f.2.item = P f.1 :=
    fun f hf => h.owner f (fresh_subset hf)
  have hlen : (fresh cfg.ttl e.now joint).entries.length < cfg.capacity :=
    Nat.lt_of_le_of_lt (List.length_filter_le _ _) hroom
  have hact := act_of_lt R cfg e.ord e.item e.now hlen
  have hown' := actRoom_own hown hfresh e.now hkey
  have hpart := actRoom_other (t := fresh cfg.ttl e.now joint) e.now
    fun k hk => (hkey k hk).trans hmine
  refine ⟨((restrict P joint).entries.filter fun f => f.2.stale cfg.ttl e.now) ++ early, ?_⟩
  simp only [observe, flush, hact]
  refine ⟨actRoom_owner hfresh e.now hkey, ?_, ?_, ?_⟩
  · rw [hpart, restrict_fresh]
    refine h.split.trans ?_
    rw [← List.append_assoc]
    exact (entries_split cfg.ttl e.now (restrict P joint)).append_right early
  · intro f hf
    rcases List.mem_append.mp hf with hf | hf
    · exact (List.mem_filter.mp hf).2
    · exact Entry.stale_mono (h.stale f hf) hlast
  · have hflush := flush_own_perm hown h.owner e.ord cfg.ttl e.now
    have hnone : ((actRoom R (fresh cfg.ttl e.now joint) e.item e.now).1.filter own) = [] :=
      List.filter_eq_nil_iff.mpr fun b hb => by simp [hown' b hb, hmine]
    rw [List.filter_append, List.filter_append, hnone, List.append_nil, Rules.expire_append]
    refine (h.out.append hflush).trans ?_
    rw [List.append_assoc]
    exact List.perm_append_comm.append_left _

/-- An item of the party: the solo buffer notices what it had yet to notice, and
then both do the same. -/
theorem Isolated.mine_step
    (h : Isolated R cfg.ttl last P mine own joint solo jointOut soloOut early)
    (hown : Owned R mine own) {e f : Event κ α} (hsame : SameEvent e f) (hlast : last ≤ e.now)
    (hroom : joint.entries.length < cfg.capacity) (hmine : mine e.item = true)
    (hkey : ∀ k, (R.action e.item).key? = some k → P k = mine e.item) :
    Isolated R cfg.ttl e.now P mine own (observe R cfg e.ord joint e.item e.now).2
      (observe R cfg f.ord solo f.item f.now).2
      (jointOut ++ (observe R cfg e.ord joint e.item e.now).1)
      (soloOut ++ (observe R cfg f.ord solo f.item f.now).1) [] := by
  obtain ⟨hitem, hnow⟩ := hsame
  rw [← hitem, ← hnow]
  have hfresh : ∀ f ∈ (fresh cfg.ttl e.now joint).entries, mine f.2.item = P f.1 :=
    fun f hf => h.owner f (fresh_subset hf)
  have hearly : (early.filter fun f => !f.2.stale cfg.ttl e.now) = [] :=
    List.filter_eq_nil_iff.mpr fun f hf => by simp [Entry.stale_mono (h.stale f hf) hlast]
  have hearly' : (early.filter fun f => f.2.stale cfg.ttl e.now) = early :=
    List.filter_eq_self.mpr fun f hf => Entry.stale_mono (h.stale f hf) hlast
  have hsplit : (fresh cfg.ttl e.now solo).entries.Perm
      (restrict P (fresh cfg.ttl e.now joint)).entries := by
    rw [restrict_fresh]
    refine (h.split.filter _).trans (.of_eq ?_)
    rw [List.filter_append, hearly, List.append_nil]
    rfl
  have hlen : (fresh cfg.ttl e.now joint).entries.length < cfg.capacity :=
    Nat.lt_of_le_of_lt (List.length_filter_le _ _) hroom
  have hlen' : (fresh cfg.ttl e.now solo).entries.length < cfg.capacity := by
    rw [hsplit.length_eq]
    exact Nat.lt_of_le_of_lt (List.length_filter_le _ _) hlen
  have hact := act_of_lt R cfg e.ord e.item e.now hlen
  have hact' := act_of_lt R cfg f.ord e.item e.now hlen'
  obtain ⟨hout, htable⟩ := actRoom_perm (R := R) (x := e.item) e.now hsplit
  obtain ⟨hpart, hrest⟩ := actRoom_restrict (t := fresh cfg.ttl e.now joint) e.now
    fun k hk => (hkey k hk).trans hmine
  have hown' := actRoom_own hown hfresh e.now hkey
  simp only [observe, flush, hact, hact']
  refine ⟨actRoom_owner hfresh e.now hkey, ?_, List.forall_mem_nil _, ?_⟩
  · rw [List.append_nil, ← hrest]
    exact htable
  · have hall : ((actRoom R (fresh cfg.ttl e.now joint) e.item e.now).1.filter own) =
        (actRoom R (fresh cfg.ttl e.now solo) e.item e.now).1 := by
      rw [hout, hpart]
      exact List.filter_eq_self.mpr fun b hb => (hown' b hb).trans hmine
    have hflush := flush_own_perm hown h.owner e.ord cfg.ttl e.now
    have hsolo := flush_out_perm R f.ord cfg.ttl e.now solo
    have hstale : (R.expire (solo.entries.filter fun f => f.2.stale cfg.ttl e.now)).Perm
        (R.expire ((restrict P joint).entries.filter fun f => f.2.stale cfg.ttl e.now) ++
          R.expire early) := by
      have := h.split.filter fun f => f.2.stale cfg.ttl e.now
      rw [List.filter_append, hearly'] at this
      exact (this.map _).trans (.of_eq (Rules.expire_append _ _))
    rw [List.filter_append, List.filter_append, hall, show R.expire [] = [] from rfl,
      List.append_nil, ← List.append_assoc, ← List.append_assoc]
    refine List.Perm.append_right _ ?_
    have hjoint := h.out.append hflush
    refine hjoint.trans ?_
    rw [List.append_assoc]
    refine List.Perm.append_left _ ?_
    exact (List.perm_append_comm.trans hstale.symm).trans hsolo.symm

/-- **Isolation of a run.**  Whatever the other party sends, the party is sent
what it would be sent alone, up to the expiry of entries that the solo buffer
still holds. -/
theorem Isolated.run (hown : Owned R mine own) :
    ∀ (es fs : List (Event κ α)) (last : ℕ) (joint solo : Table κ α) (jointOut soloOut : List β)
      (early : List (Sigma fun _ : κ => Entry α)),
      Isolated R cfg.ttl last P mine own joint solo jointOut soloOut early →
      (∀ e ∈ es, ∀ k, (R.action e.item).key? = some k → P k = mine e.item) →
      (∀ e ∈ es, last ≤ e.now) → es.Pairwise (fun e e' => e.now ≤ e'.now) →
      (∀ n, (PairBuffer.run R cfg joint (es.take n)).2.entries.length < cfg.capacity) →
      List.Forall₂ SameEvent (es.filter fun e => mine e.item) fs →
      ∃ early', Isolated R cfg.ttl (lastTime last es) P mine own (PairBuffer.run R cfg joint es).2
        (PairBuffer.run R cfg solo fs).2 (jointOut ++ (PairBuffer.run R cfg joint es).1)
        (soloOut ++ (PairBuffer.run R cfg solo fs).1) early'
  | [], fs, last, joint, solo, jointOut, soloOut, early, h, _, _, _, _, hsolo => by
      rw [List.filter_nil, List.forall₂_nil_left_iff] at hsolo
      subst hsolo
      exact ⟨early, by simpa [lastTime] using h⟩
  | e :: es, fs, last, joint, solo, jointOut, soloOut, early, h, hkey, hlast, hsorted, hroom,
      hsolo => by
      have hnow := hlast e (.head _)
      have hroom0 : joint.entries.length < cfg.capacity := by simpa using hroom 0
      have hkeys : ∀ e' ∈ es, ∀ k, (R.action e'.item).key? = some k → P k = mine e'.item :=
        fun e' he' => hkey e' (.tail _ he')
      obtain ⟨hle, hsorted'⟩ := List.pairwise_cons.mp hsorted
      have hroom' : ∀ n, (PairBuffer.run R cfg (observe R cfg e.ord joint e.item e.now).2
          (es.take n)).2.entries.length < cfg.capacity := fun n => hroom (n + 1)
      cases hmine : mine e.item with
      | false =>
          rw [List.filter_cons_of_neg (by simp [hmine])] at hsolo
          obtain ⟨early', h'⟩ := h.other hown hnow hroom0 hmine (hkey e (.head _))
          have ih := Isolated.run hown es fs _ _ _ _ _ _ h' hkeys hle hsorted' hroom' hsolo
          simpa only [run_cons, lastTime, List.append_assoc] using ih
      | true =>
          rw [List.filter_cons_of_pos (by simp [hmine])] at hsolo
          obtain ⟨f, fs', hsame, hrest, rfl⟩ := List.forall₂_cons_left_iff.mp hsolo
          have h' := h.mine_step hown hsame hnow hroom0 hmine (hkey e (.head _))
          have ih := Isolated.run hown es fs' _ _ _ _ _ _ h' hkeys hle hsorted' hroom' hrest
          simpa only [run_cons, lastTime, List.append_assoc] using ih

/-- The runs from the empty table. -/
theorem run_isolated (hown : Owned R mine own) (es fs : List (Event κ α))
    (hkey : ∀ e ∈ es, ∀ k, (R.action e.item).key? = some k → P k = mine e.item)
    (hsorted : es.Pairwise fun e e' => e.now ≤ e'.now)
    (hroom : ∀ n, (PairBuffer.run R cfg ∅ (es.take n)).2.entries.length < cfg.capacity)
    (hsolo : List.Forall₂ SameEvent (es.filter fun e => mine e.item) fs) :
    ∃ early, Isolated R cfg.ttl (lastTime 0 es) P mine own (PairBuffer.run R cfg ∅ es).2
      (PairBuffer.run R cfg ∅ fs).2 (PairBuffer.run R cfg ∅ es).1
      (PairBuffer.run R cfg ∅ fs).1 early := by
  have h0 : Isolated R cfg.ttl 0 P mine own ∅ ∅ [] [] ([] : List (Sigma fun _ : κ => Entry α)) :=
    ⟨nofun, .refl _, nofun, .refl _⟩
  simpa using Isolated.run hown es fs 0 ∅ ∅ [] [] [] h0 hkey (fun _ _ => Nat.zero_le _) hsorted hroom hsolo

end

end PairBuffer
