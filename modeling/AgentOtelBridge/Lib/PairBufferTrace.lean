import AgentOtelBridge.Lib.PairBuffer

/-!
# The ledger of a pairing buffer

A traced run gives every item its position in the sequence and sends out, in
place of the caller's values, `Emission`s that name the items they were made of.
The buffer never looks inside an item, so the traced run and the plain one move
together, and reading an emission with the caller's rules gives back what the
plain run sends (`run_trace`).

`Ledger` is the invariant of a traced run.  Every position is in one place, a
table entry is the latest opening of its key, and every emission is explained by
the events it names.
-/

namespace PairBuffer

open FiniteMap

variable {κ α α' β : Type*}

/-! ## Emissions -/

/-- What leaves a traced buffer, by the positions of the items in it. -/
inductive Emission (α : Type*) where
  | unpaired (cause : Cause) (i : ℕ) (x : α)
  | paired (i : ℕ) (x : α) (j : ℕ) (y : α)
  | dropped (i : ℕ) (x : α)
deriving DecidableEq, Repr

/-- The positions an emission uses up. -/
def Emission.ids : Emission α → List ℕ
  | .unpaired _ i _ => [i]
  | .paired i _ j _ => [i, j]
  | .dropped i _ => [i]

/-- The emission sends position `i` out alone. -/
def Emission.alone (i : ℕ) : Emission α → Bool
  | .unpaired _ j _ => j = i
  | _ => false

/-- The emission joins position `i` with another. -/
def Emission.joins (i : ℕ) : Emission α → Bool
  | .paired j _ k _ => j = i || k = i
  | _ => false

/-- The rules that send out emissions. -/
def Rules.trace (R : Rules κ α β) : Rules κ (ℕ × α) (Emission α) where
  action p := R.action p.2
  single c p := .unpaired c p.1 p.2
  join p q := .paired p.1 p.2 q.1 q.2
  orphan p := [.dropped p.1 p.2]

/-- What the rules send out for an emission. -/
def Rules.render (R : Rules κ α β) : Emission α → List β
  | .unpaired c _ x => [R.single c x]
  | .paired _ x _ y => [R.join x y]
  | .dropped _ x => R.orphan x

/-! ## Changing the items of a table -/

def Entry.map (f : α → α') (e : Entry α) : Entry α' := ⟨f e.item, e.opened⟩

/-- One entry of a table with its item changed. -/
def mapSigma (f : α → α') (e : Sigma fun _ : κ => Entry α) : Sigma fun _ : κ => Entry α' :=
  ⟨e.1, e.2.map f⟩

theorem keys_mapSigma (f : α → α') (l : List (Sigma fun _ : κ => Entry α)) :
    (l.map (mapSigma f)).keys = l.keys := by
  simp [List.keys, mapSigma, Function.comp_def]

def mapTable (f : α → α') (t : Table κ α) : Table κ α' :=
  ⟨t.entries.map (mapSigma f), by
    rw [List.NodupKeys, keys_mapSigma]
    exact t.nodupKeys⟩

@[simp] theorem entries_mapTable (f : α → α') (t : Table κ α) :
    (mapTable f t).entries = t.entries.map (mapSigma f) := rfl

@[simp] theorem keys_mapTable (f : α → α') (t : Table κ α) : (mapTable f t).keys = t.keys :=
  keys_mapSigma f t.entries

theorem fresh_mapTable (f : α → α') (ttl now : ℕ) (t : Table κ α) :
    fresh ttl now (mapTable f t) = mapTable f (fresh ttl now t) := by
  apply AList.ext
  simp only [fresh_entries, entries_mapTable, List.filter_map]
  rfl

/-! ## Rules that do the same to other items -/

/-- `S` does to the images of items what `R` does to items, and sends out what
`g` reads in the values `R` sends. -/
structure Morphism {γ : Type*} (R : Rules κ α β) (S : Rules κ α' γ) (f : α → α')
    (g : β → List γ) : Prop where
  action : ∀ x, S.action (f x) = R.action x
  single : ∀ c x, [S.single c (f x)] = g (R.single c x)
  join : ∀ x y, [S.join (f x) (f y)] = g (R.join x y)
  orphan : ∀ x, S.orphan (f x) = (R.orphan x).flatMap g

theorem Rules.trace_morphism (R : Rules κ α β) : Morphism R.trace R Prod.snd R.render :=
  ⟨fun _ => rfl, fun _ _ => rfl, fun _ _ => rfl, fun _ => by simp [Rules.trace, Rules.render]⟩

/-- An event with its item changed. -/
def Event.map (f : α → α') (e : Event κ α) : Event κ α' := ⟨f e.item, e.now, e.ord⟩

/-- The events with their positions. -/
def tag (es : List (Event κ α)) : List (Event κ (ℕ × α)) :=
  es.zipIdx.map fun p => ⟨(p.2, p.1.item), p.1.now, p.1.ord⟩

theorem tag_map (es : List (Event κ α)) : (tag es).map (Event.map Prod.snd) = es := by
  simp [tag, Event.map, Function.comp_def]

theorem tag_concat (es : List (Event κ α)) (e : Event κ α) :
    tag (es ++ [e]) = tag es ++ [⟨(es.length, e.item), e.now, e.ord⟩] := by
  simp [tag, List.zipIdx_append]

section
variable [DecidableEq κ]

theorem lookup_mapTable (f : α → α') (k : κ) (t : Table κ α) :
    (mapTable f t).lookup k = (t.lookup k).map (Entry.map f) := by
  cases hl : t.lookup k with
  | some e =>
      have hm := mem_entries_iff.mpr hl
      exact mem_entries_iff.mp (List.mem_map_of_mem (f := mapSigma f) hm)
  | none =>
      rw [Option.map_none, AList.lookup_eq_none, AList.mem_keys, keys_mapTable]
      exact AList.lookup_eq_none.mp hl

theorem erase_mapTable (f : α → α') (k : κ) (t : Table κ α) :
    (mapTable f t).erase k = mapTable f (t.erase k) := by
  apply AList.ext
  show List.kerase k (t.entries.map (mapSigma f)) = (List.kerase k t.entries).map (mapSigma f)
  simp only [List.kerase, List.eraseP_map]
  rfl

theorem insert_mapTable (f : α → α') (k : κ) (e : Entry α) (t : Table κ α) :
    (mapTable f t).insert k (e.map f) = mapTable f (t.insert k e) := by
  apply AList.ext
  have h := congrArg AList.entries (erase_mapTable f k t)
  rw [entries_mapTable, AList.entries_insert, AList.entries_insert, List.map_cons]
  exact congrArg _ h

theorem iter_mapTable (f : α → α') (ord : IterOrder κ) (t : Table κ α) :
    ord.iter (mapTable f t) = (ord.iter t).map (mapSigma f) := by
  simp only [IterOrder.iter, keys_mapTable, List.map_filterMap, lookup_mapTable, Option.map_map]
  rfl

theorem argmin_map {γ δ : Type*} (g : δ → γ) (w : γ → ℕ) (l : List δ) :
    (l.map g).argmin w = (l.argmin (w ∘ g)).map g := by
  induction l using List.reverseRecOn with
  | nil => rfl
  | append_singleton l x ih =>
      rw [List.map_append, List.map_singleton, List.argmin_concat, List.argmin_concat, ih]
      cases l.argmin (w ∘ g) with
      | none => rfl
      | some m =>
          simp only [Option.map_some, Function.comp_apply]
          split <;> rfl

/-! ## The traced run and the plain one -/

section
variable {γ : Type*} {R : Rules κ α β} {S : Rules κ α' γ} {f : α → α'} {g : β → List γ}

theorem Morphism.flush (h : Morphism R S f g) (ord : IterOrder κ) (ttl now : ℕ) (t : Table κ α) :
    PairBuffer.flush S ord ttl now (mapTable f t) =
      ((PairBuffer.flush R ord ttl now t).1.flatMap g,
        mapTable f (PairBuffer.flush R ord ttl now t).2) := by
  simp only [PairBuffer.flush, fresh_mapTable, iter_mapTable, Prod.mk.injEq, and_true]
  generalize ord.iter t = l
  induction l with
  | nil => rfl
  | cons e l ih =>
      have hstale : (mapSigma f e).2.stale ttl now = e.2.stale ttl now := rfl
      by_cases hs : e.2.stale ttl now = true
      · simp only [List.map_cons, List.filter_cons, hstale, hs, if_true, List.flatMap_cons, ih,
          ← h.single]
        rfl
      · simp only [List.map_cons, List.filter_cons, hstale, hs, if_false, Bool.false_eq_true, ih]

theorem Morphism.displace (h : Morphism R S f g) (k : κ) (t : Table κ α) :
    PairBuffer.displace S k (mapTable f t) =
      ((PairBuffer.displace R k t).1.flatMap g, mapTable f (PairBuffer.displace R k t).2) := by
  unfold PairBuffer.displace
  rw [lookup_mapTable]
  cases t.lookup k with
  | none => rfl
  | some e =>
      simp only [Option.map_some, erase_mapTable, List.flatMap_cons, List.flatMap_nil,
        List.append_nil, ← h.single]
      rfl

theorem Morphism.evict (h : Morphism R S f g) (ord : IterOrder κ) (capacity : ℕ)
    (t : Table κ α) :
    PairBuffer.evict S ord capacity (mapTable f t) =
      ((PairBuffer.evict R ord capacity t).1.flatMap g,
        mapTable f (PairBuffer.evict R ord capacity t).2) := by
  unfold PairBuffer.evict
  rw [entries_mapTable, List.length_map, iter_mapTable, argmin_map]
  split
  · rfl
  · show (match (((ord.iter t).argmin fun e => e.2.opened).map (mapSigma f)) with
      | some e => _ | none => _) = _
    cases (ord.iter t).argmin fun e => e.2.opened with
    | none => rfl
    | some e =>
        simp only [Option.map_some, mapSigma, erase_mapTable, List.flatMap_cons,
          List.flatMap_nil, List.append_nil, ← h.single]
        rfl

theorem Morphism.observe (h : Morphism R S f g) (cfg : Config) (ord : IterOrder κ)
    (t : Table κ α) (x : α) (now : ℕ) :
    PairBuffer.observe S cfg ord (mapTable f t) (f x) now =
      ((PairBuffer.observe R cfg ord t x now).1.flatMap g,
        mapTable f (PairBuffer.observe R cfg ord t x now).2) := by
  have hact : ∀ u : Table κ α, PairBuffer.act S cfg ord (mapTable f u) (f x) now =
      ((PairBuffer.act R cfg ord u x now).1.flatMap g,
        mapTable f (PairBuffer.act R cfg ord u x now).2) := by
    intro u
    unfold PairBuffer.act
    rw [h.action]
    cases R.action x with
    | immediate => simp [h.single]
    | «open» k =>
        simp only [h.displace, h.evict, List.flatMap_append, Prod.mk.injEq, true_and]
        exact insert_mapTable f k ⟨x, now⟩ _
    | close k =>
        simp only [lookup_mapTable]
        cases u.lookup k with
        | none => simp [h.single]
        | some e => simp [Entry.map, h.join, erase_mapTable]
    | stop k =>
        simp only [lookup_mapTable]
        cases u.lookup k with
        | none => simp [h.orphan]
        | some e => simp [Entry.map, h.join, erase_mapTable]
  simp only [PairBuffer.observe, h.flush, hact, List.flatMap_append]

end

theorem Morphism.run {γ : Type*} {R : Rules κ α β} {S : Rules κ α' γ} {f : α → α'}
    {g : β → List γ} (h : Morphism R S f g) (cfg : Config) :
    ∀ (es : List (Event κ α)) (t : Table κ α),
      PairBuffer.run S cfg (mapTable f t) (es.map (Event.map f)) =
        ((PairBuffer.run R cfg t es).1.flatMap g, mapTable f (PairBuffer.run R cfg t es).2)
  | [], t => rfl
  | e :: es, t => by
      have ih := Morphism.run h cfg es (PairBuffer.observe R cfg e.ord t e.item e.now).2
      rw [List.map_cons, run_cons, run_cons]
      show (_ ++ _, _) = _
      simp only [Event.map, h.observe, List.flatMap_append] at ih ⊢
      rw [ih]

/-- The traced run of a sequence of events from the empty table. -/
def traceRun (R : Rules κ α β) (cfg : Config) (es : List (Event κ α)) :
    List (Emission α) × Table κ (ℕ × α) :=
  run R.trace cfg ∅ (tag es)

/-- Reading the emissions of the traced run gives what the plain run sends, and
forgetting the positions its table. -/
theorem run_trace (R : Rules κ α β) (cfg : Config) (es : List (Event κ α)) :
    run R cfg ∅ es =
      ((traceRun R cfg es).1.flatMap R.render, mapTable Prod.snd (traceRun R cfg es).2) := by
  have h := R.trace_morphism.run cfg (tag es) ∅
  rwa [tag_map] at h

end

/-! ## The ledger -/

/-- An emission is explained by the events at the positions it names. -/
def Emission.Explained (R : Rules κ α β) (cfg : Config) (es : List (Event κ α)) :
    Emission α → Prop
  | .unpaired _ i x => ∃ e, es[i]? = some e ∧ e.item = x ∧ ∀ k, R.action x ≠ .stop k
  | .dropped i x => ∃ e, es[i]? = some e ∧ e.item = x ∧ ∃ k, R.action x = .stop k
  | .paired i x j y => ∃ k e e', es[i]? = some e ∧ e.item = x ∧ es[j]? = some e' ∧ e'.item = y ∧
      i < j ∧ R.action x = .open k ∧ (R.action y = .close k ∨ R.action y = .stop k) ∧
      e'.now - e.now < cfg.ttl ∧
      ∀ m e'', i < m → m < j → es[m]? = some e'' → R.action e''.item ≠ .open k

/-- A stored entry is the latest event that opened its key. -/
structure Stored (R : Rules κ α β) (es : List (Event κ α))
    (entry : Sigma fun _ : κ => Entry (ℕ × α)) : Prop where
  opener : ∃ e, es[entry.2.item.1]? = some e ∧ e.item = entry.2.item.2 ∧
    e.now = entry.2.opened ∧ R.action e.item = .open entry.1
  latest : ∀ m e, entry.2.item.1 < m → es[m]? = some e → R.action e.item ≠ .open entry.1

/-- The positions the table holds. -/
def openIds (t : Table κ (ℕ × α)) : List ℕ := t.entries.map fun e => e.2.item.1

/-- What a traced run knows after the events `es`. -/
structure Ledger (R : Rules κ α β) (cfg : Config) (es : List (Event κ α))
    (out : List (Emission α)) (t : Table κ (ℕ × α)) : Prop where
  conserved : (out.flatMap Emission.ids ++ openIds t).Perm (List.range es.length)
  stored : ∀ entry ∈ t.entries, Stored R es entry
  explained : ∀ em ∈ out, em.Explained R cfg es
  bound : t.entries.length ≤ cfg.capacity

section
variable {R : Rules κ α β} {cfg : Config} {es : List (Event κ α)} {out : List (Emission α)}
  {t t' rest : Table κ (ℕ × α)} {gone : Gone κ (ℕ × α)}

theorem openIds_leaves (h : Leaves t gone rest) :
    (openIds t).Perm ((R.trace.sendAll gone).flatMap Emission.ids ++ openIds rest) := by
  have hids : (R.trace.sendAll gone).flatMap Emission.ids =
      (gone.map Prod.snd).map fun e => e.2.item.1 := by
    simp [Rules.sendAll, Rules.trace, Emission.ids, List.flatMap_map, ← List.map_eq_flatMap,
      Function.comp_def]
  rw [hids, openIds, openIds, ← List.map_append]
  exact h.map _

theorem Stored.lt {entry : Sigma fun _ : κ => Entry (ℕ × α)} (h : Stored R es entry) :
    entry.2.item.1 < es.length := by
  obtain ⟨e, he, _⟩ := h.opener
  exact (List.getElem?_eq_some_iff.mp he).1

/-- An entry stays the latest opening while its key is not opened again. -/
theorem Stored.concat {entry : Sigma fun _ : κ => Entry (ℕ × α)} (h : Stored R es entry)
    {e : Event κ α} (hne : R.action e.item ≠ .open entry.1) : Stored R (es ++ [e]) entry := by
  obtain ⟨e₀, he₀, hrest⟩ := h.opener
  refine ⟨⟨e₀, ?_, hrest⟩, fun m e' hm he' => ?_⟩
  · rw [List.getElem?_append_left h.lt, he₀]
  · rcases Nat.lt_or_ge m es.length with hlt | hge
    · rw [List.getElem?_append_left hlt] at he'
      exact h.latest m e' hm he'
    · rw [List.getElem?_append_right hge] at he'
      have he : e = e' := by
        rcases Nat.eq_zero_or_pos (m - es.length) with h0 | hpos
        · simpa [h0] using he'
        · rw [List.getElem?_eq_none (List.length_singleton ▸ hpos)] at he'
          cases he'
      exact he ▸ hne

theorem Emission.Explained.concat {em : Emission α} (h : em.Explained R cfg es) (e : Event κ α) :
    em.Explained R cfg (es ++ [e]) := by
  have keep : ∀ {i : ℕ} {e' : Event κ α}, es[i]? = some e' → (es ++ [e])[i]? = some e' :=
    fun he => by
      rw [List.getElem?_append_left (List.getElem?_eq_some_iff.mp he).1, he]
  cases em with
  | unpaired c i x =>
      obtain ⟨e', he', hrest⟩ := h
      exact ⟨e', keep he', hrest⟩
  | dropped i x =>
      obtain ⟨e', he', hrest⟩ := h
      exact ⟨e', keep he', hrest⟩
  | paired i x j y =>
      obtain ⟨k, e', e'', hi, hx, hj, hy, hij, ho, hc, hage, hbetween⟩ := h
      refine ⟨k, e', e'', keep hi, hx, keep hj, hy, hij, ho, hc, hage, fun m f him hmj hf => ?_⟩
      have hm : m < es.length := hmj.trans (List.getElem?_eq_some_iff.mp hj).1
      rw [List.getElem?_append_left hm] at hf
      exact hbetween m f him hmj hf

/-- What leaves alone is an opening, so it is explained by its own event. -/
theorem explained_of_stored {entry : Sigma fun _ : κ => Entry (ℕ × α)} (h : Stored R es entry)
    (c : Cause) : (Emission.unpaired c entry.2.item.1 entry.2.item.2).Explained R cfg es := by
  obtain ⟨e, he, hitem, _, hact⟩ := h.opener
  exact ⟨e, he, hitem, fun k hk => by rw [← hitem, hact] at hk; cases hk⟩

/-- A position before the end is in one place: in one emission, or in the table. -/
theorem Ledger.once (h : Ledger R cfg es out t) {i : ℕ} (hi : i < es.length) :
    (out.flatMap Emission.ids).count i + (openIds t).count i = 1 := by
  rw [← List.count_append, h.conserved.count_eq i]
  exact List.count_eq_one_of_mem List.nodup_range (List.mem_range.mpr hi)

/-- A position that is not a stop is open, sent out alone once, or joined once. -/
theorem Ledger.place (h : Ledger R cfg es out t) {i : ℕ} {e : Event κ α} (he : es[i]? = some e)
    (hstop : ∀ k, R.action e.item ≠ .stop k) :
    out.countP (Emission.alone i) + out.countP (Emission.joins i) + (openIds t).count i = 1 := by
  rw [← h.once (List.getElem?_eq_some_iff.mp he).1, Nat.add_right_cancel_iff]
  have hexp := h.explained
  clear h
  induction out with
  | nil => rfl
  | cons em out ih =>
      have hem := hexp em (.head _)
      have ih := ih fun em' h' => hexp em' (.tail _ h')
      rw [List.countP_cons, List.countP_cons, List.flatMap_cons, List.count_append, ← ih]
      have hone : ((if em.alone i = true then 1 else 0) + if em.joins i = true then 1 else 0) =
          em.ids.count i := by
        cases em with
        | unpaired c j x => simp [Emission.alone, Emission.joins, Emission.ids, List.count_singleton]
        | dropped j x =>
            have hne : j ≠ i := by
              rintro rfl
              obtain ⟨e', he', hx, k, hk⟩ := hem
              rw [he] at he'
              cases he'
              exact hstop k (hx ▸ hk)
            simp [Emission.alone, Emission.joins, Emission.ids, hne]
        | paired j x k y =>
            obtain ⟨_, _, _, _, _, _, _, hlt, _⟩ := hem
            have hne : j ≠ k := Nat.ne_of_lt hlt
            simp only [Emission.alone, Emission.joins, Emission.ids, List.count_cons, List.count_nil,
              Bool.or_eq_true, decide_eq_true_eq, beq_iff_eq]
            by_cases h1 : j = i
            · have h2 : k ≠ i := fun h2 => hne (h1.trans h2.symm)
              simp [h1, h2]
            · by_cases h2 : k = i <;> simp [h1, h2]
      omega

theorem sendAll_explained (hstored : ∀ entry ∈ t.entries, Stored R es entry)
    (h : Leaves t gone rest) : ∀ em ∈ R.trace.sendAll gone, em.Explained R cfg es := by
  intro em hem
  obtain ⟨g, hg, rfl⟩ := List.mem_map.mp hem
  exact explained_of_stored (hstored _ (h.mem_gone hg)) g.1

variable [DecidableEq κ]

/-- A step moves one position: what it sends and what it keeps are the positions
the table held and the new one. -/
theorem Step.ids {x : ℕ × α} {now : ℕ} {o : List (Emission α)}
    (h : Step R.trace cfg t x now o t') :
    (o.flatMap Emission.ids ++ openIds t').Perm (openIds t ++ [x.1]) := by
  cases h with
  | immediate hf _ =>
      have hl := openIds_leaves (R := R) hf.leaves
      simp only [List.flatMap_append, List.append_assoc]
      exact (List.perm_append_comm.append_left _).trans
        (by simpa [Rules.trace, Emission.ids] using hl.symm.append_right [x.1])
  | @«open» gone gone' mid rest k hf hr _ =>
      have hl := openIds_leaves (R := R) hf.leaves
      have hl' := openIds_leaves (R := R) hr.leaves
      have hins : openIds (rest.insert k ⟨x, now⟩) = x.1 :: openIds rest := by
        rw [openIds, insert_perm hr.absent]
        rfl
      rw [hins, List.flatMap_append, List.append_assoc]
      have hmid : ((R.trace.sendAll gone').flatMap Emission.ids ++ x.1 :: openIds rest).Perm
          (openIds mid ++ [x.1]) :=
        List.perm_middle.trans ((hl'.symm.cons x.1).trans (List.perm_append_singleton _ _).symm)
      have := (hmid.append_left ((R.trace.sendAll gone).flatMap Emission.ids)).trans
        (.of_eq (List.append_assoc _ _ _).symm)
      exact this.trans (hl.symm.append_right [x.1])
  | @joined gone mid _ k e hf hl hr _ =>
      have hg := openIds_leaves (R := R) hf.leaves
      have hk : (openIds mid).Perm (e.item.1 :: openIds t') := by
        subst hr
        exact (erase_perm hl).map _
      have hsend : ((R.trace.sendAll gone ++ [R.trace.join e.item x]).flatMap Emission.ids) =
          (R.trace.sendAll gone).flatMap Emission.ids ++ [e.item.1, x.1] := by
        rw [List.flatMap_append]
        rfl
      rw [hsend, List.append_assoc]
      have hmid : ([e.item.1, x.1] ++ openIds t').Perm (openIds mid ++ [x.1]) :=
        ((List.perm_append_singleton x.1 (openIds t')).symm.cons e.item.1).trans
          (hk.symm.append_right [x.1])
      exact ((hmid.append_left _).trans (.of_eq (List.append_assoc _ _ _).symm)).trans
        (hg.symm.append_right [x.1])
  | unmatched hf _ _ =>
      have hl := openIds_leaves (R := R) hf.leaves
      simp only [List.flatMap_append, List.append_assoc]
      exact (List.perm_append_comm.append_left _).trans
        (by simpa [Rules.trace, Emission.ids] using hl.symm.append_right [x.1])
  | orphan hf _ _ =>
      have hl := openIds_leaves (R := R) hf.leaves
      simp only [List.flatMap_append, List.append_assoc]
      exact (List.perm_append_comm.append_left _).trans
        (by simpa [Rules.trace, Emission.ids] using hl.symm.append_right [x.1])

theorem Ledger.stored_step (h : Ledger R cfg es out t) {e : Event κ α} {o : List (Emission α)}
    (hs : Step R.trace cfg t (es.length, e.item) e.now o t') :
    ∀ entry ∈ t'.entries, Stored R (es ++ [e]) entry := by
  cases hs with
  | immediate hf ha =>
      intro entry he
      exact (h.stored entry (hf.leaves.mem he)).concat (by
        intro ho
        rw [show R.action e.item = .immediate from ha] at ho
        cases ho)
  | @«open» gone gone' mid rest k hf hr ha =>
      intro entry he
      have ha' : R.action e.item = .open k := ha
      rw [insert_perm hr.absent, List.mem_cons] at he
      rcases he with rfl | he
      · refine ⟨⟨e, by simp, rfl, rfl, ha'⟩, fun m e' hm he' => ?_⟩
        have := (List.getElem?_eq_some_iff.mp he').1
        simp only [List.length_append, List.length_singleton] at this hm
        omega
      · refine (h.stored entry (hf.leaves.mem (hr.leaves.mem he))).concat fun ho => ?_
        rw [ha'] at ho
        have hk : k = entry.1 := Action.open.inj ho
        have hl : rest.lookup entry.1 = some entry.2 := mem_entries_iff.mp he
        exact hr.absent (AList.lookup_isSome.mp (by rw [hk, hl]; rfl))
  | joined hf hl hr ha =>
      intro entry he
      subst hr
      refine (h.stored entry (hf.leaves.mem ((erase_perm hl).mem_iff.mpr (.tail _ he)))).concat
        fun ho => ?_
      rcases ha with ha | ha <;>
      · rw [show R.action e.item = _ from ha] at ho
        cases ho
  | unmatched hf _ ha =>
      intro entry he
      exact (h.stored entry (hf.leaves.mem he)).concat (by
        intro ho
        rw [show R.action e.item = _ from ha] at ho
        cases ho)
  | orphan hf _ ha =>
      intro entry he
      exact (h.stored entry (hf.leaves.mem he)).concat (by
        intro ho
        rw [show R.action e.item = _ from ha] at ho
        cases ho)

theorem Ledger.explained_step (h : Ledger R cfg es out t) {e : Event κ α} {o : List (Emission α)}
    (hs : Step R.trace cfg t (es.length, e.item) e.now o t') :
    ∀ em ∈ o, em.Explained R cfg (es ++ [e]) := by
  have hlast : (es ++ [e])[es.length]? = some e := by simp
  cases hs with
  | immediate hf ha =>
      intro em hem
      rcases List.mem_append.mp hem with hem | hem
      · exact (sendAll_explained h.stored hf.leaves em hem).concat e
      · rw [List.mem_singleton.mp hem]
        exact ⟨e, hlast, rfl, fun k hk => by
          rw [show R.action e.item = .immediate from ha] at hk; cases hk⟩
  | «open» hf hr ha =>
      intro em hem
      rcases List.mem_append.mp hem with hem | hem
      · exact (sendAll_explained h.stored hf.leaves em hem).concat e
      · exact (sendAll_explained (fun entry he => h.stored entry (hf.leaves.mem he))
          hr.leaves em hem).concat e
  | @joined gone mid rest k found hf hl hr ha =>
      intro em hem
      rcases List.mem_append.mp hem with hem | hem
      · exact (sendAll_explained h.stored hf.leaves em hem).concat e
      · rw [List.mem_singleton.mp hem]
        have hmem : (⟨k, found⟩ : Sigma fun _ : κ => Entry (ℕ × α)) ∈ mid.entries :=
          mem_entries_iff.mpr hl
        have hst := h.stored _ (hf.leaves.mem hmem)
        have hlt := hst.lt
        have hyoung := hf.fresh _ hmem
        obtain ⟨e₀, he₀, hitem, hnow, hact⟩ := hst.opener
        refine ⟨k, e₀, e, ?_, hitem, hlast, rfl, hlt, hitem ▸ hact, ha, ?_, fun m e' him hmj hm => ?_⟩
        · rw [List.getElem?_append_left hlt, he₀]
        · simp only [Entry.stale, decide_eq_false_iff_not, Nat.not_le] at hyoung
          rw [hnow]
          exact hyoung
        · rw [List.getElem?_append_left hmj] at hm
          exact hst.latest m e' him hm
  | unmatched hf _ ha =>
      intro em hem
      rcases List.mem_append.mp hem with hem | hem
      · exact (sendAll_explained h.stored hf.leaves em hem).concat e
      · rw [List.mem_singleton.mp hem]
        exact ⟨e, hlast, rfl, fun k hk => by
          rw [show R.action e.item = _ from ha] at hk; cases hk⟩
  | @orphan gone rest k hf _ ha =>
      intro em hem
      rcases List.mem_append.mp hem with hem | hem
      · exact (sendAll_explained h.stored hf.leaves em hem).concat e
      · rw [List.mem_singleton.mp hem]
        exact ⟨e, hlast, rfl, k, ha⟩

/-- One event keeps the ledger. -/
theorem Ledger.step (h : Ledger R cfg es out t) (hcap : 0 < cfg.capacity) {e : Event κ α}
    {o : List (Emission α)} (hs : Step R.trace cfg t (es.length, e.item) e.now o t') :
    Ledger R cfg (es ++ [e]) (out ++ o) t' := by
  refine ⟨?_, h.stored_step hs, fun em hem => ?_, hs.bound hcap h.bound⟩
  · rw [List.flatMap_append, List.append_assoc, List.length_append, List.length_singleton,
      List.range_succ]
    have hids := hs.ids.append_left (out.flatMap Emission.ids)
    rw [← List.append_assoc (out.flatMap Emission.ids) (openIds t)] at hids
    exact hids.trans (h.conserved.append_right [es.length])
  · rcases List.mem_append.mp hem with hem | hem
    · exact (h.explained em hem).concat e
    · exact h.explained_step hs em hem

/-- A traced run goes on with one more event. -/
theorem traceRun_concat (R : Rules κ α β) (cfg : Config) (es : List (Event κ α)) (e : Event κ α) :
    traceRun R cfg (es ++ [e]) =
      ((traceRun R cfg es).1 ++
          (observe R.trace cfg e.ord (traceRun R cfg es).2 (es.length, e.item) e.now).1,
        (observe R.trace cfg e.ord (traceRun R cfg es).2 (es.length, e.item) e.now).2) := by
  simp only [traceRun, tag_concat, run_append, run_cons, run_nil, List.append_nil]

/-- **The ledger of a run.**  It holds after every sequence of events from the
empty table, whatever the iteration orders. -/
theorem traceRun_ledger (R : Rules κ α β) (cfg : Config) (hcap : 0 < cfg.capacity)
    (es : List (Event κ α)) : Ledger R cfg es (traceRun R cfg es).1 (traceRun R cfg es).2 := by
  induction es using List.reverseRecOn with
  | nil => exact ⟨.refl _, by simp [traceRun, tag], by simp [traceRun, tag], Nat.zero_le _⟩
  | append_singleton es e ih =>
      have hs := observe_step R.trace cfg e.ord (traceRun R cfg es).2 (es.length, e.item) e.now
        ih.bound
      rw [traceRun_concat]
      exact ih.step hcap hs

end

end PairBuffer
