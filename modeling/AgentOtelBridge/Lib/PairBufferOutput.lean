import AgentOtelBridge.Lib.PairBuffer

/-!
# What every output of a pairing buffer satisfies

If the items satisfy `P`, and an item that leaves alone is sent out as something
that satisfies `Q`, then all that a run sends out satisfies `Q` exactly when the
items it joins fit together.  Which items a step joins is a matter of the table
before it: `Joins`.
-/

namespace PairBuffer

open FiniteMap

variable {κ α β : Type*} [DecidableEq κ] {R : Rules κ α β} {cfg : Config} {P : α → Prop}
  {Q : β → Prop} {Fits : α → α → Prop} {t : Table κ α}

/-- The item closes an open entry that has not expired. -/
structure Joins (R : Rules κ α β) (cfg : Config) (t : Table κ α) (x : α) (now : ℕ) (e : Entry α) :
    Prop where
  fresh : e.stale cfg.ttl now = false
  stored : ∃ k, (R.action x = .close k ∨ R.action x = .stop k) ∧ t.lookup k = some e

/-- How the outputs of a buffer depend on its items. -/
structure Sound (R : Rules κ α β) (P : α → Prop) (Q : β → Prop) (Fits : α → α → Prop) : Prop where
  single : ∀ cause x, P x → Q (R.single cause x)
  orphan : ∀ x, P x → ∀ b ∈ R.orphan x, Q b
  join : ∀ x y, P x → P y → (Q (R.join x y) ↔ Fits x y)

theorem lookup_fresh {ttl now : ℕ} {k : κ} {e : Entry α} :
    (fresh ttl now t).lookup k = some e ↔ t.lookup k = some e ∧ e.stale ttl now = false := by
  rw [← mem_entries_iff, fresh_entries, List.mem_filter, mem_entries_iff]
  simp

theorem flush_sound (sound : Sound R P Q Fits) (items : ∀ e ∈ t.entries, P e.2.item)
    (ord : IterOrder κ) (ttl now : ℕ) : ∀ b ∈ (flush R ord ttl now t).1, Q b := by
  intro b sent
  obtain ⟨e, passed, rfl⟩ := List.mem_map.mp sent
  exact sound.single _ _ (items e ((ord.iter_perm t).mem_iff.mp (List.mem_filter.mp passed).1))

theorem displace_sound (sound : Sound R P Q Fits) (items : ∀ e ∈ t.entries, P e.2.item) (k : κ) :
    (∀ b ∈ (displace R k t).1, Q b) ∧ ∀ e ∈ (displace R k t).2.entries, P e.2.item := by
  obtain ⟨gone, leaves, sent, -⟩ := displace_leaves R k t
  refine ⟨?_, fun e stays => items e (leaves.mem stays)⟩
  rw [sent]
  intro b sent
  obtain ⟨g, left, rfl⟩ := List.mem_map.mp sent
  exact sound.single _ _ (items _ (leaves.mem_gone left))

theorem evict_sound (sound : Sound R P Q Fits) (items : ∀ e ∈ t.entries, P e.2.item)
    (ord : IterOrder κ) (capacity : ℕ) :
    (∀ b ∈ (evict R ord capacity t).1, Q b) ∧
      ∀ e ∈ (evict R ord capacity t).2.entries, P e.2.item := by
  obtain ⟨gone, leaves, sent, -⟩ := evict_leaves R ord capacity t
  refine ⟨?_, fun e stays => items e (leaves.mem stays)⟩
  rw [sent]
  intro b sent
  obtain ⟨g, left, rfl⟩ := List.mem_map.mp sent
  exact sound.single _ _ (items _ (leaves.mem_gone left))

theorem mem_entries_insert {k : κ} {e : Entry α} {entry : Sigma fun _ : κ => Entry α}
    (stored : entry ∈ (t.insert k e).entries) : entry = ⟨k, e⟩ ∨ entry ∈ t.entries := by
  exact (List.mem_cons.mp stored).imp_right fun old => (List.kerase_sublist k t.entries).subset old

theorem mem_entries_erase {k : κ} {entry : Sigma fun _ : κ => Entry α}
    (stored : entry ∈ (t.erase k).entries) : entry ∈ t.entries :=
  (List.kerase_sublist k t.entries).subset stored

/-- The items of the table stay what they are. -/
theorem observe_items (cfg : Config) (sound : Sound R P Q Fits) (items : ∀ e ∈ t.entries, P e.2.item)
    (ord : IterOrder κ) {x : α} (good : P x) (now : ℕ) :
    ∀ e ∈ (observe R cfg ord t x now).2.entries, P e.2.item := by
  have kept : ∀ e ∈ (fresh cfg.ttl now t).entries, P e.2.item :=
    fun e stays => items e (fresh_subset stays)
  simp only [observe, act, flush]
  generalize fresh cfg.ttl now t = mid at kept
  cases R.action x with
  | immediate => exact kept
  | «open» k =>
      intro entry stored
      rcases mem_entries_insert stored with rfl | stored
      · exact good
      · exact (evict_sound sound (displace_sound sound kept k).2 ord cfg.capacity).2 entry stored
  | close k =>
      simp only
      cases mid.lookup k with
      | none => exact kept
      | some e => exact fun entry stored => kept entry (mem_entries_erase stored)
  | stop k =>
      simp only
      cases mid.lookup k with
      | none => exact kept
      | some e => exact fun entry stored => kept entry (mem_entries_erase stored)

/-- A step sends out what it should exactly when the items it joins fit. -/
theorem observe_sound (cfg : Config) (sound : Sound R P Q Fits) (items : ∀ e ∈ t.entries, P e.2.item)
    (ord : IterOrder κ) {x : α} (good : P x) (now : ℕ) :
    (∀ b ∈ (observe R cfg ord t x now).1, Q b) ↔
      ∀ e, Joins R cfg t x now e → Fits e.item x := by
  have flushed := flush_sound sound items ord cfg.ttl now
  have kept : ∀ e ∈ (fresh cfg.ttl now t).entries, P e.2.item :=
    fun e stays => items e (fresh_subset stays)
  have split : (∀ b ∈ (observe R cfg ord t x now).1, Q b) ↔
      ∀ b ∈ (act R cfg ord (fresh cfg.ttl now t) x now).1, Q b := by
    simp only [observe, List.mem_append, or_imp, forall_and]
    exact ⟨And.right, And.intro flushed⟩
  have joined : ∀ k, R.action x = .close k ∨ R.action x = .stop k → ∀ e : Entry α,
      Joins R cfg t x now e ↔ (fresh cfg.ttl now t).lookup k = some e := by
    intro k closes e
    rw [lookup_fresh]
    constructor
    · rintro ⟨young, k', closes', stored⟩
      have same : k' = k := by
        rcases closes with closes | closes <;> rcases closes' with closes' | closes' <;>
          simp_all
      exact ⟨same ▸ stored, young⟩
    · rintro ⟨stored, young⟩
      exact ⟨young, k, closes, stored⟩
  have alone : (∀ k, R.action x ≠ .close k ∧ R.action x ≠ .stop k) →
      ∀ e, ¬ Joins R cfg t x now e := by
    rintro other e ⟨-, k, closes | closes, -⟩
    · exact (other k).1 closes
    · exact (other k).2 closes
  rw [split]
  generalize fresh cfg.ttl now t = mid at kept joined
  unfold act
  cases action : R.action x with
  | immediate =>
      have none := alone fun k => by simp [action]
      refine ⟨fun _ e joins => absurd joins (none e), fun _ b sent => ?_⟩
      obtain rfl := List.mem_singleton.mp sent
      exact sound.single _ _ good
  | «open» k =>
      have none := alone fun k => by simp [action]
      refine ⟨fun _ e joins => absurd joins (none e), fun _ b sent => ?_⟩
      have displaced := displace_sound sound kept k
      rcases List.mem_append.mp sent with sent | sent
      · exact displaced.1 b sent
      · exact (evict_sound sound displaced.2 ord cfg.capacity).1 b sent
  | close k =>
      have closes := joined k (.inl action)
      simp only [closes]
      cases found : mid.lookup k with
      | none => simpa using sound.single _ _ good
      | some e =>
          have fits := sound.join e.item x (kept ⟨k, e⟩ (mem_entries_iff.mpr found)) good
          simpa using fits
  | stop k =>
      have closes := joined k (.inr action)
      simp only [closes]
      cases found : mid.lookup k with
      | none => simpa using sound.orphan x good
      | some e =>
          have fits := sound.join e.item x (kept ⟨k, e⟩ (mem_entries_iff.mpr found)) good
          simpa using fits

/-- A run sends out what it should exactly when all the items it joins fit. -/
theorem run_sound (cfg : Config) (sound : Sound R P Q Fits) : ∀ (es : List (Event κ α)) {t : Table κ α},
    (∀ e ∈ t.entries, P e.2.item) → (∀ e ∈ es, P e.item) →
      ((∀ b ∈ (run R cfg t es).1, Q b) ↔
        ∀ front e back, es = front ++ e :: back →
          ∀ entry, Joins R cfg (run R cfg t front).2 e.item e.now entry → Fits entry.item e.item) := by
  intro es
  induction es with
  | nil => simp
  | cons first es ih =>
      intro t items good
      have goodFirst := good first (.head _)
      have step := observe_sound cfg sound items first.ord goodFirst first.now
      have rest := ih (observe_items cfg sound items first.ord goodFirst first.now)
        fun e later => good e (.tail _ later)
      simp only [run_cons, List.mem_append, or_imp, forall_and]
      rw [step, rest]
      constructor
      · rintro ⟨now, later⟩ front e back split
        cases front with
        | nil =>
            obtain ⟨rfl, rfl⟩ := List.cons.inj split
            exact now
        | cons _ front =>
            obtain ⟨rfl, tails⟩ := List.cons.inj split
            rw [run_cons]
            exact later front e back tails
      · intro all
        refine ⟨all [] first es rfl, fun front e back split => ?_⟩
        have later := all (first :: front) e back (by rw [split, List.cons_append])
        rwa [run_cons] at later

end PairBuffer
