import AgentOtelBridge.Lib.PairBufferIsolation
import AgentOtelBridge.Lib.PairBufferTrace

/-!
# Which events a pairing buffer joins

An entry waits from the event that opens its key to the next event about the key.
When the table has room for all that wait, and nothing that waits grows stale, two
events are joined exactly when one opens a key, the other closes it, and no event
between them is about the key.
-/

namespace PairBuffer

open FiniteMap

variable {κ α β : Type*}

/-! ## Waiting -/

/-- What was stored at a position waits: no later event is about its key, or so late
that it is stale. -/
structure Waits (R : Rules κ α β) (ttl : ℕ) (es : List (Event κ α)) (i : ℕ) (k : κ) (opened : ℕ) :
    Prop where
  other : ∀ m e, i < m → es[m]? = some e → (R.action e.item).key? ≠ some k
  young : ∀ m e, i < m → es[m]? = some e → e.now - opened < ttl

/-- An event opened a key, and what it stored waits. -/
structure Pending (R : Rules κ α β) (ttl : ℕ) (es : List (Event κ α)) (i : ℕ) (e : Event κ α)
    (k : κ) : Prop where
  event : es[i]? = some e
  opens : R.action e.item = .open k
  waits : Waits R ttl es i k e.now

/-- Two events belong together: the first opens a key, the second closes it, and what was
stored waits in between. -/
structure Matched (R : Rules κ α β) (ttl : ℕ) (es : List (Event κ α)) (i : ℕ) (e : Event κ α)
    (j : ℕ) (e' : Event κ α) (k : κ) : Prop where
  pending : Pending R ttl (es.take j) i e k
  event : es[j]? = some e'
  closes : R.action e'.item = .close k ∨ R.action e'.item = .stop k
  young : e'.now - e.now < ttl

section

variable {R : Rules κ α β} {ttl : ℕ} {es : List (Event κ α)} {i : ℕ} {e last : Event κ α} {k : κ}

theorem Pending.lt (h : Pending R ttl es i e k) : i < es.length :=
  (List.getElem?_eq_some_iff.mp h.event).1

/-- What waits goes on waiting when the next event is about another key. -/
theorem Pending.concat (h : Pending R ttl es i e k) (other : (R.action last.item).key? ≠ some k)
    (young : last.now - e.now < ttl) : Pending R ttl (es ++ [last]) i e k := by
  have cases_ : ∀ (m : ℕ) (e' : Event κ α), (es ++ [last])[m]? = some e' → es[m]? = some e' ∨ e' = last := by
    intro m e' at_
    rcases Nat.lt_or_ge m es.length with before | behind
    · exact .inl (by rwa [List.getElem?_append_left before] at at_)
    · rw [List.getElem?_append_right behind] at at_
      exact .inr (List.mem_singleton.mp (List.mem_of_getElem? at_))
  refine ⟨?_, h.opens, fun m e' later at_ => ?_, fun m e' later at_ => ?_⟩
  · rw [List.getElem?_append_left h.lt, h.event]
  · rcases cases_ m e' at_ with at_ | rfl
    · exact h.waits.other m e' later at_
    · exact other
  · rcases cases_ m e' at_ with at_ | rfl
    · exact h.waits.young m e' later at_
    · exact young

theorem pending_last (opens : R.action last.item = .open k) :
    Pending R ttl (es ++ [last]) es.length last k := by
  have none_ : ∀ m (e' : Event κ α), es.length < m → (es ++ [last])[m]? ≠ some e' := by
    intro m e' later at_
    have bound := (List.getElem?_eq_some_iff.mp at_).1
    rw [List.length_append, List.length_singleton] at bound
    omega
  exact ⟨by simp, opens, fun m e' later at_ => absurd at_ (none_ m e' later),
    fun m e' later at_ => absurd at_ (none_ m e' later)⟩

/-- What waits at the end has been waiting. -/
theorem Pending.of_concat (h : Pending R ttl (es ++ [last]) i e k) :
    i = es.length ∧ e = last ∨
      Pending R ttl es i e k ∧ (R.action last.item).key? ≠ some k ∧ last.now - e.now < ttl := by
  have at_last : (es ++ [last])[es.length]? = some last := by simp
  rcases Nat.lt_or_ge i es.length with before | behind
  · refine .inr ⟨⟨?_, h.opens, fun m e' later at_ => ?_, fun m e' later at_ => ?_⟩,
      h.waits.other _ _ before at_last, h.waits.young _ _ before at_last⟩
    · rw [← h.event, List.getElem?_append_left before]
    · refine h.waits.other m e' later ?_
      rw [List.getElem?_append_left (List.getElem?_eq_some_iff.mp at_).1, at_]
    · refine h.waits.young m e' later ?_
      rw [List.getElem?_append_left (List.getElem?_eq_some_iff.mp at_).1, at_]
  · have bound := h.lt
    rw [List.length_append, List.length_singleton] at bound
    obtain rfl : i = es.length := by omega
    exact .inl ⟨rfl, Option.some.inj (h.event.symm.trans at_last)⟩

/-- Two events that belong together do so when more events follow. -/
theorem Matched.concat {j : ℕ} {e' : Event κ α} (h : Matched R ttl es i e j e' k) :
    Matched R ttl (es ++ [last]) i e j e' k := by
  have bound := (List.getElem?_eq_some_iff.mp h.event).1
  refine { h with pending := ?_, event := ?_ }
  · rw [List.take_append_of_le_length (Nat.le_of_lt bound)]
    exact h.pending
  · rw [List.getElem?_append_left bound, h.event]

theorem Matched.of_concat {j : ℕ} {e' : Event κ α} (h : Matched R ttl (es ++ [last]) i e j e' k) :
    Matched R ttl es i e j e' k ∨ j = es.length ∧ e' = last ∧ Pending R ttl es i e k := by
  have bound := (List.getElem?_eq_some_iff.mp h.event).1
  rw [List.length_append, List.length_singleton] at bound
  rcases Nat.lt_or_ge j es.length with before | behind
  · refine .inl { h with pending := ?_, event := ?_ }
    · have taken : (es ++ [last]).take j = es.take j := List.take_append_of_le_length (Nat.le_of_lt before)
      rw [← taken]
      exact h.pending
    · rw [← h.event, List.getElem?_append_left before]
  · obtain rfl : j = es.length := by omega
    refine .inr ⟨rfl, ?_, ?_⟩
    · simpa using h.event.symm
    · have pending := h.pending
      rwa [List.take_left'] at pending
      rfl

end

/-! ## One step -/

section

variable [DecidableEq κ] {R : Rules κ α β} {cfg : Config} {t t' : Table κ α} {x : α} {now : ℕ}
  {out : List β} {entry : Sigma fun _ : κ => Entry α}

omit [DecidableEq κ] in
theorem Flushed.kept {gone : Gone κ α} {rest : Table κ α} {ttl : ℕ}
    (flushed : Flushed ttl now t gone rest) (stored : entry ∈ t.entries)
    (young : entry.2.stale ttl now = false) : entry ∈ rest.entries := by
  rcases List.mem_append.mp (flushed.leaves.mem_iff.mp stored) with left | stays
  · obtain ⟨g, member, rfl⟩ := List.mem_map.mp left
    exact absurd ((flushed.expired g member).2.symm.trans young) (by decide)
  · exact stays

/-- An entry is new, or it was there and the item is about another key. -/
theorem Step.comes (step : Step R cfg t x now out t') (stored : entry ∈ t'.entries) :
    (entry.2 = ⟨x, now⟩ ∧ R.action x = .open entry.1) ∨
      entry ∈ t.entries ∧ entry.2.stale cfg.ttl now = false ∧ (R.action x).key? ≠ some entry.1 := by
  have absent : ∀ {k : κ} {rest : Table κ α}, k ∉ rest → entry ∈ rest.entries → k ≠ entry.1 := by
    rintro k rest absent stored rfl
    have found : rest.lookup entry.1 = some entry.2 := mem_entries_iff.mp stored
    exact absent (AList.lookup_isSome.mp (by rw [found]; rfl))
  cases step with
  | immediate flushed action =>
      refine .inr ⟨flushed.leaves.mem stored, flushed.fresh _ stored, ?_⟩
      rw [action]
      nofun
  | @«open» gone gone' mid rest k flushed room action =>
      rw [insert_perm room.absent, List.mem_cons] at stored
      rcases stored with rfl | stored
      · exact .inl ⟨rfl, action⟩
      · refine .inr ⟨flushed.leaves.mem (room.leaves.mem stored),
          flushed.fresh _ (room.leaves.mem stored), ?_⟩
        rw [action]
        exact fun same => absent room.absent stored (Option.some.inj same)
  | @joined gone mid rest k e flushed found erased action =>
      subst erased
      have there := (erase_perm found).mem_iff.mpr (.tail _ stored)
      refine .inr ⟨flushed.leaves.mem there, flushed.fresh _ there, ?_⟩
      have gone_ : k ∉ mid.erase k := fun member => (AList.mem_erase.mp member).1 rfl
      rcases action with action | action <;>
      · rw [action]
        exact fun same => absent gone_ stored (Option.some.inj same)
  | unmatched flushed none_ action =>
      refine .inr ⟨flushed.leaves.mem stored, flushed.fresh _ stored, ?_⟩
      rw [action]
      exact fun same => absent none_ stored (Option.some.inj same)
  | orphan flushed none_ action =>
      refine .inr ⟨flushed.leaves.mem stored, flushed.fresh _ stored, ?_⟩
      rw [action]
      exact fun same => absent none_ stored (Option.some.inj same)

/-- An entry that is not stale stays, unless the item is about its key or there is no room. -/
theorem Step.stays (step : Step R cfg t x now out t') (stored : entry ∈ t.entries)
    (young : entry.2.stale cfg.ttl now = false) (other : (R.action x).key? ≠ some entry.1)
    (room : ∀ k, R.action x = .open k → t.entries.length < cfg.capacity) : entry ∈ t'.entries := by
  cases step with
  | immediate flushed => exact flushed.kept stored young
  | @«open» gone gone' mid rest k flushed room_ action =>
      have there := flushed.kept stored young
      have space := Nat.lt_of_le_of_lt flushed.leaves.length_le (room k action)
      rw [insert_perm room_.absent, List.mem_cons]
      rcases List.mem_append.mp (room_.leaves.mem_iff.mp there) with left | stays
      · obtain ⟨g, member, rfl⟩ := List.mem_map.mp left
        rcases room_.causes g member with ⟨-, same⟩ | ⟨-, full, -⟩
        · exact absurd (by rw [action, same]; rfl) other
        · omega
      · exact .inr stays
  | @joined gone mid rest k e flushed found erased action =>
      subst erased
      have there := flushed.kept stored young
      rcases List.mem_cons.mp ((erase_perm found).mem_iff.mp there) with rfl | stays
      · rcases action with action | action <;> exact absurd (by rw [action]; rfl) other
      · exact stays
  | unmatched flushed => exact flushed.kept stored young
  | orphan flushed => exact flushed.kept stored young

theorem Step.stores (step : Step R cfg t x now out t') {k : κ} (opens : R.action x = .open k) :
    ⟨k, ⟨x, now⟩⟩ ∈ t'.entries := by
  cases step with
  | @«open» gone gone' mid rest k' flushed room action =>
      obtain rfl := Action.open.inj (opens.symm.trans action)
      rw [insert_perm room.absent]
      exact .head _
  | immediate _ action | unmatched _ _ action | orphan _ _ action =>
      cases opens.symm.trans action
  | joined _ _ _ action => rcases action with action | action <;> cases opens.symm.trans action

/-- An item that closes an entry is joined with it. -/
theorem Step.joins (step : Step R cfg t x now out t') (stored : entry ∈ t.entries)
    (young : entry.2.stale cfg.ttl now = false)
    (closes : R.action x = .close entry.1 ∨ R.action x = .stop entry.1) :
    R.join entry.2.item x ∈ out := by
  have missed : ∀ {rest : Table κ α} {gone : Gone κ α}, Flushed cfg.ttl now t gone rest →
      entry.1 ∈ rest := by
    intro rest gone flushed
    have found : rest.lookup entry.1 = some entry.2 :=
      mem_entries_iff.mp (flushed.kept stored young)
    exact AList.lookup_isSome.mp (by rw [found]; rfl)
  cases step with
  | immediate _ action | «open» _ _ action =>
      rcases closes with closes | closes <;> cases closes.symm.trans action
  | @joined gone mid rest k e flushed found erased action =>
      have there : mid.lookup entry.1 = some entry.2 :=
        mem_entries_iff.mp (flushed.kept stored young)
      have same : k = entry.1 := by
        rcases action with action | action <;> rcases closes with closes | closes <;>
          first
          | exact Action.close.inj (action.symm.trans closes)
          | exact Action.stop.inj (action.symm.trans closes)
          | cases action.symm.trans closes
      rw [same, there] at found
      obtain rfl := Option.some.inj found
      exact List.mem_append_right _ (List.mem_singleton_self _)
  | unmatched flushed none_ action =>
      rcases closes with closes | closes
      · exact absurd (Action.close.inj (closes.symm.trans action) ▸ missed flushed) none_
      · cases closes.symm.trans action
  | orphan flushed none_ action =>
      rcases closes with closes | closes
      · cases closes.symm.trans action
      · exact absurd (Action.stop.inj (closes.symm.trans action) ▸ missed flushed) none_

/-- What a traced step joins was an entry of the key that the item closes. -/
theorem Step.joined_trace {t t' : Table κ (ℕ × α)} {x : ℕ × α} {out : List (Emission α)} {i j : ℕ}
    {y z : α} (step : Step R.trace cfg t x now out t') (sent : .paired i y j z ∈ out) :
    ∃ entry ∈ t.entries, entry.2.item = (i, y) ∧ x = (j, z) ∧
      entry.2.stale cfg.ttl now = false ∧
      (R.action z = .close entry.1 ∨ R.action z = .stop entry.1) := by
  have alone : ∀ gone : Gone κ (ℕ × α), .paired i y j z ∉ R.trace.sendAll gone := by
    intro gone sent
    obtain ⟨g, -, same⟩ := List.mem_map.mp sent
    cases same
  cases step with
  | @immediate gone =>
      rcases List.mem_append.mp sent with sent | sent
      · exact absurd sent (alone gone)
      · cases List.mem_singleton.mp sent
  | @«open» gone gone' =>
      rcases List.mem_append.mp sent with sent | sent
      · exact absurd sent (alone gone)
      · exact absurd sent (alone gone')
  | @joined gone mid rest k e flushed found erased action =>
      rcases List.mem_append.mp sent with sent | sent
      · exact absurd sent (alone gone)
      · have there : (⟨k, e⟩ : Sigma fun _ : κ => Entry (ℕ × α)) ∈ mid.entries :=
          mem_entries_iff.mpr found
        obtain ⟨rfl, rfl, rfl, rfl⟩ := Emission.paired.inj (List.mem_singleton.mp sent)
        exact ⟨⟨k, e⟩, flushed.leaves.mem there, rfl, rfl, flushed.fresh _ there, action⟩
  | @unmatched gone =>
      rcases List.mem_append.mp sent with sent | sent
      · exact absurd sent (alone gone)
      · cases List.mem_singleton.mp sent
  | @orphan gone =>
      rcases List.mem_append.mp sent with sent | sent
      · exact absurd sent (alone gone)
      · cases List.mem_singleton.mp sent

end

/-! ## A run -/

section

variable [DecidableEq κ] {R : Rules κ α β} {cfg : Config} {es : List (Event κ α)}

/-- The table never is full when a key opens. -/
def Roomy (R : Rules κ α β) (cfg : Config) (es : List (Event κ α)) : Prop :=
  ∀ front e back, es = front ++ e :: back → (∃ k, R.action e.item = .open k) →
    (traceRun R cfg front).2.entries.length < cfg.capacity

theorem Roomy.of_concat {last : Event κ α} (roomy : Roomy R cfg (es ++ [last])) :
    Roomy R cfg es ∧
      ((∃ k, R.action last.item = .open k) → (traceRun R cfg es).2.entries.length < cfg.capacity) :=
  ⟨fun front e back split_ => roomy front e (back ++ [last]) (by rw [split_]; simp),
    roomy es last [] rfl⟩

/-- The next step of a traced run. -/
theorem traceRun_step (R : Rules κ α β) {cfg : Config} (positive : 0 < cfg.capacity)
    (es : List (Event κ α)) (last : Event κ α) :
    Step R.trace cfg (traceRun R cfg es).2 (es.length, last.item) last.now
      (observe R.trace cfg last.ord (traceRun R cfg es).2 (es.length, last.item) last.now).1
      (traceRun R cfg (es ++ [last])).2 := by
  rw [traceRun_concat]
  exact observe_step _ _ _ _ _ _ (traceRun_ledger R cfg positive es).bound

/-- What a table holds waits. -/
theorem traceRun_pending (R : Rules κ α β) {cfg : Config} (positive : 0 < cfg.capacity)
    (es : List (Event κ α)) : ∀ entry ∈ (traceRun R cfg es).2.entries, ∃ e,
      Pending R cfg.ttl es entry.2.item.1 e entry.1 ∧ e.item = entry.2.item.2 ∧
        e.now = entry.2.opened := by
  induction es using List.reverseRecOn with
  | nil => simp [traceRun, tag]
  | append_singleton es last ih =>
      intro entry stored
      rcases (traceRun_step R positive es last).comes stored with ⟨same, opens⟩ | ⟨there, young, other⟩
      · rw [same]
        exact ⟨last, pending_last opens, rfl, rfl⟩
      · obtain ⟨e, pending, item, now⟩ := ih entry there
        refine ⟨e, pending.concat other ?_, item, now⟩
        simpa [Entry.stale, now] using young

/-- With room for all of it, a table holds what waits. -/
theorem traceRun_holds (positive : 0 < cfg.capacity) (roomy : Roomy R cfg es) {i : ℕ}
    {e : Event κ α} {k : κ} (pending : Pending R cfg.ttl es i e k) :
    ⟨k, ⟨(i, e.item), e.now⟩⟩ ∈ (traceRun R cfg es).2.entries := by
  induction es using List.reverseRecOn with
  | nil => exact absurd pending.lt (Nat.not_lt_zero i)
  | append_singleton es last ih =>
      have step := traceRun_step R positive es last
      obtain ⟨roomy, space⟩ := roomy.of_concat
      rcases pending.of_concat with ⟨rfl, rfl⟩ | ⟨before, other, young⟩
      · exact step.stores pending.opens
      · refine step.stays (ih roomy before) ?_ other fun k opens => space ⟨k, opens⟩
        simpa [Entry.stale] using young

/-- Two events that are joined belong together. -/
theorem matched_of_paired (positive : 0 < cfg.capacity) {i j : ℕ} {x y : α}
    (sent : .paired i x j y ∈ (traceRun R cfg es).1) :
    ∃ k e e', Matched R cfg.ttl es i e j e' k ∧ e.item = x ∧ e'.item = y := by
  induction es using List.reverseRecOn with
  | nil => simp [traceRun, tag] at sent
  | append_singleton es last ih =>
      rw [traceRun_concat] at sent
      rcases List.mem_append.mp sent with sent | sent
      · obtain ⟨k, e, e', matched, first, second⟩ := ih sent
        exact ⟨k, e, e', matched.concat, first, second⟩
      · obtain ⟨entry, stored, item, position, young, closes⟩ :=
          (traceRun_step R positive es last).joined_trace sent
        obtain ⟨e, pending, item', now⟩ := traceRun_pending R positive es entry stored
        obtain ⟨rfl, rfl⟩ := Prod.mk.inj position
        rw [item] at pending item'
        refine ⟨entry.1, e, last, ⟨?_, by simp, closes, ?_⟩, item', rfl⟩
        · rwa [List.take_left' rfl]
        · simpa [Entry.stale, now] using young

/-- **With room for all that waits**, two events are joined exactly when they belong
together. -/
theorem paired_iff (positive : 0 < cfg.capacity) (roomy : Roomy R cfg es) {i j : ℕ} {x y : α} :
    .paired i x j y ∈ (traceRun R cfg es).1 ↔
      ∃ k e e', Matched R cfg.ttl es i e j e' k ∧ e.item = x ∧ e'.item = y := by
  refine ⟨matched_of_paired positive, ?_⟩
  rintro ⟨k, e, e', matched, rfl, rfl⟩
  induction es using List.reverseRecOn with
  | nil => exact absurd matched.pending.lt (by simp)
  | append_singleton es last ih =>
      obtain ⟨before, space⟩ := roomy.of_concat
      rw [traceRun_concat]
      rcases matched.of_concat with earlier | ⟨rfl, rfl, pending⟩
      · exact List.mem_append_left _ (ih before earlier)
      · refine List.mem_append_right _ ((traceRun_step R positive es e').joins
          (traceRun_holds positive before pending) ?_ matched.closes)
        simpa [Entry.stale] using matched.young

end

end PairBuffer
