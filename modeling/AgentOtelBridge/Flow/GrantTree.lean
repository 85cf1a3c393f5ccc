import AgentOtelBridge.Flow.Replay
import AgentOtelBridge.Lib.Allotment

/-!
# The grants above a grant

A grant is below the one that its parent is below (`Below`).  The loop over the ancestors of a
grant ends well only if each of them is active and not expired (`grantAncestors_active`), and
it never takes more turns than there are grants (`grantAncestorsFrom_succ`).

What an event writes of a grant leaves the envelope as it is, so the order of the grants does
not change but at its end.
-/

namespace AgentOtelBridge.Flow

open Checked

variable {host : Host} {grants grants' : List Grant} {g a : Grant} {id p : String}

/-! ## Look-ups and updates -/

theorem mem_of_findGrant (found : findGrant grants id = some g) : g ∈ grants ∧ g.id = id :=
  ⟨List.mem_of_find?_eq_some found, by simpa using List.find?_some found⟩

theorem findGrant_eq_none : findGrant grants id = none ↔ id ∉ grants.map Grant.id := by
  simp [findGrant]

/-- Grants of one name are one grant. -/
theorem eq_of_id (distinct : (grants.map Grant.id).Nodup) (here : g ∈ grants) (there : a ∈ grants)
    (same : g.id = a.id) : g = a :=
  List.inj_on_of_nodup_map distinct here there same

/-- The envelopes of the grants, in their order. -/
def envelopes (grants : List Grant) : List GrantEnvelope := grants.map (·.envelope)

/-- An update that leaves the envelope as it is. -/
def KeepsEnvelope (update : Grant → Grant) : Prop := ∀ g, (update g).envelope = g.envelope

theorem mem_updateGrant {update : Grant → Grant} : g ∈ updateGrant id update grants ↔
    ∃ old ∈ grants, (if old.id = id then update old else old) = g := List.mem_map

theorem envelopes_updateGrant {update : Grant → Grant} (keeps : KeepsEnvelope update) :
    envelopes (updateGrant id update grants) = envelopes grants := by
  rw [envelopes, envelopes, updateGrant, List.map_map]
  refine List.map_congr_left fun g _ => ?_
  simp only [Function.comp_apply]
  split
  · exact keeps g
  · rfl

theorem map_id (grants : List Grant) : grants.map Grant.id = (envelopes grants).map (·.id) := by
  rw [envelopes, List.map_map]
  rfl

/-! ## Ancestors -/

/-- A name is below another when its parents lead there. -/
inductive Below (grants : List Grant) : String → String → Prop where
  | refl (id : String) : Below grants id id
  | up {g : Grant} {p a : String} (member : g ∈ grants) (parent : g.envelope.parentId = some p)
      (above : Below grants p a) : Below grants g.id a

/-- The parents are told by the envelopes alone. -/
theorem Below.of_envelopes {id a : String} (below : Below grants id a)
    (sub : ∀ e ∈ envelopes grants, e ∈ envelopes grants') : Below grants' id a := by
  induction below with
  | refl id => exact .refl id
  | @up g p a member parent _ above =>
      obtain ⟨g', member', same⟩ := List.mem_map.mp (sub _ (List.mem_map_of_mem member))
      have name : g.id = g'.id := congrArg GrantEnvelope.id same.symm
      rw [name]
      exact .up member' (by rw [same, parent]) above

/-- Each parent is there before its child. -/
def Rooted (grants : List Grant) : Prop :=
  ∀ g ∈ grants, ∀ p, g.envelope.parentId = some p → p ∈ grants.map Grant.id

/-- What is above a name that is there is there. -/
theorem Below.mem (rooted : Rooted grants) {id a : String} (below : Below grants id a)
    (here : id ∈ grants.map Grant.id) : a ∈ grants.map Grant.id := by
  induction below with
  | refl => exact here
  | up member parent _ above => exact above (rooted _ member _ parent)

/-- New grants are below no name that was there: the names that were there have the parents that
they had. -/
theorem Below.of_append (rooted : Rooted grants) {more : List Grant}
    (distinct : ((grants ++ more).map Grant.id).Nodup) {id a : String}
    (below : Below (grants ++ more) id a) (here : id ∈ grants.map Grant.id) : Below grants id a := by
  induction below with
  | refl => exact .refl _
  | @up g p a member parent _ above =>
      have old : g ∈ grants := by
        obtain ⟨g', member', same⟩ := List.mem_map.mp here
        have one := eq_of_id distinct (List.mem_append_left more member') member same
        exact one ▸ member'
      exact .up old parent (above (rooted _ old _ parent))

/-- Grants of the same envelopes are below each other as they were. -/
theorem known_of_envelopes (same : envelopes grants' = envelopes grants) {id : String}
    (member : a ∈ grants') (below : Below grants' id a.id) :
    ∃ a' ∈ grants, a'.envelope = a.envelope ∧ Below grants id a.id := by
  have listed : a.envelope ∈ envelopes grants := by
    rw [← same]
    exact List.mem_map_of_mem member
  obtain ⟨a', member', envelope⟩ := List.mem_map.mp listed
  exact ⟨a', member', envelope, below.of_envelopes fun e inside => same ▸ inside⟩

/-- A grant that is issued is above no name that was there. -/
theorem known_of_issued {next : List Grant} {new : Grant} (same : envelopes next = envelopes grants)
    (rooted : Rooted grants) (distinct : ((next ++ [new]).map Grant.id).Nodup) {id : String}
    (here : id ∈ grants.map Grant.id) (member : a ∈ next ++ [new])
    (below : Below (next ++ [new]) id a.id) :
    ∃ a' ∈ grants, a'.envelope = a.envelope ∧ Below grants id a.id := by
  have names : next.map Grant.id = grants.map Grant.id := by rw [map_id, map_id, same]
  have rooted' : Rooted next := by
    intro g inside p parent
    have listed : g.envelope ∈ envelopes grants := by
      rw [← same]
      exact List.mem_map_of_mem inside
    obtain ⟨g', inside', envelope⟩ := List.mem_map.mp listed
    rw [names]
    exact rooted g' inside' p (envelope ▸ parent)
  have old := below.of_append rooted' distinct (names ▸ here)
  have inside : a ∈ next := by
    obtain ⟨a', member', name⟩ := List.mem_map.mp (old.mem rooted' (names ▸ here))
    exact eq_of_id distinct (List.mem_append_left _ member') member name ▸ member'
  exact known_of_envelopes same inside old

/-- The loop over the ancestors of a name has found each of them active and not expired. -/
theorem grantAncestorsFrom_active {atTime : String} (distinct : (grants.map Grant.id).Nodup)
    {id : String} (below : Below grants id a.id) (member : a ∈ grants) :
    ∀ {turns seen list},
      grantAncestorsFrom host grants atTime turns seen (some id) = .ok list →
        a.status = .active ∧ ∃ now expiry, host.timestamp atTime = .ok now ∧
          host.timestamp a.envelope.binding.expiry = .ok expiry ∧ now < expiry := by
  generalize name : a.id = above at below
  induction below with
  | refl id =>
      intro turns seen list found
      cases turns with
      | zero => cases found
      | succ turns =>
          simp only [grantAncestorsFrom, bind_eq_ok, require_eq_ok, given_eq_ok] at found
          obtain ⟨-, -, current, here, -, active, expiry, ends, now, starts, -, later, -⟩ := found
          obtain ⟨inside, named⟩ := mem_of_findGrant here
          obtain rfl := eq_of_id distinct inside member (named.trans name.symm)
          exact ⟨active, now, expiry, starts, ends, later⟩
  | @up g p above inside parent _ ih =>
      intro turns seen list found
      cases turns with
      | zero => cases found
      | succ turns =>
          simp only [grantAncestorsFrom, bind_eq_ok, require_eq_ok, given_eq_ok] at found
          obtain ⟨-, -, current, here, -, -, -, -, -, -, -, -, rest, further, -⟩ := found
          obtain ⟨inside', named⟩ := mem_of_findGrant here
          obtain rfl := eq_of_id distinct inside' inside named
          rw [parent] at further
          exact ih name further

theorem grantAncestors_active {atTime : String} {envelope : GrantEnvelope} {list : List Grant}
    (distinct : (grants.map Grant.id).Nodup) (below : Below grants envelope.id a.id)
    (member : a ∈ grants) (found : grantAncestors host envelope grants atTime = .ok list) :
    a.status = .active ∧ ∃ now expiry, host.timestamp atTime = .ok now ∧
      host.timestamp a.envelope.binding.expiry = .ok expiry ∧ now < expiry :=
  grantAncestorsFrom_active distinct below member found

/-- A loop that has more turns than there are grants that it has not met finds the same with one
turn more: a turn that meets no new grant is the last. -/
theorem grantAncestorsFrom_succ {atTime : String} {turns : Nat} :
    ∀ {seen : List String} {id : Option String}, seen.Nodup → seen ⊆ grants.map Grant.id →
      grants.length < turns + seen.length →
        grantAncestorsFrom host grants atTime (turns + 1) seen id =
          grantAncestorsFrom host grants atTime turns seen id := by
  induction turns with
  | zero =>
      intro seen id distinct sub few
      -- There is no room for a name that was not met.
      have full := (distinct.subperm sub).length_le
      rw [List.length_map] at full
      omega
  | succ turns ih =>
      intro seen id distinct sub few
      cases id with
      | none => rfl
      | some id =>
          rw [grantAncestorsFrom, grantAncestorsFrom]
          by_cases fresh : safeKey id = true ∧ id ∉ seen
          · simp only [require, if_pos fresh, ok_bind]
            cases here : findGrant grants id with
            | none => rfl
            | some g =>
                obtain ⟨inside, named⟩ := mem_of_findGrant here
                have known : id ∈ grants.map Grant.id := named ▸ List.mem_map_of_mem inside
                have next := @ih (id :: seen) g.envelope.parentId (distinct.cons fresh.2)
                  (List.cons_subset.mpr ⟨known, sub⟩) (by rw [List.length_cons]; omega)
                simp only [given, ok_bind, next]
          · simp only [require, if_neg fresh]
            rfl

end AgentOtelBridge.Flow
