import AgentOtelBridge.Flow.GrantBudget

/-!
# Revocation

A revocation is final, and it is for all that is below the grant: from then on nothing is
admitted below it and no grant is issued below it, whatever the run takes (`revocation_final`).
What was admitted before stays.
-/

namespace AgentOtelBridge.Flow

open Checked

variable {host : Host} {s₁ s s' : RunState} {event : RunEvent} {id : String}

/-- The run since a grant was revoked. -/
structure CutSince (id : String) (s₁ s : RunState) : Prop where
  known : id ∈ s.grants.map Grant.id
  revoked : ∀ g ∈ s.grants, g.id = id → g.status = .revoked
  issued : ∀ g ∈ s.grants, Below s.grants g.id id → g.id ∈ s₁.grants.map Grant.id
  admitted : ∃ new, s.admissions = s₁.admissions ++ new ∧
    ∀ x ∈ new, ¬Below s.grants x.grantId id

namespace CutSince

/-- The grants below a revoked grant are refused by the loop over their ancestors. -/
theorem refused (cut : CutSince id s₁ s) (distinct : (s.grants.map Grant.id).Nodup)
    {envelope : GrantEnvelope} {atTime : String} {list : List Grant}
    (found : grantAncestors host envelope s.grants atTime = .ok list) :
    ¬Below s.grants envelope.id id := by
  intro below
  obtain ⟨a, member, rfl⟩ := List.mem_map.mp cut.known
  obtain ⟨active, -⟩ := grantAncestors_active distinct below member found
  rw [cut.revoked a member rfl] at active
  cases active

/-- A step that leaves the envelopes as they are, and revokes at most. -/
theorem of_envelopes (cut : CutSince id s₁ s) {change : Grant → Grant} {name : String}
    (grants : s'.grants = updateGrant name change s.grants)
    (keeps : ∀ g, (change g).envelope = g.envelope)
    (status : ∀ g, g.status = .revoked → (change g).status = .revoked)
    (admissions : ∃ new, s'.admissions = s₁.admissions ++ new ∧
      ∀ x ∈ new, ¬Below s.grants x.grantId id) : CutSince id s₁ s' := by
  have same : envelopes s'.grants = envelopes s.grants := by
    rw [grants]
    exact envelopes_updateGrant keeps
  have below : ∀ {g}, Below s'.grants g id → Below s.grants g id := fun below =>
    below.of_envelopes fun e inside => same ▸ inside
  refine ⟨?_, ?_, ?_, ?_⟩
  · rw [map_id, same, ← map_id]
    exact cut.known
  · intro g member named
    rw [grants] at member
    obtain ⟨old, there, rfl⟩ := mem_updateGrant.mp member
    by_cases here : old.id = name
    · rw [if_pos here] at named ⊢
      have same : (change old).id = old.id := congrArg GrantEnvelope.id (keeps old)
      exact status old (cut.revoked old there (same.symm.trans named))
    · rw [if_neg here] at named ⊢
      exact cut.revoked old there named
  · intro g member under
    obtain ⟨old, there, envelope⟩ := List.mem_map.mp
      (show g.envelope ∈ envelopes s.grants from same ▸ List.mem_map_of_mem member)
    have name : old.id = g.id := congrArg GrantEnvelope.id envelope
    rw [← name] at under ⊢
    exact cut.issued old there (below under)
  · obtain ⟨new, list, free⟩ := admissions
    exact ⟨new, list, fun x inside under => free x inside (below under)⟩

/-- A grant that is issued is not below a revoked one. -/
theorem issue (cut : CutSince id s₁ s) (ledger : Ledger s.grants s.admissions)
    (ledger' : Ledger s'.grants s'.admissions) {e : GrantEnvelope} {next : List Grant}
    (fresh : e.id ∉ s.grants.map Grant.id)
    (reserved : reserveFromParent host s event.timestamp e = .ok next)
    (grants : s'.grants = next ++ [⟨e, event.digest, .active, 0, ⟨0, 0⟩, ⟨0, 0⟩⟩])
    (admissions : s'.admissions = s.admissions) : CutSince id s₁ s' := by
  obtain ⟨reserves, above⟩ := reserves_of_ok ledger.distinct reserved
  have distinct := ledger'.distinct
  have names : next.map Grant.id = s.grants.map Grant.id := by rw [map_id, map_id, reserves.same]
  have other : e.id ≠ id := fun same => fresh (same ▸ cut.known)
  have known : id ∈ s'.grants.map Grant.id := by
    rw [grants, List.map_append, names]
    exact List.mem_append_left _ cut.known
  -- What was there is below the revoked grant only if it was before.
  have below : ∀ {name}, name ∈ s.grants.map Grant.id → Below s'.grants name id →
      Below s.grants name id := by
    intro name here under
    obtain ⟨a, member, rfl⟩ := List.mem_map.mp known
    rw [grants] at member under distinct
    obtain ⟨-, -, -, under⟩ := known_of_issued reserves.same ledger.rooted distinct here member under
    exact under
  -- The new grant is not: its parent would have been refused.
  have outside : ¬Below s'.grants e.id id := by
    intro under
    generalize name : e.id = start at under
    cases under with
    | refl => exact other name
    | @up g p _ member parent rest =>
        have inside : (⟨e, event.digest, .active, 0, ⟨0, 0⟩, ⟨0, 0⟩⟩ : Grant) ∈ s'.grants := by
          rw [grants]
          exact List.mem_append_right _ (List.mem_singleton_self _)
        obtain rfl := eq_of_id distinct inside member name
        obtain ⟨parent', list, found, ancestors⟩ := above p parent
        obtain ⟨there, rfl⟩ := mem_of_findGrant found
        exact cut.refused ledger.distinct ancestors (below (List.mem_map_of_mem there) rest)
  refine ⟨known, ?_, ?_, ?_⟩
  · intro g member named
    rw [grants] at member
    rcases List.mem_append.mp member with old | new
    · obtain ⟨g', there, envelope, status, -⟩ := reserves.counts g old
      have name : g'.id = g.id := congrArg GrantEnvelope.id envelope
      exact status.trans (cut.revoked g' there (name.trans named))
    · rw [List.mem_singleton.mp new] at named
      exact absurd named other
  · intro g member under
    rw [grants] at member
    rcases List.mem_append.mp member with old | new
    · have here : g.id ∈ s.grants.map Grant.id := names ▸ List.mem_map_of_mem old
      obtain ⟨g', there, name⟩ := List.mem_map.mp here
      rw [← name] at here under ⊢
      exact cut.issued g' there (below here under)
    · rw [List.mem_singleton.mp new] at under
      exact absurd under outside
  · obtain ⟨new, list, free⟩ := cut.admitted
    refine ⟨new, admissions.trans list, ?_⟩
    intro x inside under
    have admitted : x ∈ s.admissions := list ▸ List.mem_append_right _ inside
    obtain ⟨e', there, named, -⟩ := ledger.family.admitted x admitted
    have here : x.grantId ∈ s.grants.map Grant.id := by
      rw [map_id, ← named]
      exact List.mem_map_of_mem there
    exact free x inside (below here under)

/-- One step keeps a revoked grant cut off. -/
theorem step (cut : CutSince id s₁ s) (ledger : Ledger s.grants s.admissions)
    (delegated : DelegationStep host s event s') : CutSince id s₁ s' := by
  have ledger' := delegated.ledger ledger
  cases delegated with
  | same grants admissions history =>
      obtain ⟨known, revoked, issued, admitted⟩ := cut
      constructor
      · exact grants ▸ known
      · exact grants ▸ revoked
      · exact grants ▸ issued
      · rw [grants, admissions]
        exact admitted
  | issued e next fresh reserved grants admissions history =>
      exact cut.issue ledger ledger' fresh reserved grants admissions
  | revoked name grants admissions history =>
      refine cut.of_envelopes grants (fun _ => rfl) (fun _ _ => rfl) ?_
      rw [admissions]
      exact cut.admitted
  | admitted g x list member named scope room ancestors fromEvent kind grants admissions history =>
      refine cut.of_envelopes grants (fun _ => rfl) (fun _ status => status) ?_
      obtain ⟨new, before, free⟩ := cut.admitted
      refine ⟨new ++ [x], ?_, ?_⟩
      · rw [admissions, before, List.append_assoc]
      · intro y inside
        rcases List.mem_append.mp inside with old | last
        · exact free y old
        · rw [List.mem_singleton.mp last, ← named]
          exact cut.refused ledger.distinct ancestors

end CutSince

/-- **A revocation is final.**  Whatever a run takes after a grant is revoked, the grant stays
revoked, no grant is issued below it, and what is admitted is not below it. -/
theorem revocation_final {front back : List RunEvent} {s₁ s₂ : RunState} {a : Grant}
    (before : reduceRun host front = .ok (some s₁))
    (after : reduceRun host (front ++ back) = .ok (some s₂))
    (member : a ∈ s₁.grants) (revoked : a.status = .revoked) :
    (∃ g ∈ s₂.grants, g.id = a.id ∧ g.status = .revoked) ∧
      (∀ g ∈ s₂.grants, Below s₂.grants g.id a.id → g.id ∈ s₁.grants.map Grant.id) ∧
        ∃ new, s₂.admissions = s₁.admissions ++ new ∧
          ∀ x ∈ new, ¬Below s₂.grants x.grantId a.id := by
  obtain ⟨r₁, replayed₁, state₁⟩ := replays_of_reduceRun before
  obtain ⟨r₂, replayed₂, state₂⟩ := replays_of_reduceRun after
  have ledger := replayed₁.ledger state₁
  have start : CutSince a.id s₁ s₁ := by
    refine ⟨List.mem_map_of_mem member, ?_, fun g inside _ => List.mem_map_of_mem inside, [], ?_, ?_⟩
    · intro g inside named
      exact eq_of_id ledger.distinct inside member named ▸ revoked
    · rw [List.append_nil]
    · intro x none_
      cases none_
  have both := replayed₁.stable (I := fun s => Ledger s.grants s.admissions ∧ CutSince a.id s₁ s)
    replayed₂ state₁ ⟨ledger, start⟩ ?_ state₂
  · obtain ⟨g, inside, named⟩ := List.mem_map.mp both.2.known
    exact ⟨⟨g, inside, named, both.2.revoked g inside named⟩, both.2.issued, both.2.admitted⟩
  · intro s event _ s' ⟨ledger, cut⟩ _ reduced
    have delegated := delegationStep ledger.distinct reduced
    have cut' := cut.step ledger delegated
    exact ⟨delegated.ledger ledger, cut'.known, cut'.revoked, cut'.issued, cut'.admitted⟩

theorem revocation_final_sample : ∃ s₁ s₂, reduceRun sampleHost sampleRun = .ok (some s₁) ∧
    reduceRun sampleHost (sampleRun ++ [sampleNext]) = .ok (some s₂) ∧
      ∃ a ∈ s₁.grants, a.id = "parent" ∧
        (∃ g ∈ s₂.grants, g.id = a.id ∧ g.status = .revoked) ∧
          (∀ g ∈ s₂.grants, Below s₂.grants g.id a.id → g.id ∈ s₁.grants.map Grant.id) ∧
            ∃ new, s₂.admissions = s₁.admissions ++ new ∧
              ∀ x ∈ new, ¬Below s₂.grants x.grantId a.id := by
  obtain ⟨s₁, s₂, before, shape, after⟩ := sampleRun_reduced
  obtain ⟨a, member, named, revoked, -⟩ := sampleShape_below shape
  exact ⟨s₁, s₂, before, after, a, member, named, revocation_final before after member revoked⟩

end AgentOtelBridge.Flow
