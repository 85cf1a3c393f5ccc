import AgentOtelBridge.Flow.GrantTree

/-!
# The ledger of the grants

Attempts and external effects are counted in the same way (`Counter`).  Of each grant a run
keeps what was used under it, and what was reserved for its children.  The ledger of a run
says that both counts are true, and that together they are within the limit of the grant
(`Ledger`).  It also says that a child narrows its parent, and that each admission is in the
scope of its grant.

Every event keeps the ledger (`Replays.ledger`).
-/

namespace AgentOtelBridge.Flow

open Checked

variable {host : Host} {s s' : RunState} {event : RunEvent} {grants : List Grant} {g : Grant}

/-! ## Counters -/

inductive Counter where
  | attempts
  | externalEffects

namespace Counter

def of : Counter → GrantBudget → Nat
  | attempts, budget => budget.attempts
  | externalEffects, budget => budget.externalEffects

def limit : Counter → GrantIntent → Nat
  | attempts, intent => intent.maxAttempts
  | externalEffects, intent => intent.maxExternalEffects

/-- What an action costs. -/
def cost : Counter → String → Nat
  | attempts, _ => 1
  | externalEffects, action => if isExternal action then 1 else 0

theorem of_use (c : Counter) (budget : GrantBudget) (action : String) :
    c.of (budget.use action) = c.of budget + c.cost action := by
  cases c <;> rfl

theorem of_zero (c : Counter) : c.of ⟨0, 0⟩ = 0 := by
  cases c <;> rfl

/-- What the children of a grant were given. -/
def given (c : Counter) (list : List GrantEnvelope) (id : String) : Nat :=
  ((list.filter fun e => e.parentId = some id).map fun e => c.limit e.binding.toGrantIntent).sum

/-- What the admissions under a grant cost. -/
def spent (c : Counter) (admissions : List Admission) (id : String) : Nat :=
  ((admissions.filter fun x => x.grantId = id).map fun x => c.cost x.operation.action).sum

theorem given_append (c : Counter) (list : List GrantEnvelope) (e : GrantEnvelope) (id : String) :
    c.given (list ++ [e]) id =
      c.given list id + if e.parentId = some id then c.limit e.binding.toGrantIntent else 0 := by
  rw [given, given, List.filter_append, List.map_append, List.sum_append, List.filter_singleton]
  split <;> simp_all

theorem spent_append (c : Counter) (admissions : List Admission) (x : Admission) (id : String) :
    c.spent (admissions ++ [x]) id =
      c.spent admissions id + if x.grantId = id then c.cost x.operation.action else 0 := by
  rw [spent, spent, List.filter_append, List.map_append, List.sum_append, List.filter_singleton]
  split <;> simp_all

/-- A name that no grant has as its parent was given nothing. -/
theorem given_eq_zero (c : Counter) {list : List GrantEnvelope} {id : String}
    (none_ : ∀ e ∈ list, e.parentId ≠ some id) : c.given list id = 0 := by
  rw [given, List.filter_eq_nil_iff.mpr fun e member => by simpa using none_ e member]
  rfl

theorem spent_eq_zero (c : Counter) {admissions : List Admission} {id : String}
    (none_ : ∀ x ∈ admissions, x.grantId ≠ id) : c.spent admissions id = 0 := by
  rw [spent, List.filter_eq_nil_iff.mpr fun x member => by simpa using none_ x member]
  rfl

end Counter

/-! ## Scopes -/

/-- A child narrows its parent. -/
structure Narrows (child parent : GrantIntent) : Prop where
  planDigest : child.planDigest = parent.planDigest
  policyDigest : child.policyDigest = parent.policyDigest
  repository : child.repository = parent.repository
  base : child.base = parent.base
  delegate : child.delegate = parent.delegate
  actions : child.allowedActions ⊆ parent.allowedActions
  capabilities : child.capabilities ⊆ parent.capabilities
  paths : ∀ p ∈ child.allowedPaths, ∃ q ∈ parent.allowedPaths, patternSubset p q = true
  checks : parent.requiredChecks ⊆ child.requiredChecks
  review : parent.reviewPolicy = "human" → child.reviewPolicy = "human"

/-- An operation is what a grant allows, and its candidate was checked and reviewed. -/
structure InScope (b : GrantIntent) (op : Operation) : Prop where
  planDigest : op.planDigest = b.planDigest
  policyDigest : op.policyDigest = b.policyDigest
  repository : op.repository = b.repository
  base : op.base = b.base
  delegate : op.delegate = b.delegate
  action : op.action ∈ b.allowedActions
  capabilities : op.capabilities ⊆ b.capabilities
  paths : ∀ p ∈ op.paths, pathMatches p b.allowedPaths = true
  checks : ∀ name ∈ b.requiredChecks, ∃ c ∈ op.checks,
    c.name = name ∧ c.outcome = "pass" ∧ c.candidateDigest = op.candidateDigest
  review : ∃ review ∈ op.review.toList, review.outcome = "pass" ∧
    review.candidateDigest = op.candidateDigest ∧ (b.reviewPolicy = "human" → review.policy = "human")

/-- A path that a narrower pattern matches is matched by the wider one. -/
theorem pathMatches_of_subset {path : String} {child parent : List String}
    (narrower : ∀ p ∈ child, ∃ q ∈ parent, patternSubset p q = true)
    (matched : pathMatches path child = true) : pathMatches path parent = true := by
  simp only [pathMatches, Bool.and_eq_true, List.any_eq_true] at matched ⊢
  obtain ⟨safe, p, member, matched⟩ := matched
  obtain ⟨q, there, wider⟩ := narrower p member
  refine ⟨safe, q, there, ?_⟩
  simp only [patternSubset, Bool.or_eq_true, decide_eq_true_eq, Bool.and_eq_true] at wider
  rcases wider with rfl | ⟨star, start⟩
  · exact matched
  rw [if_pos star, List.isPrefixOf_iff_prefix]
  rw [List.isPrefixOf_iff_prefix] at start
  split at matched
  next starred =>
    -- The star of the child is behind the directory of the parent.
    have further := List.isPrefixOf_iff_prefix.mp matched
    refine List.IsPrefix.trans ?_ further
    obtain ⟨front, whole⟩ := List.isSuffixOf_iff_suffix.mp star
    obtain ⟨front', whole'⟩ := List.isSuffixOf_iff_suffix.mp starred
    have stars : "/*".toList = ['/', '*'] := by decide
    rw [stars] at whole whole'
    have ends : q.toList.dropLast = front ++ ['/'] := by rw [← whole]; simp
    have ends' : p.toList.dropLast = front' ++ ['/'] := by rw [← whole']; simp
    rw [ends] at start ⊢
    rw [ends']
    rw [← whole'] at start
    have split : front' ++ ['/', '*'] = (front' ++ ['/']) ++ ['*'] := by simp
    rw [split, List.prefix_concat_iff] at start
    rcases start with same | shorter
    · have last := congrArg List.getLast? same
      simp at last
    · exact shorter
  next plain =>
    rw [decide_eq_true_eq] at matched
    exact matched ▸ start

theorem InScope.of_narrows {child parent : GrantIntent} {op : Operation} (scope : InScope child op)
    (narrows : Narrows child parent) : InScope parent op where
  planDigest := scope.planDigest.trans narrows.planDigest
  policyDigest := scope.policyDigest.trans narrows.policyDigest
  repository := scope.repository.trans narrows.repository
  base := scope.base.trans narrows.base
  delegate := scope.delegate.trans narrows.delegate
  action := narrows.actions scope.action
  capabilities := List.Subset.trans scope.capabilities narrows.capabilities
  paths := fun p member => pathMatches_of_subset narrows.paths (scope.paths p member)
  checks := fun name member => scope.checks name (narrows.checks member)
  review := by
    obtain ⟨review, member, passed, candidate, human⟩ := scope.review
    exact ⟨review, member, passed, candidate, fun strict => human (narrows.review strict)⟩

/-- What `validateChild` has checked. -/
theorem narrows_of_validateChild {request : GrantRequest} {parent : GrantEnvelope}
    (valid : validateChild host request parent = .ok ()) :
    Narrows request.toGrantIntent parent.binding.toGrantIntent := by
  simp only [validateChild, bind_eq_ok, require_eq_ok, forM_eq_ok] at valid
  obtain ⟨-, -, -, fixed, -, narrowed, -, paths, -, ⟨checks, review⟩, -⟩ := valid
  simp only [fixedFields, List.forall_mem_cons] at fixed
  simp only [narrowedFields, List.forall_mem_cons] at narrowed
  obtain ⟨plan, policy, repository, base, delegate, -⟩ := fixed
  obtain ⟨actions, capabilities, -⟩ := narrowed
  exact ⟨plan, policy, repository, base, delegate, actions, capabilities, paths, checks, review⟩

theorem normalizeOperation_eq {op op' : Operation} (normal : normalizeOperation op = .ok op') :
    op' = op := by
  simp only [normalizeOperation, bind_eq_ok, pure_eq_ok] at normal
  obtain ⟨-, -, -, -, -, -, -, -, -, -, -, -, -, -, -, -, -, -, -, -, -, -, -, -, -, -, same⟩ := normal
  exact same.symm

/-- What `resolveGrant` has checked of an operation. -/
theorem inScope_of_resolveGrant {presented : GrantEnvelope} {op op' : Operation}
    {atTime digest : String} (admitted : resolveGrant host presented s op atTime = .ok (op', digest)) :
    op' = op ∧ ∃ g, findGrant s.grants presented.id = some g ∧
      InScope g.envelope.binding.toGrantIntent op ∧
      (∃ list, grantAncestors host g.envelope s.grants atTime = .ok list) ∧
      ∀ c : Counter, c.cost op.action = 0 ∨
        c.of g.budgetUsed + c.of g.budgetReserved + c.cost op.action ≤
          c.limit g.envelope.binding.toGrantIntent := by
  simp only [resolveGrant, bind_eq_ok, require_eq_ok, given_eq_ok, forM_eq_ok, pure_eq_ok,
    Prod.mk.injEq] at admitted
  obtain ⟨g, found, -, -, -, -, list, ancestors, op₁, normal, -, scope, -, -, -,
    ⟨action, -, capabilities⟩, -, paths, -, checks, -, review, -, attempts, -, external, rfl, -⟩ :=
    admitted
  obtain rfl := normalizeOperation_eq normal
  simp only [scopeFields, List.forall_mem_cons] at scope
  obtain ⟨plan, policy, repository, base, delegate, -⟩ := scope
  refine ⟨rfl, g, found, ⟨plan, policy, repository, base, delegate, action, capabilities, paths,
    checks, ?_⟩, ⟨list, ancestors⟩, ?_⟩
  · obtain ⟨review, member, passed, named, candidate⟩ := review
    exact ⟨review, member, passed, candidate, fun human => named.trans human⟩
  · intro c
    cases c with
    | attempts => exact .inr attempts
    | externalEffects =>
        cases outside : isExternal op₁.action with
        | false => exact .inl (by simp [Counter.cost, outside])
        | true =>
            have room := external outside
            refine .inr ?_
            simp only [Counter.of, Counter.cost, Counter.limit, outside, if_true]
            omega

/-! ## The ledger -/

/-- The grants of a run and the admissions under them. -/
structure Family (list : List GrantEnvelope) (admissions : List Admission) : Prop where
  distinct : (list.map (·.id)).Nodup
  parents : ∀ e ∈ list, ∀ p, e.parentId = some p →
    ∃ parent ∈ list, parent.id = p ∧ Narrows e.binding.toGrantIntent parent.binding.toGrantIntent
  admitted : ∀ x ∈ admissions,
    ∃ e ∈ list, e.id = x.grantId ∧ InScope e.binding.toGrantIntent x.operation

/-- The counts of the grants are true and within the limits. -/
structure Ledger (grants : List Grant) (admissions : List Admission) : Prop where
  family : Family (envelopes grants) admissions
  reserved : ∀ c : Counter, ∀ g ∈ grants, c.of g.budgetReserved = c.given (envelopes grants) g.id
  used : ∀ c : Counter, ∀ g ∈ grants, c.of g.budgetUsed = c.spent admissions g.id
  within : ∀ c : Counter, ∀ g ∈ grants,
    c.of g.budgetUsed + c.of g.budgetReserved ≤ c.limit g.envelope.binding.toGrantIntent

namespace Ledger

variable {admissions : List Admission}

theorem nil : Ledger [] [] where
  family := ⟨List.nodup_nil, fun _ none_ => absurd none_ List.not_mem_nil,
    fun _ none_ => absurd none_ List.not_mem_nil⟩
  reserved := fun _ _ none_ => absurd none_ List.not_mem_nil
  used := fun _ _ none_ => absurd none_ List.not_mem_nil
  within := fun _ _ none_ => absurd none_ List.not_mem_nil

theorem distinct (ledger : Ledger grants admissions) : (grants.map Grant.id).Nodup := by
  rw [map_id]
  exact ledger.family.distinct

theorem rooted (ledger : Ledger grants admissions) : Rooted grants := by
  intro g member p parent
  obtain ⟨e, there, named, -⟩ := ledger.family.parents g.envelope (List.mem_map_of_mem member) p parent
  rw [map_id]
  exact List.mem_map.mpr ⟨e, there, named⟩

/-- A grant that is issued is counted against its parent, and starts with nothing used. -/
theorem issue (ledger : Ledger grants admissions) {e : GrantEnvelope} {revision : String}
    {next : List Grant} (fresh : e.id ∉ grants.map Grant.id)
    (parents : ∀ p, e.parentId = some p → ∃ parent ∈ envelopes grants, parent.id = p ∧
      Narrows e.binding.toGrantIntent parent.binding.toGrantIntent)
    (same : envelopes next = envelopes grants)
    (counts : ∀ g ∈ next, ∃ old ∈ grants, old.envelope = g.envelope ∧
      g.budgetUsed = old.budgetUsed ∧ ∀ c : Counter,
        c.of g.budgetReserved = c.of old.budgetReserved +
            (if e.parentId = some g.id then c.limit e.binding.toGrantIntent else 0) ∧
          c.of g.budgetUsed + c.of g.budgetReserved ≤ c.limit g.envelope.binding.toGrantIntent) :
    Ledger (next ++ [⟨e, revision, .active, 0, ⟨0, 0⟩, ⟨0, 0⟩⟩]) admissions := by
  have list : envelopes (next ++ [⟨e, revision, .active, 0, ⟨0, 0⟩, ⟨0, 0⟩⟩]) =
      envelopes grants ++ [e] := by rw [← same]; simp [envelopes]
  rw [map_id] at fresh
  have noChild : ∀ e' ∈ envelopes grants ++ [e], e'.parentId ≠ some e.id := by
    intro e' member parent
    have known : ∃ parent ∈ envelopes grants, parent.id = e.id := by
      rcases List.mem_append.mp member with old | new
      · obtain ⟨parent, there, named, -⟩ := ledger.family.parents e' old _ parent
        exact ⟨parent, there, named⟩
      · rw [List.mem_singleton.mp new] at parent
        obtain ⟨parent, there, named, -⟩ := parents _ parent
        exact ⟨parent, there, named⟩
    obtain ⟨parent, there, named⟩ := known
    exact fresh (named ▸ List.mem_map_of_mem there)
  have unused : ∀ x ∈ admissions, x.grantId ≠ e.id := by
    intro x member named
    obtain ⟨e', there, same', -⟩ := ledger.family.admitted x member
    exact fresh (named ▸ same' ▸ List.mem_map_of_mem there)
  refine ⟨?_, ?_, ?_, ?_⟩
  · rw [list]
    refine ⟨?_, ?_, ?_⟩
    · rw [List.map_append, List.map_singleton]
      exact List.nodup_append.mpr ⟨ledger.family.distinct, List.nodup_singleton _,
        fun id old id' new => by
          rw [List.mem_singleton.mp new]
          exact fun eq => fresh (eq ▸ old)⟩
    · intro e' member p parent
      rcases List.mem_append.mp member with old | new
      · obtain ⟨parent, there, rest⟩ := ledger.family.parents e' old p parent
        exact ⟨parent, List.mem_append_left _ there, rest⟩
      · rw [List.mem_singleton.mp new] at parent ⊢
        obtain ⟨parent, there, rest⟩ := parents p parent
        exact ⟨parent, List.mem_append_left _ there, rest⟩
    · intro x member
      obtain ⟨e', there, rest⟩ := ledger.family.admitted x member
      exact ⟨e', List.mem_append_left _ there, rest⟩
  · intro c g member
    rw [list]
    rcases List.mem_append.mp member with old | new
    · obtain ⟨before, there, envelope, -, counted⟩ := counts g old
      have name : before.id = g.id := congrArg GrantEnvelope.id envelope
      rw [(counted c).1, ledger.reserved c before there, Counter.given_append, name]
    · rw [List.mem_singleton.mp new]
      exact (c.of_zero).trans (c.given_eq_zero noChild).symm
  · intro c g member
    rcases List.mem_append.mp member with old | new
    · obtain ⟨before, there, envelope, used, -⟩ := counts g old
      have name : before.id = g.id := congrArg GrantEnvelope.id envelope
      rw [used, ledger.used c before there, name]
    · rw [List.mem_singleton.mp new]
      exact (c.of_zero).trans (c.spent_eq_zero unused).symm
  · intro c g member
    rcases List.mem_append.mp member with old | new
    · obtain ⟨before, there, envelope, used, counted⟩ := counts g old
      exact (counted c).2
    · rw [List.mem_singleton.mp new, c.of_zero]
      exact Nat.zero_le _

/-- An update that leaves the counts as they are. -/
theorem update (ledger : Ledger grants admissions) (id : String) {change : Grant → Grant}
    (keeps : ∀ g, (change g).envelope = g.envelope ∧ (change g).budgetUsed = g.budgetUsed ∧
      (change g).budgetReserved = g.budgetReserved) :
    Ledger (updateGrant id change grants) admissions := by
  have same : envelopes (updateGrant id change grants) = envelopes grants :=
    envelopes_updateGrant fun g => (keeps g).1
  have old : ∀ g ∈ updateGrant id change grants, ∃ before ∈ grants, g.envelope = before.envelope ∧
      g.budgetUsed = before.budgetUsed ∧ g.budgetReserved = before.budgetReserved := by
    intro g member
    obtain ⟨before, there, rfl⟩ := mem_updateGrant.mp member
    refine ⟨before, there, ?_⟩
    split
    · exact keeps before
    · exact ⟨rfl, rfl, rfl⟩
  refine ⟨by rw [same]; exact ledger.family, ?_, ?_, ?_⟩
  · intro c g member
    obtain ⟨before, there, envelope, -, reserved⟩ := old g member
    rw [reserved, ledger.reserved c before there, same, Grant.id, Grant.id, envelope]
  · intro c g member
    obtain ⟨before, there, envelope, used, -⟩ := old g member
    rw [used, ledger.used c before there, Grant.id, Grant.id, envelope]
  · intro c g member
    obtain ⟨before, there, envelope, used, reserved⟩ := old g member
    rw [used, reserved, envelope]
    exact ledger.within c before there

/-- An admission is counted under its grant. -/
theorem admitted (ledger : Ledger grants admissions) {x : Admission} {g : Grant} (member : g ∈ grants)
    (named : g.id = x.grantId) (scope : InScope g.envelope.binding.toGrantIntent x.operation)
    (room : ∀ c : Counter, c.cost x.operation.action = 0 ∨
      c.of g.budgetUsed + c.of g.budgetReserved + c.cost x.operation.action ≤
        c.limit g.envelope.binding.toGrantIntent) :
    Ledger (updateGrant x.grantId
      (fun g => { g with budgetUsed := g.budgetUsed.use x.operation.action }) grants)
        (admissions ++ [x]) := by
  have same : envelopes (updateGrant x.grantId
      (fun g => { g with budgetUsed := g.budgetUsed.use x.operation.action }) grants) =
        envelopes grants := envelopes_updateGrant fun _ => rfl
  refine ⟨?_, ?_, ?_, ?_⟩
  · rw [same]
    refine ⟨ledger.family.distinct, ledger.family.parents, ?_⟩
    intro y inside
    rcases List.mem_append.mp inside with old | new
    · exact ledger.family.admitted y old
    · rw [List.mem_singleton.mp new]
      exact ⟨g.envelope, List.mem_map_of_mem member, named, scope⟩
  · intro c g' inside
    obtain ⟨before, there, rfl⟩ := mem_updateGrant.mp inside
    rw [same]
    split
    · exact ledger.reserved c before there
    · exact ledger.reserved c before there
  · intro c g' inside
    obtain ⟨before, there, rfl⟩ := mem_updateGrant.mp inside
    rw [Counter.spent_append]
    split
    next here =>
      rw [c.of_use, ledger.used c before there]
      exact congrArg _ (if_pos here.symm).symm
    next other =>
      rw [if_neg (Ne.symm other), Nat.add_zero]
      exact ledger.used c before there
  · intro c g' inside
    obtain ⟨before, there, rfl⟩ := mem_updateGrant.mp inside
    have before_ := ledger.within c before there
    split
    next here =>
      obtain rfl := eq_of_id ledger.distinct there member (here.trans named.symm)
      rw [c.of_use]
      rcases room c with free | room
      · rw [free]
        exact before_
      · exact (Nat.add_right_comm _ _ _).trans_le room
    next other => exact before_

end Ledger

/-! ## What an event does to the grants -/

/-- The grants behind the reservation for a child. -/
structure Reserves (grants : List Grant) (e : GrantEnvelope) (next : List Grant) : Prop where
  parents : ∀ p, e.parentId = some p → ∃ parent ∈ envelopes grants, parent.id = p ∧
    Narrows e.binding.toGrantIntent parent.binding.toGrantIntent
  same : envelopes next = envelopes grants
  counts : ∀ g ∈ next, ∃ old ∈ grants, old.envelope = g.envelope ∧ g.status = old.status ∧
    g.budgetUsed = old.budgetUsed ∧ ∀ c : Counter,
      c.of g.budgetReserved = c.of old.budgetReserved +
          (if e.parentId = some g.id then c.limit e.binding.toGrantIntent else 0) ∧
        (c.of old.budgetUsed + c.of old.budgetReserved ≤
            c.limit old.envelope.binding.toGrantIntent →
          c.of g.budgetUsed + c.of g.budgetReserved ≤ c.limit g.envelope.binding.toGrantIntent)

/-- What `reserveFromParent` gives. -/
theorem reserves_of_ok {atTime : String} {e : GrantEnvelope} {next : List Grant}
    (distinct : (s.grants.map Grant.id).Nodup)
    (reserved : reserveFromParent host s atTime e = .ok next) :
    Reserves s.grants e next ∧ ∀ p, e.parentId = some p →
      ∃ parent list, findGrant s.grants p = some parent ∧
        grantAncestors host parent.envelope s.grants atTime = .ok list := by
  unfold reserveFromParent at reserved
  cases parent_ : e.parentId with
  | none =>
      rw [parent_] at reserved
      obtain rfl := pure_eq_ok.mp reserved
      have root : Reserves s.grants e s.grants := by
        refine ⟨?_, rfl, ?_⟩
        · intro p some_
          rw [parent_] at some_
          cases some_
        · intro g member
          refine ⟨g, member, rfl, rfl, rfl, fun c => ⟨?_, id⟩⟩
          rw [parent_, if_neg (by simp), Nat.add_zero]
      refine ⟨root, ?_⟩
      intro p none_
      cases none_
  | some p =>
      simp only [parent_, bind_eq_ok, require_eq_ok, given_eq_ok, pure_eq_ok] at reserved
      obtain ⟨-, -, parent, found, list, ancestors, ⟨⟩, valid, -, attempts, -, external, rfl⟩ := reserved
      obtain ⟨inside, named⟩ := mem_of_findGrant found
      have room : ∀ c : Counter, c.of parent.budgetUsed + c.of parent.budgetReserved +
          c.limit e.binding.toGrantIntent ≤ c.limit parent.envelope.binding.toGrantIntent := by
        intro c
        cases c with
        | attempts => exact attempts
        | externalEffects => exact external
      have below : Reserves s.grants e (updateGrant p (fun g => { g with
          budgetReserved :=
            ⟨g.budgetReserved.attempts + e.binding.maxAttempts,
              g.budgetReserved.externalEffects + e.binding.maxExternalEffects⟩ }) s.grants) := by
        refine ⟨?_, envelopes_updateGrant fun _ => rfl, ?_⟩
        · intro p' same
          obtain rfl := Option.some.inj (parent_.symm.trans same)
          exact ⟨parent.envelope, List.mem_map_of_mem inside, named, narrows_of_validateChild valid⟩
        · intro g member
          obtain ⟨old, there, rfl⟩ := mem_updateGrant.mp member
          refine ⟨old, there, ?_⟩
          rw [parent_]
          split
          next here =>
            obtain rfl := eq_of_id distinct there inside (here.trans named.symm)
            refine ⟨rfl, rfl, rfl, fun c => ⟨?_, fun _ => ?_⟩⟩
            · have name : some p = some old.id := congrArg some here.symm
              cases c with
              | attempts => simp [Counter.of, Counter.limit, Grant.id, name]
              | externalEffects => simp [Counter.of, Counter.limit, Grant.id, name]
            · have fits := room c
              cases c with
              | attempts => simpa [Counter.of, Counter.limit, Nat.add_assoc] using fits
              | externalEffects => simpa [Counter.of, Counter.limit, Nat.add_assoc] using fits
          next other =>
            refine ⟨rfl, rfl, rfl, fun c => ⟨?_, id⟩⟩
            rw [if_neg fun same => other (Option.some.inj same).symm, Nat.add_zero]
      refine ⟨below, ?_⟩
      intro p' same
      obtain rfl := Option.some.inj same
      exact ⟨parent, list, found, ancestors⟩

/-- What an event that a run takes does to its grants and admissions. -/
inductive DelegationStep (host : Host) (s : RunState) (event : RunEvent) (s' : RunState) : Prop where
  | same (grants : s'.grants = s.grants) (admissions : s'.admissions = s.admissions)
      (history : s'.history = s.history)
  | issued (e : GrantEnvelope) (next : List Grant) (fresh : e.id ∉ s.grants.map Grant.id)
      (reserved : reserveFromParent host s event.timestamp e = .ok next)
      (grants : s'.grants = next ++ [⟨e, event.digest, .active, 0, ⟨0, 0⟩, ⟨0, 0⟩⟩])
      (admissions : s'.admissions = s.admissions) (history : s'.history = s.history)
  | revoked (id : String)
      (grants : s'.grants = updateGrant id (fun g => { g with
        status := .revoked
        revocationEpoch := s.revocationEpoch + 1 }) s.grants)
      (admissions : s'.admissions = s.admissions) (history : s'.history = s.history)
  | admitted (g : Grant) (x : Admission) (list : List Grant) (member : g ∈ s.grants)
      (named : g.id = x.grantId) (scope : InScope g.envelope.binding.toGrantIntent x.operation)
      (room : ∀ c : Counter, c.cost x.operation.action = 0 ∨
        c.of g.budgetUsed + c.of g.budgetReserved + c.cost x.operation.action ≤
          c.limit g.envelope.binding.toGrantIntent)
      (ancestors : grantAncestors host g.envelope s.grants event.timestamp = .ok list)
      (fromEvent : x.eventId = event.id) (kind : event.kind = "operation-admitted")
      (grants : s'.grants = updateGrant x.grantId
        (fun g => { g with budgetUsed := g.budgetUsed.use x.operation.action }) s.grants)
      (admissions : s'.admissions = s.admissions ++ [x]) (history : s'.history = s.history)

theorem delegationStep_of_issued {e : GrantEnvelope}
    (reduced : reduceGrantIssued host s event e = .ok s') : DelegationStep host s event s' := by
  simp only [reduceGrantIssued, bind_eq_ok, require_eq_ok, pure_eq_ok] at reduced
  obtain ⟨-, ⟨-, fresh⟩, -, -, -, -, -, -, -, -, next, reserved, rfl⟩ := reduced
  exact .issued e next (findGrant_eq_none.mp fresh) reserved rfl rfl rfl

theorem delegationStep_of_revoked {id reason : String}
    (reduced : reduceGrantRevoked s id reason = .ok s') : DelegationStep host s event s' := by
  simp only [reduceGrantRevoked, bind_eq_ok, given_eq_ok, pure_eq_ok] at reduced
  obtain ⟨g, -, -, -, -, -, -, -, rfl⟩ := reduced
  exact .revoked id rfl rfl rfl

theorem mapError_eq_ok {ε ε' α : Type} {x : Except ε α} {f : ε → ε'} {a : α} :
    x.mapError f = .ok a ↔ x = .ok a := by
  cases x <;> simp [Except.mapError]

theorem delegationStep_of_admitted {p : AdmissionRequest}
    (distinct : (s.grants.map Grant.id).Nodup) (kind : event.kind = "operation-admitted")
    (reduced : reduceOperationAdmitted host s event p = .ok s') : DelegationStep host s event s' := by
  simp only [reduceOperationAdmitted, bind_eq_ok, given_eq_ok, mapError_eq_ok, pure_eq_ok] at reduced
  obtain ⟨g, found, -, -, -, -, op, normal, -, -, -, -, -, -, -, -, ⟨op', digest_⟩, resolved, rfl⟩ :=
    reduced
  obtain ⟨inside, named⟩ := mem_of_findGrant found
  obtain ⟨-, g', found', scope, ⟨list, ancestors⟩, room⟩ := inScope_of_resolveGrant resolved
  obtain ⟨inside', named'⟩ := mem_of_findGrant found'
  obtain rfl := eq_of_id distinct inside' inside named'
  exact .admitted g' ⟨p.grantId, op, host.operationDigest op, event.id, event.digest⟩ list inside named
    scope room ancestors rfl kind rfl rfl rfl

theorem delegationStep_of_safety {p : SafetyRecord}
    (reduced : reduceDelegationSafety host s p = .ok s') : DelegationStep host s event s' := by
  simp only [reduceDelegationSafety, bind_eq_ok, given_eq_ok, pure_eq_ok] at reduced
  obtain ⟨policy, -, -, -, -, -, -, -, -, -, -, -, s₁, outcome, -, -, rfl⟩ := reduced
  cases given_ : p.outcome with
  | none =>
      rw [given_] at outcome
      obtain rfl := pure_eq_ok.mp outcome
      exact .same rfl rfl rfl
  | some o =>
      rw [given_] at outcome
      simp only [reconcileOutcome, reconcile, bind_eq_ok, given_eq_ok, pure_eq_ok] at outcome
      obtain ⟨prior, -, -, -, rfl⟩ := outcome
      exact .same rfl rfl rfl

theorem delegationStep (distinct : (s.grants.map Grant.id).Nodup)
    (reduced : reducePayload host s event = .ok s') : DelegationStep host s event s' := by
  rcases reducePayload_delegation reduced with same | ⟨next, delegated, rfl⟩
  · exact .same same.grants same.admissions same.history
  unfold reduceDelegationEvent at delegated
  split at delegated
  next => exact delegationStep_of_issued (Option.some.inj delegated)
  next => exact delegationStep_of_revoked (Option.some.inj delegated)
  next p payload =>
    exact delegationStep_of_admitted distinct (congrArg Payload.kind payload)
      (Option.some.inj delegated)
  next => exact delegationStep_of_safety (Option.some.inj delegated)
  next => cases delegated

/-- One step keeps the ledger. -/
theorem DelegationStep.ledger (step : DelegationStep host s event s')
    (ledger : Ledger s.grants s.admissions) : Ledger s'.grants s'.admissions := by
  cases step with
  | same grants admissions history =>
      rw [grants, admissions]
      exact ledger
  | issued e next fresh reserved grants admissions history =>
      obtain ⟨reserves, -⟩ := reserves_of_ok ledger.distinct reserved
      rw [grants, admissions]
      refine ledger.issue fresh reserves.parents reserves.same fun g member => ?_
      obtain ⟨old, there, envelope, -, used, counted⟩ := reserves.counts g member
      exact ⟨old, there, envelope, used, fun c =>
        ⟨(counted c).1, (counted c).2 (ledger.within c old there)⟩⟩
  | revoked id grants admissions history =>
      rw [grants, admissions]
      exact ledger.update id fun _ => ⟨rfl, rfl, rfl⟩
  | admitted g x list member named scope room ancestors fromEvent kind grants admissions history =>
      rw [grants, admissions]
      exact ledger.admitted member named scope room

theorem ledger_started {p : Started} (started : reduceStarted event p = .ok s) :
    Ledger (record event s).grants (record event s).admissions := by
  simp only [reduceStarted, bind_eq_ok, pure_eq_ok] at started
  obtain ⟨-, -, -, -, -, -, -, -, -, -, -, -, rfl⟩ := started
  exact .nil

/-- **The ledger of every run is true.** -/
theorem Replays.ledger {events : List RunEvent} {r : Replay} (replayed : Replays host events r)
    (state : r.state = some s) : Ledger s.grants s.admissions := by
  refine replayed.invariant (I := fun s => Ledger s.grants s.admissions) ?_ ?_ state
  · intro event _ p s _ started
    exact ledger_started started
  · intro s event _ s' ledger _ reduced
    exact (delegationStep ledger.distinct reduced).ledger ledger

end AgentOtelBridge.Flow
