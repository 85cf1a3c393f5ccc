import AgentOtelBridge.Cli.HomeApply

/-!
# Plans over files

`propose` is the plan of `planHomeHooks` over files that do not change, for any rendering
of the configuration of a client.  When no read fails, it is what is planned.

Each path is planned once.  When what is rendered is rendered again as it is, the plan
for files that have what was planned changes nothing.
-/

namespace AgentOtelBridge.HomeApply

open Faulty

/-- The bytes of the files there are. -/
abbrev Files := Path → Option (List UInt8)

def World.files (w : World) : Files := fun path => (w.disk path).map File.bytes

section

variable {render : Render} {home binary : Path} {socket : Option Path} {files files' : Files}
  {changes changes' : List HomeHookChange} {client : String} {clients : List String}

/-- One client of a plan over files that do not change. -/
def proposeClient (render : Render) (home binary : Path) (socket : Option Path) (files : Files)
    (changes : List HomeHookChange) (client : String) : Except String (List HomeHookChange) :=
  match clientTarget client with
  | none => .error ("Unsupported native hook reader: " ++ client)
  | some relative =>
    if changes.any (fun change => change.path == home ++ relative) then .ok changes
    else
      match render client (files (home ++ relative)) binary socket with
      | .ok after => .ok (changes ++ [⟨home ++ relative, files (home ++ relative), after⟩])
      | .error error => .error error

def propose (render : Render) (home binary : Path) (socket : Option Path) (files : Files)
    (clients : List String) : Except String (List HomeHookChange) :=
  clients.foldlM (proposeClient render home binary socket files) []

/-! ## The loop -/

/-- A client's file is planned already, or it is planned now. -/
theorem proposeClient_eq_ok :
    proposeClient render home binary socket files changes client = .ok changes' ↔
      ∃ relative, clientTarget client = some relative ∧
        ((∃ change ∈ changes, change.path = home ++ relative) ∧ changes' = changes ∨
          (∀ change ∈ changes, change.path ≠ home ++ relative) ∧
            ∃ after, render client (files (home ++ relative)) binary socket = .ok after ∧
              changes' = changes ++ [⟨home ++ relative, files (home ++ relative), after⟩]) := by
  unfold proposeClient
  cases target : clientTarget client with
  | none => simp
  | some relative =>
      simp only [Option.some.injEq, exists_eq_left']
      split
      next there =>
        have there : ∃ change ∈ changes, change.path = home ++ relative := by simpa using there
        obtain ⟨change, member, same⟩ := there
        constructor
        · intro ok
          exact .inl ⟨⟨change, member, same⟩, (Except.ok.inj ok).symm⟩
        · rintro (⟨-, rfl⟩ | ⟨absent, -⟩)
          · rfl
          · exact absurd same (absent change member)
      next absent =>
        have absent : ∀ change ∈ changes, change.path ≠ home ++ relative := by simpa using absent
        have none_ : ¬ ∃ change ∈ changes, change.path = home ++ relative :=
          fun ⟨change, member, same⟩ => absent change member same
        cases render client (files (home ++ relative)) binary socket with
        | error error => simp [none_]
        | ok after =>
            constructor
            · intro ok
              exact .inr ⟨absent, after, rfl, (Except.ok.inj ok).symm⟩
            · rintro (⟨there, -⟩ | ⟨-, after', same, rfl⟩)
              · exact absurd there none_
              · rw [Except.ok.inj same]

/-- A plan of quiet reads is the plan over the files there are, and changes nothing. -/
theorem planHomeHooks_triple (clients : List String) (w₀ : World) :
    Triple ReadFate.Quiet (fun w _ => w = w₀) (planHomeHooks render home clients binary socket)
      (fun changes w _ => w = w₀ ∧ propose render home binary socket w₀.files clients = .ok changes)
      (fun w _ => w = w₀ ∧ ∃ error,
        propose render home binary socket w₀.files clients = .error error)
      (fun w _ => w = w₀) := by
  refine Triple.pre (Triple.foldlM (fun done changes w _ => w = w₀ ∧
    propose render home binary socket w₀.files done = .ok changes) _ [] []
      fun before client after changes split_ => ?_) fun w n h => ⟨h, rfl⟩
  have next_ : ∀ result, propose render home binary socket w₀.files before = .ok changes →
      proposeClient render home binary socket w₀.files changes client = result →
        propose render home binary socket w₀.files (before ++ [client]) = result := by
    intro result first step
    unfold propose at first ⊢
    rw [List.foldlM_append, first]
    show (proposeClient render home binary socket w₀.files changes client >>= pure) = result
    rw [bind_pure, step]
  -- What one client fails, the whole plan fails.
  have fails : ∀ error, propose render home binary socket w₀.files before = .ok changes →
      proposeClient render home binary socket w₀.files changes client = .error error →
        ∃ error, propose render home binary socket w₀.files clients = .error error := by
    intro error first step
    have first := next_ _ first step
    rw [List.nil_append] at split_
    unfold propose at first ⊢
    rw [split_, List.append_cons, List.foldlM_append, first]
    exact ⟨error, rfl⟩
  unfold planClient
  unfold proposeClient at next_ fails
  cases target : clientTarget client with
  | none =>
      simp only [target] at fails ⊢
      exact Triple.throw fun w n h => ⟨h.1, fails _ h.2 rfl⟩
  | some relative =>
      simp only [target] at next_ fails ⊢
      refine Triple.ite (fun there => ?_) fun absent => ?_
      · rw [if_pos there] at next_
        exact Triple.pure fun w n h => ⟨h.1, next_ _ h.2 rfl⟩
      · rw [if_neg absent] at next_ fails
        refine Triple.bind (R := fun bytes w _ => bytes = w₀.files (home ++ relative) ∧ w = w₀ ∧
          propose render home binary socket w₀.files before = .ok changes)
          (Triple.readQuiet (fun w n h => ⟨by rw [h.1]; rfl, h⟩) fun _ _ h => h.1) fun bytes => ?_
        refine Triple.of_pure fun same => ?_
        subst same
        cases rendered : render client (w₀.files (home ++ relative)) binary socket with
        | error error =>
            rw [rendered] at fails
            exact Triple.throw fun w n h => ⟨h.1, fails _ h.2 rfl⟩
        | ok after =>
            rw [rendered] at next_
            exact Triple.pure fun w n h => ⟨h.1, next_ _ h.2 rfl⟩

/-! ## The changes of a plan -/

/-- A change is what is rendered for a client. -/
structure Proposed (render : Render) (home binary : Path) (socket : Option Path) (files : Files)
    (client : String) (change : HomeHookChange) : Prop where
  path : ∃ relative, clientTarget client = some relative ∧ change.path = home ++ relative
  before : change.before = files change.path
  after : render client change.before binary socket = .ok change.after

/-- Each path is planned once, with what is rendered for one of the clients. -/
structure Proposal (render : Render) (home binary : Path) (socket : Option Path) (files : Files)
    (clients : List String) (changes : List HomeHookChange) : Prop where
  distinct : (changes.map HomeHookChange.path).Nodup
  proposed : ∀ change ∈ changes, ∃ client ∈ clients,
    Proposed render home binary socket files client change

/-- The change of a file that has what was planned. -/
def HomeHookChange.settled (change : HomeHookChange) : HomeHookChange :=
  { change with before := some change.after }

/-- Files that have what was planned. -/
def Wrote (files : Files) (changes : List HomeHookChange) : Prop :=
  ∀ change ∈ changes, files change.path = some change.after

/-- What is rendered for a client is rendered again as it is. -/
def Settled (render : Render) (binary : Path) (socket : Option Path) : Prop :=
  ∀ client before after, render client before binary socket = .ok after →
    render client (some after) binary socket = .ok after

theorem Proposal.proposeClient (h : Proposal render home binary socket files clients changes)
    (member : client ∈ clients)
    (ok : proposeClient render home binary socket files changes client = .ok changes') :
    Proposal render home binary socket files clients changes' := by
  obtain ⟨relative, target, ⟨-, rfl⟩ | ⟨absent, after, rendered, rfl⟩⟩ := proposeClient_eq_ok.mp ok
  · exact h
  · refine ⟨?_, fun change there => ?_⟩
    · rw [List.map_append, List.nodup_append]
      refine ⟨h.distinct, by simp, fun path there path' last same => ?_⟩
      obtain ⟨change, member, rfl⟩ := List.mem_map.mp there
      exact absent change member (same.trans (List.mem_singleton.mp last))
    · rcases List.mem_append.mp there with there | last
      · exact h.proposed change there
      · obtain rfl := List.mem_singleton.mp last
        exact ⟨client, member, ⟨relative, target, rfl⟩, rfl, rendered⟩

theorem mem_of_foldlM_proposeClient
    (ok : clients.foldlM (proposeClient render home binary socket files) changes = .ok changes') :
    ∀ change ∈ changes, change ∈ changes' := by
  induction clients generalizing changes with
  | nil =>
      obtain rfl := Except.ok.inj ok
      exact fun _ => id
  | cons client clients ih =>
      rw [List.foldlM_cons] at ok
      cases step : proposeClient render home binary socket files changes client with
      | error error =>
          rw [step] at ok
          cases ok
      | ok middle =>
          rw [step] at ok
          intro change there
          refine ih ok change ?_
          obtain ⟨relative, -, ⟨-, rfl⟩ | ⟨-, after, -, rfl⟩⟩ := proposeClient_eq_ok.mp step
          · exact there
          · exact List.mem_append_left _ there

/-- A client whose file has what was planned changes nothing. -/
theorem proposeClient_settled (settled : Settled render binary socket)
    (wrote : Wrote files' changes')
    (ok : proposeClient render home binary socket files changes client = .ok changes') :
    proposeClient render home binary socket files' (changes.map HomeHookChange.settled) client =
      .ok (changes'.map HomeHookChange.settled) := by
  obtain ⟨relative, target, ⟨⟨change, there, same⟩, rfl⟩ | ⟨absent, after, rendered, rfl⟩⟩ :=
    proposeClient_eq_ok.mp ok
  · exact proposeClient_eq_ok.mpr
      ⟨relative, target, .inl ⟨⟨change.settled, List.mem_map_of_mem there, same⟩, rfl⟩⟩
  · have now_ : files' (home ++ relative) = some after :=
      wrote ⟨_, _, after⟩ (List.mem_append_right _ (List.mem_singleton_self _))
    refine proposeClient_eq_ok.mpr ⟨relative, target, .inr ⟨fun change there => ?_, after, ?_, ?_⟩⟩
    · obtain ⟨old, member, rfl⟩ := List.mem_map.mp there
      exact absent old member
    · rw [now_]
      exact settled _ _ _ rendered
    · rw [List.map_append, now_]
      rfl

theorem foldlM_proposeClient_settled (settled : Settled render binary socket)
    (wrote : Wrote files' changes')
    (ok : clients.foldlM (proposeClient render home binary socket files) changes = .ok changes') :
    clients.foldlM (proposeClient render home binary socket files')
      (changes.map HomeHookChange.settled) = .ok (changes'.map HomeHookChange.settled) := by
  induction clients generalizing changes with
  | nil =>
      obtain rfl := Except.ok.inj ok
      rfl
  | cons client clients ih =>
      rw [List.foldlM_cons] at ok ⊢
      cases step : proposeClient render home binary socket files changes client with
      | error error =>
          rw [step] at ok
          cases ok
      | ok middle =>
          rw [step] at ok
          have later := mem_of_foldlM_proposeClient ok
          rw [proposeClient_settled settled (fun change there => wrote change (later change there))
            step]
          exact ih ok

theorem foldlM_proposal (h : Proposal render home binary socket files clients changes)
    {rest : List String} (subset : rest ⊆ clients)
    (ok : rest.foldlM (proposeClient render home binary socket files) changes = .ok changes') :
    Proposal render home binary socket files clients changes' := by
  induction rest generalizing changes with
  | nil =>
      obtain rfl := Except.ok.inj ok
      exact h
  | cons client rest ih =>
      rw [List.foldlM_cons] at ok
      cases step : proposeClient render home binary socket files changes client with
      | error error =>
          rw [step] at ok
          cases ok
      | ok middle =>
          rw [step] at ok
          obtain ⟨member, subset⟩ := List.cons_subset.mp subset
          exact ih (h.proposeClient member step) subset ok

theorem propose_proposal (ok : propose render home binary socket files clients = .ok changes) :
    Proposal render home binary socket files clients changes :=
  foldlM_proposal ⟨by simp, fun _ h => absurd h List.not_mem_nil⟩ (List.Subset.refl _) ok

/-- A plan for files that have what was planned changes nothing. -/
theorem propose_settled (settled : Settled render binary socket)
    (ok : propose render home binary socket files clients = .ok changes)
    (wrote : Wrote files' changes) :
    propose render home binary socket files' clients = .ok (changes.map HomeHookChange.settled) :=
  foldlM_proposeClient_settled settled wrote ok

end

end AgentOtelBridge.HomeApply
