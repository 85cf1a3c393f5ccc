import AgentOtelBridge.Core.PayloadOrder

/-!
# The fields of a hook

Each field of the table sets its own part of the record.  So the fields commute, and a payload
is decoded in any order.
-/

namespace AgentOtelBridge

open Json

section

variable {ρ α β γ : Type} {names names' : List String} {read : Json → Option α}
  {read' : Json → Option β} {set : Option α → ρ → ρ} {set' : Option β → ρ → ρ}

theorem exists_of_optional {value : Json} {f : ρ → ρ} (found : optional read set value = some f) :
    ∃ v, f = set v := by
  unfold optional at found
  split at found
  · exact ⟨none, (Option.some.inj found).symm⟩
  · obtain ⟨v, -, rfl⟩ := Option.map_eq_some_iff.mp found
    exact ⟨some v, rfl⟩

theorem commutes_of_set (commute : ∀ v w record, set v (set' w record) = set' w (set v record)) :
    RecordField.Commutes ⟨names, optional read set⟩ ⟨names', optional read' set'⟩ := by
  intro value value' f f' found found' record
  obtain ⟨v, rfl⟩ := exists_of_optional found
  obtain ⟨w, rfl⟩ := exists_of_optional found'
  exact commute v w record

theorem optional_null (set : Option α → ρ → ρ) : optional read set .null = some (set none) := rfl

theorem optional_of_ne_null {value : Json} (notNull : value ≠ .null) :
    optional read set value = (read value).map fun v => set (some v) := by
  unfold optional
  split
  · exact absurd rfl notNull
  · rfl

theorem nullKeeps_of_set {default : ρ} (kept : set none default = default) :
    RecordField.NullKeeps ⟨names, optional read set⟩ default := by
  intro f found
  rw [← Option.some.inj found]
  exact kept

theorem keeps_of_set {view : ρ → γ} (kept : ∀ v record, view (set v record) = view record) :
    RecordField.Keeps ⟨names, optional read set⟩ view := by
  intro value f found record
  obtain ⟨v, rfl⟩ := exists_of_optional found
  exact kept v record

end

variable (float : String → UInt64)

theorem hookFields_commute : (hookFields float).Pairwise RecordField.Commutes := by
  unfold hookFields
  repeat' first
    | exact List.Pairwise.nil
    | apply List.Pairwise.cons
    | refine List.forall_mem_cons.mpr ⟨commutes_of_set fun _ _ _ => rfl, ?_⟩
    | exact List.forall_mem_nil _

theorem hookFields_null : NullDefault (hookFields float) {} := by
  unfold hookFields NullDefault
  repeat' first
    | refine List.forall_mem_cons.mpr ⟨nullKeeps_of_set rfl, ?_⟩
    | exact List.forall_mem_nil _

/-- The fields but that of the event leave the event. -/
theorem reads_hookEventName :
    Reads (hookFields float) "hookEventName" AgentHookInput.hookEventName := by
  unfold hookFields Reads
  repeat' first
    | refine List.forall_mem_cons.mpr ⟨fun _ => keeps_of_set fun _ _ => rfl, ?_⟩
    | refine List.forall_mem_cons.mpr ⟨fun other => absurd rfl other, ?_⟩
    | exact List.forall_mem_nil _

theorem reads_traceparent :
    Reads (hookFields float) "traceparent" AgentHookInput.traceparent := by
  unfold hookFields Reads
  repeat' first
    | refine List.forall_mem_cons.mpr ⟨fun _ => keeps_of_set fun _ _ => rfl, ?_⟩
    | refine List.forall_mem_cons.mpr ⟨fun other => absurd rfl other, ?_⟩
    | exact List.forall_mem_nil _

theorem reads_cachedTokens :
    Reads (hookFields float) "cachedTokens" AgentHookInput.cachedTokens := by
  unfold hookFields Reads
  repeat' first
    | refine List.forall_mem_cons.mpr ⟨fun _ => keeps_of_set fun _ _ => rfl, ?_⟩
    | refine List.forall_mem_cons.mpr ⟨fun other => absurd rfl other, ?_⟩
    | exact List.forall_mem_nil _

end AgentOtelBridge
