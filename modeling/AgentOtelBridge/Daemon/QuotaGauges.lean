import AgentOtelBridge.Daemon.MetricsRequest
import Mathlib.Data.List.Perm.Basic

/-!
# The gauges of quota snapshots

A gauge of a snapshot is exported if its number is finite and in its range, whatever the others
are.  The ratio of the fleet is the least share of those that are exported, at the last of their
times, and it is not exported if none of them has a time.

The running minimum keeps the number that came first among equal ones.  So the order of the
snapshots decides the sign of a zero, and nothing else of the ratio.
-/

namespace AgentOtelBridge

/-! ## Statements -/

/-- The share that remains is one. -/
def MetricsSnapshot.ValidRemaining (snapshot : MetricsSnapshot) : Prop :=
  snapshot.remainingFraction.isFinite ∧ 0 ≤ snapshot.remainingFraction.value ∧
    snapshot.remainingFraction.value ≤ 1

instance : DecidablePred MetricsSnapshot.ValidRemaining := fun _ =>
  inferInstanceAs (Decidable (_ ∧ _ ∧ _))

def MetricsSnapshot.ValidReset (snapshot : MetricsSnapshot) : Prop :=
  snapshot.secondsToReset.isFinite ∧ 0 ≤ snapshot.secondsToReset.value

instance : DecidablePred MetricsSnapshot.ValidReset := fun _ =>
  inferInstanceAs (Decidable (_ ∧ _))

/-- The metrics of a name, in their order. -/
def named (name : String) (metrics : List Metric) : List Metric :=
  metrics.filter fun metric => metric.name = name

def fleetGauge (value : F64) (observedNs : Nat) : Metric :=
  quotaGauge metricFleetBottleneckRatio "1" value observedNs "fleet-bottleneck" "all"

/-- The metrics are the gauges of the snapshots. -/
structure QuotaGauges (snapshots : List MetricsSnapshot) (emitLegacyAliases : Bool)
    (metrics : List Metric) : Prop where
  names : ∀ metric ∈ metrics, metric.name ∈ [metricAgentQuotaRemaining, metricAgentQuotaReset,
    metricFleetBottleneckRatio, metricAgyQuotaRemaining, metricAgyQuotaReset]
  remaining : named metricAgentQuotaRemaining metrics =
    (snapshots.filter fun snapshot => snapshot.ValidRemaining).map
      (MetricsSnapshot.gauge metricAgentQuotaRemaining "1" MetricsSnapshot.remainingFraction)
  reset : named metricAgentQuotaReset metrics =
    (snapshots.filter fun snapshot => snapshot.ValidReset).map
      (MetricsSnapshot.gauge metricAgentQuotaReset "s" MetricsSnapshot.secondsToReset)
  bottleneck_iff : named metricFleetBottleneckRatio metrics ≠ [] ↔
    (∃ snapshot ∈ snapshots, snapshot.ValidRemaining) ∧
      ∃ snapshot ∈ snapshots, snapshot.ValidRemaining ∧ snapshot.observedAtUnixNano ≠ 0
  bottleneck : ∀ metric ∈ named metricFleetBottleneckRatio metrics, ∃ value observedNs,
    named metricFleetBottleneckRatio metrics = [metric] ∧ metric = fleetGauge value observedNs ∧
      value.isFinite ∧
      IsLeast {share | ∃ snapshot ∈ snapshots, snapshot.ValidRemaining ∧
        snapshot.remainingFraction.value = share} value.value ∧
      IsGreatest {time | ∃ snapshot ∈ snapshots, snapshot.ValidRemaining ∧
        snapshot.observedAtUnixNano = time} observedNs
  legacyRemaining : named metricAgyQuotaRemaining metrics =
    if emitLegacyAliases then
      (snapshots.filter fun snapshot => snapshot.ValidRemaining ∧ snapshot.isGemini).map
        (MetricsSnapshot.gauge metricAgyQuotaRemaining "1" MetricsSnapshot.remainingFraction)
    else []
  legacyReset : named metricAgyQuotaReset metrics =
    if emitLegacyAliases then
      (snapshots.filter fun snapshot => snapshot.ValidReset ∧ snapshot.isGemini).map
        (MetricsSnapshot.gauge metricAgyQuotaReset "s" MetricsSnapshot.secondsToReset)
    else []

/-- Two ratios of a fleet that differ at most in the sign of a zero. -/
def SameButZeroSign (metrics others : List Metric) : Prop :=
  metrics = others ∨ ∃ negative observedNs,
    metrics = [fleetGauge (.finite negative 0) observedNs] ∧
      others = [fleetGauge (.finite (!negative) 0) observedNs]

/-! ## The checks -/

theorem MetricsSnapshot.hasRemaining_iff (snapshot : MetricsSnapshot) :
    snapshot.hasRemaining ↔ snapshot.ValidRemaining := by
  simp only [hasRemaining, ValidRemaining, Bool.and_eq_true, and_assoc]
  refine and_congr_right fun finite => ?_
  rw [F64.le_iff rfl finite, F64.le_iff finite rfl, F64.value_zero, F64.value_one]

theorem MetricsSnapshot.hasReset_iff (snapshot : MetricsSnapshot) :
    snapshot.hasReset ↔ snapshot.ValidReset := by
  simp only [hasReset, ValidReset, Bool.and_eq_true]
  refine and_congr_right fun finite => ?_
  rw [F64.le_iff rfl finite, F64.value_zero]

theorem filter_hasRemaining (snapshots : List MetricsSnapshot) :
    snapshots.filter MetricsSnapshot.hasRemaining =
      snapshots.filter fun snapshot => snapshot.ValidRemaining := by
  refine List.filter_congr fun snapshot _ => ?_
  rw [Bool.eq_iff_iff, snapshot.hasRemaining_iff, decide_eq_true_iff]

theorem filter_hasReset (snapshots : List MetricsSnapshot) :
    snapshots.filter MetricsSnapshot.hasReset =
      snapshots.filter fun snapshot => snapshot.ValidReset := by
  refine List.filter_congr fun snapshot _ => ?_
  rw [Bool.eq_iff_iff, snapshot.hasReset_iff, decide_eq_true_iff]

/-! ## The names -/

theorem named_append (name : String) (metrics others : List Metric) :
    named name (metrics ++ others) = named name metrics ++ named name others :=
  List.filter_append metrics others

/-- Metrics of one name are found under it alone. -/
theorem named_of_name {name other : String} {metrics : List Metric}
    (called : ∀ metric ∈ metrics, metric.name = other) :
    named name metrics = if other = name then metrics else [] := by
  split
  next same =>
    exact List.filter_eq_self.mpr fun metric found =>
      decide_eq_true ((called metric found).trans same)
  next differs =>
    exact List.filter_eq_nil_iff.mpr fun metric found hit =>
      differs ((called metric found).symm.trans (of_decide_eq_true hit))

theorem named_map_gauge (name other unit : String) (value : MetricsSnapshot → F64)
    (snapshots : List MetricsSnapshot) :
    named name (snapshots.map (MetricsSnapshot.gauge other unit value)) =
      if other = name then snapshots.map (MetricsSnapshot.gauge other unit value) else [] := by
  refine named_of_name fun metric found => ?_
  obtain ⟨snapshot, _, rfl⟩ := List.mem_map.mp found
  rfl

theorem named_bottleneckGauge (name : String) (snapshots : List MetricsSnapshot) :
    named name (bottleneckGauge snapshots) =
      if metricFleetBottleneckRatio = name then bottleneckGauge snapshots else [] := by
  refine named_of_name fun metric found => ?_
  simp only [bottleneckGauge] at found
  split at found
  · rw [List.mem_singleton.mp found]
    rfl
  · cases found

/-- The metrics of a name, of all that the passes come to. -/
theorem named_quotaMetrics (name : String) (snapshots : List MetricsSnapshot)
    (emitLegacyAliases : Bool) :
    let legacy := if emitLegacyAliases then snapshots.filter MetricsSnapshot.isGemini else []
    named name (quotaMetrics snapshots emitLegacyAliases) =
      (if metricAgentQuotaRemaining = name then
        remainingGauges metricAgentQuotaRemaining snapshots else []) ++
      (if metricFleetBottleneckRatio = name then bottleneckGauge snapshots else []) ++
      (if metricAgyQuotaRemaining = name then
        remainingGauges metricAgyQuotaRemaining legacy else []) ++
      (if metricAgentQuotaReset = name then
        resetGauges metricAgentQuotaReset snapshots else []) ++
      (if metricAgyQuotaReset = name then resetGauges metricAgyQuotaReset legacy else []) := by
  simp only [quotaMetrics, named_append, remainingGauges, resetGauges, named_map_gauge,
    named_bottleneckGauge]

theorem gauge_names (snapshots : List MetricsSnapshot) (emitLegacyAliases : Bool) :
    ∀ metric ∈ quotaMetrics snapshots emitLegacyAliases,
      metric.name ∈ [metricAgentQuotaRemaining, metricAgentQuotaReset,
        metricFleetBottleneckRatio, metricAgyQuotaRemaining, metricAgyQuotaReset] := by
  intro metric found
  by_contra unknown
  simp only [List.mem_cons, List.not_mem_nil, or_false, not_or] at unknown
  obtain ⟨notRemaining, notReset, notFleet, notLegacyRemaining, notLegacyReset⟩ := unknown
  have underName : metric ∈ named metric.name (quotaMetrics snapshots emitLegacyAliases) :=
    List.mem_filter.mpr ⟨found, decide_eq_true rfl⟩
  rw [named_quotaMetrics, if_neg (Ne.symm notRemaining), if_neg (Ne.symm notReset),
    if_neg (Ne.symm notFleet), if_neg (Ne.symm notLegacyRemaining),
    if_neg (Ne.symm notLegacyReset)] at underName
  cases underName

/-! ## The ratio of the fleet -/

/-- The times of the snapshots with a share. -/
theorem isGreatest_foldl_max {times : List Nat} (nonempty : times ≠ []) :
    IsGreatest {time | time ∈ times} (times.foldl max 0) := by
  rw [List.foldl_max_eq_max nonempty, Nat.max_eq_right (Nat.zero_le _)]
  exact ⟨List.max_mem nonempty, fun _ found => List.le_max_of_mem found⟩

theorem valid_mem_iff {snapshots : List MetricsSnapshot} {snapshot : MetricsSnapshot} :
    snapshot ∈ snapshots.filter MetricsSnapshot.hasRemaining ↔
      snapshot ∈ snapshots ∧ snapshot.ValidRemaining := by
  rw [List.mem_filter, snapshot.hasRemaining_iff]

variable (snapshots : List MetricsSnapshot)

/-- The least share of the snapshots that have one. -/
theorem minRemaining_isLeast (some : ∃ snapshot ∈ snapshots, snapshot.ValidRemaining) :
    let least := F64.minFrom .one ((snapshots.filter MetricsSnapshot.hasRemaining).map
      MetricsSnapshot.remainingFraction)
    least.isFinite ∧ IsLeast {share | ∃ snapshot ∈ snapshots, snapshot.ValidRemaining ∧
      snapshot.remainingFraction.value = share} least.value := by
  intro least
  have finite : ∀ number ∈ (snapshots.filter MetricsSnapshot.hasRemaining).map
      MetricsSnapshot.remainingFraction, number.isFinite := by
    intro number found
    obtain ⟨snapshot, listed, rfl⟩ := List.mem_map.mp found
    exact (valid_mem_iff.mp listed).2.1
  constructor
  · rcases List.mem_cons.mp (F64.minFrom_mem .one ((snapshots.filter
      MetricsSnapshot.hasRemaining).map MetricsSnapshot.remainingFraction)) with isOne | found
    · exact congrArg F64.isFinite isOne
    · exact finite _ found
  · obtain ⟨snapshot, found, valid⟩ := some
    have listed := List.mem_map_of_mem (f := MetricsSnapshot.remainingFraction)
      (valid_mem_iff.mpr ⟨found, valid⟩)
    have isLeast := @F64.minFrom_isLeast .one _ rfl finite
      ⟨_, listed, valid.2.2.trans F64.value_one.ge⟩
    simp only [List.mem_map, exists_exists_and_eq_and] at isLeast
    simpa only [valid_mem_iff, and_assoc] using isLeast

theorem latestObservedNs_isGreatest (some : ∃ snapshot ∈ snapshots, snapshot.ValidRemaining) :
    IsGreatest {time | ∃ snapshot ∈ snapshots, snapshot.ValidRemaining ∧
        snapshot.observedAtUnixNano = time}
      (((snapshots.filter MetricsSnapshot.hasRemaining).map
        MetricsSnapshot.observedAtUnixNano).foldl max 0) := by
  obtain ⟨snapshot, found, valid⟩ := some
  have listed := List.mem_map_of_mem (f := MetricsSnapshot.observedAtUnixNano)
    (valid_mem_iff.mpr ⟨found, valid⟩)
  simpa only [List.mem_map, valid_mem_iff, and_assoc] using
    isGreatest_foldl_max (List.ne_nil_of_mem listed)

/-- A fleet has a ratio if some snapshot with a share has a time. -/
def FleetObserved : Prop :=
  ∃ snapshot ∈ snapshots, snapshot.ValidRemaining ∧ snapshot.observedAtUnixNano ≠ 0

/-- A ratio of the fleet, as it is to be. -/
def IsFleetRatio (value : F64) (observedNs : Nat) : Prop :=
  value.isFinite ∧
    IsLeast {share | ∃ snapshot ∈ snapshots, snapshot.ValidRemaining ∧
      snapshot.remainingFraction.value = share} value.value ∧
    IsGreatest {time | ∃ snapshot ∈ snapshots, snapshot.ValidRemaining ∧
      snapshot.observedAtUnixNano = time} observedNs

variable {snapshots}

theorem bottleneckGauge_of_observed (observed : FleetObserved snapshots) :
    ∃ value observedNs, IsFleetRatio snapshots value observedNs ∧
      bottleneckGauge snapshots = [fleetGauge value observedNs] := by
  obtain ⟨snapshot, found, valid, timed⟩ := observed
  have some : ∃ snapshot ∈ snapshots, snapshot.ValidRemaining := ⟨snapshot, found, valid⟩
  have ratio := minRemaining_isLeast snapshots some
  have time := latestObservedNs_isGreatest snapshots some
  have positive := (Nat.pos_of_ne_zero timed).trans_le (time.2 ⟨snapshot, found, valid, rfl⟩)
  have nonempty := List.ne_nil_of_mem (valid_mem_iff.mpr ⟨found, valid⟩)
  exact ⟨_, _, ⟨ratio.1, ratio.2, time⟩, if_pos ⟨nonempty, positive⟩⟩

theorem bottleneckGauge_of_not_observed (unobserved : ¬ FleetObserved snapshots) :
    bottleneckGauge snapshots = [] := by
  refine if_neg fun ⟨nonempty, positive⟩ => unobserved ?_
  obtain ⟨snapshot, listed⟩ := List.exists_mem_of_ne_nil _ nonempty
  have time := latestObservedNs_isGreatest snapshots ⟨snapshot, valid_mem_iff.mp listed⟩
  obtain ⟨last, found, valid, atTime⟩ := time.1
  exact ⟨last, found, valid, by rw [atTime]; exact positive.ne'⟩

theorem fleetObserved_perm {others : List MetricsSnapshot} (permuted : others.Perm snapshots) :
    FleetObserved others ↔ FleetObserved snapshots := by
  simp only [FleetObserved, permuted.mem_iff]

theorem isFleetRatio_perm {others : List MetricsSnapshot} (permuted : others.Perm snapshots)
    (value : F64) (observedNs : Nat) :
    IsFleetRatio others value observedNs ↔ IsFleetRatio snapshots value observedNs := by
  simp only [IsFleetRatio, permuted.mem_iff]

/-- Ratios of one fleet differ at most in the sign of a zero. -/
theorem bottleneckGauge_perm {others : List MetricsSnapshot} (permuted : others.Perm snapshots) :
    SameButZeroSign (bottleneckGauge others) (bottleneckGauge snapshots) := by
  rcases Classical.em (FleetObserved snapshots) with observed | unobserved
  · obtain ⟨value, time, ratio, gauge⟩ := bottleneckGauge_of_observed observed
    obtain ⟨other, otherTime, otherRatio, otherGauge⟩ :=
      bottleneckGauge_of_observed ((fleetObserved_perm permuted).mpr observed)
    rw [isFleetRatio_perm permuted] at otherRatio
    obtain rfl : otherTime = time := otherRatio.2.2.unique ratio.2.2
    rw [gauge, otherGauge]
    rcases F64.eq_or_zeros otherRatio.1 ratio.1 (otherRatio.2.1.unique ratio.2.1) with
      rfl | ⟨negative, rfl, rfl⟩
    · exact Or.inl rfl
    · exact Or.inr ⟨negative, otherTime, rfl, rfl⟩
  · rw [bottleneckGauge_of_not_observed unobserved,
      bottleneckGauge_of_not_observed (mt (fleetObserved_perm permuted).mp unobserved)]
    exact Or.inl rfl

/-! ## The gauges -/

variable (snapshots)

theorem named_bottleneck (emitLegacyAliases : Bool) :
    named metricFleetBottleneckRatio (quotaMetrics snapshots emitLegacyAliases) =
      bottleneckGauge snapshots := by
  rw [named_quotaMetrics]
  simp [metricAgentQuotaRemaining, metricAgentQuotaReset, metricFleetBottleneckRatio,
    metricAgyQuotaRemaining, metricAgyQuotaReset]

theorem remainingGauges_eq (name : String) : remainingGauges name snapshots =
    (snapshots.filter fun snapshot => snapshot.ValidRemaining).map
      (MetricsSnapshot.gauge name "1" MetricsSnapshot.remainingFraction) := by
  rw [remainingGauges, filter_hasRemaining]

theorem resetGauges_eq (name : String) : resetGauges name snapshots =
    (snapshots.filter fun snapshot => snapshot.ValidReset).map
      (MetricsSnapshot.gauge name "s" MetricsSnapshot.secondsToReset) := by
  rw [resetGauges, filter_hasReset]

theorem quotaMetrics_gauges (emitLegacyAliases : Bool) :
    QuotaGauges snapshots emitLegacyAliases (quotaMetrics snapshots emitLegacyAliases) := by
  constructor
  case names => exact gauge_names snapshots emitLegacyAliases
  case remaining =>
    rw [named_quotaMetrics, ← remainingGauges_eq]
    simp [metricAgentQuotaRemaining, metricAgentQuotaReset, metricFleetBottleneckRatio,
      metricAgyQuotaRemaining, metricAgyQuotaReset]
  case reset =>
    rw [named_quotaMetrics, ← resetGauges_eq]
    simp [metricAgentQuotaRemaining, metricAgentQuotaReset, metricFleetBottleneckRatio,
      metricAgyQuotaRemaining, metricAgyQuotaReset]
  case bottleneck_iff =>
    rw [named_bottleneck]
    constructor
    · intro present
      by_contra missing
      refine present (bottleneckGauge_of_not_observed fun observed => missing ⟨?_, observed⟩)
      obtain ⟨snapshot, found, valid, _⟩ := observed
      exact ⟨snapshot, found, valid⟩
    · rintro ⟨_, observed⟩
      obtain ⟨value, time, _, gauge⟩ := bottleneckGauge_of_observed observed
      rw [gauge]
      exact List.cons_ne_nil _ _
  case bottleneck =>
    rw [named_bottleneck]
    intro metric present
    rcases Classical.em (FleetObserved snapshots) with observed | unobserved
    · obtain ⟨value, time, ⟨finite, least, greatest⟩, gauge⟩ :=
        bottleneckGauge_of_observed observed
      rw [gauge] at present ⊢
      rw [List.mem_singleton.mp present]
      exact ⟨value, time, rfl, rfl, finite, least, greatest⟩
    · rw [bottleneckGauge_of_not_observed unobserved] at present
      cases present
  case legacyRemaining =>
    have gemini : ((snapshots.filter MetricsSnapshot.isGemini).filter fun snapshot =>
        snapshot.ValidRemaining) =
          snapshots.filter fun snapshot => snapshot.ValidRemaining ∧ snapshot.isGemini := by
      simp only [List.filter_filter, Bool.decide_and, Bool.decide_eq_true]
    rw [named_quotaMetrics, ← gemini, ← remainingGauges_eq]
    cases emitLegacyAliases <;>
      simp [metricAgentQuotaRemaining, metricAgentQuotaReset, metricFleetBottleneckRatio,
        metricAgyQuotaRemaining, metricAgyQuotaReset, remainingGauges]
  case legacyReset =>
    have gemini : ((snapshots.filter MetricsSnapshot.isGemini).filter fun snapshot =>
        snapshot.ValidReset) =
          snapshots.filter fun snapshot => snapshot.ValidReset ∧ snapshot.isGemini := by
      simp only [List.filter_filter, Bool.decide_and, Bool.decide_eq_true]
    rw [named_quotaMetrics, ← gemini, ← resetGauges_eq]
    cases emitLegacyAliases <;>
      simp [metricAgentQuotaRemaining, metricAgentQuotaReset, metricFleetBottleneckRatio,
        metricAgyQuotaRemaining, metricAgyQuotaReset, resetGauges]

/-- What a request has of some snapshots, and what it has of them in another order. -/
theorem buildMultiQuotaMetricsRequestOpts_gauges (resource : Resource) (emitLegacyAliases : Bool) :
    QuotaGauges snapshots emitLegacyAliases
        (buildMultiQuotaMetricsRequestOpts resource snapshots emitLegacyAliases).metrics ∧
      ∀ others : List MetricsSnapshot, others.Perm snapshots →
        SameButZeroSign
          (named metricFleetBottleneckRatio
            (buildMultiQuotaMetricsRequestOpts resource others emitLegacyAliases).metrics)
          (named metricFleetBottleneckRatio
            (buildMultiQuotaMetricsRequestOpts resource snapshots emitLegacyAliases).metrics) := by
  simp only [buildMultiQuotaMetricsRequestOpts_eq, metrics_metricsRequest]
  constructor
  · exact quotaMetrics_gauges snapshots emitLegacyAliases
  · intro others permuted
    rw [named_bottleneck, named_bottleneck]
    exact bottleneckGauge_perm permuted

/-- Two snapshots with nothing left, whose zeros have different signs. -/
def plusZero : MetricsSnapshot := ⟨.finite false 0, .nan, 1, "5h", "codex"⟩
def minusZero : MetricsSnapshot := ⟨.finite true 0, .nan, 1, "5h", "claude"⟩

/-- The zero that comes first is the ratio, so the order is seen in its sign. -/
theorem bottleneckGauge_zeros :
    [minusZero, plusZero].Perm [plusZero, minusZero] ∧
      named metricFleetBottleneckRatio
          (buildMultiQuotaMetricsRequestOpts ⟨[]⟩ [minusZero, plusZero] false).metrics ≠
        named metricFleetBottleneckRatio
          (buildMultiQuotaMetricsRequestOpts ⟨[]⟩ [plusZero, minusZero] false).metrics := by
  refine ⟨List.Perm.swap _ _ _, ?_⟩
  change [fleetGauge (.finite true 0) 1] ≠ [fleetGauge (.finite false 0) 1]
  simp [fleetGauge, quotaGauge]

end AgentOtelBridge
