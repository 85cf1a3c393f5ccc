import AgentOtelBridge.Daemon.Exporter

/-!
# The diagnostics of the pipeline

The counters only grow.  The gauges are unsigned in the source; here they are
integers, so that one that went below zero would show.
-/

namespace AgentOtelBridge

open Exporter (ExportOutcome ExportReport)

structure Diagnostics where
  transformed : Nat
  invalid : Nat
  spanSize : Nat
  exportQueued : Nat
  exportCapacity : Nat
  accepted : Nat
  rejected : Nat
  unknown : Nat
  shutdownDropped : Nat
  attempts : Nat
  possibleDuplicateBatches : Nat
  quotaActivityDropped : Nat
  queuedBytes : Int
  peakQueuedBytes : Int
  queuedItems : Int
deriving DecidableEq, Repr

def Diagnostics.zero : Diagnostics := ⟨0, 0, 0, 0, 0, 0, 0, 0, 0, 0, 0, 0, 0, 0, 0⟩

/-- The counters in which a span leaves the pipeline. -/
inductive Counter where
  | exportCapacity
  | accepted
  | rejected
  | unknown
  | shutdownDropped
deriving DecidableEq, Repr

def Diagnostics.read (d : Diagnostics) : Counter → Nat
  | .exportCapacity => d.exportCapacity
  | .accepted => d.accepted
  | .rejected => d.rejected
  | .unknown => d.unknown
  | .shutdownDropped => d.shutdownDropped

/-- `counter.fetch_add(n)`. -/
def Diagnostics.add (d : Diagnostics) (c : Counter) (n : Nat) : Diagnostics :=
  match c with
  | .exportCapacity => { d with exportCapacity := d.exportCapacity + n }
  | .accepted => { d with accepted := d.accepted + n }
  | .rejected => { d with rejected := d.rejected + n }
  | .unknown => { d with unknown := d.unknown + n }
  | .shutdownDropped => { d with shutdownDropped := d.shutdownDropped + n }

/-- `Diagnostics::record_export`. -/
def Diagnostics.recordExport (d : Diagnostics) (count : Nat) (report : ExportReport) :
    Diagnostics :=
  let d := { d with
    attempts := d.attempts + report.attempts
    possibleDuplicateBatches := d.possibleDuplicateBatches + if report.mayDuplicate then 1 else 0 }
  match report.outcome with
  | .accepted => d.add .accepted count
  | .partiallyAccepted rejected _ => (d.add .accepted (count - rejected)).add .rejected rejected
  | .rejected _ => d.add .rejected count
  | .unknown _ => d.add .unknown count

/-! ## What the counters say -/

/-- How an outcome splits the spans of a batch over the counters. -/
def Exporter.ExportOutcome.shares (count : Nat) : ExportOutcome → List (Counter × Nat)
  | .accepted => [(.accepted, count)]
  | .partiallyAccepted refused _ => [(.accepted, count - refused), (.rejected, refused)]
  | .rejected _ => [(.rejected, count)]
  | .unknown _ => [(.unknown, count)]

def Diagnostics.addAll (d : Diagnostics) (shares : List (Counter × Nat)) : Diagnostics :=
  shares.foldl (fun d share => d.add share.1 share.2) d

theorem Diagnostics.recordExport_eq (d : Diagnostics) (count : Nat) (report : ExportReport) :
    d.recordExport count report = Diagnostics.addAll { d with
      attempts := d.attempts + report.attempts
      possibleDuplicateBatches :=
        d.possibleDuplicateBatches + if report.mayDuplicate then 1 else 0 }
      (report.outcome.shares count) := by
  unfold recordExport
  cases report.outcome <;> rfl

@[simp] theorem Diagnostics.read_add (d : Diagnostics) (c c' : Counter) (n : Nat) :
    (d.add c n).read c' = d.read c' + if c = c' then n else 0 := by
  cases c <;> cases c' <;> rfl

/-- What a list of shares adds to a counter. -/
def sharesOf (c : Counter) (shares : List (Counter × Nat)) : Nat :=
  ((shares.filter fun share => share.1 = c).map Prod.snd).sum

theorem sharesOf_cons (c : Counter) (share : Counter × Nat) (shares : List (Counter × Nat)) :
    sharesOf c (share :: shares) =
      (if share.1 = c then share.2 else 0) + sharesOf c shares := by
  by_cases h : share.1 = c <;> simp [sharesOf, h]

theorem Diagnostics.read_addAll (shares : List (Counter × Nat)) (d : Diagnostics) (c : Counter) :
    (d.addAll shares).read c = d.read c + sharesOf c shares := by
  induction shares generalizing d with
  | nil => rfl
  | cons share shares ih =>
      rw [sharesOf_cons]
      show ((d.add share.1 share.2).addAll shares).read c = _
      rw [ih, read_add, Nat.add_assoc]

/-- Adding to the counters changes nothing else. -/
theorem Diagnostics.addAll_gauges (shares : List (Counter × Nat)) (d : Diagnostics) :
    (d.addAll shares).queuedBytes = d.queuedBytes ∧
      (d.addAll shares).queuedItems = d.queuedItems ∧
      (d.addAll shares).exportQueued = d.exportQueued ∧
      (d.addAll shares).transformed = d.transformed ∧
      (d.addAll shares).spanSize = d.spanSize := by
  induction shares generalizing d with
  | nil => exact ⟨rfl, rfl, rfl, rfl, rfl⟩
  | cons share shares ih =>
      obtain ⟨h1, h2, h3, h4, h5⟩ := ih (d.add share.1 share.2)
      cases hc : share.1 <;> rw [hc] at h1 h2 h3 h4 h5 <;>
        exact ⟨by rw [addAll, List.foldl_cons, hc]; exact h1,
          by rw [addAll, List.foldl_cons, hc]; exact h2,
          by rw [addAll, List.foldl_cons, hc]; exact h3,
          by rw [addAll, List.foldl_cons, hc]; exact h4,
          by rw [addAll, List.foldl_cons, hc]; exact h5⟩

/-- The shares of an outcome are the whole batch, as long as no more spans are
rejected than it has. -/
theorem Exporter.ExportOutcome.shares_sum {count : Nat} {outcome : ExportOutcome}
    (h : ∀ refused warning, outcome = .partiallyAccepted refused warning → refused ≤ count) :
    ((outcome.shares count).map Prod.snd).sum = count := by
  cases outcome with
  | accepted => simp [shares]
  | rejected reason => simp [shares]
  | unknown reason => simp [shares]
  | partiallyAccepted refused warning =>
      have := h refused warning rfl
      simp only [shares, List.map_cons, List.map_nil, List.sum_cons, List.sum_nil]
      omega

end AgentOtelBridge
