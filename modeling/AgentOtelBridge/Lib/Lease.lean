import Mathlib.Algebra.BigOperators.Group.List.Basic
import Mathlib.Algebra.GroupWithZero.Nat
import Mathlib.Data.List.Perm.Basic

/-!
# Leases on a pool

A pool has a semaphore and a gauge that is kept beside it.  A lease takes its
permits first and raises the gauge then; it lowers the gauge first and gives the
permits back then.  Between the two updates the pool and the gauge disagree, and
a ticket says where each lease stands.

`Books` is the account of a pool and the tickets on it.  It does not depend on
the order of the tickets, and each of the four updates has a rule.
-/

namespace Lease

/-- Where a lease stands: its permits are taken and not counted yet, it is alive,
or it is not counted any more and its permits are not given back yet. -/
inductive Phase where
  | reserved
  | live
  | released
deriving DecidableEq, Repr

structure Ticket where
  weight : Nat
  phase : Phase
deriving DecidableEq, Repr

structure Pool where
  free : Nat
  gauge : Int
deriving DecidableEq, Repr

/-- What a ticket adds to the gauge. -/
def Ticket.counted (t : Ticket) : Nat :=
  match t.phase with
  | .live => t.weight
  | .reserved | .released => 0

/-- The permits that tickets hold. -/
def held (ts : List Ticket) : Nat := (ts.map Ticket.weight).sum

/-- The sum of the leases that are alive. -/
def live (ts : List Ticket) : Nat := (ts.map Ticket.counted).sum

@[simp] theorem held_nil : held [] = 0 := rfl

@[simp] theorem live_nil : live [] = 0 := rfl

@[simp] theorem held_cons (t : Ticket) (ts : List Ticket) :
    held (t :: ts) = t.weight + held ts := rfl

@[simp] theorem live_cons (t : Ticket) (ts : List Ticket) :
    live (t :: ts) = t.counted + live ts := rfl

theorem held_perm {ts us : List Ticket} (h : ts.Perm us) : held ts = held us :=
  (h.map _).sum_eq

theorem live_perm {ts us : List Ticket} (h : ts.Perm us) : live ts = live us :=
  (h.map _).sum_eq

theorem Ticket.counted_le (t : Ticket) : t.counted ≤ t.weight := by
  unfold Ticket.counted
  split <;> omega

theorem live_le_held (ts : List Ticket) : live ts ≤ held ts := by
  induction ts with
  | nil => exact Nat.le_refl _
  | cons t ts ih => exact Nat.add_le_add t.counted_le ih

namespace Pool

def full (total : Nat) : Pool := ⟨total, 0⟩

/-- The semaphore gives permits. -/
def acquire (p : Pool) (w : Nat) : Pool := { p with free := p.free - w }

/-- The gauge counts a lease. -/
def activate (p : Pool) (w : Nat) : Pool := { p with gauge := p.gauge + w }

/-- The gauge counts a lease no more. -/
def deactivate (p : Pool) (w : Nat) : Pool := { p with gauge := p.gauge - w }

/-- The semaphore takes permits back. -/
def release (p : Pool) (w : Nat) : Pool := { p with free := p.free + w }

end Pool

/-- The account of a pool and its tickets: no permit is lost and the gauge is the
sum of the leases that are alive. -/
structure Books (total : Nat) (p : Pool) (ts : List Ticket) : Prop where
  free : p.free + held ts = total
  gauge : p.gauge = live ts

namespace Books

variable {total w : Nat} {p : Pool} {ts us : List Ticket}

theorem full (total : Nat) : Books total (.full total) [] := ⟨rfl, rfl⟩

theorem perm (h : Books total p ts) (hp : ts.Perm us) : Books total p us :=
  ⟨held_perm hp ▸ h.free, live_perm hp ▸ h.gauge⟩

/-! ## The life of a lease -/

theorem acquire (h : Books total p ts) (hw : w ≤ p.free) :
    Books total (p.acquire w) (⟨w, .reserved⟩ :: ts) where
  free := by
    have hf := h.free
    simp only [Pool.acquire, held_cons]
    omega
  gauge := by simpa [Pool.acquire, Ticket.counted] using h.gauge

theorem activate (h : Books total p (⟨w, .reserved⟩ :: ts)) :
    Books total (p.activate w) (⟨w, .live⟩ :: ts) where
  free := h.free
  gauge := by
    have hg := h.gauge
    simp only [live_cons, Ticket.counted] at hg
    simp only [Pool.activate, live_cons, Ticket.counted]
    omega

theorem deactivate (h : Books total p (⟨w, .live⟩ :: ts)) :
    Books total (p.deactivate w) (⟨w, .released⟩ :: ts) where
  free := h.free
  gauge := by
    have hg := h.gauge
    simp only [live_cons, Ticket.counted] at hg
    simp only [Pool.deactivate, live_cons, Ticket.counted]
    omega

theorem release (h : Books total p (⟨w, .released⟩ :: ts)) :
    Books total (p.release w) ts where
  free := by
    have hf := h.free
    simp only [held_cons] at hf
    simp only [Pool.release]
    omega
  gauge := by simpa [Pool.release, Ticket.counted] using h.gauge

/-! ## What the books say -/

theorem gauge_nonneg (h : Books total p ts) : 0 ≤ p.gauge :=
  h.gauge ▸ Int.natCast_nonneg _

theorem gauge_le (h : Books total p ts) : p.gauge ≤ total := by
  have hf := h.free
  have hg := h.gauge
  have hl := live_le_held ts
  omega

/-- A pool without tickets is as it was at first. -/
theorem idle (h : Books total p []) : p = .full total := by
  have hf := h.free
  have hg := h.gauge
  cases p
  simp_all [Pool.full]

end Books

end Lease
