import AgentOtelBridge.Daemon.SpanAssembler
import AgentOtelBridge.Lib.PairBufferOrder

/-!
# Oldest first

`SpanAssembler.observe` is to return the spans that leave the map oldest first.  The
one that is evicted is the oldest of those that remain, and none that has expired is
younger.  But the expired ones come in the order of the map's iteration, so they are
in the order of their opening, whatever the iteration is, exactly if all of them were
opened at one time (`run_oldestFirst`).
-/

namespace AgentOtelBridge

open Semconv FiniteMap PairBuffer

namespace SpanAssembler

/-- The spans that `flush_expired` removes, in the order in which it does. -/
def expired (self : SpanAssembler) (ord : IterOrder PairKey) (now : Nat) :
    List (Sigma fun _ : PairKey => Entry Span) :=
  PairBuffer.expired ord self.ttl now self.open

/-- The span that `evict_if_full` removes. -/
def evicted (self : SpanAssembler) (ord : IterOrder PairKey) (span : Span) (now : Nat) :
    Option (Sigma fun _ : PairKey => Entry Span) :=
  PairBuffer.evicted rules self.config ord self.open span now

/-- The spans that are open when `evict_if_full` is called. -/
def stillOpen (self : SpanAssembler) (span : Span) (now : Nat) : Table PairKey Span :=
  PairBuffer.remaining rules self.ttl now self.open span

/-- What `observe` returns, and in which order: the expired spans, the one whose key is
opened again, the evicted one, and the answer to the span itself.  The expired and the
evicted ones are in the order of their opening, and no span that is still open is
older than the evicted one. -/
structure OldestFirst (assembler : SpanAssembler) (ord : IterOrder PairKey) (span : Span) (now : Nat) :
    Prop where
  sent : (assembler.observe ord span now).1 =
    (assembler.expired ord now).map (fun e => emitUnpaired e.2.item) ++
      (PairBuffer.displaced rules assembler.ttl now assembler.open span).toList.map
        (fun e => emitUnpaired e.item) ++
      (assembler.evicted ord span now).toList.map (fun e => emitUnpaired e.2.item) ++
      PairBuffer.answer rules assembler.ttl now assembler.open span
  ordered : (assembler.expired ord now ++ (assembler.evicted ord span now).toList).Pairwise
    fun e e' => e.2.opened ≤ e'.2.opened
  oldest : ∀ e, assembler.evicted ord span now = some e →
    ∀ other ∈ (assembler.stillOpen span now).entries, e.2.opened ≤ other.2.opened

theorem oldestFirst_iff {self : SpanAssembler} {ord : IterOrder PairKey} {span : Span} {now : Nat} :
    OldestFirst self ord span now ↔
      PairBuffer.OldestFirst rules self.config ord self.open span now := by
  constructor
  · exact fun first => ⟨first.ordered, first.oldest⟩
  · intro first
    refine ⟨?_, first.ordered, first.oldest⟩
    rw [observe_eq]
    exact PairBuffer.observe_sent rules self.config ord self.open span now

/-- At every step of a run the spans that leave are returned oldest first, in whatever
order the map is iterated. -/
def RunOldestFirst (self : SpanAssembler) (es : List (Event PairKey Span)) : Prop :=
  ∀ front e back, es = front ++ e :: back → ∀ ord, OldestFirst (self.run front).2 ord e.item e.now

/-- At every step of a run the spans that have expired were opened at one time. -/
def RunSameOpening (self : SpanAssembler) (es : List (Event PairKey Span)) : Prop :=
  ∀ front e back, es = front ++ e :: back →
    SameOpening (self.run front).2.ttl e.now (self.run front).2.open

/-- **Oldest first** is what a run keeps to, in whatever order the map is iterated, exactly
if no step finds two expired spans of different opening times. -/
theorem run_oldestFirst (capacity ttl : Nat) (es : List (Event PairKey Span)) :
    RunOldestFirst (.new capacity ttl) es ↔ RunSameOpening (.new capacity ttl) es := by
  unfold RunOldestFirst RunSameOpening
  refine forall₄_congr fun front e back split => ?_
  simp only [oldestFirst_iff]
  exact forall_oldestFirst_iff

/-- Two calls of tools that are left open, and a later one. -/
def abandonedCalls : List (Event PairKey Span) :=
  [⟨toolSpan "PreToolUse" "c" "first" 1, 1, .id⟩, ⟨toolSpan "PreToolUse" "c" "second" 2, 2, .id⟩,
    ⟨toolSpan "PreToolUse" "c" "third" 100, 100, .id⟩]

/-- The younger of two expired spans comes first, when the iteration meets it first. -/
theorem not_oldestFirst_abandonedCalls :
    abandonedCalls.Pairwise (fun e e' => e.now ≤ e'.now) ∧
      ¬ RunOldestFirst (.new 4 10) abandonedCalls := by
  refine ⟨by decide, fun claim => ?_⟩
  have first := (claim (abandonedCalls.take 2) ⟨toolSpan "PreToolUse" "c" "third" 100, 100, .id⟩ []
    rfl .id).ordered
  have younger : ((((SpanAssembler.new 4 10).run (abandonedCalls.take 2)).2.expired .id 100).map
      fun e => e.2.opened) = [2, 1] := by decide +kernel
  have sorted := List.pairwise_map.mpr ((List.pairwise_append.mp first).1)
  rw [younger] at sorted
  exact absurd sorted (by decide)

end SpanAssembler

end AgentOtelBridge
