import Mathlib.Data.List.Chain
import Mathlib.Data.List.Nodup

/-!
# Depth-first walks of limited depth

A walk enters each node once, and goes on from a node by at most the steps that are left where
it enters the node.  What is entered grows from the walk of one root to that of the next.

A node is entered by a simple route from a root (`Entry`), and if this leaves steps, what
follows the node is entered too (`scan_closed`).  It need not be the shortest route.  So a route
to a node is walked if none of its nodes can be entered by so many steps that too few are left
for the rest (`mem_scan_of_roomy`), whatever the order of the roots and of what follows a node.  In a tree all
routes to a node have one length, and each is walked (`roomy_of_levels`).
-/

namespace DepthFirst

variable {α : Type*} (next : α → List α)

section

variable [DecidableEq α]

/-- What is entered when a node has been reached, which the rest of the walk goes on from. -/
def enter (walk : α → List α → List α) (entered : List α) (node : α) : List α :=
  if node ∈ entered then entered else walk node (entered ++ [node])

/-- What is entered when a node has been walked, with some steps left. -/
def walk : Nat → α → List α → List α
  | 0, _, entered => entered
  | steps + 1, node, entered => (next node).foldl (enter (walk steps)) entered

/-- What is entered from some roots. -/
def scan (roots : List α) (steps : Nat) : List α := roots.foldl (enter (walk next steps)) []

end

/-! ## Statements -/

/-- A route, node by node. -/
def Route (path : List α) : Prop := path.IsChain fun node other => other ∈ next node

/-- A node is entered by a simple route from a root, of a number of steps. -/
def Entry (roots : List α) (node : α) (steps : Nat) : Prop :=
  ∃ root path, root ∈ roots ∧ Route next (root :: path) ∧ (root :: path).Nodup ∧
    (root :: path).getLast? = some node ∧ path.length = steps

/-- However the nodes of a route are entered, there are steps left for the rest of it. -/
def Roomy (roots : List α) (limit : Nat) (path : List α) : Prop :=
  ∀ front node back, path = front ++ node :: back →
    ∀ steps ≤ limit, Entry next roots node steps → steps + back.length ≤ limit

variable {next} {roots : List α} {limit : Nat}

/-! ## Orders -/

/-- Routes do not depend on the order of what follows a node. -/
theorem route_congr {next' : α → List α}
    (same : ∀ node other, other ∈ next' node ↔ other ∈ next node) (path : List α) :
    Route next' path ↔ Route next path := by
  have relations : (fun node other => other ∈ next' node) = fun node other => other ∈ next node := by
    funext node other
    exact propext (same node other)
  rw [Route, relations, Route]

theorem entry_congr {next' : α → List α} {roots' : List α}
    (same : ∀ node other, other ∈ next' node ↔ other ∈ next node)
    (rooted : ∀ root, root ∈ roots' ↔ root ∈ roots) (node : α) (steps : Nat) :
    Entry next' roots' node steps ↔ Entry next roots node steps := by
  simp only [Entry, rooted, route_congr same]

/-- Whether a route is roomy does not depend on orders. -/
theorem roomy_congr {next' : α → List α} {roots' : List α}
    (same : ∀ node other, other ∈ next' node ↔ other ∈ next node)
    (rooted : ∀ root, root ∈ roots' ↔ root ∈ roots) (path : List α) :
    Roomy next' roots' limit path ↔ Roomy next roots limit path := by
  simp only [Roomy, entry_congr same rooted]

/-! ## Levels -/

/-- Where each step leads one level down, a route has as many steps as it has levels. -/
theorem level_of_route {level : α → Nat}
    (down : ∀ node, ∀ other ∈ next node, level other = level node + 1) {root node : α}
    {path : List α} (route : Route next (root :: path))
    (last : (root :: path).getLast? = some node) : level node = level root + path.length := by
  induction path generalizing root with
  | nil =>
      cases last
      rfl
  | cons follower path ih =>
      obtain ⟨follows, route⟩ := List.isChain_cons_cons.mp route
      rw [ih route last, down root follower follows, List.length_cons]
      omega

/-- Where each step leads one level down from roots of one level, each route is roomy. -/
theorem roomy_of_levels {level : α → Nat} {top : Nat}
    (down : ∀ node, ∀ other ∈ next node, level other = level node + 1)
    (rooted : ∀ root ∈ roots, level root = top) {root : α} {path : List α} (isRoot : root ∈ roots)
    (route : Route next (root :: path)) (short : path.length ≤ limit) :
    Roomy next roots limit (root :: path) := by
  intro front node back shape steps _ entry
  obtain ⟨other, path', isOther, route', _, last, rfl⟩ := entry
  have entered := level_of_route down route' last
  have reached : level node = top + front.length := by
    cases front with
    | nil =>
        obtain ⟨rfl, -⟩ := List.cons.inj shape
        exact rooted root isRoot
    | cons first front =>
        obtain ⟨rfl, same⟩ := List.cons.inj shape
        have before : Route next (root :: (front ++ [node])) := by
          rw [same, List.append_eq, List.append_cons, ← List.cons_append] at route
          exact (List.isChain_append.mp route).1
        rw [level_of_route down before (by rw [← List.cons_append, List.getLast?_concat]), rooted root isRoot]
        simp
  have total : path.length + 1 = front.length + (back.length + 1) := by
    simpa using congrArg List.length shape
  rw [rooted other isOther] at entered
  omega

/-! ## Steps -/

/-- What a walk does to what is entered: it goes on from it, and each new node is entered by a
simple route of new nodes, from one of some heads, behind which all is entered if steps are left. -/
structure Walked (next : α → List α) (heads : α → Prop) (steps : Nat)
    (entered entered' : List α) : Prop where
  grows : ∀ node ∈ entered, node ∈ entered'
  distinct : entered.Nodup → entered'.Nodup
  entry : ∀ node ∈ entered', node ∉ entered → ∃ head path, heads head ∧
    Route next (head :: path) ∧ (head :: path).Nodup ∧ (head :: path).getLast? = some node ∧
    (∀ other ∈ head :: path, other ∉ entered) ∧ path.length ≤ steps ∧
    (path.length < steps → ∀ other ∈ next node, other ∈ entered')

theorem Walked.refl (heads : α → Prop) (steps : Nat) (entered : List α) :
    Walked next heads steps entered entered where
  grows _ member := member
  distinct := id
  entry _ member other := absurd member other

theorem Walked.trans {heads : α → Prop} {steps : Nat} {first second third : List α}
    (left : Walked next heads steps first second) (right : Walked next heads steps second third) :
    Walked next heads steps first third where
  grows node member := right.grows node (left.grows node member)
  distinct := right.distinct ∘ left.distinct
  entry node member new := by
    rcases Classical.em (node ∈ second) with before | after
    · obtain ⟨head, path, isHead, route, simple, last, fresh, short, closed⟩ :=
        left.entry node before new
      exact ⟨head, path, isHead, route, simple, last, fresh, short,
        fun room other follows => right.grows other (closed room other follows)⟩
    · obtain ⟨head, path, isHead, route, simple, last, fresh, short, closed⟩ :=
        right.entry node member after
      exact ⟨head, path, isHead, route, simple, last,
        fun other listed there => fresh other listed (left.grows other there), short, closed⟩

theorem Walked.mono {heads heads' : α → Prop} (weaker : ∀ node, heads node → heads' node)
    {steps : Nat} {entered entered' : List α} (walked : Walked next heads steps entered entered') :
    Walked next heads' steps entered entered' where
  grows := walked.grows
  distinct := walked.distinct
  entry node member new := by
    obtain ⟨head, path, isHead, rest⟩ := walked.entry node member new
    exact ⟨head, path, weaker head isHead, rest⟩

variable [DecidableEq α]

/-- What reaching a node does. -/
def Enters (next : α → List α) (steps : Nat) : Prop :=
  ∀ (entered : List α) (node : α),
    Walked next (· = node) steps entered (enter (walk next steps) entered node) ∧
      node ∈ enter (walk next steps) entered node

theorem walked_foldl {steps : Nat} (enters : Enters next steps) (nodes entered : List α) :
    Walked next (· ∈ nodes) steps entered (nodes.foldl (enter (walk next steps)) entered) ∧
      ∀ node ∈ nodes, node ∈ nodes.foldl (enter (walk next steps)) entered := by
  induction nodes generalizing entered with
  | nil => exact ⟨Walked.refl _ _ _, fun _ member => absurd member List.not_mem_nil⟩
  | cons head nodes ih =>
      obtain ⟨first, there⟩ := enters entered head
      obtain ⟨rest, others⟩ := ih (enter (walk next steps) entered head)
      rw [List.foldl_cons]
      constructor
      · refine Walked.trans (first.mono ?_) (rest.mono fun _ => List.mem_cons_of_mem head)
        rintro _ rfl
        exact List.mem_cons_self
      · intro node member
        rcases List.mem_cons.mp member with rfl | member
        · exact rest.grows node there
        · exact others node member

/-- A node that is new is entered before what follows it. -/
theorem enters_of_walked {steps : Nat}
    (walked : ∀ entered node, Walked next (fun head => head ∈ next node ∧ 0 < steps) (steps - 1)
      entered (walk next steps node entered) ∧
        (0 < steps → ∀ other ∈ next node, other ∈ walk next steps node entered)) :
    Enters next steps := by
  intro entered node
  rw [enter]
  split
  next there => exact ⟨Walked.refl _ _ _, there⟩
  next new =>
    obtain ⟨behind, closed⟩ := walked (entered ++ [node]) node
    have there : node ∈ walk next steps node (entered ++ [node]) :=
      behind.grows node (List.mem_append_right entered (.head _))
    refine ⟨⟨fun other member => behind.grows other (List.mem_append_left _ member), ?_, ?_⟩, there⟩
    · intro distinct
      refine behind.distinct (List.nodup_append.mpr ⟨distinct, List.nodup_singleton node, ?_⟩)
      intro other member last isLast same
      exact new (List.mem_singleton.mp isLast ▸ same ▸ member)
    · intro other member fresh
      rcases eq_or_ne other node with rfl | differs
      · exact ⟨other, [], rfl, List.isChain_singleton _, List.nodup_singleton _, rfl,
          fun _ listed => List.mem_singleton.mp listed ▸ fresh, Nat.zero_le _, closed⟩
      · have unseen : other ∉ entered ++ [node] := by
          intro seen
          rcases List.mem_append.mp seen with seen | seen
          · exact fresh seen
          · exact differs (List.mem_singleton.mp seen)
        obtain ⟨head, path, ⟨follows, some⟩, route, simple, last, new_, short, more⟩ :=
          behind.entry other member unseen
        refine ⟨node, head :: path, rfl, List.isChain_cons_cons.mpr ⟨follows, route⟩, ?_, last,
          ?_, ?_, ?_⟩
        · exact List.nodup_cons.mpr
            ⟨fun listed => new_ node listed (List.mem_append_right _ (.head _)), simple⟩
        · intro step listed
          rcases List.mem_cons.mp listed with rfl | listed
          · exact new
          · exact fun seen => new_ step listed (List.mem_append_left _ seen)
        · rw [List.length_cons]
          omega
        · intro room
          rw [List.length_cons] at room
          exact more (by omega)

theorem enters (steps : Nat) : Enters next steps := by
  induction steps with
  | zero =>
      exact enters_of_walked fun entered node =>
        ⟨Walked.refl _ _ _, fun some => absurd some (Nat.lt_irrefl 0)⟩
  | succ steps ih =>
      refine enters_of_walked fun entered node => ?_
      obtain ⟨walked, closed⟩ := walked_foldl ih (next node) entered
      exact ⟨walked.mono fun _ follows => ⟨follows, Nat.succ_pos steps⟩, fun _ => closed⟩

/-! ## Scans -/

theorem scan_nodup : (scan next roots limit).Nodup :=
  (walked_foldl (enters limit) roots []).1.distinct List.nodup_nil

theorem mem_scan_of_root {root : α} (isRoot : root ∈ roots) : root ∈ scan next roots limit :=
  (walked_foldl (enters limit) roots []).2 root isRoot

/-- What is entered is so by a simple route, and if steps are left, so is what follows it. -/
theorem scan_closed {node : α} (member : node ∈ scan next roots limit) :
    ∃ steps ≤ limit, Entry next roots node steps ∧
      (steps < limit → ∀ other ∈ next node, other ∈ scan next roots limit) := by
  obtain ⟨head, path, isRoot, route, simple, last, _, short, closed⟩ :=
    (walked_foldl (enters limit) roots []).1.entry node member List.not_mem_nil
  exact ⟨path.length, short, ⟨head, path, isRoot, route, simple, last, rfl⟩, closed⟩

/-- From a node of a roomy route that is entered, the rest of the route is walked. -/
theorem mem_scan_of_mem {path : List α} (route : Route next path)
    (roomy : Roomy next roots limit path) {front back : List α} {node : α}
    (shape : path = front ++ node :: back) (member : node ∈ scan next roots limit) :
    ∀ other ∈ node :: back, other ∈ scan next roots limit := by
  induction back generalizing front node with
  | nil =>
      intro other listed
      exact List.mem_singleton.mp listed ▸ member
  | cons follower back ih =>
      have follows : follower ∈ next node := by
        rw [shape] at route
        exact (List.isChain_cons_cons.mp (List.isChain_append.mp route).2.1).1
      obtain ⟨steps, short, entry, closed⟩ := scan_closed member
      have left := roomy front node (follower :: back) shape steps short entry
      rw [List.length_cons] at left
      have there : follower ∈ scan next roots limit := closed (by omega) follower follows
      have shape' : path = (front ++ [node]) ++ follower :: back := by
        rw [shape, List.append_assoc, List.singleton_append]
      intro other listed
      rcases List.mem_cons.mp listed with rfl | listed
      · exact member
      · exact ih shape' there other listed

/-- A route is walked to its end if it is roomy, whatever is entered before. -/
theorem mem_scan_of_roomy {root : α} {path : List α} (isRoot : root ∈ roots)
    (route : Route next (root :: path)) (roomy : Roomy next roots limit (root :: path)) :
    ∀ node ∈ root :: path, node ∈ scan next roots limit :=
  mem_scan_of_mem route roomy (List.nil_append _).symm (mem_scan_of_root isRoot)

end DepthFirst
