import Mathlib.Data.List.DropRight

/-!
# Unix paths

A path is a list of characters, read as a systems language reads it.  It is cut
at `/` into segments.  The empty segment and `.` are skipped, except a leading
`.`, and the rest are components: the root directory when the path starts with
`/`, the parent directory for `..`, and names.

Components are read from the front by an iterator that keeps the segments it has
not read, so that what is left can be written out again (`asPath`).  `lexical`
resolves the components without a file system.  A path of plain names is
`render`ed in one way, and `push` and `pop` of a path buffer are `++ [name]` and
`dropLast` of the names.
-/

namespace UnixPath

inductive Component where
  | rootDir
  | curDir
  | parentDir
  | normal (name : List Char)
deriving DecidableEq, Repr

def separator : Char := '/'

/-- The text between the separators. -/
def segments (path : List Char) : List (List Char) := path.splitOn '/'

def join (segs : List (List Char)) : List Char := ['/'].intercalate segs

/-- A segment that is no component. -/
def skipped (seg : List Char) : Bool := seg = [] || seg = ['.']

def component (seg : List Char) : Component :=
  if seg = ['.', '.'] then .parentDir else .normal seg

/-- The components of the segments behind the start of a path. -/
def bodyOf (segs : List (List Char)) : List Component :=
  (segs.filter fun seg => !skipped seg).map component

/-- The components of the segments of a whole path. -/
def componentsOf : List (List Char) → List Component
  | [] :: seg :: segs => .rootDir :: bodyOf (seg :: segs)
  | ['.'] :: segs => .curDir :: bodyOf segs
  | segs => bodyOf segs

def components (path : List Char) : List Component := componentsOf (segments path)

def isAbsolute (path : List Char) : Bool := path.head? = some '/'

def fileName (path : List Char) : Option (List Char) :=
  match (components path).getLast? with
  | some (.normal name) => some name
  | _ => none

/-- The file name before its last dot; a name that only starts with a dot has no
other part. -/
def fileStem (path : List Char) : Option (List Char) :=
  (fileName path).map fun name =>
    let stem := (name.reverse.dropWhile (· ≠ '.')).tail.reverse
    if stem = [] then name else stem

/-! ## Reading components -/

/-- The segments that are not read yet, and whether none is read. -/
structure Components where
  fresh : Bool
  segs : List (List Char)

namespace Components

def ofPath (path : List Char) : Components := ⟨true, segments path⟩

def toList (c : Components) : List Component :=
  if c.fresh then componentsOf c.segs else bodyOf c.segs

/-- The next component of the segments behind the start. -/
def nextBody (segs : List (List Char)) : Option (Component × Components) :=
  match segs.dropWhile skipped with
  | [] => none
  | seg :: rest => some (component seg, ⟨false, rest⟩)

def next : Components → Option (Component × Components)
  | ⟨true, [] :: seg :: segs⟩ => some (.rootDir, ⟨false, seg :: segs⟩)
  | ⟨true, ['.'] :: segs⟩ => some (.curDir, ⟨false, segs⟩)
  | ⟨_, segs⟩ => nextBody segs

/-- What is left, without the separators and dots at its ends. -/
def asPath : Components → List Char
  | ⟨true, [] :: seg :: segs⟩ => '/' :: join ((seg :: segs).rdropWhile skipped)
  | ⟨true, ['.'] :: segs⟩ => join (['.'] :: segs.rdropWhile skipped)
  | ⟨true, segs⟩ => join (segs.rdropWhile skipped)
  | ⟨false, segs⟩ => join ((segs.dropWhile skipped).rdropWhile skipped)

/-- What is left when a list of components is read first. -/
def iterAfter (c : Components) : List Component → Option Components
  | [] => some c
  | x :: xs =>
      match c.next with
      | some (y, rest) => if y = x then rest.iterAfter xs else none
      | none => none

end Components

def stripPrefix (path base : List Char) : Option (List Char) :=
  ((Components.ofPath path).iterAfter (components base)).map Components.asPath

/-! ## Path buffers -/

def push (buf path : List Char) : List Char :=
  if isAbsolute path then path
  else if buf = [] ∨ buf.getLast? = some '/' then buf ++ path
  else buf ++ '/' :: path

/-- The path without its last component; the root directory and the empty path
have no parent. -/
def parent (path : List Char) : Option (List Char) :=
  match segments path with
  | [] :: seg :: segs =>
      match (seg :: segs).rdropWhile skipped with
      | [] => none
      | body => some ('/' :: join (body.dropLast.rdropWhile skipped))
  | ['.'] :: segs =>
      match segs.rdropWhile skipped with
      | [] => some []
      | body => some (join (['.'] :: body.dropLast.rdropWhile skipped))
  | segs =>
      match segs.rdropWhile skipped with
      | [] => none
      | body => some (join (body.dropLast.rdropWhile skipped))

def pop (buf : List Char) : List Char := (parent buf).getD buf

/-! ## Segments -/

theorem not_mem_of_mem_segments {seg : List Char} {path : List Char} (h : seg ∈ segments path) :
    '/' ∉ seg := by
  induction path generalizing seg with
  | nil =>
      obtain rfl : seg = [] := by simpa [segments] using h
      exact List.not_mem_nil
  | cons c path ih =>
      rw [segments, List.splitOn_cons_eq_if_modifyHead] at h
      split at h
      next isSeparator =>
        rcases List.mem_cons.mp h with rfl | later
        · exact List.not_mem_nil
        · exact ih later
      next notSeparator =>
        obtain ⟨head, tail, split_⟩ := List.exists_cons_of_ne_nil (List.splitOn_ne_nil '/' path)
        rw [split_, List.modifyHead_cons] at h
        rcases List.mem_cons.mp h with rfl | later
        · have headClean : '/' ∉ head := ih (by rw [segments, split_]; exact .head _)
          have first : c ≠ '/' := by simpa using notSeparator
          simpa [headClean] using first.symm
        · exact ih (by rw [segments, split_]; exact .tail _ later)

theorem segments_append (front back : List Char) :
    segments (front ++ '/' :: back) = segments front ++ segments back :=
  List.splitOn_append_cons_self front back

theorem segments_ne_nil (path : List Char) : segments path ≠ [] := List.splitOn_ne_nil _ _

@[simp] theorem segments_cons_separator (path : List Char) :
    segments ('/' :: path) = [] :: segments path :=
  segments_append [] path

theorem segments_join {segs : List (List Char)} (clean : ∀ seg ∈ segs, '/' ∉ seg)
    (nonempty : segs ≠ []) : segments (join segs) = segs :=
  List.splitOn_intercalate '/' clean nonempty

theorem bodyOf_append (front back : List (List Char)) :
    bodyOf (front ++ back) = bodyOf front ++ bodyOf back := by
  simp [bodyOf]

/-- Behind the start, the segments that are skipped do not matter. -/
theorem bodyOf_dropWhile (segs : List (List Char)) :
    bodyOf (segs.dropWhile skipped) = bodyOf segs := by
  induction segs with
  | nil => rfl
  | cons seg segs ih =>
      cases skip : skipped seg with
      | true => rw [List.dropWhile_cons_of_pos skip, ih, bodyOf, bodyOf, List.filter_cons, skip]; rfl
      | false => rw [List.dropWhile_cons_of_neg (by simp [skip])]

theorem components_absolute (path : List Char) :
    components ('/' :: path) = .rootDir :: bodyOf (segments path) := by
  obtain ⟨seg, segs, split_⟩ := List.exists_cons_of_ne_nil (segments_ne_nil path)
  rw [components, segments_cons_separator, split_]
  rfl

/-! ## Plain names -/

/-- A name that is one component of any path. -/
structure Plain (name : List Char) : Prop where
  separator : '/' ∉ name
  kept : skipped name = false
  notParent : name ≠ ['.', '.']

theorem Plain.ne_nil {name : List Char} (plain : Plain name) : name ≠ [] := by
  rintro rfl
  exact Bool.false_ne_true plain.kept.symm

theorem plain_of_mem_bodyOf {segs : List (List Char)} (clean : ∀ seg ∈ segs, '/' ∉ seg)
    {name : List Char} (membership : .normal name ∈ bodyOf segs) : Plain name := by
  obtain ⟨seg, filtered, isName⟩ := List.mem_map.mp membership
  obtain ⟨inSegs, kept⟩ := List.mem_filter.mp filtered
  unfold component at isName
  split at isName
  · cases isName
  next notParent =>
    obtain rfl : seg = name := by simpa using isName
    exact ⟨clean seg inSegs, by simpa using kept, notParent⟩

/-- The absolute path of some names. -/
def render (names : List (List Char)) : List Char := '/' :: join names

theorem segments_render {names : List (List Char)} (plain : ∀ name ∈ names, Plain name)
    (nonempty : names ≠ []) : segments (render names) = [] :: names := by
  rw [render, segments_cons_separator,
    segments_join (fun name h => (plain name h).separator) nonempty]

/-- A path has its names from its text. -/
theorem render_injective {names others : List (List Char)} (plain : ∀ name ∈ names, Plain name)
    (plain' : ∀ name ∈ others, Plain name) (same : render names = render others) :
    names = others := by
  have joined : join names = join others := (List.cons.inj same).2
  have splits : segments (join names) = segments (join others) := congrArg segments joined
  cases names with
  | nil =>
      cases others with
      | nil => rfl
      | cons other others =>
          rw [segments_join (fun name h => (plain' name h).separator) (by simp)] at splits
          have head : [] = other := (List.cons.inj splits).1
          exact absurd head.symm (plain' other (.head _)).ne_nil
  | cons name names =>
      rw [segments_join (fun name h => (plain name h).separator) (by simp)] at splits
      cases others with
      | nil =>
          have head : name = [] := (List.cons.inj splits).1
          exact absurd head (plain name (.head _)).ne_nil
      | cons other others =>
          rwa [segments_join (fun name h => (plain' name h).separator) (by simp)] at splits

theorem join_concat (names : List (List Char)) (name : List Char) (nonempty : names ≠ []) :
    join (names ++ [name]) = join names ++ '/' :: name := by
  induction names with
  | nil => exact absurd rfl nonempty
  | cons first names ih =>
      cases names with
      | nil => simp [join, List.intercalate_cons_cons]
      | cons second names =>
          have rest := ih (by simp)
          simp only [join, List.cons_append, List.intercalate_cons_cons] at rest ⊢
          rw [rest]
          simp

theorem isAbsolute_plain {name : List Char} (plain : Plain name) : isAbsolute name = false := by
  cases name with
  | nil => rfl
  | cons c rest =>
      have first : c ≠ '/' := by
        rintro rfl
        exact plain.separator (.head _)
      simpa [isAbsolute] using first

theorem getLast?_join_concat (names : List (List Char)) {name : List Char} (plain : Plain name) :
    (join (names ++ [name])).getLast? ≠ some '/' := by
  have last : (join (names ++ [name])).getLast? = name.getLast? := by
    cases names with
    | nil => simp [join]
    | cons first names =>
        rw [join_concat _ _ (by simp), List.getLast?_append_of_ne_nil _ (by simp),
          List.getLast?_cons, List.getLast?_eq_some_getLast plain.ne_nil]
        rfl
  rw [last]
  intro isSeparator
  exact plain.separator (List.mem_of_getLast? isSeparator)

/-- Pushing a name onto a path appends it to the names. -/
theorem push_render {names : List (List Char)} (plain : ∀ name ∈ names, Plain name)
    {name : List Char} (plainName : Plain name) :
    push (render names) name = render (names ++ [name]) := by
  rw [push, isAbsolute_plain plainName, if_neg Bool.false_ne_true]
  rcases List.eq_nil_or_concat' names with rfl | ⟨front, last, rfl⟩
  · simp [render, join]
  · have notSlash : (render (front ++ [last])).getLast? ≠ some '/' := by
      have nonempty : join (front ++ [last]) ≠ [] := by
        intro empty
        have split_ := segments_join (fun n h => (plain n h).separator) (by simp : front ++ [last] ≠ [])
        rw [empty] at split_
        have single : front ++ [last] = [[]] := split_.symm
        exact (plain [] (single ▸ .head _)).ne_nil rfl
      rw [render, List.getLast?_cons, List.getLast?_eq_some_getLast nonempty, Option.getD_some]
      have inner := getLast?_join_concat front (plain last (by simp))
      rwa [List.getLast?_eq_some_getLast nonempty] at inner
    have needsSeparator :
        ¬ (render (front ++ [last]) = [] ∨ (render (front ++ [last])).getLast? = some '/') := by
      rintro (empty | slash)
      · exact absurd empty (List.cons_ne_nil _ _)
      · exact notSlash slash
    rw [if_neg needsSeparator, render, render, join_concat (front ++ [last]) name (by simp)]
    rfl

/-- Popping a path drops the last of its names. -/
theorem pop_render {names : List (List Char)} (plain : ∀ name ∈ names, Plain name) :
    pop (render names) = render names.dropLast := by
  have kept : ∀ some_ : List (List Char), (∀ name ∈ some_, Plain name) →
      some_.rdropWhile skipped = some_ := by
    intro some_ plain
    refine List.rdropWhile_eq_self_iff.mpr fun nonempty => ?_
    simp [(plain _ (List.getLast_mem nonempty)).kept]
  cases names with
  | nil => rfl
  | cons name names =>
      have split_ := segments_render plain (by simp)
      have keptAll := kept _ plain
      have keptFront := kept _ fun n h => plain n (List.dropLast_subset _ h)
      rw [pop, parent, split_]
      simp only [keptAll, keptFront, Option.getD_some, render]

/-! ## Lexical normalization -/

/-- A component resolved against the names before it. -/
def resolve (names : List (List Char)) : Component → List (List Char)
  | .rootDir => []
  | .curDir => names
  | .parentDir => names.dropLast
  | .normal name => names ++ [name]

/-- The names of a path with its components resolved in order. -/
def lexical (path : List Char) : List (List Char) := (components path).foldl resolve []

theorem resolve_plain {names : List (List Char)} (plain : ∀ name ∈ names, Plain name)
    {c : Component} (plainName : ∀ name, c = .normal name → Plain name) :
    ∀ name ∈ resolve names c, Plain name := by
  intro name membership
  cases c with
  | rootDir => cases membership
  | curDir => exact plain name membership
  | parentDir => exact plain name (List.dropLast_subset _ membership)
  | normal last =>
      rcases List.mem_append.mp membership with before | new
      · exact plain name before
      · obtain rfl : name = last := by simpa using new
        exact plainName name rfl

theorem foldl_resolve_plain {cs : List Component} (plainNames : ∀ name, .normal name ∈ cs → Plain name)
    {names : List (List Char)} (plain : ∀ name ∈ names, Plain name) :
    ∀ name ∈ cs.foldl resolve names, Plain name := by
  induction cs generalizing names with
  | nil => exact plain
  | cons c cs ih =>
      apply ih (fun name h => plainNames name (.tail _ h))
      exact resolve_plain plain fun name isName => plainNames name (isName ▸ .head _)

end UnixPath
