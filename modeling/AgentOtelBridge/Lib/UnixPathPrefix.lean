import AgentOtelBridge.Lib.UnixPath

/-!
# Prefixes of Unix paths

What is left of a path behind a prefix is relative, unless the prefix is empty.  It
does not depend on the directories that the path and the prefix have in common.
-/

namespace UnixPath

/-! ## Reading behind the start -/

namespace Components

@[simp] theorem next_body (segs : List (List Char)) : next ⟨false, segs⟩ = nextBody segs := by
  unfold next
  split <;> simp_all

/-- A path that starts with a name has no start of its own. -/
theorem next_plain {seg : List Char} (root : seg ≠ []) (dot : seg ≠ ['.'])
    (segs : List (List Char)) : next ⟨true, seg :: segs⟩ = nextBody (seg :: segs) := by
  unfold next
  split
  next read => cases read; exact absurd rfl root
  next read => cases read; exact absurd rfl dot
  next read => cases read; rfl

theorem asPath_plain {seg : List Char} (root : seg ≠ []) (dot : seg ≠ ['.'])
    (segs : List (List Char)) :
    asPath ⟨true, seg :: segs⟩ = join ((seg :: segs).rdropWhile skipped) := by
  unfold asPath
  split
  next shape => cases shape; exact absurd rfl root
  next shape => cases shape; exact absurd rfl dot
  next shape => cases shape; rfl
  next shape => cases shape

theorem nextBody_cons_skipped {seg : List Char} (skip : skipped seg = true)
    (segs : List (List Char)) : nextBody (seg :: segs) = nextBody segs := by
  unfold nextBody
  rw [List.dropWhile_cons_of_pos skip]

theorem nextBody_cons {seg : List Char} (kept : skipped seg = false) (segs : List (List Char)) :
    nextBody (seg :: segs) = some (component seg, ⟨false, segs⟩) := by
  unfold nextBody
  rw [List.dropWhile_cons_of_neg (by simp [kept])]

/-- The text that is left when components are read. -/
def textAfter (c : Components) (xs : List Component) : Option (List Char) :=
  (c.iterAfter xs).map asPath

theorem textAfter_cons {c rest : Components} {x : Component} (read : c.next = some (x, rest))
    (xs : List Component) : c.textAfter (x :: xs) = rest.textAfter xs := by
  simp only [textAfter, iterAfter, read, if_true]

theorem textAfter_skipped {seg : List Char} (skip : skipped seg = true) (segs : List (List Char))
    (xs : List Component) : textAfter ⟨false, seg :: segs⟩ xs = textAfter ⟨false, segs⟩ xs := by
  cases xs with
  | nil => simp only [textAfter, iterAfter, Option.map_some, asPath, List.dropWhile_cons_of_pos skip]
  | cons x xs => simp only [textAfter, iterAfter, next_body, nextBody_cons_skipped skip]

/-- Reading the components of the segments in front leaves the segments behind them. -/
theorem textAfter_append (front back : List (List Char)) (xs : List Component) :
    textAfter ⟨false, front ++ back⟩ (bodyOf front ++ xs) = textAfter ⟨false, back⟩ xs := by
  induction front with
  | nil => rfl
  | cons seg front ih =>
      cases skip : skipped seg with
      | true =>
          have body : bodyOf (seg :: front) = bodyOf front := by
            simp [bodyOf, skip]
          rw [body, List.cons_append, textAfter_skipped skip, ih]
      | false =>
          have body : bodyOf (seg :: front) = component seg :: bodyOf front := by
            simp [bodyOf, skip]
          rw [body, List.cons_append, List.cons_append,
            textAfter_cons ((next_body _).trans (nextBody_cons skip _)), ih]

/-- Nothing can be read from no segments. -/
theorem textAfter_nil {xs : List Component} (nonempty : xs ≠ []) : textAfter ⟨false, []⟩ xs = none := by
  cases xs with
  | nil => exact absurd rfl nonempty
  | cons x xs => rfl

end Components

/-! ## Common directories -/

/-- The components of a directory, as those of paths below it start. -/
def startOf : List (List Char) → List Component
  | [[]] => [.rootDir]
  | segs => componentsOf segs

theorem componentsOf_plain {seg : List Char} (root : seg ≠ []) (dot : seg ≠ ['.'])
    (segs : List (List Char)) : componentsOf (seg :: segs) = bodyOf (seg :: segs) := by
  unfold componentsOf
  split
  next shape => cases shape; exact absurd rfl root
  next shape => cases shape; exact absurd rfl dot
  next => rfl

theorem startOf_plain {seg : List Char} (root : seg ≠ []) (dot : seg ≠ ['.'])
    (segs : List (List Char)) : startOf (seg :: segs) = bodyOf (seg :: segs) := by
  unfold startOf
  split
  next shape => cases shape; exact absurd rfl root
  next => exact componentsOf_plain root dot segs

theorem componentsOf_append {front back : List (List Char)} (nonempty : front ≠ [])
    (nonempty' : back ≠ []) : componentsOf (front ++ back) = startOf front ++ bodyOf back := by
  obtain ⟨seg, segs, rfl⟩ := List.exists_cons_of_ne_nil nonempty
  obtain ⟨seg', segs', rfl⟩ := List.exists_cons_of_ne_nil nonempty'
  by_cases root : seg = []
  · subst root
    cases segs with
    | nil => rfl
    | cons second segs =>
        show .rootDir :: bodyOf (second :: segs ++ seg' :: segs') = _
        rw [bodyOf_append]
        rfl
  · by_cases dot : seg = ['.']
    · subst dot
      show .curDir :: bodyOf (segs ++ seg' :: segs') = _
      rw [bodyOf_append]
      rfl
    · rw [List.cons_append, componentsOf_plain root dot, startOf_plain root dot, ← List.cons_append,
        bodyOf_append]

theorem components_append (dir path : List Char) :
    components (dir ++ '/' :: path) = startOf (segments dir) ++ bodyOf (segments path) := by
  rw [components, segments_append,
    componentsOf_append (segments_ne_nil dir) (segments_ne_nil path)]

/-- Reading a common directory leaves what is below it. -/
theorem textAfter_startOf {front : List (List Char)} (nonempty : front ≠ [])
    {back : List (List Char)} (below : front = [[]] → back ≠ []) (xs : List Component) :
    Components.textAfter ⟨true, front ++ back⟩ (startOf front ++ xs) =
      Components.textAfter ⟨false, back⟩ xs := by
  obtain ⟨seg, segs, rfl⟩ := List.exists_cons_of_ne_nil nonempty
  by_cases root : seg = []
  · subst root
    cases segs with
    | nil =>
        obtain ⟨second, segs, rfl⟩ := List.exists_cons_of_ne_nil (below rfl)
        exact Components.textAfter_cons rfl xs
    | cons second segs =>
        show Components.textAfter ⟨true, [] :: second :: (segs ++ back)⟩
          (.rootDir :: (bodyOf (second :: segs) ++ xs)) = _
        rw [Components.textAfter_cons rfl]
        exact Components.textAfter_append (second :: segs) back xs
  · by_cases dot : seg = ['.']
    · subst dot
      show Components.textAfter ⟨true, ['.'] :: (segs ++ back)⟩ (.curDir :: (bodyOf segs ++ xs)) = _
      rw [Components.textAfter_cons rfl]
      exact Components.textAfter_append segs back xs
    · have kept : skipped seg = false := by simp [skipped, root, dot]
      have start : startOf (seg :: segs) = component seg :: bodyOf segs := by
        rw [startOf_plain root dot]
        simp [bodyOf, kept]
      have read := (Components.next_plain root dot (segs ++ back)).trans
        (Components.nextBody_cons kept _)
      rw [start, List.cons_append, List.cons_append, Components.textAfter_cons read]
      exact Components.textAfter_append segs back xs

/-- What is left of a path behind a prefix does not depend on their directory. -/
theorem stripPrefix_append (dir path base : List Char) :
    stripPrefix (dir ++ '/' :: path) (dir ++ '/' :: base) =
      Components.textAfter ⟨false, segments path⟩ (bodyOf (segments base)) := by
  rw [stripPrefix, components_append, Components.ofPath, segments_append]
  exact textAfter_startOf (segments_ne_nil dir) (fun _ => segments_ne_nil path) _

theorem segments_ne_singleton {path : List Char} (nonempty : path ≠ []) : segments path ≠ [[]] := by
  intro single
  have joined : join (segments path) = path := List.intercalate_splitOn '/'
  rw [single] at joined
  exact nonempty joined.symm

/-- A directory is not below a path inside it. -/
theorem stripPrefix_dir (dir : List Char) {base : List Char} (inside : bodyOf (segments base) ≠ []) :
    stripPrefix dir (dir ++ '/' :: base) = none := by
  rw [stripPrefix, components_append, Components.ofPath]
  by_cases empty : dir = []
  · subst empty
    rfl
  · have named := segments_ne_singleton empty
    have read : Components.textAfter ⟨true, segments dir ++ []⟩ _ = _ :=
      textAfter_startOf (segments_ne_nil dir) (fun root => absurd root named) (bodyOf (segments base))
    rw [List.append_nil, Components.textAfter_nil inside] at read
    exact read

/-- A path in a directory, if there is one. -/
def under : Option (List Char) → List Char → List Char
  | none, path => path
  | some dir, path => dir ++ '/' :: path

/-- The path starts with the name of something, so it can stand without a directory. -/
def StartsNamed (path : List Char) : Prop :=
  ∀ seg ∈ (segments path).head?, seg ≠ [] ∧ seg ≠ ['.']

theorem StartsNamed.components {path : List Char} (named : StartsNamed path) :
    components path = bodyOf (segments path) := by
  obtain ⟨seg, segs, split_⟩ := List.exists_cons_of_ne_nil (segments_ne_nil path)
  obtain ⟨root, dot⟩ := named seg (by rw [split_]; rfl)
  rw [UnixPath.components, split_, componentsOf_plain root dot]

/-- What is left of a path behind a prefix does not depend on where they are. -/
theorem stripPrefix_under {dir : Option (List Char)} {path base : List Char}
    (named : dir = none → StartsNamed path ∧ StartsNamed base)
    (inside : bodyOf (segments base) ≠ []) :
    stripPrefix (under dir path) (under dir base) =
      Components.textAfter ⟨false, segments path⟩ (bodyOf (segments base)) := by
  cases dir with
  | some dir => exact stripPrefix_append dir path base
  | none =>
      obtain ⟨namedPath, namedBase⟩ := named rfl
      obtain ⟨seg, segs, split_⟩ := List.exists_cons_of_ne_nil (segments_ne_nil path)
      obtain ⟨root, dot⟩ := namedPath seg (by rw [split_]; rfl)
      obtain ⟨x, xs, body⟩ := List.exists_cons_of_ne_nil inside
      show Components.textAfter (.ofPath path) (components base) = _
      rw [namedBase.components, body, Components.ofPath, split_]
      simp only [Components.textAfter, Components.iterAfter, Components.next_plain root dot,
        Components.next_body]

theorem stripPrefix_getD {dir : Option (List Char)} {base : List Char}
    (named : dir = none → StartsNamed base) (inside : bodyOf (segments base) ≠ []) :
    stripPrefix (dir.getD []) (under dir base) = none := by
  cases dir with
  | some dir => exact stripPrefix_dir dir inside
  | none =>
      obtain ⟨x, xs, body⟩ := List.exists_cons_of_ne_nil inside
      show Components.textAfter (.ofPath []) (components base) = none
      rw [(named rfl).components, body]
      rfl

/-- The name of a path does not depend on where it is. -/
theorem fileName_under {dir dir' : Option (List Char)} {base : List Char}
    (named : dir = none ∨ dir' = none → StartsNamed base) (inside : bodyOf (segments base) ≠ []) :
    fileName (under dir base) = fileName (under dir' base) := by
  have last : ∀ dir, (dir = none → StartsNamed base) →
      (components (under dir base)).getLast? = (bodyOf (segments base)).getLast? := by
    intro dir named
    cases dir with
    | some dir =>
        rw [under, components_append, List.getLast?_append_of_ne_nil _ inside]
    | none => rw [under, (named rfl).components]
  rw [fileName, fileName, last dir fun absent => named (.inl absent),
    last dir' fun absent => named (.inr absent)]

/-! ## Relative results -/

theorem isAbsolute_join {segs : List (List Char)}
    (first : ∀ seg ∈ segs.head?, seg ≠ [] ∧ '/' ∉ seg) : isAbsolute (join segs) = false := by
  cases segs with
  | nil => rfl
  | cons seg segs =>
      obtain ⟨nonempty, clean⟩ := first seg rfl
      obtain ⟨c, rest, rfl⟩ := List.exists_cons_of_ne_nil nonempty
      have other : c ≠ '/' := fun same => clean (same ▸ .head _)
      cases segs with
      | nil => simpa [isAbsolute, join] using other
      | cons second segs => simpa [isAbsolute, join, List.intercalate_cons_cons] using other

theorem head?_of_rdropWhile {p : List Char → Bool} {segs : List (List Char)} {seg : List Char}
    (first : seg ∈ (segs.rdropWhile p).head?) : segs.head? = some seg := by
  obtain ⟨rest, whole⟩ := List.rdropWhile_prefix p (l := segs)
  obtain ⟨tail, kept⟩ := List.head?_eq_some_iff.mp first
  rw [← whole, kept]
  rfl

/-- The text of a part that is not at the start of a path is relative. -/
theorem isAbsolute_asPath_body {segs : List (List Char)} (clean : ∀ seg ∈ segs, '/' ∉ seg) :
    isAbsolute (Components.asPath ⟨false, segs⟩) = false := by
  show isAbsolute (join ((segs.dropWhile skipped).rdropWhile skipped)) = false
  refine isAbsolute_join fun seg first => ?_
  have head := head?_of_rdropWhile first
  have kept := List.head?_dropWhile_not skipped segs
  rw [head] at kept
  refine ⟨?_, clean seg ((List.dropWhile_suffix skipped).subset (List.mem_of_mem_head? head))⟩
  rintro rfl
  exact Bool.false_ne_true kept.symm

/-- Reading a component leaves a part that is not at the start. -/
theorem Components.next_suffix {c rest : Components} {x : Component} (read : c.next = some (x, rest)) :
    rest.fresh = false ∧ rest.segs <:+ c.segs := by
  have body : ∀ segs, nextBody segs = some (x, rest) → rest.fresh = false ∧ rest.segs <:+ segs := by
    intro segs read
    have suffix := List.dropWhile_suffix skipped (l := segs)
    unfold nextBody at read
    split at read
    · cases read
    next seg tail split_ =>
      cases read
      exact ⟨rfl, (List.suffix_cons seg tail).trans (split_ ▸ suffix)⟩
  unfold next at read
  split at read
  · cases read
    exact ⟨rfl, List.suffix_cons _ _⟩
  · cases read
    exact ⟨rfl, List.suffix_cons _ _⟩
  · exact body _ read

theorem Components.iterAfter_suffix {xs : List Component} {c rest : Components}
    (read : c.iterAfter xs = some rest) :
    (xs ≠ [] → rest.fresh = false) ∧ rest.segs <:+ c.segs := by
  induction xs generalizing c with
  | nil =>
      cases read
      exact ⟨fun nonempty => absurd rfl nonempty, List.suffix_refl _⟩
  | cons x xs ih =>
      unfold iterAfter at read
      split at read
      next y mid first =>
        split at read
        · have step := next_suffix first
          obtain ⟨later, suffix⟩ := ih read
          refine ⟨fun _ => ?_, suffix.trans step.2⟩
          cases xs with
          | nil => cases read; exact step.1
          | cons => exact later (by simp)
        · cases read
      · cases read

/-- A path that is not empty has a component. -/
theorem components_ne_nil {path : List Char} (nonempty : path ≠ []) : components path ≠ [] := by
  have named := segments_ne_singleton nonempty
  obtain ⟨seg, segs, split_⟩ := List.exists_cons_of_ne_nil (segments_ne_nil path)
  rw [split_] at named
  rw [components, split_]
  by_cases root : seg = []
  · subst root
    cases segs with
    | nil => exact absurd rfl named
    | cons => exact List.cons_ne_nil _ _
  · by_cases dot : seg = ['.']
    · subst dot
      exact List.cons_ne_nil _ _
    · rw [componentsOf_plain root dot]
      simp [bodyOf, skipped, root, dot]

/-- What is left behind a prefix that is not empty is relative. -/
theorem stripPrefix_relative {path base text : List Char} (nonempty : base ≠ [])
    (stripped : stripPrefix path base = some text) : isAbsolute text = false := by
  obtain ⟨⟨fresh, segs⟩, read, rfl⟩ := Option.map_eq_some_iff.mp stripped
  obtain ⟨begun, suffix⟩ := Components.iterAfter_suffix read
  obtain rfl : fresh = false := begun (components_ne_nil nonempty)
  exact isAbsolute_asPath_body fun seg member => not_mem_of_mem_segments (suffix.subset member)

/-- A name in a path is relative. -/
theorem fileName_relative {path name : List Char} (named : fileName path = some name) :
    isAbsolute name = false := by
  have clean : ∀ seg ∈ segments path, '/' ∉ seg := fun seg => not_mem_of_mem_segments
  have listed : .normal name ∈ components path := by
    unfold fileName at named
    split at named
    next last => cases named; exact List.mem_of_getLast? last
    · cases named
  unfold components componentsOf at listed
  split at listed
  next split_ =>
    rw [split_] at clean
    rcases List.mem_cons.mp listed with start | body
    · cases start
    · exact isAbsolute_plain (plain_of_mem_bodyOf (fun seg member => clean seg (.tail _ member)) body)
  next split_ =>
    rw [split_] at clean
    rcases List.mem_cons.mp listed with start | body
    · cases start
    · exact isAbsolute_plain (plain_of_mem_bodyOf (fun seg member => clean seg (.tail _ member)) body)
  · exact isAbsolute_plain (plain_of_mem_bodyOf clean listed)

/-- Nothing is taken from a path by the empty prefix. -/
theorem stripPrefix_nil (path : List Char) :
    ∃ text, stripPrefix path [] = some text ∧ isAbsolute text = isAbsolute path := by
  refine ⟨(Components.ofPath path).asPath, rfl, ?_⟩
  have clean : ∀ seg ∈ segments path, '/' ∉ seg := fun seg => not_mem_of_mem_segments
  cases path with
  | nil => rfl
  | cons c rest =>
      by_cases root : c = '/'
      · subst root
        obtain ⟨seg, segs, split_⟩ := List.exists_cons_of_ne_nil (segments_ne_nil rest)
        rw [Components.ofPath, segments_cons_separator, split_]
        rfl
      · obtain ⟨seg, segs, split_⟩ := List.exists_cons_of_ne_nil (segments_ne_nil rest)
        have first : segments (c :: rest) = (c :: seg) :: segs := by
          rw [segments, List.splitOn_cons_eq_if_modifyHead, if_neg (by simpa using root)]
          rw [show List.splitOn '/' rest = segments rest from rfl, split_]
          rfl
        rw [first] at clean
        have relative : isAbsolute (c :: rest) = false := by simpa [isAbsolute] using root
        rw [Components.ofPath, first, relative]
        by_cases dot : c :: seg = ['.']
        · rw [dot]
          exact isAbsolute_join fun seg head => by
            cases head
            exact ⟨by simp, by simp⟩
        · rw [Components.asPath_plain (List.cons_ne_nil c seg) dot]
          refine isAbsolute_join fun name head => ?_
          obtain rfl : c :: seg = name := Option.some.inj (head?_of_rdropWhile head)
          exact ⟨List.cons_ne_nil c seg, clean _ (.head _)⟩

end UnixPath
