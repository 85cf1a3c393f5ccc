import AgentOtelBridge.Lib.TextScan

/-!
# The repository of a Git remote

The harvest reads `.git/config` line by line.  The first `url` of the section
`[remote "origin"]` is cut at `=`, its second part is cleared of what precedes
`@`, and the last segment of the rest names the repository.

A URL `scheme://user@host/path` carries credentials before its host.  The
results say which credentials do not reach the name: those without `=`, and
without `@` unless a separator follows them.
-/

namespace AgentOtelBridge.Git

open Text

/-! ## The reader -/

/-- A file is read while the budget lasts, if it is small enough and UTF-8. -/
def readTextLimited (maxFileBytes : Nat) (bytes : List UInt8) : Option String :=
  if maxFileBytes < bytes.length then none else fromUtf8 bytes

def sanitizeGitUrl (rawUrl : List Char) : List Char :=
  match find ['@'] rawUrl, find [':', '/', '/'] rawUrl with
  | some atIdx, some protoIdx =>
      if protoIdx < atIdx then rawUrl.take (protoIdx + 3) ++ rawUrl.drop (atIdx + 1) else rawUrl
  | _, _ => rawUrl

/-- A URL without `.git` and then `/` at its end. -/
def cleanUrl (url : List Char) : List Char :=
  (trimEndMatches ".git".toList url).rdropWhile fun c => c = '/'

def isSegmentSeparator (c : Char) : Bool := c = '/' || c = ':' || c = '\\'

def extractRepoName (url : List Char) : Option String :=
  (lastSegment isSegmentSeparator (cleanUrl url)).map String.ofList

def originHeader : List Char := "[remote \"origin\"]".toList

def isUrlLine (line : List Char) : Bool :=
  "url =".toList.isPrefixOf line || "url=".toList.isPrefixOf line

/-- The loop of `read_git_dir` over the lines of the configuration. -/
def scanOrigin (inOrigin : Bool) : List (List Char) → Option String
  | [] => none
  | raw :: rest =>
      let line := trimChars raw
      if originHeader.isPrefixOf line then scanOrigin true rest
      else if inOrigin then
        if ['['].isPrefixOf line then none
        else if isUrlLine line then
          match line.splitOn '=' with
          | _ :: second :: _ => extractRepoName (sanitizeGitUrl (trimChars second))
          | _ => scanOrigin inOrigin rest
        else scanOrigin inOrigin rest
      else scanOrigin inOrigin rest

/-- `vcs_repository` of a configuration file. -/
def vcsRepository (maxFileBytes : Nat) (config : List UInt8) : Option String :=
  (readTextLimited maxFileBytes config).bind fun content => scanOrigin false (lines content.toList)

/-! ## A URL in a configuration -/

/-- What stands before `@` in a URL, on one line. -/
structure Userinfo where
  text : List Char
  oneLine : '\n' ∉ text

/-- A configuration around the userinfo of a URL: the lines before, the line up to
its `=` and the space behind it, the parts of the URL, and the lines after. -/
structure RemoteUrl where
  before : List Char
  key : List Char
  gap : List Char
  scheme : List Char
  host : List Char
  path : List Char
  after : List Char
  beforeLines : before = [] ∨ ∃ text, before = text ++ ['\n']
  keyPart : '\n' ∉ key ∧ '=' ∉ key
  gapPart : '\n' ∉ gap ∧ ∀ c ∈ gap, isWhitespace c = true
  schemePart : '\n' ∉ scheme ∧ '=' ∉ scheme ∧ '@' ∉ scheme ∧ ':' ∉ scheme
  hostPart : '\n' ∉ host ∧ '=' ∉ host
  pathPart : '\n' ∉ path
  afterLines : after = [] ∨ ∃ text, after = '\n' :: text

def Userinfo.empty : Userinfo := ⟨[], List.not_mem_nil⟩

namespace RemoteUrl

/-- The line behind its `=`. -/
def value (t : RemoteUrl) (u : Userinfo) : List Char :=
  t.gap ++ t.scheme ++ [':', '/', '/'] ++ u.text ++ '@' :: (t.host ++ t.path)

def line (t : RemoteUrl) (u : Userinfo) : List Char := t.key ++ '=' :: t.value u

def text (t : RemoteUrl) (u : Userinfo) : List Char := t.before ++ (t.line u ++ t.after)

def config (t : RemoteUrl) (u : Userinfo) : String := .ofList (t.text u)

def repository (t : RemoteUrl) (maxFileBytes : Nat) (u : Userinfo) : Option String :=
  vcsRepository maxFileBytes (asBytes (t.config u))

/-- The configuration is small enough to be read. -/
def Fits (t : RemoteUrl) (maxFileBytes : Nat) (u : Userinfo) : Prop :=
  (t.config u).utf8ByteSize ≤ maxFileBytes

/-- The host and path up to a second `=`. -/
def seen (t : RemoteUrl) : List Char := trimEnd ((t.host ++ t.path).takeWhile (· ≠ '='))

/-- A separator stands between the host and the name of the repository. -/
def Separated (t : RemoteUrl) : Prop := ∃ c ∈ cleanUrl t.seen, isSegmentSeparator c = true

def Hides (t : RemoteUrl) (u : Userinfo) : Prop :=
  '=' ∉ u.text ∧ ('@' ∉ u.text ∨ t.Separated)

end RemoteUrl

/-! ## The passes over a URL -/

/-- What precedes the first `@` is dropped. -/
theorem sanitizeGitUrl_userinfo {scheme user : List Char} (noAt : '@' ∉ scheme) (noColon : ':' ∉ scheme)
    (noAt' : '@' ∉ user) (rest : List Char) :
    sanitizeGitUrl (scheme ++ [':', '/', '/'] ++ user ++ '@' :: rest) =
      scheme ++ [':', '/', '/'] ++ rest := by
  have front : '@' ∉ scheme ++ [':', '/', '/'] ++ user := by simp [noAt, noAt']
  have here : find ['@'] ('@' :: rest) = some 0 := find_self ['@'] rest (by decide)
  have atIdx : find ['@'] (scheme ++ [':', '/', '/'] ++ user ++ '@' :: rest) =
      some (scheme ++ [':', '/', '/'] ++ user).length := by
    rw [find_append _ _ front, here]
    simp
  have protoIdx : find [':', '/', '/'] (scheme ++ [':', '/', '/'] ++ user ++ '@' :: rest) =
      some scheme.length := by
    rw [List.append_assoc, List.append_assoc, find_append _ _ noColon,
      find_self [':', '/', '/'] _ (by decide)]
    simp
  unfold sanitizeGitUrl
  rw [atIdx, protoIdx]
  simp only
  rw [if_pos (by simp)]
  congr 1
  · rw [List.append_assoc, List.take_append_of_le_length (by simp)]
    exact List.take_of_length_le (by simp)
  · rw [← List.drop_drop, List.drop_left]
    rfl

theorem cleanUrl_append_at (front back : List Char) :
    cleanUrl (front ++ '@' :: back) = front ++ '@' :: cleanUrl back := by
  rw [cleanUrl, trimEndMatches_append_cons (by decide), rdropWhile_append_cons (by decide)]
  rfl

/-- The scheme does not reach the name. -/
theorem extractRepoName_scheme (scheme rest : List Char) :
    extractRepoName (scheme ++ [':', '/', '/'] ++ rest) =
      (lastSegment isSegmentSeparator (cleanUrl rest)).map String.ofList := by
  have parts : scheme ++ [':', '/', '/'] ++ rest = (scheme ++ [':', '/']) ++ '/' :: rest := by simp
  have git : trimEndMatches ".git".toList (scheme ++ [':', '/', '/'] ++ rest) =
      (scheme ++ [':', '/']) ++ '/' :: trimEndMatches ".git".toList rest := by
    rw [parts, trimEndMatches_append_cons (by decide)]
  unfold extractRepoName
  congr 1
  rcases Decidable.em (cleanUrl rest = []) with nothing | named
  · have slashes : ∀ c ∈ trimEndMatches ".git".toList rest, (decide (c = '/')) = true :=
      List.rdropWhile_eq_nil_iff.mp nothing
    have slashes' : ∀ c ∈ ('/' :: trimEndMatches ".git".toList rest).reverse,
        (decide (c = '/')) = true := by
      intro c member
      rcases List.mem_cons.mp (List.mem_reverse.mp member) with rfl | member
      · rfl
      · exact slashes c member
    have cleaned : cleanUrl (scheme ++ [':', '/', '/'] ++ rest) = scheme ++ [':'] := by
      rw [cleanUrl, git, List.rdropWhile, List.reverse_append,
        List.dropWhile_append_of_pos slashes']
      simp
    rw [nothing, cleaned]
    exact lastSegment_append_cons (by decide) scheme []
  · have cleaned : cleanUrl (scheme ++ [':', '/', '/'] ++ rest) =
        (scheme ++ [':', '/']) ++ '/' :: cleanUrl rest := by
      have kept : (trimEndMatches ".git".toList rest).reverse.dropWhile (fun c => decide (c = '/')) ≠ [] :=
        fun h => named (by rw [cleanUrl, List.rdropWhile, h]; rfl)
      rw [cleanUrl, git, List.rdropWhile, List.reverse_append, List.reverse_cons, List.append_assoc,
        List.dropWhile_append, if_neg (by simpa using kept)]
      simp [cleanUrl, List.rdropWhile]
    rw [cleaned]
    exact lastSegment_append_cons (by decide) _ _

/-- White space at the end does not change what is before a separator. -/
theorem trimEnd_takeWhile_trimEnd (cs : List Char) :
    trimEnd ((trimEnd cs).takeWhile (· ≠ '=')) = trimEnd (cs.takeWhile (· ≠ '=')) := by
  have whole : ∀ {l : List Char}, '=' ∉ l → l.takeWhile (· ≠ '=') = l := by
    intro l absent
    exact List.takeWhile_eq_self_iff.mpr fun c member => by
      simpa using fun h : c = '=' => absent (h ▸ member)
  rcases Decidable.em ('=' ∈ cs) with found | absent
  · obtain ⟨front, back, rfl, absent⟩ := List.eq_append_cons_of_mem found
    rw [trimEnd_append_cons (by decide), List.takeWhile_append, List.takeWhile_append, whole absent]
    simp
  · have absent' : '=' ∉ trimEnd cs := fun h => absent ((List.rdropWhile_prefix _ cs).subset h)
    rw [whole absent, whole absent']
    exact List.rdropWhile_idempotent _ _

/-! ## The line of the URL -/

theorem takeWhile_of_not_mem {cs : List Char} (absent : '=' ∉ cs) : cs.takeWhile (· ≠ '=') = cs :=
  List.takeWhile_eq_self_iff.mpr fun c member => by
    simpa using fun h : c = '=' => absent (h ▸ member)

theorem head_splitOn (cs : List Char) : ∃ rest, cs.splitOn '=' = cs.takeWhile (· ≠ '=') :: rest := by
  rcases Decidable.em ('=' ∈ cs) with found | absent
  · obtain ⟨front, back, rfl, absent⟩ := List.eq_append_cons_of_mem found
    refine ⟨back.splitOn '=', ?_⟩
    rw [List.splitOn_append_cons_self_of_not_mem absent, List.takeWhile_append,
      takeWhile_of_not_mem absent]
    simp
  · refine ⟨[], ?_⟩
    rw [takeWhile_of_not_mem absent, List.splitOn_eq_singleton absent]

namespace RemoteUrl

variable (t : RemoteUrl) (u : Userinfo)

/-- The text before `=`, as the reader compares it. -/
def trimmedKey : List Char := t.key.dropWhile isWhitespace

def isUrlKey : Bool := "url ".toList = t.trimmedKey || "url".toList = t.trimmedKey

/-- What the reader takes the URL to be. -/
def rawUrl : List Char := trimChars ((trimEnd (t.value u)).takeWhile (· ≠ '='))

theorem noEquals_trimmedKey : '=' ∉ t.trimmedKey := fun h =>
  t.keyPart.2 ((List.dropWhile_suffix _).subset h)

/-- The lines around the URL do not depend on the userinfo, and its line reads as
the key, `=` and the value. -/
theorem lines_text : ∃ more, ∀ u, ∃ raw,
    trimChars raw = t.trimmedKey ++ '=' :: trimEnd (t.value u) ∧
      lines (t.text u) = lines t.before ++ raw :: more := by
  have oneLine : ∀ u : Userinfo, '\n' ∉ t.line u := by
    intro u
    simp [line, value, t.keyPart.1, t.gapPart.1, t.schemePart.1, t.hostPart.1, t.pathPart, u.oneLine]
  have front : ∀ back, lines (t.before ++ back) = lines t.before ++ lines back := by
    intro back
    rcases t.beforeLines with nothing | ⟨text, split_⟩
    · rw [nothing]
      rfl
    · rw [split_, lines_append_feed]
  rcases t.afterLines with nothing | ⟨text, split_⟩
  · refine ⟨[], fun u => ⟨t.line u, trimChars_append_cons (by decide) _ _, ?_⟩⟩
    rw [text, front, nothing, List.append_nil, lines_of_not_mem (oneLine u) (by simp [line])]
  · refine ⟨lines text, fun u => ⟨stripReturn (t.line u), ?_, ?_⟩⟩
    · rw [line, stripReturn_append_cons (by decide), trimChars_append_cons (by decide),
        trimEnd_stripReturn]
      rfl
    · rw [RemoteUrl.text, front, split_, lines_cons_feed (oneLine u)]

/-- What the loop does at the line of the URL. -/
theorem scanOrigin_line {raw : List Char}
    (trimmed : trimChars raw = t.trimmedKey ++ '=' :: trimEnd (t.value u)) (inOrigin : Bool)
    (more : List (List Char)) :
    scanOrigin inOrigin (raw :: more) =
      if originHeader.isPrefixOf t.trimmedKey then scanOrigin true more
      else if inOrigin then
        if ['['].isPrefixOf t.trimmedKey then none
        else if t.isUrlKey then extractRepoName (sanitizeGitUrl (t.rawUrl u))
        else scanOrigin inOrigin more
      else scanOrigin inOrigin more := by
  have header : originHeader.isPrefixOf (t.trimmedKey ++ '=' :: trimEnd (t.value u)) =
      originHeader.isPrefixOf t.trimmedKey := isPrefixOf_append_cons (by decide) _ _
  have bracket : ['['].isPrefixOf (t.trimmedKey ++ '=' :: trimEnd (t.value u)) =
      ['['].isPrefixOf t.trimmedKey := isPrefixOf_append_cons (by decide) _ _
  have url : isUrlLine (t.trimmedKey ++ '=' :: trimEnd (t.value u)) = t.isUrlKey := by
    have spaced : ("url ".toList ++ ['=']).isPrefixOf (t.trimmedKey ++ '=' :: trimEnd (t.value u)) =
        decide ("url ".toList = t.trimmedKey) :=
      isPrefixOf_separated (by decide) t.noEquals_trimmedKey
    have joined : ("url".toList ++ ['=']).isPrefixOf (t.trimmedKey ++ '=' :: trimEnd (t.value u)) =
        decide ("url".toList = t.trimmedKey) :=
      isPrefixOf_separated (by decide) t.noEquals_trimmedKey
    rw [isUrlLine, isUrlKey]
    exact congrArg₂ _ spaced joined
  obtain ⟨rest, parts⟩ := head_splitOn (trimEnd (t.value u))
  rw [scanOrigin]
  simp only [trimmed, header, bracket, url]
  rw [List.splitOn_append_cons_self_of_not_mem t.noEquals_trimmedKey, parts]
  rfl

/-- Two userinfos with one URL in the reader's eyes give one result. -/
theorem scanOrigin_congr {u u' : Userinfo} {raw raw' : List Char}
    (trimmed : trimChars raw = t.trimmedKey ++ '=' :: trimEnd (t.value u))
    (trimmed' : trimChars raw' = t.trimmedKey ++ '=' :: trimEnd (t.value u'))
    (same : extractRepoName (sanitizeGitUrl (t.rawUrl u)) =
      extractRepoName (sanitizeGitUrl (t.rawUrl u')))
    (front more : List (List Char)) (inOrigin : Bool) :
    scanOrigin inOrigin (front ++ raw :: more) = scanOrigin inOrigin (front ++ raw' :: more) := by
  induction front generalizing inOrigin with
  | nil =>
      rw [List.nil_append, List.nil_append, t.scanOrigin_line u trimmed, t.scanOrigin_line u' trimmed',
        same]
  | cons line front ih =>
      simp only [List.cons_append, scanOrigin, ih]

theorem repository_eq {maxFileBytes : Nat} (fits : t.Fits maxFileBytes u) :
    t.repository maxFileBytes u = scanOrigin false (lines (t.text u)) := by
  have small : ¬ maxFileBytes < (asBytes (t.config u)).length := by
    rw [length_asBytes]
    exact Nat.not_lt.mpr fits
  rw [repository, vcsRepository, readTextLimited, if_neg small, fromUtf8_asBytes, Option.bind_some,
    config, String.toList_ofList]

/-! ## The name of the repository -/

/-- The name without credentials. -/
def name : Option String := (lastSegment isSegmentSeparator (cleanUrl t.seen)).map String.ofList

/-- Without `=`, the reader sees the whole userinfo. -/
theorem rawUrl_of_noEquals (noEquals : '=' ∉ u.text) :
    t.rawUrl u = t.scheme.dropWhile isWhitespace ++ [':', '/', '/'] ++ u.text ++ '@' :: t.seen := by
  have clean : '=' ∉ t.gap ++ t.scheme ++ [':', '/', '/'] ++ u.text := by
    have noGap : '=' ∉ t.gap := fun h => absurd (t.gapPart.2 _ h) (by decide)
    simp [noGap, t.schemePart.2.1, noEquals]
  have cut : (trimEnd (t.value u)).takeWhile (· ≠ '=') =
      (t.gap ++ t.scheme ++ [':', '/', '/'] ++ u.text) ++
        '@' :: (trimEnd (t.host ++ t.path)).takeWhile (· ≠ '=') := by
    rw [value, trimEnd_append_cons (by decide), List.takeWhile_append, takeWhile_of_not_mem clean,
      if_pos rfl, List.takeWhile_cons_of_pos (by decide)]
  have start : (t.gap ++ t.scheme ++ [':', '/', '/'] ++ u.text).dropWhile isWhitespace =
      t.scheme.dropWhile isWhitespace ++ [':', '/', '/'] ++ u.text := by
    have atColon : t.gap ++ t.scheme ++ [':', '/', '/'] ++ u.text =
        (t.gap ++ t.scheme) ++ ':' :: (['/', '/'] ++ u.text) := by simp
    rw [atColon, dropWhile_append_cons (by decide), List.dropWhile_append_of_pos t.gapPart.2]
    simp
  rw [rawUrl, cut, trimChars_append_cons (by decide), start, trimEnd_takeWhile_trimEnd]
  rfl

/-- With `=`, the host and the path are not seen. -/
theorem rawUrl_of_equals {front back : List Char} (split_ : u.text = front ++ '=' :: back)
    (noEquals : '=' ∉ front) :
    t.rawUrl u = trimChars (t.gap ++ t.scheme ++ [':', '/', '/'] ++ front) := by
  have clean : '=' ∉ t.gap ++ t.scheme ++ [':', '/', '/'] ++ front := by
    have noGap : '=' ∉ t.gap := fun h => absurd (t.gapPart.2 _ h) (by decide)
    simp [noGap, t.schemePart.2.1, noEquals]
  have parts : t.value u = (t.gap ++ t.scheme ++ [':', '/', '/'] ++ front) ++
      '=' :: (back ++ '@' :: (t.host ++ t.path)) := by
    simp [value, split_]
  rw [rawUrl, parts, trimEnd_append_cons (by decide), List.takeWhile_append,
    takeWhile_of_not_mem clean]
  simp

theorem extractRepoName_split {front : List Char} (rest : List Char) (noEquals : '=' ∉ u.text)
    (noAt : '@' ∉ front) (split_ : u.text ++ '@' :: t.seen = front ++ '@' :: rest) :
    extractRepoName (sanitizeGitUrl (t.rawUrl u)) =
      (lastSegment isSegmentSeparator (cleanUrl rest)).map String.ofList := by
  have inScheme := (List.dropWhile_suffix (l := t.scheme) isWhitespace).subset
  rw [t.rawUrl_of_noEquals u noEquals, List.append_assoc, split_, ← List.append_assoc,
    sanitizeGitUrl_userinfo (fun h => t.schemePart.2.2.1 (inScheme h))
      (fun h => t.schemePart.2.2.2 (inScheme h)) noAt]
  exact extractRepoName_scheme _ _

/-- A hidden userinfo does not reach the name. -/
theorem extractRepoName_of_hides (hides : t.Hides u) :
    extractRepoName (sanitizeGitUrl (t.rawUrl u)) = t.name := by
  obtain ⟨noEquals, behindAt⟩ := hides
  rcases Decidable.em ('@' ∈ u.text) with found | noAt
  · obtain ⟨front, back, split_, noAt⟩ := List.eq_append_cons_of_mem found
    obtain ⟨c, member, separates⟩ := behindAt.resolve_left fun h => h found
    obtain ⟨host, last, cleaned⟩ := List.append_of_mem member
    rw [t.extractRepoName_split u (back ++ '@' :: t.seen) noEquals noAt (by simp [split_]),
      cleanUrl_append_at, name, cleaned, lastSegment_append_cons separates,
      ← List.cons_append, ← List.append_assoc, lastSegment_append_cons separates]
  · exact t.extractRepoName_split u t.seen noEquals noAt rfl

/-- A second `@` with no separator behind it puts the text before it into the name. -/
theorem extractRepoName_of_leak (noEquals : '=' ∉ u.text) (found : '@' ∈ u.text)
    (unseparated : ¬ t.Separated) :
    extractRepoName (sanitizeGitUrl (t.rawUrl u)) ≠ t.name := by
  obtain ⟨front, back, split_, noAt⟩ := List.eq_append_cons_of_mem found
  have plain : ∀ c ∈ cleanUrl t.seen, isSegmentSeparator c = false := by
    intro c member
    cases isSep : isSegmentSeparator c with
    | false => rfl
    | true => exact absurd ⟨c, member, isSep⟩ unseparated
  have leaked : ∃ part, lastSegment isSegmentSeparator (back ++ '@' :: cleanUrl t.seen) =
      some (part ++ '@' :: cleanUrl t.seen) := by
    have behind : ∀ part : List Char, (∀ c ∈ part, isSegmentSeparator c = false) →
        lastSegment isSegmentSeparator (part ++ '@' :: cleanUrl t.seen) =
          some (part ++ '@' :: cleanUrl t.seen) := by
      intro part clean
      apply lastSegment_of_forall
      intro c member
      rcases List.mem_append.mp member with inPart | member
      · exact clean c inPart
      · rcases List.mem_cons.mp member with rfl | inHost
        · decide
        · exact plain c inHost
    rcases eq_or_exists_separator isSegmentSeparator back with clean | ⟨first, sep, part, rfl, separates, clean⟩
    · exact ⟨back, behind back clean⟩
    · refine ⟨part, ?_⟩
      rw [List.append_assoc, List.cons_append, lastSegment_append_cons separates]
      exact behind part clean
  obtain ⟨part, last⟩ := leaked
  rw [t.extractRepoName_split u (back ++ '@' :: t.seen) noEquals noAt (by simp [split_]),
    cleanUrl_append_at, last, name, lastSegment_of_forall plain]
  intro same
  have lengths := congrArg List.length (String.ofList_injective (Option.some.inj same))
  simp at lengths
  omega

/-! ## The URL of the origin -/

end RemoteUrl

/-- Some lines leave the loop in the section of the origin, before its URL. -/
def leadsToOrigin (inOrigin : Bool) : List (List Char) → Bool
  | [] => inOrigin
  | raw :: rest =>
      let line := trimChars raw
      if originHeader.isPrefixOf line then leadsToOrigin true rest
      else if inOrigin && (['['].isPrefixOf line || isUrlLine line) then false
      else leadsToOrigin inOrigin rest

theorem scanOrigin_of_leadsToOrigin {front : List (List Char)} {inOrigin : Bool}
    (leads : leadsToOrigin inOrigin front = true) (more : List (List Char)) :
    scanOrigin inOrigin (front ++ more) = scanOrigin true more := by
  induction front generalizing inOrigin with
  | nil =>
      obtain rfl : inOrigin = true := leads
      rfl
  | cons raw front ih =>
      rw [leadsToOrigin] at leads
      rw [List.cons_append, scanOrigin]
      split at leads
      next header => rw [if_pos header, ih leads]
      next noHeader =>
        rw [if_neg noHeader]
        split at leads
        · cases leads
        next goesOn =>
          rw [Bool.and_eq_true, Bool.or_eq_true, not_and_or, not_or] at goesOn
          rcases goesOn with outside | ⟨noBracket, noUrl⟩
          · rw [if_neg outside, ih leads]
          · rw [if_neg noBracket, if_neg noUrl, ite_self, ih leads]

namespace RemoteUrl

variable (t : RemoteUrl) (u : Userinfo)

/-- The reader takes the line for the URL of the origin. -/
def IsOrigin : Prop := leadsToOrigin false (lines t.before) = true ∧ t.isUrlKey = true

theorem repository_of_isOrigin (origin : t.IsOrigin) {maxFileBytes : Nat}
    (fits : t.Fits maxFileBytes u) :
    t.repository maxFileBytes u = extractRepoName (sanitizeGitUrl (t.rawUrl u)) := by
  obtain ⟨leads, isUrl⟩ := origin
  have plainKey : originHeader.isPrefixOf t.trimmedKey = false ∧
      ['['].isPrefixOf t.trimmedKey = false := by
    rw [isUrlKey, Bool.or_eq_true, decide_eq_true_iff, decide_eq_true_iff] at isUrl
    rcases isUrl with spaced | joined
    · rw [← spaced]
      decide
    · rw [← joined]
      decide
  obtain ⟨more, reads⟩ := t.lines_text
  obtain ⟨raw, trimmed, split_⟩ := reads u
  rw [t.repository_eq u fits, split_, scanOrigin_of_leadsToOrigin leads, t.scanOrigin_line u trimmed,
    plainKey.1, plainKey.2, isUrl]
  rfl

def withPath (path : List Char) (oneLine : '\n' ∉ path) : RemoteUrl :=
  { t with path := path, pathPart := oneLine }

/-- A path of one letter names the repository. -/
theorem name_withPath {c : Char} (letter : c = 'a' ∨ c = 'b') (oneLine : '\n' ∉ ['/', c]) :
    (t.withPath ['/', c] oneLine).name = some (.ofList [c]) := by
  have facts : isWhitespace c = false ∧ c ≠ '=' ∧ (decide (c = '/')) = false ∧
      isSegmentSeparator c = false ∧ trimEndMatches ".git".toList [c] = [c] := by
    rcases letter with rfl | rfl <;> decide
  obtain ⟨notSpace, notEquals, notSlash, notSep, notGit⟩ := facts
  have seen : (t.withPath ['/', c] oneLine).seen = t.host ++ '/' :: [c] := by
    have noEquals : '=' ∉ t.host ++ ['/', c] := by
      simp [t.hostPart.2, Ne.symm notEquals]
    show trimEnd ((t.host ++ ['/', c]).takeWhile (· ≠ '=')) = _
    rw [takeWhile_of_not_mem noEquals, trimEnd_append_cons (by decide)]
    simp [trimEnd, notSpace]
  have cleaned : cleanUrl (t.host ++ '/' :: [c]) = t.host ++ '/' :: [c] := by
    rw [cleanUrl, trimEndMatches_append_cons (by decide), notGit]
    have last := List.rdropWhile_concat_neg (fun c => decide (c = '/')) (t.host ++ ['/']) c
      (by simp [notSlash])
    simpa using last
  rw [name, seen, cleaned, lastSegment_append_cons (by decide),
    lastSegment_of_forall (by simpa using notSep)]
  rfl

/-- **Credentials and the name of the repository.**  Userinfos that the URL hides
give one repository.  One without `=` gives the repository of the URL without
credentials exactly when the URL hides it.  One with `=` gives another repository
at some path of every origin URL. -/
theorem repository_hides :
    (∀ (t : RemoteUrl) (u' : Userinfo) (maxFileBytes : Nat), t.Fits maxFileBytes u →
      t.Fits maxFileBytes u' → t.Hides u → t.Hides u' →
        t.repository maxFileBytes u = t.repository maxFileBytes u') ∧
    ('=' ∉ u.text → ∀ (t : RemoteUrl) (maxFileBytes : Nat), t.IsOrigin → t.Fits maxFileBytes u →
      t.Fits maxFileBytes .empty →
        (t.repository maxFileBytes u = t.repository maxFileBytes .empty ↔ t.Hides u)) ∧
    ('=' ∈ u.text → ∀ t : RemoteUrl, t.IsOrigin →
      ∃ (path : List Char) (oneLine : '\n' ∉ path) (maxFileBytes : Nat),
        (t.withPath path oneLine).Fits maxFileBytes u ∧
        (t.withPath path oneLine).Fits maxFileBytes .empty ∧
        (t.withPath path oneLine).repository maxFileBytes u ≠
          (t.withPath path oneLine).repository maxFileBytes .empty) := by
  have emptyHides : ∀ t : RemoteUrl, t.Hides .empty := fun _ =>
    ⟨List.not_mem_nil, .inl List.not_mem_nil⟩
  refine ⟨?_, ?_, ?_⟩
  · intro t u' maxFileBytes fits fits' hides hides'
    obtain ⟨more, reads⟩ := t.lines_text
    obtain ⟨raw, trimmed, split_⟩ := reads u
    obtain ⟨raw', trimmed', split_'⟩ := reads u'
    have same : extractRepoName (sanitizeGitUrl (t.rawUrl u)) =
        extractRepoName (sanitizeGitUrl (t.rawUrl u')) := by
      rw [t.extractRepoName_of_hides u hides, t.extractRepoName_of_hides u' hides']
    rw [t.repository_eq u fits, t.repository_eq u' fits', split_, split_']
    exact t.scanOrigin_congr trimmed trimmed' same _ _ _
  · intro noEquals t maxFileBytes origin fits fits'
    rw [t.repository_of_isOrigin u origin fits, t.repository_of_isOrigin .empty origin fits',
      t.extractRepoName_of_hides .empty (emptyHides t)]
    constructor
    · intro same
      by_contra exposed
      rw [Hides, not_and_or, not_or, not_not, not_not] at exposed
      obtain ⟨found, unseparated⟩ := exposed.resolve_left noEquals
      exact t.extractRepoName_of_leak u noEquals found unseparated same
    · exact t.extractRepoName_of_hides u
  · intro found t origin
    obtain ⟨front, back, split_, noEquals⟩ := List.eq_append_cons_of_mem found
    by_contra hidden
    push Not at hidden
    have value : ∀ c, c = 'a' ∨ c = 'b' →
        extractRepoName (sanitizeGitUrl (trimChars (t.gap ++ t.scheme ++ [':', '/', '/'] ++ front))) =
          some (.ofList [c]) := by
      intro c letter
      have oneLine : '\n' ∉ ['/', c] := by
        rcases letter with rfl | rfl <;> decide
      let t' := t.withPath ['/', c] oneLine
      let size := max (t'.config u).utf8ByteSize (t'.config .empty).utf8ByteSize
      have fits : t'.Fits size u := Nat.le_max_left _ _
      have fits' : t'.Fits size .empty := Nat.le_max_right _ _
      have origin' : t'.IsOrigin := origin
      have same := hidden ['/', c] oneLine size fits fits'
      rw [t'.repository_of_isOrigin u origin' fits, t'.repository_of_isOrigin .empty origin' fits',
        t'.extractRepoName_of_hides .empty (emptyHides t'), t'.rawUrl_of_equals u split_ noEquals,
        t.name_withPath letter oneLine] at same
      exact same
    have both := (value 'a' (.inl rfl)).symm.trans (value 'b' (.inr rfl))
    exact absurd both (by decide)

/-- The origin of a repository on a host, with some credentials before it. -/
def hosted : RemoteUrl where
  before := "[remote \"origin\"]\n".toList
  key := "\turl ".toList
  gap := " ".toList
  scheme := "https".toList
  host := "github.com".toList
  path := "/repo.git".toList
  after := "\n".toList
  beforeLines := .inr ⟨"[remote \"origin\"]".toList, by decide⟩
  keyPart := by decide
  gapPart := ⟨by decide, List.all_iff_forall_prop.mp (by decide)⟩
  schemePart := by decide
  hostPart := by decide
  pathPart := by decide
  afterLines := .inr ⟨[], by decide⟩

/-- A token with `=` in it becomes the name of the repository. -/
theorem repository_hosted_token :
    hosted.repository 65536 ⟨"ghp=x".toList, by decide⟩ = some "ghp" ∧
      hosted.repository 65536 ⟨"oauth2:ghp".toList, by decide⟩ = some "repo" := by
  constructor
  · rw [hosted.repository_eq _ (by unfold Fits; decide)]
    decide +kernel
  · rw [hosted.repository_eq _ (by unfold Fits; decide)]
    decide +kernel

end RemoteUrl

end AgentOtelBridge.Git
