import AgentOtelBridge.Core.Archetype
import AgentOtelBridge.Lib.TextScan

/-!
# The segments of a command

A pipe between two commands is a `|` outside quotes that is not one of a `||`.  The segments of
a command are what is between its pipes.

The depth of a pipeline is the number of its segments.  The binary is read from the text before
the first `|` of any kind, and the marks of an archetype are searched in the whole text, so the
binary is the first segment's only if its first word has no `|`, and a mark in quotes counts as
one outside.
-/

namespace AgentOtelBridge

namespace ClassifiedCommand

/-! ## Segments -/

inductive Quote where
  | outside
  | single
  | double
deriving DecidableEq

def Quote.next : Quote → Char → Quote
  | .outside, c => if c = '\'' then .single else if c = '"' then .double else .outside
  | .single, c => if c = '\'' then .outside else .single
  | .double, c => if c = '"' then .outside else .double

/-- The characters of a command, with whether they are a pipe.  After the first character of a
`||` comes its second one. -/
def scan : Quote → Bool → List Char → List (Char × Bool)
  | _, _, [] => []
  | quote, true, c :: cs => (c, false) :: scan quote false cs
  | quote, false, c :: cs =>
      if c = '|' ∧ quote = .outside then
        if cs.head? = some '|' then (c, false) :: scan quote true cs
        else (c, true) :: scan quote false cs
      else (c, false) :: scan (quote.next c) false cs

/-- The characters of a command from outside quotes. -/
def pipes (cmd : String) : List (Char × Bool) := scan .outside false cmd.toList

/-- The segments of a command. -/
def segments (cmd : String) : List (List Char) :=
  ((pipes cmd).splitOnP Prod.snd).map fun segment => segment.map Prod.fst

/-- What follows a `|` that the pipe rule looks for. -/
def parserStarts : List String := [" jq", " yq", " dasel"]

/-- A segment starts, after one blank, with the name of a parser. -/
def StartsParser (segment : List Char) : Prop := ∃ start ∈ parserStarts, start.toList <+: segment

/-- One blank and the name of a parser follow a `|`, which is a pipe or is none. -/
def ParserAt (cmd : String) (isPipe : Bool) : Prop :=
  ∃ front back, pipes cmd = front ++ ('|', isPipe) :: back ∧ StartsParser (back.map Prod.fst)

/-- The words of the first segment. -/
def firstWords (cmd : String) : List String :=
  Text.splitWhitespace (.ofList ((segments cmd).headD []))

theorem map_fst_scan (quote : Quote) (paired : Bool) (cs : List Char) :
    (scan quote paired cs).map Prod.fst = cs := by
  induction cs generalizing quote paired with
  | nil => rfl
  | cons c cs ih =>
      cases paired with
      | true => rw [scan, List.map_cons, ih]
      | false =>
          rw [scan]
          split
          · split
            · rw [List.map_cons, ih]
            · rw [List.map_cons, ih]
          · rw [List.map_cons, ih]

/-- The number of the pipes. -/
def pipeCount (quote : Quote) (paired : Bool) (cs : List Char) : Nat :=
  (scan quote paired cs).countP Prod.snd

/-! ## The depth -/

/-- The quotes of the loop. -/
def Quote.flags : Quote → Bool × Bool
  | .outside => (false, false)
  | .single => (true, false)
  | .double => (false, true)

theorem pipeCount_of_ne {c : Char} (other : c ≠ '|') (quote : Quote) (cs : List Char) :
    pipeCount quote false (c :: cs) = pipeCount (quote.next c) false cs := by
  simp [pipeCount, scan, other]

theorem Quote.next_bar (quote : Quote) : quote.next '|' = quote := by
  cases quote <;> rfl

theorem pipeCount_or (quote : Quote) (cs : List Char) :
    pipeCount quote false ('|' :: '|' :: cs) = pipeCount quote false cs := by
  cases quote <;> simp [pipeCount, scan, Quote.next]

theorem pipeCount_bar (quote : Quote) {cs : List Char} (single : cs.head? ≠ some '|') :
    pipeCount quote false ('|' :: cs) =
      (if quote = .outside then 1 else 0) + pipeCount quote false cs := by
  cases quote <;> simp [pipeCount, scan, Quote.next, single, Nat.add_comm]

theorem head_ne_bar {cs : List Char} (notOr : ∀ rest, cs = '|' :: rest → False) :
    cs.head? ≠ some '|' := by
  intro bar
  obtain ⟨rest, rfl⟩ := List.head?_eq_some_iff.mp bar
  exact notOr rest rfl

theorem countPipes_eq (inSingleQuote inDoubleQuote : Bool) (count : Nat) (cs : List Char)
    (quote : Quote) (flags : quote.flags = (inSingleQuote, inDoubleQuote)) :
    countPipes inSingleQuote inDoubleQuote count cs = count + pipeCount quote false cs := by
  induction inSingleQuote, inDoubleQuote, count, cs using countPipes.induct generalizing quote with
  | case1 => rw [countPipes]; rfl
  | case2 inSingleQuote count cs ih =>
      cases quote <;> cases flags
      rw [countPipes, if_pos rfl, ih .double rfl, pipeCount_of_ne (by decide)]
      rfl
  | case3 inSingleQuote inDoubleQuote count cs notDouble ih =>
      cases quote <;> cases flags
      · rw [countPipes, if_neg notDouble, ih .single rfl, pipeCount_of_ne (by decide)]
        rfl
      · rw [countPipes, if_neg notDouble, ih .outside rfl, pipeCount_of_ne (by decide)]
        rfl
      · exact absurd rfl notDouble
  | case4 inDoubleQuote count cs ih =>
      cases quote <;> cases flags
      rw [countPipes, if_pos rfl, ih .single rfl, pipeCount_of_ne (by decide)]
      rfl
  | case5 inSingleQuote inDoubleQuote count cs notSingle ih =>
      cases quote <;> cases flags
      · rw [countPipes, if_neg notSingle, ih .double rfl, pipeCount_of_ne (by decide)]
        rfl
      · exact absurd rfl notSingle
      · rw [countPipes, if_neg notSingle, ih .outside rfl, pipeCount_of_ne (by decide)]
        rfl
  | case6 inSingleQuote inDoubleQuote count cs ih =>
      rw [countPipes, ih quote flags, pipeCount_or]
  | case7 inSingleQuote inDoubleQuote count cs notOr quoted ih =>
      have inside : quote ≠ .outside := by
        rintro rfl
        cases flags
        cases quoted
      rw [countPipes, if_pos quoted, ih quote flags, pipeCount_bar quote (head_ne_bar notOr),
        if_neg inside, Nat.zero_add]
      exact notOr
  | case8 inSingleQuote inDoubleQuote count cs notOr unquoted ih =>
      have outside : quote = .outside := by
        cases quote <;> cases flags
        · rfl
        · exact absurd rfl unquoted
        · exact absurd rfl unquoted
      rw [countPipes, if_neg unquoted, ih quote flags, pipeCount_bar quote (head_ne_bar notOr),
        if_pos outside, Nat.add_assoc]
      exact notOr
  | case9 inSingleQuote inDoubleQuote count c cs notSingle notDouble notOr notBar ih =>
      have kept : quote.next c = quote := by
        cases quote with
        | outside => rw [Quote.next, if_neg notSingle, if_neg notDouble]
        | single => rw [Quote.next, if_neg notSingle]
        | double => rw [Quote.next, if_neg notDouble]
      rw [countPipes, ih quote flags, pipeCount_of_ne notBar, kept]
      · exact notSingle
      · exact notDouble
      · exact notOr
      · exact notBar

/-! ## Texts in parts -/

/-- Behind what ends in no `||` of it, a text is read on from the quotes it leaves. -/
theorem scan_append {back : List Char} (notBar : back.head? ≠ some '|') (quote : Quote)
    (paired : Bool) (front : List Char) (pairing : paired = true → front.head? = some '|') :
    scan quote paired (front ++ back) =
      scan quote paired front ++ scan (front.foldl Quote.next quote) false back := by
  induction front generalizing quote paired with
  | nil =>
      cases paired with
      | true => cases pairing rfl
      | false => rfl
  | cons c front ih =>
      cases paired with
      | true =>
          obtain rfl : c = '|' := Option.some.inj (pairing rfl)
          rw [List.cons_append, scan, scan, ih quote false nofun, List.foldl_cons,
            Quote.next_bar]
          rfl
      | false =>
          rw [List.cons_append, scan, scan, List.foldl_cons]
          split
          next bar =>
            obtain ⟨rfl, rfl⟩ := bar
            have head : (front ++ back).head? = some '|' ↔ front.head? = some '|' := by
              cases front with
              | nil => simpa using notBar
              | cons => simp
            rw [Quote.next_bar]
            split
            next pair =>
              rw [if_pos (head.mp pair), ih .outside true fun _ => head.mp pair]
              rfl
            next single =>
              rw [if_neg (mt head.mpr single), ih .outside false nofun]
              rfl
          next => rw [ih _ false nofun]; rfl

theorem pipeCount_append {back : List Char} (notBar : back.head? ≠ some '|') (quote : Quote)
    (front : List Char) :
    pipeCount quote false (front ++ back) =
      pipeCount quote false front + pipeCount (front.foldl Quote.next quote) false back := by
  rw [pipeCount, scan_append notBar quote false front nofun, List.countP_append]
  rfl

/-- A character that is no pipe and keeps the quotes. -/
def Quote.Keeps (quote : Quote) (c : Char) : Prop :=
  quote.next c = quote ∧ ¬ (c = '|' ∧ quote = .outside)

theorem Quote.foldl_next_of_keeps {quote : Quote} {text : List Char}
    (keeps : ∀ c ∈ text, quote.Keeps c) : text.foldl Quote.next quote = quote := by
  induction text with
  | nil => rfl
  | cons c text ih =>
      rw [List.foldl_cons, (keeps c (.head _)).1]
      exact ih fun c member => keeps c (.tail _ member)

theorem pipeCount_keeps_append {quote : Quote} {text : List Char}
    (keeps : ∀ c ∈ text, quote.Keeps c) (back : List Char) :
    pipeCount quote false (text ++ back) = pipeCount quote false back := by
  induction text with
  | nil => rfl
  | cons c text ih =>
      obtain ⟨same, noPipe⟩ := keeps c (.head _)
      rw [List.cons_append, pipeCount, scan, if_neg noPipe, same]
      exact ih fun c member => keeps c (.tail _ member)

theorem Quote.keeps_of_blank {c : Char} (blank : Text.isWhitespace c = true) (quote : Quote) :
    quote.Keeps c := by
  have notQuote : c ≠ '\'' ∧ c ≠ '"' ∧ c ≠ '|' := by
    refine ⟨?_, ?_, ?_⟩ <;> rintro rfl <;> exact absurd blank (by decide)
  constructor
  · cases quote <;> simp [Quote.next, notQuote]
  · exact fun bar => notQuote.2.2 bar.1

/-- The depth does not count on white space at the ends. -/
theorem pipeCount_trim (cs : List Char) :
    pipeCount .outside false (Text.trimChars cs) = pipeCount .outside false cs := by
  obtain ⟨front, back, split, frontBlank, backBlank⟩ := Text.exists_trimChars cs
  have noBar : back.head? ≠ some '|' := fun bar =>
    absurd (backBlank '|' (List.mem_of_head? bar)) (by decide)
  have none_ : pipeCount ((Text.trimChars cs).foldl Quote.next .outside) false back = 0 := by
    rw [← List.append_nil back, pipeCount_keeps_append fun c member =>
      Quote.keeps_of_blank (backBlank c member) _]
    rfl
  conv_rhs => rw [split]
  rw [List.append_assoc, pipeCount_keeps_append fun c member =>
    Quote.keeps_of_blank (frontBlank c member) .outside, pipeCount_append noBar, none_,
    Nat.add_zero]

theorem length_segments (cmd : String) :
    (segments cmd).length = 1 + pipeCount .outside false cmd.toList := by
  have split : ∀ list : List (Char × Bool),
      (list.splitOnP Prod.snd).length = 1 + list.countP Prod.snd := by
    intro list
    induction list with
    | nil => rfl
    | cons mark list ih =>
        rw [List.splitOnP_cons_eq_if_modifyHead, List.countP_cons]
        split
        next => rw [List.length_cons, ih]; omega
        next => rw [List.length_modifyHead, ih, Nat.add_zero]
  rw [segments, List.length_map, split, pipes, pipeCount]

/-! ## The words that are read -/

/-- The words before the first `|`. -/
def cutWords : List (List Char) → List (List Char)
  | [] => []
  | word :: words =>
      if '|' ∈ word then
        if word.takeWhile (· ≠ '|') = [] then [] else [word.takeWhile (· ≠ '|')]
      else word :: cutWords words

/-- The parts of a text before the first `|`. -/
def cutParts : List (List Char) → List (List Char)
  | [] => []
  | part :: parts =>
      if '|' ∈ part then [part.takeWhile (· ≠ '|')] else part :: cutParts parts

theorem cutParts_modifyHead {c : Char} (other : c ≠ '|') (parts : List (List Char)) :
    cutParts (parts.modifyHead (c :: ·)) = (cutParts parts).modifyHead (c :: ·) := by
  cases parts with
  | nil => rfl
  | cons part parts =>
      have same : '|' ∈ c :: part ↔ '|' ∈ part := by simp [Ne.symm other]
      simp only [List.modifyHead_cons, cutParts, same]
      split
      · simp [other]
      · rfl

theorem splitOnP_takeWhile (cs : List Char) :
    (cs.takeWhile (· ≠ '|')).splitOnP Text.isWhitespace =
      cutParts (cs.splitOnP Text.isWhitespace) := by
  induction cs with
  | nil => rfl
  | cons c cs ih =>
      rw [List.takeWhile_cons, List.splitOnP_cons_eq_if_modifyHead]
      by_cases bar : c = '|'
      · subst bar
        obtain ⟨part, parts, split⟩ :=
          List.exists_cons_of_ne_nil (List.splitOnP_ne_nil Text.isWhitespace cs)
        rw [if_neg (show ¬ Text.isWhitespace '|' = true by decide), split]
        rfl
      · rw [if_pos (by simpa using bar), List.splitOnP_cons_eq_if_modifyHead, ih]
        split
        · simp [cutParts]
        · rw [cutParts_modifyHead bar]

theorem filter_cutParts (parts : List (List Char)) :
    ((cutParts parts).filter fun word => word ≠ []) =
      cutWords (parts.filter fun word => word ≠ []) := by
  induction parts with
  | nil => rfl
  | cons part parts ih =>
      rw [cutParts]
      by_cases bar : '|' ∈ part
      · have nonempty : part ≠ [] := List.ne_nil_of_mem bar
        have kept : ((part :: parts).filter fun word => word ≠ []) =
            part :: parts.filter fun word => word ≠ [] :=
          List.filter_cons_of_pos (decide_eq_true nonempty)
        rw [if_pos bar, kept, cutWords, if_pos bar]
        split
        next empty => rw [empty]; rfl
        next some => exact List.filter_cons_of_pos (decide_eq_true some)
      · rw [if_neg bar]
        cases part with
        | nil => simpa using ih
        | cons c part =>
            rw [List.filter_cons_of_pos (by simp), List.filter_cons_of_pos (by simp), cutWords,
              if_neg bar, ih]

/-- The words before the first `|` of a text are told by its words. -/
theorem wordChars_takeWhile (cs : List Char) :
    Text.wordChars (cs.takeWhile (· ≠ '|')) = cutWords (Text.wordChars cs) := by
  rw [Text.wordChars, splitOnP_takeWhile, filter_cutParts]
  rfl

/-- The words that are read of a command. -/
def tokens (cmd : String) : List String :=
  Text.splitWhitespace (Text.trim (Text.beforeFirst '|' (Text.trim cmd)))

theorem tokens_eq (cmd : String) :
    tokens cmd = (cutWords (Text.wordChars cmd.toList)).map String.ofList := by
  rw [tokens, Text.splitWhitespace_eq, Text.trim, String.toList_ofList, Text.wordChars_trimChars,
    Text.beforeFirst, String.toList_ofList, wordChars_takeWhile, Text.trim, String.toList_ofList,
    Text.wordChars_trimChars]

/-- Only a `|` is a pipe. -/
theorem bar_of_pipe {quote : Quote} {paired : Bool} {cs : List Char} {mark : Char × Bool}
    (member : mark ∈ scan quote paired cs) (pipe : mark.2 = true) : mark.1 = '|' := by
  induction cs generalizing quote paired with
  | nil => cases member
  | cons c cs ih =>
      cases paired with
      | true =>
          rcases List.mem_cons.mp member with rfl | member
          · cases pipe
          · exact ih member
      | false =>
          rw [scan] at member
          split at member
          next bar =>
            split at member
            · rcases List.mem_cons.mp member with rfl | member
              · cases pipe
              · exact ih member
            · rcases List.mem_cons.mp member with rfl | member
              · exact bar.1
              · exact ih member
          next =>
            rcases List.mem_cons.mp member with rfl | member
            · cases pipe
            · exact ih member

theorem headD_splitOnP (marks : List (Char × Bool)) :
    (marks.splitOnP Prod.snd).headD [] = marks.takeWhile fun mark => !mark.2 := by
  induction marks with
  | nil => rfl
  | cons mark marks ih =>
      rw [List.splitOnP_cons_eq_if_modifyHead, List.takeWhile_cons]
      cases pipe : mark.2 with
      | true => rfl
      | false =>
          obtain ⟨part, parts, split⟩ :=
            List.exists_cons_of_ne_nil (List.splitOnP_ne_nil Prod.snd marks)
          rw [split] at ih ⊢
          simpa using ih

/-- The text before the first `|` is that of the first segment. -/
theorem takeWhile_firstSegment (cmd : String) :
    ((segments cmd).headD []).takeWhile (· ≠ '|') = cmd.toList.takeWhile (· ≠ '|') := by
  have cut : ∀ marks : List (Char × Bool), (∀ mark ∈ marks, mark.2 = true → mark.1 = '|') →
      ((marks.takeWhile fun mark => !mark.2).map Prod.fst).takeWhile (· ≠ '|') =
        (marks.map Prod.fst).takeWhile (· ≠ '|') := by
    intro marks bars
    induction marks with
    | nil => rfl
    | cons mark marks ih =>
        have rest := ih fun other member => bars other (.tail _ member)
        rw [List.takeWhile_cons]
        cases pipe : mark.2 with
        | true =>
            have bar := bars mark (.head _) pipe
            simp [bar]
        | false =>
            simp only [Bool.not_false, if_true, List.map_cons, List.takeWhile_cons, rest]
  have head : (segments cmd).headD [] = ((pipes cmd).takeWhile fun mark => !mark.2).map Prod.fst := by
    rw [← headD_splitOnP, segments]
    cases (pipes cmd).splitOnP Prod.snd <;> rfl
  rw [head, cut (pipes cmd) fun mark member => bar_of_pipe member, pipes, map_fst_scan]

/-- The words that are read are those of the first segment before a `|`. -/
theorem tokens_eq_firstWords (cmd : String) :
    tokens cmd = (cutWords ((firstWords cmd).map String.toList)).map String.ofList := by
  have unread : (firstWords cmd).map String.toList =
      Text.wordChars ((segments cmd).headD []) := by
    rw [firstWords, Text.splitWhitespace_eq, String.toList_ofList, List.map_map]
    simp [Function.comp_def]
  rw [unread, ← wordChars_takeWhile, takeWhile_firstSegment, wordChars_takeWhile, tokens_eq]

/-! ## The classification -/

/-- An empty command is classified as any other one. -/
theorem classify_eq (cmd : String) :
    classify cmd =
      let binary := normalizeBinary ((tokens cmd).headD "")
      let depth := countPipelineSegments (Text.trim cmd)
      if isProxyWrapper binary then
        ⟨.filterCompressor, binary, depth, ((tokens cmd)[1]?).map normalizeBinary⟩
      else ⟨inferArchetype binary (Text.trim cmd) (tokens cmd), binary, depth, none⟩ := by
  by_cases blank : Text.trim cmd = ""
  · have unread : tokens cmd = [] := by rw [tokens, blank]; rfl
    rw [classify, if_pos blank, unread, blank]
    decide +kernel
  · rw [classify, if_neg blank]
    rfl

theorem binary_eq (cmd : String) :
    (classify cmd).binary = normalizeBinary ((tokens cmd).headD "") := by
  rw [classify_eq]
  dsimp only
  split <;> rfl

theorem archetype_eq {cmd : String} (plain : ¬ isProxyWrapper (classify cmd).binary) :
    (classify cmd).archetype =
      inferArchetype (classify cmd).binary (Text.trim cmd) (tokens cmd) := by
  rw [binary_eq] at plain ⊢
  rw [classify_eq]
  dsimp only
  rw [if_neg plain]

/-- The depth is the number of the segments. -/
theorem pipelineDepth_eq (cmd : String) : (classify cmd).pipelineDepth = (segments cmd).length := by
  have depth : (classify cmd).pipelineDepth = countPipelineSegments (Text.trim cmd) := by
    rw [classify_eq]
    dsimp only
    split <;> rfl
  rw [depth, countPipelineSegments, countPipes_eq false false 1 _ .outside rfl, length_segments,
    Text.trim, String.toList_ofList, pipeCount_trim]

theorem binary_eq_firstWord {cmd : String}
    (whole : ∀ word ∈ (firstWords cmd).head?, '|' ∉ word.toList) :
    (classify cmd).binary = normalizeBinary ((firstWords cmd).headD "") := by
  rw [binary_eq, tokens_eq_firstWords]
  cases read : firstWords cmd with
  | nil => rfl
  | cons word words =>
      rw [read] at whole
      rw [List.map_cons, cutWords, if_neg (whole word rfl)]
      simp

/-! ## The pipe rule -/

/-- The marks of the pipe rule. -/
def pipeMarks : List String := ["| jq", "| yq", "| dasel"]

def hasPipeMark (cmd : String) : Bool := pipeMarks.any fun mark => Text.contains (Text.trim cmd) mark

/-- A mark is read whatever stands at the ends of a command. -/
theorem contains_trim (cmd : String) {mark : String} (nonempty : mark.toList ≠ [])
    (trimmed : Text.Trimmed mark.toList) :
    Text.contains (Text.trim cmd) mark = Text.contains cmd mark := by
  rw [Bool.eq_iff_iff, Text.contains_iff, Text.contains_iff, Text.trim, String.toList_ofList]
  exact Text.infix_trimChars_iff nonempty trimmed

theorem infix_cons_iff {c : Char} {part cs : List Char} :
    (c :: part) <:+: cs ↔ ∃ front back, cs = front ++ c :: back ∧ part <+: back := by
  constructor
  · rintro ⟨front, back, rfl⟩
    exact ⟨front, part ++ back, by simp, List.prefix_append part back⟩
  · rintro ⟨front, _, rfl, back, rfl⟩
    exact ⟨front, back, by simp⟩

theorem hasPipeMark_iff_text (cmd : String) :
    hasPipeMark cmd ↔ ∃ front back, cmd.toList = front ++ '|' :: back ∧ StartsParser back := by
  have mark : ∀ start ∈ parserStarts, ∀ mark : String, mark.toList = '|' :: start.toList →
      (Text.contains (Text.trim cmd) mark ↔
        ∃ front back, cmd.toList = front ++ '|' :: back ∧ start.toList <+: back) := by
    intro start listed mark spelled
    have trimmed : Text.Trimmed mark.toList := by
      rw [spelled]
      simp only [parserStarts, List.mem_cons, List.not_mem_nil, or_false] at listed
      rcases listed with rfl | rfl | rfl <;>
        exact .of_ends (by decide +kernel) (by decide +kernel)
    rw [contains_trim cmd (by rw [spelled]; exact List.cons_ne_nil _ _) trimmed,
      Text.contains_iff, spelled, infix_cons_iff]
  simp only [hasPipeMark, pipeMarks, List.any_cons, List.any_nil, Bool.or_false, Bool.or_eq_true,
    mark " jq" (by decide) "| jq" rfl, mark " yq" (by decide) "| yq" rfl,
    mark " dasel" (by decide) "| dasel" rfl, StartsParser, parserStarts, List.exists_mem_cons_iff,
    List.not_mem_nil, false_and, exists_false, or_false, and_or_left, exists_or]

theorem hasPipeMark_iff (cmd : String) : hasPipeMark cmd ↔ ∃ isPipe, ParserAt cmd isPipe := by
  rw [hasPipeMark_iff_text]
  constructor
  · rintro ⟨front, back, split, starts⟩
    rw [← map_fst_scan .outside false cmd.toList] at split
    obtain ⟨frontMarks, rest, marks, rfl, ends⟩ := List.map_eq_append_iff.mp split
    obtain ⟨⟨c, isPipe⟩, backMarks, rfl, bar, rfl⟩ := List.map_eq_cons_iff.mp ends
    obtain rfl : c = '|' := bar
    exact ⟨isPipe, frontMarks, backMarks, marks, starts⟩
  · rintro ⟨isPipe, front, back, marks, starts⟩
    refine ⟨front.map Prod.fst, back.map Prod.fst, ?_, starts⟩
    rw [← map_fst_scan .outside false cmd.toList]
    change (pipes cmd).map Prod.fst = _
    rw [marks, List.map_append, List.map_cons]

/-- A segment behind the first one is what follows a pipe. -/
theorem mem_tail_splitOnP {marks : List (Char × Bool)} {segment : List (Char × Bool)} :
    segment ∈ (marks.splitOnP Prod.snd).tail ↔ ∃ front mark back,
      marks = front ++ mark :: back ∧ mark.2 = true ∧
        segment = back.takeWhile fun mark => !mark.2 := by
  constructor
  · intro member
    induction marks with
    | nil => cases member
    | cons mark marks ih =>
        rw [List.splitOnP_cons_eq_if_modifyHead] at member
        obtain ⟨part, parts, split⟩ :=
          List.exists_cons_of_ne_nil (List.splitOnP_ne_nil Prod.snd marks)
        have head := headD_splitOnP marks
        rw [split] at ih member head
        have later : segment ∈ parts → ∃ front other back,
            mark :: marks = front ++ other :: back ∧ other.2 = true ∧
              segment = back.takeWhile fun mark => !mark.2 := by
          intro found
          obtain ⟨front, other, back, rfl, pipe, same⟩ := ih found
          exact ⟨mark :: front, other, back, rfl, pipe, same⟩
        split at member
        next pipe =>
          rcases List.mem_cons.mp member with rfl | found
          · exact ⟨[], mark, marks, rfl, pipe, head⟩
          · exact later found
        next => exact later member
  · rintro ⟨front, mark, back, rfl, pipe, rfl⟩
    obtain ⟨part, parts, split⟩ :=
      List.exists_cons_of_ne_nil (List.splitOnP_ne_nil Prod.snd front)
    rw [List.splitOnP_append_cons _ _ pipe, split, ← headD_splitOnP]
    obtain ⟨first, others, split⟩ :=
      List.exists_cons_of_ne_nil (List.splitOnP_ne_nil Prod.snd back)
    rw [split]
    simp

/-- A text without `|` that follows is in the segment. -/
theorem prefix_takeWhile {start : List Char} (noBar : '|' ∉ start) {back : List (Char × Bool)}
    (bars : ∀ mark ∈ back, mark.2 = true → mark.1 = '|') (starts : start <+: back.map Prod.fst) :
    start <+: (back.takeWhile fun mark => !mark.2).map Prod.fst := by
  induction start generalizing back with
  | nil => exact List.nil_prefix
  | cons c start ih =>
      cases back with
      | nil => cases List.prefix_nil.mp starts
      | cons mark back =>
          obtain ⟨rfl, rest⟩ := List.cons_prefix_cons.mp starts
          have noPipe : mark.2 = false := by
            cases pipe : mark.2 with
            | true => exact absurd (.head _) (bars mark (.head _) pipe ▸ noBar)
            | false => rfl
          rw [List.takeWhile_cons, noPipe]
          exact List.cons_prefix_cons.mpr ⟨rfl, ih (fun h => noBar (.tail _ h))
            (fun other member => bars other (.tail _ member)) rest⟩

/-- A parser follows a pipe just if a segment behind the first one starts with it. -/
theorem parserAt_true_iff (cmd : String) :
    ParserAt cmd true ↔ ∃ segment ∈ (segments cmd).tail, StartsParser segment := by
  have noBar : ∀ start ∈ parserStarts, '|' ∉ start.toList := by decide +kernel
  constructor
  · rintro ⟨front, back, marks, start, listed, starts⟩
    have bars : ∀ mark ∈ back, mark.2 = true → mark.1 = '|' := fun mark member =>
      bar_of_pipe (marks ▸ List.mem_append_right front (.tail _ member))
    refine ⟨(back.takeWhile fun mark => !mark.2).map Prod.fst, ?_, start, listed,
      prefix_takeWhile (noBar start listed) bars starts⟩
    rw [segments, ← List.map_tail]
    exact List.mem_map_of_mem (mem_tail_splitOnP.mpr ⟨front, _, back, marks, rfl, rfl⟩)
  · rintro ⟨segment, member, start, listed, starts⟩
    rw [segments, ← List.map_tail] at member
    obtain ⟨marks, behind, rfl⟩ := List.mem_map.mp member
    obtain ⟨front, ⟨c, isPipe⟩, back, split, pipe, rfl⟩ := mem_tail_splitOnP.mp behind
    obtain rfl : isPipe = true := pipe
    obtain rfl : c = '|' :=
      bar_of_pipe (split ▸ List.mem_append_right front (.head _) : (c, true) ∈ pipes cmd) rfl
    exact ⟨front, back, split, start, listed,
      starts.trans ((List.takeWhile_prefix _).map Prod.fst)⟩

/-! ## The archetype -/

/-- The binaries that are parsers themselves. -/
def parserBinaries : List String := ["jq", "yq", "dasel", "fx", "gron", "xmllint", "jmespath"]

/-- The binaries for which the whole text is searched. -/
def textBinaries : List String := ["npm", "pnpm", "yarn", "bun", "python", "python3", "sed"]

/-- What is searched for. -/
def textMarks : List String :=
  ["test", "-m pip", "-m uv", "-m pytest", "-m unittest", "-i", "--in-place"]

/-- The condition of the pipe rule. -/
theorem pipeRule_eq (cmd : String) :
    (Text.contains (Text.trim cmd) "| jq" || Text.contains (Text.trim cmd) "| yq" ||
      Text.contains (Text.trim cmd) "| dasel") = hasPipeMark cmd := by
  simp only [hasPipeMark, pipeMarks, List.any_cons, List.any_nil, Bool.or_false, Bool.or_assoc]

theorem inferArchetype_of_pipeMark (binary : String) {cmd : String} (tokens : List String)
    (marked : hasPipeMark cmd) :
    inferArchetype binary (Text.trim cmd) tokens = .structuredParser := by
  rw [inferArchetype, pipeRule_eq, if_pos marked]

theorem ite_ne {c : Prop} [Decidable c] {archetype other excluded : ToolArchetype}
    (left : archetype ≠ excluded) (right : other ≠ excluded) :
    (if c then archetype else other) ≠ excluded := by
  split
  · exact left
  · exact right

/-- Only the parsers are parsers by their name. -/
theorem inferArchetype_structured {binary cmd : String} {tokens : List String}
    (unmarked : ¬ hasPipeMark cmd)
    (structured : inferArchetype binary (Text.trim cmd) tokens = .structuredParser) :
    binary ∈ parserBinaries := by
  by_contra notParser
  unfold parserBinaries at notParser
  refine absurd structured ?_
  rw [inferArchetype, pipeRule_eq, if_neg unmarked]
  simp only [notParser, if_false]
  repeat' first
    | apply ite_ne
    | decide

/-- Without a mark of the pipe rule, two texts are told apart by their other marks, and only for
some binaries. -/
theorem inferArchetype_congr {binary cmd cmd' : String} (tokens : List String)
    (unmarked : ¬ hasPipeMark cmd) (unmarked' : ¬ hasPipeMark cmd')
    (same : binary ∉ textBinaries ∨
      ∀ mark ∈ textMarks, Text.contains cmd mark = Text.contains cmd' mark) :
    inferArchetype binary (Text.trim cmd) tokens = inferArchetype binary (Text.trim cmd') tokens := by
  rw [inferArchetype, inferArchetype, pipeRule_eq, pipeRule_eq, if_neg unmarked, if_neg unmarked']
  rcases same with notText | marks
  · simp only [textBinaries, List.mem_cons, List.not_mem_nil, or_false, not_or] at notText
    simp only [List.mem_cons, List.not_mem_nil, or_false, notText, false_and, if_false]
  · have trimmed : ∀ mark ∈ textMarks, mark.toList ≠ [] ∧ Text.Trimmed mark.toList := by
      intro mark listed
      simp only [textMarks, List.mem_cons, List.not_mem_nil, or_false] at listed
      rcases listed with rfl | rfl | rfl | rfl | rfl | rfl | rfl <;>
        exact ⟨by decide +kernel, .of_ends (by decide +kernel) (by decide +kernel)⟩
    have read : ∀ mark ∈ textMarks,
        Text.contains (Text.trim cmd) mark = Text.contains (Text.trim cmd') mark := by
      intro mark listed
      obtain ⟨nonempty, ends⟩ := trimmed mark listed
      rw [contains_trim cmd nonempty ends, contains_trim cmd' nonempty ends, marks mark listed]
    simp only [read "test" (by decide), read "-m pip" (by decide), read "-m uv" (by decide),
      read "-m pytest" (by decide), read "-m unittest" (by decide), read "-i" (by decide),
      read "--in-place" (by decide)]

/-! ## Quoted arguments -/

/-- A text has its first word, with white space behind it. -/
def HasFirstWord (front : List Char) : Prop :=
  ∃ blank word space rest, front = blank ++ (word ++ space :: rest) ∧ Text.Blank blank ∧
    word ≠ [] ∧ (∀ c ∈ word, Text.isWhitespace c = false) ∧ Text.isWhitespace space = true

/-- A command with a text in quotes behind its first word. -/
structure QuotedArgument (front : List Char) (quote : Char) (text : List Char) : Prop where
  word : HasFirstWord front
  outside : front.foldl Quote.next .outside = .outside
  quotes : quote = '\'' ∨ quote = '"'
  inside : quote ∉ text

def quotedCommand (front : List Char) (quote : Char) (text back : List Char) : String :=
  .ofList (front ++ quote :: (text ++ quote :: back))

variable {front text text' : List Char} {quote : Char}

/-- What is in quotes is no pipe. -/
theorem pipeCount_quoted (argument : QuotedArgument front quote text) (back : List Char) :
    pipeCount .outside false (quotedCommand front quote text back).toList =
      pipeCount .outside false front +
        pipeCount (Quote.next .outside quote) false (quote :: back) := by
  obtain ⟨_, outside, quotes, inside⟩ := argument
  have notBar : quote ≠ '|' := by rcases quotes with rfl | rfl <;> decide
  have keeps : ∀ c ∈ text, (Quote.next .outside quote).Keeps c := by
    intro c member
    have other : c ≠ quote := fun same => inside (same ▸ member)
    rcases quotes with rfl | rfl
    · exact ⟨by simp [Quote.next, other], by simp [Quote.next]⟩
    · exact ⟨by simp [Quote.next, other], by simp [Quote.next]⟩
  rw [quotedCommand, String.toList_ofList, pipeCount_append (by simpa using notBar), outside,
    pipeCount_of_ne notBar, pipeCount_keeps_append keeps]

/-- The first word is read before the quotes. -/
theorem head_tokens_quoted (argument : QuotedArgument front quote text)
    (argument' : QuotedArgument front quote text') (back : List Char) :
    (tokens (quotedCommand front quote text back)).head? =
      (tokens (quotedCommand front quote text' back)).head? := by
  obtain ⟨blank, word, space, rest, rfl, isBlank, nonempty, noSpace, isSpace⟩ := argument.word
  have read : ∀ tail : List Char, (cutWords (Text.wordChars
      (blank ++ (word ++ space :: rest) ++ tail))).head? = (cutWords [word]).head? := by
    intro tail
    rw [List.append_assoc, Text.wordChars_blank_append isBlank, List.append_assoc,
      List.cons_append, Text.wordChars_word_append nonempty noSpace isSpace]
    rw [cutWords, cutWords]
    split
    · rfl
    · rfl
  rw [tokens_eq, tokens_eq, quotedCommand, quotedCommand, String.toList_ofList,
    String.toList_ofList, List.head?_map, List.head?_map, read, read]

/-! ## The main result -/

/-- What holds of the classification of commands. -/
structure Classifies : Prop where
  depth : ∀ cmd, (classify cmd).pipelineDepth = (segments cmd).length
  binary : ∀ cmd, (∀ word ∈ (firstWords cmd).head?, '|' ∉ word.toList) →
    (classify cmd).binary = normalizeBinary ((firstWords cmd).headD "")
  piped : ∀ cmd, ¬ isProxyWrapper (classify cmd).binary →
    (∃ segment ∈ (segments cmd).tail, StartsParser segment) →
    (classify cmd).archetype = .structuredParser
  onlyPiped : ∀ cmd, ¬ isProxyWrapper (classify cmd).binary → ¬ ParserAt cmd false →
    (classify cmd).archetype = .structuredParser →
    (∃ segment ∈ (segments cmd).tail, StartsParser segment) ∨
      (classify cmd).binary ∈ parserBinaries
  words : ∀ cmd cmd', firstWords cmd = firstWords cmd' →
    (classify cmd).binary = (classify cmd').binary ∧
      (¬ isProxyWrapper (classify cmd).binary →
        (∀ isPipe, ¬ ParserAt cmd isPipe ∧ ¬ ParserAt cmd' isPipe) →
        ((classify cmd).binary ∉ textBinaries ∨
          ∀ mark ∈ textMarks, Text.contains cmd mark = Text.contains cmd' mark) →
        (classify cmd).archetype = (classify cmd').archetype)
  quoted : ∀ front quote text text' back, QuotedArgument front quote text →
    QuotedArgument front quote text' →
    (classify (quotedCommand front quote text back)).pipelineDepth =
        (classify (quotedCommand front quote text' back)).pipelineDepth ∧
      (classify (quotedCommand front quote text back)).binary =
        (classify (quotedCommand front quote text' back)).binary

theorem classify_classifies : Classifies where
  depth := pipelineDepth_eq
  binary _ whole := binary_eq_firstWord whole
  piped cmd plain starts := by
    rw [archetype_eq plain]
    exact inferArchetype_of_pipeMark _ _
      ((hasPipeMark_iff cmd).mpr ⟨true, (parserAt_true_iff cmd).mpr starts⟩)
  onlyPiped cmd plain noOther structured := by
    rw [archetype_eq plain] at structured
    by_cases marked : hasPipeMark cmd
    · obtain ⟨isPipe, parser⟩ := (hasPipeMark_iff cmd).mp marked
      cases isPipe with
      | true => exact Or.inl ((parserAt_true_iff cmd).mp parser)
      | false => exact absurd parser noOther
    · exact Or.inr (inferArchetype_structured marked structured)
  words cmd cmd' same := by
    have sameTokens : tokens cmd = tokens cmd' := by
      rw [tokens_eq_firstWords, tokens_eq_firstWords, same]
    have sameBinary : (classify cmd).binary = (classify cmd').binary := by
      rw [binary_eq, binary_eq, sameTokens]
    refine ⟨sameBinary, fun plain noParser agree => ?_⟩
    have unmarked : ¬ hasPipeMark cmd := by
      rw [hasPipeMark_iff]
      exact fun ⟨isPipe, parser⟩ => (noParser isPipe).1 parser
    have unmarked' : ¬ hasPipeMark cmd' := by
      rw [hasPipeMark_iff]
      exact fun ⟨isPipe, parser⟩ => (noParser isPipe).2 parser
    rw [archetype_eq plain, archetype_eq (sameBinary ▸ plain), ← sameBinary, ← sameTokens]
    exact inferArchetype_congr _ unmarked unmarked' agree
  quoted front quote text text' back argument argument' := by
    constructor
    · rw [pipelineDepth_eq, pipelineDepth_eq, length_segments, length_segments,
        pipeCount_quoted argument, pipeCount_quoted argument']
    · rw [binary_eq, binary_eq, List.headD_eq_head?_getD, List.headD_eq_head?_getD,
        head_tokens_quoted argument argument']

/-- A pattern in quotes. -/
theorem classify_quoted_pattern :
    (classify (quotedCommand "grep ".toList '"' "a|b".toList " f | wc".toList)).pipelineDepth =
      (classify (quotedCommand "grep ".toList '"' "x".toList " f | wc".toList)).pipelineDepth := by
  have solid : ∀ c ∈ "grep".toList, Text.isWhitespace c = false :=
    List.all_iff_forall_prop.mp (by decide)
  have word : HasFirstWord "grep ".toList :=
    ⟨[], "grep".toList, ' ', [], by decide, List.forall_mem_nil _, by decide, solid, by decide⟩
  exact (classify_classifies.quoted _ _ _ _ _ ⟨word, by decide, by decide, by decide⟩
    ⟨word, by decide, by decide, by decide⟩).1

/-- A `|` in quotes cuts the first word and makes a parser, and a text behind a pipe makes a test
of a script. -/
theorem classify_beyond_segments :
    ((classify "\"a|b\" x").binary = "a" ∧ firstWords "\"a|b\" x" = ["\"a|b\"", "x"] ∧
      normalizeBinary "\"a|b\"" = "a|b") ∧
    ((classify "grep \"| jq\" f").archetype = .structuredParser ∧
      (segments "grep \"| jq\" f").length = 1) ∧
    (firstWords "npm run x" = firstWords "npm run x | grep test" ∧
      (classify "npm run x").archetype = .envPkgManager ∧
      (classify "npm run x | grep test").archetype = .buildTestVerify) := by
  decide +kernel

end ClassifiedCommand

end AgentOtelBridge
