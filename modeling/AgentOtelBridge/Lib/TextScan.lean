import AgentOtelBridge.Lib.Text
import Mathlib.Data.Bool.AllAny
import Mathlib.Data.List.DropRight
import Mathlib.Data.List.Infix

/-!
# Lines, ends and segments of a text

The passes a line-by-line reader makes over a text, on its characters: the
lines, the place of a pattern, a pattern or white space dropped at the end, and
the last segment between separators.

The lemmas are about a text with a character in the middle that the pass stops
at, so that what stands before it stays.
-/

namespace Text

variable {cs front back : List Char} {c sep : Char}

/-! ## Lines -/

/-- A line without the carriage return before its line feed. -/
def stripReturn (line : List Char) : List Char :=
  if line.getLast? = some '\r' then line.dropLast else line

/-- The lines of a text, behind what was read of the first one. -/
def linesFrom (line : List Char) : List Char → List (List Char)
  | [] => if line = [] then [] else [line]
  | c :: cs => if c = '\n' then stripReturn line :: linesFrom [] cs else linesFrom (line ++ [c]) cs

def lines (cs : List Char) : List (List Char) := linesFrom [] cs

theorem linesFrom_of_not_mem (oneLine : '\n' ∉ cs) (line : List Char) :
    linesFrom line cs = if line ++ cs = [] then [] else [line ++ cs] := by
  induction cs generalizing line with
  | nil => rw [linesFrom, List.append_nil]
  | cons c cs ih =>
      have other : c ≠ '\n' := fun h => oneLine (h ▸ .head _)
      rw [linesFrom, if_neg other, ih (fun h => oneLine (.tail _ h)), List.append_assoc]
      rfl

theorem linesFrom_append_feed (line front back : List Char) :
    linesFrom line (front ++ '\n' :: back) = linesFrom line (front ++ ['\n']) ++ linesFrom [] back := by
  induction front generalizing line with
  | nil =>
      simp only [List.nil_append, linesFrom]
      rfl
  | cons c front ih =>
      rw [List.cons_append, List.cons_append, linesFrom, linesFrom]
      split
      · rw [ih, List.cons_append]
      · exact ih _

/-- The lines behind a line feed are those of the text that begins there. -/
theorem lines_append_feed (front back : List Char) :
    lines ((front ++ ['\n']) ++ back) = lines (front ++ ['\n']) ++ lines back := by
  rw [List.append_assoc]
  exact linesFrom_append_feed [] front back

theorem lines_cons_feed {line : List Char} (oneLine : '\n' ∉ line) (back : List Char) :
    lines (line ++ '\n' :: back) = stripReturn line :: lines back := by
  suffices h : ∀ read, linesFrom read (line ++ '\n' :: back) = stripReturn (read ++ line) :: lines back from
    h []
  induction line with
  | nil =>
      intro read
      rw [List.nil_append, List.append_nil, linesFrom, if_pos rfl]
      rfl
  | cons c line ih =>
      intro read
      have other : c ≠ '\n' := fun h => oneLine (h ▸ .head _)
      rw [List.cons_append, linesFrom, if_neg other, ih (fun h => oneLine (.tail _ h)),
        List.append_assoc]
      rfl

theorem lines_of_not_mem (oneLine : '\n' ∉ cs) (nonempty : cs ≠ []) : lines cs = [cs] := by
  rw [lines, linesFrom_of_not_mem oneLine, List.nil_append, if_neg nonempty]

/-- The first separator cuts a text. -/
theorem splitOnceChars_append_cons (absent : sep ∉ front) (back : List Char) :
    splitOnceChars [sep] (front ++ sep :: back) = some (front, back) := by
  induction front with
  | nil => simp [splitOnceChars]
  | cons c front ih =>
      have other : sep ≠ c := fun h => absent (h ▸ .head _)
      rw [List.cons_append, splitOnceChars, ih fun h => absent (.tail _ h)]
      simp [other]

/-! ## White space -/

def trimEnd (cs : List Char) : List Char := cs.rdropWhile isWhitespace

theorem trimChars_eq (cs : List Char) : trimChars cs = trimEnd (cs.dropWhile isWhitespace) := rfl

theorem dropWhile_append_cons {p : Char → Bool} (stops : p c = false) (front back : List Char) :
    (front ++ c :: back).dropWhile p = front.dropWhile p ++ c :: back := by
  rw [List.dropWhile_append]
  split
  next allDropped =>
    rw [List.isEmpty_iff.mp allDropped, List.dropWhile_cons_of_neg (by simp [stops])]
    rfl
  · rfl

theorem rdropWhile_append_cons {p : Char → Bool} (stops : p c = false) (front back : List Char) :
    (front ++ c :: back).rdropWhile p = front ++ c :: back.rdropWhile p := by
  rw [List.rdropWhile, List.reverse_append, List.reverse_cons, List.append_assoc,
    List.singleton_append, dropWhile_append_cons stops]
  simp [List.rdropWhile]

theorem trimEnd_append_cons (stops : isWhitespace c = false) (front back : List Char) :
    trimEnd (front ++ c :: back) = front ++ c :: trimEnd back :=
  rdropWhile_append_cons stops front back

theorem trimChars_append_cons (stops : isWhitespace c = false) (front back : List Char) :
    trimChars (front ++ c :: back) = front.dropWhile isWhitespace ++ c :: trimEnd back := by
  rw [trimChars_eq, dropWhile_append_cons stops, trimEnd_append_cons stops]

def Blank (cs : List Char) : Prop := ∀ c ∈ cs, isWhitespace c = true

instance (cs : List Char) : Decidable (Blank cs) :=
  List.decidableBAll (fun c => isWhitespace c = true) cs

/-- A text without white space at its ends. -/
structure Trimmed (cs : List Char) : Prop where
  head : ∀ c ∈ cs.head?, isWhitespace c = false
  last : ∀ c ∈ cs.getLast?, isWhitespace c = false

/-- The ends of a text that is given, tested. -/
theorem Trimmed.of_ends (head : cs.head?.any isWhitespace = false)
    (last : cs.getLast?.any isWhitespace = false) : Trimmed cs := by
  constructor
  · intro c present
    rw [Option.mem_def.mp present] at head
    exact head
  · intro c present
    rw [Option.mem_def.mp present] at last
    exact last

theorem Blank.append (blank : Blank front) (blank' : Blank back) : Blank (front ++ back) := by
  intro c member
  rcases List.mem_append.mp member with member | member
  · exact blank c member
  · exact blank' c member

theorem trimEnd_of_blank (blank : Blank cs) : trimEnd cs = [] :=
  List.rdropWhile_eq_nil_iff.mpr blank

theorem trimEnd_append_blank (trimmed : Trimmed cs) (nonempty : cs ≠ []) (front : List Char)
    (blank : Blank back) : trimEnd (front ++ cs ++ back) = front ++ cs := by
  obtain ⟨init, last, rfl⟩ := List.eq_nil_or_concat cs |>.resolve_left nonempty
  have stops := trimmed.last last (by simp)
  have split : front ++ init.concat last ++ back = (front ++ init) ++ last :: back := by simp
  rw [split, trimEnd_append_cons stops, trimEnd_of_blank blank]
  simp

theorem dropWhile_blank_append (trimmed : Trimmed cs) (nonempty : cs ≠ []) (blank : Blank front)
    (back : List Char) : (front ++ cs ++ back).dropWhile isWhitespace = cs ++ back := by
  obtain ⟨c, cs, rfl⟩ := List.exists_cons_of_ne_nil nonempty
  rw [List.append_assoc, List.cons_append, dropWhile_append_cons (trimmed.head c rfl),
    List.dropWhile_eq_nil_iff.mpr blank, List.nil_append]

/-- What is between blanks is found again. -/
theorem trimChars_between (trimmed : Trimmed cs) (blank : Blank front) (blank' : Blank back) :
    trimChars (front ++ cs ++ back) = cs := by
  rcases eq_or_ne cs [] with rfl | nonempty
  · rw [trimChars_eq, List.append_nil, List.dropWhile_eq_nil_iff.mpr (blank.append blank')]
    rfl
  · rw [trimChars_eq, dropWhile_blank_append trimmed nonempty blank]
    exact trimEnd_append_blank trimmed nonempty [] blank'

theorem trimChars_trimEnd_between (trimmed : Trimmed cs) (blank : Blank front)
    (blank' : Blank back) : trimChars (trimEnd (front ++ cs ++ back)) = cs := by
  rcases eq_or_ne cs [] with rfl | nonempty
  · rw [List.append_nil, trimEnd_of_blank (blank.append blank')]
    rfl
  · rw [trimEnd_append_blank trimmed nonempty front blank', ← List.append_nil (front ++ cs)]
    exact trimChars_between trimmed blank fun _ member => absurd member List.not_mem_nil

/-- A text is what its trimming leaves, between blanks. -/
theorem exists_trimChars (cs : List Char) :
    ∃ front back, cs = front ++ trimChars cs ++ back ∧ Blank front ∧ Blank back := by
  refine ⟨cs.takeWhile isWhitespace, (cs.dropWhile isWhitespace).rtakeWhile isWhitespace,
    ?_, fun c member => List.mem_takeWhile_imp member,
    fun c member => List.mem_rtakeWhile_imp member⟩
  rw [trimChars_eq, trimEnd, List.append_assoc, List.rdropWhile_append_rtakeWhile,
    List.takeWhile_append_dropWhile]

/-! ## Words -/

/-- What is between white space. -/
def wordChars (cs : List Char) : List (List Char) :=
  (cs.splitOnP isWhitespace).filter fun word => word ≠ []

theorem splitWhitespace_eq (s : String) :
    splitWhitespace s = (wordChars s.toList).map String.ofList := rfl

theorem wordChars_cons_space (space : isWhitespace c = true) (cs : List Char) :
    wordChars (c :: cs) = wordChars cs := by
  rw [wordChars, List.splitOnP_cons_eq_if_modifyHead, if_pos space, List.filter_cons_of_neg (by simp)]
  rfl

theorem wordChars_append_space (space : isWhitespace c = true) (front back : List Char) :
    wordChars (front ++ c :: back) = wordChars front ++ wordChars back := by
  rw [wordChars, List.splitOnP_append_cons _ _ space, List.filter_append]
  rfl

theorem wordChars_blank_append (blank : Blank front) (cs : List Char) :
    wordChars (front ++ cs) = wordChars cs := by
  induction front with
  | nil => rfl
  | cons c front ih =>
      rw [List.cons_append, wordChars_cons_space (blank c (.head _))]
      exact ih fun c member => blank c (.tail _ member)

theorem wordChars_of_blank (blank : Blank cs) : wordChars cs = [] := by
  rw [← List.append_nil cs, wordChars_blank_append blank]
  rfl

theorem wordChars_append_blank (blank : Blank back) (cs : List Char) :
    wordChars (cs ++ back) = wordChars cs := by
  cases back with
  | nil => rw [List.append_nil]
  | cons c back =>
      rw [wordChars_append_space (blank c (.head _)),
        wordChars_of_blank fun c member => blank c (.tail _ member), List.append_nil]

theorem wordChars_trimChars (cs : List Char) : wordChars (trimChars cs) = wordChars cs := by
  obtain ⟨front, back, split, blank, blank'⟩ := exists_trimChars cs
  conv_rhs => rw [split]
  rw [wordChars_append_blank blank', wordChars_blank_append blank]

/-- The first word, when white space ends it. -/
theorem wordChars_word_append {word : List Char} (nonempty : word ≠ [])
    (noSpace : ∀ c ∈ word, isWhitespace c = false) (space : isWhitespace c = true)
    (back : List Char) : wordChars (word ++ c :: back) = word :: wordChars back := by
  have alone : wordChars word = [word] := by
    rw [wordChars, List.splitOnP_eq_singleton noSpace, List.filter_cons_of_pos (by simpa using nonempty)]
    rfl
  rw [wordChars_append_space space, alone]
  rfl

/-! ## Occurrences -/

theorem contains_iff {s part : String} : contains s part = true ↔ part.toList <:+: s.toList := by
  rw [contains, List.any_eq_true, List.infix_iff_prefix_suffix]
  simp only [List.mem_tails, List.isPrefixOf_iff_prefix]
  exact exists_congr fun _ => And.comm

/-- What neither begins nor ends with white space occurs in a text just if it does in the text
without the white space at its ends. -/
theorem infix_trimChars_iff {part : List Char} (nonempty : part ≠ []) (trimmed : Trimmed part) :
    part <:+: trimChars cs ↔ part <:+: cs := by
  constructor
  · intro occurs
    obtain ⟨front, back, split, _, _⟩ := exists_trimChars cs
    rw [split]
    exact occurs.trans (List.infix_append front _ back)
  · rintro ⟨front, back, rfl⟩
    obtain ⟨first, rest, rfl⟩ := List.exists_cons_of_ne_nil nonempty
    obtain ⟨init, last, ends⟩ := List.eq_nil_or_concat (first :: rest) |>.resolve_left nonempty
    have stops := trimmed.last last (by rw [ends]; simp)
    have kept : trimChars (front ++ first :: rest ++ back) =
        front.dropWhile isWhitespace ++ (first :: rest) ++ trimEnd back := by
      rw [trimChars_eq, List.append_assoc, List.cons_append,
        dropWhile_append_cons (trimmed.head first rfl), ← List.cons_append, ends,
        List.concat_eq_append, List.append_assoc, ← List.append_assoc (front.dropWhile _),
        List.singleton_append, trimEnd_append_cons stops]
      simp
    rw [kept]
    exact List.infix_append _ _ _

/-! ## Ends -/

/-- A carriage return at the end is white space at the end. -/
theorem trimEnd_stripReturn (cs : List Char) : trimEnd (stripReturn cs) = trimEnd cs := by
  unfold stripReturn
  split
  next last =>
    obtain ⟨front, rfl⟩ := List.getLast?_eq_some_iff.mp last
    rw [List.dropLast_concat]
    exact (List.rdropWhile_concat_pos _ _ _ (by decide)).symm
  · rfl

theorem stripReturn_append_cons (other : c ≠ '\r') (front back : List Char) :
    stripReturn (front ++ c :: back) = front ++ c :: stripReturn back := by
  cases back with
  | nil => simp [stripReturn, other]
  | cons b back =>
      have last : (front ++ c :: b :: back).getLast? = (b :: back).getLast? := by
        rw [List.getLast?_append, List.getLast?_cons_cons]
        simp [List.getLast?_cons]
      unfold stripReturn
      rw [last]
      split
      · rw [List.dropLast_append_of_ne_nil (by simp), List.dropLast_cons_of_ne_nil (by simp)]
      · rfl

/-! ## Patterns -/

/-- The place of the first occurrence. -/
def find (part : List Char) : List Char → Option Nat
  | [] => if part = [] then some 0 else none
  | c :: cs => if part.isPrefixOf (c :: cs) then some 0 else (find part cs).map (· + 1)

/-- A pattern that begins with a character is not found before that character is. -/
theorem find_append {part : List Char} (front back : List Char) (absent : c ∉ front) :
    find (c :: part) (front ++ back) = (find (c :: part) back).map (· + front.length) := by
  induction front with
  | nil => simp
  | cons f front ih =>
      have other : (c == f) = false := by
        rw [beq_eq_false_iff_ne]
        exact fun h => absent (h ▸ .head _)
      rw [List.cons_append, find, List.isPrefixOf, other, Bool.false_and, if_neg (by decide),
        ih fun h => absent (.tail _ h), Option.map_map]
      congr 1

theorem find_self (part back : List Char) (nonempty : part ≠ []) :
    find part (part ++ back) = some 0 := by
  cases part with
  | nil => exact absurd rfl nonempty
  | cons c part =>
      rw [List.cons_append, find, if_pos]
      exact List.isPrefixOf_iff_prefix.mpr (List.prefix_append (c :: part) back)

/-- Drops a pattern at the start as often as it is there, at most so often. -/
def dropMatches (part : List Char) : Nat → List Char → List Char
  | 0, cs => cs
  | n + 1, cs =>
      if part ≠ [] ∧ part.isPrefixOf cs then dropMatches part n (cs.drop part.length) else cs

/-- Drops a pattern at the end as often as it is there. -/
def trimEndMatches (part cs : List Char) : List Char :=
  (dropMatches part.reverse cs.length cs.reverse).reverse

/-- A pattern without a character is a prefix of what stands before that character. -/
theorem isPrefixOf_append_cons {part : List Char} (absent : c ∉ part) (front back : List Char) :
    part.isPrefixOf (front ++ c :: back) = part.isPrefixOf front := by
  induction part generalizing front with
  | nil => rfl
  | cons p part ih =>
      cases front with
      | nil =>
          have other : (p == c) = false := by
            rw [beq_eq_false_iff_ne]
            exact fun h => absent (h ▸ .head _)
          simp [List.isPrefixOf, other]
      | cons f front =>
          rw [List.cons_append, List.isPrefixOf, List.isPrefixOf, ih fun h => absent (.tail _ h)]

/-- A pattern that ends at its first separator is a prefix of a text with the
same start up to the separator. -/
theorem isPrefixOf_separated {part : List Char} (absent : sep ∉ part) (absent' : sep ∉ front) :
    (part ++ [sep]).isPrefixOf (front ++ sep :: back) = decide (part = front) := by
  induction part generalizing front with
  | nil =>
      cases front with
      | nil => simp [List.isPrefixOf]
      | cons f front =>
          have other : (sep == f) = false := by
            rw [beq_eq_false_iff_ne]
            exact fun h => absent' (h ▸ .head _)
          simp [List.isPrefixOf, other]
  | cons p part ih =>
      cases front with
      | nil =>
          have other : (p == sep) = false := by
            rw [beq_eq_false_iff_ne]
            exact fun h => absent (h ▸ .head _)
          simp [List.isPrefixOf, other]
      | cons f front =>
          rw [List.cons_append, List.cons_append, List.isPrefixOf,
            ih (fun h => absent (.tail _ h)) (fun h => absent' (.tail _ h))]
          rw [Bool.eq_iff_iff]
          simp

theorem dropMatches_append_cons {part : List Char} (absent : c ∉ part) (n m : Nat)
    (front back : List Char) (enough : front.length ≤ n) (enough' : front.length ≤ m) :
    dropMatches part n (front ++ c :: back) = dropMatches part m front ++ c :: back := by
  induction n generalizing m front with
  | zero =>
      obtain rfl : front = [] := List.length_eq_zero_iff.mp (by omega)
      cases m with
      | zero => rfl
      | succ m =>
          cases part with
          | nil => simp [dropMatches]
          | cons p part => simp [dropMatches, List.isPrefixOf]
  | succ n ih =>
      rw [dropMatches, isPrefixOf_append_cons absent]
      cases m with
      | zero =>
          obtain rfl : front = [] := List.length_eq_zero_iff.mp (by omega)
          cases part with
          | nil => simp [dropMatches]
          | cons p part => simp [dropMatches, List.isPrefixOf]
      | succ m =>
          rw [dropMatches]
          split
          next isMatch =>
            have long : part.length ≤ front.length :=
              (List.isPrefixOf_iff_prefix.mp isMatch.2).length_le
            have positive : 0 < part.length := List.length_pos_iff.mpr isMatch.1
            rw [List.drop_append_of_le_length long]
            exact ih m _ (by simp only [List.length_drop]; omega) (by simp only [List.length_drop]; omega)
          · rfl

/-- A pattern without a character is dropped behind that character only. -/
theorem trimEndMatches_append_cons {part : List Char} (absent : c ∉ part) (front back : List Char) :
    trimEndMatches part (front ++ c :: back) = front ++ c :: trimEndMatches part back := by
  have absent' : c ∉ part.reverse := fun h => absent (List.mem_reverse.mp h)
  unfold trimEndMatches
  rw [List.reverse_append, List.reverse_cons, List.append_assoc, List.singleton_append,
    dropMatches_append_cons absent' _ back.length _ _ (by simp; omega) (by simp)]
  simp

/-- The text with each occurrence of a pattern replaced, behind some characters that are
still to be skipped. -/
def replaceFrom (part new : List Char) : Nat → List Char → List Char
  | _, [] => []
  | n + 1, _ :: cs => replaceFrom part new n cs
  | 0, c :: cs =>
      if part.isPrefixOf (c :: cs) then new ++ replaceFrom part new (part.length - 1) cs
      else c :: replaceFrom part new 0 cs

/-- `str::replace` of a pattern that is not empty. -/
def replace (part new s : String) : String :=
  String.ofList (replaceFrom part.toList new.toList 0 s.toList)

/-- What has no first character of the pattern stays at the front. -/
theorem replaceFrom_append {part : List Char} (new front back : List Char) (absent : c ∉ front) :
    replaceFrom (c :: part) new 0 (front ++ back) = front ++ replaceFrom (c :: part) new 0 back := by
  induction front with
  | nil => rfl
  | cons f front ih =>
      have other : (c == f) = false := by
        rw [beq_eq_false_iff_ne]
        exact fun h => absent (h ▸ .head _)
      rw [List.cons_append, replaceFrom, List.isPrefixOf, other, Bool.false_and,
        if_neg Bool.false_ne_true, ih fun h => absent (.tail _ h), List.cons_append]

theorem replace_append {part : String} {rest : List Char} (start : part.toList = c :: rest)
    (new front back : String) (absent : c ∉ front.toList) :
    replace part new (front ++ back) = front ++ replace part new back := by
  rw [replace, replace, start, String.toList_append, replaceFrom_append _ _ _ absent,
    String.ofList_append, String.ofList_toList]

/-- Characters still to be skipped are not seen. -/
theorem replaceFrom_skip (part new : List Char) (n : Nat) (cs : List Char) :
    replaceFrom part new n cs = replaceFrom part new 0 (cs.drop n) := by
  induction cs generalizing n with
  | nil => rw [List.drop_nil]; cases n <;> rfl
  | cons c cs ih =>
      cases n with
      | zero => rfl
      | succ n => rw [replaceFrom, List.drop_succ_cons, ih]

/-- At the pattern. -/
theorem replaceFrom_self (c : Char) (part new back : List Char) :
    replaceFrom (c :: part) new 0 ((c :: part) ++ back) = new ++ replaceFrom (c :: part) new 0 back := by
  have here : (c :: part).isPrefixOf (c :: (part ++ back)) = true :=
    List.isPrefixOf_iff_prefix.mpr (List.prefix_append (c :: part) back)
  rw [List.cons_append, replaceFrom, if_pos here, replaceFrom_skip, List.length_cons,
    Nat.add_sub_cancel, List.drop_left]

/-- A text without the pattern stays. -/
theorem replaceFrom_of_not_infix {cs : List Char} (absent : ¬part <:+: cs) (new : List Char) :
    replaceFrom part new 0 cs = cs := by
  induction cs with
  | nil => rfl
  | cons c cs ih =>
      have other : ¬part.isPrefixOf (c :: cs) = true := fun here =>
        absent (List.isPrefixOf_iff_prefix.mp here).isInfix
      rw [replaceFrom, if_neg other, ih fun later => absent (List.infix_cons later)]

/-- The cut is not before a text without the pattern that ends with a character that the pattern does
not have. -/
theorem splitOnceChars_append {part : List Char} (absent : ¬(c :: part) <:+: front)
    (separates : sep ∉ c :: part) (back : List Char) :
    splitOnceChars (c :: part) (front ++ sep :: back) =
      (splitOnceChars (c :: part) back).map fun parts => (front ++ sep :: parts.1, parts.2) := by
  induction front with
  | nil =>
      have start := isPrefixOf_append_cons separates [] back
      rw [List.nil_append] at start
      rw [List.nil_append, splitOnceChars, start]
      rfl
  | cons f front ih =>
      have start := isPrefixOf_append_cons separates (f :: front) back
      have other : (c :: part).isPrefixOf (f :: front) = false := by
        rw [Bool.eq_false_iff]
        exact fun here => absent (List.isPrefixOf_iff_prefix.mp here).isInfix
      rw [List.cons_append] at start
      rw [List.cons_append, splitOnceChars, start, other, if_neg Bool.false_ne_true,
        ih fun later => absent (List.infix_cons later), Option.map_map]
      rfl

theorem splitOnceChars_self (c : Char) (part back : List Char) :
    splitOnceChars (c :: part) ((c :: part) ++ back) = some ([], back) := by
  have here : (c :: part).isPrefixOf (c :: (part ++ back)) = true :=
    List.isPrefixOf_iff_prefix.mpr (List.prefix_append (c :: part) back)
  rw [List.cons_append, splitOnceChars, if_pos here, List.length_cons, List.drop_succ_cons,
    List.drop_left]

/-- The first place of a pattern is replaced. -/
theorem replaceFrom_first {part cs : List Char} (present : (c :: part) <:+: cs) (new : List Char) :
    ∃ front back, cs = front ++ (c :: part) ++ back ∧
      replaceFrom (c :: part) new 0 cs = front ++ new ++ replaceFrom (c :: part) new 0 back := by
  induction cs with
  | nil => exact absurd (List.infix_nil.mp present) (List.cons_ne_nil _ _)
  | cons d cs ih =>
      by_cases here : (c :: part).isPrefixOf (d :: cs) = true
      · obtain ⟨back, same⟩ := List.isPrefixOf_iff_prefix.mp here
        refine ⟨[], back, same.symm, ?_⟩
        rw [← same, replaceFrom_self, List.nil_append]
      · rcases List.infix_cons_iff.mp present with first | later
        · exact absurd (List.isPrefixOf_iff_prefix.mpr first) here
        · obtain ⟨front, back, same, replaced⟩ := ih later
          refine ⟨d :: front, back, by rw [same]; rfl, ?_⟩
          rw [replaceFrom, if_neg here, replaced]
          rfl

/-- A character that the pattern does not have separates. -/
theorem replaceFrom_append_cons {sep : Char} (absent : sep ∉ c :: part) (new front back : List Char) :
    replaceFrom (c :: part) new 0 (front ++ sep :: back) =
      replaceFrom (c :: part) new 0 front ++ sep :: replaceFrom (c :: part) new 0 back := by
  induction length : front.length using Nat.strong_induction_on generalizing front with
  | _ n ih =>
      have start := isPrefixOf_append_cons absent front back
      cases front with
      | nil =>
          have stops : ¬(c :: part).isPrefixOf (sep :: back) = true := by
            rw [List.nil_append] at start
            rw [start]
            exact Bool.false_ne_true
          exact if_neg stops
      | cons d front =>
          rw [List.cons_append] at start ⊢
          rw [replaceFrom, start, replaceFrom]
          by_cases here : (c :: part).isPrefixOf (d :: front) = true
          · have short := (List.isPrefixOf_iff_prefix.mp here).length_le
            simp only [List.length_cons, Nat.add_le_add_iff_right] at short
            rw [if_pos here, if_pos here, replaceFrom_skip, replaceFrom_skip _ _ _ front,
              List.length_cons, Nat.add_sub_cancel, List.drop_append_of_le_length short,
              ih _ _ _ rfl, List.append_assoc]
            rw [← length, List.length_drop, List.length_cons]
            omega
          · rw [if_neg here, if_neg here, ih _ _ front rfl, List.cons_append]
            rw [← length]
            exact Nat.lt_succ_self _

/-! ## Segments -/

/-- The text behind the last separator. -/
def lastSegment (isSep : Char → Bool) (cs : List Char) : Option (List Char) :=
  (cs.splitOnP isSep).getLast?

theorem lastSegment_append_cons {isSep : Char → Bool} (separates : isSep c = true)
    (front back : List Char) : lastSegment isSep (front ++ c :: back) = lastSegment isSep back := by
  rw [lastSegment, lastSegment, List.splitOnP_append_cons _ _ separates, List.getLast?_append]
  cases h : (List.splitOnP isSep back).getLast? with
  | none => exact absurd (List.getLast?_eq_none_iff.mp h) (List.splitOnP_ne_nil _ _)
  | some last => rfl

theorem lastSegment_of_forall {isSep : Char → Bool} (clean : ∀ c ∈ cs, isSep c = false) :
    lastSegment isSep cs = some cs := by
  rw [lastSegment, List.splitOnP_eq_singleton clean]
  rfl

/-- A text is its last segment, or one with a separator before it. -/
theorem eq_or_exists_separator (isSep : Char → Bool) (cs : List Char) :
    (∀ c ∈ cs, isSep c = false) ∨
      ∃ front sep last, cs = front ++ sep :: last ∧ isSep sep = true ∧ ∀ c ∈ last, isSep c = false := by
  induction cs with
  | nil => exact .inl fun _ h => absurd h List.not_mem_nil
  | cons c cs ih =>
      rcases ih with clean | ⟨front, sep, last, rfl, separates, clean⟩
      · cases isC : isSep c with
        | false => exact .inl (List.forall_mem_cons.mpr ⟨isC, clean⟩)
        | true => exact .inr ⟨[], c, cs, rfl, isC, clean⟩
      · exact .inr ⟨c :: front, sep, last, rfl, separates, clean⟩

end Text
