import AgentOtelBridge.Lib.Json
import Mathlib.Data.Bool.AllAny

/-!
# Printed JSON

The printer of values without white space.  A string is between quotation marks.  In it a quotation
mark, a backslash and the control characters are escaped, and nothing else.

`StringBody body text` says that a text may be written as a body between quotation marks, with any
of the escapes of JSON.  An escaped text is such a body (`StringBody.escaped`), and what begins with
an escaped text and is read up to its quotation mark begins with the text (`StringBody.front`).
-/

namespace JsonPrint

/-! ## Escapes -/

/-- The characters that are printed as a backslash and a letter. -/
def shortEscapes : List (Char × Char) :=
  [('"', '"'), ('\\', '\\'), ('\x08', 'b'), ('\t', 't'), ('\n', 'n'), ('\x0c', 'f'), ('\r', 'r')]

def hexDigit (n : Nat) : Char := if n < 10 then Char.ofNat (48 + n) else Char.ofNat (87 + n)

def escapeChar (c : Char) : List Char :=
  match shortEscapes.lookup c with
  | some letter => ['\\', letter]
  | none =>
      if c.toNat < 32 then
        ['\\', 'u', '0', '0', hexDigit (c.toNat / 16), hexDigit (c.toNat % 16)]
      else [c]

def escape (text : List Char) : List Char := text.flatMap escapeChar

/-! ## The printer -/

def quote (text : List Char) : List Char := '"' :: (escape text ++ ['"'])

mutual

def print : Json → List Char
  | .null => ['n', 'u', 'l', 'l']
  | .bool true => ['t', 'r', 'u', 'e']
  | .bool false => ['f', 'a', 'l', 's', 'e']
  | .num text => text.toList
  | .str text => quote text.toList
  | .arr items => '[' :: (printItems items ++ [']'])
  | .obj fields => '\x7b' :: (printFields fields ++ ['\x7d'])

def printItems : List Json → List Char
  | [] => []
  | [item] => print item
  | item :: items => print item ++ ',' :: printItems items

def printFields : List (String × Json) → List Char
  | [] => []
  | [(key, value)] => quote key.toList ++ ':' :: print value
  | (key, value) :: fields => quote key.toList ++ ':' :: (print value ++ ',' :: printFields fields)

end

/-- `serde_json::to_string`. -/
def compact (value : Json) : String := String.ofList (print value)

/-! ## Reading a string -/

def hexValue (c : Char) : Option Nat :=
  if '0' ≤ c ∧ c ≤ '9' then some (c.toNat - 48)
  else if 'a' ≤ c ∧ c ≤ 'f' then some (c.toNat - 87)
  else if 'A' ≤ c ∧ c ≤ 'F' then some (c.toNat - 55)
  else none

/-- The number of four hexadecimal digits. -/
def hexNumber (a b c d : Char) : Option Nat := do
  some (((← hexValue a) * 16 + (← hexValue b)) * 256 + (← hexValue c) * 16 + (← hexValue d))

/-- What a text may be written as between quotation marks. -/
inductive StringBody : List Char → List Char → Prop
  | nil : StringBody [] []
  | plain {c : Char} {body text : List Char} (printing : 32 ≤ c.toNat)
      (unescaped : c ≠ '"' ∧ c ≠ '\\') (more : StringBody body text) :
      StringBody (c :: body) (c :: text)
  | short {c letter : Char} {body text : List Char}
      (listed : (c, letter) ∈ ('/', '/') :: shortEscapes) (more : StringBody body text) :
      StringBody ('\\' :: letter :: body) (c :: text)
  | unicode {c a b d e : Char} {body text : List Char} (number : hexNumber a b d e = some c.toNat)
      (more : StringBody body text) : StringBody ('\\' :: 'u' :: a :: b :: d :: e :: body) (c :: text)
  | surrogates {c a b d e a' b' d' e' : Char} {high low : Nat} {body text : List Char}
      (first : hexNumber a b d e = some (0xD800 + high)) (high_ : high < 1024)
      (second : hexNumber a' b' d' e' = some (0xDC00 + low)) (low_ : low < 1024)
      (scalar : c.toNat = 0x10000 + high * 1024 + low) (more : StringBody body text) :
      StringBody ('\\' :: 'u' :: a :: b :: d :: e :: '\\' :: 'u' :: a' :: b' :: d' :: e' :: body)
        (c :: text)

/-- A string literal that a text is read from. -/
def StringLiteral (literal text : List Char) : Prop :=
  ∃ body, literal = '"' :: (body ++ ['"']) ∧ StringBody body text

/-! ## The escape of a character -/

/-- A character is printed in one of three ways. -/
theorem escapeChar_cases (c : Char) :
    (∃ letter, (c, letter) ∈ shortEscapes ∧ escapeChar c = ['\\', letter]) ∨
      (c.toNat < 32 ∧ escapeChar c =
        ['\\', 'u', '0', '0', hexDigit (c.toNat / 16), hexDigit (c.toNat % 16)]) ∨
      (32 ≤ c.toNat ∧ (c ≠ '"' ∧ c ≠ '\\') ∧ escapeChar c = [c]) := by
  rw [escapeChar]
  cases found : shortEscapes.lookup c with
  | some letter =>
      left
      obtain ⟨front, back, listed, -⟩ := List.lookup_eq_some_iff.mp found
      exact ⟨letter, listed ▸ List.mem_append_right front (.head back), rfl⟩
  | none =>
      right
      by_cases control : c.toNat < 32
      · exact .inl ⟨control, if_pos control⟩
      · have absent : ∀ entry ∈ shortEscapes, (c == entry.1) = false := by
          simpa [List.lookup_eq_none_iff] using found
        have noQuotation := absent ('"', '"') (by decide)
        have noBackslash := absent ('\\', '\\') (by decide)
        exact .inr ⟨Nat.le_of_not_lt control, ⟨beq_eq_false_iff_ne.mp noQuotation,
          beq_eq_false_iff_ne.mp noBackslash⟩, if_neg control⟩

theorem hexNumber_control {n : Nat} (control : n < 32) :
    hexNumber '0' '0' (hexDigit (n / 16)) (hexDigit (n % 16)) = some n := by
  decide +revert

/-- A letter is that of one escape. -/
theorem escape_unique {c c' letter : Char} (listed : (c, letter) ∈ ('/', '/') :: shortEscapes)
    (listed' : (c', letter) ∈ shortEscapes) : c = c' := by
  have distinct : ∀ entry ∈ ('/', '/') :: shortEscapes, ∀ entry' ∈ shortEscapes,
      entry.2 = entry'.2 → entry.1 = entry'.1 := by decide
  exact distinct _ listed _ listed' rfl

theorem ne_u_of_escape {c letter : Char} (listed : (c, letter) ∈ ('/', '/') :: shortEscapes) :
    letter ≠ 'u' := by
  have others : ∀ entry ∈ ('/', '/') :: shortEscapes, entry.2 ≠ 'u' := by decide
  exact others _ listed

/-! ## Reading what is printed -/

theorem StringBody.escaped (text : List Char) : StringBody (escape text) text := by
  induction text with
  | nil => exact .nil
  | cons c text ih =>
      rw [escape, List.flatMap_cons]
      rcases escapeChar_cases c with ⟨letter, listed, same⟩ | ⟨control, same⟩ | ⟨printing, unescaped, same⟩
      · rw [same]
        exact .short (.tail _ listed) ih
      · rw [same]
        exact .unicode (hexNumber_control control) ih
      · rw [same]
        exact .plain printing unescaped ih

theorem StringLiteral.quoted (text : List Char) : StringLiteral (quote text) text :=
  ⟨_, rfl, .escaped text⟩

/-- A string that begins with the escape of a character is read as one that begins with the
character. -/
theorem StringBody.char {c : Char} {body text rest tail : List Char} (read : StringBody body text)
    (same : body ++ '"' :: rest = escapeChar c ++ tail) :
    ∃ body' text', StringBody body' text' ∧ body' ++ '"' :: rest = tail ∧ text = c :: text' := by
  rcases escapeChar_cases c with ⟨letter, listed, printed⟩ | ⟨control, printed⟩ |
    ⟨printing, unescaped, printed⟩ <;> rw [printed] at same
  · cases read with
    | nil => cases same
    | plain printing unescaped more =>
        injection same with head
        exact absurd head unescaped.2
    | short listed' more =>
        simp only [List.cons_append, List.cons.injEq, true_and, List.nil_append] at same
        obtain ⟨rfl, rfl⟩ := same
        obtain rfl := escape_unique listed' listed
        exact ⟨_, _, more, rfl, rfl⟩
    | unicode number more =>
        injection same with _ same
        injection same with head
        exact absurd head.symm (ne_u_of_escape (.tail _ listed))
    | surrogates first high second low scalar more =>
        injection same with _ same
        injection same with head
        exact absurd head.symm (ne_u_of_escape (.tail _ listed))
  · cases read with
    | nil => cases same
    | plain printing unescaped more =>
        injection same with head
        exact absurd head unescaped.2
    | short listed' more =>
        injection same with _ same
        injection same with head
        exact absurd head (ne_u_of_escape listed')
    | unicode number more =>
        simp only [List.cons_append, List.cons.injEq, true_and, List.nil_append] at same
        obtain ⟨rfl, rfl, rfl, rfl, rfl⟩ := same
        rw [hexNumber_control control, Option.some.injEq] at number
        obtain rfl := Char.toNat_inj.mp number
        exact ⟨_, _, more, rfl, rfl⟩
    | surrogates first high second low scalar more =>
        simp only [List.cons_append, List.cons.injEq, true_and, List.nil_append] at same
        obtain ⟨rfl, rfl, rfl, rfl, -⟩ := same
        rw [hexNumber_control control, Option.some.injEq] at first
        omega
  · cases read with
    | nil =>
        injection same with head
        exact absurd head.symm unescaped.1
    | plain printing unescaped' more =>
        injection same with head tail
        obtain rfl := head
        exact ⟨_, _, more, tail, rfl⟩
    | short listed' more | unicode number more | surrogates first high second low scalar more =>
        injection same with head
        exact absurd head.symm unescaped.2

/-- A string that begins with an escaped text is read as one that begins with the text. -/
theorem StringBody.front {front body text rest tail : List Char} (read : StringBody body text)
    (same : body ++ '"' :: rest = escape front ++ tail) :
    ∃ body' text', StringBody body' text' ∧ body' ++ '"' :: rest = tail ∧ text = front ++ text' := by
  induction front generalizing body text with
  | nil => exact ⟨body, text, read, same, rfl⟩
  | cons c front ih =>
      rw [escape, List.flatMap_cons, List.append_assoc] at same
      obtain ⟨body', text', read', same', rfl⟩ := read.char same
      obtain ⟨body'', text'', read'', same'', rfl⟩ := ih read' same'
      exact ⟨body'', text'', read'', same'', rfl⟩

/-- The quotation mark that ends a string is the first one that is not escaped. -/
theorem StringBody.ended {body text rest tail : List Char} (read : StringBody body text)
    (same : body ++ '"' :: rest = '"' :: tail) : text = [] ∧ rest = tail := by
  cases read with
  | nil =>
      injection same with _ same
      exact ⟨rfl, same⟩
  | plain printing unescaped more =>
      injection same with head
      exact absurd head unescaped.1
  | short listed more | unicode number more | surrogates first high second low scalar more =>
      injection same with head
      exact absurd head (by decide)

/-- A printed string is read as its text only, and up to its end. -/
theorem StringLiteral.of_quote {literal text front rest tail : List Char}
    (read : StringLiteral literal text) (same : literal ++ rest = quote front ++ tail) :
    text = front ∧ rest = tail := by
  obtain ⟨body, rfl, read⟩ := read
  simp only [quote, List.cons_append, List.append_assoc, List.cons.injEq, true_and] at same
  obtain ⟨body', text', read', same', rfl⟩ := read.front same
  obtain ⟨rfl, rest_⟩ := read'.ended same'
  exact ⟨List.append_nil front, rest_⟩

/-! ## Escaped texts -/

/-- The characters of the escapes. -/
def InEscape (d : Char) : Prop :=
  d = '\\' ∨ d = '"' ∨ (97 ≤ d.toNat ∧ d.toNat ≤ 122) ∨ (48 ≤ d.toNat ∧ d.toNat ≤ 57)

instance (d : Char) : Decidable (InEscape d) := inferInstanceAs (Decidable (_ ∨ _))

/-- Any other character stands for itself. -/
theorem escapeChar_of_mem {c d : Char} (present : d ∈ escapeChar c) (other : ¬InEscape d) :
    d = c ∧ escapeChar c = [c] := by
  rcases escapeChar_cases c with ⟨letter, listed, printed⟩ | ⟨control, printed⟩ |
    ⟨printing, unescaped, printed⟩
  · rw [printed] at present
    have letters : ∀ entry ∈ shortEscapes, (['\\', entry.2].all fun d => decide (InEscape d)) = true := by
      decide
    exact absurd (List.all_iff_forall_prop.mp (letters _ listed) d present) other
  · rw [printed] at present
    have digits : ∀ n < 32, (['\\', 'u', '0', '0', hexDigit (n / 16), hexDigit (n % 16)].all
        fun d => decide (InEscape d)) = true := by
      decide
    exact absurd (List.all_iff_forall_prop.mp (digits _ control) d present) other
  · rw [printed, List.mem_singleton] at present
    exact ⟨present, printed⟩

theorem escapeChar_ne_nil (c : Char) : escapeChar c ≠ [] := by
  rcases escapeChar_cases c with ⟨letter, listed, printed⟩ | ⟨control, printed⟩ |
    ⟨printing, unescaped, printed⟩ <;> rw [printed] <;> exact List.cons_ne_nil _ _

theorem escape_cons (c : Char) (text : List Char) : escape (c :: text) = escapeChar c ++ escape text :=
  List.flatMap_cons

theorem escape_append (front back : List Char) : escape (front ++ back) = escape front ++ escape back :=
  List.flatMap_append

theorem escape_eq_nil {text : List Char} (nothing : escape text = []) : text = [] := by
  cases text with
  | nil => rfl
  | cons c text =>
      rw [escape_cons] at nothing
      exact absurd (List.append_eq_nil_iff.mp nothing).1 (escapeChar_ne_nil c)

/-- A character that is in no escape has its own place in the text. -/
theorem escape_split {d : Char} (other : ¬InEscape d) {text front back : List Char}
    (same : escape text = front ++ d :: back) :
    ∃ front' back', text = front' ++ d :: back' ∧ escape front' = front ∧ escape back' = back := by
  induction text generalizing front with
  | nil => exact absurd same.symm (List.append_ne_nil_of_right_ne_nil _ (List.cons_ne_nil _ _))
  | cons c text ih =>
      rw [escape_cons] at same
      rcases List.append_eq_append_iff.mp same with ⟨middle, rfl, later⟩ | ⟨middle, here, later⟩
      · obtain ⟨front', back', rfl, rfl, rfl⟩ := ih later
        exact ⟨c :: front', back', rfl, escape_cons c front', rfl⟩
      · cases middle with
        | nil =>
            obtain ⟨front', back', rfl, nothing, rfl⟩ :=
              ih (show escape text = [] ++ d :: back from later.symm)
            rw [List.append_nil] at here
            obtain rfl := escape_eq_nil nothing
            exact ⟨[c], back', rfl, by rw [escape_cons, here]; exact List.append_nil _, rfl⟩
        | cons d' middle =>
            injection later with head later
            obtain rfl := head
            have present : d ∈ escapeChar c := here ▸ List.mem_append_right front (.head _)
            obtain ⟨rfl, single⟩ := escapeChar_of_mem present other
            rw [single, eq_comm, List.append_eq_singleton_iff] at here
            simp only [List.cons_ne_nil, and_false, or_false, List.cons.injEq, true_and] at here
            obtain ⟨rfl, rfl⟩ := here
            exact ⟨[], text, rfl, rfl, later.symm⟩

/-- A word of characters that are in no escape has its own place in the text. -/
theorem escape_prefix {part text back : List Char} (other : ∀ d ∈ part, ¬InEscape d)
    (same : escape text = part ++ back) : ∃ back', text = part ++ back' ∧ escape back' = back := by
  induction part generalizing text with
  | nil => exact ⟨text, rfl, same⟩
  | cons d part ih =>
      have split : escape text = [] ++ d :: (part ++ back) := same
      obtain ⟨front, text, rfl, nothing, more⟩ := escape_split (other d (.head _)) split
      obtain rfl := escape_eq_nil nothing
      obtain ⟨back', rfl, rest⟩ := ih (fun e later => other e (.tail _ later)) more
      exact ⟨back', rfl, rest⟩

/-- An escaped text has a word of such characters at the places where the text has it. -/
theorem escape_infix {d : Char} {part text front back : List Char}
    (other : ∀ e ∈ d :: part, ¬InEscape e) (same : escape text = front ++ (d :: part) ++ back) :
    ∃ front' back', text = front' ++ (d :: part) ++ back' ∧ escape front' = front := by
  rw [List.append_assoc, List.cons_append] at same
  obtain ⟨front', rest, rfl, rfl, later⟩ := escape_split (other d (.head _)) same
  obtain ⟨back', rfl, -⟩ := escape_prefix (fun e member => other e (.tail _ member)) later
  exact ⟨front', back', by rw [List.append_assoc, List.cons_append], rfl⟩

end JsonPrint
