import Mathlib.Algebra.GroupWithZero.Nat
import Mathlib.Data.List.Basic

/-!
# Text as a systems language reads it

White space is Unicode's `White_Space` property, and `trim` cuts it at both
ends.  `parseUnsigned` is the decimal parser of a fixed-width unsigned integer:
an optional plus sign, one digit or more, and a value below the width.
-/

namespace Text

/-- Unicode `White_Space`. -/
def isWhitespace (c : Char) : Bool :=
  let n := c.toNat
  (9 ≤ n && n ≤ 13) || n == 32 || n == 0x85 || n == 0xA0 || n == 0x1680 ||
    (0x2000 ≤ n && n ≤ 0x200A) || n == 0x2028 || n == 0x2029 || n == 0x202F ||
    n == 0x205F || n == 0x3000

/-- Drops white space at both ends. -/
def trimChars (cs : List Char) : List Char :=
  ((cs.dropWhile isWhitespace).reverse.dropWhile isWhitespace).reverse

def trim (s : String) : String := String.ofList (trimChars s.toList)

/-- The text before the first separator, or all of it. -/
def beforeFirst (sep : Char) (s : String) : String :=
  String.ofList (s.toList.takeWhile (· ≠ sep))

/-- The value of a decimal digit. -/
def digitValue (c : Char) : Option Nat :=
  if '0' ≤ c ∧ c ≤ '9' then some (c.toNat - '0'.toNat) else none

/-- The value of a string of decimal digits, most significant first. -/
def digitsValue : Nat → List Char → Option Nat
  | acc, [] => some acc
  | acc, c :: cs => (digitValue c).bind fun d => digitsValue (10 * acc + d) cs

/-- The decimal parser of an unsigned integer of `width` bits. -/
def parseUnsigned (width : Nat) (s : String) : Option Nat :=
  let digits := match s.toList with
    | '+' :: rest => rest
    | cs => cs
  if digits = [] then none
  else (digitsValue 0 digits).filter (· < 2 ^ width)

/-! ## Searching and cutting -/

/-- An ASCII capital made small. -/
def asciiLowerChar (c : Char) : Char :=
  if 'A' ≤ c ∧ c ≤ 'Z' then Char.ofNat (c.toNat + 32) else c

def asciiLower (s : String) : String := String.ofList (s.toList.map asciiLowerChar)

/-- Whether one text occurs in another. -/
def contains (s part : String) : Bool := s.toList.tails.any fun rest => part.toList.isPrefixOf rest

/-- The characters before and after the first separator. -/
def splitOnceChars (sep : List Char) : List Char → Option (List Char × List Char)
  | [] => if sep = [] then some ([], []) else none
  | c :: cs =>
      if sep.isPrefixOf (c :: cs) then some ([], (c :: cs).drop sep.length)
      else (splitOnceChars sep cs).map fun parts => (c :: parts.1, parts.2)

def splitOnce (sep s : String) : Option (String × String) :=
  (splitOnceChars sep.toList s.toList).map fun parts => (.ofList parts.1, .ofList parts.2)

def stripPrefix (start s : String) : Option String :=
  if start.toList.isPrefixOf s.toList then some (.ofList (s.toList.drop start.toList.length)) else none

def startsWith (s start : String) : Bool := start.toList.isPrefixOf s.toList

/-- The words between white space. -/
def splitWhitespace (s : String) : List String :=
  ((s.toList.splitOnP isWhitespace).filter fun word => word ≠ []).map String.ofList

/-- Drops the characters of a set at both ends. -/
def trimMatches (set : List Char) (s : String) : String :=
  String.ofList ((s.toList.dropWhile (· ∈ set)).reverse.dropWhile (· ∈ set)).reverse

/-! ## UTF-8 -/

/-- The bytes of a text. -/
def asBytes (s : String) : List UInt8 := s.toByteArray.data.toList

/-- The text of some bytes, if they are valid UTF-8. -/
def fromUtf8 (bytes : List UInt8) : Option String := String.fromUTF8? ⟨bytes.toArray⟩

@[simp] theorem length_asBytes (s : String) : (asBytes s).length = s.utf8ByteSize := by
  rw [asBytes, Array.length_toList, ByteArray.size_data, String.size_toByteArray]

theorem asBytes_append (s t : String) : asBytes (s ++ t) = asBytes s ++ asBytes t := by
  simp [asBytes]

@[simp] theorem fromUtf8_asBytes (s : String) : fromUtf8 (asBytes s) = some s := by
  have same : (⟨(asBytes s).toArray⟩ : ByteArray) = s.toByteArray := by simp [asBytes]
  rw [fromUtf8, same, String.fromUTF8?, dif_pos s.isValidUTF8]
  rfl

theorem asBytes_of_fromUtf8 {bytes : List UInt8} {s : String} (valid : fromUtf8 bytes = some s) :
    asBytes s = bytes := by
  unfold fromUtf8 String.fromUTF8? at valid
  split at valid
  · cases valid
    rfl
  · cases valid

/-- A byte below 128 is the code of a character by itself. -/
theorem toNat_of_mem_utf8EncodeChar {byte : UInt8} {c : Char}
    (member : byte ∈ String.utf8EncodeChar c) (ascii : byte.toNat < 128) :
    c.toNat = byte.toNat := by
  unfold String.utf8EncodeChar at member
  simp only at member
  split at member
  next single =>
    rw [List.mem_singleton.mp member, UInt8.toNat_ofNat', Nat.mod_eq_of_lt (by omega)]
    rfl
  next several =>
    have high : ∀ n, 128 ≤ n → n < 256 → byte ≠ UInt8.ofNat n := by
      rintro n large small rfl
      rw [UInt8.toNat_ofNat', Nat.mod_eq_of_lt small] at ascii
      omega
    split at member
    · simp only [List.mem_cons, List.not_mem_nil, or_false] at member
      rcases member with member | member <;> exact absurd member (high _ (by omega) (by omega))
    · split at member
      · simp only [List.mem_cons, List.not_mem_nil, or_false] at member
        rcases member with member | member | member <;>
          exact absurd member (high _ (by omega) (by omega))
      · simp only [List.mem_cons, List.not_mem_nil, or_false] at member
        rcases member with member | member | member | member <;>
          exact absurd member (high _ (by omega) (by omega))

theorem asBytes_eq_nil {s : String} : asBytes s = [] ↔ s = "" := by
  rw [← List.length_eq_zero_iff, length_asBytes, String.utf8ByteSize_eq_zero_iff]

end Text
