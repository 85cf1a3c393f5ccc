import AgentOtelBridge.Lib.Text

/-!
# Bytes read as UTF-8 whatever they are

A reader that never fails replaces what is malformed by U+FFFD, one for each longest beginning of
a character that does not go on as one.  What is well formed it reads as it is.
-/

namespace Text

/-- A byte that goes on with a character. -/
def isContinuation (byte : UInt8) : Bool := 0x80 ≤ byte ∧ byte ≤ 0xBF

/-- The second bytes of the characters of three bytes and of four. -/
def isSecond (first second : UInt8) : Bool :=
  if first = 0xE0 then 0xA0 ≤ second ∧ second ≤ 0xBF
  else if first = 0xED then 0x80 ≤ second ∧ second ≤ 0x9F
  else if first = 0xF0 then 0x90 ≤ second ∧ second ≤ 0xBF
  else if first = 0xF4 then 0x80 ≤ second ∧ second ≤ 0x8F
  else isContinuation second

/-- The length of what is malformed at the head of some bytes. -/
def malformedLen : List UInt8 → Nat
  | first :: second :: rest =>
      if 0xE0 ≤ first ∧ first ≤ 0xEF ∧ isSecond first second then 2
      else if 0xF0 ≤ first ∧ first ≤ 0xF4 ∧ isSecond first second then
        if rest.head?.any isContinuation then 3 else 2
      else 1
  | _ => 1

/-- The characters of some bytes, without the first ones of them. -/
def lossyChars : Nat → List UInt8 → List Char
  | _, [] => []
  | skip + 1, _ :: rest => lossyChars skip rest
  | 0, byte :: rest =>
      match (byte :: rest).toByteArray.utf8DecodeChar? 0 with
      | some c => c :: lossyChars (c.utf8Size - 1) rest
      | none => Char.ofNat 0xFFFD :: lossyChars (malformedLen (byte :: rest) - 1) rest

def fromUtf8Lossy (bytes : List UInt8) : String := String.ofList (lossyChars 0 bytes)

theorem lossyChars_length_append (front back : List UInt8) :
    lossyChars front.length (front ++ back) = lossyChars 0 back := by
  induction front with
  | nil => rfl
  | cons byte front ih => exact ih

theorem lossyChars_encoded (c : Char) (rest : List UInt8) :
    lossyChars 0 (String.utf8EncodeChar c ++ rest) = c :: lossyChars 0 rest := by
  have decoded : (String.utf8EncodeChar c ++ rest).toByteArray.utf8DecodeChar? 0 = some c := by
    rw [List.toByteArray_append, ByteArray.utf8DecodeChar?_utf8EncodeChar_append]
  have size := String.length_utf8EncodeChar c
  cases bytes : String.utf8EncodeChar c with
  | nil => exact absurd bytes String.utf8EncodeChar_ne_nil
  | cons byte bytes' =>
      rw [bytes] at decoded size
      rw [List.cons_append] at decoded ⊢
      rw [lossyChars, decoded]
      have others : c.utf8Size - 1 = bytes'.length := by rw [← size]; rfl
      simp only [others, lossyChars_length_append]

/-- The bytes of a text, one character after the other. -/
theorem asBytes_eq_flatMap (s : String) : asBytes s = s.toList.flatMap String.utf8EncodeChar := by
  rw [asBytes, ← String.utf8Encode_toList, List.utf8Encode, List.data_toByteArray]

/-- What is well formed is read as it is. -/
theorem fromUtf8Lossy_asBytes (s : String) : fromUtf8Lossy (asBytes s) = s := by
  have chars : ∀ cs : List Char, lossyChars 0 (cs.flatMap String.utf8EncodeChar) = cs := by
    intro cs
    induction cs with
    | nil => rfl
    | cons c cs ih => rw [List.flatMap_cons, lossyChars_encoded, ih]
  rw [fromUtf8Lossy, asBytes_eq_flatMap, chars, String.ofList_toList]

end Text
