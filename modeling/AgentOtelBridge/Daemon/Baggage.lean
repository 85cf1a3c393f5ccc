import AgentOtelBridge.Lib.TextScan
import AgentOtelBridge.Lib.Utf8Lossy

/-!
# Baggage lists

Headers and resource attributes come as a list `key=value,key=value` whose values are
percent-encoded.  The list is split, and then each value is trimmed and decoded, byte by byte.

`Items` says which lists of items are ones of some pairs: what a value must escape is `%`, `,`
and white space at its ends, and it may escape any other character.  `splitBaggage` reads the
pairs back from each of them.
-/

namespace AgentOtelBridge

open Text (Blank Trimmed asBytes fromUtf8Lossy isWhitespace splitOnceChars trimChars)

/-! ## The reader -/

def hexValue (byte : UInt8) : Option UInt8 :=
  if 48 ≤ byte ∧ byte ≤ 57 then some (byte - 48)
  else if 97 ≤ byte ∧ byte ≤ 102 then some (byte - 97 + 10)
  else if 65 ≤ byte ∧ byte ≤ 70 then some (byte - 65 + 10)
  else none

def hexByte (hex : List UInt8) : Option UInt8 := do
  let high ← hexValue (← hex[0]?)
  let low ← hexValue (← hex[1]?)
  some (high <<< 4 ||| low)

/-- The bytes from an index on, without the first ones of them. -/
def percentDecodeFrom : Nat → List UInt8 → List UInt8
  | _, [] => []
  | skip + 1, _ :: rest => percentDecodeFrom skip rest
  | 0, byte :: rest =>
      if byte = 37 ∧ 2 ≤ rest.length then
        match hexByte (rest.take 2) with
        | some decoded => decoded :: percentDecodeFrom 2 rest
        | none => byte :: percentDecodeFrom 0 rest
      else byte :: percentDecodeFrom 0 rest

def percentDecode (input : String) : String :=
  fromUtf8Lossy (percentDecodeFrom 0 (asBytes input))

/-- The pair of a part, if it is one. -/
def baggagePair (part : List Char) : Option (String × String) :=
  let part := trimChars part
  if part = [] then none
  else do
    let (key, value) ← splitOnceChars ['='] part
    let key := trimChars key
    if key = [] then none
    else some (.ofList key, percentDecode (.ofList (trimChars value)))

def splitBaggage (raw : String) : List (String × String) :=
  (raw.toList.splitOn ',').filterMap baggagePair

/-! ## The lists -/

/-- A hexadecimal digit of a number below 16, of either case. -/
def HexDigit (n : Nat) (c : Char) : Prop :=
  "0123456789abcdef".toList[n]? = some c ∨ "0123456789ABCDEF".toList[n]? = some c

instance (n : Nat) (c : Char) : Decidable (HexDigit n c) := inferInstanceAs (Decidable (_ ∨ _))

/-- The escapes of some bytes. -/
inductive Escapes : List UInt8 → List Char → Prop where
  | nil : Escapes [] []
  | cons {byte : UInt8} {bytes : List UInt8} {high low : Char} {text : List Char}
      (highDigit : HexDigit (byte.toNat / 16) high) (lowDigit : HexDigit (byte.toNat % 16) low)
      (rest : Escapes bytes text) : Escapes (byte :: bytes) ('%' :: high :: low :: text)

/-- The texts of a value: a character stands for itself, or all its bytes are escaped. -/
inductive Encodes : List Char → List Char → Prop where
  | nil : Encodes [] []
  | plain {c : Char} {value text : List Char} (notPercent : c ≠ '%') (notComma : c ≠ ',')
      (rest : Encodes value text) : Encodes (c :: value) (c :: text)
  | escaped {c : Char} {value front text : List Char}
      (escapes : Escapes (String.utf8EncodeChar c) front) (rest : Encodes value text) :
      Encodes (c :: value) (front ++ text)

structure BaggageKey (key : String) : Prop where
  nonempty : key ≠ ""
  comma : ',' ∉ key.toList
  equals : '=' ∉ key.toList
  trimmed : Trimmed key.toList

/-- The items of some pairs, with blanks around what they have and blank items between them.
White space at an end of a value is escaped just if its text has none at its ends. -/
inductive Items : List (List Char) → List (String × String) → Prop where
  | nil : Items [] []
  | blank {item : List Char} {items : List (List Char)} {pairs : List (String × String)}
      (empty : Blank item) (rest : Items items pairs) : Items (item :: items) pairs
  | pair {key value : String} {front before after back text : List Char}
      {items : List (List Char)} {pairs : List (String × String)}
      (isKey : BaggageKey key) (encodes : Encodes value.toList text) (trimmed : Trimmed text)
      (blanks : Blank front ∧ Blank before ∧ Blank after ∧ Blank back)
      (rest : Items items pairs) :
      Items ((front ++ key.toList ++ before ++ '=' :: (after ++ text ++ back)) :: items)
        ((key, value) :: pairs)

/-- No `%` is followed by two hexadecimal digits. -/
def NoEscape (cs : List Char) : Prop :=
  ∀ front high low back n m, cs = front ++ '%' :: high :: low :: back →
    ¬ (HexDigit n high ∧ HexDigit m low)

/-! ## Bytes -/

/-- The bytes of some characters. -/
def utf8 (cs : List Char) : List UInt8 := cs.flatMap String.utf8EncodeChar

theorem percentDecodeFrom_skip (front back : List UInt8) :
    percentDecodeFrom front.length (front ++ back) = percentDecodeFrom 0 back := by
  induction front with
  | nil => rfl
  | cons byte front ih => exact ih

theorem percentDecodeFrom_plain {front : List UInt8} (plain : 37 ∉ front) (back : List UInt8) :
    percentDecodeFrom 0 (front ++ back) = front ++ percentDecodeFrom 0 back := by
  induction front with
  | nil => rfl
  | cons byte front ih =>
      have other : ¬ (byte = 37 ∧ 2 ≤ (front ++ back).length) := fun h => plain (h.1 ▸ .head _)
      rw [List.cons_append, percentDecodeFrom, if_neg other, ih fun h => plain (.tail _ h)]
      rfl

theorem percentDecodeFrom_escape {high low byte : UInt8} (decodes : hexByte [high, low] = some byte)
    (back : List UInt8) :
    percentDecodeFrom 0 (37 :: high :: low :: back) = byte :: percentDecodeFrom 0 back := by
  rw [percentDecodeFrom, if_pos ⟨rfl, by simp⟩]
  simp only [List.take_succ_cons, List.take_zero, decodes]
  rfl

/-- The only character with the byte of `%` is `%`. -/
theorem percent_not_mem_utf8EncodeChar {c : Char} (other : c ≠ '%') :
    37 ∉ String.utf8EncodeChar c := by
  intro member
  have same := Text.toNat_of_mem_utf8EncodeChar member (by decide)
  exact other (Char.toNat_inj.mp same)

/-- A digit is one byte, which has its value. -/
theorem hexDigit_spec {n : Nat} (small : n < 16) {c : Char} (digit : HexDigit n c) :
    ∃ byte, String.utf8EncodeChar c = [byte] ∧ hexValue byte = some (UInt8.ofNat n) := by
  have each : ∀ n < 16, ∀ digits ∈ ["0123456789abcdef", "0123456789ABCDEF"],
      (digits.toList[n]?).all fun c =>
        (String.utf8EncodeChar c).map hexValue == [some (UInt8.ofNat n)] := by
    decide +kernel
  have values : (String.utf8EncodeChar c).map hexValue = [some (UInt8.ofNat n)] := by
    rcases digit with small_ | capital
    · have spelled := each n small _ (.head _)
      rw [small_] at spelled
      exact eq_of_beq spelled
    · have spelled := each n small _ (.tail _ (.head _))
      rw [capital] at spelled
      exact eq_of_beq spelled
  exact List.map_eq_singleton_iff.mp values

theorem utf8_append (cs ds : List Char) : utf8 (cs ++ ds) = utf8 cs ++ utf8 ds :=
  List.flatMap_append

theorem utf8_cons (c : Char) (cs : List Char) : utf8 (c :: cs) = String.utf8EncodeChar c ++ utf8 cs :=
  List.flatMap_cons

/-- The escape of a byte is read as the byte. -/
theorem percentDecodeFrom_digits {byte : UInt8} {high low : Char}
    (highDigit : HexDigit (byte.toNat / 16) high) (lowDigit : HexDigit (byte.toNat % 16) low)
    (back : List UInt8) :
    percentDecodeFrom 0 (utf8 ['%', high, low] ++ back) = byte :: percentDecodeFrom 0 back := by
  have small := byte.toNat_lt
  obtain ⟨highByte, highEncoded, highValue⟩ := hexDigit_spec (by omega) highDigit
  obtain ⟨lowByte, lowEncoded, lowValue⟩ := hexDigit_spec (by omega) lowDigit
  have decodes : hexByte [highByte, lowByte] = some byte := by
    have nibbles : ∀ n < 256,
        UInt8.ofNat (n / 16) <<< 4 ||| UInt8.ofNat (n % 16) = UInt8.ofNat n := by decide +kernel
    have whole := nibbles byte.toNat small
    rw [UInt8.ofNat_toNat] at whole
    simp [hexByte, highValue, lowValue, whole]
  have bytes : utf8 ['%', high, low] = [37, highByte, lowByte] := by
    rw [utf8_cons, utf8_cons, utf8_cons, highEncoded, lowEncoded]
    rfl
  rw [bytes]
  exact percentDecodeFrom_escape decodes back

theorem percentDecodeFrom_escapes {bytes : List UInt8} {text : List Char}
    (escapes : Escapes bytes text) (back : List UInt8) :
    percentDecodeFrom 0 (utf8 text ++ back) = bytes ++ percentDecodeFrom 0 back := by
  induction escapes with
  | nil => rfl
  | @cons _ _ high low text highDigit lowDigit _ ih =>
      have split : utf8 ('%' :: high :: low :: text) = utf8 ['%', high, low] ++ utf8 text :=
        utf8_append ['%', high, low] text
      rw [split, List.append_assoc, percentDecodeFrom_digits highDigit lowDigit, ih]
      rfl

theorem percentDecodeFrom_encodes {value text : List Char} (encodes : Encodes value text) :
    percentDecodeFrom 0 (utf8 text) = utf8 value := by
  induction encodes with
  | nil => rfl
  | plain notPercent _ _ ih =>
      rw [utf8_cons, utf8_cons, percentDecodeFrom_plain (percent_not_mem_utf8EncodeChar notPercent),
        ih]
  | escaped escapes _ ih =>
      rw [utf8_append, utf8_cons, percentDecodeFrom_escapes escapes, ih]

theorem asBytes_ofList (cs : List Char) : asBytes (.ofList cs) = utf8 cs := by
  rw [Text.asBytes_eq_flatMap, String.toList_ofList, utf8]

theorem percentDecode_encodes {value : String} {text : List Char}
    (encodes : Encodes value.toList text) : percentDecode (.ofList text) = value := by
  rw [percentDecode, asBytes_ofList, percentDecodeFrom_encodes encodes, utf8,
    ← Text.asBytes_eq_flatMap, Text.fromUtf8Lossy_asBytes]

/-! ## Texts without escapes -/

/-- A byte with a value is a digit's. -/
theorem hexDigit_of_hexValue {c : Char} {byte value : UInt8}
    (valued : hexValue byte = some value) (encoded : c.toNat = byte.toNat) :
    HexDigit value.toNat c := by
  have each : ∀ n < 256, ∀ value ∈ hexValue (UInt8.ofNat n),
      HexDigit value.toNat (Char.ofNat n) := by decide +kernel
  have digit := each byte.toNat byte.toNat_lt value (by rw [UInt8.ofNat_toNat]; exact valued)
  rwa [← encoded, Char.ofNat_toNat] at digit

theorem hexValue_ascii {byte value : UInt8} (valued : hexValue byte = some value) :
    byte.toNat < 128 := by
  have each : ∀ n < 256, ∀ value ∈ hexValue (UInt8.ofNat n), n < 128 := by decide +kernel
  exact each byte.toNat byte.toNat_lt value (by rw [UInt8.ofNat_toNat]; exact valued)

/-- An ASCII byte at the head is a character by itself. -/
theorem utf8_eq_cons {cs : List Char} {byte : UInt8} {rest : List UInt8}
    (bytes : utf8 cs = byte :: rest) (ascii : byte.toNat < 128) :
    ∃ c cs', cs = c :: cs' ∧ c.toNat = byte.toNat ∧ utf8 cs' = rest := by
  cases cs with
  | nil => cases bytes
  | cons c cs =>
      rw [utf8_cons] at bytes
      have size := String.length_utf8EncodeChar c
      cases encoded : String.utf8EncodeChar c with
      | nil => exact absurd encoded String.utf8EncodeChar_ne_nil
      | cons first others =>
          rw [encoded] at bytes size
          obtain ⟨rfl, tail⟩ := List.cons.inj bytes
          have code : c.toNat = first.toNat :=
            Text.toNat_of_mem_utf8EncodeChar (encoded ▸ .head _) ascii
          have one : c.utf8Size = 1 := Char.utf8Size_eq_one_iff.mpr (by
            rw [UInt32.le_iff_toNat_le]
            change c.toNat ≤ 127
            omega)
          have alone : others = [] := by
            rw [one, List.length_cons] at size
            exact List.length_eq_zero_iff.mp (by omega)
          exact ⟨c, cs, rfl, code, by rw [← tail, alone]; rfl⟩

theorem digits_of_hexByte {hex : List UInt8} {decoded : UInt8} (decodes : hexByte hex = some decoded) :
    ∃ high low rest value value', hex = high :: low :: rest ∧ hexValue high = some value ∧
      hexValue low = some value' := by
  rcases hex with _ | ⟨high, _ | ⟨low, rest⟩⟩
  · cases decodes
  · simp [hexByte] at decodes
  · simp only [hexByte, List.getElem?_cons_zero, List.getElem?_cons_succ, Option.bind_eq_bind,
      Option.bind_some] at decodes
    obtain ⟨value, highValue, decodes⟩ := Option.bind_eq_some_iff.mp decodes
    obtain ⟨value', lowValue, _⟩ := Option.bind_eq_some_iff.mp decodes
    exact ⟨high, low, rest, value, value', rfl, highValue, lowValue⟩

/-- Only a percent sign before two digits is read as anything else. -/
theorem percentDecodeFrom_of_noEscape {cs : List Char} (noEscape : NoEscape cs) :
    percentDecodeFrom 0 (utf8 cs) = utf8 cs := by
  induction cs with
  | nil => rfl
  | cons c cs ih =>
      have restKept := ih fun front high low back n m split =>
        noEscape (c :: front) high low back n m (by rw [split]; rfl)
      rw [utf8_cons]
      by_cases percent : c = '%'
      · subst percent
        change percentDecodeFrom 0 (37 :: utf8 cs) = 37 :: utf8 cs
        rw [percentDecodeFrom, restKept]
        split
        next long =>
          split
          next decoded hex =>
            obtain ⟨high, low, back, value, value', taken, highValue, lowValue⟩ :=
              digits_of_hexByte hex
            have bytes : utf8 cs = high :: low :: (back ++ (utf8 cs).drop 2) :=
              (List.take_append_drop 2 (utf8 cs)).symm.trans (congrArg (· ++ _) taken)
            obtain ⟨d, ds, rfl, highCode, bytes⟩ := utf8_eq_cons bytes (hexValue_ascii highValue)
            obtain ⟨e, es, rfl, lowCode, _⟩ := utf8_eq_cons bytes (hexValue_ascii lowValue)
            exact absurd ⟨hexDigit_of_hexValue highValue highCode,
              hexDigit_of_hexValue lowValue lowCode⟩ (noEscape [] d e es _ _ rfl)
          next => rfl
        next => rfl
      · rw [percentDecodeFrom_plain (percent_not_mem_utf8EncodeChar percent), restKept]

/-- A percent sign that no two digits follow is left as it is. -/
theorem percentDecode_of_noEscape {input : String} (noEscape : NoEscape input.toList) :
    percentDecode input = input := by
  rw [percentDecode, Text.asBytes_eq_flatMap]
  change fromUtf8Lossy (percentDecodeFrom 0 (utf8 input.toList)) = input
  rw [percentDecodeFrom_of_noEscape noEscape, utf8, ← Text.asBytes_eq_flatMap,
    Text.fromUtf8Lossy_asBytes]

/-! ## Lists -/

theorem escapes_ne_comma {bytes : List UInt8} {text : List Char} (escapes : Escapes bytes text) :
    ',' ∉ text := by
  have noDigit : ∀ n, ¬ HexDigit n ',' := by
    intro n digit
    rcases digit with digit | digit
    · exact absurd (List.mem_of_getElem? digit) (by decide +kernel)
    · exact absurd (List.mem_of_getElem? digit) (by decide +kernel)
  induction escapes with
  | nil => exact List.not_mem_nil
  | cons highDigit lowDigit _ ih =>
      intro member
      rcases List.mem_cons.mp member with percent | member
      · exact absurd percent (by decide)
      · rcases List.mem_cons.mp member with rfl | member
        · exact noDigit _ highDigit
        · rcases List.mem_cons.mp member with rfl | member
          · exact noDigit _ lowDigit
          · exact ih member

theorem encodes_ne_comma {value text : List Char} (encodes : Encodes value text) : ',' ∉ text := by
  induction encodes with
  | nil => exact List.not_mem_nil
  | plain _ notComma _ ih =>
      intro member
      rcases List.mem_cons.mp member with rfl | member
      · exact notComma rfl
      · exact ih member
  | escaped escapes _ ih =>
      intro member
      rcases List.mem_append.mp member with member | member
      · exact escapes_ne_comma escapes member
      · exact ih member

theorem comma_not_mem_of_blank {cs : List Char} (blank : Blank cs) : ',' ∉ cs :=
  fun member => absurd (blank ',' member) (by decide)

theorem baggagePair_of_blank {item : List Char} (blank : Blank item) : baggagePair item = none := by
  have empty : trimChars item = [] := by
    rw [Text.trimChars_eq, List.dropWhile_eq_nil_iff.mpr blank]
    rfl
  rw [baggagePair, empty]
  rfl

/-- The pair of an item, with blanks around its key and its value. -/
theorem baggagePair_item {key value : String} {front before after back text : List Char}
    (isKey : BaggageKey key) (encodes : Encodes value.toList text) (trimmed : Trimmed text)
    (blanks : Blank front ∧ Blank before ∧ Blank after ∧ Blank back) :
    baggagePair (front ++ key.toList ++ before ++ '=' :: (after ++ text ++ back)) =
      some (key, value) := by
  obtain ⟨front_, before_, after_, back_⟩ := blanks
  have equals : '=' ∉ key.toList ++ before := by
    intro member
    rcases List.mem_append.mp member with member | member
    · exact isKey.equals member
    · exact absurd (before_ '=' member) (by decide)
  have keyNonempty : key.toList ≠ [] := fun h => isKey.nonempty (String.toList_eq_nil_iff.mp h)
  -- The blanks behind the value go with those of the part, and the others with the value.
  have part : trimChars (front ++ key.toList ++ before ++ '=' :: (after ++ text ++ back)) =
      (key.toList ++ before) ++ '=' :: Text.trimEnd (after ++ text ++ back) := by
    rw [Text.trimChars_append_cons (by decide),
      Text.dropWhile_blank_append isKey.trimmed keyNonempty front_]
  have valueTrimmed := Text.trimChars_trimEnd_between trimmed after_ back_
  have keyTrimmed : trimChars ([] ++ key.toList ++ before) = key.toList :=
    Text.trimChars_between isKey.trimmed (fun _ h => absurd h List.not_mem_nil) before_
  rw [List.nil_append] at keyTrimmed
  rw [baggagePair, part]
  simp only [List.append_eq_nil_iff, reduceCtorEq, and_false, if_false,
    Text.splitOnceChars_append_cons equals, Option.bind_eq_bind, Option.bind_some, keyTrimmed,
    valueTrimmed, keyNonempty, String.ofList_toList, percentDecode_encodes encodes]

theorem items_ne_comma {items : List (List Char)} {pairs : List (String × String)}
    (listed : Items items pairs) : ∀ item ∈ items, ',' ∉ item := by
  induction listed with
  | nil => exact fun _ member => absurd member List.not_mem_nil
  | blank empty _ ih =>
      intro item member
      rcases List.mem_cons.mp member with rfl | member
      · exact comma_not_mem_of_blank empty
      · exact ih item member
  | pair isKey encodes _ blanks _ ih =>
      intro item member
      rcases List.mem_cons.mp member with rfl | member
      · simp [isKey.comma, encodes_ne_comma encodes, comma_not_mem_of_blank blanks.1,
          comma_not_mem_of_blank blanks.2.1, comma_not_mem_of_blank blanks.2.2.1,
          comma_not_mem_of_blank blanks.2.2.2]
      · exact ih item member

theorem splitBaggage_items {items : List (List Char)} {pairs : List (String × String)}
    (listed : Items items pairs) :
    splitBaggage (.ofList ([','].intercalate items)) = pairs := by
  have clean : ∀ item ∈ items, ',' ∉ item := items_ne_comma listed
  have read : items.filterMap baggagePair = pairs := by
    induction listed with
    | nil => rfl
    | blank empty _ ih =>
        rw [List.filterMap_cons_none (baggagePair_of_blank empty)]
        exact ih fun item member => clean item (.tail _ member)
    | pair isKey encodes trimmed blanks _ ih =>
        rw [List.filterMap_cons_some (baggagePair_item isKey encodes trimmed blanks),
          ih fun item member => clean item (.tail _ member)]
  rw [splitBaggage, String.toList_ofList]
  cases items with
  | nil => exact read
  | cons item items =>
      rw [List.splitOn_intercalate ',' clean (List.cons_ne_nil item items)]
      exact read

/-- A list is read back however its values are encoded, and nothing but an escape is decoded. -/
theorem baggage_roundTrip :
    (∀ (items : List (List Char)) (pairs : List (String × String)), Items items pairs →
      splitBaggage (.ofList ([','].intercalate items)) = pairs) ∧
    ∀ input : String, NoEscape input.toList → percentDecode input = input :=
  ⟨fun _ _ listed => splitBaggage_items listed, fun _ => percentDecode_of_noEscape⟩

/-- Blanks around the pairs, a blank item between them, and an escaped comma. -/
def sampleItems : List (List Char) :=
  [" k = %2cA ".toList, "  ".toList, "x=".toList]

theorem items_sample : Items sampleItems [("k", ",A"), ("x", "")] := by
  have escaped : Encodes ",A".toList "%2cA".toList :=
    @Encodes.escaped ',' ['A'] ['%', '2', 'c'] ['A']
      (@Escapes.cons 44 [] '2' 'c' [] (.inl rfl) (.inl rfl) .nil)
      (.plain (by decide) (by decide) .nil)
  have first : BaggageKey "k" := ⟨by decide, by decide, by decide, .of_ends (by decide) (by decide)⟩
  have second : BaggageKey "x" := ⟨by decide, by decide, by decide, .of_ends (by decide) (by decide)⟩
  have blanks : Blank [' '] ∧ Blank [' '] ∧ Blank [' '] ∧ Blank [' '] := by decide
  have noBlanks : Blank [] ∧ Blank [] ∧ Blank [] ∧ Blank [] := by decide
  have last : Items ["x=".toList] [("x", "")] :=
    @Items.pair "x" "" [] [] [] [] [] [] [] second .nil (.of_ends (by decide) (by decide)) noBlanks .nil
  exact .pair first escaped (.of_ends (by decide) (by decide)) blanks (.blank (by decide) last)

theorem baggage_roundTrip_sample :
    splitBaggage (.ofList ([','].intercalate sampleItems)) = [("k", ",A"), ("x", "")] ∧
      percentDecode "100%" = "100%" := by
  refine ⟨baggage_roundTrip.1 sampleItems _ items_sample, baggage_roundTrip.2 "100%" ?_⟩
  intro front high low back n m split
  have length := congrArg List.length split
  rw [List.length_append] at length
  rcases front with _ | ⟨first, _ | ⟨second, front⟩⟩
  · cases split
  · cases split
  · simp at length
    omega

end AgentOtelBridge
