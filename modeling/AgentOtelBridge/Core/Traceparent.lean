import AgentOtelBridge.Core.TraceId

/-!
# The traceparent header

A header is a version, a trace id, a parent span id and flags in lower-case hex, with dashes
between them.  Version 00 ends there; later ones may have a dash and some ASCII bytes more.

The parser reads it at fixed offsets.  `Header` is the grammar, which it accepts exactly, and
which the formatter writes.
-/

namespace AgentOtelBridge

open Text

/-! ## Lower-case hex -/

/-- The digit of a number below 16. -/
def hexDigit (n : UInt8) : UInt8 := if n < 10 then n + 48 else n + 87

/-- The two digits of a byte. -/
def hexPair (byte : UInt8) : List UInt8 := [hexDigit (byte / 16), hexDigit (byte % 16)]

def hexText (id : List UInt8) : List UInt8 := id.flatMap hexPair

section

variable {byte value high low : UInt8} {id bytes : List UInt8} {n : Nat}

@[simp] theorem length_hexText (id : List UInt8) : (hexText id).length = id.length * 2 := by
  induction id with
  | nil => rfl
  | cons byte id ih =>
      rw [hexText, List.flatMap_cons, List.length_append, ← hexText, ih, List.length_cons]
      simp only [hexPair, List.length_cons, List.length_nil]
      omega

theorem hexText_cons (byte : UInt8) (id : List UInt8) :
    hexText (byte :: id) = hexDigit (byte / 16) :: hexDigit (byte % 16) :: hexText id := rfl

theorem hexNibble_hexDigit (small : value < 16) : hexNibble (hexDigit value) = some value := by
  have all : ∀ n < 16, hexNibble (hexDigit (.ofNat n)) = some (.ofNat n) := by decide
  simpa using all value.toNat (UInt8.lt_iff_toNat_lt.mp small)

theorem of_hexNibble (read : hexNibble byte = some value) : value < 16 ∧ byte = hexDigit value := by
  have all : ∀ n < 256, ∀ value ∈ hexNibble (.ofNat n), value < 16 ∧ .ofNat n = hexDigit value := by
    decide +kernel
  simpa using all byte.toNat byte.toNat_lt value (by simpa using read)

/-- The byte of two nibbles. -/
theorem byte_eq (small : low < 16) (small' : high < 16) :
    high <<< 4 ||| low = byte ↔ high = byte / 16 ∧ low = byte % 16 := by
  have all : ∀ h < 16, ∀ l < 16, ((.ofNat h : UInt8) <<< 4 ||| .ofNat l).toNat = 16 * h + l := by
    decide +kernel
  have joined : (high <<< 4 ||| low).toNat = 16 * high.toNat + low.toNat := by
    simpa using all high.toNat (UInt8.lt_iff_toNat_lt.mp small') low.toNat
      (UInt8.lt_iff_toNat_lt.mp small)
  simp only [UInt8.lt_iff_toNat_lt, UInt8.reduceToNat] at small small'
  simp only [← UInt8.toNat_inj, joined, UInt8.toNat_div, UInt8.toNat_mod, UInt8.reduceToNat]
  omega

theorem nibbles_lt (byte : UInt8) : byte / 16 < 16 ∧ byte % 16 < 16 := by
  have bound := byte.toNat_lt
  simp only [UInt8.lt_iff_toNat_lt, UInt8.toNat_div, UInt8.toNat_mod, UInt8.reduceToNat]
  omega

theorem parsePairs_hexText (id : List UInt8) : parsePairs (hexText id) = some id := by
  induction id with
  | nil => rfl
  | cons byte id ih =>
      obtain ⟨high, low⟩ := nibbles_lt byte
      rw [hexText_cons, parsePairs, hexNibble_hexDigit high, hexNibble_hexDigit low, ih]
      exact congrArg (fun byte => some (byte :: id)) ((byte_eq low high).mpr ⟨rfl, rfl⟩)

theorem of_parsePairs (even : bytes.length % 2 = 0) (read : parsePairs bytes = some id) :
    bytes = hexText id := by
  induction bytes using parsePairs.induct generalizing id with
  | case1 high low rest ih =>
      rw [parsePairs] at read
      obtain ⟨h, readHigh, read⟩ := Option.bind_eq_some_iff.mp read
      obtain ⟨l, readLow, read⟩ := Option.bind_eq_some_iff.mp read
      obtain ⟨parsed, readRest, rfl⟩ := Option.map_eq_some_iff.mp read
      obtain ⟨smallHigh, rfl⟩ := of_hexNibble readHigh
      obtain ⟨smallLow, rfl⟩ := of_hexNibble readLow
      obtain ⟨high, low⟩ := (byte_eq smallLow smallHigh).mp rfl
      rw [List.length_cons, List.length_cons] at even
      rw [hexText_cons, ← high, ← low, ← ih (by omega) readRest]
  | case2 bytes short =>
      match bytes with
      | [] =>
          cases read
          rfl
      | [byte] => simp at even
      | high :: low :: rest => exact absurd rfl (short high low rest)

/-- Digits are read as some bytes if they are their text. -/
theorem parseHex_eq_some : parseHex n bytes = some id ↔ id.length = n ∧ bytes = hexText id := by
  unfold parseHex
  constructor
  · intro read
    split at read
    · cases read
    next length =>
      have length := not_not.mp length
      have same := of_parsePairs (by omega) read
      have sized := length_hexText id
      rw [← same] at sized
      exact ⟨by omega, same⟩
  · rintro ⟨rfl, rfl⟩
    rw [if_neg (by simp), parsePairs_hexText]

theorem parseHexByte_eq_some : parseHexByte bytes = some byte ↔ bytes = hexPair byte := by
  unfold parseHexByte
  constructor
  · intro read
    obtain ⟨id, readId, first⟩ := Option.bind_eq_some_iff.mp read
    obtain ⟨single, rfl⟩ := parseHex_eq_some.mp readId
    obtain ⟨only, rfl⟩ := List.length_eq_one_iff.mp single
    cases first
    rfl
  · rintro rfl
    have read : parseHex 1 (hexPair byte) = some [byte] := parseHex_eq_some.mpr ⟨rfl, rfl⟩
    rw [read]
    rfl

/-! ## The grammar -/

/-- What may follow the four fields. -/
def Extension (version : UInt8) (extension : List UInt8) : Prop :=
  extension = [] ∨ version ≠ 0 ∧ ∃ more : List UInt8,
    extension = 45 :: more ∧ 1 ≤ more.length ∧ more.length ≤ 456 ∧ ∀ byte ∈ more, byte < 128

/-- A header of a trace id, a parent span id and flags. -/
structure Header (bytes traceId spanId : List UInt8) (flags : UInt8) : Prop where
  traceId_length : traceId.length = 16
  spanId_length : spanId.length = 8
  traceId_nonzero : traceId ≠ List.replicate 16 0
  spanId_nonzero : spanId ≠ List.replicate 8 0
  fields : ∃ version extension, version ≠ 255 ∧ Extension version extension ∧
    bytes = hexPair version ++ 45 :: (hexText traceId ++ 45 :: (hexText spanId ++
      45 :: (hexPair flags ++ extension)))

/-! ## The parser and the grammar -/

theorem eq_take_append {i : Nat} (found : bytes[i]? = some byte) :
    bytes = bytes.take i ++ byte :: bytes.drop (i + 1) := by
  obtain ⟨inside, rfl⟩ := List.getElem?_eq_some_iff.mp found
  rw [← List.drop_eq_getElem_cons inside, List.take_append_drop]

/-- Bytes with dashes at the three offsets are the fields between them. -/
theorem eq_fields (first : bytes[2]? = some 45) (second : bytes[35]? = some 45)
    (third : bytes[52]? = some 45) :
    bytes = bytes.take 2 ++ 45 :: ((bytes.drop 3).take 32 ++ 45 :: ((bytes.drop 36).take 16 ++
      45 :: ((bytes.drop 53).take 2 ++ bytes.drop 55))) := by
  have fromTrace : bytes.drop 3 = (bytes.drop 3).take 32 ++ 45 :: bytes.drop 36 := by
    have dash : (bytes.drop 3)[32]? = some 45 := by
      rw [List.getElem?_drop]
      exact second
    have found := eq_take_append dash
    rwa [List.drop_drop] at found
  have fromSpan : bytes.drop 36 = (bytes.drop 36).take 16 ++ 45 :: bytes.drop 53 := by
    have dash : (bytes.drop 36)[16]? = some 45 := by
      rw [List.getElem?_drop]
      exact third
    have found := eq_take_append dash
    rwa [List.drop_drop] at found
  have fromFlags : bytes.drop 53 = (bytes.drop 53).take 2 ++ bytes.drop 55 := by
    have whole := (List.take_append_drop 2 (bytes.drop 53)).symm
    rwa [List.drop_drop] at whole
  rw [← fromFlags, ← fromSpan, ← fromTrace]
  exact eq_take_append first

/-- The fields of a header are where the parser reads them. -/
theorem offsets {version trace span flags extension : List UInt8} (two : version.length = 2)
    (thirtyTwo : trace.length = 32) (sixteen : span.length = 16) (two' : flags.length = 2)
    (same : bytes = version ++ 45 :: (trace ++ 45 :: (span ++ 45 :: (flags ++ extension)))) :
    bytes.length = 55 + extension.length ∧ bytes[2]? = some 45 ∧ bytes[35]? = some 45 ∧
      bytes[52]? = some 45 ∧ bytes.take 2 = version ∧ (bytes.drop 3).take 32 = trace ∧
      (bytes.drop 36).take 16 = span ∧ (bytes.drop 53).take 2 = flags ∧
      bytes.drop 55 = extension := by
  subst same
  refine ⟨?_, ?_, ?_, ?_, ?_, ?_, ?_, ?_, ?_⟩
  · simp [two, thirtyTwo, sixteen, two']
    omega
  · simp [two]
  · simp [List.getElem?_append, two, thirtyTwo]
  · simp [List.getElem?_append, two, thirtyTwo, sixteen]
  · simp [two]
  · simp [List.take_append, List.drop_append, two, thirtyTwo]
  · simp (disch := omega) [List.drop_append, two, thirtyTwo, sixteen, List.drop_eq_nil_of_le]
  · simp (disch := omega) [List.drop_append, two, thirtyTwo, sixteen, two', List.drop_eq_nil_of_le]
  · simp (disch := omega) [List.drop_append, two, thirtyTwo, sixteen, List.drop_eq_nil_of_le]

theorem extensionOk_iff {version : UInt8} (long : 55 ≤ bytes.length) (short : bytes.length ≤ 512) :
    extensionOk version bytes = true ↔ Extension version (bytes.drop 55) := by
  have empty : bytes.drop 55 = [] ↔ bytes.length = 55 := by
    rw [List.drop_eq_nil_iff]
    omega
  unfold extensionOk Extension
  rw [empty]
  split
  next exact_ => simp [exact_]
  next later =>
    by_cases ends : bytes.length = 55
    · simp [ends]
    · obtain ⟨byte, found⟩ : ∃ byte, bytes[55]? = some byte :=
        ⟨bytes[55], List.getElem?_eq_getElem (by omega)⟩
      have split : bytes.drop 55 = byte :: bytes.drop 56 := by
        have first : (bytes.drop 55)[0]? = some byte := by
          rw [List.getElem?_drop]
          exact found
        simpa using eq_take_append first
      have length : (bytes.drop 56).length = bytes.length - 56 := List.length_drop
      rw [split, found]
      simp only [Bool.or_eq_true, decide_eq_true_eq, Bool.and_eq_true, Bool.not_eq_true',
        List.isEmpty_eq_false_iff, List.all_eq_true, Option.some.injEq, List.cons.injEq]
      constructor
      · rintro (none | ⟨⟨dash, some⟩, ascii⟩)
        · omega
        · have some := List.length_pos_iff.mpr some
          exact .inr ⟨later, bytes.drop 56, ⟨dash, rfl⟩, some, by omega, ascii⟩
      · rintro (none | ⟨-, more, ⟨dash, rfl⟩, some, -, ascii⟩)
        · exact absurd none ends
        · exact .inr ⟨⟨dash, List.length_pos_iff.mp some⟩, ascii⟩

/-- A header is parsed as what it is of, and nothing else is parsed. -/
theorem parseW3cTraceparentWithFlags_eq_some {raw : String} {context : ResolvedTraceContext} :
    parseW3cTraceparentWithFlags raw = some context ↔ ∃ spanId, context.parentSpanId = some spanId ∧
      Header (asBytes raw) context.traceId spanId context.traceFlags := by
  unfold parseW3cTraceparentWithFlags
  generalize asBytes raw = bytes
  constructor
  · intro parsed
    simp only at parsed
    split at parsed
    · cases parsed
    next sized =>
      split at parsed
      · cases parsed
      next dashes =>
        simp only [not_or, not_not] at dashes
        obtain ⟨version, readVersion, parsed⟩ := Option.bind_eq_some_iff.mp parsed
        split at parsed
        · cases parsed
        next notLast =>
          split at parsed
          · cases parsed
          next extended =>
            obtain ⟨traceId, readTrace, parsed⟩ := Option.bind_eq_some_iff.mp parsed
            obtain ⟨spanId, readSpan, parsed⟩ := Option.bind_eq_some_iff.mp parsed
            obtain ⟨flags, readFlags, parsed⟩ := Option.bind_eq_some_iff.mp parsed
            split at parsed
            · cases parsed
            next nonzero =>
              cases parsed
              obtain ⟨sixteen, trace⟩ := parseHex_eq_some.mp readTrace
              obtain ⟨eight, span⟩ := parseHex_eq_some.mp readSpan
              have extension := (extensionOk_iff (by omega) (by omega)).mp (Bool.not_eq_false _ ▸ extended)
              refine ⟨spanId, rfl, sixteen, eight, fun zero => nonzero (.inl zero),
                fun zero => nonzero (.inr zero), version, bytes.drop 55, notLast, extension, ?_⟩
              rw [← parseHexByte_eq_some.mp readVersion, ← trace, ← span,
                ← parseHexByte_eq_some.mp readFlags]
              exact eq_fields dashes.1 dashes.2.1 dashes.2.2
  · rintro ⟨spanId, parent, sixteen, eight, trace, span, version, extension, notLast, extended, same⟩
    obtain ⟨length, first, second, third, version_, trace_, span_, flags_, rest⟩ :=
      offsets rfl (by rw [length_hexText, sixteen]) (by rw [length_hexText, eight]) rfl same
    have short : extension.length ≤ 457 := by
      rcases extended with rfl | ⟨-, more, rfl, -, short, -⟩
      · exact Nat.zero_le _
      · exact Nat.succ_le_succ short
    have ok : extensionOk version bytes = true :=
      (extensionOk_iff (by omega) (by omega)).mpr (rest ▸ extended)
    have parseTrace : parseHex 16 (hexText context.traceId) = some context.traceId :=
      parseHex_eq_some.mpr ⟨sixteen, rfl⟩
    have parseSpan : parseHex 8 (hexText spanId) = some spanId := parseHex_eq_some.mpr ⟨eight, rfl⟩
    simp only
    rw [if_neg (by omega), if_neg (by simp [first, second, third]), version_, trace_, span_, flags_,
      parseHexByte_eq_some.mpr rfl, parseHexByte_eq_some.mpr rfl, parseTrace, parseSpan]
    simp only [bind, Option.bind, if_neg notLast, ok, Bool.true_eq_false, if_false, trace,
      span, or_self, ← parent]

end

/-! ## The parser does not panic -/

/-- A result that may be refused, or none where the code panics. -/
abbrev Indexed (α : Type) := OptionT Option α

section

variable {α β : Type} {bytes : List UInt8} {byte : UInt8} {n : Nat}

/-- The result of code that does not panic. -/
def early (result : Option α) : Indexed α := OptionT.mk (some result)

/-- `bytes[i]`, which panics out of range. -/
def byteAt (bytes : List UInt8) (i : Nat) : Indexed UInt8 := OptionT.mk (bytes[i]?.map some)

/-- `&bytes[lo..hi]`, which panics out of range. -/
def slice (bytes : List UInt8) (lo hi : Nat) : Indexed (List UInt8) :=
  OptionT.mk (if lo ≤ hi ∧ hi ≤ bytes.length then some (some ((bytes.drop lo).take (hi - lo))) else none)

def refuseIf (condition : Prop) [Decidable condition] : Indexed Unit :=
  early (if condition then none else some ())

/-- The loop of `parse_hex` from an index, with some bytes to go. -/
def parsePairsIndexed (bytes : List UInt8) : Nat → Nat → Indexed (List UInt8)
  | 0, _ => early (some [])
  | n + 1, index => do
      let high ← byteAt bytes (index * 2)
      let h ← early (hexNibble high)
      let low ← byteAt bytes (index * 2 + 1)
      let l ← early (hexNibble low)
      let parsed ← parsePairsIndexed bytes n (index + 1)
      early (some ((h <<< 4 ||| l) :: parsed))

/-- `parse_hex` with its indices. -/
def parseHexIndexed (n : Nat) (bytes : List UInt8) : Indexed (List UInt8) := do
  refuseIf (bytes.length ≠ n * 2)
  parsePairsIndexed bytes n 0

/-- The checks of what follows the four fields, with slices and indices. -/
def extensionIndexed (version : UInt8) (bytes : List UInt8) : Indexed Unit := do
  refuseIf (version = 0 ∧ bytes.length ≠ 55)
  if version ≠ 0 ∧ 55 < bytes.length then do
    let separator ← byteAt bytes 55
    refuseIf (separator ≠ 45)
    let more ← slice bytes 56 bytes.length
    refuseIf (more = [] ∨ ¬ more.all fun byte => byte < 128)
  else early (some ())

/-- `parse_w3c_traceparent_with_flags` with its slices and indices. -/
def parseW3cTraceparentIndexed (raw : String) : Indexed ResolvedTraceContext := do
  let bytes := asBytes raw
  refuseIf (bytes.length < 55 ∨ 512 < bytes.length)
  refuseIf (bytes[2]? ≠ some 45 ∨ bytes[35]? ≠ some 45 ∨ bytes[52]? ≠ some 45)
  let version ← slice bytes 0 2 >>= parseHexIndexed 1 >>= (byteAt · 0)
  refuseIf (version = 255)
  extensionIndexed version bytes
  let traceId ← slice bytes 3 35 >>= parseHexIndexed 16
  let parentSpanId ← slice bytes 36 52 >>= parseHexIndexed 8
  let traceFlags ← slice bytes 53 55 >>= parseHexIndexed 1 >>= (byteAt · 0)
  refuseIf (traceId = List.replicate 16 0 ∨ parentSpanId = List.replicate 8 0)
  early (some ⟨traceId, some parentSpanId, traceFlags⟩)

theorem early_bind (result : Option α) (f : α → Option β) :
    (early result >>= fun a => early (f a)) = early (result.bind f) := by
  cases result <;> rfl

theorem early_some_bind (a : α) (f : α → Indexed β) : early (some a) >>= f = f a := rfl

theorem early_none_bind (f : α → Indexed β) : early none >>= f = early none := rfl

theorem refused_bind (condition : Prop) [Decidable condition] (f : Unit → Option α) :
    (if condition then none else some ()).bind f = if condition then none else f () := by
  split <;> rfl

theorem byteAt_eq {i : Nat} (found : bytes[i]? = some byte) : byteAt bytes i = early (some byte) := by
  rw [byteAt, found]
  rfl

theorem slice_eq {lo hi : Nat} (inside : lo ≤ hi ∧ hi ≤ bytes.length) :
    slice bytes lo hi = early (some ((bytes.drop lo).take (hi - lo))) := by
  rw [slice, if_pos inside]
  rfl

theorem parsePairsIndexed_eq {index : Nat} (sized : index * 2 + n * 2 = bytes.length) :
    parsePairsIndexed bytes n index = early (parsePairs (bytes.drop (index * 2))) := by
  induction n generalizing index with
  | zero =>
      rw [List.drop_eq_nil_of_le (by omega)]
      rfl
  | succ n ih =>
      have first : index * 2 < bytes.length := by omega
      have second : index * 2 + 1 < bytes.length := by omega
      have next : index * 2 + 1 + 1 = (index + 1) * 2 := by omega
      rw [List.drop_eq_getElem_cons first, List.drop_eq_getElem_cons second, parsePairs,
        parsePairsIndexed, byteAt_eq (List.getElem?_eq_getElem first),
        byteAt_eq (List.getElem?_eq_getElem second), ih (by omega), next]
      simp only [early_bind, Option.bind_some, Option.map_eq_bind]
      rfl

theorem parseHexIndexed_eq (n : Nat) (bytes : List UInt8) :
    parseHexIndexed n bytes = early (parseHex n bytes) := by
  unfold parseHexIndexed parseHex refuseIf
  split
  · rfl
  next sized =>
    rw [early_some_bind]
    exact parsePairsIndexed_eq (by omega)

theorem parseHexByteIndexed_eq (bytes : List UInt8) :
    (parseHexIndexed 1 bytes >>= (byteAt · 0)) = early (parseHexByte bytes) := by
  rw [parseHexIndexed_eq, parseHexByte]
  cases read : parseHex 1 bytes with
  | none => rfl
  | some id =>
      obtain ⟨single, -⟩ := parseHex_eq_some.mp read
      obtain ⟨byte, rfl⟩ := List.length_eq_one_iff.mp single
      rfl

theorem extensionIndexed_eq (version : UInt8) (long : 55 ≤ bytes.length) :
    extensionIndexed version bytes =
      early (if extensionOk version bytes = false then none else some ()) := by
  unfold extensionIndexed extensionOk refuseIf
  by_cases first : version = 0
  · by_cases ends : bytes.length = 55
    · simp [first, ends, early_some_bind]
    · simp [first, ends, early_none_bind]
  · rw [if_neg (not_and.mpr fun zero => absurd zero first), early_some_bind, if_neg first]
    by_cases ends : bytes.length ≤ 55
    · rw [if_neg (by omega)]
      simp [ends]
    · have found : bytes[55]? = some bytes[55] := List.getElem?_eq_getElem (by omega)
      have more : slice bytes 56 bytes.length = early (some (bytes.drop 56)) := by
        rw [slice_eq ⟨by omega, by omega⟩, List.take_of_length_le (by simp)]
      rw [if_pos ⟨first, by omega⟩, byteAt_eq found, more, found]
      simp only [early_bind, Option.bind_some]
      by_cases dash : bytes[55] = 45
      · cases empty : (bytes.drop 56).isEmpty with
        | true => simp [dash, List.isEmpty_iff.mp empty, ends]
        | false =>
            have nonempty := List.isEmpty_eq_false_iff.mp empty
            cases ascii : (bytes.drop 56).all fun byte => byte < 128 <;>
              simp [dash, nonempty, ends, -List.all_eq_true, -List.drop_eq_nil_iff]
      · simp [dash, ends]

/-- No slice and no index is out of range. -/
theorem parseW3cTraceparentIndexed_eq (raw : String) :
    parseW3cTraceparentIndexed raw = early (parseW3cTraceparentWithFlags raw) := by
  unfold parseW3cTraceparentIndexed parseW3cTraceparentWithFlags
  generalize asBytes raw = bytes
  simp only
  by_cases sized : bytes.length < 55 ∨ 512 < bytes.length
  · rw [refuseIf, if_pos sized, if_pos sized, early_none_bind]
  · rw [slice_eq (by omega), slice_eq (by omega), slice_eq (by omega), slice_eq (by omega)]
    simp only [early_some_bind, parseHexByteIndexed_eq]
    simp only [parseHexIndexed_eq, extensionIndexed_eq _ (show 55 ≤ bytes.length by omega),
      refuseIf, early_bind]
    simp only [refused_bind, bind, List.drop_zero, if_neg sized]
    rfl

end

/-! ## The formatter -/

/-- A byte in the format `{:02x}`. -/
def format02x (byte : UInt8) : String :=
  String.ofList [Nat.digitChar (byte.toNat / 16), Nat.digitChar (byte.toNat % 16)]

/-- The collected digits of an id. -/
def formatHex : List UInt8 → String
  | [] => ""
  | byte :: id => format02x byte ++ formatHex id

def formatW3cTraceparent (traceId spanId : List UInt8) (sampled : Bool) : String :=
  let traceHex := formatHex traceId
  let spanHex := formatHex spanId
  let flags := if sampled then "01" else "00"
  "00-" ++ traceHex ++ "-" ++ spanHex ++ "-" ++ flags

theorem asBytes_format02x (byte : UInt8) : asBytes (format02x byte) = hexPair byte := by
  have all : ∀ n < 256, asBytes (format02x (.ofNat n)) = hexPair (.ofNat n) := by decide +kernel
  simpa using all byte.toNat byte.toNat_lt

theorem asBytes_formatHex (id : List UInt8) : asBytes (formatHex id) = hexText id := by
  induction id with
  | nil => rfl
  | cons byte id ih =>
      rw [formatHex, asBytes_append, asBytes_format02x, ih]
      rfl

theorem header_formatW3cTraceparent {traceId spanId : List UInt8} (sixteen : traceId.length = 16)
    (eight : spanId.length = 8) (trace : traceId ≠ List.replicate 16 0)
    (span : spanId ≠ List.replicate 8 0) (sampled : Bool) :
    Header (asBytes (formatW3cTraceparent traceId spanId sampled)) traceId spanId
      (if sampled then 1 else 0) where
  traceId_length := sixteen
  spanId_length := eight
  traceId_nonzero := trace
  spanId_nonzero := span
  fields := by
    refine ⟨0, [], by decide, .inl rfl, ?_⟩
    have version : asBytes "00-" = hexPair 0 ++ [45] := by decide
    have dash : asBytes "-" = [45] := by decide
    have flags : asBytes (if sampled then "01" else "00") = hexPair (if sampled then 1 else 0) := by
      cases sampled <;> decide
    simp only [formatW3cTraceparent, asBytes_append, asBytes_formatHex, version, dash, flags,
      List.append_nil, List.append_assoc, List.cons_append, List.nil_append]

/-! ## Exactness -/

/-- The parser accepts the grammar, does not panic, and inverts the formatter.  The context is
the first that is parsed of the payload and the origin.  Without them it has no parent, and
its trace id is of the trimmed conversation, if that is not blank. -/
theorem traceparent_exact (sha256 : List UInt8 → List UInt8) :
    (∀ (raw : String) (context : ResolvedTraceContext),
      parseW3cTraceparentWithFlags raw = some context ↔ ∃ spanId,
        context.parentSpanId = some spanId ∧
          Header (asBytes raw) context.traceId spanId context.traceFlags) ∧
    (∀ raw : String, parseW3cTraceparentIndexed raw = early (parseW3cTraceparentWithFlags raw)) ∧
    (∀ (traceId spanId : List UInt8) (sampled : Bool), traceId.length = 16 → spanId.length = 8 →
      traceId ≠ List.replicate 16 0 → spanId ≠ List.replicate 8 0 →
        parseW3cTraceparentWithFlags (formatW3cTraceparent traceId spanId sampled) =
          some ⟨traceId, some spanId, if sampled then 1 else 0⟩) ∧
    (∀ (now : Nat) (raw : String) (origin conversationId : Option String)
      (context : ResolvedTraceContext), parseW3cTraceparentWithFlags raw = some context →
        resolveTraceContext sha256 now (some raw) origin conversationId = context) ∧
    (∀ (now : Nat) (payload : Option String) (raw : String) (conversationId : Option String)
      (context : ResolvedTraceContext), payload.bind parseW3cTraceparentWithFlags = none →
        parseW3cTraceparentWithFlags raw = some context →
          resolveTraceContext sha256 now payload (some raw) conversationId = context) ∧
    ∃ derived : String → List UInt8, ∀ (now : Nat) (payload origin conversationId : Option String),
      payload.bind parseW3cTraceparentWithFlags = none →
        origin.bind parseW3cTraceparentWithFlags = none →
          (resolveTraceContext sha256 now payload origin conversationId).parentSpanId = none ∧
            ∀ id, conversationId = some id → trim id ≠ "" →
              (resolveTraceContext sha256 now payload origin conversationId).traceId =
                derived (trim id) := by
  refine ⟨fun raw context => parseW3cTraceparentWithFlags_eq_some, parseW3cTraceparentIndexed_eq,
    fun traceId spanId sampled sixteen eight trace span => ?_,
    fun now raw origin conversationId context parsed => ?_,
    fun now payload raw conversationId context refused parsed => ?_,
    fun id => nonzeroId ((sha256 (asBytes "agy-otel:trace_id:" ++ asBytes id)).take 16),
    fun now payload origin conversationId refused refused' => ?_⟩
  · exact parseW3cTraceparentWithFlags_eq_some.mpr ⟨spanId, rfl,
      header_formatW3cTraceparent sixteen eight trace span sampled⟩
  · simp [resolveTraceContext, parsed]
  · simp [resolveTraceContext, refused, parsed]
  · have resolved : resolveTraceContext sha256 now payload origin conversationId =
        ⟨deriveTraceId sha256 now conversationId, none, 1⟩ := by
      simp [resolveTraceContext, refused, refused']
    rw [resolved]
    refine ⟨rfl, ?_⟩
    rintro id rfl named
    simp only [deriveTraceId, traceIdText, if_pos named]

def sampleTraceId : List UInt8 := List.replicate 15 0 ++ [171]

def sampleSpanId : List UInt8 := List.replicate 7 0 ++ [16]

/-- A header that was written is parsed, and comes before the origin. -/
theorem traceparent_exact_sample :
    parseW3cTraceparentWithFlags (formatW3cTraceparent sampleTraceId sampleSpanId true) =
        some ⟨sampleTraceId, some sampleSpanId, 1⟩ ∧
      resolveTraceContext id 0 (some (formatW3cTraceparent sampleTraceId sampleSpanId true))
        (some "") none = ⟨sampleTraceId, some sampleSpanId, 1⟩ := by
  have written := (traceparent_exact id).2.2.1 sampleTraceId sampleSpanId true (by decide) (by decide)
    (by decide) (by decide)
  exact ⟨written, (traceparent_exact id).2.2.2.1 0 _ (some "") none _ written⟩

end AgentOtelBridge
