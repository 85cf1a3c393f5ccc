import AgentOtelBridge.Lib.Protobuf
import AgentOtelBridge.Lib.Text
import Mathlib.Tactic.Common

/-!
# The response to a probe

The doctor reads the response of a collector with a reader of its own, `parse_otlp_response`,
which holds an index into the body.  The daemon decodes the same message with a library.

What the reader does is to decode the records of the body by rules of its own
(`parseOtlpResponse_answers`); so its index stays in the body, and it ends.
-/

namespace AgentOtelBridge.OtlpResponse

/-! ## Reading at an index -/

/-- What a piece of the reader comes to: `stuck` is an index outside of the slice, or a loop that
does not end. -/
inductive Outcome (α : Type)
  | returns (value : α)
  | fails (error : String)
  | stuck
  deriving DecidableEq

namespace Outcome

variable {α β : Type}

def bind (outcome : Outcome α) (next : α → Outcome β) : Outcome β :=
  match outcome with
  | returns value => next value
  | fails error => fails error
  | stuck => stuck

instance : Monad Outcome where
  pure := returns
  bind := bind

end Outcome

open Outcome

/-- `&[u8]`, which has at most `isize::MAX` bytes. -/
structure Slice where
  bytes : List UInt8
  short : bytes.length < 2 ^ 63

/-- `&body[start..]`. -/
def sliceFrom (body : List UInt8) (start : Nat) : Outcome (List UInt8) :=
  if start ≤ body.length then returns (body.drop start) else stuck

/-- `&body[start..stop]`. -/
def sliceOf (body : List UInt8) (start stop : Nat) : Outcome (List UInt8) :=
  if start ≤ stop ∧ stop ≤ body.length then returns ((body.drop start).take (stop - start))
  else stuck

/-- The `checked_add` of a `usize`, with its error. -/
def checkedAdd (left right : Nat) : Outcome Nat :=
  if left + right < 2 ^ 64 then returns (left + right) else fails "length overflow"

/-- The loop of `read_varint`, from an index. -/
def readVarintFrom (value : UInt64) (idx : Nat) : List UInt8 → Outcome (UInt64 × Nat)
  | [] => fails "truncated protobuf varint"
  | byte :: bytes =>
      let shift := idx * 7
      if idx = 9 ∧ byte > 1 then fails "invalid protobuf varint"
      else
        let value := value ||| (byte &&& 0x7f).toUInt64 <<< UInt64.ofNat shift
        if byte &&& 0x80 = 0 then returns (value, idx + 1)
        else readVarintFrom value (idx + 1) bytes

def readVarint (bytes : List UInt8) : Outcome (UInt64 × Nat) := readVarintFrom 0 0 (bytes.take 10)

/-- A `read_varint` at the index, which moves behind it. -/
def varintAt (body : List UInt8) (i : Nat) : Outcome (Nat × UInt64) := do
  let (value, used) ← readVarint (← sliceFrom body i)
  returns (i + used, value)

/-- A length at the index, and the end of what is so long behind it. -/
def endAt (body : List UInt8) (i : Nat) (truncated : String) : Outcome (Nat × Nat) := do
  let (i, length) ← varintAt body i
  let stop ← checkedAdd i length.toNat
  if stop > body.length then fails truncated else returns (i, stop)

/-- `while i < body.len()`, which is stuck if it has more rounds than there are bytes. -/
def whileBytes {σ : Type} (body : List UInt8) (step : Nat → σ → Outcome (Nat × σ)) :
    Nat → Nat → σ → Outcome σ
  | 0, i, state => if i < body.length then stuck else returns state
  | rounds + 1, i, state =>
      if i < body.length then do
        let (i, state) ← step i state
        whileBytes body step rounds i state
      else returns state

/-! ## The reader -/

def partialSuccessStep (body : List UInt8) (i : Nat) (rejected : Option UInt64) :
    Outcome (Nat × Option UInt64) := do
  let (i, key) ← varintAt body i
  let field := (key >>> 3).toNat
  let wire := (key &&& 7).toNat
  if field = 0 then fails "invalid partialSuccess field number"
  else if field = 1 ∧ wire ≠ 0 then fails "invalid rejectedSpans wire type"
  else if field = 2 ∧ wire ≠ 2 then fails "invalid errorMessage wire type"
  else if field = 1 ∧ wire = 0 then do
    let (i, value) ← varintAt body i
    returns (i, some value)
  else if wire = 0 then do
    let (i, _) ← varintAt body i
    returns (i, rejected)
  else if wire = 2 then do
    -- the arms of `error_message` and of other fields
    let (_, stop) ← endAt body i "truncated partialSuccess protobuf"
    returns (stop, rejected)
  else fails "invalid partialSuccess protobuf"

def parsePartialSuccess (body : List UInt8) : Outcome (Option UInt64) :=
  whileBytes body (partialSuccessStep body) body.length 0 none

def responseStep (body : List UInt8) (i : Nat) (rejected : Option UInt64) :
    Outcome (Nat × Option UInt64) := do
  let (i, key) ← varintAt body i
  let field := (key >>> 3).toNat
  let wire := (key &&& 7).toNat
  if field = 0 then fails "invalid protobuf field number"
  else do
    let (i, rejected) ←
      if field = 1 ∧ wire ≠ 2 then fails "invalid partialSuccess wire type"
      else
        match wire with
        | 0 => do
            let (i, _) ← varintAt body i
            returns (i, rejected)
        | 2 => do
            let (i, stop) ← endAt body i "truncated protobuf response"
            if field = 1 then do
              let rejected ← parsePartialSuccess (← sliceOf body i stop)
              returns (stop, rejected)
            else returns (stop, rejected)
        | 1 => do returns (← checkedAdd i 8, rejected)
        | 5 => do returns (← checkedAdd i 4, rejected)
        | _ => fails "unsupported protobuf wire type"
    if i > body.length then fails "truncated protobuf response" else returns (i, rejected)

def parseOtlpResponse (body : Slice) : Outcome (Option UInt64) :=
  whileBytes body.bytes (responseStep body.bytes) body.bytes.length 0 none

inductive OtlpProbeResult
  | accepted
  | partiallyRejected (count : UInt64)
  | transportOnly
  | protocolUnknown (reason : String)
  deriving DecidableEq

def maxOtlpResponseBytes : Nat := 64 * 1024

def isProtobufContentType (value : Option String) : Bool :=
  value.any fun v =>
    Text.asciiLower (Text.trim (Text.beforeFirst ';' v)) = "application/x-protobuf"

/-- `classify_otlp_response`, of a status that is one of success or not. -/
def classifyOtlpResponse (success : Bool) (contentType : Option String) (body : Slice) :
    Outcome OtlpProbeResult :=
  if !success then returns .transportOnly
  else if body.bytes.length > maxOtlpResponseBytes then
    returns (.protocolUnknown "response exceeds bounded limit")
  else if !isProtobufContentType contentType then
    returns (.protocolUnknown "unexpected response content type")
  else
    match parseOtlpResponse body with
    | returns (some count) =>
        if count > 0 then returns (.partiallyRejected count) else returns .accepted
    | returns none => returns .accepted
    | fails reason => returns (.protocolUnknown reason)
    | stuck => stuck

/-! ## The message -/

/-- `ExportTracePartialSuccess`, with what it does not carry as `none`. -/
structure PartialSuccess where
  rejectedSpans : Option Int
  errorMessage : Option String
  deriving DecidableEq

/-- A key of a record is one of 32 bits, of a field that is not 0. -/
def isField (first : Protobuf.Record) : Bool := 0 < first.number ∧ first.number < 2 ^ 29

/-- A field of `ExportTracePartialSuccess`: the last one counts. -/
def mergePartialField (message : PartialSuccess) (first : Protobuf.Record) :
    Option PartialSuccess :=
  if !isField first then none
  else
    match first.number, first.payload with
    | 1, .varint value => some { message with rejectedSpans := some value.toInt64.toInt }
    | 1, _ => none
    | 2, .delimited text => (Text.fromUtf8 text).map fun text => { message with errorMessage := some text }
    | 2, _ => none
    | _, _ => some message

/-- A field of `ExportTraceServiceResponse`: a `partial_success` is merged with one before. -/
def mergeResponseField (partialSuccess : Option PartialSuccess) (first : Protobuf.Record) :
    Option (Option PartialSuccess) :=
  if !isField first then none
  else
    match first.number, first.payload with
    | 1, .delimited bytes =>
        (Protobuf.fold mergePartialField (partialSuccess.getD ⟨none, none⟩) bytes).map some
    | 1, _ => none
    | _, _ => some partialSuccess

/-- The `partial_success` of a decoded `ExportTraceServiceResponse`. -/
def decodeResponse (body : List UInt8) : Option (Option PartialSuccess) :=
  Protobuf.fold mergeResponseField none body

/-! ## Varints -/

theorem low_toNat (byte : UInt8) : (byte &&& 0x7f).toNat = byte.toNat % 128 := by
  rw [UInt8.toNat_and]
  exact Nat.and_two_pow_sub_one_eq_mod byte.toNat 7

theorem high_eq_zero_iff (byte : UInt8) : byte &&& 0x80 = 0 ↔ byte.toNat < 128 := by
  have bits : ∀ bits : BitVec 8, bits &&& 0x80#8 = 0#8 ↔ bits.toNat < 128 := by decide +kernel
  rw [← UInt8.toBitVec_inj]
  exact bits byte.toBitVec

/-- A group of seven bits that is still free in a value. -/
theorem accumulate_toNat {value : UInt64} (byte : UInt8) {idx : Nat} (first : idx < 10)
    (free : value.toNat < 2 ^ (7 * idx))
    (fits : value.toNat + 2 ^ (7 * idx) * (byte.toNat % 128) < 2 ^ 64) :
    (value ||| (byte &&& 0x7f).toUInt64 <<< UInt64.ofNat (idx * 7)).toNat =
      value.toNat + 2 ^ (7 * idx) * (byte.toNat % 128) := by
  have shift : (UInt64.ofNat (idx * 7)).toNat % 64 = 7 * idx := by
    rw [UInt64.toNat_ofNat']
    omega
  have group : ((byte &&& 0x7f).toUInt64 <<< UInt64.ofNat (idx * 7)).toNat =
      2 ^ (7 * idx) * (byte.toNat % 128) := by
    rw [UInt64.toNat_shiftLeft, shift, UInt8.toNat_toUInt64, low_toNat, Nat.shiftLeft_eq,
      Nat.mul_comm, Nat.mod_eq_of_lt (by omega)]
  rw [UInt64.toNat_or, group, Nat.or_comm, ← Nat.two_pow_add_eq_or_of_lt free, Nat.add_comm]

theorem pow_group (idx : Nat) : 2 ^ (7 * (idx + 1)) = 2 ^ (7 * idx) * 128 := by
  rw [Nat.mul_succ, Nat.pow_add]

/-- Nine groups, and the bit that is left for the tenth. -/
theorem fits_of_group {value idx : Nat} (group : Nat) (free : value < 2 ^ (7 * idx)) (small : group < 128)
    (room : idx ≤ 8 ∨ idx = 9 ∧ group ≤ 1) : value + 2 ^ (7 * idx) * group < 2 ^ 64 := by
  rcases room with early | ⟨rfl, bit⟩
  · have power : 2 ^ (7 * idx) ≤ 2 ^ 56 := Nat.pow_le_pow_right (by decide) (by omega)
    have product : 2 ^ (7 * idx) * group ≤ 2 ^ 56 * 127 := Nat.mul_le_mul power (by omega)
    omega
  · omega

/-- The loop goes on with the value of the groups before. -/
theorem readVarintFrom_spec (most idx : Nat) (total : idx + most = 10) (value : UInt64)
    (free : value.toNat < 2 ^ (7 * idx)) (bytes : List UInt8) :
    (∀ high rest, Protobuf.varintWithin most bytes = some (high, rest) →
      value.toNat + 2 ^ (7 * idx) * high < 2 ^ 64 →
      ∃ used, readVarintFrom value idx (bytes.take most) =
          returns (UInt64.ofNat (value.toNat + 2 ^ (7 * idx) * high), idx + used) ∧
        used ≤ bytes.length ∧ bytes.drop used = rest) ∧
    ((∀ high rest, Protobuf.varintWithin most bytes = some (high, rest) →
      2 ^ 64 ≤ value.toNat + 2 ^ (7 * idx) * high) →
      ∃ error, readVarintFrom value idx (bytes.take most) = fails error) := by
  induction most generalizing idx value bytes with
  | zero =>
      refine ⟨fun high rest read => ?_, fun _ => ⟨_, rfl⟩⟩
      cases read
  | succ most ih =>
      cases bytes with
      | nil =>
          refine ⟨fun high rest read => ?_, fun _ => ⟨_, rfl⟩⟩
          cases read
      | cons byte bytes =>
          have few : byte.toNat < 256 := byte.toNat_lt
          have one : byte > 1 ↔ 1 < byte.toNat := UInt8.lt_iff_toNat_lt
          rw [List.take_succ_cons, readVarintFrom, Protobuf.varintWithin]
          simp only [one, high_eq_zero_iff]
          by_cases overflow : idx = 9 ∧ 1 < byte.toNat
          · obtain ⟨rfl, big⟩ := overflow
            obtain rfl : most = 0 := by omega
            rw [if_pos (show 9 = 9 ∧ 1 < byte.toNat from ⟨rfl, big⟩)]
            refine ⟨fun high rest read fits => ?_, fun _ => ⟨_, rfl⟩⟩
            split at read
            · cases read
              omega
            · cases read
          · rw [if_neg overflow]
            by_cases last : byte.toNat < 128
            · have fits := fits_of_group byte.toNat free last (by omega)
              have low : byte.toNat % 128 = byte.toNat := Nat.mod_eq_of_lt last
              have sum := accumulate_toNat byte (by omega) free (by rw [low]; exact fits)
              rw [low] at sum
              rw [if_pos last, if_pos last]
              refine ⟨fun high rest read _ => ?_, fun far => ?_⟩
              · cases read
                refine ⟨1, ?_, by simp, rfl⟩
                rw [← sum, UInt64.ofNat_toNat]
              · exact absurd (far _ _ rfl) (Nat.not_le.mpr fits)
            · have fits := fits_of_group (byte.toNat - 128) free (by omega) (by omega)
              have low : byte.toNat % 128 = byte.toNat - 128 := by omega
              have sum := accumulate_toNat byte (by omega) free (by rw [low]; exact fits)
              rw [low] at sum
              have free' : value.toNat + 2 ^ (7 * idx) * (byte.toNat - 128) < 2 ^ (7 * (idx + 1)) := by
                have product : 2 ^ (7 * idx) * (byte.toNat - 128) ≤ 2 ^ (7 * idx) * 127 :=
                  Nat.mul_le_mul_left _ (by omega)
                rw [pow_group]
                omega
              obtain ⟨reads, fails⟩ := ih (idx + 1) (by omega) _ (by rw [sum]; exact free') bytes
              have whole : ∀ high, value.toNat + 2 ^ (7 * idx) * (byte.toNat - 128 + 128 * high) =
                  value.toNat + 2 ^ (7 * idx) * (byte.toNat - 128) + 2 ^ (7 * (idx + 1)) * high := by
                intro high
                rw [pow_group, Nat.mul_add, Nat.mul_assoc, Nat.add_assoc]
              rw [if_neg last, if_neg last]
              rw [sum] at reads fails
              refine ⟨fun high rest read small => ?_, fun far => fails fun high rest read => ?_⟩
              · obtain ⟨⟨high, rest⟩, more, same⟩ := Option.map_eq_some_iff.mp read
                cases same
                rw [whole] at small ⊢
                obtain ⟨used, run, within, behind⟩ := reads high rest more small
                refine ⟨used + 1, ?_, by simpa using within, behind⟩
                rw [run, Nat.add_assoc idx, Nat.add_comm 1]
              · rw [← whole]
                exact far _ rest (by rw [read]; rfl)

theorem readVarint_some {bytes rest : List UInt8} {value : UInt64}
    (read : Protobuf.varint bytes = some (value, rest)) :
    ∃ used, readVarint bytes = returns (value, used) ∧ used ≤ bytes.length ∧
      bytes.drop used = rest := by
  obtain ⟨⟨high, rest'⟩, within, same⟩ := Option.bind_eq_some_iff.mp read
  have spec := readVarintFrom_spec 10 0 rfl 0 (by decide) bytes
  rw [UInt64.toNat_zero, Nat.mul_zero, Nat.pow_zero] at spec
  simp only [Nat.zero_add, Nat.one_mul] at spec
  split at same
  next small =>
    cases same
    exact spec.1 high _ within small
  next => cases same

theorem readVarint_none {bytes : List UInt8} (read : Protobuf.varint bytes = none) :
    ∃ error, readVarint bytes = fails error := by
  have spec := readVarintFrom_spec 10 0 rfl 0 (by decide) bytes
  rw [UInt64.toNat_zero, Nat.mul_zero, Nat.pow_zero] at spec
  simp only [Nat.zero_add, Nat.one_mul] at spec
  refine spec.2 fun high behind within => ?_
  by_contra small
  rw [Protobuf.varint, within, Option.bind_some, if_pos (Nat.not_le.mp small)] at read
  cases read

/-! ## Reading as decoding -/

/-- What is read at an index is what is decoded from there, and the index is behind it. -/
def Reads {α : Type} (body : List UInt8) (outcome : Outcome (Nat × α))
    (expected : Option (α × List UInt8)) : Prop :=
  match expected with
  | some (value, rest) => ∃ i, outcome = returns (i, value) ∧ i ≤ body.length ∧ body.drop i = rest
  | none => ∃ error, outcome = fails error

section

variable {α β : Type} {body : List UInt8} {i : Nat}

theorem returns_bind (value : α) (next : α → Outcome β) : (returns value >>= next) = next value :=
  rfl

theorem fails_bind (error : String) (next : α → Outcome β) :
    (fails error >>= next) = fails error := rfl

theorem reads_fails (error : String) : Reads (α := α) body (fails error) none := ⟨error, rfl⟩

theorem reads_returns (inside : i ≤ body.length) (value : α) :
    Reads body (returns (i, value)) (some (value, body.drop i)) := ⟨i, rfl, inside, rfl⟩

theorem Reads.bind {outcome : Outcome (Nat × α)} {expected : Option (α × List UInt8)}
    (reads : Reads body outcome expected) {next : Nat × α → Outcome (Nat × β)}
    {behind : α × List UInt8 → Option (β × List UInt8)}
    (continues : ∀ i value, i ≤ body.length →
      Reads body (next (i, value)) (behind (value, body.drop i))) :
    Reads body (outcome >>= next) (expected.bind behind) := by
  cases expected with
  | none =>
      obtain ⟨error, rfl⟩ := reads
      exact ⟨error, rfl⟩
  | some read =>
      obtain ⟨value, rest⟩ := read
      obtain ⟨i, rfl, inside, rfl⟩ := reads
      exact continues i value inside

theorem reads_varintAt (inside : i ≤ body.length) :
    Reads body (varintAt body i) (Protobuf.varint (body.drop i)) := by
  rw [varintAt, sliceFrom, if_pos inside, returns_bind]
  cases read : Protobuf.varint (body.drop i) with
  | none =>
      obtain ⟨error, run⟩ := readVarint_none read
      exact ⟨error, by rw [run, fails_bind]⟩
  | some found =>
      obtain ⟨used, run, within, behind⟩ := readVarint_some read
      rw [List.length_drop] at within
      rw [List.drop_drop] at behind
      exact ⟨i + used, by rw [run]; rfl, by omega, behind⟩

/-- What has its length in front of it is read to its end. -/
theorem reads_endAt (short : body.length < 2 ^ 63) (inside : i ≤ body.length) (truncated : String)
    {next : Nat × Nat → Outcome (Nat × β)}
    {behind : List UInt8 × List UInt8 → Option (β × List UInt8)}
    (continues : ∀ start stop part, sliceOf body start stop = returns part → stop ≤ body.length →
      Reads body (next (start, stop)) (behind (part, body.drop stop))) :
    Reads body (endAt body i truncated >>= next) ((Protobuf.sized (body.drop i)).bind behind) := by
  have assoc : endAt body i truncated >>= next = varintAt body i >>= fun read =>
      checkedAdd read.1 read.2.toNat >>= fun stop =>
        (if stop > body.length then fails truncated else returns (read.1, stop)) >>= next := by
    rw [endAt]
    cases varintAt body i with
    | fails error => rfl
    | stuck => rfl
    | returns read =>
        simp only [returns_bind]
        cases checkedAdd read.1 read.2.toNat <;> rfl
  rw [assoc, Protobuf.sized, Option.bind_assoc]
  refine (reads_varintAt inside).bind fun start length inside => ?_
  dsimp only
  rw [Protobuf.block, List.length_drop, checkedAdd]
  by_cases fits : length.toNat ≤ body.length - start
  · rw [if_pos fits, if_pos (by omega), returns_bind, if_neg (by omega), returns_bind,
      Option.bind_some, List.drop_drop]
    refine continues start (start + length.toNat) _ ?_ (by omega)
    rw [sliceOf, if_pos ⟨by omega, by omega⟩, Nat.add_sub_cancel_left]
  · rw [if_neg fits, Option.bind_none]
    by_cases small : start + length.toNat < 2 ^ 64
    · rw [if_pos small, returns_bind, if_pos (by omega), fails_bind]
      exact reads_fails _
    · rw [if_neg small, fails_bind]
      exact reads_fails _

end

/-! ## The fields that the reader accepts -/

/-- What the reader does with a field of a `partial_success`. -/
def partialField (rejected : Option UInt64) (first : Protobuf.Record) : Option (Option UInt64) :=
  if first.number = 0 then none
  else
    match first.number, first.payload with
    | 1, .varint value => some (some value)
    | 1, _ => none
    | 2, .delimited _ => some rejected
    | 2, _ => none
    | _, .varint _ => some rejected
    | _, .delimited _ => some rejected
    | _, _ => none

/-- What the reader does with a field of a response. -/
def responseField (rejected : Option UInt64) (first : Protobuf.Record) : Option (Option UInt64) :=
  if first.number = 0 then none
  else
    match first.number, first.payload with
    | 1, .delimited bytes => Protobuf.fold partialField none bytes
    | 1, _ => none
    | _, _ => some rejected

/-- What is decoded at the head of some bytes. -/
def headField {σ : Type} (field : σ → Protobuf.Record → Option σ) (state : σ)
    (bytes : List UInt8) : Option (σ × List UInt8) :=
  (Protobuf.record bytes).bind fun first => (field state first.1).map fun state => (state, first.2)

section

variable {body : List UInt8} {i : Nat}

theorem shift_toNat (key : UInt64) : (key >>> 3).toNat = key.toNat / 8 := by
  rw [UInt64.toNat_shiftRight]
  exact Nat.shiftRight_eq_div_pow key.toNat 3

theorem wire_toNat (key : UInt64) : (key &&& 7).toNat = key.toNat % 8 := by
  rw [UInt64.toNat_and]
  exact Nat.and_two_pow_sub_one_eq_mod key.toNat 3

theorem reads_fails_bind {α β : Type} {error : String} {found : Option α}
    {behind : α → Option (β × List UInt8)} (refused : ∀ read, behind read = none) :
    Reads body (fails error) (found.bind behind) := by
  have none : found.bind behind = none := by
    rw [Option.bind_eq_none_iff]
    exact fun read _ => refused read
  rw [none]
  exact reads_fails error

theorem partialField_zero (rejected : Option UInt64) (payload : Protobuf.Payload) :
    partialField rejected ⟨0, payload⟩ = none := rfl

theorem partialField_varint {field : Nat} (zero : field ≠ 0) (rejected : Option UInt64)
    (value : UInt64) :
    partialField rejected ⟨field, .varint value⟩ =
      if field = 1 then some (some value) else if field = 2 then none else some rejected := by
  rw [partialField, if_neg zero]
  split <;> simp_all

theorem partialField_delimited {field : Nat} (zero : field ≠ 0) (rejected : Option UInt64)
    (bytes : List UInt8) :
    partialField rejected ⟨field, .delimited bytes⟩ = if field = 1 then none else some rejected := by
  rw [partialField, if_neg zero]
  split <;> simp_all

/-- What is neither a varint nor has a length is refused in a `partial_success`. -/
theorem partialField_other {field wire : Nat} {bytes : List UInt8}
    (varint : wire ≠ 0) (delimited : wire ≠ 2) (rejected : Option UInt64)
    (read : Protobuf.Payload × List UInt8) (found : Protobuf.payload wire bytes = some read) :
    partialField rejected ⟨field, read.1⟩ = none := by
  obtain ⟨part, fixed | fixed⟩ := Protobuf.payload_fixed varint delimited found <;>
    rw [fixed, partialField] <;> split <;> first | rfl | (split <;> simp_all)

theorem partialSuccessStep_reads (short : body.length < 2 ^ 63) (inside : i ≤ body.length)
    (rejected : Option UInt64) :
    Reads body (partialSuccessStep body i rejected)
      (headField partialField rejected (body.drop i)) := by
  rw [partialSuccessStep, headField, Protobuf.record, Option.bind_assoc]
  refine (reads_varintAt inside).bind fun i key inside => ?_
  dsimp only
  rw [shift_toNat, wire_toNat, Option.bind_map]
  generalize key.toNat / 8 = field
  generalize key.toNat % 8 = wire
  by_cases zero : field = 0
  · subst zero
    exact reads_fails_bind fun read => rfl
  · rw [if_neg zero]
    by_cases varint : wire = 0
    · subst varint
      rw [Protobuf.payload, Option.bind_map]
      simp only [Function.comp_def, partialField_varint zero]
      by_cases one : field = 1
      · subst one
        refine (reads_varintAt inside).bind fun i value inside => ?_
        exact reads_returns inside (some value)
      · by_cases two : field = 2
        · subst two
          exact reads_fails_bind fun read => rfl
        · simp only [one, two, false_and, if_false]
          refine (reads_varintAt inside).bind fun i value inside => ?_
          exact reads_returns inside rejected
    · by_cases delimited : wire = 2
      · subst delimited
        rw [Protobuf.payload, Option.bind_map]
        simp only [Function.comp_def, partialField_delimited zero]
        by_cases one : field = 1
        · subst one
          exact reads_fails_bind fun read => rfl
        · simp only [one, false_and, and_false, ne_eq, not_true, if_false, if_true, varint]
          refine reads_endAt short inside _ fun start stop part slice inside => ?_
          exact reads_returns inside rejected
      · have refused : ((Protobuf.payload wire (body.drop i)).bind
            ((fun first => (partialField rejected first.1).map fun state => (state, first.2)) ∘
              fun read => (⟨field, read.1⟩, read.2))) = none := by
          rw [Option.bind_eq_none_iff]
          intro read found
          rw [Function.comp_apply, partialField_other varint delimited rejected read found]
          rfl
        rw [refused]
        by_cases one : field = 1
        · rw [if_pos ⟨one, varint⟩]
          exact reads_fails _
        · by_cases two : field = 2
          · rw [if_neg (fun both => one both.1), if_pos ⟨two, delimited⟩]
            exact reads_fails _
          · simp only [one, two, varint, delimited, false_and, if_false]
            exact reads_fails _

/-! ## Loops -/

/-- A loop that returns what is decoded, or fails. -/
def Answers {α : Type} (outcome : Outcome α) (expected : Option α) : Prop :=
  match expected with
  | some value => outcome = returns value
  | none => ∃ error, outcome = fails error

/-- A loop of steps that read one field each decodes the fields. -/
theorem whileBytes_answers {σ : Type} {step : Nat → σ → Outcome (Nat × σ)}
    {field : σ → Protobuf.Record → Option σ}
    (reads : ∀ i state, i ≤ body.length →
      Reads body (step i state) (headField field state (body.drop i)))
    (rounds : Nat) {i : Nat} (inside : i ≤ body.length) (enough : body.length ≤ i + rounds)
    (state : σ) :
    Answers (whileBytes body step rounds i state) (Protobuf.fold field state (body.drop i)) := by
  induction rounds generalizing i state with
  | zero =>
      rw [whileBytes, if_neg (by omega), List.drop_eq_nil_of_le (by omega)]
      rfl
  | succ rounds ih =>
      rw [whileBytes]
      by_cases more : i < body.length
      · have some : body.drop i ≠ [] := by
          intro nil
          have := congrArg List.length nil
          rw [List.length_drop, List.length_nil] at this
          omega
        have first := reads i state inside
        rw [if_pos more, Protobuf.fold_eq field state some]
        rw [headField] at first
        cases read : Protobuf.record (body.drop i) with
        | none =>
            rw [read] at first
            obtain ⟨error, run⟩ := first
            exact ⟨error, by rw [run, fails_bind]⟩
        | some head =>
            obtain ⟨head, rest⟩ := head
            have shorter := Protobuf.record_shortens read
            rw [read, Option.bind_some] at first
            rw [Option.bind_some]
            dsimp only at first ⊢
            cases decoded : field state head with
            | none =>
                rw [decoded] at first
                obtain ⟨error, run⟩ := first
                exact ⟨error, by rw [run, fails_bind]⟩
            | some state' =>
                rw [decoded] at first
                obtain ⟨j, run, inside', rfl⟩ := first
                rw [List.length_drop, List.length_drop] at shorter
                rw [run, returns_bind]
                exact ih inside' (by omega) state'
      · rw [if_neg more, List.drop_eq_nil_of_le (by omega)]
        rfl

theorem parsePartialSuccess_answers (short : body.length < 2 ^ 63) :
    Answers (parsePartialSuccess body) (Protobuf.fold partialField none body) := by
  have run := whileBytes_answers (fun i rejected inside =>
    partialSuccessStep_reads short inside rejected) body.length (Nat.zero_le _) (by omega) none
  rwa [List.drop_zero] at run

theorem responseField_other {field : Nat} (zero : field ≠ 0) (one : field ≠ 1)
    (rejected : Option UInt64) (payload : Protobuf.Payload) :
    responseField rejected ⟨field, payload⟩ = some rejected := by
  rw [responseField, if_neg zero]
  split <;> simp_all

theorem responseField_refused {wire : Nat} {bytes : List UInt8} (delimited : wire ≠ 2)
    (rejected : Option UInt64) (read : Protobuf.Payload × List UInt8)
    (found : Protobuf.payload wire bytes = some read) :
    responseField rejected ⟨1, read.1⟩ = none := by
  have differs : ∀ part, read.1 ≠ .delimited part := by
    intro part same
    by_cases varint : wire = 0
    · subst varint
      obtain ⟨value, _, rfl⟩ := Option.map_eq_some_iff.mp found
      cases same
    · obtain ⟨fixed, kind | kind⟩ := Protobuf.payload_fixed varint delimited found <;>
        rw [kind] at same <;> cases same
  rw [responseField, if_neg Nat.one_ne_zero]
  split <;> simp_all

/-- Some bytes are skipped, or the body ends before. -/
theorem reads_skip {σ : Type} (short : body.length < 2 ^ 63) (inside : i ≤ body.length)
    (count : Nat) (few : count < 2 ^ 63) (state : σ) (truncated : String) :
    Reads body (checkedAdd i count >>= fun j =>
        if j > body.length then fails truncated else returns (j, state))
      ((Protobuf.block count (body.drop i)).bind fun read => some (state, read.2)) := by
  rw [checkedAdd, if_pos (by omega), returns_bind, Protobuf.block, List.length_drop]
  by_cases fits : count ≤ body.length - i
  · rw [if_pos fits, if_neg (by omega), List.drop_drop]
    exact reads_returns (by omega) state
  · rw [if_neg fits, if_pos (by omega)]
    exact reads_fails _

theorem slice_length {start stop : Nat} {part : List UInt8}
    (slice : sliceOf body start stop = returns part) : part.length ≤ body.length := by
  rw [sliceOf] at slice
  split at slice
  · cases slice
    rw [List.length_take, List.length_drop]
    omega
  · cases slice

theorem responseStep_reads (short : body.length < 2 ^ 63) (inside : i ≤ body.length)
    (rejected : Option UInt64) :
    Reads body (responseStep body i rejected)
      (headField responseField rejected (body.drop i)) := by
  rw [responseStep, headField, Protobuf.record, Option.bind_assoc]
  refine (reads_varintAt inside).bind fun i key inside => ?_
  dsimp only
  rw [shift_toNat, wire_toNat, Option.bind_map]
  generalize key.toNat / 8 = field
  generalize key.toNat % 8 = wire
  by_cases zero : field = 0
  · subst zero
    exact reads_fails_bind fun read => rfl
  · rw [if_neg zero]
    by_cases one : field = 1
    · subst one
      by_cases delimited : wire = 2
      · subst delimited
        rw [if_neg (by simp), Protobuf.payload, Option.bind_map]
        simp only [if_true]
        refine reads_endAt short inside _ fun start stop part slice inside => ?_
        have answers := parsePartialSuccess_answers
          (Nat.lt_of_le_of_lt (slice_length slice) short)
        rw [slice, returns_bind]
        show Reads body _ ((Protobuf.fold partialField none part).map _)
        cases decoded : Protobuf.fold partialField none part with
        | none =>
            rw [decoded] at answers
            obtain ⟨error, run⟩ := answers
            rw [run]
            exact reads_fails error
        | some rejected' =>
            rw [decoded] at answers
            rw [show parsePartialSuccess part = returns rejected' from answers, returns_bind,
              returns_bind, if_neg (by omega)]
            exact reads_returns inside rejected'
      · rw [if_pos ⟨rfl, delimited⟩]
        have refused : ((Protobuf.payload wire (body.drop i)).bind
            ((fun first => (responseField rejected first.1).map fun state => (state, first.2)) ∘
              fun read => (⟨1, read.1⟩, read.2))) = none := by
          rw [Option.bind_eq_none_iff]
          intro read found
          rw [Function.comp_apply, responseField_refused delimited rejected read found]
          rfl
        rw [refused]
        exact reads_fails _
    · rw [if_neg (fun both => one both.1)]
      simp only [Function.comp_def, responseField_other zero one, Option.map_some]
      match wire with
      | 0 =>
          rw [Protobuf.payload, Option.bind_map]
          refine (reads_varintAt inside).bind fun i value inside => ?_
          rw [returns_bind, if_neg (by omega)]
          exact reads_returns inside rejected
      | 1 =>
          rw [Protobuf.payload, Option.bind_map]
          exact reads_skip short inside 8 (by decide) rejected _
      | 2 =>
          rw [Protobuf.payload, Option.bind_map]
          simp only [if_neg one]
          refine reads_endAt short inside _ fun start stop part slice inside => ?_
          rw [returns_bind, if_neg (by omega)]
          exact reads_returns inside rejected
      | 3 => exact reads_fails _
      | 4 => exact reads_fails _
      | 5 =>
          rw [Protobuf.payload, Option.bind_map]
          exact reads_skip short inside 4 (by decide) rejected _
      | _ + 6 => exact reads_fails _

theorem parseOtlpResponse_answers (body : Slice) :
    Answers (parseOtlpResponse body) (Protobuf.fold responseField none body.bytes) := by
  have run := whileBytes_answers (fun i rejected inside =>
    responseStep_reads body.short inside rejected) body.bytes.length (Nat.zero_le _)
    (by omega) none
  rwa [List.drop_zero] at run

end

end AgentOtelBridge.OtlpResponse
