import Mathlib.Algebra.GroupWithZero.Nat
import Mathlib.Data.List.Basic
import Mathlib.Data.Option.Basic

/-!
# The wire format of protocol buffers

A message is a list of records: a key, which is a number of a field and a wire type, and what
the wire type says.  Groups are not read.  A key may have any number that a varint of 64 bits
leaves for it.

A message is decoded from its records one after the other (`fold`), which may be done while they
are read (`fold_eq`).
-/

namespace Protobuf

/-! ## Varints -/

/-- A number in groups of seven bits, lowest first, of at most some bytes. -/
def varintWithin : Nat → List UInt8 → Option (Nat × List UInt8)
  | 0, _ => none
  | _ + 1, [] => none
  | most + 1, byte :: bytes =>
      if byte.toNat < 128 then some (byte.toNat, bytes)
      else (varintWithin most bytes).map fun read => (byte.toNat - 128 + 128 * read.1, read.2)

/-- A number of 64 bits in at most ten bytes, and the bytes behind it. -/
def varint (bytes : List UInt8) : Option (UInt64 × List UInt8) :=
  (varintWithin 10 bytes).bind fun read =>
    if read.1 < 2 ^ 64 then some (UInt64.ofNat read.1, read.2) else none

theorem varintWithin_shortens {most : Nat} {bytes rest : List UInt8} {value : Nat}
    (read : varintWithin most bytes = some (value, rest)) : rest.length < bytes.length := by
  induction most generalizing bytes value with
  | zero => cases read
  | succ most ih =>
      cases bytes with
      | nil => cases read
      | cons byte bytes =>
          rw [varintWithin] at read
          split at read
          · cases read
            exact Nat.lt_succ_self _
          · obtain ⟨⟨high, rest'⟩, more, same⟩ := Option.map_eq_some_iff.mp read
            cases same
            exact Nat.lt_succ_of_lt (ih more)

theorem varint_shortens {bytes rest : List UInt8} {value : UInt64}
    (read : varint bytes = some (value, rest)) : rest.length < bytes.length := by
  obtain ⟨⟨number, rest'⟩, within, same⟩ := Option.bind_eq_some_iff.mp read
  split at same
  · cases same
    exact varintWithin_shortens within
  · cases same

/-! ## Records -/

inductive Payload
  | varint (value : UInt64)
  | fixed64 (bytes : List UInt8)
  | delimited (bytes : List UInt8)
  | fixed32 (bytes : List UInt8)
  deriving DecidableEq

@[ext]
structure Record where
  number : Nat
  payload : Payload
  deriving DecidableEq

/-- Some bytes, if there are so many. -/
def block (count : Nat) (bytes : List UInt8) : Option (List UInt8 × List UInt8) :=
  if count ≤ bytes.length then some (bytes.take count, bytes.drop count) else none

/-- Some bytes with their number in front of them. -/
def sized (bytes : List UInt8) : Option (List UInt8 × List UInt8) :=
  (varint bytes).bind fun length => block length.1.toNat length.2

def payload (wire : Nat) (bytes : List UInt8) : Option (Payload × List UInt8) :=
  match wire with
  | 0 => (varint bytes).map fun read => (.varint read.1, read.2)
  | 1 => (block 8 bytes).map fun read => (.fixed64 read.1, read.2)
  | 2 => (sized bytes).map fun read => (.delimited read.1, read.2)
  | 5 => (block 4 bytes).map fun read => (.fixed32 read.1, read.2)
  | _ => none

def record (bytes : List UInt8) : Option (Record × List UInt8) :=
  (varint bytes).bind fun key =>
    (payload (key.1.toNat % 8) key.2).map fun read => (⟨key.1.toNat / 8, read.1⟩, read.2)

def recordsWithin : Nat → List UInt8 → Option (List Record)
  | _, [] => some []
  | 0, _ :: _ => none
  | most + 1, byte :: bytes =>
      (record (byte :: bytes)).bind fun first =>
        (recordsWithin most first.2).map (first.1 :: ·)

/-- The records of a message, each of which has some bytes. -/
def records (bytes : List UInt8) : Option (List Record) := recordsWithin bytes.length bytes

theorem block_shortens {count : Nat} {bytes part rest : List UInt8}
    (read : block count bytes = some (part, rest)) : rest.length ≤ bytes.length := by
  rw [block] at read
  split at read
  · cases read
    rw [List.length_drop]
    exact Nat.sub_le _ _
  · cases read

theorem sized_shortens {bytes part rest : List UInt8} (read : sized bytes = some (part, rest)) :
    rest.length ≤ bytes.length := by
  obtain ⟨⟨length, behind⟩, first, second⟩ := Option.bind_eq_some_iff.mp read
  exact Nat.le_trans (block_shortens second) (Nat.le_of_lt (varint_shortens first))

theorem payload_shortens {wire : Nat} {bytes rest : List UInt8} {value : Payload}
    (read : payload wire bytes = some (value, rest)) : rest.length ≤ bytes.length := by
  unfold payload at read
  split at read
  · obtain ⟨⟨number, rest'⟩, first, same⟩ := Option.map_eq_some_iff.mp read
    cases same
    exact Nat.le_of_lt (varint_shortens first)
  · obtain ⟨⟨part, rest'⟩, first, same⟩ := Option.map_eq_some_iff.mp read
    cases same
    exact block_shortens first
  · obtain ⟨⟨part, rest'⟩, first, same⟩ := Option.map_eq_some_iff.mp read
    cases same
    exact sized_shortens first
  · obtain ⟨⟨part, rest'⟩, first, same⟩ := Option.map_eq_some_iff.mp read
    cases same
    exact block_shortens first
  · cases read

theorem payload_fixed {wire : Nat} {bytes : List UInt8} {read : Payload × List UInt8}
    (varint : wire ≠ 0) (delimited : wire ≠ 2) (found : payload wire bytes = some read) :
    ∃ part, read.1 = .fixed64 part ∨ read.1 = .fixed32 part := by
  unfold payload at found
  split at found
  · exact absurd rfl varint
  · obtain ⟨first, _, rfl⟩ := Option.map_eq_some_iff.mp found
    exact ⟨first.1, .inl rfl⟩
  · exact absurd rfl delimited
  · obtain ⟨first, _, rfl⟩ := Option.map_eq_some_iff.mp found
    exact ⟨first.1, .inr rfl⟩
  · cases found

theorem record_shortens {bytes rest : List UInt8} {first : Record}
    (read : record bytes = some (first, rest)) : rest.length < bytes.length := by
  obtain ⟨⟨key, behind⟩, keyRead, second⟩ := Option.bind_eq_some_iff.mp read
  obtain ⟨⟨value, rest'⟩, valueRead, same⟩ := Option.map_eq_some_iff.mp second
  cases same
  exact Nat.lt_of_le_of_lt (payload_shortens valueRead) (varint_shortens keyRead)

/-- As many rounds as there are bytes are enough. -/
theorem recordsWithin_congr {most most' : Nat} {bytes : List UInt8}
    (enough : bytes.length ≤ most) (enough' : bytes.length ≤ most') :
    recordsWithin most bytes = recordsWithin most' bytes := by
  induction most generalizing most' bytes with
  | zero =>
      obtain rfl := List.length_eq_zero_iff.mp (Nat.le_zero.mp enough)
      cases most' <;> rfl
  | succ most ih =>
      cases bytes with
      | nil => cases most' <;> rfl
      | cons byte bytes =>
          cases most' with
          | zero => cases enough'
          | succ most' =>
              rw [recordsWithin, recordsWithin]
              refine Option.bind_congr fun first read => ?_
              have shorter := Nat.le_of_lt_succ (record_shortens read)
              rw [ih (Nat.le_trans shorter (Nat.le_of_succ_le_succ enough))
                (Nat.le_trans shorter (Nat.le_of_succ_le_succ enough'))]

theorem records_nil : records [] = some [] := rfl

theorem records_eq {bytes : List UInt8} (some : bytes ≠ []) :
    records bytes = (record bytes).bind fun first => (records first.2).map (first.1 :: ·) := by
  cases bytes with
  | nil => exact absurd rfl some
  | cons byte bytes =>
      rw [records, List.length_cons, recordsWithin]
      refine Option.bind_congr fun first read => ?_
      rw [recordsWithin_congr (Nat.le_of_lt_succ (record_shortens read)) (Nat.le_refl _), records]

/-! ## Decoding -/

variable {σ : Type*}

/-- A message decoded from its records. -/
def fold (field : σ → Record → Option σ) (state : σ) (bytes : List UInt8) : Option σ :=
  (records bytes).bind fun all => all.foldlM field state

theorem fold_nil (field : σ → Record → Option σ) (state : σ) : fold field state [] = some state :=
  rfl

/-- A record may be decoded before the next one is read. -/
theorem fold_eq (field : σ → Record → Option σ) (state : σ) {bytes : List UInt8}
    (some : bytes ≠ []) :
    fold field state bytes = (record bytes).bind fun first =>
      (field state first.1).bind fun state => fold field state first.2 := by
  rw [fold, records_eq some, Option.bind_assoc]
  refine Option.bind_congr fun first _ => ?_
  rw [Option.bind_map]
  cases all : records first.2 with
  | none =>
      cases field state first.1 with
      | none => rfl
      | some state => simp [fold, all]
  | some rest =>
      simp only [fold, all, Option.bind_some, Function.comp_apply, List.foldlM_cons]
      rfl

/-- Where a record is accepted or not whatever has been decoded, so is the list of them. -/
theorem foldlM_of_accepts {field : σ → Record → Option σ} {accepts : Record → Bool}
    {update : σ → Record → σ}
    (each : ∀ state first, field state first =
      if accepts first then some (update state first) else none) (all : List Record) (state : σ) :
    all.foldlM field state = if all.all accepts then some (all.foldl update state) else none := by
  induction all generalizing state with
  | nil => rfl
  | cons first all ih =>
      rw [List.foldlM_cons, each, List.all_cons, List.foldl_cons]
      cases accepts first with
      | false => rfl
      | true =>
          rw [if_pos rfl, Bool.true_and]
          exact ih _

end Protobuf
