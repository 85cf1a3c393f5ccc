import AgentOtelBridge.Cli.OtlpResponse
import Mathlib.Data.List.Induction

/-!
# The response to a probe, read by the doctor and by the daemon

Both read the records of a response, and both refuse what is not one.  They differ in what else
they refuse: the doctor a field of fixed width in a `partial_success`, the daemon a key of more
than 32 bits and a message that is not UTF-8.  Of more than one `partial_success` the doctor
takes the last, the daemon all; and the doctor takes a negative number for a large one.
-/

namespace AgentOtelBridge.OtlpResponse

open Outcome

/-! ## Statements -/

/-- A field of a `partial_success` has the wire type of its number. -/
def wellTyped (first : Protobuf.Record) : Bool :=
  match first.number, first.payload with
  | 0, _ => false
  | 1, .varint _ => true
  | 1, _ => false
  | 2, .delimited _ => true
  | 2, _ => false
  | _, _ => true

def fixedWidth (first : Protobuf.Record) : Bool :=
  match first.payload with
  | .fixed64 _ | .fixed32 _ => true
  | .varint _ | .delimited _ => false

/-- The key of a record has more than 32 bits. -/
def longKey (first : Protobuf.Record) : Bool := 2 ^ 29 ≤ first.number

/-- An `error_message` is not UTF-8. -/
def notText (first : Protobuf.Record) : Bool :=
  match first.number, first.payload with
  | 2, .delimited text => (Text.fromUtf8 text).isNone
  | _, _ => false

/-- A field of a response is one of another number, or a `partial_success` of such fields. -/
def isResponseField (inner : Protobuf.Record → Bool) (first : Protobuf.Record) : Bool :=
  match first.number, first.payload with
  | 0, _ => false
  | 1, .delimited bytes => (Protobuf.records bytes).any fun fields => fields.all inner
  | 1, _ => false
  | _, _ => true

/-- The fields of a `partial_success`. -/
def partialSuccess? (first : Protobuf.Record) : Option (List Protobuf.Record) :=
  match first.number, first.payload with
  | 1, .delimited bytes => Protobuf.records bytes
  | _, _ => none

/-- The `partial_success`es of a response. -/
def partialSuccesses (fields : List Protobuf.Record) : List (List Protobuf.Record) :=
  fields.filterMap partialSuccess?

def rejectedSpans? (first : Protobuf.Record) : Option UInt64 :=
  match first.number, first.payload with
  | 1, .varint value => some value
  | _, _ => none

/-- The last `rejected_spans` of some fields. -/
def lastRejected (fields : List Protobuf.Record) : Option UInt64 :=
  fields.foldl (fun rejected first => (rejectedSpans? first).or rejected) none

/-- The doctor and the daemon agree about a body. -/
structure Agrees (body : Slice) : Prop where
  accepted : (∃ reported, parseOtlpResponse body = returns reported) ↔
    (decodeResponse body.bytes).isSome = true
  reported : ∀ reported message, parseOtlpResponse body = returns reported →
    decodeResponse body.bytes = some message →
    ∀ spans, message.bind PartialSuccess.rejectedSpans = some spans →
      reported.map (fun count => (count.toNat : Int)) = some spans

/-- The fields of a body are such that both readers take them or neither, and that what the last
`partial_success` carries is what counts, which is not negative. -/
structure Plain (fields : List Protobuf.Record) : Prop where
  same : (partialSuccesses fields).flatten.any fixedWidth =
    (fields.any longKey ||
      (partialSuccesses fields).flatten.any fun first => longKey first || notText first)
  counts : (partialSuccesses fields).flatten.any fixedWidth = false →
    ∀ value, lastRejected (partialSuccesses fields).flatten = some value →
      value.toNat < 2 ^ 63 ∧ ∃ final, (partialSuccesses fields).getLast? = some final ∧
        (lastRejected final).isSome = true

/-! ## Fields of a `partial_success` -/

theorem partialField_eq (rejected : Option UInt64) (first : Protobuf.Record) :
    partialField rejected first =
      if wellTyped first && !fixedWidth first then some ((rejectedSpans? first).or rejected)
      else none := by
  obtain ⟨number, payload⟩ := first
  match number with
  | 0 => rfl
  | 1 => cases payload <;> rfl
  | 2 => cases payload <;> rfl
  | _ + 3 => cases payload <;> rfl

/-- What a field changes in a decoded `partial_success`. -/
def updatePartial (message : PartialSuccess) (first : Protobuf.Record) : PartialSuccess :=
  ⟨((rejectedSpans? first).map fun value => value.toInt64.toInt).or message.rejectedSpans,
    match first.number, first.payload with
    | 2, .delimited text => (Text.fromUtf8 text).or message.errorMessage
    | _, _ => message.errorMessage⟩

theorem isField_succ (number : Nat) (payload : Protobuf.Payload) :
    isField ⟨number + 1, payload⟩ = !longKey ⟨number + 1, payload⟩ := by
  have positive : (0 < number + 1) = True := eq_true (Nat.succ_pos number)
  rw [isField, longKey, ← decide_not]
  simp only [positive, true_and, Nat.not_le]

theorem mergePartialField_eq (message : PartialSuccess) (first : Protobuf.Record) :
    mergePartialField message first =
      if wellTyped first && !(longKey first || notText first) then
        some (updatePartial message first)
      else none := by
  obtain ⟨number, payload⟩ := first
  match number with
  | 0 => rfl
  | 1 => cases payload <;> rfl
  | 2 =>
      cases payload with
      | delimited text =>
          cases decoded : Text.fromUtf8 text <;>
            simp [mergePartialField, isField, wellTyped, longKey, notText, decoded,
              updatePartial, rejectedSpans?]
      | _ => rfl
  | number + 3 =>
      rw [mergePartialField, isField_succ, Bool.not_not]
      cases longKey ⟨number + 3, payload⟩ <;> rfl

/-! ## Fields of a response -/

theorem responseField_eq (rejected : Option UInt64) (first : Protobuf.Record) :
    responseField rejected first =
      if isResponseField (fun field => wellTyped field && !fixedWidth field) first then
        some ((partialSuccess? first).elim rejected lastRejected)
      else none := by
  obtain ⟨number, payload⟩ := first
  match number with
  | 0 => rfl
  | 1 =>
      cases payload with
      | delimited bytes =>
          show Protobuf.fold partialField none bytes = _
          rw [Protobuf.fold]
          cases read : Protobuf.records bytes with
          | none => simp [isResponseField, read]
          | some fields =>
              rw [Option.bind_some, Protobuf.foldlM_of_accepts partialField_eq]
              simp [isResponseField, partialSuccess?, read, lastRejected]
      | _ => rfl
  | _ + 2 => rfl

theorem mergeResponseField_eq (message : Option PartialSuccess) (first : Protobuf.Record) :
    mergeResponseField message first =
      if isResponseField (fun field => wellTyped field && !(longKey field || notText field))
          first && !longKey first then
        some ((partialSuccess? first).elim message fun fields =>
          some (fields.foldl updatePartial (message.getD ⟨none, none⟩)))
      else none := by
  obtain ⟨number, payload⟩ := first
  match number with
  | 0 => rfl
  | 1 =>
      cases payload with
      | delimited bytes =>
          show (Protobuf.fold mergePartialField (message.getD ⟨none, none⟩) bytes).map some = _
          rw [Protobuf.fold]
          cases read : Protobuf.records bytes with
          | none => simp [isResponseField, read]
          | some fields =>
              rw [Option.bind_some, Protobuf.foldlM_of_accepts mergePartialField_eq]
              simp only [isResponseField, partialSuccess?, read, Option.any_some]
              rw [show longKey ⟨1, .delimited bytes⟩ = false from rfl, Bool.not_false,
                Bool.and_true, Option.elim_some]
              split <;> rfl
      | _ => rfl
  | number + 2 =>
      rw [mergeResponseField, isField_succ, Bool.not_not]
      cases longKey ⟨number + 2, payload⟩ <;> rfl

theorem all_and_not {α : Type*} (good bad : α → Bool) (fields : List α) :
    (fields.all fun field => good field && !bad field) = (fields.all good && !fields.any bad) := by
  induction fields with
  | nil => rfl
  | cons first fields ih =>
      rw [List.all_cons, List.all_cons, List.any_cons, ih, Bool.not_or]
      cases good first <;> cases bad first <;> simp

/-- A field is refused for its type, or for what is in it. -/
theorem isResponseField_and (good bad : Protobuf.Record → Bool) (first : Protobuf.Record) :
    isResponseField (fun field => good field && !bad field) first =
      (isResponseField good first && !((partialSuccess? first).getD []).any bad) := by
  obtain ⟨number, payload⟩ := first
  match number with
  | 0 => rfl
  | 1 =>
      cases payload with
      | delimited bytes =>
          cases read : Protobuf.records bytes with
          | none => simp [isResponseField, read]
          | some fields =>
              simp only [isResponseField, partialSuccess?, read, Option.any_some, Option.getD_some]
              exact all_and_not good bad fields
      | _ => rfl
  | _ + 2 => rfl

theorem any_partialSuccesses (bad : Protobuf.Record → Bool) (fields : List Protobuf.Record) :
    (fields.any fun first => ((partialSuccess? first).getD []).any bad) =
      (partialSuccesses fields).flatten.any bad := by
  induction fields with
  | nil => rfl
  | cons first fields ih =>
      rw [List.any_cons, ih, partialSuccesses, partialSuccesses, List.filterMap_cons]
      cases partialSuccess? first with
      | none => rfl
      | some inner => rw [Option.getD_some, List.flatten_cons, List.any_append]

/-- The fields of a response are refused for their types, or for what is in them. -/
theorem all_isResponseField (good bad : Protobuf.Record → Bool) (fields : List Protobuf.Record) :
    (fields.all (isResponseField fun field => good field && !bad field)) =
      (fields.all (isResponseField good) && !(partialSuccesses fields).flatten.any bad) := by
  rw [← any_partialSuccesses, ← all_and_not]
  exact congrArg fields.all (funext fun first => isResponseField_and good bad first)

/-! ## What is reported -/

theorem foldl_rejected (fields : List Protobuf.Record) (rejected : Option UInt64) :
    fields.foldl (fun rejected first => (rejectedSpans? first).or rejected) rejected =
      (lastRejected fields).or rejected := by
  rw [lastRejected]
  induction fields using List.reverseRecOn with
  | nil => rfl
  | append_singleton fields last ih =>
      rw [List.foldl_append, List.foldl_append, ih]
      exact Option.or_assoc.symm

theorem lastRejected_append (front back : List Protobuf.Record) :
    lastRejected (front ++ back) = (lastRejected back).or (lastRejected front) := by
  rw [lastRejected, List.foldl_append, foldl_rejected]
  rfl

theorem lastRejected_singleton (first : Protobuf.Record) :
    lastRejected [first] = rejectedSpans? first := Option.or_none

/-- The doctor reports what the last `partial_success` carries. -/
theorem foldl_partialSuccess (fields : List Protobuf.Record) (rejected : Option UInt64) :
    fields.foldl (fun rejected first => (partialSuccess? first).elim rejected lastRejected)
        rejected =
      (partialSuccesses fields).getLast?.elim rejected lastRejected := by
  induction fields using List.reverseRecOn with
  | nil => rfl
  | append_singleton fields last ih =>
      rw [List.foldl_append, ih, partialSuccesses, partialSuccesses, List.filterMap_append,
        List.foldl_cons, List.foldl_nil, List.filterMap_cons, List.filterMap_nil]
      cases partialSuccess? last with
      | none => rw [List.append_nil]; rfl
      | some inner => rw [List.getLast?_concat]; rfl

theorem foldl_updatePartial (fields : List Protobuf.Record) (message : PartialSuccess) :
    (fields.foldl updatePartial message).rejectedSpans =
      ((lastRejected fields).map fun value => value.toInt64.toInt).or message.rejectedSpans := by
  induction fields using List.reverseRecOn with
  | nil => rfl
  | append_singleton fields last ih =>
      rw [List.foldl_append, lastRejected_append, lastRejected_singleton, Option.map_or,
        Option.or_assoc, ← ih]
      rfl

/-- The daemon decodes what all of them carry. -/
theorem foldl_message (fields : List Protobuf.Record) :
    (fields.foldl (fun message first => (partialSuccess? first).elim message fun inner =>
      some (inner.foldl updatePartial (message.getD ⟨none, none⟩))) none).bind
        PartialSuccess.rejectedSpans =
      (lastRejected (partialSuccesses fields).flatten).map fun value => value.toInt64.toInt := by
  induction fields using List.reverseRecOn with
  | nil => rfl
  | append_singleton fields last ih =>
      rw [List.foldl_append, partialSuccesses, List.filterMap_append, List.flatten_append,
        lastRejected_append, Option.map_or, ← partialSuccesses, ← partialSuccesses, ← ih,
        partialSuccesses, List.foldl_cons, List.foldl_nil, List.filterMap_cons,
        List.filterMap_nil]
      cases partialSuccess? last with
      | none => rfl
      | some inner =>
          rw [Option.elim_some, Option.bind_some, foldl_updatePartial, List.flatten_cons,
            List.flatten_nil, List.append_nil]
          congr 1
          cases List.foldl _ _ fields <;> rfl

theorem toInt64_toInt_iff (value : UInt64) :
    (value.toNat : Int) = value.toInt64.toInt ↔ value.toNat < 2 ^ 63 := by
  have few := value.toNat_lt
  show (value.toNat : Int) = value.toBitVec.toInt ↔ _
  rw [BitVec.toInt_eq_toNat_cond]
  show (value.toNat : Int) = (if 2 * value.toNat < 2 ^ 64 then (value.toNat : Int)
    else (value.toNat : Int) - (2 ^ 64 : Nat)) ↔ _
  split <;> omega

/-! ## Agreement -/

/-- The doctor accepts a response of well-typed fields without fields of fixed width. -/
theorem parse_answers (body : Slice) {fields : List Protobuf.Record}
    (read : Protobuf.records body.bytes = some fields) :
    Answers (parseOtlpResponse body)
      (if fields.all (isResponseField wellTyped) &&
          !(partialSuccesses fields).flatten.any fixedWidth then
        some ((partialSuccesses fields).getLast?.elim none lastRejected)
      else none) := by
  have answers := parseOtlpResponse_answers body
  rw [Protobuf.fold, read, Option.bind_some, Protobuf.foldlM_of_accepts responseField_eq,
    foldl_partialSuccess, all_isResponseField] at answers
  exact answers

theorem decodeResponse_eq {body : List UInt8} {fields : List Protobuf.Record}
    (read : Protobuf.records body = some fields) :
    (decodeResponse body).map (·.bind PartialSuccess.rejectedSpans) =
      if fields.all (isResponseField wellTyped) && !(fields.any longKey ||
          (partialSuccesses fields).flatten.any fun first => longKey first || notText first) then
        some ((lastRejected (partialSuccesses fields).flatten).map fun value => value.toInt64.toInt)
      else none := by
  rw [decodeResponse, Protobuf.fold, read, Option.bind_some,
    Protobuf.foldlM_of_accepts mergeResponseField_eq]
  rw [all_and_not (isResponseField _) longKey, all_isResponseField, Bool.and_assoc,
    ← Bool.not_or, Bool.or_comm]
  split
  · rw [Option.map_some, foldl_message]
  · rfl

theorem lastRejected_flatten {fields : List (List Protobuf.Record)} {final : List Protobuf.Record}
    {count : UInt64} (last : fields.getLast? = some final) (carried : lastRejected final = some count) :
    lastRejected fields.flatten = some count := by
  obtain ⟨front, rfl⟩ := List.getLast?_eq_some_iff.mp last
  rw [List.flatten_append, lastRejected_append, List.flatten_singleton, carried, Option.some_or]

/-- What the last `partial_success` carries is what all of them carry. -/
theorem reported_iff (fields : List (List Protobuf.Record)) :
    (∀ spans, ((lastRejected fields.flatten).map fun value => value.toInt64.toInt) = some spans →
      ((fields.getLast?.elim none lastRejected).map fun count => (count.toNat : Int)) =
        some spans) ↔
    ∀ value, lastRejected fields.flatten = some value → value.toNat < 2 ^ 63 ∧
      ∃ final, fields.getLast? = some final ∧ (lastRejected final).isSome = true := by
  constructor
  · intro reports value carried
    obtain ⟨count, reported, same⟩ := Option.map_eq_some_iff.mp
      (reports value.toInt64.toInt (by rw [carried]; rfl))
    cases last : fields.getLast? with
    | none =>
        rw [last] at reported
        cases reported
    | some final =>
        rw [last, Option.elim_some] at reported
        have both := lastRejected_flatten last reported
        rw [carried] at both
        cases both
        exact ⟨(toInt64_toInt_iff value).mp same, final, rfl, by rw [reported]; rfl⟩
  · intro carries spans decoded
    obtain ⟨value, carried, rfl⟩ := Option.map_eq_some_iff.mp decoded
    obtain ⟨small, final, last, there⟩ := carries value carried
    obtain ⟨count, reported⟩ := Option.isSome_iff_exists.mp there
    have both := lastRejected_flatten last reported
    rw [carried] at both
    cases both
    rw [last, Option.elim_some, reported, Option.map_some, (toInt64_toInt_iff value).mpr small]

theorem agrees_of_refused {body : Slice} (fails : ∃ error, parseOtlpResponse body = fails error)
    (refused : decodeResponse body.bytes = none) : Agrees body := by
  obtain ⟨error, run⟩ := fails
  refine ⟨?_, ?_⟩
  · rw [run, refused]
    exact ⟨fun ⟨_, returned⟩ => (nomatch returned), fun decoded => (nomatch decoded)⟩
  · intro reported message returned
    rw [run] at returned
    cases returned

theorem not_agrees_of_fails {body : Slice} (fails : ∃ error, parseOtlpResponse body = fails error)
    (decoded : (decodeResponse body.bytes).isSome = true) : ¬Agrees body := by
  obtain ⟨error, run⟩ := fails
  intro agrees
  obtain ⟨reported, returned⟩ := agrees.accepted.mpr decoded
  rw [run] at returned
  cases returned

theorem ne_stuck_of_answers {α : Type} {outcome : Outcome α} {expected : Option α}
    (answers : Answers outcome expected) : outcome ≠ stuck := by
  cases expected with
  | none =>
      obtain ⟨error, rfl⟩ := answers
      exact fun same => nomatch same
  | some value =>
      obtain rfl := show outcome = returns value from answers
      exact fun same => nomatch same

/-- A body of well-typed fields. -/
theorem agrees_iff_plain {body : Slice} {fields : List Protobuf.Record}
    (read : Protobuf.records body.bytes = some fields)
    (typed : fields.all (isResponseField wellTyped) = true) : Agrees body ↔ Plain fields := by
  have parsed := parse_answers body read
  have decoded := decodeResponse_eq read
  rw [typed, Bool.true_and] at parsed decoded
  cases fixed : (partialSuccesses fields).flatten.any fixedWidth with
  | true =>
      rw [fixed] at parsed
      cases beyond : (fields.any longKey || (partialSuccesses fields).flatten.any
        fun first => longKey first || notText first) with
      | true =>
          rw [beyond] at decoded
          refine iff_of_true (agrees_of_refused parsed (Option.map_eq_none_iff.mp decoded))
            ⟨fixed.trans beyond.symm, fun wide => ?_⟩
          rw [fixed] at wide
          cases wide
      | false =>
          rw [beyond] at decoded
          refine iff_of_false (not_agrees_of_fails parsed ?_) fun plain => ?_
          · obtain ⟨message, decodes, _⟩ := Option.map_eq_some_iff.mp decoded
            rw [decodes]
            rfl
          · have same := plain.same
            rw [fixed, beyond] at same
            cases same
  | false =>
      rw [fixed] at parsed
      have run : parseOtlpResponse body = returns _ := parsed
      cases beyond : (fields.any longKey || (partialSuccesses fields).flatten.any
        fun first => longKey first || notText first) with
      | true =>
          rw [beyond] at decoded
          refine iff_of_false (fun agrees => ?_) fun plain => ?_
          · have accepted := agrees.accepted.mp ⟨_, run⟩
            rw [Option.map_eq_none_iff.mp decoded] at accepted
            cases accepted
          · have same := plain.same
            rw [fixed, beyond] at same
            cases same
      | false =>
          rw [beyond] at decoded
          obtain ⟨message, decodes, carried⟩ := Option.map_eq_some_iff.mp decoded
          have reports := reported_iff (partialSuccesses fields)
          rw [← carried] at reports
          constructor
          · intro agrees
            exact ⟨fixed.trans beyond.symm, fun _ =>
              reports.mp (agrees.reported _ message run decodes)⟩
          · intro plain
            refine ⟨⟨fun _ => by rw [decodes]; rfl, fun _ => ⟨_, run⟩⟩, ?_⟩
            intro reported message' returned decoded'
            rw [run] at returned
            rw [decodes] at decoded'
            cases returned
            cases decoded'
            exact reports.mpr (plain.counts fixed)

/-- The doctor never leaves the body or goes on forever; and it agrees with the daemon exactly if
the fields of the body, where they are well typed, are plain. -/
theorem parseOtlpResponse_agrees (body : Slice) :
    parseOtlpResponse body ≠ stuck ∧
      (Agrees body ↔ ∀ fields, Protobuf.records body.bytes = some fields →
        fields.all (isResponseField wellTyped) = true → Plain fields) := by
  have run := parseOtlpResponse_answers body
  refine ⟨ne_stuck_of_answers run, ?_⟩
  cases read : Protobuf.records body.bytes with
  | none =>
      rw [Protobuf.fold, read] at run
      refine iff_of_true (agrees_of_refused run ?_) (fun fields same => by cases same)
      rw [decodeResponse, Protobuf.fold, read]
      rfl
  | some fields =>
      have one : (∀ others, some fields = some others →
          others.all (isResponseField wellTyped) = true → Plain others) ↔
          (fields.all (isResponseField wellTyped) = true → Plain fields) :=
        ⟨fun all => all fields rfl, fun this others same => Option.some.inj same ▸ this⟩
      rw [one]
      cases typed : fields.all (isResponseField wellTyped) with
      | false =>
          have parsed := parse_answers body read
          have decoded := decodeResponse_eq read
          rw [typed] at parsed decoded
          exact iff_of_true (agrees_of_refused parsed (Option.map_eq_none_iff.mp decoded))
            (fun true => by cases true)
      | true =>
          rw [← agrees_iff_plain read typed]
          exact ⟨fun agrees _ => agrees, fun agrees => agrees rfl⟩

/-- A response with `rejected_spans` of -1. -/
def negativeResponse : Slice :=
  ⟨[0x0a, 0x0b, 0x08, 0xff, 0xff, 0xff, 0xff, 0xff, 0xff, 0xff, 0xff, 0xff, 0x01], by decide⟩

/-- A `partial_success` with `rejected_spans` of 2, and an empty one. -/
def repeatedResponse : Slice := ⟨[0x0a, 0x02, 0x08, 0x02, 0x0a, 0x00], by decide⟩

/-- A `partial_success` with a field 3 of 32 bits. -/
def fixedResponse : Slice := ⟨[0x0a, 0x05, 0x1d, 0x01, 0x02, 0x03, 0x04], by decide⟩

/-- An `error_message` that is not UTF-8. -/
def malformedResponse : Slice := ⟨[0x0a, 0x03, 0x12, 0x01, 0xff], by decide⟩

/-- A field of the number 2³². -/
def distantResponse : Slice := ⟨[0x80, 0x80, 0x80, 0x80, 0x80, 0x01, 0x00], by decide⟩

theorem parseOtlpResponse_disagrees :
    (¬Agrees negativeResponse ∧
      classifyOtlpResponse true (some "application/x-protobuf") negativeResponse =
        returns (.partiallyRejected 18446744073709551615)) ∧
      ¬Agrees repeatedResponse ∧ ¬Agrees fixedResponse ∧ ¬Agrees malformedResponse ∧
      ¬Agrees distantResponse := by
  refine ⟨⟨fun agrees => ?_, by decide +kernel⟩, fun agrees => ?_, fun agrees => ?_, fun agrees => ?_,
    fun agrees => ?_⟩
  · exact absurd (agrees.reported (some 18446744073709551615) (some ⟨some (-1), none⟩)
      (by decide +kernel) (by decide +kernel) (-1) rfl) (by decide)
  · exact absurd (agrees.reported none (some ⟨some 2, none⟩)
      (by decide +kernel) (by decide +kernel) 2 rfl) (by decide)
  · obtain ⟨reported, returned⟩ := agrees.accepted.mpr (by decide +kernel)
    have fails : parseOtlpResponse fixedResponse = fails "invalid partialSuccess protobuf" := by
      decide +kernel
    rw [fails] at returned
    cases returned
  · exact absurd (agrees.accepted.mp ⟨none, by decide +kernel⟩) (by decide +kernel)
  · exact absurd (agrees.accepted.mp ⟨none, by decide +kernel⟩) (by decide +kernel)

end AgentOtelBridge.OtlpResponse
