import Mathlib.Data.Set.Finite.Lattice
import AgentOtelBridge.Lib.CallLoop

/-!
# The native streams of the hook on Linux

The hook reads its input and writes its answer with the system calls `read` and `write`.  The system
may answer a call with fewer bytes than it asks for, with none, or with an error, and an interrupted
call is made again.

A system is a function of the number of the call and of what the call asks for.  It says how many
bytes the call has moved, never more than asked for.  `streams_exact` is about any two such systems.
-/

namespace AgentOtelBridge.NativeStreams

/-- `libc::EINTR`. -/
def EINTR : Nat := 4

/-- `errno` is that of the call just made. -/
def interrupted (errno : Nat) : Bool := errno == EINTR

/-- `[0u8; 4096]`. -/
def bufferLength : Nat := 4096

/-! ## The system -/

/-- How the system answers `read`: the bytes it put into a buffer of some capacity, or `errno`.  At
the end of the file there are none. -/
structure Reads where
  answer : Nat → Nat → Except Nat (List UInt8)
  short : ∀ call capacity chunk, answer call capacity = .ok chunk → chunk.length ≤ capacity

/-- How the system answers `write`: the number of bytes that it took from a slice, or `errno`. -/
structure Writes where
  answer : Nat → List UInt8 → Except Nat Nat
  short : ∀ call slice count, answer call slice = .ok count → count ≤ slice.length

/-- The calls that may be interrupted. -/
def interruptions {Request Moved : Type} (answer : Nat → Request → Except Nat Moved) : Set Nat :=
  {call | ∃ request errno, answer call request = .error errno ∧ interrupted errno = true}

/-! ## The loops -/

def readLoop (max : Nat) :
    CallLoop (List UInt8) Nat (Except Nat (List UInt8)) (List UInt8) where
  next bytes :=
    if bytes.length < max then .inr (min bufferLength (max - bytes.length)) else .inl bytes
  resume bytes _ answer :=
    match answer with
    | .ok chunk => if 0 < chunk.length then .inr (bytes ++ chunk) else .inl bytes
    | .error errno => if interrupted errno then .inr bytes else .inl bytes

/-- `read_stdin_capped`, with its calls. -/
def readStdinCapped (reads : Reads) (max fuel : Nat) :
    Option (List UInt8 × List (Nat × Except Nat (List UInt8))) :=
  (readLoop max).run reads.answer fuel [] []

/-- The state is the offset of the rest. -/
def writeLoop (bytes : List UInt8) : CallLoop Nat (List UInt8) (Except Nat Nat) Bool where
  next offset := if offset < bytes.length then .inr (bytes.drop offset) else .inl true
  resume offset _ answer :=
    match answer with
    | .ok count => if 0 < count then .inr (offset + count) else .inl false
    | .error errno => if interrupted errno then .inr offset else .inl false

/-- `write_stdout`, with its calls. -/
def writeStdout (writes : Writes) (bytes : List UInt8) (fuel : Nat) :
    Option (Bool × List (List UInt8 × Except Nat Nat)) :=
  (writeLoop bytes).run writes.answer fuel 0 []

/-! ## What a run has done -/

/-- The bytes of an answer to `read`. -/
def chunkOf : Except Nat (List UInt8) → List UInt8
  | .ok chunk => chunk
  | .error _ => []

/-- The number of bytes of an answer to `write`. -/
def countOf : Except Nat Nat → Nat
  | .ok count => count
  | .error _ => 0

/-- The bytes that the calls of a log have read. -/
def received (calls : List (Nat × Except Nat (List UInt8))) : List UInt8 :=
  calls.flatMap fun call => chunkOf call.2

/-- The bytes that the calls of a log have written. -/
def written (calls : List (List UInt8 × Except Nat Nat)) : List UInt8 :=
  calls.flatMap fun call => call.1.take (countOf call.2)

/-- An answer after which there is another call: some bytes, or an interruption. -/
def GoesOn {Moved : Type} (size : Moved → Nat) : Except Nat Moved → Prop
  | .ok moved => 0 < size moved
  | .error errno => interrupted errno = true

/-- Each call of a log that reads asks for some bytes, for no more than fit in the buffer and none
above the cap, and its answer is that of the system. -/
def Asked (reads : Reads) (max : Nat) (calls : List (Nat × Except Nat (List UInt8))) : Prop :=
  ∀ before call, before ++ [call] <+: calls →
    0 < call.1 ∧ call.1 ≤ bufferLength ∧ (received before).length + call.1 ≤ max ∧
      call.2 = reads.answer before.length call.1

/-- Each call of a log that writes offers the rest of the bytes. -/
def Offered (writes : Writes) (bytes : List UInt8)
    (calls : List (List UInt8 × Except Nat Nat)) : Prop :=
  ∀ before call, before ++ [call] <+: calls →
    call.1 ≠ [] ∧ written before ++ call.1 = bytes ∧
      call.2 = writes.answer before.length call.1

/-- All calls of a log but the last one went on, and the last one did not. -/
def Ended {Request Moved : Type} (size : Moved → Nat) (calls : List (Request × Except Nat Moved)) :
    Prop :=
  ∃ before last, calls = before ++ [last] ∧ (∀ call ∈ before, GoesOn size call.2) ∧
    ¬GoesOn size last.2

/-- The bytes are those of the calls, up to the cap or to the first call that did not go on. -/
structure ReadsExactly (reads : Reads) (max : Nat) (bytes : List UInt8)
    (calls : List (Nat × Except Nat (List UInt8))) : Prop where
  content : bytes = received calls
  capped : bytes.length ≤ max
  asked : Asked reads max calls
  ended : (bytes.length = max ∧ ∀ call ∈ calls, GoesOn List.length call.2) ∨ Ended List.length calls

/-- The calls have written a beginning of the bytes.  It is all of them exactly if the loop says
so. -/
structure WritesExactly (writes : Writes) (bytes : List UInt8) (sent : Bool)
    (calls : List (List UInt8 × Except Nat Nat)) : Prop where
  whole : sent = true ↔ written calls = bytes
  part : written calls <+: bytes
  offered : Offered writes bytes calls
  ended : (sent = true ∧ ∀ call ∈ calls, GoesOn id call.2) ∨ (sent = false ∧ Ended id calls)

/-! ## Answers -/

/-- An interrupted call is made again with the same rest. -/
theorem readLoop_goes_on {max request : Nat} {bytes next : List UInt8}
    {answer : Except Nat (List UInt8)}
    (resumed : (readLoop max).resume bytes request answer = .inr next) :
    GoesOn List.length answer ∧ next = bytes ++ chunkOf answer := by
  cases answer with
  | ok chunk =>
      simp only [readLoop] at resumed
      split at resumed
      · next positive => cases resumed; exact ⟨positive, rfl⟩
      · cases resumed
  | error errno =>
      simp only [readLoop] at resumed
      split at resumed
      · next again => cases resumed; exact ⟨again, (List.append_nil bytes).symm⟩
      · cases resumed

theorem readLoop_stops {max request : Nat} {bytes result : List UInt8}
    {answer : Except Nat (List UInt8)}
    (resumed : (readLoop max).resume bytes request answer = .inl result) :
    ¬GoesOn List.length answer ∧ chunkOf answer = [] ∧ result = bytes := by
  cases answer with
  | ok chunk =>
      simp only [readLoop] at resumed
      split at resumed
      · cases resumed
      · next empty =>
          cases resumed
          exact ⟨empty, List.eq_nil_of_length_eq_zero (Nat.eq_zero_of_not_pos empty), rfl⟩
  | error errno =>
      simp only [readLoop] at resumed
      split at resumed
      · cases resumed
      · next failed => cases resumed; exact ⟨failed, rfl, rfl⟩

theorem writeLoop_goes_on {bytes slice : List UInt8} {offset next : Nat} {answer : Except Nat Nat}
    (resumed : (writeLoop bytes).resume offset slice answer = .inr next) :
    GoesOn id answer ∧ next = offset + countOf answer := by
  cases answer with
  | ok count =>
      simp only [writeLoop] at resumed
      split at resumed
      · next positive => cases resumed; exact ⟨positive, rfl⟩
      · cases resumed
  | error errno =>
      simp only [writeLoop] at resumed
      split at resumed
      · next again => cases resumed; exact ⟨again, rfl⟩
      · cases resumed

theorem writeLoop_stops {bytes slice : List UInt8} {offset : Nat} {sent : Bool}
    {answer : Except Nat Nat}
    (resumed : (writeLoop bytes).resume offset slice answer = .inl sent) :
    ¬GoesOn id answer ∧ countOf answer = 0 ∧ sent = false := by
  cases answer with
  | ok count =>
      simp only [writeLoop] at resumed
      split at resumed
      · cases resumed
      · next zero => cases resumed; exact ⟨zero, Nat.eq_zero_of_not_pos zero, rfl⟩
  | error errno =>
      simp only [writeLoop] at resumed
      split at resumed
      · cases resumed
      · next failed => cases resumed; exact ⟨failed, rfl, rfl⟩

/-! ## Logs -/

theorem received_snoc (calls : List (Nat × Except Nat (List UInt8)))
    (call : Nat × Except Nat (List UInt8)) :
    received (calls ++ [call]) = received calls ++ chunkOf call.2 := by
  rw [received, List.flatMap_append, List.flatMap_singleton, received]

theorem written_snoc (calls : List (List UInt8 × Except Nat Nat))
    (call : List UInt8 × Except Nat Nat) :
    written (calls ++ [call]) = written calls ++ call.1.take (countOf call.2) := by
  rw [written, List.flatMap_append, List.flatMap_singleton, written]

theorem Asked.snoc {reads : Reads} {max request : Nat}
    {calls : List (Nat × Except Nat (List UInt8))} (asked : Asked reads max calls)
    (positive : 0 < request) (fits : request ≤ bufferLength)
    (below : (received calls).length + request ≤ max) :
    Asked reads max (calls ++ [(request, reads.answer calls.length request)]) := by
  intro before call start
  rcases snoc_prefix_snoc.mp start with ⟨rfl, rfl⟩ | earlier
  · exact ⟨positive, fits, below, rfl⟩
  · exact asked before call earlier

theorem Offered.snoc {writes : Writes} {bytes slice : List UInt8}
    {calls : List (List UInt8 × Except Nat Nat)} (offered : Offered writes bytes calls)
    (left : slice ≠ []) (rest : written calls ++ slice = bytes) :
    Offered writes bytes (calls ++ [(slice, writes.answer calls.length slice)]) := by
  intro before call start
  rcases snoc_prefix_snoc.mp start with ⟨rfl, rfl⟩ | earlier
  · exact ⟨left, rest, rfl⟩
  · exact offered before call earlier

theorem goes_on_snoc {Request Moved : Type} {size : Moved → Nat}
    {calls : List (Request × Except Nat Moved)} {last : Request × Except Nat Moved}
    (others : ∀ call ∈ calls, GoesOn size call.2) (goes_on : GoesOn size last.2) :
    ∀ call ∈ calls ++ [last], GoesOn size call.2 := by
  intro call present
  rcases List.mem_append.mp present with earlier | present
  · exact others call earlier
  · rw [List.mem_singleton.mp present]
    exact goes_on

/-! ## Reading -/

/-- What holds before each round of `readLoop`. -/
structure Reading (reads : Reads) (max : Nat) (bytes : List UInt8)
    (calls : List (Nat × Except Nat (List UInt8))) : Prop where
  content : bytes = received calls
  capped : bytes.length ≤ max
  asked : Asked reads max calls
  went_on : ∀ call ∈ calls, GoesOn List.length call.2

theorem Reading.start (reads : Reads) (max : Nat) : Reading reads max [] [] where
  content := rfl
  capped := Nat.zero_le max
  asked before call start := by simp at start
  went_on call present := by cases present

/-- The test of `readLoop` asks for what remains below the cap. -/
theorem readLoop_request {max request : Nat} {bytes : List UInt8}
    (next : (readLoop max).next bytes = .inr request) :
    bytes.length < max ∧ request = min bufferLength (max - bytes.length) := by
  simp only [readLoop] at next
  split at next
  · next more => cases next; exact ⟨more, rfl⟩
  · cases next

theorem Reading.asked_snoc {reads : Reads} {max request : Nat} {bytes : List UInt8}
    {calls : List (Nat × Except Nat (List UInt8))} (reading : Reading reads max bytes calls)
    (next : (readLoop max).next bytes = .inr request) :
    Asked reads max (calls ++ [(request, reads.answer calls.length request)]) := by
  obtain ⟨more, rfl⟩ := readLoop_request next
  have buffer : 0 < bufferLength := by decide
  apply reading.asked.snoc
  · omega
  · exact Nat.min_le_left _ _
  · rw [← reading.content]
    omega

theorem Reading.step {reads : Reads} {max request : Nat} {bytes bytes' : List UInt8}
    {calls : List (Nat × Except Nat (List UInt8))} (reading : Reading reads max bytes calls)
    (next : (readLoop max).next bytes = .inr request)
    (resumed : (readLoop max).resume bytes request (reads.answer calls.length request) =
      .inr bytes') :
    Reading reads max bytes' (calls ++ [(request, reads.answer calls.length request)]) := by
  obtain ⟨goes_on, rfl⟩ := readLoop_goes_on resumed
  obtain ⟨more, asked⟩ := readLoop_request next
  refine ⟨?_, ?_, reading.asked_snoc next, goes_on_snoc reading.went_on goes_on⟩
  · rw [received_snoc, reading.content]
  · -- no answer is longer than what was asked for
    cases answered : reads.answer calls.length request with
    | ok chunk =>
        have short := reads.short _ _ _ answered
        rw [chunkOf, List.length_append]
        omega
    | error errno =>
        rw [chunkOf, List.append_nil]
        exact reading.capped

/-- Each run of `read_stdin_capped` that returns is exact. -/
theorem readStdinCapped_exactly {reads : Reads} {max fuel : Nat} {bytes : List UInt8}
    {calls : List (Nat × Except Nat (List UInt8))}
    (ran : readStdinCapped reads max fuel = some (bytes, calls)) :
    ReadsExactly reads max bytes calls := by
  refine CallLoop.run_rule (Reading reads max) (ReadsExactly reads max) ?_ ?_ ?_
    (Reading.start reads max) ran
  · intro state calls result reading next
    simp only [readLoop] at next
    split at next
    · cases next
    · next full =>
        cases next
        have all : state.length = max := Nat.le_antisymm reading.capped (Nat.le_of_not_lt full)
        exact ⟨reading.content, reading.capped, reading.asked, .inl ⟨all, reading.went_on⟩⟩
  · intro state calls request result reading next resumed
    obtain ⟨stops, nothing, rfl⟩ := readLoop_stops resumed
    refine ⟨?_, reading.capped, reading.asked_snoc next, .inr ⟨calls, _, rfl, reading.went_on, stops⟩⟩
    rw [received_snoc, nothing, List.append_nil]
    exact reading.content
  · intro state calls request state' reading next resumed
    exact reading.step next resumed

/-- `read_stdin_capped` returns if it is interrupted a finite number of times. -/
theorem readStdinCapped_returns (reads : Reads) (max : Nat)
    (finite : (interruptions reads.answer).Finite) :
    ∃ enough outcome, ∀ fuel, enough ≤ fuel → readStdinCapped reads max fuel = some outcome := by
  obtain ⟨last, bound⟩ := finite.bddAbove
  apply CallLoop.run_returns (fun bytes => max - bytes.length) (last + 1)
  intro bytes call request next asked resumed
  obtain ⟨more, -⟩ := readLoop_request asked
  obtain ⟨goes_on, rfl⟩ := readLoop_goes_on resumed
  cases answered : reads.answer call request with
  | ok chunk =>
      left
      rw [answered] at goes_on
      have positive : 0 < chunk.length := goes_on
      rw [chunkOf, List.length_append]
      omega
  | error errno =>
      right
      rw [answered] at goes_on
      have early : call ≤ last := bound ⟨request, errno, answered, goes_on⟩
      rw [chunkOf, List.append_nil]
      exact ⟨rfl, Nat.lt_succ_of_le early⟩

/-! ## Writing -/

/-- What holds before each round of `writeLoop`. -/
structure Writing (writes : Writes) (bytes : List UInt8) (offset : Nat)
    (calls : List (List UInt8 × Except Nat Nat)) : Prop where
  content : written calls = bytes.take offset
  inside : offset ≤ bytes.length
  offered : Offered writes bytes calls
  went_on : ∀ call ∈ calls, GoesOn id call.2

theorem Writing.start (writes : Writes) (bytes : List UInt8) : Writing writes bytes 0 [] where
  content := rfl
  inside := Nat.zero_le _
  offered before call start := by simp at start
  went_on call present := by cases present

/-- The test of `writeLoop` offers the rest. -/
theorem writeLoop_request {bytes slice : List UInt8} {offset : Nat}
    (next : (writeLoop bytes).next offset = .inr slice) :
    offset < bytes.length ∧ slice = bytes.drop offset := by
  simp only [writeLoop] at next
  split at next
  · next more => cases next; exact ⟨more, rfl⟩
  · cases next

theorem Writing.offered_snoc {writes : Writes} {bytes slice : List UInt8} {offset : Nat}
    {calls : List (List UInt8 × Except Nat Nat)} (writing : Writing writes bytes offset calls)
    (next : (writeLoop bytes).next offset = .inr slice) :
    Offered writes bytes (calls ++ [(slice, writes.answer calls.length slice)]) := by
  obtain ⟨more, rfl⟩ := writeLoop_request next
  apply writing.offered.snoc
  · intro nothing
    have short := List.drop_eq_nil_iff.mp nothing
    omega
  · rw [writing.content, List.take_append_drop]

theorem Writing.step {writes : Writes} {bytes slice : List UInt8} {offset offset' : Nat}
    {calls : List (List UInt8 × Except Nat Nat)} (writing : Writing writes bytes offset calls)
    (next : (writeLoop bytes).next offset = .inr slice)
    (resumed : (writeLoop bytes).resume offset slice (writes.answer calls.length slice) =
      .inr offset') :
    Writing writes bytes offset' (calls ++ [(slice, writes.answer calls.length slice)]) := by
  obtain ⟨goes_on, rfl⟩ := writeLoop_goes_on resumed
  obtain ⟨more, rest⟩ := writeLoop_request next
  refine ⟨?_, ?_, writing.offered_snoc next, goes_on_snoc writing.went_on goes_on⟩
  · rw [written_snoc, writing.content, rest, List.take_add]
  · -- the system does not take more than it was offered
    cases answered : writes.answer calls.length slice with
    | ok count =>
        have short := writes.short _ _ _ answered
        rw [rest, List.length_drop] at short
        rw [countOf]
        omega
    | error errno => exact writing.inside

/-- Each run of `write_stdout` that returns is exact. -/
theorem writeStdout_exactly {writes : Writes} {bytes : List UInt8} {fuel : Nat} {sent : Bool}
    {calls : List (List UInt8 × Except Nat Nat)}
    (ran : writeStdout writes bytes fuel = some (sent, calls)) :
    WritesExactly writes bytes sent calls := by
  refine CallLoop.run_rule (Writing writes bytes) (WritesExactly writes bytes) ?_ ?_ ?_
    (Writing.start writes bytes) ran
  · intro offset calls result writing next
    simp only [writeLoop] at next
    split at next
    · cases next
    · next past =>
        cases next
        have all : written calls = bytes := by
          rw [writing.content]
          exact List.take_of_length_le (Nat.le_of_not_lt past)
        exact ⟨iff_of_true rfl all, all ▸ List.prefix_rfl, writing.offered,
          .inl ⟨rfl, writing.went_on⟩⟩
  · intro offset calls slice result writing next resumed
    obtain ⟨stops, nothing, rfl⟩ := writeLoop_stops resumed
    obtain ⟨more, -⟩ := writeLoop_request next
    have content : written (calls ++ [(slice, writes.answer calls.length slice)]) =
        bytes.take offset := by
      rw [written_snoc, nothing, List.take_zero, List.append_nil, writing.content]
    refine ⟨iff_of_false Bool.false_ne_true ?_, ?_, writing.offered_snoc next,
      .inr ⟨rfl, calls, _, rfl, writing.went_on, stops⟩⟩
    · intro all
      rw [content, List.take_eq_self_iff] at all
      omega
    · rw [content]
      exact List.take_prefix _ _
  · intro offset calls slice offset' writing next resumed
    exact writing.step next resumed

/-- `write_stdout` returns if it is interrupted a finite number of times. -/
theorem writeStdout_returns (writes : Writes) (bytes : List UInt8)
    (finite : (interruptions writes.answer).Finite) :
    ∃ enough outcome, ∀ fuel, enough ≤ fuel → writeStdout writes bytes fuel = some outcome := by
  obtain ⟨last, bound⟩ := finite.bddAbove
  apply CallLoop.run_returns (fun offset => bytes.length - offset) (last + 1)
  intro offset call slice next offered resumed
  obtain ⟨more, -⟩ := writeLoop_request offered
  obtain ⟨goes_on, rfl⟩ := writeLoop_goes_on resumed
  cases answered : writes.answer call slice with
  | ok count =>
      left
      rw [answered] at goes_on
      have positive : 0 < count := goes_on
      rw [countOf]
      omega
  | error errno =>
      right
      rw [answered] at goes_on
      have early : call ≤ last := bound ⟨slice, errno, answered, goes_on⟩
      exact ⟨rfl, Nat.lt_succ_of_le early⟩

/-! ## Both streams -/

/-- Both loops are exact for every system, and return if they are interrupted a finite number of
times. -/
theorem streams_exact (reads : Reads) (max : Nat) (writes : Writes) (bytes : List UInt8) :
    (∀ fuel taken calls, readStdinCapped reads max fuel = some (taken, calls) →
        ReadsExactly reads max taken calls) ∧
      ((interruptions reads.answer).Finite →
        ∃ enough outcome, ∀ fuel, enough ≤ fuel → readStdinCapped reads max fuel = some outcome) ∧
      (∀ fuel sent calls, writeStdout writes bytes fuel = some (sent, calls) →
        WritesExactly writes bytes sent calls) ∧
      ((interruptions writes.answer).Finite →
        ∃ enough outcome, ∀ fuel, enough ≤ fuel → writeStdout writes bytes fuel = some outcome) := by
  refine ⟨?_, readStdinCapped_returns reads max, ?_, writeStdout_returns writes bytes⟩
  · intro fuel taken calls ran
    exact readStdinCapped_exactly ran
  · intro fuel sent calls ran
    exact writeStdout_exactly ran

/-- A system that reads and writes by a list of answers, and all that is asked for after it. -/
def scriptedReads (script : List (Except Nat (List UInt8))) : Reads where
  answer call capacity := (script[call]?.getD (.ok [])).map (List.take capacity)
  short call capacity chunk answered := by
    cases given : script[call]?.getD (.ok []) with
    | ok whole =>
        rw [given] at answered
        cases answered
        exact List.length_take_le _ _
    | error errno => rw [given] at answered; cases answered

def scriptedWrites (script : List (Except Nat Nat)) : Writes where
  answer call slice := (script[call]?.getD (.ok slice.length)).map (min slice.length)
  short call slice count answered := by
    cases given : script[call]?.getD (.ok slice.length) with
    | ok whole =>
        rw [given] at answered
        cases answered
        exact Nat.min_le_left _ _
    | error errno => rw [given] at answered; cases answered

theorem scriptedReads_interruptions (script : List (Except Nat (List UInt8))) :
    (interruptions (scriptedReads script).answer).Finite := by
  refine (Set.finite_lt_nat script.length).subset ?_
  rintro call ⟨capacity, errno, answered, -⟩
  by_contra inside
  have late : script.length ≤ call := Nat.le_of_not_lt inside
  simp [scriptedReads, List.getElem?_eq_none late, Except.map] at answered

theorem scriptedWrites_interruptions (script : List (Except Nat Nat)) :
    (interruptions (scriptedWrites script).answer).Finite := by
  refine (Set.finite_lt_nat script.length).subset ?_
  rintro call ⟨slice, errno, answered, -⟩
  by_contra inside
  have late : script.length ≤ call := Nat.le_of_not_lt inside
  simp [scriptedWrites, List.getElem?_eq_none late, Except.map] at answered

/-- Short and interrupted calls, an input above the cap, and an error after two bytes. -/
theorem scripted_streams_exact :
    (∃ calls, ReadsExactly (scriptedReads [.ok [1, 2], .error EINTR, .ok [3, 4, 5]]) 4 [1, 2, 3, 4]
        calls) ∧
      (∃ enough outcome, ∀ fuel, enough ≤ fuel →
        readStdinCapped (scriptedReads [.ok [1, 2], .error EINTR, .ok [3, 4, 5]]) 4 fuel =
          some outcome) ∧
      (∃ calls, WritesExactly (scriptedWrites [.error EINTR, .ok 2, .error 32]) [6, 7, 8] false
        calls) ∧
      (∃ enough outcome, ∀ fuel, enough ≤ fuel →
        writeStdout (scriptedWrites [.error EINTR, .ok 2, .error 32]) [6, 7, 8] fuel =
          some outcome) := by
  obtain ⟨reading, read, writing, wrote⟩ :=
    streams_exact (scriptedReads [.ok [1, 2], .error EINTR, .ok [3, 4, 5]]) 4
      (scriptedWrites [.error EINTR, .ok 2, .error 32]) [6, 7, 8]
  exact ⟨⟨_, reading 9 _ _ rfl⟩, read (scriptedReads_interruptions _), ⟨_, writing 9 _ _ rfl⟩,
    wrote (scriptedWrites_interruptions _)⟩

end AgentOtelBridge.NativeStreams
