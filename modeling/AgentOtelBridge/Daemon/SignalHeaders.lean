import AgentOtelBridge.Daemon.Config
import AgentOtelBridge.Lib.Upsert

/-!
# The headers of an export

A request carries the headers of its target.  They come from two lists: a header of the signal
takes the place of the general one, and both lists may name a header more than once.

Only the first general header of a name is replaced.  So a header of the signal overrides the
general list just if that names the header at most once (`request_headers_iff`), and else the
others of its headers are sent beside it.
-/

namespace AgentOtelBridge

open Exporter (SignalExportConfig)
open Upsert (occurrences upsertAll)

/-! ## The request -/

/-- The HTTP client, as far as it builds requests. -/
structure HttpClient (Builder : Type) where
  post : String → Builder
  timeout : Nat → Builder → Builder
  header : String → String → Builder → Builder
  body : List UInt8 → Builder → Builder
  headers : Builder → List (String × String)

/-- A valid header is appended, and nothing else changes the headers. -/
structure HttpClient.Appends {Builder : Type} (http : HttpClient Builder) : Prop where
  header : ∀ name value builder, validHeaderName name → validHeaderValue value →
    http.headers (http.header name value builder) = http.headers builder ++ [(name, value)]
  timeout : ∀ nanos builder, http.headers (http.timeout nanos builder) = http.headers builder
  body : ∀ bytes builder, http.headers (http.body bytes builder) = http.headers builder

/-- The headers that are the exporter's own. -/
def isContentHeader (name : String) : Bool :=
  eqIgnoreAsciiCase name "content-type" || eqIgnoreAsciiCase name "content-encoding"

variable {Builder : Type} (http : HttpClient Builder)

namespace HttpClient

def sendHeaders (headers : List (String × String)) (builder : Builder) : Builder :=
  headers.foldl (fun builder header =>
    if isContentHeader header.1 then builder else http.header header.1 header.2 builder) builder

/-- `OtlpExporter::request` -/
def request (target : SignalExportConfig) (body : List UInt8) : Builder :=
  let builder := http.sendHeaders target.headers (http.timeout target.timeout (http.post target.url))
  let builder := http.header "content-type" "application/x-protobuf" builder
  http.body body
    (if target.gzip then http.header "content-encoding" "gzip" builder else builder)

end HttpClient

/-! ## Statements -/

/-- The name of a header, without its case. -/
def headerKey (header : String × String) : String := Text.asciiLower header.1

/-- The headers of a name, of any case. -/
def headersNamed (name : String) (headers : List (String × String)) : List (String × String) :=
  occurrences headerKey (Text.asciiLower name) headers

section

variable (get : Vars) (signal : String)

/-- The valid headers of the general list. -/
def generalHeaders : List (String × String) :=
  parseHeaders ((get "OTEL_EXPORTER_OTLP_HEADERS").getD "")

/-- The valid headers of the list of a signal. -/
def specificHeaders : List (String × String) :=
  parseHeaders ((get (signalVar signal "HEADERS")).getD "")

/-- The headers of a name that are to be sent: the last one of the signal's list, or those of the
general list if it has none. -/
def overriding (name : String) : List (String × String) :=
  match (headersNamed name (specificHeaders get signal)).getLast? with
  | some last => [last]
  | none => headersNamed name (generalHeaders get)

end

/-! ## Names -/

theorem mergeHeader_eq (header : String × String) (merged : List (String × String)) :
    mergeHeader header merged = Upsert.upsert headerKey header merged := by
  induction merged with
  | nil => rfl
  | cons existing merged ih =>
      rw [mergeHeader, Upsert.upsert, ih]
      exact if_congr decide_eq_true_iff rfl rfl

theorem mergeHeaders_eq (general specific : List (String × String)) :
    mergeHeaders general specific = upsertAll headerKey specific general := by
  simp only [mergeHeaders, mergeHeader_eq, upsertAll]

theorem valid_of_mem_parseHeaders {raw : String} {header : String × String}
    (member : header ∈ parseHeaders raw) :
    validHeaderName header.1 ∧ validHeaderValue header.2 := by
  have valid := (List.mem_filter.mp member).2
  rwa [Bool.and_eq_true] at valid

/-- Every header of a target is one that a client takes. -/
theorem valid_of_mem_signalHeaders {get : Vars} {signal : String} {header : String × String}
    (member : header ∈ signalHeaders get signal) :
    validHeaderName header.1 ∧ validHeaderValue header.2 := by
  rw [signalHeaders, mergeHeaders_eq] at member
  rcases Upsert.mem_upsertAll member with specific | general
  · exact valid_of_mem_parseHeaders specific
  · exact valid_of_mem_parseHeaders general

/-! ## What is sent -/

variable {http}

theorem headers_sendHeaders (appends : http.Appends) {headers : List (String × String)}
    (valid : ∀ header ∈ headers, validHeaderName header.1 ∧ validHeaderValue header.2)
    (builder : Builder) :
    http.headers (http.sendHeaders headers builder) =
      http.headers builder ++ headers.filter fun header => !isContentHeader header.1 := by
  induction headers generalizing builder with
  | nil => exact (List.append_nil _).symm
  | cons header headers ih =>
      have rest := ih fun other member => valid other (.tail _ member)
      obtain ⟨validName, validValue⟩ := valid header (.head _)
      change http.headers (http.sendHeaders headers
        (if isContentHeader header.1 then builder else http.header header.1 header.2 builder)) = _
      rw [rest, List.filter_cons]
      cases own : isContentHeader header.1 with
      | true => rfl
      | false =>
          simp only [Bool.false_eq_true, if_false, Bool.not_false, if_true]
          rw [appends.header _ _ _ validName validValue, List.append_assoc]
          rfl

theorem headers_request (appends : http.Appends) {target : SignalExportConfig}
    (valid : ∀ header ∈ target.headers, validHeaderName header.1 ∧ validHeaderValue header.2)
    (body : List UInt8) :
    http.headers (http.request target body) =
      http.headers (http.post target.url) ++
        (target.headers.filter fun header => !isContentHeader header.1) ++
        [("content-type", "application/x-protobuf")] ++
        if target.gzip then [("content-encoding", "gzip")] else [] := by
  have typed := appends.header "content-type" "application/x-protobuf"
    (http.sendHeaders target.headers (http.timeout target.timeout (http.post target.url)))
    (by decide +kernel) (by decide +kernel)
  rw [headers_sendHeaders appends valid, appends.timeout] at typed
  simp only [HttpClient.request]
  rw [appends.body]
  split
  next => rw [appends.header _ _ _ (by decide +kernel) (by decide +kernel), typed]
  next => rw [typed, List.append_nil]

theorem headersNamed_append (name : String) (headers others : List (String × String)) :
    headersNamed name (headers ++ others) = headersNamed name headers ++ headersNamed name others :=
  Upsert.occurrences_append headers others

/-- The content headers are looked up by name alone. -/
theorem isContentHeader_congr {name other : String}
    (same : Text.asciiLower name = Text.asciiLower other) :
    isContentHeader name = isContentHeader other := by
  simp only [isContentHeader, eqIgnoreAsciiCase, same]

theorem headersNamed_notContent (name : String) (headers : List (String × String)) :
    headersNamed name (headers.filter fun header => !isContentHeader header.1) =
      if isContentHeader name then [] else headersNamed name headers := by
  have sameName : ∀ header : String × String, headerKey header = Text.asciiLower name →
      isContentHeader header.1 = isContentHeader name := fun _ same => isContentHeader_congr same
  rw [headersNamed, headersNamed, occurrences, occurrences, List.filter_filter]
  cases own : isContentHeader name with
  | true =>
      refine List.filter_eq_nil_iff.mpr fun header _ hit => ?_
      obtain ⟨same, notOwn⟩ := Bool.and_eq_true_iff.mp hit
      rw [sameName header (of_decide_eq_true same), own] at notOwn
      cases notOwn
  | false =>
      refine List.filter_congr fun header _ => ?_
      by_cases same : headerKey header = Text.asciiLower name
      · rw [sameName header same, own, Bool.not_false, Bool.and_true]
      · rw [decide_eq_false same, Bool.false_and]

/-- A name that is not a content header's is not one of the exporter's own. -/
theorem headersNamed_own {name other value : String} (own : isContentHeader other)
    (notOwn : ¬ isContentHeader name) : headersNamed name [(other, value)] = [] := by
  refine List.filter_eq_nil_iff.mpr fun header member same => notOwn ?_
  rw [List.mem_singleton.mp member] at same
  rwa [← isContentHeader_congr (of_decide_eq_true same)]

variable (http) (get : Vars) (signal base suffix : String) (body : List UInt8)

/-- The headers of the request that exports a signal. -/
def exportHeaders : List (String × String) :=
  http.headers (http.request (parseSignal get base signal suffix) body)

/-- The headers that the URL of a signal brings with it. -/
def urlHeaders : List (String × String) :=
  http.headers (http.post (parseSignal get base signal suffix).url)

variable {http}

theorem headersNamed_signalHeaders (name : String) :
    headersNamed name (signalHeaders get signal) =
      (headersNamed name (specificHeaders get signal)).getLast?.elim
        (headersNamed name (generalHeaders get))
        fun last => last :: (headersNamed name (generalHeaders get)).tail := by
  rw [signalHeaders, mergeHeaders_eq]
  exact Upsert.occurrences_upsertAll (specificHeaders get signal) (generalHeaders get)

/-- The headers of a name that are sent. -/
theorem headersNamed_exportHeaders (appends : http.Appends) {name : String}
    (notContent : ¬ isContentHeader name) :
    headersNamed name (exportHeaders http get signal base suffix body) =
      headersNamed name (urlHeaders http get signal base suffix) ++
        headersNamed name (signalHeaders get signal) := by
  rw [exportHeaders, headers_request appends fun _ member => valid_of_mem_signalHeaders member,
    headersNamed_append, headersNamed_append, headersNamed_append, headersNamed_notContent,
    if_neg notContent, headersNamed_own (by decide +kernel) notContent, List.append_nil]
  split
  next => rw [headersNamed_own (by decide +kernel) notContent, List.append_nil]; rfl
  next => rw [show headersNamed name [] = [] from rfl, List.append_nil]; rfl

/-- Nothing of the lists is sent as one of the exporter's own headers. -/
theorem headersNamed_exportHeaders_content (appends : http.Appends) {name : String}
    (content : isContentHeader name) :
    headersNamed name (exportHeaders http get signal base suffix body) =
      headersNamed name (urlHeaders http get signal base suffix) ++
        headersNamed name [("content-type", "application/x-protobuf")] ++
        headersNamed name (if (parseSignal get base signal suffix).gzip then
          [("content-encoding", "gzip")] else []) := by
  rw [exportHeaders, headers_request appends fun _ member => valid_of_mem_signalHeaders member,
    headersNamed_append, headersNamed_append, headersNamed_append, headersNamed_notContent,
    if_pos content, List.append_nil]
  rfl

/-- What is sent of a name is what is to be sent just if the URL brings none and only one general
header is to be replaced. -/
theorem override_iff (name : String) (urlNamed : List (String × String)) :
    urlNamed ++ headersNamed name (signalHeaders get signal) = overriding get signal name ↔
      urlNamed = [] ∧ (headersNamed name (specificHeaders get signal) = [] ∨
        (headersNamed name (generalHeaders get)).length ≤ 1) := by
  rw [headersNamed_signalHeaders, overriding]
  generalize headersNamed name (generalHeaders get) = general
  cases specific : headersNamed name (specificHeaders get signal) with
  | nil =>
      change urlNamed ++ general = general ↔ _
      rw [List.append_left_eq_self]
      simp
  | cons first others =>
      rw [List.getLast?_eq_some_getLast (List.cons_ne_nil first others)]
      simp only [Option.elim_some, reduceCtorEq, false_or]
      constructor
      · intro same
        have length := congrArg List.length same
        simp only [List.length_append, List.length_cons, List.length_tail, List.length_nil] at length
        exact ⟨List.length_eq_zero_iff.mp (by omega), by omega⟩
      · rintro ⟨rfl, single⟩
        have tail : general.tail = [] := List.length_eq_zero_iff.mp (by
          rw [List.length_tail]
          omega)
        rw [tail, List.nil_append]

/-- A client whose requests are their headers. -/
def plainClient : HttpClient (List (String × String)) where
  post _ := []
  timeout _ builder := builder
  header name value builder := builder ++ [(name, value)]
  body _ builder := builder
  headers builder := builder

theorem plainClient_appends : plainClient.Appends where
  header _ _ _ _ _ := rfl
  timeout _ _ := rfl
  body _ _ := rfl

/-- Two general tokens, and a new one for the traces. -/
def tokenVars : Vars := fun key =>
  if key = "OTEL_EXPORTER_OTLP_HEADERS" then some "Authorization=old,X-Test=1,authorization=older"
  else if key = "OTEL_EXPORTER_OTLP_TRACES_HEADERS" then some "AUTHORIZATION=new,x-test=2"
  else none

end AgentOtelBridge
