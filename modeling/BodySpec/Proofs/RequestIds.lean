import BodySpec.Proofs.FailClosed
import BodySpec.Proofs.TextBytes

/-!
# One id for a request

A service with ids and records (`logged`) settles the id of a request before the inner service runs
(`Request.Identified`): it is the text of the first id header, if that has one, and the fresh id otherwise. The inner
service, the record and the answer then have the same id (`logged_identifies`).

On its way the id is a text twice and a header value twice. It survives because the text of a header value has the bytes
of the value (`headerText?_eq_some_iff`), so a text that was read can be set again.
-/

namespace BodySpec

/-! ## Records of completion -/

/-- Whether a record says that a request is completed. -/
def LogRecord.isCompletion (r : LogRecord) : Bool := r.message == "Request completed"

/-- A record of an answer with an id and a status. -/
structure LogRecord.Completes (r : LogRecord) (id : String) (status : Nat) : Prop where
  isCompletion : r.isCompletion = true
  id_eq : r.fields.lookup "request_id" = some id
  status_eq : r.fields.lookup "status" = some (toString status)

namespace Run

variable {α β : Type}

/-- The records in the log that say that a request is completed. -/
def completions (x : Run α) : List LogRecord := x.log.filter LogRecord.isCompletion

theorem completions_eq_nil {x : Run α} (h : x.Leaves fun e => ∀ r, e.record? = some r → r.isCompletion = false) :
    x.completions = [] := by
  refine List.filter_eq_nil_iff.mpr fun r hr => ?_
  obtain ⟨e, he, made⟩ := List.mem_filterMap.mp hr
  rw [h e he r made]
  exact Bool.false_ne_true

theorem completions_of_trace_append {x : Run α} {y : Run β} {entries : List Entry}
    (h : y.trace = x.trace ++ entries) :
    y.completions = x.completions ++ (entries.filterMap Entry.record?).filter LogRecord.isCompletion := by
  rw [completions, log, h, List.filterMap_append, List.filter_append]
  rfl

end Run

theorem Notice.isCompletion_toRecord (n : Notice) : n.toRecord.isCompletion = false := by
  cases n <;> rfl

/-- A guard says of no request that it is completed. -/
theorem Guard.completions_receive {g : Guard} {s : Specification} {options : Options}
    (h : s.compile options = .ok g.validator) (body : ByteArray) : (g.receive body).completions = [] := by
  refine Run.completions_eq_nil fun e he r hr => ?_
  cases e with
  | notice o n =>
    cases o with
    | log =>
      cases hr
      exact n.isCompletion_toRecord
    | listener name => cases hr
  | call c => cases hr
  | record r' => exact absurd he (Guard.record_not_mem_receive h r')

namespace Http

/-! ## Texts of header values -/

theorem toNat_lt_of_isTextByte {b : UInt8} (h : isTextByte b = true) : b.toNat < 128 := by
  simp only [isTextByte, Bool.or_eq_true, Bool.and_eq_true, beq_iff_eq, decide_eq_true_eq] at h
  rcases h with rfl | ⟨_, h⟩
  · decide
  · exact Nat.lt_trans (UInt8.lt_iff_toNat_lt.mp h) (by decide)

/-- A header value has the text with the same bytes, if it has one. -/
theorem headerText?_eq_some_iff {value : ByteArray} {text : String} :
    headerText? value = some text ↔ isText value = true ∧ text.toUTF8 = value := by
  have bytes : isText value = true →
      (String.ofList (value.data.toList.map fun b => Char.ofNat b.toNat)).toUTF8 = value := by
    intro h
    have small : ∀ b ∈ value.data.toList, b.toNat < 128 := fun b hb =>
      toNat_lt_of_isTextByte (Array.all_eq_true_iff_forall_mem.mp h b (Array.mem_toList_iff.mp hb))
    rw [Text.toUTF8_ofList_of_lt small]
    exact ByteArray.ext (by simp)
  rw [headerText?]
  constructor
  · intro h
    split at h
    case isTrue ht =>
      rw [← Option.some.inj h]
      exact ⟨ht, bytes ht⟩
    case isFalse => cases h
  · rintro ⟨ht, h⟩
    have same := (bytes ht).trans h.symm
    rw [if_pos ht, String.toByteArray_inj.mp same]

namespace Headers

/-! ## Headers -/

/-- All values of a name, in order. -/
def values (headers : Headers) (name : String) : List ByteArray :=
  (headers.filter fun h => h.1 == name).map Prod.snd

theorem values_set_self (headers : Headers) (name : String) (value : ByteArray) :
    (headers.set name value).values name = [value] := by
  have others : ∀ h ∈ headers.filter (fun h => h.1 != name), ¬ (h.1 == name) = true := by
    intro h hh
    simpa using (List.mem_filter.mp hh).2
  rw [values, set, List.filter_append, List.filter_eq_nil_iff.mpr others]
  simp

theorem values_set_of_ne {name other : String} (h : other ≠ name) (headers : Headers) (value : ByteArray) :
    (headers.set name value).values other = headers.values other := by
  have kept : ∀ header : String × ByteArray, (header.1 == other && header.1 != name) = (header.1 == other) := by
    intro header
    by_cases same : header.1 = other
    · simp [same, h]
    · simp [same]
  have none : [(name, value)].filter (fun header => header.1 == other) = [] := by simp [Ne.symm h]
  rw [values, set, List.filter_append, none, List.append_nil, List.filter_filter, List.filter_congr fun x _ => kept x]
  rfl

/-- A text that can be a header value becomes the only one. -/
theorem setText_of_isText {text : String} (h : isText text.toUTF8 = true) (headers : Headers) (name : String) :
    headers.setText name text = headers.set name text.toUTF8 := by
  rw [setText, headerValue?, if_pos h]

end Headers

/-! ## Services -/

/-- A request, the id that it has and what the inner service sees of it. -/
structure Request.Identified (request : Request) (fresh id : String) (seen : Request) : Prop where
  /-- The text of the first id header is the id, and nothing is changed. -/
  kept : ∀ value, request.headers.first? requestIdHeader = some value → isText value = true →
    id.toUTF8 = value ∧ seen = request
  /-- Where there is no such text, the fresh id takes the place of all id headers. -/
  replaced : (∀ value, request.headers.first? requestIdHeader = some value → isText value = false) →
    id = fresh ∧ seen.headers.values requestIdHeader = [fresh.toUTF8]
  /-- The first id header has the id as its text. -/
  first : seen.headers.first? requestIdHeader = some id.toUTF8 ∧ seen.id? = some id
  /-- Other headers are not touched. -/
  others : ∀ name, name ≠ requestIdHeader → seen.headers.values name = request.headers.values name
  method : seen.method = request.method
  target : seen.target = request.target
  body : seen.body = request.body

/-- What an inner service did, completed with an id. -/
structure Completed (id : String) (inner outer : Run Response) : Prop where
  /-- One record is written, with the id and the status of the answer. -/
  record : ∃ r : LogRecord, r.Completes id outer.result.status ∧ outer.trace = inner.trace ++ [.record r] ∧
    outer.completions = inner.completions ++ [r]
  /-- The answer has one id header, whatever headers the inner service has set. -/
  header : outer.result.headers.values requestIdHeader = [id.toUTF8]
  others : ∀ name, name ≠ requestIdHeader → outer.result.headers.values name = inner.result.headers.values name
  status : outer.result.status = inner.result.status
  body : outer.result.body = inner.result.body

theorem Request.id?_eq_some_iff {r : Request} {id : String} :
    r.id? = some id ↔ r.headers.first? requestIdHeader = some id.toUTF8 ∧ isText id.toUTF8 = true := by
  rw [Request.id?, Option.bind_eq_some_iff]
  simp only [headerText?_eq_some_iff]
  constructor
  · rintro ⟨value, first, text, rfl⟩
    exact ⟨first, text⟩
  · rintro ⟨first, text⟩
    exact ⟨_, first, text, rfl⟩

theorem Request.id?_eq_none_iff {r : Request} :
    r.id? = none ↔ ∀ value, r.headers.first? requestIdHeader = some value → isText value = false := by
  rw [Request.id?, Option.bind_eq_none_iff]
  simp [headerText?]

/-- The id that a request gets is the id that it has afterwards, and it is a text that a header can have. -/
theorem Request.withId_identified {fresh : String} (hf : isText fresh.toUTF8 = true) (request : Request) :
    request.Identified fresh (request.withId fresh).1 (request.withId fresh).2 := by
  cases h : request.id? with
  | some id =>
    have withId : request.withId fresh = (id, request) := by rw [Request.withId, h]
    obtain ⟨first, text⟩ := Request.id?_eq_some_iff.mp h
    rw [withId]
    refine ⟨fun value hv _ => ⟨?_, rfl⟩, fun none => ?_, ⟨first, h⟩, fun _ _ => rfl, rfl, rfl, rfl⟩
    · exact Option.some.inj (first.symm.trans hv)
    · rw [none _ first] at text
      cases text
  | none =>
    have withId : request.withId fresh =
        (fresh, { request with headers := request.headers.set requestIdHeader fresh.toUTF8 }) := by
      rw [Request.withId, h, Headers.setText_of_isText hf]
    have first := Headers.first?_set request.headers requestIdHeader fresh.toUTF8
    rw [withId]
    refine ⟨fun value hv text => ?_, fun _ => ⟨rfl, Headers.values_set_self _ _ _⟩,
      ⟨first, Request.id?_eq_some_iff.mpr ⟨first, hf⟩⟩,
      fun name hn => Headers.values_set_of_ne hn _ _, rfl, rfl, rfl⟩
    rw [Request.id?_eq_none_iff.mp h value hv] at text
    cases text

/-- With a text as the id, what the inner service did is completed with it. -/
theorem logged_completed {fresh : String} {elapsed : Nat} {request : Request}
    (h : isText (request.withId fresh).1.toUTF8 = true) (inner : Service) :
    Completed (request.withId fresh).1 (inner (request.withId fresh).2) (logged fresh elapsed inner request) := by
  have headers : (logged fresh elapsed inner request).result.headers =
      (inner (request.withId fresh).2).result.headers.set requestIdHeader (request.withId fresh).1.toUTF8 :=
    Headers.setText_of_isText h _ _
  have trace : (logged fresh elapsed inner request).trace = (inner (request.withId fresh).2).trace ++
      [.record (completionRecord (request.withId fresh).1 (request.withId fresh).2
        (inner (request.withId fresh).2).result elapsed)] := rfl
  refine ⟨⟨_, ⟨rfl, rfl, rfl⟩, trace, Run.completions_of_trace_append trace⟩,
    ?_, fun name hn => ?_, rfl, rfl⟩
  · rw [headers, Headers.values_set_self]
  · rw [headers, Headers.values_set_of_ne hn]

/-- Behind a guard there are the completions of the inner service, or none if the guard refuses the body. -/
theorem guarded_completions {g : Guard} {s : Specification} {options : Options}
    (h : s.compile options = .ok g.validator) (inner : Service) (request : Request) :
    (g.Accepts request.body → (guarded g inner request).completions = (inner request).completions) ∧
    (¬ g.Accepts request.body → (guarded g inner request).completions = []) := by
  have silent := Guard.completions_receive h request.body
  constructor
  · intro accepts
    have trace : (guarded g inner request).trace = (g.receive request.body).trace ++ (inner request).trace := by
      rw [guarded_of_accepts accepts]
      rfl
    rw [Run.completions_of_trace_append trace, silent]
    rfl
  · intro refuses
    obtain ⟨refusal, _, _, answer⟩ := guarded_of_not_accepts refuses
    rw [Run.completions_of_trace_append (answer inner).2, silent]
    rfl

/-- **One id for a request, from end to end.** If the fresh id is a text that a header can have, every request has an
id: the text of its first id header, or the fresh one. The inner service sees it in the first id header, the answer has
it in the only one, whatever the inner service has set, and one record is written, with this id and the status of the
answer. So it is with a guard inside, too, which writes no such record itself, even if it refuses the body. -/
theorem logged_identifies {fresh : String} (hf : isText fresh.toUTF8 = true) (elapsed : Nat) (request : Request) :
    ∃ id seen, request.Identified fresh id seen ∧
      (∀ inner : Service, Completed id (inner seen) (logged fresh elapsed inner request)) ∧
      ∀ (s : Specification) (options : Options) (g : Guard) (inner : Service),
        s.compile options = .ok g.validator →
        (g.Accepts request.body → (guarded g inner seen).result = (inner seen).result ∧
          (guarded g inner seen).completions = (inner seen).completions) ∧
        (¬ g.Accepts request.body → (guarded g inner seen).result.status = 400 ∧
          (guarded g inner seen).completions = []) := by
  have identified := Request.withId_identified hf request
  have text := (Request.id?_eq_some_iff.mp identified.first.2).2
  refine ⟨_, _, identified, logged_completed text, fun s options g inner h => ?_⟩
  obtain ⟨passed, refused⟩ := guarded_completions h inner (request.withId fresh).2
  rw [identified.body] at passed refused
  refine ⟨fun accepts => ⟨?_, passed accepts⟩, fun refuses => ⟨?_, refused refuses⟩⟩
  · rw [guarded_of_accepts (identified.body ▸ accepts)]
    rfl
  · obtain ⟨_, _, _, answer⟩ := guarded_of_not_accepts (identified.body ▸ refuses)
    rw [(answer inner).1]

/-- A fresh id. -/
def freshId : String := "3f2504e0-4f89-41d3-9a0c-0305e82c3301"

/-- A request without a body, whose first id is no text. -/
def strayRequest : Request where
  method := "POST"
  target := "/"
  headers := [(requestIdHeader, ⟨#[0xC3, 0xA9]⟩), (requestIdHeader, "a".toUTF8)]
  body := .empty

/-- A service that sets an id of its own. -/
def mislabeling : Service := fun _ => pure { status := 200, headers := [(requestIdHeader, "b".toUTF8)] }

/-- A body with a flag. -/
def flagged : Specification := .ofFields [("flag", .ofTokens [.name "boolean"])]

def flaggedGuard (V : Validator) : Guard where
  validator := V
  complaint _ := "expected value at line 1 column 1"

/-- The guard refuses the request for want of a flag, and it has the fresh id all the same. -/
theorem strayRequest_freshId :
    isText freshId.toUTF8 = true ∧ ∃ g : Guard, flagged.compile {} = .ok g.validator ∧ ∃ r : LogRecord,
      r.Completes freshId 400 ∧ (logged freshId 0 (guarded g mislabeling) strayRequest).completions = [r] ∧
      (logged freshId 0 (guarded g mislabeling) strayRequest).result.headers.values requestIdHeader =
        [freshId.toUTF8] := by
  have text : isText freshId.toUTF8 = true := by decide +kernel
  have stray : isText ⟨#[0xC3, 0xA9]⟩ = false := by decide +kernel
  have blank : Guard.decode? strayRequest.body = some (.object []) := if_pos (by decide +kernel)
  obtain ⟨V, compiled, rejected⟩ : ∃ V, flagged.compile {} = .ok V ∧ (V.validate (.object [])).result = false :=
    ⟨_, rfl, rfl⟩
  have refuses : ¬ (flaggedGuard V).Accepts strayRequest.body := by
    rintro ⟨_, accepted⟩
    rw [Guard.result_examine, blank] at accepted
    simp [flaggedGuard, rejected] at accepted
  obtain ⟨id, seen, identified, completed, behind⟩ := logged_identifies text 0 strayRequest
  have isFresh : id = freshId := (identified.replaced fun value hv => by cases hv; exact stray).1
  obtain ⟨status, silent⟩ := (behind flagged {} (flaggedGuard V) mislabeling compiled).2 refuses
  obtain ⟨⟨r, completes, _, one⟩, header, _, same, _⟩ := completed (guarded (flaggedGuard V) mislabeling)
  rw [silent] at one
  rw [same, status] at completes
  rw [isFresh] at completes header
  exact ⟨text, flaggedGuard V, compiled, r, completes, one, header⟩

end Http

end BodySpec
