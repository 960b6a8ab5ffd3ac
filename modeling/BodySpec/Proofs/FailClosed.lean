import BodySpec.Http.Service
import BodySpec.Proofs.TextBytes
import BodySpec.Proofs.Traces

/-!
# A guard fails closed

A guard looks for three things in turn: a body that is too long, one that is no JSON, one that its validator refuses
(`Guard.refusals`). It answers with the first of them (`Guard.result_receive`), and where there is none it lets the
body through as it is. So behind a guard the inner service runs on the request itself, or it does not run, the answer
tells nothing but that there was something wrong, and one record says what (`Http.guarded_failsClosed`).
-/

namespace BodySpec

namespace Guard

/-! ## Refusals -/

/-- All that is wrong with a body, in the order in which a guard looks for it. -/
def refusals (g : Guard) (body : ByteArray) : List Refusal :=
  (if body.size ≤ g.limits.maxBodySize then [] else [.tooLong]) ++
    match decode? body with
    | none => [.malformed (g.complaint body)]
    | some v => if (g.validator.validate v).result then [] else [.rejected]

/-- A body within the limit that the check lets through. -/
def Accepts (g : Guard) (body : ByteArray) : Prop :=
  body.size ≤ g.limits.maxBodySize ∧ (g.examine body).result = .ok ()

variable {g : Guard} {body : ByteArray}

/-- A body that is too long is not looked at. -/
theorem receive_of_lt (h : g.limits.maxBodySize < body.size) : g.receive body = pure (.error .tooLong) := by
  rw [receive, read, if_neg (Nat.not_le.mpr h)]

theorem receive_of_le (h : body.size ≤ g.limits.maxBodySize) :
    g.receive body = g.examine body >>= fun outcome => pure (outcome.map fun _ => body) := by
  rw [receive, read, if_pos h]
  show g.examine body >>= _ = _
  congr 1
  funext outcome
  cases outcome <;> rfl

/-- The check of a body is that of its value, if it has one. -/
theorem examine_of_decode {v : Json} (h : decode? body = some v) :
    g.examine body = g.validator.validate v >>= fun valid => pure (if valid then .ok () else .error .rejected) := by
  rw [examine, h]

theorem examine_of_malformed (h : decode? body = none) :
    g.examine body = pure (.error (.malformed (g.complaint body))) := by
  rw [examine, h]

/-- The first thing that is wrong with a body is the answer of the check. -/
theorem result_examine :
    (g.examine body).result =
      match decode? body with
      | none => .error (.malformed (g.complaint body))
      | some v => if (g.validator.validate v).result then .ok () else .error .rejected := by
  cases h : decode? body with
  | none => rw [examine_of_malformed h]; rfl
  | some v => rw [examine_of_decode h]; rfl

theorem head?_refusals_of_lt (h : g.limits.maxBodySize < body.size) : (g.refusals body).head? = some .tooLong := by
  rw [refusals, if_neg (Nat.not_le.mpr h)]
  rfl

theorem refusals_of_malformed (hs : body.size ≤ g.limits.maxBodySize) (hd : decode? body = none) :
    g.refusals body = [.malformed (g.complaint body)] := by
  rw [refusals, if_pos hs, hd, List.nil_append]

theorem refusals_of_decode {v : Json} (hs : body.size ≤ g.limits.maxBodySize) (hd : decode? body = some v) :
    g.refusals body = if (g.validator.validate v).result then [] else [.rejected] := by
  rw [refusals, if_pos hs, hd, List.nil_append]

/-- A guard answers with the first thing that is wrong with a body, or passes on what it has read: the body. -/
theorem result_receive :
    (g.receive body).result =
      match (g.refusals body).head? with
      | some refusal => .error refusal
      | none => .ok body := by
  rcases Nat.lt_or_ge g.limits.maxBodySize body.size with h | h
  · rw [receive_of_lt h, head?_refusals_of_lt h]
    rfl
  · rw [receive_of_le h, Run.result_bind, result_examine]
    cases hd : decode? body with
    | none =>
      rw [refusals_of_malformed h hd]
      rfl
    | some v =>
      simp only [refusals_of_decode h hd]
      cases (g.validator.validate v).result <;> rfl

/-- A guard accepts the bodies with which nothing is wrong. -/
theorem accepts_iff : g.Accepts body ↔ g.refusals body = [] := by
  rw [Accepts, result_examine]
  by_cases h : body.size ≤ g.limits.maxBodySize
  · cases hd : decode? body with
    | none => simp [refusals_of_malformed h hd]
    | some v =>
      rw [refusals_of_decode h hd]
      cases valid : (g.validator.validate v).result <;> simp [h, valid]
  · refine iff_of_false (fun accepts => h accepts.1) fun none => ?_
    have first := head?_refusals_of_lt (Nat.not_le.mp h)
    rw [none] at first
    cases first

/-- There are three things that can be wrong with a body, and that there is no guard is none of them. -/
theorem refusal_cases {refusal : Refusal} (h : refusal ∈ g.refusals body) :
    refusal = .tooLong ∨ refusal = .malformed (g.complaint body) ∨ refusal = .rejected := by
  rcases List.mem_append.mp h with h | h
  · split at h
    · cases h
    · exact .inl (List.mem_singleton.mp h)
  · split at h
    · exact .inr (.inl (List.mem_singleton.mp h))
    · split at h
      · cases h
      · exact .inr (.inr (List.mem_singleton.mp h))

theorem status_of_mem_refusals {refusal : Refusal} (h : refusal ∈ g.refusals body) :
    (∀ fault, refusal ≠ .uncompiled fault) ∧ refusal.status = 400 := by
  rcases refusal_cases h with rfl | rfl | rfl
  · exact ⟨fun _ hf => (by cases hf), rfl⟩
  · exact ⟨fun _ hf => (by cases hf), rfl⟩
  · exact ⟨fun _ hf => (by cases hf), rfl⟩

/-- The code of the first refusal says that a body is too long before anything else, and that it is no JSON before it
says that it is refused. -/
theorem code_of_head?_refusals {refusal : Refusal} (h : (g.refusals body).head? = some refusal) :
    refusal.code =
      if g.limits.maxBodySize < body.size then "BODY_READ"
      else if (decode? body).isNone then "INVALID_JSON"
      else "REJECTED" := by
  rcases Nat.lt_or_ge g.limits.maxBodySize body.size with hs | hs
  · rw [if_pos hs]
    cases h.symm.trans (head?_refusals_of_lt hs)
    rfl
  · rw [if_neg (Nat.not_lt.mpr hs)]
    cases hd : decode? body with
    | none =>
      rw [refusals_of_malformed hs hd] at h
      cases h
      rfl
    | some v =>
      rw [refusals_of_decode hs hd] at h
      split at h
      · cases h
      · cases h
        rfl

/-! ## Traces -/

/-- A body that is too long or no JSON is not checked. -/
theorem trace_receive_eq_nil (h : g.limits.maxBodySize < body.size ∨ decode? body = none) :
    (g.receive body).trace = [] := by
  rcases Nat.lt_or_ge g.limits.maxBodySize body.size with hs | hs
  · rw [receive_of_lt hs]
    rfl
  · have malformed : decode? body = none := h.resolve_left (Nat.not_lt.mpr hs)
    rw [receive_of_le hs, examine_of_malformed malformed]
    rfl

/-- Of any other body it leaves what its validator leaves. -/
theorem trace_receive_of_decode {v : Json} (hs : body.size ≤ g.limits.maxBodySize) (hd : decode? body = some v) :
    (g.receive body).trace = (g.validator.validate v).trace := by
  rw [receive_of_le hs, examine_of_decode hd, Run.trace_bind, Run.trace_bind, Run.trace_pure, Run.trace_pure,
    List.append_nil, List.append_nil]

/-- A guard writes no record of its own: all it leaves is left by its validator. -/
theorem record_not_mem_receive {s : Specification} {options : Options} (h : s.compile options = .ok g.validator)
    (record : LogRecord) : Entry.record record ∉ (g.receive body).trace := by
  rcases Nat.lt_or_ge g.limits.maxBodySize body.size with hs | hs
  · rw [receive_of_lt hs]
    exact List.not_mem_nil
  · cases hd : decode? body with
    | none =>
      rw [trace_receive_eq_nil (.inr hd)]
      exact List.not_mem_nil
    | some v =>
      rw [trace_receive_of_decode hs hd]
      exact Specification.record_not_mem_validate h v record

end Guard

/-! ## Services -/

/-- A record of a refused request, with the code of the refusal and its message. -/
structure LogRecord.Refuses (r : LogRecord) (request : Http.Request) (refusal : Refusal) : Prop where
  message_eq : r.message = "Request body rejected"
  method_eq : r.fields.lookup "method" = some request.method
  path_eq : r.fields.lookup "path" = some request.path
  code_eq : r.fields.lookup "code" = some refusal.code
  error_eq : r.fields.lookup "error" = some refusal.message

namespace Http

theorem refuses_refusalRecord (request : Request) (refusal : Refusal) :
    (refusalRecord request refusal).Refuses request refusal :=
  ⟨rfl, rfl, rfl, rfl, rfl⟩

theorem guarded_of_receive_ok {g : Guard} {request : Request} {bytes : ByteArray}
    (h : (g.receive request.body).result = .ok bytes) (inner : Service) :
    guarded g inner request = g.receive request.body >>= fun _ => inner { request with body := bytes } := by
  rw [guarded]
  apply Run.ext
  · rw [Run.result_bind, Run.result_bind, h]
  · rw [Run.trace_bind, Run.trace_bind, h]

theorem guarded_of_receive_error {g : Guard} {request : Request} {refusal : Refusal}
    (h : (g.receive request.body).result = .error refusal) (inner : Service) :
    (guarded g inner request).result = refuse refusal ∧
      (guarded g inner request).trace =
        (g.receive request.body).trace ++ [.record (refusalRecord request refusal)] := by
  rw [guarded, Run.result_bind, Run.trace_bind, h]
  exact ⟨rfl, rfl⟩

/-- A request whose body the guard accepts goes to the inner service as it is. -/
theorem guarded_of_accepts {g : Guard} {request : Request} (h : g.Accepts request.body) (inner : Service) :
    guarded g inner request = g.receive request.body >>= fun _ => inner request := by
  have result : (g.receive request.body).result = .ok request.body := by
    rw [Guard.result_receive, Guard.accepts_iff.mp h]
    rfl
  exact guarded_of_receive_ok result inner

/-- Any other never gets there, and one record is written. -/
theorem guarded_of_not_accepts {g : Guard} {request : Request} (h : ¬ g.Accepts request.body) :
    ∃ refusal, (g.refusals request.body).head? = some refusal ∧ (∀ fault, refusal ≠ .uncompiled fault) ∧
      ∀ inner : Service,
        (guarded g inner request).result = { status := 400, headers := [], body := .empty } ∧
        (guarded g inner request).trace =
          (g.receive request.body).trace ++ [.record (refusalRecord request refusal)] := by
  have wrong : g.refusals request.body ≠ [] := mt Guard.accepts_iff.mpr h
  obtain ⟨refusal, first⟩ := Option.ne_none_iff_exists'.mp (mt List.head?_eq_none_iff.mp wrong)
  obtain ⟨compiled, status⟩ := Guard.status_of_mem_refusals (List.mem_of_mem_head? first)
  have result : (g.receive request.body).result = .error refusal := by rw [Guard.result_receive, first]
  refine ⟨refusal, first, compiled, fun inner => ?_⟩
  obtain ⟨answer, trace⟩ := guarded_of_receive_error result inner
  rw [refuse, status] at answer
  exact ⟨answer, trace⟩

/-- **A guard fails closed.** A guard accepts the bodies with which nothing is wrong. A request with such a body goes to
the inner service as it is, once, and the answer of the service is the answer. Any other never gets there: its answer is
the status 400 and nothing else, the same for all, and one record is written, with the code of the first thing that is
wrong with the body: that it is too long, no JSON, or refused. A body that is too long or no JSON is not checked at all,
and before the inner service or the record there are no records. -/
theorem guarded_failsClosed (g : Guard) (request : Request) :
    (g.Accepts request.body ↔ g.refusals request.body = []) ∧
    (g.Accepts request.body → ∀ inner : Service,
      (guarded g inner request).result = (inner request).result ∧
      (guarded g inner request).trace = (g.receive request.body).trace ++ (inner request).trace) ∧
    (¬ g.Accepts request.body →
      ∃ (refusal : Refusal) (record : LogRecord),
        (g.refusals request.body).head? = some refusal ∧ (∀ fault, refusal ≠ .uncompiled fault) ∧
        record.Refuses request refusal ∧
        refusal.code =
          (if g.limits.maxBodySize < request.body.size then "BODY_READ"
          else if (Guard.decode? request.body).isNone then "INVALID_JSON"
          else "REJECTED") ∧
        ∀ inner : Service,
          (guarded g inner request).result = { status := 400, headers := [], body := .empty } ∧
          (guarded g inner request).trace = (g.receive request.body).trace ++ [.record record]) ∧
    (∀ (g' : Guard) (request' : Request) (inner inner' : Service), ¬ g.Accepts request.body →
      ¬ g'.Accepts request'.body → (guarded g inner request).result = (guarded g' inner' request').result) ∧
    (g.limits.maxBodySize < request.body.size ∨ Guard.decode? request.body = none →
      (g.receive request.body).trace = []) ∧
    (∀ (s : Specification) (options : Options), s.compile options = .ok g.validator →
      ∀ record, Entry.record record ∉ (g.receive request.body).trace) := by
  refine ⟨Guard.accepts_iff, fun h inner => ?_, fun h => ?_, fun g' request' inner inner' h h' => ?_,
    Guard.trace_receive_eq_nil, fun s options hV record => Guard.record_not_mem_receive hV record⟩
  · rw [guarded_of_accepts h]
    exact ⟨rfl, rfl⟩
  · obtain ⟨refusal, first, compiled, answer⟩ := guarded_of_not_accepts h
    exact ⟨refusal, _, first, compiled, refuses_refusalRecord request refusal,
      Guard.code_of_head?_refusals first, answer⟩
  · obtain ⟨_, _, _, answer⟩ := guarded_of_not_accepts h
    obtain ⟨_, _, _, answer'⟩ := guarded_of_not_accepts h'
    rw [(answer inner).1, (answer' inner').1]

/-- A seat is taken or free. -/
def seat : Specification := .ofFields [("taken", .ofTokens [.name "boolean"])]

def takenSeat : String := "\x7b\"taken\":true\x7d"

def seatGuard (V : Validator) (maxBodySize : Nat) : Guard where
  validator := V
  limits := { maxBodySize }
  complaint _ := "expected value at line 1 column 1"

def post (body : String) : Request where
  method := "POST"
  target := "/seats?row=1"
  headers := []
  body := body.toUTF8

/-- A service that answers with what it is sent. -/
def echo : Service := fun request => pure { status := 200, body := request.body }

/-- A seat is passed on if the limit allows for it. A body of blanks lacks the field, which the observer is told of
before the record is written; a body that is no JSON or too long leaves nothing but the record. -/
theorem seatGuard_failsClosed :
    ∃ V, seat.compile { observer := some .log } = .ok V ∧
      (guarded (seatGuard V 14) echo (post takenSeat)).result =
        { status := 200, body := takenSeat.toUTF8 } ∧
      (guarded (seatGuard V 13) echo (post takenSeat)).result = { status := 400 } ∧
      (∃ r : LogRecord, r.Refuses (post takenSeat) .tooLong ∧
        (guarded (seatGuard V 13) echo (post takenSeat)).trace = [.record r]) ∧
      (∃ r : LogRecord, r.Refuses (post "?") (.malformed "expected value at line 1 column 1") ∧
        (guarded (seatGuard V 13) echo (post "?")).trace = [.record r]) ∧
      ∃ r : LogRecord, r.Refuses (post " \n") .rejected ∧
        (guarded (seatGuard V 13) echo (post " \n")).trace =
          [.notice .log (.missingField "taken"), .record r] := by
  obtain ⟨V, compiled, holds, fails, told⟩ : ∃ V, seat.compile { observer := some .log } = .ok V ∧
      (V.validate (.object [("taken", .bool true)])).result = true ∧ (V.validate (.object [])).result = false ∧
      (V.validate (.object [])).trace = [.notice .log (.missingField "taken")] := ⟨_, rfl, rfl, rfl, rfl⟩
  have size : takenSeat.toUTF8.size = 14 := by decide +kernel
  have value : Guard.decode? (post takenSeat).body = some (.object [("taken", .bool true)]) := by
    rw [post, Guard.decode?, if_neg (by decide +kernel), Json.ofBytes?, Text.fromUTF8?_toUTF8]
    rfl
  have noValue : Guard.decode? (post "?").body = none := by
    rw [post, Guard.decode?, if_neg (by decide +kernel), Json.ofBytes?, Text.fromUTF8?_toUTF8]
    rfl
  have blank : Guard.decode? (post " \n").body = some (.object []) := if_pos (by decide +kernel)
  have refused : ∀ (g : Guard) (request : Request) (refusal : Refusal),
      (g.refusals request.body).head? = some refusal →
      (guarded g echo request).result = { status := 400 } ∧ ∃ r : LogRecord, r.Refuses request refusal ∧
        (guarded g echo request).trace = (g.receive request.body).trace ++ [.record r] := by
    intro g request refusal first
    obtain ⟨accepts, _, refuses, _⟩ := guarded_failsClosed g request
    have wrong : ¬ g.Accepts request.body := fun accepted => by
      rw [accepts.mp accepted] at first
      cases first
    obtain ⟨_, r, first', _, told, _, answer⟩ := refuses wrong
    cases first.symm.trans first'
    exact ⟨(answer echo).1, r, told, (answer echo).2⟩
  have long : (seatGuard V 13).limits.maxBodySize < (post takenSeat).body.size := by
    show 13 < takenSeat.toUTF8.size
    omega
  have atLimit : (post takenSeat).body.size ≤ (seatGuard V 14).limits.maxBodySize := Nat.le_of_eq size
  have short : (post "?").body.size ≤ (seatGuard V 13).limits.maxBodySize := by
    show "?".toUTF8.size ≤ 13
    decide +kernel
  have short' : (post " \n").body.size ≤ (seatGuard V 13).limits.maxBodySize := by
    show " \n".toUTF8.size ≤ 13
    decide +kernel
  refine ⟨V, compiled, ?_, (refused _ _ _ (Guard.head?_refusals_of_lt long)).1, ?_, ?_, ?_⟩
  · obtain ⟨accepts, passes, _⟩ := guarded_failsClosed (seatGuard V 14) (post takenSeat)
    refine (passes (accepts.mpr ?_) echo).1
    rw [Guard.refusals_of_decode atLimit value]
    exact if_pos holds
  · obtain ⟨_, r, names, trace⟩ := refused _ _ _ (Guard.head?_refusals_of_lt long)
    rw [Guard.trace_receive_eq_nil (.inl long)] at trace
    exact ⟨r, names, trace⟩
  · have first := congrArg List.head? (Guard.refusals_of_malformed short noValue)
    obtain ⟨_, r, names, trace⟩ := refused _ _ _ first
    rw [Guard.trace_receive_eq_nil (.inr noValue)] at trace
    exact ⟨r, names, trace⟩
  · have first : ((seatGuard V 13).refusals (post " \n").body).head? = some .rejected := by
      rw [Guard.refusals_of_decode short' blank, seatGuard, fails]
      rfl
    obtain ⟨_, r, names, trace⟩ := refused _ _ _ first
    rw [Guard.trace_receive_of_decode short' blank] at trace
    refine ⟨r, names, trace.trans ?_⟩
    rw [seatGuard, told]
    rfl

end Http

end BodySpec
