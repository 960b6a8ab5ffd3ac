import BodySpec.Guard
import BodySpec.Http.Message

/-!
# Services

A service answers a request and leaves a trace. `guarded` lets a request through to the inner service, unchanged, only
if the guard accepts its body, and otherwise answers with a bare status. `logged` gives every request an id and writes
one record when it is answered.
-/

namespace BodySpec.Http

abbrev Service := Request → Run Response

/-- The answer to a refusal, which tells nothing but the status. -/
def refuse (r : Refusal) : Response := { status := r.status }

/-- The record of a refusal. -/
def refusalRecord (request : Request) (r : Refusal) : LogRecord where
  level := .debug
  message := "Request body rejected"
  fields := [("method", request.method), ("path", request.path), ("code", r.code), ("error", r.message)]

/-- The service behind a guard. It gets the request with the bytes that the guard has read for its body. -/
def guarded (g : Guard) (inner : Service) : Service := fun request => do
  match ← g.receive request.body with
  | .ok bytes => inner { request with body := bytes }
  | .error refusal =>
    Run.tell (.record (refusalRecord request refusal))
    pure (refuse refusal)

/-! ## Request ids -/

def requestIdHeader : String := "x-request-id"

/-- The id that a request brings along: the text of its first id header. -/
def Request.id? (r : Request) : Option String := (r.headers.first? requestIdHeader).bind headerText?

/-- The id of a request, and the request with it. If it brings none, the fresh id replaces all its id headers. -/
def Request.withId (r : Request) (fresh : String) : String × Request :=
  match r.id? with
  | some id => (id, r)
  | none => (fresh, { r with headers := r.headers.setText requestIdHeader fresh })

/-- The record of an answer that took the milliseconds given. -/
def completionRecord (id : String) (request : Request) (response : Response) (elapsed : Nat) : LogRecord where
  level := .info
  message := "Request completed"
  fields :=
    [("request_id", id), ("method", request.method), ("path", request.path), ("status", toString response.status),
      ("duration_ms", toString elapsed)]

/-- The service with ids and records. The id is also set on the response. -/
def logged (fresh : String) (elapsed : Nat) (inner : Service) : Service := fun request => do
  let (id, request) := request.withId fresh
  let response ← inner request
  Run.tell (.record (completionRecord id request response elapsed))
  pure { response with headers := response.headers.setText requestIdHeader id }

end BodySpec.Http
