import BodySpec.Specification.Rules
import BodySpec.Limits

/-!
# Guards

A guard stands before a service and refuses bodies: those that are too long, then those that are not JSON, then those
that its validator refuses. A body of nothing but blanks counts as the empty object.
-/

namespace BodySpec

/-- Why a body is refused, or why there is no guard. -/
inductive Refusal where
  | unreadable (reason : String)
  /-- A body that is no JSON, with what the reader says of it. -/
  | malformed (complaint : String)
  | rejected
  | uncompiled (fault : Fault)
  deriving DecidableEq

namespace Refusal

/-- The code by which the log names it. -/
def code : Refusal → String
  | unreadable _ => "BODY_READ"
  | malformed _ => "INVALID_JSON"
  | rejected => "REJECTED"
  | uncompiled _ => "COMPILE_ERROR"

/-- The HTTP status that answers it. -/
def status : Refusal → Nat
  | uncompiled _ => 500
  | _ => 400

def message : Refusal → String
  | unreadable reason => "Failed to read request body: " ++ reason
  | malformed complaint => "Request body is not valid JSON: " ++ complaint
  | rejected => "Request body failed validation"
  | uncompiled fault => "Spec compilation failed: " ++ fault.message

/-- A body that exceeds the limit. -/
def tooLong : Refusal := unreadable "length limit exceeded"

end Refusal

structure Guard where
  validator : Validator
  limits : Limits := {}
  /-- What the reader says of bytes that are no JSON: what is wrong with them, and where. -/
  complaint : ByteArray → String

namespace Guard

/-- The guard of a specification, with default limits. -/
def ofSpecification (s : Specification) (options : Options) (complaint : ByteArray → String) : Except Refusal Guard :=
  match s.compile options with
  | .ok validator => .ok { validator, complaint }
  | .error fault => .error (.uncompiled fault)

/-- The ASCII blanks: space, tab, line feed, form feed and carriage return. -/
def isBlankByte (b : UInt8) : Bool := b == 0x20 || b == 0x09 || b == 0x0A || b == 0x0C || b == 0x0D

/-- The value of a body, which is the empty object if there are only blanks. -/
def decode? (body : ByteArray) : Option Json :=
  if body.data.all isBlankByte then some (.object []) else Json.ofBytes? body

/-- Checks a body of any length. -/
def examine (g : Guard) (body : ByteArray) : Run (Except Refusal Unit) :=
  match decode? body with
  | none => pure (.error (.malformed (g.complaint body)))
  | some v => do
    let valid ← g.validator.validate v
    pure (if valid then .ok () else .error .rejected)

/-- The bytes of a body, if they are not more than the limit. -/
def read (g : Guard) (body : ByteArray) : Except Refusal ByteArray :=
  if body.size ≤ g.limits.maxBodySize then .ok body else .error .tooLong

/-- Reads a body and checks what was read. -/
def receive (g : Guard) (body : ByteArray) : Run (Except Refusal ByteArray) :=
  match g.read body with
  | .error refusal => pure (.error refusal)
  | .ok bytes => do
    match ← g.examine bytes with
    | .error refusal => pure (.error refusal)
    | .ok () => pure (.ok bytes)

end Guard

end BodySpec
