import BodySpec.Predicate
import BodySpec.Text.Shown

/-!
# Notices

What an observer is told while a value is checked, and the record that each notice makes in the log.
-/

namespace BodySpec

/-- Who is told of what happens: the log, or a listener of the caller. -/
inductive Observer where
  | log
  | listener (name : String)
  deriving DecidableEq

inductive Notice where
  /-- An optional field is absent. -/
  | optionalSkipped (field : String)
  /-- A field that may be null is null. -/
  | nullSkipped (field : String)
  /-- A required field is absent. -/
  | missingField (field : String)
  | stepFailed (field step : String) (args : List (Argument Unit)) (value : Json)
  /-- The keys of a body are not the declared fields. -/
  | keyMismatch (unexpected missing : List String)
  | notAnObject (value : Json)

/-- Whether a notice says that something is wrong. -/
def Notice.isFailure : Notice → Bool
  | optionalSkipped _ => false
  | nullSkipped _ => false
  | _ => true

inductive LogLevel where
  | debug
  | info
  | warn
  deriving DecidableEq

/-- A line of the log: a message with named fields. -/
structure LogRecord where
  level : LogLevel
  message : String
  fields : List (String × String)

/-- The kind of a value. -/
def Json.kind : Json → String
  | null => "null"
  | bool _ => "boolean"
  | number _ => "number"
  | string _ => "string"
  | array _ => "array"
  | object _ => "object"

/-- How the log tells of a notice. -/
def Notice.toRecord : Notice → LogRecord
  | optionalSkipped field => ⟨.debug, "Skipping optional field", [("field", field)]⟩
  | nullSkipped field => ⟨.warn, "Skipping optional/null field", [("field", field)]⟩
  | missingField field => ⟨.debug, "Validation failed: required field is missing", [("field", field)]⟩
  | stepFailed field step args value =>
    ⟨.debug, "Validation failed",
      [("field", field), ("step", step), ("args", ", ".intercalate (args.map Argument.text)), ("value", value.text)]⟩
  | keyMismatch unexpected missing =>
    ⟨.debug, "Validation: Invalid; body keys differ from the declared fields in strict mode",
      [("unexpected", Text.showList (unexpected.map Text.showString)),
        ("missing", Text.showList (missing.map Text.showString))]⟩
  | notAnObject value => ⟨.debug, "Validation: Invalid; body is not an object", [("kind", value.kind)]⟩

end BodySpec
