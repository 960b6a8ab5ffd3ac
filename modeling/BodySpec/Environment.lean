import BodySpec.Clause
import BodySpec.Limits
import BodySpec.Text.Blank

/-!
# Settings from the environment

Options and limits can be set by variables whose names begin with a scope. A variable that is not set, or whose value
cannot be read, leaves the default.
-/

namespace BodySpec

/-- The values of the variables that are set. -/
abbrev Environment := String → Option String

namespace Environment

/-- A 64-bit count: digits, perhaps after a plus sign. -/
def count? (s : String) : Option Nat :=
  let cs :=
    match s.toList with
    | '+' :: cs => cs
    | cs => cs
  (Text.natural? cs).bind fun n => if n < Nat.pow 2 64 then some n else none

/-- Whether a value names a development environment: blanks around it and case do not matter. -/
def namesDevelopment (s : String) : Bool :=
  let name := String.ofList ((Text.trim s.toList).map Char.toLower)
  name == "development" || name == "dev"

/-- The options of a scope. A development environment turns the log on. -/
def options (env : Environment) (scope : String) : Options where
  strict := env (scope ++ "_VALIDATION_STRICT") == some "true"
  maxDepth := ((env (scope ++ "_VALIDATION_MAX_DEPTH")).bind count?).getD ({} : Options).maxDepth
  observer := if (env (scope ++ "_ENV")).any namesDevelopment then some .log else none

/-- The limits of a scope. -/
def limits (env : Environment) (scope : String) : Limits where
  maxBodySize := ((env (scope ++ "_MAX_BODY_SIZE")).bind count?).getD ({} : Limits).maxBodySize

end Environment

end BodySpec
