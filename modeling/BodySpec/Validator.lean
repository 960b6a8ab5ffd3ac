import BodySpec.Rule

/-!
# Validators

A validator is a list of rules for the fields of an object. Without an observer it stops at the first field that fails;
with one it checks every field, so that the notices are complete. The result is the same.
-/

namespace BodySpec

structure Validator where
  rules : List Rule
  strict : Bool
  observer : Option Observer

namespace Validator

/-- The declared fields, in order. -/
def fields (V : Validator) : List String := V.rules.map Rule.field

def declares (V : Validator) (field : String) : Bool := V.fields.contains field

/-- The keys that are not declared, in the order of the keys. -/
def unexpected (V : Validator) (members : Json.Members) : List String := members.keys.filter fun k => !V.declares k

/-- The declared fields that are absent, in the order of their declarations. -/
def missing (V : Validator) (members : Json.Members) : List String := V.fields.filter fun f => !members.contains f

/-- Whether the keys are the declared fields: as many keys as there are distinct fields, and each of them declared. -/
def keysMatch (V : Validator) (members : Json.Members) : Bool :=
  members.keys.length == V.fields.eraseDups.length && members.keys.all V.declares

/-- Checks the fields of an object. -/
def checkFields (V : Validator) (body : Json) : Run Bool :=
  match V.observer with
  | none => Run.all (fun r => r.check body none) V.rules
  | some o => Run.allThrough (fun r => r.check body (some o)) V.rules

/-- Checks a body. What is not an object, or in strict mode has other keys than the declared fields, fails at once. -/
def validate (V : Validator) (body : Json) : Run Bool :=
  match body with
  | .object members =>
    if V.strict && !V.keysMatch members then do
      Run.notify V.observer (.keyMismatch (V.unexpected members) (V.missing members))
      pure false
    else V.checkFields body
  | body => do
    Run.notify V.observer (.notAnObject body)
    pure false

end Validator

end BodySpec
