/-!
# The built-in validators

Their names, and the names in use: `ofName?` finds the validator of a name and undoes `name`.
-/

namespace BodySpec

inductive Builtin where
  | string | number | object | array | boolean
  | oneOf | isBetween
  | date | userId | password | objectId | email | hex | guid | interval
  | given | arrayLength | guidArray | every | isTrue
  deriving DecidableEq

namespace Builtin

def name : Builtin → String
  | string => "string"
  | number => "number"
  | object => "object"
  | array => "array"
  | boolean => "boolean"
  | oneOf => "oneOf"
  | isBetween => "isBetween"
  | date => "date"
  | userId => "userId"
  | password => "password"
  | objectId => "objectId"
  | email => "email"
  | hex => "hex"
  | guid => "guid"
  | interval => "interval"
  | given => "exists"
  | arrayLength => "arrayLength"
  | guidArray => "guidArray"
  | every => "every"
  | isTrue => "true"

/-- All of them, in the order in which they are listed. -/
def catalog : List Builtin :=
  [string, number, object, array, boolean, oneOf, isBetween, date, userId, password, objectId, email, hex, guid,
    interval, given, arrayLength, guidArray, every, isTrue]

/-- The validator of a name. -/
def ofName? (s : String) : Option Builtin := catalog.find? fun b => b.name == s

/-- Whether plain arguments stand for nested rules. -/
def wantsRules (b : Builtin) : Bool := b == every

theorem ofName?_name (b : Builtin) : ofName? b.name = some b := by
  cases b <;> decide

theorem name_of_ofName? {s : String} {b : Builtin} (h : ofName? s = some b) : b.name = s := by
  simpa using List.find?_some h

end Builtin

end BodySpec
