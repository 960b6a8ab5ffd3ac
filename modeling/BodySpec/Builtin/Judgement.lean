import BodySpec.Binary64.Plain
import BodySpec.Builtin.Basic
import BodySpec.Builtin.Bounds
import BodySpec.Calendar.Layout
import BodySpec.Format.Email
import BodySpec.Format.Fixed

/-!
# Judgements of the built-in validators

Each judges a value with the arguments of its step. A value of the wrong kind, or an argument of the wrong kind where
one is used, makes the judgement negative; arguments beyond those used are ignored. Text formats also accept the text of
a number or boolean.
-/

namespace BodySpec

namespace Builtin

/-! ## Texts -/

/-- The text of a string, number or boolean. -/
def scalarText? : Json → Option String
  | .string s => some s
  | .number n => some n.text
  | .bool b => some (toString b)
  | _ => none

/-- Whether the text of the value has the form. -/
def hasForm (p : Pattern) (v : Json) : Bool := (scalarText? v).any fun s => p.accepts s.toList

/-- Whether the value is a string of 36 characters that has the form of an identifier. -/
def isGuid : Json → Bool
  | .string s => s.length == 36 && Format.guid.accepts s.toList
  | _ => false

/-- Whether `needle` occurs in the text as a whole. -/
def occursIn (needle : List Char) : List Char → Bool
  | [] => needle.isEmpty
  | c :: s => needle.isPrefixOf (c :: s) || occursIn needle s

/-! ## Judgements -/

/-- Whether the texts of the items, joined by commas, give the empty text. -/
def hasEmptyJoin : Json → Bool
  | .null => true
  | .string s => s.isEmpty
  | .array [] => true
  | .array [v] => hasEmptyJoin v
  | _ => false

/-- Whether a value counts as given: not null, false, zero or empty. -/
def isGiven : Json → Bool
  | .null => false
  | .bool b => b
  | .number n => !n.toBinary64.isZero
  | .string s => !s.isEmpty
  | .array items => !hasEmptyJoin (.array items)
  | .object _ => true

/-- A string whose number of characters lies within the bounds. -/
def checkString (v : Json) (args : List (Argument Unit)) : Bool :=
  match v with
  | .string s =>
    within (Binary64.ofNat s.length) (bound? args 0 Binary64.zero) (bound? args 1 Binary64.infinity)
  | _ => false

/-- A number within the bounds. -/
def checkNumber (v : Json) (args : List (Argument Unit)) : Bool :=
  match v with
  | .number n => within n.toBinary64 (bound? args 0 Binary64.negInfinity) (bound? args 1 Binary64.infinity)
  | _ => false

/-- An item of the list given, or a part of the text given. -/
def checkOneOf (v : Json) (args : List (Argument Unit)) : Bool :=
  match args, v with
  | .value (.array items) :: _, v => items.contains v
  | .value (.string text) :: _, .string s => occursIn s.toList text.toList
  | _, _ => false

/-- A plain decimal within the bounds. -/
def checkIsBetween (v : Json) (args : List (Argument Unit)) : Bool :=
  match bounds? args, (scalarText? v).bind fun s => Binary64.ofPlain? s.toList with
  | some bounds, some x =>
    within x (boundOf? bounds[0]? Binary64.negInfinity) (boundOf? bounds[1]? Binary64.infinity)
  | _, _ => false

/-- An array of no fewer items than the bound, which is 1 by default. -/
def checkArrayLength (v : Json) (args : List (Argument Unit)) : Bool :=
  match v with
  | .array items => (bound? args 0 (Binary64.ofNat 1)).any fun min => min ≤ Binary64.ofNat items.length
  | _ => false

/-- The verdict of the validators that consult no rule. -/
def holds (b : Builtin) (v : Json) (args : List (Argument Unit)) : Bool :=
  match b with
  | string => checkString v args
  | number => checkNumber v args
  | object => (v matches .object _)
  | array => (v matches .array _)
  | boolean => (v matches .bool _)
  | oneOf => checkOneOf v args
  | isBetween => checkIsBetween v args
  | date =>
    match v with
    | .string s => Calendar.isDate s
    | _ => false
  | userId => hasForm Format.userId v
  | password => hasForm Format.password v
  | objectId => hasForm Format.objectId v
  | email => hasForm Format.email v
  | hex => hasForm Format.hex v
  | guid => isGuid v
  | interval => hasForm Format.interval v
  | given => isGiven v
  | arrayLength => checkArrayLength v args
  | guidArray =>
    match v with
    | .array items => items.all isGuid
    | _ => false
  | every => false
  | isTrue => (v matches .bool true)

/-- An array each of whose items satisfies the rule that is the first argument. -/
def judgeEvery (v : Json) (args : List (Argument Unit)) : Judgement :=
  match v, args with
  | .array items, .rule _ :: _ => .forEach 0 items
  | _, _ => .verdict false

def judge (b : Builtin) (v : Json) (args : List (Argument Unit)) : Judgement :=
  match b with
  | every => judgeEvery v args
  | b => .verdict (b.holds v args)

end Builtin

end BodySpec
