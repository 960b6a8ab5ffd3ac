import BodySpec.Json.Numeral

/-!
# JSON as written

A `Written` is a JSON text with its blanks gone and nothing else: numerals, escapes and repeated keys are still there.
`value?` is the value it stands for. There is none if a `\u` escape leaves half of a surrogate pair alone or if a
numeral is out of range; of a repeated key the last value counts.
-/

namespace BodySpec

/-- A piece of a string as written: a character, plain or by a short escape, or a UTF-16 unit by a `\u` escape. -/
inductive TextUnit where
  | scalar (c : Char)
  | unit (n : Nat)

namespace TextUnit

def isHigh (n : Nat) : Bool := 0xD800 ≤ n && n ≤ 0xDBFF

def isLow (n : Nat) : Bool := 0xDC00 ≤ n && n ≤ 0xDFFF

/-- The character of a surrogate pair. -/
def ofPair (high low : Nat) : Char := Char.ofNat (0x10000 + (high - 0xD800) * 0x400 + (low - 0xDC00))

/-- The characters that the pieces stand for; two escapes may make one pair. -/
def chars? : List TextUnit → Option (List Char)
  | [] => some []
  | scalar c :: us => (chars? us).map (c :: ·)
  | unit n :: us =>
    if isHigh n then
      match us with
      | unit m :: us => if isLow m then (chars? us).map (ofPair n m :: ·) else none
      | _ => none
    else if isLow n then none
    else (chars? us).map (Char.ofNat n :: ·)

def string? (us : List TextUnit) : Option String := (chars? us).map String.ofList

end TextUnit

/-- A JSON text without its blanks. -/
inductive Written where
  | null
  | bool (value : Bool)
  | numeral (n : Numeral)
  | string (units : List TextUnit)
  | array (items : List Written)
  | object (members : List (List TextUnit × Written))

namespace Written

/-- The value of a text without quotes: a literal name or a numeral. -/
def ofBare? (s : List Char) : Option Written :=
  match s with
  | ['n', 'u', 'l', 'l'] => some null
  | ['t', 'r', 'u', 'e'] => some (bool true)
  | ['f', 'a', 'l', 's', 'e'] => some (bool false)
  | s => (Numeral.ofChars? s).map numeral

mutual

def value? : Written → Option Json
  | null => some .null
  | bool b => some (.bool b)
  | numeral n => n.value?.map .number
  | string us => (TextUnit.string? us).map .string
  | array items => (itemValues? items).map .array
  | object members => (memberValues? members).map fun ms => .object (Json.Members.ofList ms)

def itemValues? : List Written → Option (List Json)
  | [] => some []
  | w :: ws => do
    let v ← value? w
    let vs ← itemValues? ws
    return v :: vs

def memberValues? : List (List TextUnit × Written) → Option (List (String × Json))
  | [] => some []
  | (k, w) :: ms => do
    let key ← TextUnit.string? k
    let v ← value? w
    let vs ← memberValues? ms
    return (key, v) :: vs

end

end Written

end BodySpec
