import BodySpec.Binary64.Shortest
import BodySpec.Json.Basic

/-!
# The compact text of a JSON value

No blanks, members in the order of their keys, and of the characters in a string only the quote, the backslash and
those below U+0020 are escaped. A binary64 number is written with the fewest digits that read back, always with a point
or an exponent: positional if its first digit stands for `10 ^ (-5)` up to `10 ^ 15`, otherwise in scientific form.
-/

namespace BodySpec

/-! ## Numbers -/

namespace Binary64

/-- The exponents of the first digit for which the positional form is used. -/
def isPositional (exponent : Int) : Bool := -5 ≤ exponent && exponent ≤ 15

/-- `0.00123`, `12.5` or `1200.0` from the digits and the exponent of the last one. -/
def positional (digits : List Char) (exponent : Int) : String :=
  let whole := (digits.length : Int) + exponent
  if 0 ≤ exponent then String.ofList (digits ++ List.replicate exponent.toNat '0') ++ ".0"
  else if 0 < whole then
    String.ofList (digits.take whole.toNat) ++ "." ++ String.ofList (digits.drop whole.toNat)
  else "0." ++ String.ofList (List.replicate (-whole).toNat '0' ++ digits)

/-- `1.25e+20` or `5e-7` from the digits and the exponent of the first one. -/
def scientific (digits : List Char) (exponent : Int) : String :=
  let fraction := digits.drop 1
  String.ofList (digits.take 1) ++ (if fraction.isEmpty then "" else "." ++ String.ofList fraction) ++
    (if 0 ≤ exponent then "e+" else "e-") ++ toString exponent.natAbs

/-- The text of a finite number. -/
def text (x : Binary64) : String :=
  let sign := if x.negative then "-" else ""
  if x.isZero then sign ++ "0.0"
  else
    let d := x.shortest
    let digits := Nat.toDigits 10 d.significand
    let first := d.exponent + digits.length - 1
    sign ++ if isPositional first then positional digits d.exponent else scientific digits first

end Binary64

def Number.text : Number → String
  | .int n => toString n
  | .float x => x.text

/-! ## Strings -/

namespace Json

/-- Two hexadecimal digits, in lower case. -/
def hexPair (n : Nat) : String := String.ofList [Nat.digitChar (n / 16), Nat.digitChar (n % 16)]

/-- A character as it stands in a quoted string. -/
def escape (c : Char) : String :=
  match c with
  | '"' => "\\\""
  | '\\' => "\\\\"
  | '\x08' => "\\b"
  | '\x0c' => "\\f"
  | '\n' => "\\n"
  | '\r' => "\\r"
  | '\t' => "\\t"
  | c => if c.toNat < 0x20 then "\\u00" ++ hexPair c.toNat else c.toString

def quote (s : String) : String := "\"" ++ String.join (s.toList.map escape) ++ "\""

/-! ## Values -/

mutual

def text : Json → String
  | null => "null"
  | bool true => "true"
  | bool false => "false"
  | number n => n.text
  | string s => quote s
  | array items => "[" ++ ",".intercalate (itemTexts items) ++ "]"
  | object members => "\x7b" ++ ",".intercalate (memberTexts members) ++ "\x7d"

def itemTexts : List Json → List String
  | [] => []
  | v :: vs => text v :: itemTexts vs

def memberTexts : List (String × Json) → List String
  | [] => []
  | (k, v) :: ms => (quote k ++ ":" ++ text v) :: memberTexts ms

end

end Json

end BodySpec
