import BodySpec.Text.Printable

/-!
# The shown form

How values of the library are shown for inspection: strings in quotes with every character that does not print as an
escape, lists in brackets, and records and tuples after their name.
-/

namespace BodySpec.Text

/-- A number in hexadecimal, in lower case and without leading zeros. -/
def hexadecimal (n : Nat) : String := String.ofList (Nat.toDigits 16 n)

def showChar (c : Char) : String :=
  match c with
  | '\x00' => "\\0"
  | '\t' => "\\t"
  | '\n' => "\\n"
  | '\r' => "\\r"
  | '"' => "\\\""
  | '\\' => "\\\\"
  | c => if isPrintable c then c.toString else "\\u\x7b" ++ hexadecimal c.toNat ++ "\x7d"

def showString (s : String) : String := "\"" ++ String.join (s.toList.map showChar) ++ "\""

def showBool (b : Bool) : String := if b then "true" else "false"

/-- `[a, b]` -/
def showList (items : List String) : String := "[" ++ ", ".intercalate items ++ "]"

/-- `Name(a, b)` -/
def showTuple (name : String) (items : List String) : String := name ++ "(" ++ ", ".intercalate items ++ ")"

/-- `Name { a: x, b: y }` -/
def showRecord (name : String) (fields : List (String × String)) : String :=
  name ++ " \x7b " ++ ", ".intercalate (fields.map fun f => f.1 ++ ": " ++ f.2) ++ " \x7d"

end BodySpec.Text
