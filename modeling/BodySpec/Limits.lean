import BodySpec.Json.Reader
import BodySpec.Text.Shown

/-!
# Limits of a guard

The number of bytes up to which a body is read. Limits are written in JSON as an object with the one member
`max_body_size`. They are read from an object, where other members do not matter and an absent one means the default, or
from an array of at most that one value.
-/

namespace BodySpec

structure Limits where
  maxBodySize : Nat := 1024 * 1024
  deriving DecidableEq

namespace Limits

def key : String := "max_body_size"

def json (l : Limits) : Json := .object [(key, .number (.int l.maxBodySize))]

/-- A size: a numeral that is an integer and not negative. -/
def size? : Written → Option Nat
  | .numeral n =>
    match n.value? with
    | some (.int i) => if 0 ≤ i then some i.toNat else none
    | _ => none
  | _ => none

/-- The size among the members of an object, which may be given once. The size found so far is passed along. -/
def ofMembers? (found : Option Nat) : List (List TextUnit × Written) → Option Limits
  | [] => some (match found with
    | some n => { maxBodySize := n }
    | none => {})
  | (k, w) :: ms => do
    let name ← TextUnit.string? k
    if name = key then
      if found.isSome then none
      else do
        let n ← size? w
        ofMembers? (some n) ms
    else ofMembers? found ms

def ofWritten? : Written → Option Limits
  | .object members => ofMembers? none members
  | .array [] => some {}
  | .array [w] => (size? w).map fun n => { maxBodySize := n }
  | _ => none

/-- Limits written in JSON. Values that do not matter may be nested to any depth. -/
def ofText? (text : String) : Option Limits := (Written.read? text.length text.toList).bind ofWritten?

end Limits

end BodySpec
