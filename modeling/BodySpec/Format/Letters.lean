import BodySpec.Pattern.Basic

/-!
# Letters and digits of the text formats

Digits are ASCII. Where a format ignores case, it does so by simple case folding, under which the long s (U+017F) is an
`s` and the Kelvin sign (U+212A) is a `k`.
-/

namespace BodySpec.Format

/-- A letter that folds to one of `a` to `z`. -/
def isLetter (c : Char) : Bool := c.isAlpha || c == '\u017f' || c == '\u212a'

/-- Whether a character folds to the lower case letter given. -/
def foldsTo (lower c : Char) : Bool :=
  c.toLower == lower || (lower == 's' && c == '\u017f') || (lower == 'k' && c == '\u212a')

def isHexDigit (c : Char) : Bool := c.isDigit || ('a' ≤ c && c ≤ 'f') || ('A' ≤ c && c ≤ 'F')

/-- One of the characters given. -/
def isAmong (chars : List Char) (c : Char) : Bool := chars.contains c

open Pattern

def digit : Pattern := char Char.isDigit

def hexDigit : Pattern := char isHexDigit

def letter : Pattern := char isLetter

/-- A word in any case. -/
def folded (lower : List Char) : Pattern := lower.foldr (fun c p => seq (char (foldsTo c)) p) empty

theorem isLetter_iff (c : Char) : isLetter c = true ↔ c.isAlpha = true ∨ c = '\u017f' ∨ c = '\u212a' := by
  simp [isLetter, or_assoc]

end BodySpec.Format
