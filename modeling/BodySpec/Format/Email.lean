import BodySpec.Format.Letters

/-!
# E-mail addresses

A local part of runs joined by dots, an `@`, a host, and perhaps a colon and a number. The host is a dotted quad of
numbers, or a name of at least two labels whose last is a known top-level domain or two letters. Case is ignored.
-/

namespace BodySpec.Format

open Pattern

def isLocalChar (c : Char) : Bool := isLetter c || c.isDigit || isAmong "-~!$%^&*_=+\x7d\x7b\x27?".toList c

/-- What a host label may begin with. -/
def isLabelStart (c : Char) : Bool := isLetter c || c.isDigit || c == '_'

def isLabelChar (c : Char) : Bool := isLabelStart c || c == '-'

def localPart : Pattern := separatedBy '.' (plus (char isLocalChar))

def dot : Pattern := char (· == '.')

/-- The top-level domains known by name, in lower case. -/
def knownDomains : List String :=
  ["aero", "arpa", "biz", "com", "coop", "edu", "gov", "info", "int", "mil", "museum", "name", "net", "org", "pro",
    "travel", "mobi"]

def topLevelDomain : Pattern :=
  alt (anyOf (knownDomains.map fun d => folded d.toList)) (seq letter letter)

/-- A first label, any labels between, and a top-level domain. -/
def hostName : Pattern :=
  seq (char isLabelStart) (seq (star (char isLabelChar))
    (seq (star (seq dot (plus (char isLabelChar)))) (seq dot topLevelDomain)))

/-- A number of one to three digits. -/
def octet : Pattern := between 1 3 digit

def dottedQuad : Pattern := seq octet (seq dot (seq octet (seq dot (seq octet (seq dot octet)))))

/-- A colon and a number of one to five digits. -/
def colonNumber : Pattern := seq (char (· == ':')) (between 1 5 digit)

def email : Pattern :=
  seq localPart (seq (char (· == '@')) (seq (alt hostName dottedQuad) (optional colonNumber)))

end BodySpec.Format
