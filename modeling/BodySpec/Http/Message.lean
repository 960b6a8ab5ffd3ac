import BodySpec.Http.Target

/-!
# Requests and responses

Header names are compared in lower case. The text of a header value is defined if it consists of visible ASCII
characters, spaces and tabs, and no other text becomes a header value.
-/

namespace BodySpec.Http

/-- Visible ASCII, the space and the tab. -/
def isTextByte (b : UInt8) : Bool := b == 9 || (32 ≤ b && b < 127)

/-- Whether bytes are a text that a header can have. -/
def isText (value : ByteArray) : Bool := value.data.all isTextByte

/-- The text of a header value. -/
def headerText? (value : ByteArray) : Option String :=
  if isText value then some (String.ofList (value.data.toList.map fun b => Char.ofNat b.toNat)) else none

/-- The header value of a text. -/
def headerValue? (text : String) : Option ByteArray := if isText text.toUTF8 then some text.toUTF8 else none

/-- Names, in lower case, with their values; a name may occur more than once. -/
abbrev Headers := List (String × ByteArray)

namespace Headers

/-- Headers with names in any case. -/
def ofList (pairs : List (String × ByteArray)) : Headers := pairs.map fun p => (p.1.toLower, p.2)

/-- The first value of a name. -/
def first? (headers : Headers) (name : String) : Option ByteArray := headers.lookup name

/-- Sets the only value of a name. -/
def set (headers : Headers) (name : String) (value : ByteArray) : Headers :=
  headers.filter (fun h => h.1 != name) ++ [(name, value)]

/-- Sets the only value of a name to a text, if it can be a header value. -/
def setText (headers : Headers) (name text : String) : Headers :=
  match headerValue? text with
  | some value => headers.set name value
  | none => headers

theorem first?_set (headers : Headers) (name : String) (value : ByteArray) :
    first? (set headers name value) name = some value := by
  have none_before : ∀ hs : Headers, (hs.filter fun h => h.1 != name).lookup name = none := by
    intro hs
    rw [List.lookup_eq_none_iff]
    intro h hm
    have := (List.mem_filter.mp hm).2
    simp only [bne_iff_ne, ne_eq] at this
    simpa using Ne.symm this
  simp [first?, set, List.lookup_append, none_before]

end Headers

structure Request where
  method : String
  /-- What the request is for: a path, with the query if there is one, or a whole address. -/
  target : String
  headers : Headers
  body : ByteArray

def Request.path (r : Request) : String := String.ofList (Target.path r.target.toList)

structure Response where
  status : Nat
  headers : Headers := []
  body : ByteArray := .empty

end BodySpec.Http
