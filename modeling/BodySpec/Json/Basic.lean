import BodySpec.Binary64.Basic

/-!
# JSON values

An integer and a binary64 number are never equal, also where they write the same value (`1` and `1.0`); two binary64
numbers are equal as numbers. An object is the list of its members in the order of their keys, each key once: `insert`
keeps it so, and replaces the value of a key that is there.
-/

namespace BodySpec

/-- A JSON number: a whole number of the 64-bit ranges, or a finite binary64 number. -/
inductive Number where
  | int (value : Int)
  | float (value : Binary64)

namespace Number

def toBinary64 : Number → Binary64
  | int n => Binary64.ofInt n
  | float x => x

instance : BEq Number where
  beq
    | int m, int n => m == n
    | float x, float y => x == y
    | _, _ => false

end Number

inductive Json where
  | null
  | bool (value : Bool)
  | number (value : Number)
  | string (value : String)
  | array (items : List Json)
  | object (members : List (String × Json))

namespace Json

instance : Inhabited Json := ⟨null⟩

/-- The members of an object, in the order of their keys. -/
abbrev Members := List (String × Json)

/-! ## Equality -/

mutual

def beq : Json → Json → Bool
  | null, null => true
  | bool a, bool b => a == b
  | number m, number n => m == n
  | string s, string t => s == t
  | array xs, array ys => beqItems xs ys
  | object xs, object ys => beqMembers xs ys
  | _, _ => false

def beqItems : List Json → List Json → Bool
  | [], [] => true
  | x :: xs, y :: ys => beq x y && beqItems xs ys
  | _, _ => false

def beqMembers : List (String × Json) → List (String × Json) → Bool
  | [], [] => true
  | (k, x) :: xs, (l, y) :: ys => k == l && beq x y && beqMembers xs ys
  | _, _ => false

end

instance : BEq Json := ⟨beq⟩

/-! ## Members -/

namespace Members

/-- Sets the value of a key, which takes its place in the order. -/
def insert (key : String) (value : Json) : Members → Members
  | [] => [(key, value)]
  | (k, v) :: rest =>
    if key < k then (key, value) :: (k, v) :: rest
    else if key = k then (key, value) :: rest
    else (k, v) :: insert key value rest

/-- The members given, each key with its last value. -/
def ofList (pairs : List (String × Json)) : Members := pairs.foldl (fun ms p => insert p.1 p.2 ms) []

def get? (members : Members) (key : String) : Option Json := members.lookup key

def keys (members : Members) : List String := members.map Prod.fst

def contains (members : Members) (key : String) : Bool := members.keys.contains key

theorem get?_insert_self (key : String) (value : Json) (members : Members) :
    get? (insert key value members) key = some value := by
  induction members with
  | nil => simp [insert, get?]
  | cons m rest ih =>
    obtain ⟨k, v⟩ := m
    simp only [insert]
    split
    · simp [get?]
    · split
      · simp [get?]
      · rename_i hne
        have : (key == k) = false := by simpa using hne
        simpa [get?, List.lookup_cons, this] using ih

theorem get?_insert_of_ne {key other : String} (h : other ≠ key) (value : Json) (members : Members) :
    get? (insert key value members) other = get? members other := by
  have hk : (other == key) = false := by simpa using h
  induction members with
  | nil => simp [insert, get?, List.lookup_cons, hk]
  | cons m rest ih =>
    obtain ⟨k, v⟩ := m
    simp only [insert]
    split
    · simp [get?, List.lookup_cons, hk]
    · split
      · rename_i heq
        subst heq
        simp [get?, List.lookup_cons, hk]
      · simp only [get?, List.lookup_cons] at ih ⊢
        split
        · rfl
        · exact ih

end Members

/-- The value of a key; nothing but an object has one. -/
def get? (v : Json) (key : String) : Option Json :=
  match v with
  | object members => Members.get? members key
  | _ => none

def isNull : Json → Bool
  | null => true
  | _ => false

end Json

end BodySpec
