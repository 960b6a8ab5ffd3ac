import BodySpec.Builtin.Judgement

/-!
# Joined texts

The joined text of a string is the string, that of null is empty, and that of an array has the joined texts of the items
with commas in between (`Json.joined`). How numbers, booleans and objects are written does not matter here, as long as
something is written for each (`Json.WritesAll`).

An array counts as given iff its joined text is not empty, however deep other arrays are nested in it
(`Builtin.given_holds_iff_joined`). The check writes no text at all. It looks into arrays of one item only, and that is
enough, since the joined text of two or more items has a comma (`Json.joined_array_ne_empty`).
-/

namespace BodySpec

namespace Json

/-! ## The joined text of a value -/

mutual

/-- The joined text of a value, where numbers, booleans and objects are written as given. -/
def joined (write : Json → String) : Json → String
  | null => ""
  | string s => s
  | array items => ",".intercalate (joinedItems write items)
  | v => write v

def joinedItems (write : Json → String) : List Json → List String
  | [] => []
  | v :: vs => joined write v :: joinedItems write vs

end

/-- A way to write numbers, booleans and objects that writes something for each. -/
structure WritesAll (write : Json → String) : Prop where
  bool : ∀ b, write (.bool b) ≠ ""
  number : ∀ n, write (.number n) ≠ ""
  object : ∀ members, write (.object members) ≠ ""

variable {write : Json → String}

/-- An array of one item has the text of the item. -/
theorem joined_singleton (write : Json → String) (v : Json) : (array [v]).joined write = v.joined write := by
  rw [joined, joinedItems, joinedItems, String.intercalate_singleton]

/-- Two or more items have a comma in between, even if they have no text. -/
theorem joined_array_ne_empty (write : Json → String) (v w : Json) (vs : List Json) :
    (array (v :: w :: vs)).joined write ≠ "" := by
  intro h
  rw [joined, joinedItems, joinedItems, String.intercalate_cons_cons] at h
  have comma : "," = "" := (String.append_eq_empty_iff.mp (String.append_eq_empty_iff.mp h).1).2
  exact absurd comma (by decide)

end Json

/-! ## Numbers, booleans and objects -/

theorem Binary64.positional_ne_empty (digits : List Char) (exponent : Int) : positional digits exponent ≠ "" := by
  rw [positional]
  split
  · simp [String.append_eq_empty_iff]
  · split <;> simp [String.append_eq_empty_iff]

theorem Binary64.scientific_ne_empty (digits : List Char) (exponent : Int) : scientific digits exponent ≠ "" := by
  rw [scientific]
  split <;> split <;> simp [String.append_eq_empty_iff]

theorem Number.text_ne_empty (n : Number) : n.text ≠ "" := by
  cases n with
  | int i =>
    cases i with
    | ofNat m =>
      have written : (Number.int (.ofNat m)).text = String.ofList (Nat.toDigits 10 m) := Nat.toString_eq_ofList_toDigits
      rw [written]
      simp [Nat.toDigits_ne_nil]
    | negSucc m =>
      have written : (Number.int (.negSucc m)).text = "-" ++ toString (m + 1) := rfl
      simp [written, String.append_eq_empty_iff]
  | float x =>
    rw [Number.text, Binary64.text]
    split
    · simp [String.append_eq_empty_iff]
    · intro h
      have unsigned := (String.append_eq_empty_iff.mp h).2
      split at unsigned
      · exact Binary64.positional_ne_empty _ _ unsigned
      · exact Binary64.scientific_ne_empty _ _ unsigned

/-- The compact text leaves nothing out. -/
theorem Json.writesAll_text : WritesAll text where
  bool b := by cases b <;> decide
  number n := n.text_ne_empty
  object members := by simp [text, String.append_eq_empty_iff]

/-! ## Arrays that count as given -/

namespace Builtin

/-- The check of nested arrays of one item finds out whether the joined text is empty. -/
theorem hasEmptyJoin_iff {write : Json → String} (h : Json.WritesAll write) (v : Json) :
    hasEmptyJoin v = true ↔ v.joined write = "" := by
  fun_induction hasEmptyJoin v with
  | case1 => simp [Json.joined]
  | case2 s => simp [Json.joined]
  | case3 => simp [Json.joined, Json.joinedItems]
  | case4 v ih => rw [ih, Json.joined_singleton]
  | case5 v notNull notString notNil notSingle =>
    refine iff_of_false Bool.false_ne_true ?_
    cases v with
    | null => exact absurd rfl notNull
    | string s => exact absurd rfl (notString s)
    | bool b => exact h.bool b
    | number n => exact h.number n
    | object members => exact h.object members
    | array items =>
      match items with
      | [] => exact absurd rfl notNil
      | [v] => exact absurd rfl (notSingle v)
      | v :: w :: vs => exact Json.joined_array_ne_empty write v w vs

/-- **An array counts as given iff its joined text is not empty**, whatever arrays are nested in it. Of any value, the
check of nested arrays finds out whether the joined text is empty. -/
theorem given_holds_iff_joined {write : Json → String} (h : Json.WritesAll write) :
    (∀ v, hasEmptyJoin v = true ↔ v.joined write = "") ∧
    ∀ (items : List Json) (args : List (Argument Unit)),
      given.holds (.array items) args = true ↔ (Json.array items).joined write ≠ "" := by
  refine ⟨hasEmptyJoin_iff h, fun items args => ?_⟩
  show (!hasEmptyJoin (.array items)) = true ↔ _
  rw [Bool.not_eq_true', ← Bool.not_eq_true, not_congr (hasEmptyJoin_iff h _)]

/-- Three arrays around an empty text, and two around two nulls. -/
theorem given_holds_nestedNulls :
    Json.WritesAll Json.text ∧
    given.holds (.array [.array [.array [.string ""]]]) [] = false ∧
    (Json.array [.array [.array [.string ""]]]).joined Json.text = "" ∧
    given.holds (.array [.array [.null, .null]]) [] = true ∧
    (Json.array [.array [.null, .null]]).joined Json.text ≠ "" := by
  obtain ⟨empty, given_iff⟩ := given_holds_iff_joined Json.writesAll_text
  exact ⟨Json.writesAll_text, rfl, (empty _).mp rfl, rfl, (given_iff _ []).mp rfl⟩

end Builtin

end BodySpec
