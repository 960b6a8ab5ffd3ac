import BodySpec.Proofs.Addresses
import BodySpec.Proofs.Classes
import BodySpec.Proofs.Preservation

/-!
# Identifiers, hexadecimal texts and intervals

The shapes of identifiers, hexadecimal texts and intervals of time, said of texts and groups of characters, without
patterns. Main statement: the validators accept the texts of these shapes and no others, and the one of lists of
identifiers judges as the rule that every item is an identifier (`Builtin.fixedShapes_iff`).

A shape is read off its pattern one part after the other; what stands between two hyphens is a group of a fixed length.
That nothing outside ASCII and no line feed is accepted follows from the classes of the patterns alone
(`Pattern.forall_mem_of_matches`).
-/

namespace BodySpec

namespace Shape

def IsHexDigit (c : Char) : Prop :=
  ('0' ≤ c ∧ c ≤ '9') ∨ ('a' ≤ c ∧ c ≤ 'f') ∨ ('A' ≤ c ∧ c ≤ 'F')

def IsHex (s : List Char) : Prop := ∀ c ∈ s, IsHexDigit c

def IsObjectId (s : List Char) : Prop := s.length = 24 ∧ IsHex s

/-- Groups of 8, 4, 4, 4 and 12 hexadecimal digits, joined by hyphens. The third begins with a 4 and the fourth with one
of four digits. -/
def IsGuid (s : List Char) : Prop :=
  ∃ a b c d e : List Char, (a.length = 8 ∧ b.length = 4 ∧ c.length = 4 ∧ d.length = 4 ∧ e.length = 12) ∧
    (∀ g ∈ [a, b, c, d, e], IsHex g) ∧ c.head? = some '4' ∧
    (∃ variant ∈ ['8', '9', 'a', 'b', 'A', 'B'], d.head? = some variant) ∧ s = ['-'].intercalate [a, b, c, d, e]

/-- A number of one to four digits, a space and a unit of time. -/
def IsInterval (s : List Char) : Prop :=
  ∃ (number : List Char) (unit : String),
    (1 ≤ number.length ∧ number.length ≤ 4) ∧ (∀ c ∈ number, Address.IsDigit c) ∧
    unit ∈ ["seconds", "minutes", "hours", "days", "weeks", "months", "years"] ∧ s = number ++ ' ' :: unit.toList

theorem IsGuid.length_eq {s : List Char} (h : IsGuid s) : s.length = 36 := by
  obtain ⟨a, b, c, d, e, ⟨ha, hb, hc, hd, he⟩, _, _, _, rfl⟩ := h
  simp [List.intercalate_cons_cons, ha, hb, hc, hd, he]

end Shape

open Shape

namespace Format

open Pattern

theorem isHexDigit_iff (c : Char) : isHexDigit c = true ↔ IsHexDigit c := by
  simp only [isHexDigit, isDigit_iff, IsHexDigit, Bool.or_eq_true, Bool.and_eq_true, decide_eq_true_eq, or_assoc]
  exact Iff.rfl

theorem matches_objectId {s : List Char} : Matches objectId s ↔ IsObjectId s := by
  simp only [objectId, hexDigit, matches_exactly_char, isHexDigit_iff]
  exact Iff.rfl

theorem matches_hex {s : List Char} : Matches hex s ↔ IsHex s := by
  simp only [hex, hexDigit, matches_star_char, isHexDigit_iff]
  exact Iff.rfl

theorem isHexDigit_of_isVariant {c : Char} (h : c ∈ ['8', '9', 'a', 'b', 'A', 'B']) : IsHexDigit c := by
  have digits : ['8', '9', 'a', 'b', 'A', 'B'].all isHexDigit = true := by decide
  exact (isHexDigit_iff c).mp (List.all_eq_true.mp digits c h)

theorem isAmong_variants_iff (c : Char) :
    isAmong "89abAB".toList c = true ↔ c ∈ ['8', '9', 'a', 'b', 'A', 'B'] := by
  rw [isAmong, List.contains_iff_mem]
  exact Iff.rfl

theorem matches_guid {s : List Char} : Matches guid s ↔ IsGuid s := by
  simp only [guid, hyphen, hexDigit, matches_seq_between, matches_seq_char, matches_exactly_char,
    isHexDigit_iff, beq_iff_eq,
    isAmong_variants_iff]
  constructor
  · rintro ⟨a, _, rfl, ⟨la, ha⟩, b, _, rfl, ⟨lb, hb⟩, _, _, rfl, rfl, c, _, rfl, ⟨lc, hc⟩,
      v, _, rfl, hv, d, e, rfl, ⟨ld, hd⟩,
      le, he⟩
    refine ⟨a, b, '4' :: c, v :: d, e, ⟨la, lb, by simp [lc], by simp [ld], le⟩, ?_, rfl, ⟨v, hv, rfl⟩,
      by simp [List.intercalate_cons_cons]⟩
    have third : IsHex ('4' :: c) := List.forall_mem_cons.mpr ⟨.inl (by decide), hc⟩
    have fourth : IsHex (v :: d) := List.forall_mem_cons.mpr ⟨isHexDigit_of_isVariant hv, hd⟩
    simp only [List.forall_mem_cons]
    exact ⟨ha, hb, third, fourth, he, List.forall_mem_nil _⟩
  · rintro ⟨a, b, c, d, e, ⟨la, lb, lc, ld, le⟩, digits, hc, ⟨v, hv, hd⟩, rfl⟩
    obtain ⟨c, rfl⟩ := List.head?_eq_some_iff.mp hc
    obtain ⟨d, rfl⟩ := List.head?_eq_some_iff.mp hd
    simp only [List.forall_mem_cons] at digits
    obtain ⟨ha, hb, third, fourth, he, _⟩ := digits
    refine ⟨a, _, by simp [List.intercalate_cons_cons], ⟨la, ha⟩, b, _, rfl, ⟨lb, hb⟩, _, _, rfl, rfl,
      c, _, rfl, ⟨by simpa using lc, ?_⟩,
      v, _, rfl, hv, d, e, rfl, ⟨by simpa using ld, ?_⟩, le, he⟩
    · exact fun x hx => third x (List.mem_cons_of_mem _ hx)
    · exact fun x hx => fourth x (List.mem_cons_of_mem _ hx)

theorem matches_interval {s : List Char} : Matches interval s ↔ IsInterval s := by
  simp only [interval, digit, matches_seq_between, matches_between_char (by decide : 1 ≤ 4),
    isDigit_iff, matches_anyOf]
  constructor
  · rintro ⟨number, rest, rfl, ⟨length, digits⟩, p, hp, hrest⟩
    obtain ⟨unit, hunit, rfl⟩ := List.mem_map.mp hp
    rw [matches_text.mp hrest]
    exact ⟨number, unit, length, digits, hunit, rfl⟩
  · rintro ⟨number, unit, length, digits, hunit, rfl⟩
    exact ⟨number, _, rfl, ⟨length, digits⟩, _, List.mem_map_of_mem hunit, matches_text.mpr rfl⟩

/-! ## Classes -/

/-- A printable ASCII character. -/
def IsVisible (c : Char) : Prop := ' ' ≤ c ∧ c ≤ '~'

instance (c : Char) : Decidable (IsVisible c) := inferInstanceAs (Decidable (' ' ≤ c ∧ c ≤ '~'))

theorem isVisible_of_isDigit {c : Char} (h : c.isDigit = true) : IsVisible c := by
  have range : 48 ≤ c.toNat ∧ c.toNat ≤ 57 := (isDigit_iff c).mp h
  have visible : 32 ≤ c.toNat ∧ c.toNat ≤ 126 := by omega
  exact visible

theorem isVisible_of_isHexDigit {c : Char} (h : isHexDigit c = true) : IsVisible c := by
  have range : (48 ≤ c.toNat ∧ c.toNat ≤ 57) ∨ (97 ≤ c.toNat ∧ c.toNat ≤ 102) ∨
      (65 ≤ c.toNat ∧ c.toNat ≤ 70) :=
    (isHexDigit_iff c).mp h
  have visible : 32 ≤ c.toNat ∧ c.toNat ≤ 126 := by omega
  exact visible

theorem isVisible_of_beq {d : Char} (h : IsVisible d) : ∀ c, (c == d) = true → IsVisible c :=
  fun _ same => eq_of_beq same ▸ h

theorem isVisible_of_mem_timeUnits {u : String} (hu : u ∈ timeUnits) : ∀ c ∈ u.toList, IsVisible c := by
  have all : timeUnits.all (fun u => u.toList.all fun c => decide (IsVisible c)) = true := by decide
  exact fun c hc => of_decide_eq_true (List.all_eq_true.mp (List.all_eq_true.mp all u hu) c hc)

/-- The classes of the fixed shapes are of printable ASCII characters. -/
theorem allClasses_isVisible : ∀ p ∈ [objectId, hex, guid, interval],
    p.AllClasses fun belongs => ∀ c, belongs c = true → IsVisible c := by
  have digit : digit.AllClasses fun belongs => ∀ c, belongs c = true → IsVisible c := fun _ => isVisible_of_isDigit
  have hexDigit : hexDigit.AllClasses fun belongs => ∀ c, belongs c = true → IsVisible c :=
    fun _ => isVisible_of_isHexDigit
  have hyphen : hyphen.AllClasses fun belongs => ∀ c, belongs c = true → IsVisible c := isVisible_of_beq (by decide)
  have variant : ∀ c, isAmong "89abAB".toList c = true → IsVisible c := fun c hc =>
    isVisible_of_isHexDigit ((isHexDigit_iff c).mpr (isHexDigit_of_isVariant ((isAmong_variants_iff c).mp hc)))
  simp only [List.forall_mem_cons]
  refine ⟨hexDigit.exactly 24, hexDigit, ?_, ?_, List.forall_mem_nil _⟩
  · exact ⟨hexDigit.exactly 8, hyphen, hexDigit.exactly 4, hyphen, isVisible_of_beq (by decide),
      hexDigit.exactly 3, hyphen,
      variant, hexDigit.exactly 3, hyphen, hexDigit.exactly 12⟩
  · refine ⟨digit.between 1 4, isVisible_of_beq (by decide), allClasses_anyOf.mpr fun p hp => ?_⟩
    obtain ⟨u, hu, rfl⟩ := List.mem_map.mp hp
    exact allClasses_text.mpr fun c hc => isVisible_of_beq (isVisible_of_mem_timeUnits hu c hc)

theorem isVisible_of_accepts {p : Pattern} (hp : p ∈ [objectId, hex, guid, interval]) {s : List Char}
    (h : p.accepts s = true) : ∀ c ∈ s, IsVisible c :=
  forall_mem_of_matches (allClasses_isVisible p hp) ((accepts_iff p s).mp h)

end Format

/-! ## Lists of identifiers -/

theorem Builtin.guidArray_holds_iff (v : Json) (args : List (Argument Unit)) :
    guidArray.holds v args = true ↔
      ∃ items, v = .array items ∧ ∀ item ∈ items, guid.holds item [] = true := by
  cases v with
  | array items =>
    have all : guidArray.holds (.array items) args = items.all isGuid := rfl
    rw [all, List.all_eq_true]
    constructor
    · intro h
      exact ⟨items, rfl, h⟩
    · rintro ⟨_, ⟨⟩, h⟩
      exact h
  | _ => simp [holds]

/-- A step of `every` is the whole rule of its declaration. -/
theorem Declaration.rule_every {options : Options} {site : Site} {p : Parameter} {a : Argument Check}
    (h : p.argument options site true = .ok a) :
    (Declaration.ofTokens [.step (.name "every") [p]]).rule options site = .ok {
      field := site.field, steps := [{ routine := .builtin .every, args := [a] }],
      optional := false, optionalOrNull := false } := by
  have arguments : Parameter.arguments options site true [p] = .ok [a] := by
    rw [Parameter.arguments, h]
    rfl
  have named : Builtin.ofName? "every" = some .every := Builtin.ofName?_name .every
  have clause : (Token.step (.name "every") [p]).clause options site =
      .ok (.step { routine := .builtin .every, args := [a] }) := by
    rw [Token.clause]
    exact Clause.ofName_eq_ok.mpr (.inr ⟨.every, [a], rfl, named, arguments, rfl⟩)
  exact Declaration.rule_eq_ok.mpr ⟨_, .cons clause .nil, rfl⟩

/-- The parameters that ask every item to be an identifier: the name of the validator, alone or in an array, and the
rule of that name. -/
def guidParameters : List Parameter :=
  [.value (.string "guid"), .value (.array [.string "guid"]), .rule (.ofTokens [.name "guid"])]

theorem passesNamed_guid (v : Json) : Builtin.passesNamed "guid" [] v = Builtin.isGuid v :=
  Builtin.passesNamed_of_ofName? (Builtin.ofName?_name .guid) [] v

theorem meaning_of_mem_guidParameters {p : Parameter} (hp : p ∈ guidParameters) (field : String) :
    p.meaning field true = .rule Builtin.isGuid := by
  have single : (Json.array [.string "guid"]).rulePasses = Builtin.isGuid := funext passesNamed_guid
  simp only [guidParameters, List.mem_cons, List.not_mem_nil, or_false] at hp
  rcases hp with rfl | rfl | rfl
  · exact congrArg Argument.rule ((Json.rulePasses_string "guid").trans single)
  · exact congrArg Argument.rule single
  · refine congrArg Argument.rule (funext fun v => ?_)
    have none : (Declaration.ofTokens [.name "guid"]).carries .optionalOrNull = false := rfl
    rw [Declaration.allows, none, Bool.and_false, Bool.false_or]
    exact (Bool.and_true _).trans (passesNamed_guid v)

theorem argument_of_mem_guidParameters {p : Parameter} (hp : p ∈ guidParameters) {options : Options} {site : Site}
    (h : site.depth + 1 ≤ options.maxDepth) : ∃ a, p.argument options site true = .ok a := by
  have named : Builtin.ofName? "guid" = some .guid := Builtin.ofName?_name .guid
  have single : ∃ a, (Json.array [.string "guid"]).asRule options site = .ok a :=
    ⟨_, Json.asRule_step_eq_ok.mpr ⟨h, .guid, [], rfl, named, rfl, rfl⟩⟩
  simp only [guidParameters, List.mem_cons, List.not_mem_nil, or_false] at hp
  rcases hp with rfl | rfl | rfl
  · obtain ⟨a, ha⟩ := single
    exact ⟨a, (Json.asRule_string options site "guid").trans ha⟩
  · exact single
  · have clause : (Token.name "guid").clause options { site with depth := site.depth + 1 } =
        .ok (.step { routine := .builtin .guid, args := [] }) := by
      rw [Token.clause]
      exact Clause.ofName_eq_ok.mpr (.inr ⟨.guid, [], rfl, named, rfl, rfl⟩)
    exact ⟨_, Parameter.argument_rule_eq_ok.mpr
      ⟨h, _, Declaration.rule_eq_ok.mpr ⟨_, .cons clause .nil, rfl⟩, rfl⟩⟩

/-- A specification whose only field asks every item of an array to be an identifier has one rule, and this rule judges
a value as the validator of lists of identifiers does. -/
theorem Specification.compile_every_guid {p : Parameter} (hp : p ∈ guidParameters)
    (field : String) {options : Options}
    (h : 1 ≤ options.maxDepth) : ∃ r,
    (Specification.empty.insert field (.ofTokens [.step (.name "every") [p]])).compile options =
      .ok { rules := [r], strict := options.strict, observer := options.observer } ∧
    ∀ (v body : Json) (o : Option Observer) (args : List (Argument Unit)),
      (r.checkValue (some v) body o).result = Builtin.guidArray.holds v args := by
  have enters : (⟨field, 0⟩ : Site).depth + 1 ≤ options.maxDepth := h
  obtain ⟨a, ha⟩ := argument_of_mem_guidParameters hp enters
  have rule := Declaration.rule_every ha
  refine ⟨_, Specification.compile_eq_ok.mpr ⟨_, Specification.rulesAt_eq_ok.mpr (.cons rule .nil), rfl⟩, ?_⟩
  intro v body o args
  have named : Builtin.ofName? "every" = some .every := Builtin.ofName?_name .every
  have meaning : Parameter.meanings field (decide ("every" = "every")) [p] = [.rule Builtin.isGuid] := by
    rw [Parameter.meanings_eq]
    exact congrArg (fun a => [a]) (meaning_of_mem_guidParameters hp field)
  have step : (Token.step (.name "every") [p]).holds { body, field } v = Builtin.guidArray.holds v args := by
    rw [Token.holds, meaning, Builtin.passesNamed_of_ofName? named]
    cases v <;> rfl
  have none : (Declaration.ofTokens [.step (.name "every") [p]]).carries .optionalOrNull = false := rfl
  rw [(Specification.preserved_cases options).declaration _ _ _ rule, Declaration.allows, none,
    Bool.and_false, Bool.false_or,
    ← step]
  exact Bool.and_true _

namespace Builtin

/-- An identifier is accepted by its form alone: the count of characters, which is asked for as
well, follows from it. -/
theorem guid_holds_string (s : String) (args : List (Argument Unit)) :
    guid.holds (.string s) args = Format.guid.accepts s.toList := by
  have judged : guid.holds (.string s) args = (s.length == 36 && Format.guid.accepts s.toList) := rfl
  rw [judged]
  cases h : Format.guid.accepts s.toList with
  | false => exact Bool.and_false _
  | true =>
    have length : s.length = 36 := by
      rw [← String.length_toList]
      exact (Format.matches_guid.mp ((Pattern.accepts_iff _ _).mp h)).length_eq
    rw [length]
    rfl

/-- **The texts of the fixed shapes are accepted, and nothing else.** An accepted text is printable ASCII, so it has no
letter that folds to another and no line feed at its end, and an identifier has 36 characters. A number or boolean is
judged by its text, but is no identifier, and null, an array or an object has none of the shapes. A list of identifiers
is an array whose items are identifiers, and this is what a declaration says that asks every item to be one. -/
theorem fixedShapes_iff (args : List (Argument Unit)) :
    (∀ s : String,
      (objectId.holds (.string s) args = true ↔ IsObjectId s.toList) ∧
      (hex.holds (.string s) args = true ↔ IsHex s.toList) ∧
      (guid.holds (.string s) args = true ↔ IsGuid s.toList) ∧
      (interval.holds (.string s) args = true ↔ IsInterval s.toList)) ∧
    (∀ b ∈ [objectId, hex, guid, interval], ∀ s : String, b.holds (.string s) args = true →
      ∀ c ∈ s.toList, ' ' ≤ c ∧ c ≤ '~') ∧
    (∀ s : String, guid.holds (.string s) args = true → s.length = 36) ∧
    (∀ b ∈ [objectId, hex, interval],
      (∀ n : Number, b.holds (.number n) args = b.holds (.string n.text) args) ∧
      ∀ x : Bool, b.holds (.bool x) args = b.holds (.string (toString x)) args) ∧
    (∀ n, guid.holds (.number n) args = false) ∧ (∀ x, guid.holds (.bool x) args = false) ∧
    (∀ b ∈ [objectId, hex, guid, interval], b.holds .null args = false ∧
      (∀ items, b.holds (.array items) args = false) ∧
      ∀ members, b.holds (.object members) args = false) ∧
    (∀ v, guidArray.holds v args = true ↔
      ∃ items, v = .array items ∧ ∀ item ∈ items, guid.holds item [] = true) ∧
    ∀ p ∈ guidParameters, ∀ (field : String) (options : Options), 1 ≤ options.maxDepth → ∃ r,
      (Specification.empty.insert field (.ofTokens [.step (.name "every") [p]])).compile options =
        .ok { rules := [r], strict := options.strict, observer := options.observer } ∧
      ∀ v body o, (r.checkValue (some v) body o).result = guidArray.holds v args := by
  have identifier : ∀ s : String, guid.holds (.string s) args = true ↔ IsGuid s.toList := fun s => by
    rw [guid_holds_string]
    exact (Pattern.accepts_iff Format.guid s.toList).trans Format.matches_guid
  refine ⟨fun s => ⟨?_, ?_, identifier s, ?_⟩, ?_, fun s h => ((identifier s).mp h).length_eq, ?_,
    fun _ => rfl, fun _ => rfl,
    ?_, fun v => guidArray_holds_iff v args, ?_⟩
  · exact (Pattern.accepts_iff Format.objectId s.toList).trans Format.matches_objectId
  · exact (Pattern.accepts_iff Format.hex s.toList).trans Format.matches_hex
  · exact (Pattern.accepts_iff Format.interval s.toList).trans Format.matches_interval
  · simp only [List.forall_mem_cons]
    exact ⟨fun _ h => Format.isVisible_of_accepts (p := Format.objectId) (by simp) h,
      fun _ h => Format.isVisible_of_accepts (p := Format.hex) (by simp) h,
      fun s h => Format.isVisible_of_accepts (p := Format.guid) (by simp) (guid_holds_string s args ▸ h),
      fun _ h => Format.isVisible_of_accepts (p := Format.interval) (by simp) h, List.forall_mem_nil _⟩
  · simp only [List.forall_mem_cons]
    exact ⟨⟨fun _ => rfl, fun _ => rfl⟩, ⟨fun _ => rfl, fun _ => rfl⟩, ⟨fun _ => rfl, fun _ => rfl⟩,
      List.forall_mem_nil _⟩
  · simp only [List.forall_mem_cons]
    exact ⟨⟨rfl, fun _ => rfl, fun _ => rfl⟩, ⟨rfl, fun _ => rfl, fun _ => rfl⟩,
      ⟨rfl, fun _ => rfl, fun _ => rfl⟩,
      ⟨rfl, fun _ => rfl, fun _ => rfl⟩, List.forall_mem_nil _⟩
  · intro p hp field options h
    obtain ⟨r, compiled, judged⟩ := Specification.compile_every_guid hp field h
    exact ⟨r, compiled, fun v body o => judged v body o args⟩

/-- An identifier in both cases, an interval, and lists of identifiers at the least depth that allows them. -/
theorem fixedShapes_inBothCases :
    IsGuid "3f2504E0-4F89-41d3-9a0C-0305e82c3301".toList ∧ (∀ c ∈ "30 days".toList, ' ' ≤ c ∧ c ≤ '~') ∧
    ∃ r, (Specification.empty.insert "ids" (.ofTokens [.step (.name "every") [.value (.string "guid")]])).compile
        { maxDepth := 1 } = .ok { rules := [r], strict := false, observer := none } ∧
      ∀ v body o, (r.checkValue (some v) body o).result = guidArray.holds v [] := by
  obtain ⟨shapes, visible, _, _, _, _, _, _, compiled⟩ := fixedShapes_iff []
  refine ⟨(shapes "3f2504E0-4F89-41d3-9a0C-0305e82c3301").2.2.1.mp (by decide +kernel), ?_, ?_⟩
  · exact visible interval (by decide) "30 days" (by decide +kernel)
  · exact compiled (.value (.string "guid")) (List.mem_cons_self ..) "ids" { maxDepth := 1 } (by decide)

end Builtin

end BodySpec
