import BodySpec.Proofs.KeySet
import BodySpec.Proofs.Resolution
import Mathlib.Data.Finset.Card

/-!
# Declaring fields one after another

A specification that is made by declaring fields, beginning with none, is a map that keeps the order of its keys
(`Specification.declaring_map`). `Specification.Records` says what it has kept of a sequence of declarations: the names,
in the order in which they were first declared, and for each name the last declaration that it was given. One more
declaration is recorded as well (`Specification.Records.insert`), whether it takes the place of another or a place of
its own, and so is any sequence of them (`Specification.records_declaring`).

Since a name is listed once, there is one rule for each name, in that order. On this rests the count of keys that a
strict validator makes.
-/

namespace BodySpec

namespace Specification

/-- The specification that is made by declaring fields one after another, beginning with none. -/
def declaring (entries : List (String × Declaration)) : Specification :=
  entries.foldl (fun s f => s.insert f.1 f.2) .empty

/-- What a specification keeps of the fields that were declared. -/
structure Records (s : Specification) (entries : List (String × Declaration)) : Prop where
  /-- The names are those that were declared. -/
  mem_names_iff : ∀ name, name ∈ s.names ↔ name ∈ entries.map Prod.fst
  /-- A name that was first declared before another stands before it. -/
  ordered : s.names.Pairwise fun a b => (entries.map Prod.fst).idxOf a < (entries.map Prod.fst).idxOf b
  /-- A name has the last declaration that it was given. -/
  get?_eq : ∀ name, s.get? name = entries.reverse.lookup name

/-! ## One declaration -/

section Insert

variable (s : Specification) (name : String) (d : Declaration)

theorem names_setField (fs : List (String × Declaration)) : (setField name d fs).map Prod.fst =
    if name ∈ fs.map Prod.fst then fs.map Prod.fst else fs.map Prod.fst ++ [name] := by
  induction fs with
  | nil => simp [setField]
  | cons f fs ih =>
    obtain ⟨n, e⟩ := f
    by_cases hn : n = name
    · simp [setField, hn]
    · have other : name ≠ n := Ne.symm hn
      rw [setField, if_neg hn, List.map_cons, ih]
      by_cases hm : name ∈ fs.map Prod.fst <;> simp [hm, other]

/-- A name that is declared again keeps its place, and a new one is put at the end. -/
theorem names_insert : (s.insert name d).names = if name ∈ s.names then s.names else s.names ++ [name] :=
  names_setField name d s.fields

theorem mem_names_insert {other : String} :
    other ∈ (s.insert name d).names ↔ other ∈ s.names ∨ other = name := by
  rw [names_insert]
  by_cases hm : name ∈ s.names
  · rw [if_pos hm]
    constructor
    · exact .inl
    · rintro (h | rfl)
      · exact h
      · exact hm
  · rw [if_neg hm, List.mem_append, List.mem_singleton]

end Insert

variable {s : Specification} {entries : List (String × Declaration)}

/-- One more declaration is recorded. -/
theorem Records.insert (h : s.Records entries) (name : String) (d : Declaration) :
    (s.insert name d).Records (entries ++ [(name, d)]) where
  mem_names_iff other := by
    rw [mem_names_insert, h.mem_names_iff]
    simp
  ordered := by
    have declared : ∀ a ∈ s.names, a ∈ entries.map Prod.fst := fun a ha => (h.mem_names_iff a).mp ha
    -- the names that were there were declared before, so that their first places stay the same
    have before : s.names.Pairwise fun a b =>
        (entries.map Prod.fst ++ [name]).idxOf a < (entries.map Prod.fst ++ [name]).idxOf b := by
      refine h.ordered.imp_of_mem fun ha hb hab => ?_
      rwa [List.idxOf_append_of_mem (declared _ ha), List.idxOf_append_of_mem (declared _ hb)]
    rw [List.map_append, List.map_singleton, names_insert]
    by_cases hm : name ∈ s.names
    · rwa [if_pos hm]
    · have absent : name ∉ entries.map Prod.fst := mt (h.mem_names_iff name).mpr hm
      rw [if_neg hm, List.pairwise_append]
      refine ⟨before, List.pairwise_singleton _ _, fun a ha b hb => ?_⟩
      rw [List.mem_singleton.mp hb, List.idxOf_append_of_mem (declared a ha), List.idxOf_append_of_notMem absent]
      exact Nat.lt_add_right _ (List.idxOf_lt_length_of_mem (declared a ha))
  get?_eq other := by
    rw [List.reverse_append, List.reverse_singleton, List.singleton_append]
    by_cases hn : other = name
    · rw [hn, get?_insert_self, List.lookup_cons_self]
    · have differs : (other == name) = false := by simpa using hn
      rw [get?_insert_of_ne hn, h.get?_eq, List.lookup_cons, differs]

/-- **All declarations are recorded**, however many there are and whichever names they are of. -/
theorem records_declaring (entries : List (String × Declaration)) : (declaring entries).Records entries := by
  induction entries using List.reverseRecOn with
  | nil => exact ⟨fun _ => Iff.rfl, .nil, fun _ => rfl⟩
  | append_singleton entries f ih =>
    rw [declaring, List.foldl_append]
    exact ih.insert f.1 f.2

/-! ## What is recorded -/

theorem Records.nodup_names (h : s.Records entries) : s.names.Nodup := by
  refine h.ordered.imp fun hab same => ?_
  rw [same] at hab
  exact Nat.lt_irrefl _ hab

theorem Records.get?_eq_none_iff (h : s.Records entries) (name : String) :
    s.get? name = none ↔ name ∉ entries.map Prod.fst := by
  rw [h.get?_eq, List.lookup_eq_none_iff]
  constructor
  · intro other declared
    obtain ⟨f, hf, rfl⟩ := List.mem_map.mp declared
    simpa using other f (List.mem_reverse.mpr hf)
  · intro absent f hf
    have declared : f.1 ∈ entries.map Prod.fst := List.mem_map_of_mem (List.mem_reverse.mp hf)
    exact bne_iff_ne.mpr fun same => absent (same ▸ declared)

/-- There are as many fields as names were declared. -/
theorem Records.size_eq (h : s.Records entries) : s.size = (entries.map Prod.fst).toFinset.card := by
  have names : (entries.map Prod.fst).toFinset = s.names.toFinset := by
    ext name
    rw [List.mem_toFinset, List.mem_toFinset, h.mem_names_iff]
  rw [names, List.toFinset_card_of_nodup h.nodup_names, Specification.names, List.length_map, Specification.size]

/-- In a list without repeated names, to be found under a name is to be listed with it. -/
theorem mem_iff_lookup_eq_some {fs : List (String × Declaration)} (hn : (fs.map Prod.fst).Nodup) (name : String)
    (d : Declaration) : (name, d) ∈ fs ↔ fs.lookup name = some d := by
  induction fs with
  | nil => simp
  | cons f fs ih =>
    obtain ⟨n, e⟩ := f
    obtain ⟨first, others⟩ := List.nodup_cons.mp hn
    rw [List.mem_cons, List.lookup_cons]
    by_cases h : name = n
    · subst h
      have absent : (name, d) ∉ fs := fun hd => first (List.mem_map.mpr ⟨_, hd, rfl⟩)
      simp [absent, eq_comm]
    · have differs : (name == n) = false := by simpa using h
      rw [differs, ← ih others]
      simp [h]

/-- **A specification is a map that keeps the order of its keys.** Of fields that are declared one after another, it has
each name once, in the order in which they were first declared (`Records`), with the last declaration of each, and none
for any other name. One more declaration changes that of no other name. There is one rule for each name, in that order,
and as many distinct names as there are rules. -/
theorem declaring_map (entries : List (String × Declaration)) :
    (declaring entries).Records entries ∧ (declaring entries).names.Nodup ∧
    (∀ name d, (name, d) ∈ (declaring entries).fields ↔ (declaring entries).get? name = some d) ∧
    (∀ name, (declaring entries).get? name = none ↔ name ∉ entries.map Prod.fst) ∧
    (∀ name, (declaring entries).contains name = true ↔ ∃ d, (declaring entries).get? name = some d) ∧
    (declaring entries).size = (entries.map Prod.fst).toFinset.card ∧
    (∀ name d other, other ≠ name →
      ((declaring entries).insert name d).get? other = (declaring entries).get? other) ∧
    ∀ options rules, (declaring entries).rules options = .ok rules →
      rules.map Rule.field = (declaring entries).names ∧
      ∃ V, (declaring entries).compile options = .ok V ∧ V.rules = rules ∧
        (∀ name, V.declares name = true ↔ name ∈ entries.map Prod.fst) ∧
        V.fields.eraseDups.length = V.rules.length := by
  have records := records_declaring entries
  refine ⟨records, records.nodup_names, mem_iff_lookup_eq_some records.nodup_names, records.get?_eq_none_iff,
    fun name => Option.isSome_iff_exists, records.size_eq, fun name d other h => get?_insert_of_ne h _ d, ?_⟩
  intro options rules hr
  have fields : rules.map Rule.field = (declaring entries).names := fields_of_rulesAt hr
  refine ⟨fields, _, compile_eq_ok.mpr ⟨rules, hr, rfl⟩, rfl, fun name => ?_, ?_⟩
  · rw [Validator.declares, Validator.fields, fields, List.contains_iff_mem, records.mem_names_iff]
  · have distinct : (rules.map Rule.field).Nodup := fields ▸ records.nodup_names
    have counted := ((length_eq_and_subset_iff distinct).mpr fun _ => Iff.rfl).1
    rw [List.length_map] at counted
    exact counted.symm

/-- A field that is declared twice, and another in between. -/
def declaredTwice : List (String × Declaration) :=
  [("title", .ofTokens [.name "string"]), ("done", .ofTokens [.name "boolean"]), ("title", .ofTokens [.name "number"])]

/-- The field keeps its place and has its second declaration, so that there are two rules. -/
theorem declaredTwice_map :
    ∃ rules, (declaring declaredTwice).rules {} = .ok rules ∧ rules.map Rule.field = ["title", "done"] ∧
      (declaring declaredTwice).get? "title" = some (.ofTokens [.name "number"]) ∧
      ∃ V, (declaring declaredTwice).compile {} = .ok V ∧ V.rules = rules ∧
        V.fields.eraseDups.length = V.rules.length := by
  have normalized : (declaring declaredTwice).rules {} = .ok _ := rfl
  obtain ⟨records, _, _, _, _, _, _, compiled⟩ := declaring_map declaredTwice
  obtain ⟨fields, V, hV, rules, _, counted⟩ := compiled {} _ normalized
  exact ⟨_, normalized, fields, records.get?_eq "title", V, hV, rules, counted⟩

end Specification

end BodySpec
