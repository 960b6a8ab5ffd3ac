import BodySpec.Proofs.Observation
import BodySpec.Proofs.Settings
import BodySpec.Proofs.Traces

/-!
# A strict validator asks for exactly the declared keys

Strictness is a question about the keys of a body that is put before anything else, and nothing more
(`Specification.compile_strict`): the rules of a strict validator are those of the lenient one
(`Specification.validator_unique`), and so are the checks of nested specifications in them. If the keys are the declared
fields, the two do the same (`Validator.validate_of_matches`). If not, the strict one answers no, and all it tells is
which keys are not declared and which fields are lacking (`Validator.validate_of_not_matches`).

Nobody else tells of keys: a notice about them cannot come from a nested check (`Specification.not_matches_of_notice`).
-/

namespace BodySpec

/-! ## Keys and fields -/

namespace Specification

/-- The keys of a body are the declared fields. -/
def HasKeys (s : Specification) (body : Json) : Prop := ∀ key, key ∈ body.keys ↔ key ∈ s.names

/-- The keys of a body that are not declared, in the order of the keys. -/
def undeclared (s : Specification) (body : Json) : List String := body.keys.filter fun key => !s.names.contains key

/-- The declared fields that a body lacks, in the order of their declarations. -/
def lacking (s : Specification) (body : Json) : List String := s.names.filter fun name => !body.keys.contains name

theorem mem_undeclared {s : Specification} {body : Json} {key : String} :
    key ∈ s.undeclared body ↔ key ∈ body.keys ∧ key ∉ s.names := by
  simp [undeclared]

theorem mem_lacking {s : Specification} {body : Json} {name : String} :
    name ∈ s.lacking body ↔ name ∈ s.names ∧ name ∉ body.keys := by
  simp [lacking]

/-- The keys are the declared fields when none is undeclared and none is lacking. -/
theorem hasKeys_iff {s : Specification} {body : Json} :
    s.HasKeys body ↔ s.undeclared body = [] ∧ s.lacking body = [] := by
  simp only [List.eq_nil_iff_forall_not_mem, mem_undeclared, mem_lacking, not_and, not_not]
  constructor
  · intro h
    exact ⟨fun key => (h key).mp, fun key => (h key).mpr⟩
  · rintro ⟨declared, present⟩ key
    exact ⟨declared key, present key⟩

end Specification

/-! ## Strict validators -/

section Strict

variable {s : Specification} {options : Options} {V : Validator} {members : Json.Members}

/-- What does not match is what is undeclared and what is lacking. -/
theorem Specification.unexpected_of_compile (h : s.compile options = .ok V) (members : Json.Members) :
    V.unexpected members = s.undeclared (.object members) ∧ V.missing members = s.lacking (.object members) := by
  have fields : V.fields = s.names := Specification.fields_of_compile h
  constructor
  · simp only [Validator.unexpected, Validator.declares, fields]
    rfl
  · simp only [Validator.missing, fields]
    rfl

theorem Specification.matches_of_compile (h : s.compile options = .ok V) (hs : options.strict = true)
    (hb : (Json.object members).keys.Pairwise (· < ·)) :
    V.Matches (.object members) ↔ s.HasKeys (.object members) := by
  have fields : V.fields = s.names := Specification.fields_of_compile h
  have keysMatch := V.keysMatch_iff (Json.Members.nodup_of_ordered hb)
  rw [fields] at keysMatch
  rw [← Specification.strict_of_compile h] at hs
  constructor
  · intro hk
    exact keysMatch.mp (hk members rfl hs)
  · rintro hk _ ⟨⟩ _
    exact keysMatch.mpr hk

/-- A strict validator of an object whose keys are not the declared fields tells just that. -/
theorem Specification.validate_of_not_hasKeys (h : s.compile options = .ok V) (hs : options.strict = true)
    (hb : (Json.object members).keys.Pairwise (· < ·)) (hk : ¬ s.HasKeys (.object members)) :
    (V.validate (.object members)).result = false ∧ (V.validate (.object members)).trace =
      (options.observer.map fun o => .notice o
        (.keyMismatch (s.undeclared (.object members)) (s.lacking (.object members)))).toList := by
  have told := Validator.validate_of_not_matches (mt (Specification.matches_of_compile h hs hb).mp hk)
  obtain ⟨undeclared, lacking⟩ := Specification.unexpected_of_compile h members
  rw [undeclared, lacking] at told
  obtain ⟨rules, _, rfl⟩ := Specification.compile_eq_ok.mp h
  exact told

/-- A notice about keys tells of an object whose keys are not the declared fields. -/
theorem Specification.not_hasKeys_of_notice (h : s.compile options = .ok V) (hs : options.strict = true) {body : Json}
    (hb : body.keys.Pairwise (· < ·)) {o : Observer} {unexpected missing : List String}
    (hn : Entry.notice o (.keyMismatch unexpected missing) ∈ (V.validate body).trace) :
    (∃ members, body = .object members) ∧ ¬ s.HasKeys body := by
  have mismatch := Specification.not_matches_of_notice h hn
  obtain ⟨members, rfl⟩ := Validator.exists_of_not_matches mismatch
  exact ⟨⟨members, rfl⟩, mt (Specification.matches_of_compile h hs hb).mpr mismatch⟩

/-- The strict validator accepts what the lenient one accepts if the keys are the declared fields. -/
theorem Specification.result_of_strict {W : Validator} (hV : s.compile { options with strict := true } = .ok V)
    (hW : s.compile { options with strict := false } = .ok W) {body : Json} (hb : body.keys.Pairwise (· < ·)) :
    (V.validate body).result = true ↔ (W.validate body).result = true ∧ s.HasKeys body := by
  have strict : V = { W with strict := V.strict } := Specification.validator_unique hV hW rfl
  have lenient : W.strict = false := Specification.strict_of_compile hW
  cases body with
  | object members =>
    by_cases hk : s.HasKeys (.object members)
    · have checked : V.validate (.object members) = V.checkFields (.object members) :=
        Validator.validate_of_matches ((Specification.matches_of_compile hV rfl hb).mpr hk)
      have checked' : W.validate (.object members) = W.checkFields (.object members) :=
        Validator.validate_of_matches fun _ _ hs => by rw [lenient] at hs; cases hs
      have same : V.checkFields (.object members) = W.checkFields (.object members) := by
        rw [strict]
        rfl
      rw [checked, checked', same]
      exact ⟨fun h => ⟨h, hk⟩, fun h => h.1⟩
    · rw [(Specification.validate_of_not_hasKeys hV rfl hb hk).1]
      constructor
      · intro h
        cases h
      · rintro ⟨_, h⟩
        exact absurd h hk
  | _ =>
    constructor
    · intro h
      cases h
    · rintro ⟨h, _⟩
      cases h

end Strict

/-- **A strict validator asks for exactly the declared keys.** A specification compiles strictly iff it compiles, with
the same fault otherwise, and to the same rules. The strict validator accepts the bodies that the lenient one accepts
and whose keys are the declared fields. Of an object whose keys are not, and of no other body, it tells the keys that
are not declared and the fields that are lacking, and it does nothing else. The keys of a body are in order, as those of
any that is read (`Json.ordered_of_ofBytes?`). -/
theorem Specification.compile_strict (s : Specification) (options : Options) :
    (∃ e, s.compile { options with strict := true } = .error e ∧
      s.compile { options with strict := false } = .error e) ∨
    ∃ V W, s.compile { options with strict := true } = .ok V ∧
      s.compile { options with strict := false } = .ok W ∧
      V.rules = W.rules ∧
      ∀ body : Json, body.keys.Pairwise (· < ·) →
        ((V.validate body).result = true ↔ (W.validate body).result = true ∧ s.HasKeys body) ∧
        ∀ o, options.observer = some o →
          ((∃ o' unexpected missing,
              Entry.notice o' (.keyMismatch unexpected missing) ∈ (V.validate body).trace) ↔
            (∃ members, body = .object members) ∧ ¬ s.HasKeys body) ∧
          ((∃ members, body = .object members) → ¬ s.HasKeys body →
            (V.validate body).trace = [.notice o (.keyMismatch (s.undeclared body) (s.lacking body))] ∧
            (s.undeclared body).Pairwise (· < ·) ∧ ¬ (s.undeclared body = [] ∧ s.lacking body = [])) := by
  have same : Fault.of? (s.compile { options with strict := true }) =
      Fault.of? (s.compile { options with strict := false }) := Specification.of?_compile_congr s rfl
  cases hV : s.compile { options with strict := true } with
  | error e =>
    rw [hV, Fault.of?_error] at same
    exact .inl ⟨e, rfl, Fault.of?_eq_some.mp same.symm⟩
  | ok V =>
    rw [hV, Fault.of?_ok] at same
    obtain ⟨W, hW⟩ := Fault.of?_eq_none.mp same.symm
    have rules : V.rules = W.rules := by rw [Specification.validator_unique hV hW rfl]
    refine .inr ⟨V, W, rfl, hW, rules, fun body hb => ⟨Specification.result_of_strict hV hW hb, fun o ho => ?_⟩⟩
    have told : ∀ members, body = .object members → ¬ s.HasKeys body →
        (V.validate body).trace = [.notice o (.keyMismatch (s.undeclared body) (s.lacking body))] := by
      rintro members rfl hk
      rw [(Specification.validate_of_not_hasKeys hV rfl hb hk).2, ho]
      rfl
    refine ⟨⟨?_, ?_⟩, ?_⟩
    · rintro ⟨o', unexpected, missing, hn⟩
      exact Specification.not_hasKeys_of_notice hV rfl hb hn
    · rintro ⟨⟨members, hm⟩, hk⟩
      rw [told members hm hk]
      exact ⟨o, _, _, List.mem_cons_self⟩
    · rintro ⟨members, hm⟩ hk
      exact ⟨told members hm hk, hb.filter _, mt Specification.hasKeys_iff.mpr hk⟩

/-- A task that is done or not, and a mark that may be absent. -/
def task : Specification :=
  .ofFields [
    ("done", .ofTokens [.name "boolean"]),
    ("mark", .ofTokens [.name "boolean", .modifier .optional])]

def labelledTask : Json := .object [("done", .bool true), ("label", .null)]

/-- The lenient validator accepts a task with a label. The strict one refuses it, and tells that the label is not
declared and that the mark is lacking, though it may be absent. -/
theorem task_refuses_label :
    (labelledTask.keys.Pairwise (· < ·)) ∧
    ∃ V W, task.compile { strict := true, observer := some .log } = .ok V ∧
      task.compile { observer := some .log } = .ok W ∧ (W.validate labelledTask).result = true ∧
      (V.validate labelledTask).result = false ∧
      (V.validate labelledTask).trace = [.notice .log (.keyMismatch ["label"] ["mark"])] := by
  have ordered : labelledTask.keys.Pairwise (· < ·) := by decide +kernel
  have compiled : task.compile { observer := some .log } = .ok _ := rfl
  have others : ¬ task.HasKeys labelledTask := fun keys => absurd ((keys "mark").mpr (by decide)) (by decide)
  rcases Specification.compile_strict task { observer := some .log } with
    ⟨_, _, fault⟩ | ⟨V, W, hV, hW, _, exact⟩
  · cases compiled.symm.trans fault
  · obtain ⟨accepted, told⟩ := exact labelledTask ordered
    refine ⟨ordered, V, W, hV, hW, ?_, ?_, ((told .log rfl).2 ⟨_, rfl⟩ others).1⟩
    · cases compiled.symm.trans hW
      rfl
    · exact Bool.eq_false_iff.mpr fun accepts => others (accepted.mp accepts).2

end BodySpec
