import BodySpec.Proofs.FirstFault
import BodySpec.Proofs.Preservation

/-!
# Observers change no answer

A validator with an observer goes on after the first field that fails, at the top and in every nested specification, and
its nested checks carry the observer into the predicates that consult them. Its answers are those of the specification
all the same, which knows of no observer (`Specification.result_of_compile`), and so is the fault of a specification
that does not compile (`Specification.of?_compile`): options that differ in their observers alone cannot be told apart
(`Specification.compile_observer`).
-/

namespace BodySpec

theorem Validator.keysMatch_congr {V W : Validator} (h : V.fields = W.fields) (members : Json.Members) :
    V.keysMatch members = W.keysMatch members := by
  have declares : V.declares = W.declares := funext fun field => congrArg (List.contains · field) h
  rw [keysMatch, keysMatch, h, declares]

/-- Validators of one specification that are equally strict give the same answers. -/
theorem Specification.result_congr {s : Specification} {options options' : Options} {V W : Validator}
    (hV : s.compile options = .ok V) (hW : s.compile options' = .ok W) (hs : options.strict = options'.strict)
    (body : Json) : (V.validate body).result = (W.validate body).result := by
  cases body with
  | object members =>
    have fields : V.fields = W.fields :=
      (Specification.fields_of_compile hV).trans (Specification.fields_of_compile hW).symm
    rw [Specification.result_of_compile hV, Specification.result_of_compile hW, hs, Validator.keysMatch_congr fields]
  | _ => rfl

/-- Specifications with the same limit of depth have the same fault. -/
theorem Specification.of?_compile_congr (s : Specification) {options options' : Options}
    (h : options.maxDepth = options'.maxDepth) : Fault.of? (s.compile options) = Fault.of? (s.compile options') := by
  rw [Specification.of?_compile, Specification.of?_compile, Specification.of?_rules, Specification.of?_rules, h]

/-- **Observers change no answer**: whoever is told, a specification has the same fault, or its validators give the same
answers. -/
theorem Specification.compile_observer (s : Specification) (options : Options) (o o' : Option Observer) :
    (∃ e, s.compile { options with observer := o } = .error e ∧
      s.compile { options with observer := o' } = .error e) ∨
    ∃ V W, s.compile { options with observer := o } = .ok V ∧ s.compile { options with observer := o' } = .ok W ∧
      ∀ body, (V.validate body).result = (W.validate body).result := by
  have same : Fault.of? (s.compile { options with observer := o }) =
      Fault.of? (s.compile { options with observer := o' }) := Specification.of?_compile_congr s rfl
  cases hV : s.compile { options with observer := o } with
  | error e =>
    rw [hV, Fault.of?_error] at same
    exact .inl ⟨e, rfl, Fault.of?_eq_some.mp same.symm⟩
  | ok V =>
    rw [hV, Fault.of?_ok] at same
    obtain ⟨W, hW⟩ := Fault.of?_eq_none.mp same.symm
    exact .inr ⟨V, W, rfl, hW, Specification.result_congr hV hW rfl⟩

/-- A predicate that answers the opposite of its first argument. -/
def opposite : Predicate :=
  (Predicate.ofContext fun v _ _ => .consult 0 v fun holds => .verdict !holds).named "opposite"

/-- Guests with a chair and with anything but a flag for a plate, and a host. -/
def banquet : Specification :=
  .ofFields [
    ("guests", .ofTokens [.everySpec (.ofFields [
      ("plate", .ofTokens [.step (.predicate opposite) [.rule (.ofTokens [.name "boolean"])]]),
      ("chair", .ofTokens [.name "boolean"])])]),
    ("host", .ofTokens [.name "object"])]

/-- One guest, without a chair, and no host. -/
def guestAlone : Json := .object [("guests", .array [.object [("plate", .null)]])]

/-- The banquet is refused whether or not someone is told. Without an observer the check ends with the guests. With one
it goes on to the host, and tells of the plate as well, which is no flag, as it should be. -/
theorem banquet_refuses_guestAlone :
    ∃ V W, banquet.compile {} = .ok V ∧ banquet.compile { observer := some .log } = .ok W ∧
      (V.validate guestAlone).result = false ∧ (W.validate guestAlone).result = false ∧
      (W.validate guestAlone).noticesFor .log = [
        .stepFailed "plate" "boolean" [] .null,
        .missingField "chair",
        .stepFailed "guests" "every" [.rule ()] (.array [.object [("plate", .null)]]),
        .missingField "host"] := by
  have compiled : banquet.compile {} = .ok _ := rfl
  have observed : banquet.compile { observer := some .log } = .ok _ := rfl
  rcases Specification.compile_observer banquet {} none (some .log) with ⟨_, fault, _⟩ | ⟨V, W, hV, hW, same⟩
  · cases compiled.symm.trans fault
  · have refused : (V.validate guestAlone).result = false := by
      cases compiled.symm.trans hV
      rfl
    refine ⟨V, W, hV, hW, refused, (same guestAlone).symm.trans refused, ?_⟩
    cases observed.symm.trans hW
    rfl

end BodySpec
