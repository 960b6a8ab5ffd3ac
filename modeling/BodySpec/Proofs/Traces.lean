import BodySpec.Proofs.Invariant
import BodySpec.Proofs.RuleTraces

/-!
# What stands in the trace of a check

A rule or the validator of a nested specification leaves two kinds of entries: calls of predicates, and notices for its
observer, none of which is about the keys of a body (`Entry.Covers`). So it is with every check that compilation makes
(`Check.inductive_leaves`), since a step leaves nothing but its own call and what is left by the checks that it consults
(`Step.leaves_check`). A validator that has to match keys leaves one notice where they do not, and nothing else
(`Validator.validate_of_not_matches`).
-/

namespace BodySpec

/-! ## Runs -/

namespace Run

variable {α β : Type} {P : Entry → Prop}

/-- All entries of the trace have the property. -/
def Leaves (P : Entry → Prop) (x : Run α) : Prop := ∀ e ∈ x.trace, P e

theorem leaves_pure (a : α) : (pure a : Run α).Leaves P := fun _ he => by cases he

theorem leaves_bind {x : Run α} {f : α → Run β} (hx : x.Leaves P) (hf : (f x.result).Leaves P) :
    (x >>= f).Leaves P := by
  intro e he
  rcases List.mem_append.mp he with he | he
  · exact hx e he
  · exact hf e he

theorem leaves_tell {e : Entry} (he : P e) : (tell e).Leaves P := fun _ h => by
  rw [List.mem_singleton.mp h]
  exact he

theorem leaves_notify {observer : Option Observer} {n : Notice} (h : ∀ o, observer = some o → P (.notice o n)) :
    (notify observer n).Leaves P := by
  cases observer with
  | none => exact leaves_pure ()
  | some o => exact leaves_tell (h o rfl)

theorem leaves_all {check : α → Run Bool} {xs : List α} (h : ∀ x ∈ xs, (check x).Leaves P) :
    (all check xs).Leaves P := by
  induction xs with
  | nil => exact leaves_pure true
  | cons x xs ih =>
    refine leaves_bind (h x List.mem_cons_self) ?_
    cases (check x).result with
    | true => exact ih fun y hy => h y (List.mem_cons_of_mem x hy)
    | false => exact leaves_pure false

theorem leaves_allThrough {check : α → Run Bool} {xs : List α} (h : ∀ x ∈ xs, (check x).Leaves P) :
    (allThrough check xs).Leaves P := by
  induction xs with
  | nil => exact leaves_pure true
  | cons x xs ih =>
    have others := ih fun y hy => h y (List.mem_cons_of_mem x hy)
    exact leaves_bind (h x List.mem_cons_self) (leaves_bind others (leaves_pure _))

end Run

/-- A check that leaves such entries only, whatever the value. -/
def Check.Leaves (P : Entry → Prop) (check : Check) : Prop := ∀ v, (check v).Leaves P

/-- A judgement leaves what is left by the rules that it consults. -/
theorem Judgement.leaves_run {P : Entry → Prop} {args : List (Argument Check)}
    (h : ∀ check, Argument.rule check ∈ args → check.Leaves P) (j : Judgement) : (j.run args).Leaves P := by
  induction j with
  | verdict holds => exact Run.leaves_pure holds
  | consult position v next ih =>
    refine Run.leaves_bind ?_ (ih _)
    cases ha : args[position]? with
    | none => exact Run.leaves_pure false
    | some a =>
      cases a with
      | value w => exact Run.leaves_pure false
      | rule check => exact h check (List.mem_of_getElem? ha) v

/-! ## Checks -/

/-- A property that holds of all that checks leave: of the calls of some predicates, and of the notices for an observer
that are not about keys. -/
structure Entry.Covers (observer : Option Observer) (ok : Predicate → Prop) (P : Entry → Prop) : Prop where
  call : ∀ c : Call, ok c.predicate → P (.call c)
  notice : ∀ o n, observer = some o →
    (∀ unexpected missing, n ≠ .keyMismatch unexpected missing) → P (.notice o n)

section Checks

variable {observer : Option Observer} {ok : Predicate → Prop} {P : Entry → Prop}

theorem Run.leaves_notify_of_covers (hP : Entry.Covers observer ok P) {n : Notice}
    (hn : ∀ unexpected missing, n ≠ .keyMismatch unexpected missing) : (notify observer n).Leaves P :=
  leaves_notify fun o ho => hP.notice o n ho hn

theorem Step.leaves_check (hP : Entry.Covers observer ok P) {s : Step} (h : s.Uses ok (Check.Leaves P)) (v : Json)
    (context : Context) : (s.check v context).Leaves P := by
  obtain ⟨routine, args⟩ := s
  cases routine with
  | builtin b => exact Judgement.leaves_run h.2 _
  | custom p => exact Run.leaves_bind (Run.leaves_tell (hP.call _ (h.1 p rfl))) (Judgement.leaves_run h.2 _)

theorem Rule.leaves_checkStep (hP : Entry.Covers observer ok P) (r : Rule) {s : Step}
    (h : s.Uses ok (Check.Leaves P)) (v body : Json) : (r.checkStep v body observer s).Leaves P := by
  refine Run.leaves_bind (Step.leaves_check hP h v _) ?_
  cases (s.check v { body, field := r.field }).result with
  | true => exact Run.leaves_pure true
  | false => exact Run.leaves_bind (Run.leaves_notify_of_covers hP fun _ _ hn => by cases hn) (Run.leaves_pure false)

theorem Rule.leaves_checkValue (hP : Entry.Covers observer ok P) {r : Rule} (h : r.Uses ok (Check.Leaves P))
    (v : Option Json) (body : Json) : (r.checkValue v body observer).Leaves P := by
  cases v with
  | none =>
    refine Run.leaves_bind (Run.leaves_notify_of_covers hP fun _ _ hn => ?_) (Run.leaves_pure _)
    split at hn <;> cases hn
  | some v =>
    rw [checkValue]
    split
    · exact Run.leaves_bind (Run.leaves_notify_of_covers hP fun _ _ hn => by cases hn) (Run.leaves_pure true)
    · exact Run.leaves_all fun s hs => r.leaves_checkStep hP (h s hs) v body

theorem Validator.leaves_checkFields {V : Validator} (hP : Entry.Covers V.observer ok P)
    (h : ∀ r ∈ V.rules, r.Uses ok (Check.Leaves P)) (body : Json) : (V.checkFields body).Leaves P := by
  rw [checkFields]
  cases ho : V.observer with
  | none =>
    rw [ho] at hP
    exact Run.leaves_all fun r hr => Rule.leaves_checkValue hP (h r hr) _ body
  | some o =>
    rw [ho] at hP
    exact Run.leaves_allThrough fun r hr => Rule.leaves_checkValue hP (h r hr) _ body

end Checks

/-! ## Validators -/

namespace Validator

variable {V : Validator}

/-- The keys of a body match, if it is an object and they have to. -/
def Matches (V : Validator) (body : Json) : Prop :=
  ∀ members, body = .object members → V.strict = true → V.keysMatch members = true

/-- Where the keys match, a validator checks the fields of an object. -/
theorem validate_of_matches {members : Json.Members} (h : V.Matches (.object members)) :
    V.validate (.object members) = V.checkFields (.object members) := by
  rw [validate]
  cases hs : V.strict with
  | false => rfl
  | true => rw [h members rfl hs]; rfl

/-- Of an object whose keys do not match, it tells just that. -/
theorem validate_of_not_matches {members : Json.Members} (h : ¬ V.Matches (.object members)) :
    (V.validate (.object members)).result = false ∧ (V.validate (.object members)).trace =
      (V.observer.map fun o => .notice o (.keyMismatch (V.unexpected members) (V.missing members))).toList := by
  obtain ⟨hs, hk⟩ : V.strict = true ∧ V.keysMatch members = false := by simpa [Matches] using h
  have validate_eq : V.validate (.object members) =
      Run.notify V.observer (.keyMismatch (V.unexpected members) (V.missing members)) >>= fun _ => pure false := by
    rw [validate, hs, hk]
    rfl
  rw [validate_eq]
  refine ⟨rfl, ?_⟩
  rw [Run.trace_bind, Run.trace_notify, Run.trace_pure, List.append_nil]

/-- What is no object has no keys that could fail to match. -/
theorem exists_of_not_matches {body : Json} (h : ¬ V.Matches body) : ∃ members, body = .object members := by
  by_contra hn
  exact h fun members hm _ => absurd ⟨members, hm⟩ hn

theorem leaves_validate {ok : Predicate → Prop} {P : Entry → Prop} (hP : Entry.Covers V.observer ok P)
    (h : ∀ r ∈ V.rules, r.Uses ok (Check.Leaves P)) {body : Json} (hk : V.Matches body) :
    (V.validate body).Leaves P := by
  cases body with
  | object members =>
    rw [validate_of_matches hk]
    exact leaves_checkFields hP h _
  | _ => exact Run.leaves_bind (Run.leaves_notify_of_covers hP fun _ _ hn => by cases hn) (Run.leaves_pure false)

end Validator

/-- What holds of all that checks leave holds of what any compiled check leaves. -/
theorem Check.inductive_leaves {options : Options} {ok : Predicate → Prop} {P : Entry → Prop}
    (hP : Entry.Covers options.observer ok P) : Check.Inductive options ok (Check.Leaves P) where
  rule _ hr v := Rule.leaves_checkValue hP hr (some v) v
  validator rules hrules _ :=
    Validator.leaves_validate (V := { rules, strict := false, observer := options.observer }) hP hrules
      fun _ _ hs => by cases hs

namespace Specification

variable {s : Specification} {options : Options} {V : Validator}

theorem leaves_of_compile (h : s.compile options = .ok V) {P : Entry → Prop}
    (hP : Entry.Covers options.observer (fun _ => True) P) {body : Json} (hk : V.Matches body) :
    (V.validate body).Leaves P := by
  have uses := (Check.inductive_leaves hP).rules (fun _ _ => trivial) h
  obtain ⟨rules, _, rfl⟩ := Specification.compile_eq_ok.mp h
  exact Validator.leaves_validate hP uses hk

/-- A notice about keys is left only where the keys of a body do not match. -/
theorem not_matches_of_notice (h : s.compile options = .ok V) {body : Json} {o : Observer}
    {unexpected missing : List String}
    (hn : Entry.notice o (.keyMismatch unexpected missing) ∈ (V.validate body).trace) : ¬ V.Matches body := by
  have covers : Entry.Covers options.observer (fun _ => True)
      fun e => ∀ o unexpected missing, e ≠ .notice o (.keyMismatch unexpected missing) :=
    ⟨fun _ _ _ _ _ he => (by cases he), fun _ n _ hn _ unexpected missing he => by cases he; exact hn _ _ rfl⟩
  intro hk
  exact leaves_of_compile h covers hk _ hn o unexpected missing rfl

/-- A validator writes no record of its own. -/
theorem record_not_mem_validate (h : s.compile options = .ok V) (body : Json) (record : LogRecord) :
    Entry.record record ∉ (V.validate body).trace := by
  have covers : Entry.Covers options.observer (fun _ => True) fun e => e ≠ .record record :=
    ⟨fun _ _ he => (by cases he), fun _ _ _ _ he => by cases he⟩
  intro hr
  by_cases hk : V.Matches body
  · exact leaves_of_compile h covers hk _ hr rfl
  · obtain ⟨members, rfl⟩ := Validator.exists_of_not_matches hk
    rw [(Validator.validate_of_not_matches hk).2, Option.mem_toList] at hr
    obtain ⟨_, _, he⟩ := Option.map_eq_some_iff.mp hr
    cases he

end Specification

end BodySpec
