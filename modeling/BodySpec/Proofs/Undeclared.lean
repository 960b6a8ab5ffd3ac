import BodySpec.Proofs.Settings
import BodySpec.Proofs.Traces

/-!
# Keys that are not declared have no influence

A lenient validator is put to two objects that agree on the declared fields. If its predicates do not look at the body
(`Predicate.IgnoresBody`), it gives the same answer for both, tells an observer the same and makes the same calls, but
for the body that they are told (`Specification.validate_undeclared`).

The two runs are not equal, for the whole body is part of the context of every step. The invariant `Run.Retold` says how
they may differ: entry by entry the traces are the same, save that a call that is told the one body may stand where the
same call is told the other. A step keeps it, since what its judgement consults is put to the same values in both runs
(`Step.retold_check`), and rules and validators keep it, since they look up declared fields only.
-/

namespace BodySpec

/-! ## Runs that differ in the body that is told -/

/-- The same call, or one that is told the one body and the same told the other. -/
def Call.Retold (body body' : Json) (c c' : Call) : Prop :=
  c' = c ∨ c.context.body = body ∧ c' = { c with context := { c.context with body := body' } }

inductive Entry.Retold (body body' : Json) : Entry → Entry → Prop
  | same (e : Entry) : Entry.Retold body body' e e
  | call {c c' : Call} (h : c.Retold body body' c') : Entry.Retold body body' (.call c) (.call c')

/-- The same result, and entry by entry the same trace but for the body that predicates are told. -/
structure Run.Retold {α : Type} (body body' : Json) (x y : Run α) : Prop where
  result : y.result = x.result
  trace : List.Forall₂ (Entry.Retold body body') x.trace y.trace

namespace Run.Retold

variable {α β : Type} {body body' : Json}

theorem refl (x : Run α) : Run.Retold body body' x x :=
  ⟨rfl, List.forall₂_same.mpr fun e _ => .same e⟩

theorem bind {x y : Run α} {f g : α → Run β} (h : Run.Retold body body' x y)
    (hf : Run.Retold body body' (f x.result) (g x.result)) : Run.Retold body body' (x >>= f) (y >>= g) where
  result := by
    rw [Run.result_bind, Run.result_bind, h.result]
    exact hf.result
  trace := by
    rw [Run.trace_bind, Run.trace_bind, h.result]
    exact List.rel_append h.trace hf.trace

theorem all {check check' : α → Run Bool} {xs : List α}
    (h : ∀ x ∈ xs, Run.Retold body body' (check x) (check' x)) :
    Run.Retold body body' (Run.all check xs) (Run.all check' xs) := by
  induction xs with
  | nil => exact refl _
  | cons x xs ih =>
    refine (h x List.mem_cons_self).bind ?_
    cases (check x).result with
    | true => exact ih fun y hy => h y (List.mem_cons_of_mem x hy)
    | false => exact refl _

theorem allThrough {check check' : α → Run Bool} {xs : List α}
    (h : ∀ x ∈ xs, Run.Retold body body' (check x) (check' x)) :
    Run.Retold body body' (Run.allThrough check xs) (Run.allThrough check' xs) := by
  induction xs with
  | nil => exact refl _
  | cons x xs ih =>
    have others := ih fun y hy => h y (List.mem_cons_of_mem x hy)
    exact (h x List.mem_cons_self).bind (others.bind (refl _))

/-- Nobody is told anything else. -/
theorem noticesFor {x y : Run α} (h : Run.Retold body body' x y) (o : Observer) : y.noticesFor o = x.noticesFor o := by
  have same : ∀ e e' : Entry, e.Retold body body' e' → e'.noticeFor? o = e.noticeFor? o := by
    rintro e e' (_ | _)
    · rfl
    · rfl
  obtain ⟨_, trace⟩ := h
  unfold Run.noticesFor
  generalize x.trace = entries, y.trace = entries' at trace
  induction trace with
  | nil => rfl
  | cons he _ ih => rw [List.filterMap_cons, List.filterMap_cons, same _ _ he, ih]

/-- The calls correspond to each other. -/
theorem calls {x y : Run α} (h : Run.Retold body body' x y) :
    List.Forall₂ (Call.Retold body body') x.calls y.calls := by
  obtain ⟨_, trace⟩ := h
  unfold Run.calls
  generalize x.trace = entries, y.trace = entries' at trace
  induction trace with
  | nil => exact .nil
  | @cons e _ _ _ he _ ih =>
    cases he with
    | call hc => exact .cons hc ih
    | same =>
      cases e with
      | call c => exact .cons (.inl rfl) ih
      | _ => exact ih

end Run.Retold

/-! ## Predicates that do not look at the body -/

/-- The judgement of a predicate is the same in every body. -/
def Predicate.IgnoresBody (p : Predicate) : Prop :=
  ∀ (v : Json) (args : List (Argument Unit)) (field : String) (body body' : Json),
    p.judge v args { body, field } = p.judge v args { body := body', field }

section Checks

variable {body body' : Json}

/-- A step consults the same rules about the same values in both bodies. -/
theorem Step.retold_check {s : Step} (h : ∀ p, s.routine = .custom p → p.IgnoresBody) (v : Json) (field : String) :
    Run.Retold body body' (s.check v { body, field }) (s.check v { body := body', field }) := by
  obtain ⟨routine, args⟩ := s
  cases routine with
  | builtin b => exact .refl _
  | custom p =>
    have judged := h p rfl v (args.map Argument.erase) field body body'
    show Run.Retold body body' (Run.tell _ >>= fun _ => (p.judge v (args.map Argument.erase) { body, field }).run args)
      (Run.tell _ >>= fun _ => (p.judge v (args.map Argument.erase) { body := body', field }).run args)
    rw [judged]
    refine Run.Retold.bind ⟨rfl, ?_⟩ (.refl _)
    exact .cons (.call (.inr ⟨rfl, rfl⟩)) .nil

variable {r : Rule} (h : ∀ s ∈ r.steps, ∀ p, s.routine = .custom p → p.IgnoresBody) (o : Option Observer)
include h

theorem Rule.retold_checkSteps (v : Json) :
    Run.Retold body body' (r.checkSteps v body o) (r.checkSteps v body' o) := by
  refine .all fun s hs => ?_
  have checked : Run.Retold body body' (s.check v { body, field := r.field })
      (s.check v { body := body', field := r.field }) := Step.retold_check (h s hs) v r.field
  exact checked.bind (.refl _)

theorem Rule.retold_checkValue (v : Option Json) :
    Run.Retold body body' (r.checkValue v body o) (r.checkValue v body' o) := by
  cases v with
  | none => exact .refl _
  | some v =>
    rw [checkValue, checkValue]
    cases r.optionalOrNull && v.isNull with
    | true => exact .refl _
    | false => exact Rule.retold_checkSteps h o v

/-- A rule looks up its own field and no other. -/
theorem Rule.retold_check (same : body.get? r.field = body'.get? r.field) :
    Run.Retold body body' (r.check body o) (r.check body' o) := by
  rw [check, check, same]
  exact Rule.retold_checkValue h o _

end Checks

theorem Validator.retold_checkFields {V : Validator}
    (h : ∀ r ∈ V.rules, ∀ s ∈ r.steps, ∀ p, s.routine = .custom p → p.IgnoresBody) {body body' : Json}
    (same : ∀ r ∈ V.rules, body.get? r.field = body'.get? r.field) :
    Run.Retold body body' (V.checkFields body) (V.checkFields body') := by
  rw [checkFields, checkFields]
  cases V.observer with
  | none => exact .all fun r hr => Rule.retold_check (h r hr) none (same r hr)
  | some o => exact .allThrough fun r hr => Rule.retold_check (h r hr) (some o) (same r hr)

/-! ## Validators -/

namespace Specification

/-- The predicates that the rules of a validator call are those of its specification. -/
theorem predicates_of_compile {s : Specification} {options : Options} {V : Validator} (h : s.compile options = .ok V)
    {ok : Predicate → Prop} (hp : ∀ p ∈ s.predicates, ok p) :
    ∀ r ∈ V.rules, ∀ t ∈ r.steps, ∀ p, t.routine = .custom p → ok p := by
  have trivially : Check.Inductive options ok fun _ => True := ⟨fun _ _ => trivial, fun _ _ => trivial⟩
  intro r hr t ht
  exact (trivially.rules hp h r hr t ht).1

/-- **Keys that are not declared have no influence** on a lenient validator whose predicates do not look at the body. Of
two objects that agree on the declared fields, it gives the same answer, every observer is told the same, and the same
calls are made, save that a predicate that is told the one object is told the other instead. -/
theorem validate_undeclared {s : Specification} {options : Options} {V : Validator} (h : s.compile options = .ok V)
    (hs : options.strict = false) (hp : ∀ p ∈ s.predicates, p.IgnoresBody) {members members' : Json.Members}
    (agree : ∀ name ∈ s.names, members.get? name = members'.get? name) :
    (V.validate (.object members')).result = (V.validate (.object members)).result ∧
    (∀ o, (V.validate (.object members')).noticesFor o = (V.validate (.object members)).noticesFor o) ∧
    List.Forall₂ (Call.Retold (.object members) (.object members'))
      (V.validate (.object members)).calls (V.validate (.object members')).calls := by
  have lenient : ∀ body, V.Matches body := fun _ _ _ strict => by
    rw [strict_of_compile h, hs] at strict
    cases strict
  have declared : ∀ r ∈ V.rules, r.field ∈ s.names := fun r hr => by
    rw [← fields_of_compile h]
    exact List.mem_map_of_mem hr
  have retold : Run.Retold (.object members) (.object members') (V.validate (.object members))
      (V.validate (.object members')) := by
    rw [Validator.validate_of_matches (lenient _), Validator.validate_of_matches (lenient _)]
    exact Validator.retold_checkFields (predicates_of_compile h hp) fun r hr => agree r.field (declared r hr)
  exact ⟨retold.result, retold.noticesFor, retold.calls⟩

end Specification

/-- The name of the field itself, or whatever the first argument accepts. -/
def ownName : Predicate :=
  (Predicate.ofContext fun v _ context =>
    if v == .string context.field then .verdict true else .consult 0 v .verdict).named "ownName"

/-- A colour, and stickers with a label each. -/
def suitcase : Specification :=
  .ofFields [
    ("colour", .ofTokens [.step (.predicate ownName) [.rule (.ofTokens [.predicate ownName, .name "hex"])]]),
    ("stickers", .ofTokens [.everySpec (.ofFields [("label", .ofTokens [.step (.predicate ownName) []])])])]

/-- A suitcase without stickers, of a colour that is none. -/
def blandSuitcase : Json.Members := [("colour", .string "plain")]

/-- The same with an owner. -/
def ownedSuitcase : Json.Members := [("colour", .string "plain"), ("owner", .object [("stickers", .array [])])]

/-- Both are refused alike, after calls in the two rules of the colour, and with the same notices. -/
theorem suitcase_refuses_alike :
    ∃ V, suitcase.compile { observer := some .log } = .ok V ∧ (∀ p ∈ suitcase.predicates, p.IgnoresBody) ∧
      (∀ name ∈ suitcase.names, blandSuitcase.get? name = ownedSuitcase.get? name) ∧
      (V.validate (.object ownedSuitcase)).result = false ∧
      (V.validate (.object blandSuitcase)).calls.length = 2 ∧
      (V.validate (.object ownedSuitcase)).result = (V.validate (.object blandSuitcase)).result ∧
      (V.validate (.object ownedSuitcase)).noticesFor .log = (V.validate (.object blandSuitcase)).noticesFor .log := by
  have compiled : suitcase.compile { observer := some .log } = .ok _ := rfl
  have blind : ∀ p ∈ suitcase.predicates, p.IgnoresBody := by
    intro p hp
    have known : p ∈ [ownName, ownName, ownName] := hp
    simp only [List.mem_cons, List.not_mem_nil, or_false, or_self] at known
    rw [known]
    exact fun _ _ _ _ _ => rfl
  have agree : ∀ name ∈ suitcase.names, blandSuitcase.get? name = ownedSuitcase.get? name := by
    intro name hn
    have known : name ∈ ["colour", "stickers"] := hn
    simp only [List.mem_cons, List.not_mem_nil, or_false] at known
    rcases known with rfl | rfl
    · rfl
    · rfl
  obtain ⟨result, notices, _⟩ := Specification.validate_undeclared compiled rfl blind agree
  exact ⟨_, compiled, blind, agree, rfl, rfl, result, notices .log⟩

end BodySpec
