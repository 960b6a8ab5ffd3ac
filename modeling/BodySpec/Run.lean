import BodySpec.Notice

/-!
# Runs

Checking a value gives a result and leaves a trace: the notices for observers, the calls of predicates and the records
written to the log, in the order in which they happen. `Run` is the writer monad of traces. An observer is a name; what
it does with its notices is read off the trace afterwards, so it cannot change a result.
-/

namespace BodySpec

/-- A call of a predicate. -/
structure Call where
  predicate : Predicate
  value : Json
  args : List (Argument Unit)
  context : Context

inductive Entry where
  | notice (observer : Observer) (n : Notice)
  | call (c : Call)
  | record (r : LogRecord)

namespace Entry

/-- The notice, if it is one for this observer. -/
def noticeFor? (o : Observer) : Entry → Option Notice
  | notice observer n => if observer = o then some n else none
  | _ => none

def call? : Entry → Option Call
  | call c => some c
  | _ => none

/-- What the entry adds to the log: a record, or a notice for the log. -/
def record? : Entry → Option LogRecord
  | notice .log n => some n.toRecord
  | record r => some r
  | _ => none

end Entry

/-- A result and what happened on the way to it. -/
structure Run (α : Type) where
  result : α
  trace : List Entry

namespace Run

variable {α β : Type}

instance : Monad Run where
  pure a := ⟨a, []⟩
  bind x f := ⟨(f x.result).result, x.trace ++ (f x.result).trace⟩

@[simp] theorem result_pure (a : α) : (pure a : Run α).result = a := rfl

@[simp] theorem trace_pure (a : α) : (pure a : Run α).trace = [] := rfl

@[simp] theorem result_bind (x : Run α) (f : α → Run β) : (x >>= f).result = (f x.result).result := rfl

@[simp] theorem trace_bind (x : Run α) (f : α → Run β) : (x >>= f).trace = x.trace ++ (f x.result).trace := rfl

@[ext] theorem ext {x y : Run α} (hr : x.result = y.result) (ht : x.trace = y.trace) : x = y := by
  cases x; cases y; simp_all

instance : LawfulMonad Run :=
  LawfulMonad.mk' Run
    (fun x => by cases x; simp [Functor.map])
    (fun _ _ => by ext1 <;> simp)
    (fun _ _ _ => by ext1 <;> simp [List.append_assoc])

/-- A trace of one entry. -/
def tell (e : Entry) : Run Unit := ⟨(), [e]⟩

/-- Tells the observer, if there is one. -/
def notify (observer : Option Observer) (n : Notice) : Run Unit :=
  match observer with
  | none => pure ()
  | some o => tell (.notice o n)

/-- Whether all elements pass, up to the first that fails. -/
def all (check : α → Run Bool) : List α → Run Bool
  | [] => pure true
  | x :: xs => do
    if ← check x then all check xs else pure false

/-- Whether all elements pass; every one is checked. -/
def allThrough (check : α → Run Bool) : List α → Run Bool
  | [] => pure true
  | x :: xs => do
    let first ← check x
    let others ← allThrough check xs
    pure (first && others)

/-- What the observer is told. -/
def noticesFor (o : Observer) (x : Run α) : List Notice := x.trace.filterMap (Entry.noticeFor? o)

/-- The calls of predicates. -/
def calls (x : Run α) : List Call := x.trace.filterMap Entry.call?

/-- What is written to the log. -/
def log (x : Run α) : List LogRecord := x.trace.filterMap Entry.record?

theorem result_all (check : α → Run Bool) (xs : List α) :
    (all check xs).result = xs.all fun x => (check x).result := by
  induction xs with
  | nil => rfl
  | cons x xs ih => cases h : (check x).result <;> simp [all, h, ih]

theorem result_allThrough (check : α → Run Bool) (xs : List α) :
    (allThrough check xs).result = xs.all fun x => (check x).result := by
  induction xs with
  | nil => rfl
  | cons x xs ih => simp only [allThrough, result_bind, result_pure, List.all_cons, ih]

end Run

/-- The yes-or-no check of a value. -/
abbrev Check := Json → Run Bool

/-- Puts the questions of a judgement to the rules among the arguments. A question to what is no rule is answered no. -/
def Judgement.run (args : List (Argument Check)) : Judgement → Run Bool
  | verdict holds => pure holds
  | consult position v next => do
    let check := (args[position]?.bind Argument.rule?).getD fun _ => pure false
    let holds ← check v
    (next holds).run args

end BodySpec
