import BodySpec.Calendar.Layout
import Mathlib.Data.List.Infix

/-!
# What scanners take

A scanner takes from the front of a text and leaves an end of it (`Scan.Advances`), and takes the characters of its
form, so that it fails on a text without them (`Scan.Needs`). Both go from parts to sequences. So no form with a time of
day reads a text without a colon (`Timestamp.accepts_eq_false`, `MailDate.accepts_eq_false`,
`Layout.moment?_eq_none_of_not_mem`).
-/

namespace BodySpec

namespace Text

theorem trimStart_suffix (s : List Char) : trimStart s <:+ s := List.dropWhile_suffix isBlank

theorem digits_suffix (s : List Char) : (digits s).2 <:+ s := by
  obtain ⟨run, hs, _⟩ := exists_digits s
  exact ⟨run, hs.symm⟩

theorem digitsUpTo_suffix (n : Nat) (s : List Char) : (digitsUpTo n s).2 <:+ s := by
  fun_induction digitsUpTo n s with
  | case1 s => exact List.suffix_rfl
  | case2 n => exact List.suffix_rfl
  | case3 n c s h => exact List.suffix_rfl
  | case4 n c s d h ih => exact ih.trans (List.suffix_cons c s)

end Text

namespace Calendar

namespace Scan

open Text

variable {α β : Type}

theorem bind_eq_some {p : Scan α} {f : α → Scan β} {s : List Char} {r : β × List Char} :
    (p >>= f) s = some r ↔ ∃ a rest, p s = some (a, rest) ∧ f a rest = some r := by
  have bound : (p >>= f) s = (p s).bind fun x => f x.1 x.2 := rfl
  rw [bound, Option.bind_eq_some_iff]
  exact ⟨fun ⟨x, hx, h⟩ => ⟨x.1, x.2, hx, h⟩, fun ⟨a, rest, hx, h⟩ => ⟨(a, rest), hx, h⟩⟩

/-! ## What is left -/

/-- What the scanner leaves of a text is an end of it. -/
def Advances (p : Scan α) : Prop := ∀ s a rest, p s = some (a, rest) → rest <:+ s

theorem advances_pure (a : α) : Advances (pure a : Scan α) := by
  rintro s _ _ ⟨⟩
  exact List.suffix_rfl

theorem Advances.bind {p : Scan α} {f : α → Scan β} (hp : Advances p) (hf : ∀ a, Advances (f a)) :
    Advances (p >>= f) := by
  intro s b rest h
  obtain ⟨a, between, first, second⟩ := bind_eq_some.mp h
  exact (hf a between b rest second).trans (hp s a between first)

theorem advances_blanks : Advances blanks := by
  rintro s _ _ ⟨⟩
  exact trimStart_suffix s

theorem someBlanks_cons (c : Char) (s : List Char) :
    someBlanks (c :: s) = if isBlank c then some ((), trimStart s) else none := rfl

theorem char_cons (c d : Char) (s : List Char) : char c (d :: s) = if d = c then some ((), s) else none := rfl

theorem oneOf_cons (cs : List Char) (d : Char) (s : List Char) :
    oneOf cs (d :: s) = if d ∈ cs then some (d, s) else none := rfl

theorem advances_someBlanks : Advances someBlanks := by
  intro s a rest h
  cases s with
  | nil => cases h
  | cons c s =>
    rw [someBlanks_cons, Option.ite_none_right_eq_some] at h
    cases h.2
    exact (trimStart_suffix s).trans (List.suffix_cons c s)

theorem advances_char (c : Char) : Advances (char c) := by
  intro s a rest h
  cases s with
  | nil => cases h
  | cons d s =>
    rw [char_cons, Option.ite_none_right_eq_some] at h
    cases h.2
    exact List.suffix_cons _ _

theorem advances_oneOf (cs : List Char) : Advances (oneOf cs) := by
  intro s a rest h
  cases s with
  | nil => cases h
  | cons d s =>
    rw [oneOf_cons, Option.ite_none_right_eq_some] at h
    cases h.2
    exact List.suffix_cons _ _

theorem advances_digitsExactly (count : Nat) : Advances (digitsExactly count) := by
  intro s a rest h
  simp only [digitsExactly] at h
  split at h
  · cases h
    exact digitsUpTo_suffix count s
  · cases h

theorem advances_digitsAtMost (count : Nat) : Advances (digitsAtMost count) := by
  intro s a rest h
  have suffix := digitsUpTo_suffix count s
  rw [digitsAtMost] at h
  split at h
  · cases h
  · rename_i ds left read
    cases h
    rwa [read] at suffix

theorem advances_digitsAtLeast (count : Nat) : Advances (digitsAtLeast count) := by
  intro s a rest h
  simp only [digitsAtLeast] at h
  split at h
  · cases h
    exact digits_suffix s
  · cases h

theorem advances_fraction : Advances fraction := by
  intro s a rest h
  unfold fraction at h
  split at h
  · rename_i t
    have suffix := digits_suffix t
    split at h
    · cases h
    · rename_i ds left read
      cases h
      rw [read] at suffix
      exact suffix.trans (List.suffix_cons '.' t)
  · cases h
    exact List.suffix_rfl

theorem advances_wordOf (words : List String) : Advances (wordOf words) := by
  intro s a rest h
  rw [wordOf] at h
  obtain ⟨i, _, h⟩ := Option.bind_eq_some_iff.mp h
  obtain ⟨w, _, h⟩ := Option.map_eq_some_iff.mp h
  cases h
  exact List.drop_suffix w.length s

theorem advances_shortMonth : Advances shortMonth := (advances_wordOf _).bind fun i => advances_pure (i + 1)

theorem advances_monthName : Advances monthName := by
  refine advances_shortMonth.bind fun month s a rest h => ?_
  split at h
  · cases h
    exact List.drop_suffix _ s
  · cases h
    exact List.suffix_rfl

/-! ## What is needed -/

/-- The scanner fails on a text without the character. -/
def Needs (p : Scan α) (c : Char) : Prop := ∀ s a rest, p s = some (a, rest) → c ∈ s

theorem needs_char (c : Char) : Needs (char c) c := by
  intro s a rest h
  cases s with
  | nil => cases h
  | cons d s =>
    rw [char_cons, Option.ite_none_right_eq_some] at h
    exact h.1 ▸ List.mem_cons_self

theorem Needs.bind {p : Scan α} {c : Char} (h : Needs p c) (f : α → Scan β) : Needs (p >>= f) c := by
  intro s b rest hs
  obtain ⟨a, between, first, _⟩ := bind_eq_some.mp hs
  exact h s a between first

theorem Advances.needs {p : Scan α} {f : α → Scan β} {c : Char} (hp : Advances p) (hf : ∀ a, Needs (f a) c) :
    Needs (p >>= f) c := by
  intro s b rest hs
  obtain ⟨a, between, first, second⟩ := bind_eq_some.mp hs
  exact (hp s a between first).mem (hf a between b rest second)

theorem Needs.whole?_eq_none {p : Scan α} {c : Char} (h : Needs p c) {s : List Char} (hs : c ∉ s) :
    whole? p s = none := by
  rw [whole?]
  split
  · rename_i a read
    exact absurd (h s a [] read) hs
  · rfl

end Scan

/-! ## Forms with a time of day -/

open Scan

theorem Timestamp.needs_colon : Needs Timestamp.scan ':' := by
  refine (advances_digitsExactly 4).needs fun _ => ?_
  refine (advances_char '-').needs fun _ => ?_
  refine (advances_digitsExactly 2).needs fun _ => ?_
  refine (advances_char '-').needs fun _ => ?_
  refine (advances_digitsExactly 2).needs fun _ => ?_
  refine (advances_oneOf _).needs fun _ => ?_
  refine (advances_digitsExactly 2).needs fun _ => ?_
  exact (needs_char ':').bind _

theorem Timestamp.accepts_eq_false {s : List Char} (h : ':' ∉ s) : Timestamp.accepts s = false := by
  rw [accepts, needs_colon.whole?_eq_none h, Option.any_none]

namespace MailDate

theorem advances_scanWeekday : Advances scanWeekday := by
  intro s a rest h
  unfold scanWeekday at h
  split at h
  · rename_i day t read
    cases h
    exact (List.suffix_cons ',' rest).trans (advances_wordOf weekdays s day _ read)
  · cases h
  · cases h
    exact List.suffix_rfl

theorem advances_scanYear : Advances scanYear := (advances_digitsAtLeast 2).bind fun _ => advances_pure _

theorem needs_colon : Needs MailDate.scan ':' := by
  refine advances_blanks.needs fun _ => ?_
  refine advances_scanWeekday.needs fun _ => ?_
  refine advances_blanks.needs fun _ => ?_
  refine (advances_digitsAtMost 2).needs fun _ => ?_
  refine advances_someBlanks.needs fun _ => ?_
  refine advances_shortMonth.needs fun _ => ?_
  refine advances_someBlanks.needs fun _ => ?_
  refine advances_scanYear.needs fun _ => ?_
  refine advances_someBlanks.needs fun _ => ?_
  refine (advances_digitsExactly 2).needs fun _ => ?_
  refine advances_blanks.needs fun _ => ?_
  exact (needs_char ':').bind _

theorem accepts_eq_false {s : List Char} (h : ':' ∉ s) : MailDate.accepts s = false := by
  rw [accepts, needs_colon.whole?_eq_none h, Option.any_none]

end MailDate

namespace Layout

theorem advances_scanYear : Advances scanYear := by
  intro s a rest h
  unfold scanYear at h
  split at h
  · rename_i t
    obtain ⟨x, read, h⟩ := Option.map_eq_some_iff.mp h
    cases h
    exact (advances_digitsAtLeast 1 t _ _ read).trans (List.suffix_cons '-' t)
  · rename_i t
    obtain ⟨x, read, h⟩ := Option.map_eq_some_iff.mp h
    cases h
    exact (advances_digitsAtLeast 1 t _ _ read).trans (List.suffix_cons '+' t)
  · obtain ⟨x, read, h⟩ := Option.map_eq_some_iff.mp h
    cases h
    exact advances_digitsAtMost 4 _ _ _ read

theorem advances_scanPair : Advances scanPair := advances_blanks.bind fun _ => advances_digitsAtMost 2

theorem advances_scanPart (m : Moment) (part : LayoutPart) : Advances (scanPart m part) := by
  cases part with
  | year => exact advances_blanks.bind fun _ => advances_scanYear.bind fun _ => advances_pure _
  | fraction => exact advances_fraction.bind fun _ => advances_pure _
  | monthName => exact advances_monthName.bind fun _ => advances_pure _
  | blanks => exact advances_blanks.bind fun _ => advances_pure _
  | char c => exact (advances_char c).bind fun _ => advances_pure _
  | _ => exact advances_scanPair.bind fun _ => advances_pure _

/-- A layout needs each of its characters. -/
theorem needs_of_mem {layout : Layout} {c : Char} (h : .char c ∈ layout) (m : Moment) :
    Needs (layout.foldlM scanPart m) c := by
  induction layout generalizing m with
  | nil => cases h
  | cons part layout ih =>
    rw [List.foldlM_cons]
    rcases List.mem_cons.mp h with rfl | h
    · exact ((needs_char c).bind _).bind _
    · exact (advances_scanPart m part).needs fun m => ih h m

theorem moment?_eq_none_of_not_mem {layout : Layout} {c : Char} (h : .char c ∈ layout)
    {s : List Char} (hs : c ∉ s) :
    layout.moment? s = none :=
  (needs_of_mem h _).whole?_eq_none hs

theorem colon_mem_of_mem_dateTimes {layout : Layout} (h : layout ∈ dateTimes) : .char ':' ∈ layout := by
  simp only [dateTimes, List.mem_cons, List.not_mem_nil, or_false] at h
  rcases h with rfl | rfl | rfl | rfl <;> simp [dateTime]

end Layout

end Calendar

end BodySpec
