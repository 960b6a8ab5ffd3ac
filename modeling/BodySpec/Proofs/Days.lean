import BodySpec.Builtin.Judgement
import BodySpec.Proofs.Reading
import Mathlib.Tactic.IntervalCases

/-!
# Days in each written form

`IsDay` is the proleptic Gregorian calendar and `SpellsDay` the six written forms of a day, both said without the
scanners. A text of one of the forms is read by the layout of its form, which finds the day as written, and by no other
layout (`Layout.OnlyReadBy`); the forms with a time of day need a colon. The text is then a date just if there is such a
day (`Builtin.date_holds_iff_isDay`).
-/

namespace BodySpec

namespace Calendar

/-! ## The calendar -/

/-- Every fourth year, but of the full centuries only every fourth. -/
def IsLeap (year : Nat) : Prop := 400 ∣ year ∨ (4 ∣ year ∧ ¬ 100 ∣ year)

instance : DecidablePred IsLeap := fun year =>
  inferInstanceAs (Decidable (400 ∣ year ∨ (4 ∣ year ∧ ¬ 100 ∣ year)))

/-- The days of each month of the year. -/
def monthLengths (year : Nat) : List Nat :=
  [31, if IsLeap year then 29 else 28, 31, 30, 31, 30, 31, 31, 30, 31, 30, 31]

/-- There is such a day; months and days are counted from 1. -/
def IsDay (year month day : Nat) : Prop := 1 ≤ month ∧ 1 ≤ day ∧ day ≤ (monthLengths year).getD (month - 1) 0

instance (year month day : Nat) : Decidable (IsDay year month day) :=
  inferInstanceAs (Decidable (1 ≤ month ∧ 1 ≤ day ∧ day ≤ (monthLengths year).getD (month - 1) 0))

theorem isLeapYear_eq (year : Nat) : isLeapYear year = decide (IsLeap year) := by
  rw [isLeapYear, decide_eq_decide, IsLeap]
  omega

theorem daysInMonth_succ (year i : Nat) : daysInMonth year (i + 1) = (monthLengths year).getD i 0 := by
  rcases Nat.lt_or_ge i 12 with few | beyond
  · have leap : (if isLeapYear year then 29 else 28) = (if IsLeap year then 29 else 28) := by simp [isLeapYear_eq]
    rw [monthLengths, ← leap]
    interval_cases i <;> rfl
  · rw [List.getD_eq_getElem?_getD, List.getElem?_eq_none beyond, Option.getD_none]
    simp only [daysInMonth]
    rw [if_neg (by omega), if_neg (by omega), if_neg (by omega)]

theorem Day.exists_iff {year : Nat} (few : year < 10000) (month day : Nat) :
    Day.exists ⟨year, month, day⟩ = true ↔ IsDay year month day := by
  have range : minYear ≤ (year : Int) ∧ (year : Int) ≤ maxYear := by
    simp only [minYear, maxYear]
    omega
  simp only [Day.exists, range, true_and, decide_eq_true_eq, IsDay]
  cases month with
  | zero =>
    have noDays : daysInMonth year 0 = 0 := rfl
    rw [noDays]
    omega
  | succ i =>
    rw [daysInMonth_succ, Nat.add_sub_cancel]
    exact (and_iff_right (Nat.succ_pos i)).symm

/-! ## Written days -/

def monthNames : List String :=
  ["January", "February", "March", "April", "May", "June", "July", "August", "September",
    "October", "November", "December"]

/-- The full name of the month, with letters of any case; months are counted from 1. -/
def IsMonthName (month : Nat) (name : List Char) : Prop :=
  ∃ i full, month = i + 1 ∧ monthNames[i]? = some full ∧ name.map Char.toLower = full.toList.map Char.toLower

/-- The text writes the day, whether or not there is such a day. -/
inductive SpellsDay (year month day : Nat) : List Char → Prop
  | yearFirst {y m d : List Char} (separator : Char) (among : separator = '-' ∨ separator = '/')
      (hy : IsNumeral 4 y year)
      (hm : IsNumeral 2 m month) (hd : IsNumeral 2 d day) :
      SpellsDay year month day (y ++ separator :: (m ++ separator :: d))
  | monthFirst {y m d : List Char} (hm : IsNumeral 2 m month) (hd : IsNumeral 2 d day) (hy : IsNumeral 4 y year) :
      SpellsDay year month day (m ++ '/' :: (d ++ '/' :: y))
  | nameFirst {y name d : List Char} (comma : Bool) (hn : IsMonthName month name) (hd : IsNumeral 2 d day)
      (hy : IsNumeral 4 y year) :
      SpellsDay year month day (name ++ ' ' :: (d ++ ((if comma then [','] else []) ++ ' ' :: y)))
  | dayFirst {y name d : List Char} (hd : IsNumeral 2 d day) (hn : IsMonthName month name) (hy : IsNumeral 4 y year) :
      SpellsDay year month day (d ++ ' ' :: (name ++ ' ' :: y))

theorem months_eq : Scan.months = monthNames.map fun w => String.ofList (w.toList.map Char.toLower) := by decide

theorem IsMonthName.exists_month {month : Nat} {name : List Char} (h : IsMonthName month name) :
    ∃ i w, month = i + 1 ∧ Scan.months[i]? = some w ∧ name.map Char.toLower = w.toList := by
  obtain ⟨i, full, rfl, found, same⟩ := h
  refine ⟨i, String.ofList (full.toList.map Char.toLower), rfl, ?_, ?_⟩
  · rw [months_eq, List.getElem?_map, found, Option.map_some]
  · rw [same, String.toList_ofList]

namespace IsMonthName

variable {month : Nat} {name : List Char}

theorem isAlpha (h : IsMonthName month name) : ∀ c ∈ name, c.isAlpha = true := by
  have letters : (monthNames.flatMap fun w => w.toList.map Char.toLower).all Char.isAlpha = true := by decide
  obtain ⟨i, full, -, found, same⟩ := h
  intro c hc
  have lower : c.toLower ∈ monthNames.flatMap fun w => w.toList.map Char.toLower :=
    List.mem_flatMap.mpr ⟨full, List.mem_of_getElem? found, same ▸ List.mem_map_of_mem hc⟩
  have alpha : c.toLower.isAlpha = true := List.all_eq_true.mp letters _ lower
  cases other : c.isAlpha with
  | true => rfl
  | false => rw [Scan.toLower_of_not_isAlpha other, other] at alpha; exact alpha

theorem not_mem (h : IsMonthName month name) {c : Char} (hc : c.isAlpha = false) : c ∉ name :=
  fun mem => Bool.eq_false_iff.mp hc (h.isAlpha c mem)

theorem exists_cons (h : IsMonthName month name) : ∃ c t, name = c :: t ∧ c.isAlpha = true := by
  have nonempty : (monthNames.all fun w => decide (w.toList.map Char.toLower ≠ [])) = true := by decide
  have all := h.isAlpha
  obtain ⟨i, full, -, found, same⟩ := h
  cases name with
  | nil => exact absurd same.symm (of_decide_eq_true (List.all_eq_true.mp nonempty full (List.mem_of_getElem? found)))
  | cons c t => exact ⟨c, t, rfl, all c List.mem_cons_self⟩

theorem beginsUnblank (h : IsMonthName month name) : Text.BeginsUnblank name := by
  obtain ⟨c, t, hc, alpha⟩ := h.exists_cons
  exact ⟨c, t, hc, (beginsNoNumber_of_isAlpha alpha).isBlank⟩

theorem readFrom (h : IsMonthName month name) (m : Moment) (parts : Layout) (rest : List Char) :
    Layout.readFrom m (.monthName :: parts) (name ++ rest) =
      Layout.readFrom { m with date.month := month } parts rest := by
  obtain ⟨i, w, rfl, found, same⟩ := h.exists_month
  exact Layout.readFrom_monthName found same

end IsMonthName

/-! ## The layout of each form -/

namespace Layout

open Text

/-- The layout reads the text as the moment, and no other layout of a day reads it. -/
structure OnlyReadBy (own : Layout) (m : Moment) (s : List Char) : Prop where
  mem : own ∈ dates
  reads : own.moment? s = some m
  others : ∀ other ∈ dates, other = own ∨ other.moment? s = none

theorem moment?_eq_readFrom (layout : Layout) (s : List Char) :
    layout.moment? s = layout.readFrom { date := ⟨0, 0, 0⟩ } s := rfl

/-- What holds of each of the six layouts holds of all. -/
theorem forall_mem_dates {P : Layout → Prop} (dash : P (yearFirst '-')) (slash : P (yearFirst '/'))
    (month : P monthFirst) (comma : P (nameFirst true)) (noComma : P (nameFirst false)) (day : P dayFirst) :
    ∀ layout ∈ dates, P layout := by
  intro layout h
  simp only [dates, List.mem_cons, List.not_mem_nil, or_false] at h
  rcases h with rfl | rfl | rfl | rfl | rfl | rfl <;> assumption

section Refusals

variable {c : Char} {s rest : List Char} {n : Nat}

theorem nameFirst_of_isNumeral {width : Nat} (h : IsNumeral (width + 1) s n) (comma : Bool) :
    (nameFirst comma).moment? (s ++ rest) = none := by
  obtain ⟨c, t, rfl, digit⟩ := h.exists_cons
  exact readFrom_monthName_of_not_isAlpha (not_isAlpha_of_isDigit digit)

theorem yearFirst_of_ne {width : Nat} (h : IsNumeral (width + 1) s n) (few : width + 1 ≤ 4) {separator : Char}
    (digit : c.isDigit = false) (differs : c ≠ separator) :
    (yearFirst separator).moment? (s ++ c :: rest) = none := by
  have stop : ∀ d ∈ (c :: rest).head?, d.isDigit = false := by rintro d ⟨⟩; exact digit
  rw [moment?_eq_readFrom, yearFirst, readFrom_year h few (.inr stop), readFrom_char_of_ne differs]

theorem monthFirst_of_ne (h : IsNumeral 2 s n) (differs : c ≠ '/') : monthFirst.moment? (s ++ c :: rest) = none := by
  rw [moment?_eq_readFrom, monthFirst, readFrom_month h, readFrom_char_of_ne differs]

theorem dayFirst_of_not_isAlpha (h : IsNumeral 2 s n) (unblank : isBlank c = false) (alpha : c.isAlpha = false) :
    dayFirst.moment? (s ++ c :: rest) = none := by
  rw [moment?_eq_readFrom, dayFirst, readFrom_day h, readFrom_blanks, trimStart_cons_of_not_blank rest unblank,
    readFrom_monthName_of_not_isAlpha alpha]

/-- A longer number is no day and no month, since more digits follow the first two. -/
theorem pairFirst_of_isNumeral (h : IsNumeral 4 s n) :
    monthFirst.moment? (s ++ rest) = none ∧ dayFirst.moment? (s ++ rest) = none := by
  obtain ⟨pair, c, t, rfl, hpair, digit⟩ := h.exists_pair
  have differs : c ≠ '/' := by rintro rfl; exact absurd digit (by decide)
  rw [List.append_assoc]
  exact ⟨monthFirst_of_ne hpair differs,
    dayFirst_of_not_isAlpha hpair (isBlank_of_isDigit digit) (not_isAlpha_of_isDigit digit)⟩

section Names

variable {month : Nat} {name : List Char} (h : IsMonthName month name)

include h

theorem yearFirst_of_isMonthName (separator : Char) : (yearFirst separator).moment? (name ++ rest) = none := by
  obtain ⟨c, t, rfl, alpha⟩ := h.exists_cons
  exact readFrom_year_of_beginsNoNumber (beginsNoNumber_of_isAlpha alpha)

theorem monthFirst_of_isMonthName : monthFirst.moment? (name ++ rest) = none := by
  obtain ⟨c, t, rfl, alpha⟩ := h.exists_cons
  exact readFrom_month_of_beginsNoNumber (beginsNoNumber_of_isAlpha alpha)

theorem dayFirst_of_isMonthName : dayFirst.moment? (name ++ rest) = none := by
  obtain ⟨c, t, rfl, alpha⟩ := h.exists_cons
  exact readFrom_day_of_beginsNoNumber (beginsNoNumber_of_isAlpha alpha)

end Names

end Refusals

section Forms

variable {year month day : Nat} {y m d name : List Char}

theorem onlyReadBy_yearFirst {separator : Char} (among : separator = '-' ∨ separator = '/') (hy : IsNumeral 4 y year)
    (hm : IsNumeral 2 m month) (hd : IsNumeral 2 d day) :
    OnlyReadBy (yearFirst separator) { date := ⟨year, month, day⟩ } (y ++ separator :: (m ++ separator :: d)) where
  mem := by rcases among with rfl | rfl <;> simp [dates]
  reads := by
    rw [moment?_eq_readFrom, yearFirst, readFrom_year hy (Nat.le_refl 4) (.inl rfl), readFrom_char, readFrom_month hm,
      readFrom_char, readFrom_lastDay hd]
  others := by
    refine forall_mem_dates ?dash ?slash ?month ?comma ?noComma ?day
    case dash =>
      rcases among with rfl | rfl
      · exact .inl rfl
      · exact .inr (yearFirst_of_ne hy (Nat.le_refl 4) (by decide) (by decide))
    case slash =>
      rcases among with rfl | rfl
      · exact .inr (yearFirst_of_ne hy (Nat.le_refl 4) (by decide) (by decide))
      · exact .inl rfl
    case month => exact .inr (pairFirst_of_isNumeral hy).1
    case comma => exact .inr (nameFirst_of_isNumeral hy true)
    case noComma => exact .inr (nameFirst_of_isNumeral hy false)
    case day => exact .inr (pairFirst_of_isNumeral hy).2

theorem onlyReadBy_monthFirst (hm : IsNumeral 2 m month) (hd : IsNumeral 2 d day) (hy : IsNumeral 4 y year) :
    OnlyReadBy monthFirst { date := ⟨year, month, day⟩ } (m ++ '/' :: (d ++ '/' :: y)) where
  mem := by simp [dates]
  reads := by
    rw [moment?_eq_readFrom, monthFirst, readFrom_month hm, readFrom_char, readFrom_day hd, readFrom_char,
      readFrom_lastYear hy]
  others := by
    refine forall_mem_dates ?dash ?slash ?month ?comma ?noComma ?day
    case dash => exact .inr (yearFirst_of_ne hm (by decide) (by decide) (by decide))
    case slash =>
      -- The month is read as the year and the day as the month; of the year only two digits are read, as the day.
      obtain ⟨pair, c, t, rfl, hpair, -⟩ := hy.exists_pair
      have stop : ∀ c ∈ ('/' :: (d ++ '/' :: (pair ++ c :: t))).head?, c.isDigit = false := by rintro c ⟨⟩; rfl
      right
      rw [moment?_eq_readFrom, yearFirst, readFrom_year hm (by decide) (.inr stop), readFrom_char, readFrom_month hd,
        readFrom_char, readFrom_day hpair, readFrom_nil_of_ne (List.cons_ne_nil c t)]
    case month => exact .inl rfl
    case comma => exact .inr (nameFirst_of_isNumeral hm true)
    case noComma => exact .inr (nameFirst_of_isNumeral hm false)
    case day => exact .inr (dayFirst_of_not_isAlpha hm (by decide) (by decide))

theorem onlyReadBy_nameFirst (comma : Bool) (hn : IsMonthName month name) (hd : IsNumeral 2 d day)
    (hy : IsNumeral 4 y year) :
    OnlyReadBy (nameFirst comma) { date := ⟨year, month, day⟩ }
      (name ++ ' ' :: (d ++ ((if comma then [','] else []) ++ ' ' :: y))) := by
  have withComma : nameFirst true = [.monthName, .blanks, .day, .char ',', .blanks, .year] := rfl
  have noComma : nameFirst false = [.monthName, .blanks, .day, .blanks, .year] := rfl
  have lastYear : ∀ m : Moment, readFrom m [.blanks, .year] (' ' :: y) = some { m with date.year := year } := fun m =>
    (readFrom_space hy.beginsUnblank).trans (readFrom_lastYear hy)
  refine ⟨by cases comma <;> simp [dates], ?_, forall_mem_dates ?dash ?slash ?month ?comma ?noComma ?day⟩
  · cases comma with
    | true =>
      rw [moment?_eq_readFrom, withComma, hn.readFrom, readFrom_space (hd.beginsUnblank.append _), readFrom_day hd]
      exact (readFrom_char _ _ ',' _).trans (lastYear _)
    | false =>
      rw [moment?_eq_readFrom, noComma, hn.readFrom, readFrom_space (hd.beginsUnblank.append _), readFrom_day hd]
      exact lastYear _
  case dash => exact .inr (yearFirst_of_isMonthName hn '-')
  case slash => exact .inr (yearFirst_of_isMonthName hn '/')
  case month => exact .inr (monthFirst_of_isMonthName hn)
  case comma =>
    cases comma with
    | true => exact .inl rfl
    | false =>
      right
      rw [moment?_eq_readFrom, withComma, hn.readFrom, readFrom_space (hd.beginsUnblank.append _), readFrom_day hd]
      exact readFrom_char_of_ne (by decide)
  case noComma =>
    cases comma with
    | true =>
      have noNumber : BeginsNoNumber ',' := ⟨rfl, rfl, by decide, by decide⟩
      right
      rw [moment?_eq_readFrom, noComma, hn.readFrom, readFrom_space (hd.beginsUnblank.append _), readFrom_day hd,
        readFrom_blanks]
      exact readFrom_year_of_beginsNoNumber noNumber
    | false => exact .inl rfl
  case day => exact .inr (dayFirst_of_isMonthName hn)

theorem onlyReadBy_dayFirst (hd : IsNumeral 2 d day) (hn : IsMonthName month name) (hy : IsNumeral 4 y year) :
    OnlyReadBy dayFirst { date := ⟨year, month, day⟩ } (d ++ ' ' :: (name ++ ' ' :: y)) where
  mem := by simp [dates]
  reads := by
    rw [moment?_eq_readFrom, dayFirst, readFrom_day hd, readFrom_space (hn.beginsUnblank.append _), hn.readFrom,
      readFrom_space hy.beginsUnblank, readFrom_lastYear hy]
  others := by
    refine forall_mem_dates ?dash ?slash ?month ?comma ?noComma ?day
    case dash => exact .inr (yearFirst_of_ne hd (by decide) (by decide) (by decide))
    case slash => exact .inr (yearFirst_of_ne hd (by decide) (by decide) (by decide))
    case month => exact .inr (monthFirst_of_ne hd (by decide))
    case comma => exact .inr (nameFirst_of_isNumeral hd true)
    case noComma => exact .inr (nameFirst_of_isNumeral hd false)
    case day => exact .inl rfl

end Forms

variable {own : Layout} {year month day : Nat} {s : List Char}

theorem OnlyReadBy.accepts_iff (h : OnlyReadBy own { date := ⟨year, month, day⟩ } s) (few : year < 10000) :
    own.accepts s = true ↔ IsDay year month day := by
  have midnight : Moment.exists { date := ⟨year, month, day⟩ } = Day.exists ⟨year, month, day⟩ := by
    simp [Moment.exists]
  rw [accepts, h.reads, Option.any_some, midnight, Day.exists_iff few]

theorem OnlyReadBy.others_refuse {m : Moment} (h : OnlyReadBy own m s) (colon : ':' ∉ s) :
    ∀ other ∈ dateTimes ++ dates, other = own ∨ other.accepts s = false := by
  intro other ho
  rcases List.mem_append.mp ho with ho | ho
  · right
    rw [accepts, moment?_eq_none_of_not_mem (colon_mem_of_mem_dateTimes ho) colon, Option.any_none]
  · refine (h.others other ho).imp_right fun unread => ?_
    rw [accepts, unread, Option.any_none]

end Layout

/-! ## Dates -/

namespace SpellsDay

variable {year month day : Nat} {s : List Char}

theorem exists_onlyReadBy (h : SpellsDay year month day s) :
    ∃ own, Layout.OnlyReadBy own { date := ⟨year, month, day⟩ } s := by
  cases h with
  | yearFirst separator among hy hm hd => exact ⟨_, Layout.onlyReadBy_yearFirst among hy hm hd⟩
  | monthFirst hm hd hy => exact ⟨_, Layout.onlyReadBy_monthFirst hm hd hy⟩
  | nameFirst comma hn hd hy => exact ⟨_, Layout.onlyReadBy_nameFirst comma hn hd hy⟩
  | dayFirst hd hn hy => exact ⟨_, Layout.onlyReadBy_dayFirst hd hn hy⟩

theorem year_lt (h : SpellsDay year month day s) : year < 10000 := by
  cases h with
  | yearFirst _ _ hy _ _ => exact hy.lt
  | monthFirst _ _ hy => exact hy.lt
  | nameFirst _ _ _ hy => exact hy.lt
  | dayFirst _ _ hy => exact hy.lt

theorem colon_not_mem (h : SpellsDay year month day s) : ':' ∉ s := by
  have digit : ':'.isDigit = false := rfl
  have alpha : ':'.isAlpha = false := rfl
  cases h with
  | yearFirst separator among hy hm hd =>
    have differs : ':' ≠ separator := by rcases among with rfl | rfl <;> decide
    simp [hy.not_mem digit, hm.not_mem digit, hd.not_mem digit, differs]
  | monthFirst hm hd hy => simp [hy.not_mem digit, hm.not_mem digit, hd.not_mem digit]
  | nameFirst comma hn hd hy =>
    cases comma <;> simp [hy.not_mem digit, hn.not_mem alpha, hd.not_mem digit]
  | dayFirst hd hn hy => simp [hy.not_mem digit, hn.not_mem alpha, hd.not_mem digit]

/-- Neither the first nor the last character is blank. -/
theorem trim_eq (h : SpellsDay year month day s) {before after : List Char}
    (hb : ∀ c ∈ before, Text.isBlank c = true)
    (ha : ∀ c ∈ after, Text.isBlank c = true) : Text.trim (before ++ s ++ after) = s := by
  cases h with
  | yearFirst separator among hy hm hd =>
    exact Text.trim_append hb ha (hy.beginsUnblank.append _) ((((hd.endsUnblank.cons _).append _).cons _).append _)
  | monthFirst hm hd hy =>
    exact Text.trim_append hb ha (hm.beginsUnblank.append _) ((((hy.endsUnblank.cons _).append _).cons _).append _)
  | nameFirst comma hn hd hy =>
    exact Text.trim_append hb ha (hn.beginsUnblank.append _)
      (((((hy.endsUnblank.cons _).append _).append _).cons _).append _)
  | dayFirst hd hn hy =>
    exact Text.trim_append hb ha (hd.beginsUnblank.append _) ((((hy.endsUnblank.cons _).append _).cons _).append _)

end SpellsDay

end Calendar

namespace Builtin

open Calendar

/-- **A written day is a date if and only if there is such a day.** Blanks around it do not matter, and every parser but
the layout of its own form refuses it, day or no day. -/
theorem date_holds_iff_isDay {year month day : Nat} {s before after : List Char} (h : SpellsDay year month day s)
    (hb : ∀ c ∈ before, Text.isBlank c = true) (ha : ∀ c ∈ after, Text.isBlank c = true)
    (args : List (Argument Unit)) :
    (date.holds (.string (String.ofList (before ++ s ++ after))) args = true ↔ IsDay year month day) ∧
    Timestamp.accepts s = false ∧ MailDate.accepts s = false ∧
    ∃ own ∈ Layout.dates, (own.accepts s = true ↔ IsDay year month day) ∧
      ∀ other ∈ Layout.dateTimes ++ Layout.dates, other = own ∨ other.accepts s = false := by
  obtain ⟨own, reads⟩ := h.exists_onlyReadBy
  have timestamp := Timestamp.accepts_eq_false h.colon_not_mem
  have mail := MailDate.accepts_eq_false h.colon_not_mem
  have accepts := reads.accepts_iff h.year_lt
  have others := reads.others_refuse h.colon_not_mem
  refine ⟨?_, timestamp, mail, own, reads.mem, accepts, others⟩
  have whole : date.holds (.string (String.ofList (before ++ s ++ after))) args =
      (Layout.dateTimes ++ Layout.dates).any fun l => l.accepts s := by
    rw [holds, isDate, String.toList_ofList, h.trim_eq hb ha, timestamp, mail, Bool.false_or, Bool.false_or]
  rw [whole, List.any_eq_true, ← accepts]
  constructor
  · rintro ⟨layout, member, accepted⟩
    rcases others layout member with rfl | refused
    · exact accepted
    · exact absurd accepted (Bool.eq_false_iff.mp refused)
  · exact fun accepted => ⟨own, List.mem_append_right _ reads.mem, accepted⟩

/-- The year 1900 has no leap day, and the year 2000 has one. -/
theorem date_holds_leapDays :
    SpellsDay 1900 2 29 "29 FEBRUARY 1900".toList ∧ SpellsDay 2000 2 29 "February 29, 2000".toList ∧
    (∀ c ∈ ['\u00a0', '\n'], Text.isBlank c = true) ∧
    date.holds (.string (String.ofList (['\u00a0', '\n'] ++ "29 FEBRUARY 1900".toList ++ []))) [] = false ∧
    date.holds (.string (String.ofList ([] ++ "February 29, 2000".toList ++ ['\u00a0', '\n']))) [] = true := by
  have february (name : List Char) (h : name.map Char.toLower = "february".toList) : IsMonthName 2 name :=
    ⟨1, "February", rfl, rfl, h⟩
  have day : IsNumeral 2 "29".toList 29 := ⟨rfl, List.all_eq_true.mp rfl, rfl⟩
  have late : SpellsDay 1900 2 29 "29 FEBRUARY 1900".toList :=
    .dayFirst day (february "FEBRUARY".toList rfl) ⟨rfl, List.all_eq_true.mp rfl, rfl⟩
  have leap : SpellsDay 2000 2 29 "February 29, 2000".toList :=
    .nameFirst true (february "February".toList rfl) day ⟨rfl, List.all_eq_true.mp rfl, rfl⟩
  have blanks : ∀ c ∈ ['\u00a0', '\n'], Text.isBlank c = true := List.all_eq_true.mp rfl
  refine ⟨late, leap, blanks, Bool.eq_false_iff.mpr fun accepted => ?_, ?_⟩
  · exact absurd ((date_holds_iff_isDay late blanks (List.forall_mem_nil _) []).1.mp accepted) (by decide)
  · exact (date_holds_iff_isDay leap (List.forall_mem_nil _) blanks []).1.mpr (by decide)

end Builtin

end BodySpec
