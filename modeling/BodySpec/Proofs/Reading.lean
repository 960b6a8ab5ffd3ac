import BodySpec.Proofs.Addresses
import BodySpec.Proofs.Scanning
import Mathlib.Algebra.Group.Nat.Defs
import Mathlib.Data.List.Nodup

/-!
# What layouts read

For each kind of part of a layout, one equation says what it takes from the front of a text: the digits of a number
(`Layout.readFrom_year`, `Layout.readFrom_day`), the full name of a month (`Layout.readFrom_monthName`), blanks and
single characters. Others say where a part fails. A text written by a layout is then read by rewriting from part to
part, and a text of another form is refused at the first part that fails.
-/

namespace BodySpec

namespace Text

/-- A run of digits is read to its end, or as far as the number of digits allows. -/
theorem digitsUpTo_append {run rest : List Char} {count : Nat} (hrun : ∀ c ∈ run, c.isDigit = true)
    (few : run.length ≤ count) (stop : run.length = count ∨ ∀ c ∈ rest.head?, c.isDigit = false) :
    digitsUpTo count (run ++ rest) = (run.map fun c => c.toNat - '0'.toNat, rest) := by
  induction run generalizing count with
  | nil =>
    cases count with
    | zero => rfl
    | succ n =>
      cases rest with
      | nil => rfl
      | cons c rest =>
        have other : c.isDigit = false := (stop.resolve_left (Nat.succ_ne_zero n).symm) c rfl
        simp [digitsUpTo, digit?, other]
  | cons c run ih =>
    obtain ⟨hc, hrun⟩ := List.forall_mem_cons.mp hrun
    obtain ⟨n, rfl⟩ : ∃ n, count = n + 1 := Nat.exists_eq_add_one.mpr (Nat.lt_of_lt_of_le (Nat.succ_pos _) few)
    have others := ih hrun (Nat.le_of_succ_le_succ few) (stop.imp_left Nat.succ.inj)
    simp [digitsUpTo, digit?, hc, others]

theorem isBlank_of_isDigit {c : Char} (h : c.isDigit = true) : isBlank c = false := by
  have range : 48 ≤ c.toNat ∧ c.toNat ≤ 57 := Char.isDigit_iff_toNat.mp h
  simp only [isBlank, Bool.or_eq_false_iff, Bool.and_eq_false_iff, decide_eq_false_iff_not, beq_eq_false_iff_ne]
  omega

theorem trimStart_append {blanks : List Char} (h : ∀ c ∈ blanks, isBlank c = true) (s : List Char) :
    trimStart (blanks ++ s) = trimStart s :=
  List.dropWhile_append_of_pos h

theorem trimStart_space (s : List Char) : trimStart (' ' :: s) = trimStart s := rfl

theorem trimEnd_eq (s : List Char) : trimEnd s = (trimStart s.reverse).reverse := rfl

/-- The first character is there and is not blank. -/
def BeginsUnblank (s : List Char) : Prop := ∃ c t, s = c :: t ∧ isBlank c = false

/-- The last character is there and is not blank. -/
def EndsUnblank (s : List Char) : Prop := ∃ t c, s = t ++ [c] ∧ isBlank c = false

theorem BeginsUnblank.append {s : List Char} (h : BeginsUnblank s) (rest : List Char) : BeginsUnblank (s ++ rest) := by
  obtain ⟨c, t, rfl, unblank⟩ := h
  exact ⟨c, t ++ rest, rfl, unblank⟩

theorem EndsUnblank.append {s : List Char} (h : EndsUnblank s) (front : List Char) : EndsUnblank (front ++ s) := by
  obtain ⟨t, c, rfl, unblank⟩ := h
  exact ⟨front ++ t, c, (List.append_assoc front t [c]).symm, unblank⟩

theorem EndsUnblank.cons {s : List Char} (h : EndsUnblank s) (c : Char) : EndsUnblank (c :: s) := h.append [c]

theorem BeginsUnblank.trimStart_eq {s : List Char} (h : BeginsUnblank s) : trimStart s = s := by
  obtain ⟨c, t, rfl, unblank⟩ := h
  exact trimStart_cons_of_not_blank t unblank

/-- A text that neither begins nor ends with a blank is what is left when the blanks around it are removed. -/
theorem trim_append {before s after : List Char} (hb : ∀ c ∈ before, isBlank c = true)
    (ha : ∀ c ∈ after, isBlank c = true)
    (first : BeginsUnblank s) (last : EndsUnblank s) : trim (before ++ s ++ after) = s := by
  have start : trimStart (before ++ s ++ after) = s ++ after := by
    rw [List.append_assoc, trimStart_append hb, (first.append after).trimStart_eq]
  have finish : trimEnd (s ++ after) = s := by
    obtain ⟨t, c, rfl, hc⟩ := last
    rw [trimEnd_eq, List.reverse_append, trimStart_append fun d hd => ha d (List.mem_reverse.mp hd),
      List.reverse_append,
      List.reverse_singleton, List.singleton_append, trimStart_cons_of_not_blank _ hc,
      List.reverse_cons, List.reverse_reverse]
  rw [trim, start, finish]

end Text

/-- A text of a number of digits, and the number that they write. -/
structure IsNumeral (width : Nat) (s : List Char) (n : Nat) : Prop where
  length_eq : s.length = width
  isDigit : ∀ c ∈ s, c.isDigit = true
  value_eq : Nat.ofDigitChars 10 s 0 = n

theorem ofDigitChars_lt {s : List Char} (h : ∀ c ∈ s, c.isDigit = true) (n : Nat) :
    Nat.ofDigitChars 10 s n < (n + 1) * 10 ^ s.length := by
  induction s generalizing n with
  | nil => simp [Nat.ofDigitChars_eq_foldl]
  | cons c s ih =>
    obtain ⟨hc, hs⟩ := List.forall_mem_cons.mp h
    have range : 48 ≤ c.toNat ∧ c.toNat ≤ 57 := Char.isDigit_iff_toNat.mp hc
    have zero : '0'.toNat = 48 := rfl
    rw [Nat.ofDigitChars_cons]
    calc Nat.ofDigitChars 10 s (10 * n + (c.toNat - '0'.toNat))
        < (10 * n + (c.toNat - '0'.toNat) + 1) * 10 ^ s.length := ih hs _
      _ ≤ ((n + 1) * 10) * 10 ^ s.length := Nat.mul_le_mul_right _ (by omega)
      _ = (n + 1) * 10 ^ (c :: s).length := by rw [List.length_cons, Nat.pow_succ, Nat.mul_assoc, Nat.mul_comm 10]

namespace IsNumeral

variable {width n : Nat} {s : List Char}

theorem lt (h : IsNumeral width s n) : n < 10 ^ width := by
  have bound := ofDigitChars_lt h.isDigit 0
  rwa [h.value_eq, h.length_eq, Nat.zero_add, Nat.one_mul] at bound

theorem not_mem (h : IsNumeral width s n) {c : Char} (hc : c.isDigit = false) : c ∉ s :=
  fun mem => Bool.eq_false_iff.mp hc (h.isDigit c mem)

theorem exists_cons (h : IsNumeral (width + 1) s n) : ∃ c t, s = c :: t ∧ c.isDigit = true := by
  obtain ⟨c, t, rfl⟩ := List.exists_cons_of_length_eq_add_one h.length_eq
  exact ⟨c, t, rfl, h.isDigit c List.mem_cons_self⟩

theorem beginsUnblank (h : IsNumeral (width + 1) s n) : Text.BeginsUnblank s := by
  obtain ⟨c, t, hc, digit⟩ := h.exists_cons
  exact ⟨c, t, hc, Text.isBlank_of_isDigit digit⟩

theorem endsUnblank (h : IsNumeral (width + 1) s n) : Text.EndsUnblank s := by
  have nonempty : s ≠ [] := List.ne_nil_of_length_eq_add_one h.length_eq
  have digit := h.isDigit _ (List.getLast_mem nonempty)
  exact ⟨s.dropLast, s.getLast nonempty, (List.dropLast_append_getLast nonempty).symm,
    Text.isBlank_of_isDigit digit⟩

/-- The first two of four digits. -/
theorem exists_pair {s : List Char} {n : Nat} (h : IsNumeral 4 s n) :
    ∃ pair c t, s = pair ++ c :: t ∧ IsNumeral 2 pair (Nat.ofDigitChars 10 pair 0) ∧ c.isDigit = true := by
  have left : (s.drop 2).length = 1 + 1 := by rw [List.length_drop, h.length_eq]
  obtain ⟨c, t, hc⟩ := List.exists_cons_of_length_eq_add_one left
  refine ⟨s.take 2, c, t, ?_, ⟨?_, fun d hd => h.isDigit d (List.mem_of_mem_take hd), rfl⟩, ?_⟩
  · rw [← hc, List.take_append_drop]
  · rw [List.length_take, h.length_eq]
    rfl
  · exact h.isDigit c (List.mem_of_mem_drop (hc ▸ List.mem_cons_self))

end IsNumeral

namespace Calendar

namespace Scan

open Text

theorem bind_of_some {α β : Type} {p : Scan α} {s rest : List Char} {a : α}
    (h : p s = some (a, rest)) (f : α → Scan β) :
    (p >>= f) s = f a rest := by
  have bound : (p >>= f) s = (p s).bind fun x => f x.1 x.2 := rfl
  rw [bound, h, Option.bind_some]

theorem bind_of_none {α β : Type} {p : Scan α} {s : List Char} (h : p s = none) (f : α → Scan β) :
    (p >>= f) s = none := by
  have bound : (p >>= f) s = (p s).bind fun x => f x.1 x.2 := rfl
  rw [bound, h, Option.bind_none]

/-- A number is taken to its end, or as far as the number of digits allows. -/
theorem digitsAtMost_append {width count n : Nat} {s rest : List Char} (h : IsNumeral (width + 1) s n)
    (few : width + 1 ≤ count) (stop : width + 1 = count ∨ ∀ c ∈ rest.head?, c.isDigit = false) :
    digitsAtMost count (s ++ rest) = some (n, rest) := by
  have taken := digitsUpTo_append h.isDigit (h.length_eq.trans_le few) (h.length_eq ▸ stop)
  obtain ⟨c, t, rfl, -⟩ := h.exists_cons
  rw [← h.value_eq, ← decimalValue_map, digitsAtMost, taken]
  rfl

theorem digitsAtMost_of_not_isDigit {c : Char} (h : c.isDigit = false) (count : Nat) (s : List Char) :
    digitsAtMost count (c :: s) = none := by
  cases count with
  | zero => rfl
  | succ n => simp [digitsAtMost, digitsUpTo, digit?, h]

/-- Of words of one length, the one that begins a text is taken. -/
theorem wordOf_eq_some {words : List String} {k : Nat} (hn : words.Nodup) (hk : ∀ w ∈ words, w.length = k) {i : Nat}
    {w : String} (hi : words[i]? = some w) {s : List Char} (hs : (s.take k).map Char.toLower = w.toList) :
    wordOf words s = some (i, s.drop k) := by
  have length := hk w (List.mem_of_getElem? hi)
  obtain ⟨hlt, hget⟩ := List.getElem?_eq_some_iff.mp hi
  have found : words.findIdx? (fun w => (s.take w.length).map Char.toLower = w.toList) = some i := by
    rw [List.findIdx?_eq_some_iff_getElem]
    refine ⟨hlt, ?_, fun j hj same => ?_⟩
    · rw [hget, length]
      exact decide_eq_true hs
    · have hjlt := Nat.lt_trans hj hlt
      have same := of_decide_eq_true same
      rw [hk _ (List.getElem_mem hjlt), hs, String.toList_inj, ← hget] at same
      exact Nat.ne_of_gt hj ((List.Nodup.getElem_inj_iff hn).mp same)
  rw [wordOf, found, Option.bind_some, hi, Option.map_some, length]

/-- A word is not taken from a text that begins with another letter than each word. -/
theorem wordOf_eq_none {words : List String} {c : Char}
    (h : ∀ w ∈ words, ∃ d t, w.toList = d :: t ∧ c.toLower ≠ d)
    (s : List Char) : wordOf words (c :: s) = none := by
  have missing : words.findIdx? (fun w => ((c :: s).take w.length).map Char.toLower = w.toList) = none := by
    rw [List.findIdx?_eq_none_iff]
    intro w hw
    obtain ⟨d, t, hd, differs⟩ := h w hw
    rw [decide_eq_false_iff_not, ← String.length_toList, hd, List.length_cons, List.take_succ_cons, List.map_cons]
    exact fun same => differs (List.cons.inj same).1
  rw [wordOf, missing, Option.bind_none]

/-- The first three letters of the months. -/
def shortMonths : List String := months.map fun m => String.ofList (m.toList.take 3)

theorem shortMonth_eq_some {i : Nat} {w : String} (hi : months[i]? = some w) {s : List Char}
    (hs : (s.take 3).map Char.toLower = w.toList.take 3) : shortMonth s = some (i + 1, s.drop 3) := by
  have nodup : shortMonths.Nodup := by decide
  have lengths : ∀ w ∈ shortMonths, w.length = 3 := by decide
  have short : shortMonths[i]? = some (String.ofList (w.toList.take 3)) := by
    rw [shortMonths, List.getElem?_map, hi]; rfl
  have word : wordOf shortMonths s = some (i, s.drop 3) :=
    wordOf_eq_some nodup lengths short (by rw [hs, String.toList_ofList])
  exact bind_eq_some.mpr ⟨i, s.drop 3, word, rfl⟩

/-- A month by its full name in any case. -/
theorem monthName_append {i : Nat} {w : String} (hi : months[i]? = some w) {name : List Char}
    (hname : name.map Char.toLower = w.toList) (rest : List Char) : monthName (name ++ rest) = some (i + 1, rest) := by
  have long : 3 ≤ name.length := by
    have all : months.all (fun w => decide (3 ≤ w.toList.length)) = true := by decide
    have length := congrArg List.length hname
    rw [List.length_map] at length
    rw [length]
    exact of_decide_eq_true (List.all_eq_true.mp all w (List.mem_of_getElem? hi))
  have front : ((name ++ rest).take 3).map Char.toLower = w.toList.take 3 := by
    rw [List.take_append_of_le_length long, List.map_take, hname]
  have length : (w.toList.drop 3).length = (name.drop 3).length := by rw [← hname, ← List.map_drop, List.length_map]
  have back : ((name.drop 3 ++ rest).take (w.toList.drop 3).length).map Char.toLower = w.toList.drop 3 := by
    rw [length, List.take_left, List.map_drop, hname]
  have index : months.getD (i + 1 - 1) "" = w := by
    rw [Nat.add_sub_cancel, List.getD_eq_getElem?_getD, hi]
    rfl
  refine bind_eq_some.mpr ⟨i + 1, name.drop 3 ++ rest, ?_, ?_⟩
  · rw [shortMonth_eq_some hi front, List.drop_append_of_le_length long]
  · rw [index, if_pos back, length, List.drop_left]

theorem toLower_of_not_isAlpha {c : Char} (h : c.isAlpha = false) : c.toLower = c := by
  unfold Char.toLower
  split
  · rename_i upper
    have letter := (Format.isAlpha_iff c).mpr (.inr upper)
    rw [h] at letter
    cases letter
  · rfl

theorem monthName_of_not_isAlpha {c : Char} (h : c.isAlpha = false) (s : List Char) : monthName (c :: s) = none := by
  have letters : shortMonths.all (fun w => w.toList.head?.any Char.isAlpha) = true := by decide
  have word : wordOf shortMonths (c :: s) = none := by
    refine wordOf_eq_none (fun w hw => ?_) s
    obtain ⟨d, hd, alpha⟩ := (Option.any_eq_true ..).mp (List.all_eq_true.mp letters w hw)
    obtain ⟨t, ht⟩ := List.head?_eq_some_iff.mp hd
    refine ⟨d, t, ht, ?_⟩
    rintro rfl
    rw [toLower_of_not_isAlpha h, h] at alpha
    cases alpha
  exact bind_of_none (bind_of_none word _) _

end Scan

/-! ## Layouts -/

/-- No number begins with the character, and no blanks before one. -/
structure BeginsNoNumber (c : Char) : Prop where
  isDigit : c.isDigit = false
  isBlank : Text.isBlank c = false
  minus : c ≠ '-'
  plus : c ≠ '+'

theorem BeginsNoNumber.beginsUnblank {c : Char} (h : BeginsNoNumber c) (s : List Char) : Text.BeginsUnblank (c :: s) :=
  ⟨c, s, rfl, h.isBlank⟩

theorem beginsNoNumber_of_isAlpha {c : Char} (h : c.isAlpha = true) : BeginsNoNumber c := by
  have letter : (97 ≤ c.toNat ∧ c.toNat ≤ 122) ∨ (65 ≤ c.toNat ∧ c.toNat ≤ 90) :=
    (Format.isAlpha_iff c).mp h
  refine ⟨Format.isDigit_of_isAlpha h, ?_, ?_, ?_⟩
  · simp only [Text.isBlank, Bool.or_eq_false_iff, Bool.and_eq_false_iff, decide_eq_false_iff_not, beq_eq_false_iff_ne]
    omega
  · rintro rfl
    exact absurd h (by decide)
  · rintro rfl
    exact absurd h (by decide)

theorem not_isAlpha_of_isDigit {c : Char} (h : c.isDigit = true) : c.isAlpha = false := by
  cases alpha : c.isAlpha with
  | false => rfl
  | true => exact absurd h (Bool.eq_false_iff.mp (Format.isDigit_of_isAlpha alpha))

namespace Layout

open Text Scan

theorem blanks_of_beginsUnblank {s : List Char} (h : BeginsUnblank s) : blanks s = some ((), s) :=
  congrArg (fun s => some ((), s)) h.trimStart_eq

section Numbers

variable {s rest : List Char} {n : Nat}

theorem scanPair_append (h : IsNumeral 2 s n) : scanPair (s ++ rest) = some (n, rest) := by
  rw [scanPair, bind_of_some (blanks_of_beginsUnblank (h.beginsUnblank.append rest)),
    digitsAtMost_append h (Nat.le_refl 2) (.inl rfl)]

theorem scanPair_of_beginsNoNumber {c : Char} (h : BeginsNoNumber c) : scanPair (c :: s) = none := by
  rw [scanPair, bind_of_some (blanks_of_beginsUnblank (h.beginsUnblank s)), digitsAtMost_of_not_isDigit h.isDigit]

/-- A year without a sign has up to four digits. -/
theorem scanYear_cons {c : Char} (minus : c ≠ '-') (plus : c ≠ '+') (s : List Char) :
    scanYear (c :: s) = (digitsAtMost 4 (c :: s)).map fun r => ((r.1 : Int), r.2) := by
  unfold scanYear
  split
  · rename_i same
    exact absurd (List.cons.inj same).1 minus
  · rename_i same
    exact absurd (List.cons.inj same).1 plus
  · rfl

theorem scanYear_append {width : Nat} (h : IsNumeral (width + 1) s n) (few : width + 1 ≤ 4)
    (stop : width + 1 = 4 ∨ ∀ c ∈ rest.head?, c.isDigit = false) :
    scanYear (s ++ rest) = some ((n : Int), rest) := by
  have read := digitsAtMost_append h few stop
  obtain ⟨c, t, rfl, digit⟩ := h.exists_cons
  have minus : c ≠ '-' := by rintro rfl; exact absurd digit (by decide)
  have plus : c ≠ '+' := by rintro rfl; exact absurd digit (by decide)
  rw [List.cons_append, scanYear_cons minus plus, ← List.cons_append, read, Option.map_some]

theorem scanYear_of_beginsNoNumber {c : Char} (h : BeginsNoNumber c) : scanYear (c :: s) = none := by
  rw [scanYear_cons h.minus h.plus, digitsAtMost_of_not_isDigit h.isDigit, Option.map_none]

end Numbers

/-! ## Reading part by part -/

/-- What a text says from a moment on. -/
def readFrom (m : Moment) (parts : Layout) (s : List Char) : Option Moment := Scan.whole? (parts.foldlM scanPart m) s

section Parts

variable {m : Moment} {parts : Layout} {s rest : List Char} {n : Nat}

theorem readFrom_nil : readFrom m [] [] = some m := rfl

theorem readFrom_nil_of_ne (h : s ≠ []) : readFrom m [] s = none := by
  cases s with
  | nil => exact absurd rfl h
  | cons c s => rfl

theorem readFrom_cons {part : LayoutPart} {m' : Moment} (h : scanPart m part s = some (m', rest)) :
    readFrom m (part :: parts) s = readFrom m' parts rest := by
  have bound : List.foldlM scanPart m (part :: parts) s = List.foldlM scanPart m' parts rest := by
    rw [List.foldlM_cons]
    exact bind_of_some h _
  rw [readFrom, Scan.whole?, bound]
  rfl

theorem readFrom_cons_of_none {part : LayoutPart} (h : scanPart m part s = none) :
    readFrom m (part :: parts) s = none := by
  have bound : List.foldlM scanPart m (part :: parts) s = none := by
    rw [List.foldlM_cons]
    exact bind_of_none h _
  rw [readFrom, Scan.whole?, bound]

/-- A year takes up to four digits. -/
theorem readFrom_year {width : Nat} (h : IsNumeral (width + 1) s n) (few : width + 1 ≤ 4)
    (stop : width + 1 = 4 ∨ ∀ c ∈ rest.head?, c.isDigit = false) :
    readFrom m (.year :: parts) (s ++ rest) = readFrom { m with date.year := n } parts rest := by
  have unblank := blanks_of_beginsUnblank (h.beginsUnblank.append rest)
  exact readFrom_cons
    (bind_eq_some.mpr ⟨(), _, unblank, bind_eq_some.mpr ⟨n, rest, scanYear_append h few stop, rfl⟩⟩)

theorem readFrom_month (h : IsNumeral 2 s n) :
    readFrom m (.month :: parts) (s ++ rest) = readFrom { m with date.month := n } parts rest :=
  readFrom_cons (bind_eq_some.mpr ⟨n, rest, scanPair_append h, rfl⟩)

theorem readFrom_day (h : IsNumeral 2 s n) :
    readFrom m (.day :: parts) (s ++ rest) = readFrom { m with date.day := n } parts rest :=
  readFrom_cons (bind_eq_some.mpr ⟨n, rest, scanPair_append h, rfl⟩)

theorem readFrom_lastYear (h : IsNumeral 4 s n) : readFrom m [.year] s = some { m with date.year := n } := by
  rw [← s.append_nil, readFrom_year h (Nat.le_refl 4) (.inl rfl), readFrom_nil]

theorem readFrom_lastDay (h : IsNumeral 2 s n) : readFrom m [.day] s = some { m with date.day := n } := by
  rw [← s.append_nil, readFrom_day h, readFrom_nil]

theorem readFrom_monthName {i : Nat} {w : String} (hi : months[i]? = some w) {name : List Char}
    (hname : name.map Char.toLower = w.toList) :
    readFrom m (.monthName :: parts) (name ++ rest) = readFrom { m with date.month := i + 1 } parts rest :=
  readFrom_cons (bind_eq_some.mpr ⟨i + 1, rest, monthName_append hi hname rest, rfl⟩)

theorem readFrom_blanks (m : Moment) (parts : Layout) (s : List Char) :
    readFrom m (.blanks :: parts) s = readFrom m parts (trimStart s) :=
  readFrom_cons rfl

/-- Blanks before a number or a word are left out. -/
theorem readFrom_space (h : BeginsUnblank s) : readFrom m (.blanks :: parts) (' ' :: s) = readFrom m parts s := by
  rw [readFrom_blanks, trimStart_space, h.trimStart_eq]

theorem readFrom_char (m : Moment) (parts : Layout) (c : Char) (s : List Char) :
    readFrom m (.char c :: parts) (c :: s) = readFrom m parts s :=
  readFrom_cons (bind_eq_some.mpr ⟨(), s, if_pos rfl, rfl⟩)

/-! ## Where parts fail -/

theorem readFrom_char_of_ne {c d : Char} (h : d ≠ c) : readFrom m (.char c :: parts) (d :: s) = none :=
  readFrom_cons_of_none (bind_of_none (if_neg h) _)

theorem readFrom_monthName_of_not_isAlpha {c : Char} (h : c.isAlpha = false) :
    readFrom m (.monthName :: parts) (c :: s) = none :=
  readFrom_cons_of_none (bind_of_none (monthName_of_not_isAlpha h s) _)

section NoNumber

variable {c : Char} (h : BeginsNoNumber c)

include h

theorem readFrom_year_of_beginsNoNumber : readFrom m (.year :: parts) (c :: s) = none := by
  refine readFrom_cons_of_none ?_
  rw [scanPart, bind_of_some (blanks_of_beginsUnblank (h.beginsUnblank s)), bind_of_none (scanYear_of_beginsNoNumber h)]

theorem readFrom_month_of_beginsNoNumber : readFrom m (.month :: parts) (c :: s) = none :=
  readFrom_cons_of_none (bind_of_none (scanPair_of_beginsNoNumber h) _)

theorem readFrom_day_of_beginsNoNumber : readFrom m (.day :: parts) (c :: s) = none :=
  readFrom_cons_of_none (bind_of_none (scanPair_of_beginsNoNumber h) _)

end NoNumber

end Parts

end Layout

end Calendar

end BodySpec
