import BodySpec.Proofs.Addresses
import BodySpec.Proofs.Classes
import Mathlib.Tactic.FinCases

/-!
# Case in e-mail addresses

Case folding changes nothing but letters, and gives letters that it leaves as they are (`Address.isLetter_of_fold_ne`,
`Address.isLetter_fold`, `Address.fold_fold`). A class of the form of an address holds all letters or none of them, or
what folds to one letter, so no class tells a character from its folding. Main statement: an address is judged as its
folding is, and is ASCII but for the two characters outside ASCII that fold to a letter (`Builtin.email_holds_fold`).
Addresses with these two are accepted (`Builtin.email_accepts_longS`).
-/

namespace BodySpec

namespace Address

/-! ## Folding -/

theorem isAscii_of_isAlpha {c : Char} (h : c.isAlpha = true) : c.toNat < 128 := by
  have range : (97 ≤ c.toNat ∧ c.toNat ≤ 122) ∨ (65 ≤ c.toNat ∧ c.toNat ≤ 90) :=
    (Format.isAlpha_iff c).mp h
  omega

/-- Folding an ASCII character is writing it in lower case. -/
theorem fold_of_isAscii {c : Char} (h : c.toNat < 128) : fold c = c.toLower := by
  have longS : c ≠ '\u017f' := by rintro rfl; exact absurd h (by decide)
  have kelvin : c ≠ '\u212a' := by rintro rfl; exact absurd h (by decide)
  rw [fold, if_neg longS, if_neg kelvin]

/-- A small letter is its own folding. -/
theorem fold_of_isSmall {c : Char} (h : 'a' ≤ c ∧ c ≤ 'z') : fold c = c := by
  have range : 97 ≤ c.toNat ∧ c.toNat ≤ 122 := h
  rw [fold_of_isAscii (by omega)]
  refine dif_neg fun capital : 'A' ≤ c ∧ c ≤ 'Z' => ?_
  have bounds : 65 ≤ c.toNat ∧ c.toNat ≤ 90 := capital
  omega

/-- A letter folds to a small one. -/
theorem isSmall_fold {c : Char} (h : IsLetter c) : 'a' ≤ fold c ∧ fold c ≤ 'z' := by
  rcases h with small | capital | rfl | rfl
  · rw [fold_of_isSmall small]
    exact small
  · have range : 65 ≤ c.toNat ∧ c.toNat ≤ 90 := capital
    have shifted : c.toLower.val = c.val + 32 := congrArg Char.val (dif_pos capital)
    have moved : c.toLower.toNat = c.toNat + 32 := by
      rw [Char.toNat, shifted, UInt32.toNat_add]
      exact Nat.mod_eq_of_lt (show c.toNat + 32 < 4294967296 by omega)
    rw [fold_of_isAscii (by omega)]
    show 97 ≤ c.toLower.toNat ∧ c.toLower.toNat ≤ 122
    omega
  · decide
  · decide

theorem isLetter_cases {c : Char} (h : IsLetter c) : c.isAlpha = true ∨ c = '\u017f' ∨ c = '\u212a' :=
  (Format.isLetter_iff c).mp ((Format.isLetter_iff_address c).mpr h)

theorem isLetter_of_fold_ne {c : Char} (h : fold c ≠ c) : IsLetter c := by
  rw [fold] at h
  split at h
  · rename_i longS
    exact .inr (.inr (.inl longS))
  · split at h
    · rename_i kelvin
      exact .inr (.inr (.inr kelvin))
    · by_cases upper : 'A' ≤ c ∧ c ≤ 'Z'
      · exact .inr (.inl upper)
      · exact absurd (dif_neg upper) h

theorem isLetter_fold {c : Char} (h : IsLetter c) : IsLetter (fold c) := .inl (isSmall_fold h)

theorem fold_fold (c : Char) : fold (fold c) = fold c := by
  by_cases same : fold c = c
  · rw [same, same]
  · exact fold_of_isSmall (isSmall_fold (isLetter_of_fold_ne same))

/-! ## Classes -/

/-- A class that holds all letters or none of them does not tell a character from its folding. -/
theorem belongs_fold_of_letters {belongs : Char → Bool} {b : Bool}
    (h : ∀ c, IsLetter c → belongs c = b) (c : Char) :
    belongs (fold c) = belongs c := by
  by_cases same : fold c = c
  · rw [same]
  · have letter := isLetter_of_fold_ne same
    rw [h _ letter, h _ (isLetter_fold letter)]

theorem isDigit_of_isLetter {c : Char} (h : IsLetter c) : c.isDigit = false := by
  rcases isLetter_cases h with alpha | rfl | rfl
  · exact Format.isDigit_of_isAlpha alpha
  · rfl
  · rfl

/-- An ASCII character, or one of the two others that fold to a letter. -/
def FoldsToAscii (c : Char) : Prop := c.toNat < 128 ∨ c = '\u017f' ∨ c = '\u212a'

theorem foldsToAscii_of_isLetter {c : Char} (h : IsLetter c) : FoldsToAscii c :=
  (isLetter_cases h).imp_left isAscii_of_isAlpha

theorem foldsToAscii_of_isDigit {c : Char} (h : IsDigit c) : FoldsToAscii c := by
  have range : 48 ≤ c.toNat ∧ c.toNat ≤ 57 := h
  exact .inl (by omega)

theorem foldsToAscii_of_isLocalChar {c : Char} (h : IsLocalChar c) : FoldsToAscii c := by
  have marks : ['-', '~', '!', '$', '%', '^', '&', '*', '_', '=', '+', '\x7d', '\x7b', '\x27', '?'].all
      (fun c => decide (c.toNat < 128)) = true := by decide
  rcases h with h | h | h
  · exact foldsToAscii_of_isLetter h
  · exact foldsToAscii_of_isDigit h
  · exact .inl (of_decide_eq_true (List.all_eq_true.mp marks c h))

theorem foldsToAscii_of_isLabelChar {c : Char} (h : IsLabelChar c) : FoldsToAscii c := by
  rcases h with (h | h | rfl) | rfl
  · exact foldsToAscii_of_isLetter h
  · exact foldsToAscii_of_isDigit h
  · exact .inl (by decide)
  · exact .inl (by decide)

end Address

namespace Format

open Pattern Address

/-- The classes of the form of an address. -/
theorem email_allClasses {P : (Char → Bool) → Prop} (localChar : P isLocalChar) (start : P isLabelStart)
    (label : P isLabelChar) (letter : P isLetter) (digit : P Char.isDigit)
    (mark : ∀ c ∈ ['.', '@', ':'], P (· == c))
    (word : ∀ d ∈ knownDomains, ∀ c ∈ d.toList, P (foldsTo c)) : email.AllClasses P := by
  have dot : P (· == '.') := mark '.' (by decide)
  have name : hostName.AllClasses P := by
    simp only [hostName, topLevelDomain, Format.dot, Format.letter, allClasses_seq, allClasses_char, allClasses_star,
      allClasses_plus, allClasses_alt, allClasses_anyOf, List.forall_mem_map, allClasses_folded]
    exact ⟨start, label, ⟨dot, label⟩, dot, word, letter, letter⟩
  have octet : octet.AllClasses P := AllClasses.between (p := Format.digit) digit 1 3
  have quad : dottedQuad.AllClasses P := ⟨octet, dot, octet, dot, octet, dot, octet⟩
  have port : (optional colonNumber).AllClasses P :=
    allClasses_optional.mpr ⟨mark ':' (by decide), AllClasses.between (p := Format.digit) digit 1 5⟩
  have localPart : localPart.AllClasses P :=
    allClasses_separatedBy.mpr ⟨dot, allClasses_plus.mpr localChar⟩
  exact ⟨localPart, mark '@' (by decide), ⟨name, quad⟩, port⟩

theorem foldsTo_iff_of_mem {d : String} (hd : d ∈ knownDomains) {w : Char} (hw : w ∈ d.toList) (c : Char) :
    foldsTo w c = true ↔ fold c = w := by
  have lower := isLower_of_mem_knownDomains hd w hw
  refine foldsTo_iff ?_ ?_ c
  · rintro rfl; exact absurd lower (by decide)
  · rintro rfl; exact absurd lower (by decide)

/-- The form of an address does not depend on case. -/
theorem email_accepts_fold (s : List Char) : email.accepts (s.map fold) = email.accepts s := by
  refine accepts_map (email_allClasses ?_ ?_ ?_ ?_ ?_ ?_ ?_) s
  · exact belongs_fold_of_letters fun c h => (isLocalChar_iff c).mpr (.inl h)
  · exact belongs_fold_of_letters fun c h => (isLabelStart_iff c).mpr (.inl h)
  · exact belongs_fold_of_letters fun c h => (isLabelChar_iff c).mpr (.inl (.inl h))
  · exact belongs_fold_of_letters fun c h => (isLetter_iff_address c).mpr h
  · exact belongs_fold_of_letters fun c h => isDigit_of_isLetter h
  · intro mark hmark
    have other : ¬ IsLetter mark := by
      fin_cases hmark <;> simp [IsLetter]
    have apart : ∀ c, IsLetter c → (c == mark) = false := by
      intro c h
      rw [beq_eq_false_iff_ne]
      rintro rfl
      exact other h
    exact belongs_fold_of_letters apart
  · intro d hd w hw c
    rw [Bool.eq_iff_iff, foldsTo_iff_of_mem hd hw, foldsTo_iff_of_mem hd hw, fold_fold]

theorem foldsToAscii_of_matches_email {s : List Char} (h : Matches email s) : ∀ c ∈ s, FoldsToAscii c := by
  refine forall_mem_of_matches (email_allClasses ?_ ?_ ?_ ?_ ?_ ?_ ?_) h
  · exact fun c hc => foldsToAscii_of_isLocalChar ((isLocalChar_iff c).mp hc)
  · exact fun c hc => foldsToAscii_of_isLabelChar (.inl ((isLabelStart_iff c).mp hc))
  · exact fun c hc => foldsToAscii_of_isLabelChar ((isLabelChar_iff c).mp hc)
  · exact fun c hc => foldsToAscii_of_isLetter ((isLetter_iff_address c).mp hc)
  · exact fun c hc => foldsToAscii_of_isDigit ((isDigit_iff c).mp hc)
  · intro mark hmark c hc
    rw [eq_of_beq hc]
    fin_cases hmark <;> exact .inl (by decide)
  · intro d hd w hw c hc
    have lower : IsLetter w := .inl (isLower_of_mem_knownDomains hd w hw)
    exact foldsToAscii_of_isLetter (isLetter_of_fold ((foldsTo_iff_of_mem hd hw c).mp hc ▸ lower))

end Format

namespace Builtin

theorem toLower_eq_map (s : String) : s.toLower = s.map Char.toLower := rfl

/-- **Case does not matter in an address, and it is ASCII up to case.** A text is accepted if and only if its folding
is, so an ASCII text if and only if it is in lower case. Each character of an accepted text is ASCII, or is one of the
two that fold to `s` and `k`. -/
theorem email_holds_fold (s : String) (args : List (Argument Unit)) :
    (email.holds (.string s) args = true → ∀ c ∈ s.toList, c.toNat < 128 ∨ c = '\u017f' ∨ c = '\u212a') ∧
    email.holds (.string s) args = email.holds (.string (s.map Address.fold)) args ∧
    ((∀ c ∈ s.toList, c.toNat < 128) → email.holds (.string s) args = email.holds (.string s.toLower) args) := by
  have folded : email.holds (.string s) args = email.holds (.string (s.map Address.fold)) args := by
    have form : Format.email.accepts (s.map Address.fold).toList = Format.email.accepts s.toList := by
      rw [String.toList_map, Format.email_accepts_fold]
    exact form.symm
  refine ⟨fun accepted => ?_, folded, fun ascii => ?_⟩
  · exact Format.foldsToAscii_of_matches_email ((Pattern.accepts_iff Format.email s.toList).mp accepted)
  · have lower : s.map Address.fold = s.toLower := by
      rw [toLower_eq_map, ← String.toList_inj, String.toList_map, String.toList_map]
      exact List.map_congr_left fun c hc => Address.fold_of_isAscii (ascii c hc)
    rw [folded, lower]

/-- An address in capitals, and one with the Kelvin sign for the `k` of its first label. -/
theorem email_holds_fold_capitals :
    email.holds (.string "MARK@POST.ORG") [] = email.holds (.string "mark@post.org") [] ∧
      ∀ c ∈ "mar\u212a@post.org".toList, c.toNat < 128 ∨ c = '\u017f' ∨ c = '\u212a' := by
  have ascii : "MARK@POST.ORG".toList.all (fun c => decide (c.toNat < 128)) = true := by decide
  have lower : "MARK@POST.ORG".toLower = "mark@post.org" := by
    rw [toLower_eq_map, ← String.toList_inj, String.toList_map]
    rfl
  refine ⟨?_, (email_holds_fold "mar\u212a@post.org" []).1 (by decide +kernel)⟩
  rw [(email_holds_fold "MARK@POST.ORG" []).2.2 fun c hc => of_decide_eq_true (List.all_eq_true.mp ascii c hc), lower]

/-- A long s stands for an `s` in an address. -/
theorem email_accepts_longS :
    email.holds (.string "\u017f@example.org") [] = true ∧
      ¬ ∀ s : String, email.holds (.string s) [] = true → ∀ c ∈ s.toList, c.toNat < 128 := by
  have accepted : email.holds (.string "\u017f@example.org") [] = true := by decide +kernel
  refine ⟨accepted, fun ascii => ?_⟩
  have small := ascii _ accepted '\u017f' (by decide)
  exact absurd small (by decide)

end Builtin

end BodySpec
