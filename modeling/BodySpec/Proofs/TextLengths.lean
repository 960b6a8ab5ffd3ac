import BodySpec.Pattern.Language
import BodySpec.Proofs.Bounds

/-!
# Lengths of texts

Names of users and passwords are judged by a pattern, and strings by their number of characters, compared in binary64.
The two agree on every text without a line feed (`Builtin.password_userId_length`). With one, the pattern refuses the
text at any length (`Builtin.password_refuses_lineFeeds`).
-/

namespace BodySpec

namespace Format

open Pattern

/-- The texts of one line with a number of characters between the two given. -/
theorem matches_between_inLine {low high : Nat} (h : low ≤ high) {s : List Char} :
    Matches (between low high inLine) s ↔ (low ≤ s.length ∧ s.length ≤ high) ∧ '\n' ∉ s := by
  rw [inLine, matches_between_char h]
  refine and_congr_right fun _ => ⟨fun all feed => ?_, fun none c hc => ?_⟩
  · exact absurd (all _ feed) (by decide)
  · exact bne_iff_ne.mpr fun feed => none (feed ▸ hc)

end Format

namespace Builtin

/-- The arguments of two bounds. -/
def twoBounds (low high : Int) : List (Argument Unit) := [.value (.number (.int low)), .value (.number (.int high))]

/-- Bounds below `2 ^ 53` are exact for a length, however large that is. -/
theorem string_holds_twoBounds {low high : Nat} (hl : low < 2 ^ 53) (hh : high < 2 ^ 53) (s : String) :
    string.holds (.string s) (twoBounds low high) = true ↔ low ≤ s.length ∧ s.length ≤ high := by
  have bounded : string.holds (.string s) (twoBounds low high) =
      decide (Binary64.ofInt low ≤ Binary64.ofInt s.length ∧ Binary64.ofInt s.length ≤ Binary64.ofInt high) := rfl
  have lower : Binary64.ofInt low ≤ Binary64.ofInt s.length ↔ (low : Int) ≤ s.length :=
    Binary64.ofInt_le_ofInt_iff (.inl (by rwa [Int.natAbs_natCast]))
  have upper : Binary64.ofInt s.length ≤ Binary64.ofInt high ↔ (s.length : Int) ≤ high :=
    Binary64.ofInt_le_ofInt_iff (.inr (by rwa [Int.natAbs_natCast]))
  rw [bounded, decide_eq_true_iff, lower, upper, Int.ofNat_le, Int.ofNat_le]

/-- A pattern of texts on one line is a test of the length, and one for line feeds. -/
theorem hasForm_between_inLine {low high : Nat} (h : low ≤ high) (hh : high < 2 ^ 53) (s : String) :
    (hasForm (.between low high Format.inLine) (.string s) = true ↔
      (low ≤ s.length ∧ s.length ≤ high) ∧ '\n' ∉ s.toList) ∧
    hasForm (.between low high Format.inLine) (.string s) =
      (string.holds (.string s) (twoBounds low high) && !s.toList.contains '\n') := by
  have form : hasForm (.between low high Format.inLine) (.string s) = true ↔
      (low ≤ s.length ∧ s.length ≤ high) ∧ '\n' ∉ s.toList :=
    (Pattern.accepts_iff _ s.toList).trans (Format.matches_between_inLine h)
  refine ⟨form, Bool.eq_iff_iff.mpr ?_⟩
  rw [form, Bool.and_eq_true, string_holds_twoBounds (Nat.lt_of_le_of_lt h hh) hh]
  simp

/-- **Passwords and names of users are judged by their length, if they are on one line.** A password has 8 to 64
characters and a name 3 to 64, and none of them is a line feed; a string with these bounds is accepted with line feeds,
too. -/
theorem password_userId_length (s : String) (args : List (Argument Unit)) :
    (password.holds (.string s) args = true ↔ (8 ≤ s.length ∧ s.length ≤ 64) ∧ '\n' ∉ s.toList) ∧
    password.holds (.string s) args = (string.holds (.string s) (twoBounds 8 64) && !s.toList.contains '\n') ∧
    (userId.holds (.string s) args = true ↔ (3 ≤ s.length ∧ s.length ≤ 64) ∧ '\n' ∉ s.toList) ∧
    userId.holds (.string s) args = (string.holds (.string s) (twoBounds 3 64) && !s.toList.contains '\n') := by
  obtain ⟨password, passwordAsString⟩ := hasForm_between_inLine (by decide : 8 ≤ 64) (by decide) s
  obtain ⟨name, nameAsString⟩ := hasForm_between_inLine (by decide : 3 ≤ 64) (by decide) s
  exact ⟨password, passwordAsString, name, nameAsString⟩

/-- Eight line feeds are as long as a password, and are refused. -/
theorem password_refuses_lineFeeds :
    "\n\n\n\n\n\n\n\n".length = 8 ∧ password.holds (.string "\n\n\n\n\n\n\n\n") [] = false ∧
      userId.holds (.string "\n\n\n\n\n\n\n\n") [] = false ∧
      string.holds (.string "\n\n\n\n\n\n\n\n") (twoBounds 8 64) = true ∧
      ¬ ∀ s : String, password.holds (.string s) [] = true ↔ 8 ≤ s.length ∧ s.length ≤ 64 := by
  have refused : password.holds (.string "\n\n\n\n\n\n\n\n") [] = false := by decide +kernel
  refine ⟨by decide, refused, by decide +kernel, by decide +kernel, fun byLength => ?_⟩
  have accepted := (byLength "\n\n\n\n\n\n\n\n").mpr (by decide)
  exact absurd (refused.symm.trans accepted) Bool.false_ne_true

end Builtin

end BodySpec
