import BodySpec.Binary64.Plain

/-!
# Reading plain decimals

What `ofPlain?` reads from a text is settled by its parts: the sign, and the digits before and after the point
(`ofPlain?_of_pointParts?`). The digits that an integer is written with are read back to it
(`pointParts?_whole`, with `Nat.ofDigitChars`), and so are the digits of a number with a point (`pointParts?_point`).
-/

namespace BodySpec.Binary64

open Text

/-- The values of digits. -/
def digitValues (s : List Char) : List Nat := s.map fun c => c.toNat - '0'.toNat

/-- A sign that may stand before a plain decimal, and whether it is a minus. -/
inductive IsSign : List Char → Bool → Prop
  | none : IsSign [] false
  | plus : IsSign ['+'] false
  | minus : IsSign ['-'] true

section Parts

variable {s whole fraction : List Char}

theorem pointParts?_whole (hs : s ≠ []) (hd : ∀ c ∈ s, c.isDigit = true) :
    pointParts? s = some (digitValues s, []) := by
  cases s with
  | nil => exact absurd rfl hs
  | cons c s => rw [pointParts?, digits_of_isDigit hd]; rfl

theorem pointParts?_point (hw : ∀ c ∈ whole, c.isDigit = true) (hf : fraction ≠ [])
    (hd : ∀ c ∈ fraction, c.isDigit = true) :
    pointParts? (whole ++ '.' :: fraction) = some (digitValues whole, digitValues fraction) := by
  have before : digits (whole ++ '.' :: fraction) = (digitValues whole, '.' :: fraction) := digits_append hw (by simp)
  cases fraction with
  | nil => exact absurd rfl hf
  | cons c fraction =>
    rw [pointParts?, before]
    simp only [digits_of_isDigit hd]
    rfl

/-- A text with a sign before its digits has no parts. -/
theorem pointParts?_cons_of_not_isDigit {c : Char} (hc : c.isDigit = false) (point : c ≠ '.') :
    pointParts? (c :: s) = none := by
  have unread : digits (c :: s) = ([], c :: s) := by simp [digits, digit?, hc]
  rw [pointParts?, unread]
  simp [point]

/-- A text that has parts is made of digits and points. -/
theorem isDigit_or_of_pointParts? {parts : List Nat × List Nat} (h : pointParts? s = some parts) :
    ∀ c ∈ s, c.isDigit = true ∨ c = '.' := by
  obtain ⟨run, hs, hrun⟩ := exists_digits s
  rw [pointParts?] at h
  rw [hs]
  refine List.forall_mem_append.mpr ⟨fun c hc => .inl (hrun c hc), ?_⟩
  split at h
  · rename_i whole t point
    obtain ⟨run', ht, hrun'⟩ := exists_digits t
    rw [point]
    refine List.forall_mem_cons.mpr ⟨.inr rfl, ?_⟩
    split at h
    · rename_i rest
      rw [rest, List.append_nil] at ht
      exact fun c hc => .inl (hrun' c (ht ▸ hc))
    · cases h
  · rename_i rest
    rw [rest]
    exact List.forall_mem_nil _
  · cases h

end Parts

/-- A plain decimal is read as the quotient of its digits and a power of ten, rounded. -/
theorem ofPlain?_of_pointParts? {sign s : List Char} {negative : Bool} {whole fraction : List Nat}
    (hsign : IsSign sign negative) (h : pointParts? s = some (whole, fraction)) :
    ofPlain? (sign ++ s) =
      some (round negative (decimalValue (whole ++ fraction)) (Nat.pow 10 fraction.length)) := by
  have split : signPart (sign ++ s) = (negative, s) := by
    cases hsign with
    | plus => rfl
    | minus => rfl
    | none =>
      cases s with
      | nil => rfl
      | cons c s =>
        have noMinus : c ≠ '-' := by
          rintro rfl
          rw [pointParts?_cons_of_not_isDigit rfl (by decide)] at h
          cases h
        have noPlus : c ≠ '+' := by
          rintro rfl
          rw [pointParts?_cons_of_not_isDigit rfl (by decide)] at h
          cases h
        simp [signPart, noMinus, noPlus]
  rw [ofPlain?, split]
  simp only [h, Option.map_some]

theorem mem_signPart {s : List Char} {c : Char} (minus : c ≠ '-') (plus : c ≠ '+') (h : c ∈ s) :
    c ∈ (signPart s).2 := by
  unfold signPart
  split
  · exact (List.mem_cons.mp h).resolve_left minus
  · exact (List.mem_cons.mp h).resolve_left plus
  · exact h

/-- A text with an exponent is no plain decimal. -/
theorem ofPlain?_eq_none_of_mem {s : List Char} (h : 'e' ∈ s) : ofPlain? s = none := by
  have rest := mem_signPart (by decide) (by decide) h
  have unread : pointParts? (signPart s).2 = none := by
    cases read : pointParts? (signPart s).2 with
    | none => rfl
    | some parts => exact absurd (isDigit_or_of_pointParts? read 'e' rest) (by decide)
  rw [ofPlain?]
  simp only [unread, Option.map_none]

end BodySpec.Binary64
