import BodySpec.Builtin.Judgement
import BodySpec.Pattern.Language
import BodySpec.Text.Blank

/-!
# The grammar of e-mail addresses

`IsAddress` is the grammar of e-mail addresses, said of texts and lists of runs, without patterns. Main statement: the
validator of addresses accepts the texts of this grammar and no others (`email_iff_isAddress`).

Each part of the pattern has its rule: what is joined by dots is a list of runs (`Pattern.matches_separatedBy`), a run
is a list of characters of a class, and the labels between the first one and the top-level domain are the runs that have
a dot before them (`Pattern.matches_star_preceded`). So the ambiguity of where those labels end does not matter: a host
name is a list of labels, and its last one is the top-level domain.
-/

namespace BodySpec

namespace Address

/-! ## Characters -/

/-- An ASCII letter, or the long s or the Kelvin sign, which fold to `s` and `k`. -/
def IsLetter (c : Char) : Prop :=
  ('a' ≤ c ∧ c ≤ 'z') ∨ ('A' ≤ c ∧ c ≤ 'Z') ∨ c = '\u017f' ∨ c = '\u212a'

def IsDigit (c : Char) : Prop := '0' ≤ c ∧ c ≤ '9'

/-- What a local part is made of, apart from its dots. -/
def IsLocalChar (c : Char) : Prop :=
  IsLetter c ∨ IsDigit c ∨
    c ∈ ['-', '~', '!', '$', '%', '^', '&', '*', '_', '=', '+', '\x7d', '\x7b', '\x27', '?']

def IsLabelStart (c : Char) : Prop := IsLetter c ∨ IsDigit c ∨ c = '_'

def IsLabelChar (c : Char) : Prop := IsLabelStart c ∨ c = '-'

/-- Case folding of letters. -/
def fold (c : Char) : Char := if c = '\u017f' then 's' else if c = '\u212a' then 'k' else c.toLower

/-! ## Parts of an address -/

/-- The runs with dots between them. -/
def joined (runs : List (List Char)) : List Char := ['.'].intercalate runs

/-- Runs of local characters, none of them empty, joined by dots. -/
def IsLocalPart (s : List Char) : Prop :=
  ∃ runs, runs ≠ [] ∧ (∀ r ∈ runs, r ≠ [] ∧ ∀ c ∈ r, IsLocalChar c) ∧ s = joined runs

/-- Four groups of one to three digits, joined by dots. -/
def IsDottedQuad (s : List Char) : Prop :=
  ∃ groups, groups.length = 4 ∧
    (∀ g ∈ groups, (1 ≤ g.length ∧ g.length ≤ 3) ∧ ∀ c ∈ g, IsDigit c) ∧ s = joined groups

/-- Two letters, or one of the known domains in any case. -/
def IsTopLevelDomain (s : List Char) : Prop :=
  (s.length = 2 ∧ ∀ c ∈ s, IsLetter c) ∨
    String.ofList (s.map fold) ∈ ["aero", "arpa", "biz", "com", "coop", "edu", "gov", "info", "int", "mil", "museum",
      "name", "net", "org", "pro", "travel", "mobi"]

/-- Two labels or more, joined by dots. The first does not begin with a hyphen, and the last is a top-level domain. -/
def IsHostName (s : List Char) : Prop :=
  ∃ first middle last, (∃ c t, first = c :: t ∧ IsLabelStart c ∧ ∀ d ∈ t, IsLabelChar d) ∧
    (∀ l ∈ middle, l ≠ [] ∧ ∀ c ∈ l, IsLabelChar c) ∧ IsTopLevelDomain last ∧
    s = joined (first :: (middle ++ [last]))

/-- Nothing, or a colon and one to five digits. -/
def IsPort (s : List Char) : Prop :=
  s = [] ∨ ∃ t, s = ':' :: t ∧ (1 ≤ t.length ∧ t.length ≤ 5) ∧ ∀ c ∈ t, IsDigit c

end Address

open Address

/-- A local part, `@`, a host, and perhaps a port. -/
def IsAddress (s : List Char) : Prop :=
  ∃ name host port, IsLocalPart name ∧ (IsHostName host ∨ IsDottedQuad host) ∧ IsPort port ∧
    s = name ++ '@' :: (host ++ port)

namespace Format

open Pattern

/-! ## Classes of characters -/

theorem isAlpha_iff (c : Char) : c.isAlpha = true ↔ ('a' ≤ c ∧ c ≤ 'z') ∨ ('A' ≤ c ∧ c ≤ 'Z') := by
  have ranges : c.isAlpha = (decide ('A' ≤ c ∧ c ≤ 'Z') || (decide ('a' ≤ c) && decide (c ≤ 'z'))) := rfl
  simp only [ranges, Bool.or_eq_true, Bool.and_eq_true, decide_eq_true_eq]
  exact or_comm

theorem isDigit_of_isAlpha {c : Char} (h : c.isAlpha = true) : c.isDigit = false := by
  have letter : (97 ≤ c.toNat ∧ c.toNat ≤ 122) ∨ (65 ≤ c.toNat ∧ c.toNat ≤ 90) := (isAlpha_iff c).mp h
  have nine : '9'.toNat = 57 := rfl
  rw [Bool.eq_false_iff, Ne, Char.isDigit_iff_toNat]
  omega

theorem isLetter_iff_address (c : Char) : isLetter c = true ↔ IsLetter c := by
  rw [isLetter_iff, isAlpha_iff, or_assoc, IsLetter]

theorem isDigit_iff (c : Char) : c.isDigit = true ↔ IsDigit c := by
  simp only [Char.isDigit, Bool.and_eq_true, decide_eq_true_eq]
  exact Iff.rfl

theorem isLocalChar_iff (c : Char) : isLocalChar c = true ↔ IsLocalChar c := by
  simp only [isLocalChar, isAmong, Bool.or_eq_true, isLetter_iff_address, isDigit_iff, List.contains_iff_mem, or_assoc]
  exact Iff.rfl

theorem isLabelStart_iff (c : Char) : isLabelStart c = true ↔ IsLabelStart c := by
  simp [isLabelStart, IsLabelStart, isLetter_iff_address, isDigit_iff, or_assoc]

theorem isLabelChar_iff (c : Char) : isLabelChar c = true ↔ IsLabelChar c := by
  simp [isLabelChar, IsLabelChar, isLabelStart_iff]

/-- A lower case letter is what folds to it. -/
theorem foldsTo_iff {lower : Char} (hs : lower ≠ '\u017f') (hk : lower ≠ '\u212a') (c : Char) :
    foldsTo lower c = true ↔ fold c = lower := by
  have longS : Char.toLower '\u017f' = '\u017f' := rfl
  have kelvin : Char.toLower '\u212a' = '\u212a' := rfl
  simp only [foldsTo, fold, Bool.or_eq_true, Bool.and_eq_true, beq_iff_eq]
  split
  · rename_i h
    subst h
    simp [longS, hs.symm, eq_comm]
  · split
    · rename_i h
      subst h
      simp [kelvin, hk.symm, eq_comm]
    · rename_i h h'
      simp [h, h']

/-! ## Forms of the parts -/

theorem matches_folded {w s : List Char} (hw : ∀ c ∈ w, c ≠ '\u017f' ∧ c ≠ '\u212a') :
    Matches (folded w) s ↔ s.map fold = w := by
  induction w generalizing s with
  | nil => simp [folded]
  | cons c w ih =>
    obtain ⟨⟨hs, hk⟩, hw⟩ := List.forall_mem_cons.mp hw
    have hcons : folded (c :: w) = seq (char (foldsTo c)) (folded w) := rfl
    cases s with
    | nil => simp [hcons, matches_seq_char]
    | cons d s => simp [hcons, matches_seq_char_cons, foldsTo_iff hs hk, ih hw]

theorem matches_localPart {s : List Char} : Matches localPart s ↔ IsLocalPart s := by
  simp only [localPart, matches_separatedBy, matches_plus_char, isLocalChar_iff]
  exact Iff.rfl

theorem matches_dottedQuad {s : List Char} : Matches dottedQuad s ↔ IsDottedQuad s := by
  simp only [dottedQuad, dot, matches_seq_between, octet, digit,
    matches_between_char (by decide : 1 ≤ 3), isDigit_iff]
  constructor
  · rintro ⟨a, _, rfl, ha, b, _, rfl, hb, c, d, rfl, hc, hd⟩
    refine ⟨[a, b, c, d], rfl, ?_, by simp [joined]⟩
    simp only [List.forall_mem_cons]
    exact ⟨ha, hb, hc, hd, List.forall_mem_nil _⟩
  · rintro ⟨groups, four, hgroups, rfl⟩
    match groups, four with
    | [a, b, c, d], _ =>
      simp only [List.forall_mem_cons] at hgroups
      obtain ⟨ha, hb, hc, hd, _⟩ := hgroups
      exact ⟨a, _, by simp [joined], ha, b, _, rfl, hb, c, d, rfl, hc, hd⟩

theorem isLower_of_mem_knownDomains {d : String} (hd : d ∈ knownDomains) :
    ∀ c ∈ d.toList, 'a' ≤ c ∧ c ≤ 'z' := by
  have all : knownDomains.all (fun d => d.toList.all fun c => decide ('a' ≤ c ∧ c ≤ 'z')) = true := by decide
  exact fun c hc => of_decide_eq_true (List.all_eq_true.mp (List.all_eq_true.mp all d hd) c hc)

theorem matches_topLevelDomain {s : List Char} : Matches topLevelDomain s ↔ IsTopLevelDomain s := by
  have ascii : ∀ d ∈ knownDomains, ∀ c ∈ d.toList, c ≠ '\u017f' ∧ c ≠ '\u212a' := by
    refine fun d hd c hc => ⟨?_, ?_⟩ <;> rintro rfl <;>
      exact absurd (isLower_of_mem_knownDomains hd _ hc) (by decide)
  have known : Matches (anyOf (knownDomains.map fun d => folded d.toList)) s ↔
      String.ofList (s.map fold) ∈ knownDomains := by
    rw [matches_anyOf]
    constructor
    · rintro ⟨p, hp, hs⟩
      obtain ⟨d, hd, rfl⟩ := List.mem_map.mp hp
      rwa [(matches_folded (ascii d hd)).mp hs, String.ofList_toList]
    · intro hd
      refine ⟨_, List.mem_map_of_mem hd, (matches_folded (ascii _ hd)).mpr ?_⟩
      rw [String.toList_ofList]
  have two : Matches (seq letter letter) s ↔ s.length = 2 ∧ ∀ c ∈ s, IsLetter c := by
    simp only [letter, matches_seq_char, matches_char, isLetter_iff_address]
    constructor
    · rintro ⟨c, _, rfl, hc, d, hd, rfl⟩
      exact ⟨rfl, List.forall_mem_cons.mpr ⟨hc, List.forall_mem_singleton.mpr hd⟩⟩
    · rintro ⟨length, letters⟩
      match s, length with
      | [c, d], _ =>
        obtain ⟨hc, hd⟩ := List.forall_mem_cons.mp letters
        exact ⟨c, _, rfl, hc, d, List.forall_mem_singleton.mp hd, rfl⟩
  rw [topLevelDomain, matches_alt, known, two, or_comm]
  exact Iff.rfl

theorem matches_hostName {s : List Char} : Matches hostName s ↔ IsHostName s := by
  rw [hostName, matches_seq_char]
  simp only [matches_seq (p := star (char isLabelChar)), dot, matches_seq_between, matches_star_char,
    matches_star_preceded, matches_plus_char, matches_topLevelDomain, isLabelStart_iff, isLabelChar_iff]
  constructor
  · rintro ⟨c, _, rfl, hc, t, _, rfl, ht, _, last, rfl, ⟨middle, hmiddle, rfl⟩, hlast⟩
    exact ⟨c :: t, middle, last, ⟨c, t, rfl, hc, ht⟩, hmiddle, hlast, by simp [joined, intercalate_cons]⟩
  · rintro ⟨_, middle, last, ⟨c, t, rfl, hc, ht⟩, hmiddle, hlast, rfl⟩
    exact ⟨c, _, by simp [joined, intercalate_cons], hc, t, _, rfl, ht, _, last, rfl,
      ⟨middle, hmiddle, rfl⟩, hlast⟩

theorem matches_port {s : List Char} : Matches (optional colonNumber) s ↔ IsPort s := by
  simp only [matches_optional, colonNumber, matches_seq_char, digit,
    matches_between_char (by decide : 1 ≤ 5), isDigit_iff,
    beq_iff_eq, IsPort]
  refine or_congr_right ⟨?_, ?_⟩
  · rintro ⟨_, t, rfl, rfl, ht⟩
    exact ⟨t, rfl, ht⟩
  · rintro ⟨t, rfl, ht⟩
    exact ⟨_, t, rfl, rfl, ht⟩

/-- The form of an address is the grammar. -/
theorem matches_email {s : List Char} : Matches email s ↔ IsAddress s := by
  rw [email, matches_seq_between]
  simp only [matches_seq, matches_localPart, matches_alt, matches_hostName, matches_dottedQuad, matches_port]
  constructor
  · rintro ⟨name, _, rfl, hname, host, port, rfl, hhost, hport⟩
    exact ⟨name, host, port, hname, hhost, hport, rfl⟩
  · rintro ⟨name, host, port, hname, hhost, hport, rfl⟩
    exact ⟨name, _, rfl, hname, host, port, rfl, hhost, hport⟩

end Format

namespace Address

/-! ## What no part of an address holds -/

/-- Neither `@` nor a blank. -/
def IsPlain (c : Char) : Prop := c ≠ '@' ∧ Text.isBlank c = false

instance (c : Char) : Decidable (IsPlain c) := inferInstanceAs (Decidable (c ≠ '@' ∧ Text.isBlank c = false))

theorem isPlain_of_isDigit {c : Char} (h : IsDigit c) : IsPlain c := by
  have range : 48 ≤ c.toNat ∧ c.toNat ≤ 57 := h
  constructor
  · rintro rfl
    exact absurd range (by decide)
  · simp only [Text.isBlank, Bool.or_eq_false_iff, Bool.and_eq_false_iff, decide_eq_false_iff_not, beq_eq_false_iff_ne]
    omega

theorem isPlain_of_isLetter {c : Char} (h : IsLetter c) : IsPlain c := by
  have range : (97 ≤ c.toNat ∧ c.toNat ≤ 122) ∨ (65 ≤ c.toNat ∧ c.toNat ≤ 90) ∨
      c.toNat = 0x17f ∨ c.toNat = 0x212a := by
    rcases h with h | h | rfl | rfl
    · exact .inl h
    · exact .inr (.inl h)
    · exact .inr (.inr (.inl rfl))
    · exact .inr (.inr (.inr rfl))
  constructor
  · rintro rfl
    exact absurd range (by decide)
  · simp only [Text.isBlank, Bool.or_eq_false_iff, Bool.and_eq_false_iff, decide_eq_false_iff_not, beq_eq_false_iff_ne]
    omega

theorem isPlain_of_isLocalChar {c : Char} (h : IsLocalChar c) : IsPlain c := by
  have marks : ['-', '~', '!', '$', '%', '^', '&', '*', '_', '=', '+', '\x7d', '\x7b', '\x27', '?'].all
      (fun c => decide (IsPlain c)) = true := by decide
  rcases h with h | h | h
  · exact isPlain_of_isLetter h
  · exact isPlain_of_isDigit h
  · exact of_decide_eq_true (List.all_eq_true.mp marks c h)

theorem isPlain_of_isLabelChar {c : Char} (h : IsLabelChar c) : IsPlain c := by
  rcases h with (h | h | rfl) | rfl
  · exact isPlain_of_isLetter h
  · exact isPlain_of_isDigit h
  · exact ⟨by decide, rfl⟩
  · exact ⟨by decide, rfl⟩

theorem isPlain_of_mem_joined {runs : List (List Char)} (h : ∀ r ∈ runs, ∀ c ∈ r, IsPlain c) :
    ∀ c ∈ joined runs, IsPlain c := by
  have dot : IsPlain '.' := ⟨by decide, rfl⟩
  cases runs with
  | nil => simp [joined]
  | cons r runs =>
    obtain ⟨hr, others⟩ := List.forall_mem_cons.mp h
    rw [joined, Pattern.intercalate_cons]
    refine List.forall_mem_append.mpr ⟨hr, fun c hc => ?_⟩
    obtain ⟨_, ht, hc⟩ := List.mem_flatten.mp hc
    obtain ⟨q, hq, rfl⟩ := List.mem_map.mp ht
    exact List.forall_mem_cons.mpr ⟨dot, others q hq⟩ c hc

theorem IsLocalPart.isPlain {s : List Char} (h : IsLocalPart s) : ∀ c ∈ s, IsPlain c := by
  obtain ⟨runs, _, hruns, rfl⟩ := h
  exact isPlain_of_mem_joined fun r hr c hc => isPlain_of_isLocalChar ((hruns r hr).2 c hc)

theorem IsDottedQuad.isPlain {s : List Char} (h : IsDottedQuad s) : ∀ c ∈ s, IsPlain c := by
  obtain ⟨groups, _, digits, rfl⟩ := h
  exact isPlain_of_mem_joined fun g hg c hc => isPlain_of_isDigit ((digits g hg).2 c hc)

theorem isLetter_of_fold {c : Char} (h : IsLetter (fold c)) : IsLetter c := by
  rw [fold] at h
  split at h
  · rename_i longS
    exact .inr (.inr (.inl longS))
  · split at h
    · rename_i kelvin
      exact .inr (.inr (.inr kelvin))
    · by_cases upper : 'A' ≤ c ∧ c ≤ 'Z'
      · exact .inr (.inl upper)
      · have same : c.toLower = c := dif_neg upper
        rwa [same] at h

theorem IsTopLevelDomain.isPlain {s : List Char} (h : IsTopLevelDomain s) : ∀ c ∈ s, IsPlain c := by
  rcases h with ⟨_, letters⟩ | known
  · exact fun c hc => isPlain_of_isLetter (letters c hc)
  · intro c hc
    have folded : fold c ∈ (String.ofList (s.map fold)).toList := by
      rw [String.toList_ofList]
      exact List.mem_map_of_mem hc
    have lower := Format.isLower_of_mem_knownDomains known (fold c) folded
    exact isPlain_of_isLetter (isLetter_of_fold (.inl lower))

theorem IsHostName.isPlain {s : List Char} (h : IsHostName s) : ∀ c ∈ s, IsPlain c := by
  obtain ⟨_, middle, last, ⟨c, t, rfl, hc, ht⟩, hmiddle, hlast, rfl⟩ := h
  refine isPlain_of_mem_joined
    (List.forall_mem_cons.mpr ⟨List.forall_mem_cons.mpr ?_, List.forall_mem_append.mpr ?_⟩)
  · exact ⟨isPlain_of_isLabelChar (.inl hc), fun d hd => isPlain_of_isLabelChar (ht d hd)⟩
  · exact ⟨fun l hl d hd => isPlain_of_isLabelChar ((hmiddle l hl).2 d hd),
      List.forall_mem_singleton.mpr hlast.isPlain⟩

theorem IsPort.isPlain {s : List Char} (h : IsPort s) : ∀ c ∈ s, IsPlain c := by
  rcases h with rfl | ⟨t, rfl, _, digits⟩
  · exact List.forall_mem_nil _
  · exact List.forall_mem_cons.mpr ⟨⟨by decide, rfl⟩, fun c hc => isPlain_of_isDigit (digits c hc)⟩

end Address

/-- An address is plain on both sides of one `@`. -/
theorem IsAddress.exists_sides {s : List Char} (h : IsAddress s) :
    ∃ name rest, s = name ++ '@' :: rest ∧ (∀ c ∈ name, IsPlain c) ∧ ∀ c ∈ rest, IsPlain c := by
  obtain ⟨name, host, port, hname, hhost, hport, rfl⟩ := h
  exact ⟨name, host ++ port, rfl, hname.isPlain,
    List.forall_mem_append.mpr ⟨hhost.elim IsHostName.isPlain IsDottedQuad.isPlain, hport.isPlain⟩⟩

theorem IsAddress.count_at {s : List Char} (h : IsAddress s) : s.count '@' = 1 := by
  obtain ⟨name, rest, rfl, hname, hrest⟩ := h.exists_sides
  have before : '@' ∉ name := fun hat => (hname _ hat).1 rfl
  have after : '@' ∉ rest := fun hat => (hrest _ hat).1 rfl
  rw [List.count_append, List.count_cons_self, List.count_eq_zero.mpr before, List.count_eq_zero.mpr after]

theorem IsAddress.not_blank {s : List Char} (h : IsAddress s) : ∀ c ∈ s, Text.isBlank c = false := by
  obtain ⟨name, rest, rfl, hname, hrest⟩ := h.exists_sides
  exact List.forall_mem_append.mpr
    ⟨fun c hc => (hname c hc).2, List.forall_mem_cons.mpr ⟨rfl, fun c hc => (hrest c hc).2⟩⟩

/-! ## The validator -/

namespace Builtin

/-- **The validator of addresses accepts its grammar and nothing else.** An accepted text has one `@` and no blank, so
it does not end in a line feed. A number or boolean is judged by its text, and no other value is accepted. -/
theorem email_iff_isAddress (args : List (Argument Unit)) :
    (∀ s : String, email.holds (.string s) args = true ↔ IsAddress s.toList) ∧
    (∀ s : String, email.holds (.string s) args = true →
      s.toList.count '@' = 1 ∧ (∀ c ∈ s.toList, Text.isBlank c = false) ∧ s.toList.getLast? ≠ some '\n') ∧
    (∀ n : Number, email.holds (.number n) args = email.holds (.string n.text) args) ∧
    (∀ b : Bool, email.holds (.bool b) args = email.holds (.string (toString b)) args) ∧
    email.holds .null args = false ∧ (∀ items, email.holds (.array items) args = false) ∧
    ∀ members, email.holds (.object members) args = false := by
  have grammar : ∀ s : String, email.holds (.string s) args = true ↔ IsAddress s.toList := fun s =>
    (Pattern.accepts_iff Format.email s.toList).trans Format.matches_email
  refine ⟨grammar, fun s accepted => ?_, fun _ => rfl, fun _ => rfl, rfl, fun _ => rfl, fun _ => rfl⟩
  have address := (grammar s).mp accepted
  refine ⟨address.count_at, address.not_blank, fun ends => ?_⟩
  have blank := address.not_blank _ (List.mem_of_getLast? ends)
  exact absurd blank (by decide)

/-- An address with a quote, three labels, a domain in capitals and a port. -/
theorem email_holds_withPort :
    IsAddress "first.o\x27last@_mail.big-corp.COM:8080".toList ∧
      "first.o\x27last@_mail.big-corp.COM:8080".toList.count '@' = 1 := by
  have accepted : email.holds (.string "first.o\x27last@_mail.big-corp.COM:8080") [] = true := by decide +kernel
  obtain ⟨grammar, parts, _⟩ := email_iff_isAddress []
  exact ⟨(grammar _).mp accepted, (parts _ accepted).1⟩

end Builtin

end BodySpec
