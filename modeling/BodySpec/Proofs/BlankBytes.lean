import BodySpec.Proofs.FailClosed
import BodySpec.Proofs.TextBytes

/-!
# Blanks around a body

A guard takes five bytes for blank, and the reader of JSON four: the form feed is not among them. The four around a body
change nothing (`Guard.examine_between_blanks`), for the reader skips them in front of a text and finishes alike with
and without them behind it, whatever state it has reached (`Reader.finish?_step?_of_isBlank`). A form feed is refused in
every state (`Reader.step?_formFeed`), so a body with one is malformed, unless there are blanks only.
-/

namespace BodySpec

/-! ## The reader -/

namespace Reader

variable {limit : Nat} {c : Char} {cs : List Char}

theorem isBlank_cases (h : isBlank c = true) : c = ' ' ∨ c = '\t' ∨ c = '\n' ∨ c = '\r' := by
  simpa [isBlank, or_assoc] using h

theorem run?_cons (s : State) (c : Char) (cs : List Char) :
    run? limit s (c :: cs) = (step? limit s c).bind fun t => run? limit t cs := rfl

/-- Blanks in front of a text are skipped. -/
theorem run?_start_of_isBlank (h : ∀ c ∈ cs, isBlank c = true) : run? limit start cs = some start := by
  induction cs with
  | nil => rfl
  | cons c cs ih =>
    have skipped : step? limit start c = some start := if_pos (h c List.mem_cons_self)
    rw [run?_cons, skipped, Option.bind_some]
    exact ih fun d hd => h d (List.mem_cons_of_mem c hd)

/-- A string that is not closed is not closed by a blank. -/
theorem finish?_inText?_of_isBlank (frames : List Frame) (role : Role) (seen : List TextUnit) (escape : Escape)
    (h : isBlank c = true) : (inText? frames role seen escape c).bind State.finish? = none := by
  rcases isBlank_cases h with rfl | rfl | rfl | rfl <;> cases frames <;> cases escape <;> rfl

theorem finish?_step?_of_skipped {s : State} (h : step? limit s c = some s) :
    (step? limit s c).bind State.finish? = s.finish? := by
  rw [h, Option.bind_some]

/-- A blank behind a text changes nothing: the text is finished with it iff it is finished without. -/
theorem finish?_step?_of_isBlank (s : State) (h : isBlank c = true) :
    (step? limit s c).bind State.finish? = s.finish? := by
  obtain ⟨frames, phase⟩ := s
  cases phase with
  | value => exact finish?_step?_of_skipped (if_pos h)
  | item => exact finish?_step?_of_skipped (if_pos h)
  | key done closable => exact finish?_step?_of_skipped (if_pos h)
  | colon done key => exact finish?_step?_of_skipped (if_pos h)
  | bare seen =>
    -- the blank ends the name or numeral, which the end of the text does as well
    have ends : isBare c = false := by rcases isBlank_cases h with rfl | rfl | rfl | rfl <;> rfl
    have complete : step? limit ⟨frames, .bare seen⟩ c =
        (Written.ofBare? seen.reverse).bind fun v => some ⟨frames, .after v⟩ := by
      have skipped : ∀ v, after? frames v c = some ⟨frames, .after v⟩ := fun v => if_pos h
      simp only [step?, ends, Bool.false_eq_true, if_false, skipped]
      rfl
    rw [complete]
    cases frames with
    | nil =>
      show _ = Written.ofBare? seen.reverse
      cases Written.ofBare? seen.reverse <;> rfl
    | cons frame frames =>
      show _ = none
      cases Written.ofBare? seen.reverse <;> rfl
  | text role seen escape =>
    have unfinished : State.finish? ⟨frames, .text role seen escape⟩ = none := by cases frames <;> rfl
    rw [unfinished]
    exact finish?_inText?_of_isBlank frames role seen escape h
  | after v => exact finish?_step?_of_skipped (if_pos h)

theorem finish?_run?_of_isBlank (s : State) (h : ∀ c ∈ cs, isBlank c = true) :
    (run? limit s cs).bind State.finish? = s.finish? := by
  induction cs generalizing s with
  | nil => rfl
  | cons c cs ih =>
    have others : ∀ t, (run? limit t cs).bind State.finish? = t.finish? := fun t =>
      ih t fun d hd => h d (List.mem_cons_of_mem c hd)
    rw [run?_cons, Option.bind_assoc]
    simp only [others]
    exact finish?_step?_of_isBlank s (h c List.mem_cons_self)

theorem after?_formFeed (frames : List Frame) (v : Written) : after? frames v '\x0c' = none := by
  cases frames with
  | nil => rfl
  | cons frame outer => cases frame <;> rfl

/-- A form feed is refused, whatever state the reader has reached. -/
theorem step?_formFeed (limit : Nat) (s : State) : step? limit s '\x0c' = none := by
  obtain ⟨frames, phase⟩ := s
  cases phase with
  | value => rfl
  | item => rfl
  | key done closable => rfl
  | colon done key => rfl
  | bare seen =>
    show (Written.ofBare? seen.reverse).bind (fun v => after? frames v '\x0c') = none
    simp only [after?_formFeed]
    exact Option.bind_fun_none _
  | text role seen escape => cases escape <;> rfl
  | after v => exact after?_formFeed frames v

theorem run?_of_formFeed_mem (s : State) (h : '\x0c' ∈ cs) : run? limit s cs = none := by
  obtain ⟨front, rest, rfl⟩ := List.append_of_mem h
  rw [run?_append]
  cases run? limit s front with
  | none => rfl
  | some t => rw [Option.bind_some, run?_cons, step?_formFeed, Option.bind_none]

end Reader

/-- Blanks around a text are not part of it. -/
theorem Written.read?_between {limit : Nat} {before after : List Char} (hb : ∀ c ∈ before, Reader.isBlank c = true)
    (ha : ∀ c ∈ after, Reader.isBlank c = true) (cs : List Char) :
    read? limit (before ++ cs ++ after) = read? limit cs := by
  rw [read?, read?, Reader.run?_append, Reader.run?_append, Reader.run?_start_of_isBlank hb, Option.bind_some,
    Option.bind_assoc]
  simp only [Reader.finish?_run?_of_isBlank _ ha]

theorem Written.read?_of_formFeed_mem {limit : Nat} {cs : List Char} (h : '\x0c' ∈ cs) : read? limit cs = none := by
  rw [read?, Reader.run?_of_formFeed_mem _ h, Option.bind_none]

/-! ## Bodies -/

theorem Json.ofBytes?_between (before after : String) (b : ByteArray) :
    ofBytes? (before.toUTF8 ++ b ++ after.toUTF8) =
      (String.fromUTF8? b).bind fun s => read? maxDepth (before ++ s ++ after) := by
  rw [ofBytes?, Text.fromUTF8?_between, Option.bind_map]
  rfl

namespace Guard

/-- A body that is nothing but bytes that a guard takes for blank. -/
def IsBlank (body : ByteArray) : Prop := ∀ x ∈ body.data.toList, isBlankByte x = true

instance (body : ByteArray) : Decidable (IsBlank body) :=
  decidable_of_iff (body.data.toList.all isBlankByte = true) List.all_eq_true

def HasFormFeed (body : ByteArray) : Prop := 0x0C ∈ body.data.toList

instance (body : ByteArray) : Decidable (HasFormFeed body) := inferInstanceAs (Decidable (0x0C ∈ body.data.toList))

/-- The blanks of the guard are those of the reader and the form feed. -/
theorem isBlankByte_cases {x : UInt8} (h : isBlankByte x = true) :
    x = 0x0C ∨ Reader.isBlank (Char.ofNat x.toNat) = true := by
  simp only [isBlankByte, Bool.or_eq_true, beq_iff_eq] at h
  rcases h with (((rfl | rfl) | rfl) | rfl) | rfl
  · exact .inr rfl
  · exact .inr rfl
  · exact .inr rfl
  · exact .inl rfl
  · exact .inr rfl

theorem toNat_lt_of_isBlankByte {x : UInt8} (h : isBlankByte x = true) : x.toNat < 128 := by
  simp only [isBlankByte, Bool.or_eq_true, beq_iff_eq] at h
  rcases h with (((rfl | rfl) | rfl) | rfl) | rfl <;> decide

variable {p q : ByteArray}

/-- Blanks spell a text, which the reader skips if there is no form feed in it. -/
theorem IsBlank.exists_text (h : IsBlank p) : ∃ text : String, text.toUTF8 = p ∧
    (HasFormFeed p → '\x0c' ∈ text.toList) ∧
      (¬ HasFormFeed p → ∀ c ∈ text.toList, Reader.isBlank c = true) := by
  have small : ∀ x ∈ p.data.toList, x.toNat < 128 := fun x hx => toNat_lt_of_isBlankByte (h x hx)
  refine ⟨String.ofList (p.data.toList.map fun x => Char.ofNat x.toNat), ?_, fun feed => ?_, fun none c hc => ?_⟩
  · rw [Text.toUTF8_ofList_of_lt small]
    exact ByteArray.ext (by simp)
  · rw [String.toList_ofList]
    exact List.mem_map.mpr ⟨0x0C, feed, rfl⟩
  · rw [String.toList_ofList] at hc
    obtain ⟨x, hx, rfl⟩ := List.mem_map.mp hc
    refine (isBlankByte_cases (h x hx)).resolve_left ?_
    rintro rfl
    exact none hx

theorem isBlank_between (hp : IsBlank p) (hq : IsBlank q) (b : ByteArray) : IsBlank (p ++ b ++ q) ↔ IsBlank b := by
  simp only [IsBlank, ByteArray.data_append, Array.toList_append, List.mem_append]
  constructor
  · exact fun h x hx => h x (.inl (.inr hx))
  · rintro h x ((hx | hx) | hx)
    · exact hp x hx
    · exact h x hx
    · exact hq x hx

theorem decode?_of_isBlank {body : ByteArray} (h : IsBlank body) : decode? body = some (.object []) :=
  if_pos (Array.all_eq_true_iff_forall_mem.mpr fun x hx => h x (Array.mem_toList_iff.mpr hx))

theorem decode?_of_not_isBlank {body : ByteArray} (h : ¬ IsBlank body) : decode? body = Json.ofBytes? body :=
  if_neg fun all => h fun x hx => Array.all_eq_true_iff_forall_mem.mp all x (Array.mem_toList_iff.mp hx)

/-- Blanks without a form feed do not change the value of a body, and no blanks change that of a blank one. -/
theorem decode?_between (hp : IsBlank p) (hq : IsBlank q) {b : ByteArray}
    (h : IsBlank b ∨ ¬ HasFormFeed p ∧ ¬ HasFormFeed q) : decode? (p ++ b ++ q) = decode? b := by
  by_cases hb : IsBlank b
  · rw [decode?_of_isBlank hb, decode?_of_isBlank ((isBlank_between hp hq b).mpr hb)]
  · obtain ⟨pf, qf⟩ := h.resolve_left hb
    rw [decode?_of_not_isBlank hb, decode?_of_not_isBlank (mt (isBlank_between hp hq b).mp hb)]
    obtain ⟨before, rfl, _, skipped⟩ := hp.exists_text
    obtain ⟨after, rfl, _, skipped'⟩ := hq.exists_text
    rw [Json.ofBytes?_between, Json.ofBytes?]
    congr 1
    funext s
    rw [Json.read?, Json.read?, String.toList_append, String.toList_append,
      Written.read?_between (skipped pf) (skipped' qf)]

/-- With a form feed around it, a body that is not blank has no value. -/
theorem decode?_between_of_hasFormFeed (hp : IsBlank p) (hq : IsBlank q) {b : ByteArray} (hb : ¬ IsBlank b)
    (feed : HasFormFeed p ∨ HasFormFeed q) : decode? (p ++ b ++ q) = none := by
  rw [decode?_of_not_isBlank (mt (isBlank_between hp hq b).mp hb)]
  obtain ⟨before, rfl, spelled, _⟩ := hp.exists_text
  obtain ⟨after, rfl, spelled', _⟩ := hq.exists_text
  rw [Json.ofBytes?_between]
  refine Option.bind_eq_none_iff.mpr fun s _ => ?_
  have mem : '\x0c' ∈ (before ++ s ++ after).toList := by
    rw [String.toList_append, String.toList_append]
    rcases feed with feed | feed
    · exact List.mem_append_left _ (List.mem_append_left _ (spelled feed))
    · exact List.mem_append_right _ (spelled' feed)
  rw [Json.read?, Written.read?_of_formFeed_mem mem, Option.bind_none]

/-- The check of a body, of which only the code is known if it is refused. What the reader says of a body that is no
JSON, such as where in it, is left out. -/
def verdict (g : Guard) (body : ByteArray) : Run (Except String Unit) :=
  g.examine body >>= fun outcome => pure (outcome.mapError Refusal.code)

/-- A body with a value is checked as any other with the same value. -/
theorem examine_congr {g : Guard} {body body' : ByteArray} {v : Json} (h : decode? body = some v)
    (h' : decode? body' = some v) : g.examine body = g.examine body' := by
  rw [examine_of_decode h, examine_of_decode h']

/-- The code of the check rests on the value of a body alone, also where there is none. -/
theorem verdict_congr {g : Guard} {body body' : ByteArray} (h : decode? body = decode? body') :
    g.verdict body = g.verdict body' := by
  cases hv : decode? body' with
  | none =>
    rw [verdict, verdict, examine_of_malformed (h.trans hv), examine_of_malformed hv]
    rfl
  | some v => rw [verdict, verdict, examine_congr (h.trans hv) hv]

/-- **Blanks around a body change nothing, but for form feeds.** With spaces, tabs, line feeds and carriage returns
around it, a body has the same outcome after the same calls and notices, and so has a blank body with form feeds, too;
only what the reader says of a body that is no JSON may differ. A form feed in front of or behind any other body makes
it malformed, and nobody is told or called. -/
theorem examine_between_blanks (g : Guard) (hp : IsBlank p) (hq : IsBlank q) (b : ByteArray) :
    (IsBlank b ∨ ¬ HasFormFeed p ∧ ¬ HasFormFeed q →
      g.verdict (p ++ b ++ q) = g.verdict b ∧
      (decode? b ≠ none → g.examine (p ++ b ++ q) = g.examine b)) ∧
    (¬ IsBlank b → HasFormFeed p ∨ HasFormFeed q →
      g.examine (p ++ b ++ q) = pure (.error (.malformed (g.complaint (p ++ b ++ q))))) := by
  constructor
  · intro h
    have same := decode?_between hp hq h
    refine ⟨verdict_congr same, fun decoded => ?_⟩
    obtain ⟨v, hv⟩ := Option.ne_none_iff_exists'.mp decoded
    exact examine_congr (same.trans hv) hv
  · exact fun hb feed => examine_of_malformed (decode?_between_of_hasFormFeed hp hq hb feed)

/-- A query that may be absent. -/
def optionalQuery : Specification := .ofFields [("q", .ofTokens [.name "string", .name "optional"])]

/-- A query that is a number, and so refused. -/
def numericQuery : ByteArray := "\x7b\"q\":1\x7d".toUTF8

def formFeed : ByteArray := ⟨#[0x0C]⟩

/-- A guard of which the reader always says the same. -/
def saying (complaint : String) (V : Validator) : Guard := { validator := V, complaint := fun _ => complaint }

/-- A query is refused alike between blanks, and malformed before a form feed. -/
theorem examine_numericQuery :
    ∃ V, optionalQuery.compile { observer := some .log } = .ok V ∧ IsBlank ⟨#[0x20, 0x09]⟩ ∧
      IsBlank ⟨#[0x0D, 0x0A]⟩ ∧ IsBlank formFeed ∧ ¬ IsBlank numericQuery ∧ HasFormFeed formFeed ∧
      (examine (saying "trailing characters at line 1 column 10" V)
        (⟨#[0x20, 0x09]⟩ ++ numericQuery ++ ⟨#[0x0D, 0x0A]⟩)).noticesFor .log =
          [.stepFailed "q" "string" [] (.number (.int 1))] ∧
      (examine (saying "trailing characters at line 1 column 10" V)
        (⟨#[0x20, 0x09]⟩ ++ numericQuery ++ formFeed)).result =
          .error (.malformed "trailing characters at line 1 column 10") := by
  have compiled : optionalQuery.compile { observer := some .log } = .ok _ := rfl
  have front : IsBlank ⟨#[0x20, 0x09]⟩ := by decide
  have back : IsBlank ⟨#[0x0D, 0x0A]⟩ := by decide
  have feed : IsBlank formFeed := by decide
  have written : ¬ IsBlank numericQuery := by decide
  have has : HasFormFeed formFeed := by decide
  refine ⟨_, compiled, front, back, feed, written, has, ?_, ?_⟩
  · have clean : ¬ HasFormFeed ⟨#[0x20, 0x09]⟩ ∧ ¬ HasFormFeed ⟨#[0x0D, 0x0A]⟩ := by decide
    have value : decode? numericQuery = some (.object [("q", .number (.int 1))]) := by
      rw [decode?_of_not_isBlank written, Json.ofBytes?, numericQuery, Text.fromUTF8?_toUTF8]
      rfl
    have decoded : decode? numericQuery ≠ none := by
      rw [value]
      exact Option.some_ne_none _
    rw [((examine_between_blanks _ front back numericQuery).1 (.inr clean)).2 decoded, examine_of_decode value]
    rfl
  · rw [(examine_between_blanks _ front feed numericQuery).2 written (.inr has)]
    rfl

/-- A form feed is an empty body, but in front of the empty object it makes the body malformed. -/
theorem examine_formFeed_before_object :
    ∃ V, optionalQuery.compile {} = .ok V ∧ IsBlank formFeed ∧ IsBlank .empty ∧
      (examine (saying "expected value at line 1 column 1" V) formFeed).result = .ok () ∧
      (examine (saying "expected value at line 1 column 1" V) "\x7b\x7d".toUTF8).result = .ok () ∧
      (verdict (saying "expected value at line 1 column 1" V) (formFeed ++ "\x7b\x7d".toUTF8 ++ .empty)).result =
        .error "INVALID_JSON" := by
  have compiled : optionalQuery.compile {} = .ok _ := rfl
  have feed : IsBlank formFeed := by decide
  have none : IsBlank .empty := by decide
  have written : ¬ IsBlank "\x7b\x7d".toUTF8 := by decide
  refine ⟨_, compiled, feed, none, ?_, ?_, ?_⟩
  · rw [examine_of_decode (decode?_of_isBlank feed)]
    rfl
  · have value : decode? "\x7b\x7d".toUTF8 = some (.object []) := by
      rw [decode?_of_not_isBlank written, Json.ofBytes?, Text.fromUTF8?_toUTF8]
      rfl
    rw [examine_of_decode value]
    rfl
  · have has : HasFormFeed formFeed := by decide
    rw [verdict, examine_of_malformed (decode?_between_of_hasFormFeed feed none written (.inl has))]
    rfl

end Guard

end BodySpec
