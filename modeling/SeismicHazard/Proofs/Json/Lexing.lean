import SeismicHazard.Json.Token
import SeismicHazard.Json.Writer
import SeismicHazard.Proofs.Json.Numerals
/-!
# Lexing — how a text falls into pieces

The cut of a text skips blanks, takes marks one by one (`cut_mark`), takes a word up to the next character that stops it
(`cut_word`) and a literal up to its closing quote, which no escape contains (`cut_literal`).  What is in the pieces is
what they spell: a literal is decoded to its text (`units?_of_spells`) and a number to its numeral
(`token?_of_spellsNumber`).
-/
namespace SeismicHazard
namespace Json

variable {out : List Piece} {cs : List Char}

/-! ## Blanks, marks and words -/

def Plain (c : Char) : Prop := isBlank c = false ∧ c ≠ '"' ∧ isMark c = false

instance (c : Char) : Decidable (Plain c) := inferInstanceAs (Decidable (isBlank c = false ∧ c ≠ '"' ∧ isMark c = false))

theorem plain_of_all {w : List Char} (h : w.all (fun c => decide (Plain c)) = true) : ∀ c ∈ w, Plain c :=
  fun c hc => of_decide_eq_true (List.all_eq_true.1 h c hc)

def Stops (cs : List Char) : Prop := ∀ c ∈ cs.head?, ¬Plain c

theorem stops_nil : Stops [] := fun _ h => by cases h

theorem stops_cons {c : Char} (h : ¬Plain c) (cs : List Char) : Stops (c :: cs) := by
  rintro _ ⟨⟩
  exact h

theorem cut_blanks : ∀ {bs : List Char}, (∀ c ∈ bs, isBlank c = true) → cut .gap out (bs ++ cs) = cut .gap out cs
  | [], _ => rfl
  | b :: bs, h => by
    rw [List.cons_append, cut, if_pos (h b (List.mem_cons_self ..))]
    exact cut_blanks fun c hc => h c (List.mem_cons_of_mem b hc)

theorem cut_mark {c : Char} (h : isMark c = true) : cut .gap out (c :: cs) = cut .gap (.mark c :: out) cs := by
  have hblank : isBlank c = false ∧ c ≠ '"' := by
    simp only [isMark, Bool.or_eq_true, decide_eq_true_iff] at h
    rcases h with ((((rfl | rfl) | rfl) | rfl) | rfl) | rfl <;> decide
  rw [cut, if_neg (by simp [hblank.1]), if_neg hblank.2, if_pos h]

theorem cut_word_run : ∀ {w seen : List Char}, (∀ c ∈ w, Plain c) →
    cut (.word seen) out (w ++ cs) = cut (.word (w.reverse ++ seen)) out cs
  | [], _, _ => rfl
  | c :: w, seen, h => by
    obtain ⟨hblank, hquote, hmark⟩ := h c (List.mem_cons_self ..)
    rw [List.cons_append, cut, if_neg (by simp [hblank]), if_neg hquote, if_neg (by simp [hmark]),
      cut_word_run fun c' hc' => h c' (List.mem_cons_of_mem c hc'), List.reverse_cons, List.append_assoc]
    rfl

theorem cut_word_stop {seen : List Char} (h : Stops cs) :
    cut (.word seen) out cs = cut .gap (.word seen.reverse :: out) cs := by
  cases cs with
  | nil => rfl
  | cons c cs =>
    have hc := h c rfl
    unfold cut
    by_cases hblank : isBlank c = true
    · rw [if_pos hblank, if_pos hblank]
    · by_cases hquote : c = '"'
      · rw [if_neg hblank, if_neg hblank, if_pos hquote, if_pos hquote]
      · by_cases hmark : isMark c = true
        · rw [if_neg hblank, if_neg hblank, if_neg hquote, if_neg hquote, if_pos hmark, if_pos hmark]
        · exact absurd ⟨by simpa using hblank, hquote, by simpa using hmark⟩ hc

theorem cut_word {w : List Char} (hne : w ≠ []) (hplain : ∀ c ∈ w, Plain c) (hstop : Stops cs) :
    cut .gap out (w ++ cs) = cut .gap (.word w :: out) cs := by
  cases w with
  | nil => exact absurd rfl hne
  | cons c w =>
    obtain ⟨hblank, hquote, hmark⟩ := hplain c (List.mem_cons_self ..)
    rw [List.cons_append, cut, if_neg (by simp [hblank]), if_neg hquote, if_neg (by simp [hmark]),
      cut_word_run fun c' hc' => hplain c' (List.mem_cons_of_mem c hc'), cut_word_stop hstop]
    simp

/-! ## Literals -/

/-- The characters spell the code units: a character stands for itself or is escaped, by a letter or by four hexadecimal
digits. -/
inductive SpellsUnits : List Nat → List Char → Prop where
  | nil : SpellsUnits [] []
  | itself {c : Char} {us : List Nat} {w : List Char} (hquote : c ≠ '"') (hslash : c ≠ '\\') (hcontrol : 0x20 ≤ c.toNat)
    (h : SpellsUnits us w) : SpellsUnits (c.toNat :: us) (c :: w)
  | short {e : Char} {n : Nat} {us : List Nat} {w : List Char} (he : shortEscape? e = some n) (h : SpellsUnits us w) :
    SpellsUnits (n :: us) ('\\' :: e :: w)
  | unicode {a b c d : Char} {n : Nat} {us : List Nat} {w : List Char} (hx : hex4? a b c d = some n)
    (h : SpellsUnits us w) : SpellsUnits (n :: us) ('\\' :: 'u' :: a :: b :: c :: d :: w)

/-- **The characters spell the literal**; one in which half of a surrogate pair stands alone has no text. -/
inductive SpellsLiteral : Option String → List Char → Prop where
  | quoted {us : List Nat} {w : List Char} (h : SpellsUnits us w) :
    SpellsLiteral ((joinUnits us).map String.ofList) ('"' :: (w ++ ['"']))

theorem hexValue?_ne {c : Char} {n : Nat} (h : hexValue? c = some n) : c ≠ '"' ∧ c ≠ '\\' := by
  constructor
  all_goals
    rintro rfl
    revert h
    exact nofun

theorem hex4?_ne {a b c d : Char} {n : Nat} (h : hex4? a b c d = some n) :
    (a ≠ '"' ∧ a ≠ '\\') ∧ (b ≠ '"' ∧ b ≠ '\\') ∧ (c ≠ '"' ∧ c ≠ '\\') ∧ (d ≠ '"' ∧ d ≠ '\\') := by
  simp only [hex4?, Option.bind_eq_bind, Option.bind_eq_some_iff] at h
  obtain ⟨_, ha, _, hb, _, hc, _, hd, -⟩ := h
  exact ⟨hexValue?_ne ha, hexValue?_ne hb, hexValue?_ne hc, hexValue?_ne hd⟩

theorem cut_quote : cut .gap out ('"' :: cs) = cut (.literal [] false) out cs := by
  rw [cut, if_neg (by decide), if_pos rfl]

theorem cut_close {seen : List Char} :
    cut (.literal seen false) out ('"' :: cs) = cut .gap (.literal seen.reverse :: out) cs := by
  rw [cut, if_pos rfl]

theorem cut_units {us : List Nat} {w seen : List Char} (h : SpellsUnits us w) :
    cut (.literal seen false) out (w ++ cs) = cut (.literal (w.reverse ++ seen) false) out cs := by
  induction h generalizing seen with
  | nil => rfl
  | itself hquote hslash _ _ ih => simp [cut, hquote, hslash, ih]
  | short _ _ ih => simp [cut, ih]
  | unicode hx _ ih =>
    obtain ⟨ha, hb, hc, hd⟩ := hex4?_ne hx
    simp [cut, ha, hb, hc, hd, ih]

theorem cut_literal {us : List Nat} {w : List Char} (h : SpellsUnits us w) :
    cut .gap out ('"' :: (w ++ ['"']) ++ cs) = cut .gap (.literal w :: out) cs := by
  rw [List.cons_append, List.append_assoc, List.singleton_append, cut_quote, cut_units h, cut_close, List.append_nil,
    List.reverse_reverse]

theorem units?_of_spells {us : List Nat} {w : List Char} (h : SpellsUnits us w) : units? w = some us := by
  induction h with
  | nil => rfl
  | @itself c _ w _ hslash hcontrol _ ih =>
    rw [units?.eq_4 c w (fun _ _ _ _ _ h _ => hslash h) fun _ _ h _ => hslash h,
      if_neg (by simpa [hslash] using hcontrol), ih]
    rfl
  | @short e n _ w he _ ih =>
    have hu : e ≠ 'u' := by
      rintro rfl
      cases he
    rw [units?.eq_3 e w fun _ _ _ _ _ h _ => hu h, he, ih]
    rfl
  | unicode hx _ ih =>
    rw [units?.eq_2, hx, ih]
    rfl

theorem token?_of_spellsUnits {us : List Nat} {w : List Char} (h : SpellsUnits us w) :
    token? (.literal w) = some (.string ((joinUnits us).map String.ofList)) := by
  rw [token?, units?_of_spells h]
  rfl

/-! ## Written literals -/

theorem hexChars_spec : ∀ n < 0x20, hex4? '0' '0' (hexChar (n / 16)) (hexChar (n % 16)) = some n := by decide

theorem spellsUnits_escape (c : Char) {us : List Nat} {w : List Char} (h : SpellsUnits us w) :
    SpellsUnits (c.toNat :: us) (escape c ++ w) := by
  unfold escape
  split
  iterate 7 exact .short rfl h
  split
  · rename_i hcontrol
    exact .unicode (hexChars_spec c.toNat hcontrol) h
  · rename_i hquote hslash _ _ _ _ _ hcontrol
    exact .itself hquote hslash (Nat.not_lt.1 hcontrol) h

theorem spellsUnits_escapes : ∀ l : List Char, SpellsUnits (l.map Char.toNat) (l.flatMap escape)
  | [] => .nil
  | c :: l => spellsUnits_escape c (spellsUnits_escapes l)

theorem not_surrogate (c : Char) : isLead c.toNat = false ∧ isTrail c.toNat = false := by
  have hvalid : c.toNat < 0xd800 ∨ 0xdfff < c.toNat ∧ c.toNat < 0x110000 := c.valid
  simp only [isLead, isTrail, Bool.and_eq_false_iff, decide_eq_false_iff_not]
  omega

theorem joinUnits_map : ∀ l : List Char, joinUnits (l.map Char.toNat) = some l
  | [] => rfl
  | [c] => by
    obtain ⟨hlead, htrail⟩ := not_surrogate c
    simp [joinUnits, hlead, htrail]
  | c :: d :: l => by
    obtain ⟨hlead, htrail⟩ := not_surrogate c
    have ih := joinUnits_map (d :: l)
    rw [List.map_cons] at ih
    simp [joinUnits, hlead, htrail, ih]

theorem spellsLiteral_literalChars : ∀ s : Option String, SpellsLiteral s (literalChars s)
  | some s => by
    have hspells := SpellsLiteral.quoted (spellsUnits_escapes s.toList)
    rw [joinUnits_map, Option.map_some, String.ofList_toList] at hspells
    exact hspells
  | none => .quoted (.unicode (a := 'd') (b := '8') (c := '0') (d := '0') rfl .nil)

/-! ## Numbers -/

theorem plain_of_isDigit {c : Char} (h : c.isDigit = true) : Plain c := by
  refine ⟨?_, ?_, ?_⟩
  · simp only [isBlank, Bool.or_eq_false_iff, decide_eq_false_iff_not]
    refine ⟨⟨⟨?_, ?_⟩, ?_⟩, ?_⟩ <;> rintro rfl <;> cases h
  · rintro rfl
    cases h
  · simp only [isMark, Bool.or_eq_false_iff, decide_eq_false_iff_not]
    refine ⟨⟨⟨⟨⟨?_, ?_⟩, ?_⟩, ?_⟩, ?_⟩, ?_⟩ <;> rintro rfl <;> cases h

theorem Digits.plain_of_mem {w : List Char} (h : Digits w) : ∀ c ∈ w, Plain c := fun c hc => plain_of_isDigit (h.digit c hc)

theorem SpellsFraction.plain_of_mem {fs : List Nat} {w : List Char} (h : SpellsFraction fs w) : ∀ c ∈ w, Plain c := by
  cases h with
  | absent => exact fun c hc => absurd hc List.not_mem_nil
  | digits h => exact List.forall_mem_cons.2 ⟨by decide, h.plain_of_mem⟩

theorem SpellsExponent.plain_of_mem {e : Option Int} {w : List Char} (h : SpellsExponent e w) : ∀ c ∈ w, Plain c := by
  have hletter : ∀ {e : Char}, e = 'e' ∨ e = 'E' → Plain e := by
    rintro _ (rfl | rfl) <;> decide
  cases h with
  | absent => exact fun c hc => absurd hc List.not_mem_nil
  | plain he h => exact List.forall_mem_cons.2 ⟨hletter he, h.plain_of_mem⟩
  | plus he h => exact List.forall_mem_cons.2 ⟨hletter he, List.forall_mem_cons.2 ⟨by decide, h.plain_of_mem⟩⟩
  | minus he h => exact List.forall_mem_cons.2 ⟨hletter he, List.forall_mem_cons.2 ⟨by decide, h.plain_of_mem⟩⟩

theorem SpellsNumber.plain_of_mem {x : Numeral} {w : List Char} (h : SpellsNumber x w) : ∀ c ∈ w, Plain c := by
  obtain ⟨negative, hwhole, -, hfraction, hexponent⟩ := h
  refine List.forall_mem_append.2 ⟨?_, List.forall_mem_append.2 ⟨hwhole.plain_of_mem,
    List.forall_mem_append.2 ⟨hfraction.plain_of_mem, hexponent.plain_of_mem⟩⟩⟩
  cases negative with
  | false => exact fun c hc => absurd hc List.not_mem_nil
  | true => exact List.forall_mem_singleton.2 (by decide)

theorem SpellsNumber.ne_nil {x : Numeral} {w : List Char} (h : SpellsNumber x w) : w ≠ [] := by
  obtain ⟨negative, hwhole, -, -, -⟩ := h
  simp [hwhole.nonempty]

/-- **A number means its numeral**: it is none of the three names, since no name is a number. -/
theorem token?_of_spellsNumber {x : Numeral} {w : List Char} (h : SpellsNumber x w) :
    token? (.word w) = some (.scalar (.number x)) := by
  have hread := numeral?_of_spells h
  have hname : ∀ name, numeral? name = none → w ≠ name := by
    rintro _ hnone rfl
    rw [hread] at hnone
    cases hnone
  rw [token?, wordToken?, if_neg (hname _ (by decide)), if_neg (hname _ (by decide)), if_neg (hname _ (by decide)), hread]
  rfl

end Json
end SeismicHazard
