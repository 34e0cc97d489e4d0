import SeismicHazard.Json.Token
import Mathlib.Data.List.Basic
/-!
# Numerals — the texts of a number

`SpellsNumber` says which texts a number has: digits that do not start with a zero unless it stands alone, a point with
digits, an exponent with or without its sign.  A number is read from left to right, and each of its parts ends where a
character comes that cannot belong to it, so every text of a number is read part by part (`numeral?_of_spells`).  The
text that is written is one of them (`spellsNumber_chars`): the digits of a natural number give the number back
(`ofDigits_natChars`).
-/
namespace SeismicHazard
namespace Json

open Numeral

/-! ## Digits -/

theorem isDigit_of_mem_natChars {n : Nat} {c : Char} (h : c ∈ natChars n) : c.isDigit = true :=
  Nat.isDigit_of_mem_toDigits (by decide) (by decide) h

theorem digitChar_spec : ∀ d < 10, (digitChar d).isDigit = true ∧ (digitChar d).toNat - 48 = d := by decide

theorem ofDigits_natChars (n : Nat) : ofDigits ((natChars n).map (fun c => c.toNat - 48)) = n := by
  have hstep : ∀ (cs : List Char) (s : Nat), (cs.map (fun c => c.toNat - 48)).foldl (fun n d => n * 10 + d) s =
      Nat.ofDigitChars 10 cs s := by
    intro cs s
    rw [Nat.ofDigitChars_eq_foldl, List.foldl_map]
    simp only [Nat.mul_comm]
    rfl
  rw [ofDigits, hstep]
  exact Nat.ofDigitChars_ten_toDigits

theorem natChars_ne_zero_cons (n : Nat) (hn : 0 < n) (cs : List Char) : natChars n ≠ '0' :: cs := by
  intro h
  by_cases hlt : n < 10
  · have hall : ∀ n < 10, 0 < n → Nat.digitChar n ≠ '0' := by decide
    rw [natChars, Nat.toDigits_of_lt_base hlt] at h
    exact hall n hlt hn (List.cons.inj h).1
  · have hsplit := Nat.toDigits_of_base_le (b := 10) (n := n) (by decide) (by omega)
    rw [natChars, hsplit] at h
    cases hfirst : Nat.toDigits 10 (n / 10) with
    | nil => exact Nat.toDigits_ne_nil hfirst
    | cons c ds =>
      rw [hfirst, List.cons_append] at h
      obtain ⟨rfl, -⟩ := List.cons.inj h
      exact natChars_ne_zero_cons (n / 10) (by omega) ds hfirst
termination_by n

theorem eq_zero_of_isDigit {c : Char} (h : c.isDigit = true) (hzero : c.toNat - 48 = 0) : c = '0' := by
  have hbound : 48 ≤ c.toNat := by
    rw [Char.isDigit, Bool.and_eq_true, decide_eq_true_iff] at h
    exact h.1
  exact Char.toNat_inj.1 (Nat.le_antisymm (Nat.sub_eq_zero_iff_le.1 hzero) hbound)

theorem natChars_zero_cons {n : Nat} (cs : List Char) (h : natChars n = '0' :: cs) : cs = [] := by
  rcases Nat.eq_zero_or_pos n with rfl | hn
  · cases h
    rfl
  · exact absurd h (natChars_ne_zero_cons n hn cs)

def NoDigit (cs : List Char) : Prop := ∀ c ∈ cs.head?, c.isDigit = false

theorem digitsOf_append {ds rest : List Char} (hds : ∀ c ∈ ds, c.isDigit = true) (hrest : NoDigit rest) :
    digitsOf (ds ++ rest) = (ds.map (fun c => c.toNat - 48), rest) := by
  have hstop : rest.takeWhile Char.isDigit = [] ∧ rest.dropWhile Char.isDigit = rest := by
    cases rest with
    | nil => exact ⟨rfl, rfl⟩
    | cons c rest =>
      have hc := hrest c rfl
      simp [hc]
  rw [digitsOf, List.takeWhile_append_of_pos hds, List.dropWhile_append_of_pos hds, hstop.1, hstop.2, List.append_nil]

theorem noDigit_nil : NoDigit [] := fun _ h => by cases h

theorem noDigit_cons {c : Char} (h : c.isDigit = false) (cs : List Char) : NoDigit (c :: cs) := by
  rintro _ ⟨⟩
  exact h

/-! ## The texts of a number -/

structure Digits (cs : List Char) : Prop where
  digit : ∀ c ∈ cs, c.isDigit = true
  nonempty : cs ≠ []

def digitValues (cs : List Char) : List Nat := cs.map fun c => c.toNat - 48

inductive SpellsFraction : List Nat → List Char → Prop where
  | absent : SpellsFraction [] []
  | digits {cs : List Char} (h : Digits cs) : SpellsFraction (digitValues cs) ('.' :: cs)

inductive SpellsExponent : Option Int → List Char → Prop where
  | absent : SpellsExponent none []
  | plain {e : Char} {cs : List Char} (he : e = 'e' ∨ e = 'E') (h : Digits cs) :
    SpellsExponent (some (ofDigits (digitValues cs))) (e :: cs)
  | plus {e : Char} {cs : List Char} (he : e = 'e' ∨ e = 'E') (h : Digits cs) :
    SpellsExponent (some (ofDigits (digitValues cs))) (e :: '+' :: cs)
  | minus {e : Char} {cs : List Char} (he : e = 'e' ∨ e = 'E') (h : Digits cs) :
    SpellsExponent (some (-(ofDigits (digitValues cs) : Int))) (e :: '-' :: cs)

inductive SpellsNumber : Numeral → List Char → Prop where
  | parts {whole fraction exponent : List Char} {fs : List Nat} {e : Option Int} (negative : Bool) (hwhole : Digits whole)
    (hzero : ∀ cs, whole = '0' :: cs → cs = []) (hfraction : SpellsFraction fs fraction)
    (hexponent : SpellsExponent e exponent) :
    SpellsNumber ⟨negative, ofDigits (digitValues whole), fs, e⟩
      ((if negative then ['-'] else []) ++ (whole ++ (fraction ++ exponent)))

theorem Digits.eq_cons {cs : List Char} (h : Digits cs) : ∃ c ds, cs = c :: ds ∧ c.isDigit = true := by
  cases cs with
  | nil => exact absurd rfl h.nonempty
  | cons c ds => exact ⟨c, ds, rfl, h.digit c (List.mem_cons_self ..)⟩

theorem Digits.digitsOf {cs rest : List Char} (h : Digits cs) (hrest : NoDigit rest) :
    ∃ d ds, Json.digitsOf (cs ++ rest) = (d :: ds, rest) ∧ digitValues cs = d :: ds := by
  obtain ⟨c, ds, rfl, -⟩ := h.eq_cons
  exact ⟨_, _, digitsOf_append h.digit hrest, rfl⟩

theorem Digits.digitsOf_all {cs : List Char} (h : Digits cs) :
    ∃ d ds, Json.digitsOf cs = (d :: ds, []) ∧ digitValues cs = d :: ds := by
  have hread := h.digitsOf noDigit_nil
  rwa [List.append_nil] at hread

/-! ## Reading the parts -/

theorem not_isDigit_of_e {e : Char} (he : e = 'e' ∨ e = 'E') : e.isDigit = false := by
  rcases he with rfl | rfl <;> rfl

theorem SpellsExponent.stops {e : Option Int} {cs : List Char} (h : SpellsExponent e cs) :
    NoDigit cs ∧ ∀ rest, cs ≠ '.' :: rest := by
  have hletter : ∀ {e : Char} (cs : List Char), e = 'e' ∨ e = 'E' →
      NoDigit (e :: cs) ∧ ∀ rest, e :: cs ≠ '.' :: rest := by
    intro e cs he
    refine ⟨noDigit_cons (not_isDigit_of_e he) cs, fun rest heq => ?_⟩
    obtain ⟨rfl, -⟩ := List.cons.inj heq
    rcases he with he | he <;> cases he
  cases h with
  | absent => exact ⟨noDigit_nil, nofun⟩
  | plain he _ => exact hletter _ he
  | plus he _ => exact hletter _ he
  | minus he _ => exact hletter _ he

theorem exponent?_of_spells {e : Option Int} {cs : List Char} (h : SpellsExponent e cs) : exponent? cs = some e := by
  cases h with
  | absent => rfl
  | plain he h =>
    obtain ⟨c, cs, rfl, hc⟩ := h.eq_cons
    obtain ⟨d, ds, hdigits, hvalues⟩ := h.digitsOf_all
    have hminus : c ≠ '-' := by
      rintro rfl
      cases hc
    have hplus : c ≠ '+' := by
      rintro rfl
      cases hc
    simp [exponent?, he, hdigits, hvalues, hminus, hplus]
  | plus he h =>
    obtain ⟨d, ds, hdigits, hvalues⟩ := h.digitsOf_all
    simp [exponent?, he, hdigits, hvalues]
  | minus he h =>
    obtain ⟨d, ds, hdigits, hvalues⟩ := h.digitsOf_all
    simp [exponent?, he, hdigits, hvalues]

theorem unsigned?_of_spells (negative : Bool) {whole fraction exponent : List Char} {fs : List Nat} {e : Option Int}
    (hwhole : Digits whole) (hzero : ∀ cs, whole = '0' :: cs → cs = []) (hfraction : SpellsFraction fs fraction)
    (hexponent : SpellsExponent e exponent) : unsigned? negative (whole ++ (fraction ++ exponent)) =
      some ⟨negative, ofDigits (digitValues whole), fs, e⟩ := by
  obtain ⟨hstop, hpoint⟩ := hexponent.stops
  have hread := exponent?_of_spells hexponent
  have hrest : NoDigit (fraction ++ exponent) := by
    cases hfraction with
    | absent => exact hstop
    | digits _ => exact noDigit_cons rfl _
  obtain ⟨d, ds, hdigits, hvalues⟩ := hwhole.digitsOf hrest
  have hlead : ¬(d = 0 ∧ ds ≠ []) := by
    obtain ⟨c, cs, rfl, hc⟩ := hwhole.eq_cons
    obtain ⟨rfl, rfl⟩ := List.cons.inj hvalues
    rintro ⟨hd, hds⟩
    rw [hzero cs (by rw [eq_zero_of_isDigit hc hd])] at hds
    exact hds rfl
  rw [unsigned?, hdigits, hvalues]
  dsimp only
  rw [if_neg hlead]
  cases hfraction with
  | absent =>
    rw [List.nil_append]
    split
    · exact absurd rfl (hpoint _)
    · rw [hread]
      rfl
  | digits h =>
    obtain ⟨f, fs, hfs, hvalues⟩ := h.digitsOf hstop
    rw [List.cons_append]
    split
    · rename_i heq
      obtain ⟨-, rfl⟩ := List.cons.inj heq
      rw [hfs, hvalues]
      dsimp only
      rw [hread]
      rfl
    · rename_i hnone
      exact absurd rfl (hnone _)

theorem numeral?_of_spells {x : Numeral} {cs : List Char} (h : SpellsNumber x cs) : numeral? cs = some x := by
  obtain ⟨negative, hwhole, hzero, hfraction, hexponent⟩ := h
  have hread := unsigned?_of_spells negative hwhole hzero hfraction hexponent
  cases negative with
  | true => exact hread
  | false =>
    obtain ⟨c, cs, rfl, hc⟩ := hwhole.eq_cons
    rw [if_neg Bool.false_ne_true, List.nil_append]
    unfold numeral?
    split
    · rename_i heq
      obtain ⟨rfl, -⟩ := List.cons.inj heq
      cases hc
    · exact hread

/-! ## The text that is written -/

theorem digits_natChars (n : Nat) : Digits (natChars n) := ⟨fun _ => isDigit_of_mem_natChars, Nat.toDigits_ne_nil⟩

def fractionChars (fraction : List Nat) : List Char :=
  if fraction.isEmpty then [] else '.' :: fraction.map digitChar

theorem chars_eq (x : Numeral) : x.chars true = (if x.negative then ['-'] else []) ++
    (natChars x.whole ++ (fractionChars x.fraction ++ exponentChars true x.exponent)) := by
  rw [Numeral.chars, fractionChars, List.append_assoc, List.append_assoc]

theorem spellsFraction_fractionChars {fraction : List Nat} (h : ∀ d ∈ fraction, d < 10) :
    SpellsFraction fraction (fractionChars fraction) := by
  cases fraction with
  | nil => exact .absent
  | cons f fs =>
    have hdigits : Digits ((f :: fs).map digitChar) := by
      refine ⟨fun c hc => ?_, List.cons_ne_nil _ _⟩
      obtain ⟨d, hd, rfl⟩ := List.mem_map.1 hc
      exact (digitChar_spec d (h d hd)).1
    have hvalues : digitValues ((f :: fs).map digitChar) = f :: fs := by
      rw [digitValues, List.map_map]
      exact (List.map_congr_left fun d hd => (digitChar_spec d (h d hd)).2).trans (List.map_id _)
    have hspells := SpellsFraction.digits hdigits
    rw [hvalues] at hspells
    exact hspells

theorem spellsExponent_exponentChars : ∀ e : Option Int, SpellsExponent e (exponentChars true e)
  | none => .absent
  | some e => by
    have hdigits := digits_natChars e.natAbs
    have hnumber : ofDigits (digitValues (natChars e.natAbs)) = e.natAbs := ofDigits_natChars _
    dsimp only [exponentChars]
    by_cases he : e < 0
    · have hspells := SpellsExponent.minus (.inl rfl) hdigits
      rw [hnumber, Int.ofNat_natAbs_of_nonpos (Int.le_of_lt he), Int.neg_neg] at hspells
      rw [if_pos he]
      exact hspells
    · have hspells := SpellsExponent.plus (.inl rfl) hdigits
      rw [hnumber, Int.natAbs_of_nonneg (Int.not_lt.1 he)] at hspells
      rw [if_neg he, if_pos rfl]
      exact hspells

theorem spellsNumber_chars {x : Numeral} (h : ∀ d ∈ x.fraction, d < 10) : SpellsNumber x (x.chars true) := by
  have hnumber : ofDigits (digitValues (natChars x.whole)) = x.whole := ofDigits_natChars _
  have hspells := SpellsNumber.parts x.negative (digits_natChars x.whole) natChars_zero_cons
    (spellsFraction_fractionChars h) (spellsExponent_exponentChars x.exponent)
  rw [hnumber] at hspells
  rw [chars_eq]
  exact hspells

end Json
end SeismicHazard
