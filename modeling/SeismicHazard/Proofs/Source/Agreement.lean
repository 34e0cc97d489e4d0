import Mathlib
import SeismicHazard.Proofs.Source.Refusal
/-!
# Agreement — a group that is refilled and one that is built up

The magnitude range of a group is bounded in two ways: adding a source compares its magnitudes with the bounds so far,
replacing the sources folds their magnitudes anew.  Both pass over a magnitude that is undefined when they already have
one that is not.  When the first magnitude is undefined, replacing lets go of it and adding does not; so the bounds are
the same exactly if an undefined magnitude is not the first one or all of them are undefined (`Concur.same`).
-/
namespace SeismicHazard
namespace Double

open Float.Model

/-! ## Doubles that stand in one place -/

/-- Two doubles that are the same, zero being the same as zero of the other sign. -/
def Same (a b : Float) : Prop := a = b ∨ a == b

theorem eq_of_isNaN {a b : Float} (ha : a.isNaN = true) (hb : b.isNaN = true) : a = b := by
  rw [Float.isNaN_eq_decide_eq_nan, decide_eq_true_eq] at ha hb
  rw [ha, hb]

theorem unpack_of_isNaN {a : Float} (h : a.isNaN = true) : a.toModel.unpack = .notANumber := UnpackedFloat.isNaN_iff.1 h

theorem compare_of_isNaN {a b : Float} (h : a.isNaN = true ∨ b.isNaN = true) :
    UnpackedFloat.compare a.toModel.unpack b.toModel.unpack = none := by
  rcases h with h | h
  · rw [unpack_of_isNaN h]
    rfl
  · rw [unpack_of_isNaN h]
    cases a.toModel.unpack <;> rfl

theorem not_lt_of_isNaN {a b : Float} (h : a.isNaN = true ∨ b.isNaN = true) : ¬a < b := by
  rw [lt_iff, compare_of_isNaN h]
  nofun

theorem not_le_of_isNaN {a b : Float} (h : a.isNaN = true ∨ b.isNaN = true) : ¬a ≤ b := by
  rw [le_iff, compare_of_isNaN h]
  nofun

theorem same_of_le {a b : Float} (ha : a.isNaN = false) (hb : b.isNaN = false) (hab : a ≤ b) (hba : b ≤ a) :
    Same a b := by
  rw [le_iff_rank ha hb] at hab
  rw [le_iff_rank hb ha, compare_rank_swap, Ordering.isLE_swap] at hba
  have heq : compare (rankOf a) (rankOf b) = .eq := by
    cases h : compare (rankOf a) (rankOf b) with
    | eq => rfl
    | lt =>
      rw [h] at hba
      cases hba
    | gt =>
      rw [h] at hab
      cases hab
  right
  change UnpackedFloat.beq a.toModel.unpack b.toModel.unpack = true
  rw [UnpackedFloat.beq, compare_eq ha hb]
  exact beq_iff_eq.2 (congrArg some heq)

theorem Same.isNaN_eq {a b : Float} (h : Same a b) : a.isNaN = b.isNaN := by
  rcases h with rfl | h
  · rfl
  · obtain ⟨ha, hb, -⟩ := Float.beq_iff_ne_nan_and_eq.1 h
    rw [Float.isNaN_eq_decide_eq_nan, Float.isNaN_eq_decide_eq_nan, decide_eq_false ha, decide_eq_false hb]

end Double

variable {le : Float → Float → Prop} {pick : Float → Float → Float}

/-! ## Magnitudes that are undefined -/

def isDefined (m : Float) : Bool := !m.isNaN

theorem isDefined_iff {m : Float} : isDefined m = true ↔ m.isNaN = false := Bool.not_eq_true' _ ▸ Iff.rfl

/-- Picking one of two magnitudes, the defined one if it comes first and the other is not. -/
structure PicksDefined (le : Float → Float → Prop) (pick : Float → Float → Float) : Prop extends Picks le pick where
  passes : ∀ a b, a.isNaN = false → b.isNaN = true → pick a b = a

def Yields (pick : Float → Float → Float) : Prop := ∀ a b, a.isNaN = true → pick a b = b

def Clings (pick : Float → Float → Float) : Prop := ∀ a b, a.isNaN = true → pick a b = a

theorem yields_lesserMag : Yields lesserMag := fun a b ha => by rw [lesserMag, ha, Bool.true_or, if_pos rfl]

theorem yields_greaterMag : Yields greaterMag := fun a b ha => by rw [greaterMag, ha, Bool.true_or, if_pos rfl]

theorem clings_lowerMag : Clings lowerMag := fun _ _ ha => if_neg (Double.not_lt_of_isNaN (.inr ha))

theorem clings_higherMag : Clings higherMag := fun _ _ ha => if_neg (Double.not_lt_of_isNaN (.inl ha))

theorem picksDefined_lesserMag : PicksDefined (· ≤ ·) lesserMag where
  toPicks := picks_lesserMag
  passes a b ha hb := by
    rw [lesserMag, ha, decide_eq_false (Double.not_le_of_isNaN (.inl hb))]
    rfl

theorem picksDefined_greaterMag : PicksDefined (fun a b => b ≤ a) greaterMag where
  toPicks := picks_greaterMag
  passes a b ha hb := by
    rw [greaterMag, ha, decide_eq_false (Double.not_le_of_isNaN (.inr hb))]
    rfl

theorem picksDefined_lowerMag : PicksDefined (· ≤ ·) lowerMag where
  toPicks := picks_lowerMag
  passes _ _ _ hb := if_neg (Double.not_lt_of_isNaN (.inl hb))

theorem picksDefined_higherMag : PicksDefined (fun a b => b ≤ a) higherMag where
  toPicks := picks_higherMag
  passes _ _ _ hb := if_neg (Double.not_lt_of_isNaN (.inr hb))

def Open (pick : Float → Float → Float) (kept : Option Float) : Prop :=
  Yields pick ∨ ∃ m, kept = some m ∧ m.isNaN = false

theorem PicksDefined.isNaN_eq_false (hp : PicksDefined le pick) {m : Float} (hm : m.isNaN = false) (x : Float) :
    (pick m x).isNaN = false := by
  by_cases hx : x.isNaN = false
  · rcases hp.either m x with h | h <;> rw [h]
    · exact hm
    · exact hx
  · rw [hp.passes m x hm (by simpa using hx)]
    exact hm

theorem Open.step (hp : PicksDefined le pick) {kept : Option Float} (h : Open pick kept) (x : Float) :
    Open pick (keepWith pick kept x) := by
  refine h.imp_right ?_
  rintro ⟨m, rfl, hm⟩
  exact ⟨_, rfl, hp.isNaN_eq_false hm x⟩

/-- **One more magnitude changes an open bound as if nothing undefined was ever there.** -/
theorem filter_keepWith (hp : PicksDefined le pick) {kept : Option Float} (h : Open pick kept) (x : Float) :
    (keepWith pick kept x).filter isDefined =
      if isDefined x then keepWith pick (kept.filter isDefined) x else kept.filter isDefined := by
  cases kept with
  | none => rfl
  | some m =>
    change (some (pick m x)).filter isDefined = _
    by_cases hm : m.isNaN = false
    · rw [Option.filter_some_pos (isDefined_iff.2 hm), Option.filter_some_pos]
      · split
        · rfl
        · rename_i hx
          rw [hp.passes m x hm (by simpa [isDefined] using hx)]
      · exact isDefined_iff.2 (hp.isNaN_eq_false hm x)
    · have hyields : Yields pick := h.resolve_right fun ⟨_, he, hm'⟩ => hm (Option.some.inj he ▸ hm')
      have hundefined : isDefined m = false := by simpa [isDefined] using hm
      rw [hyields m x (by simpa using hm), Option.filter_some_neg hundefined, Option.filter_some]
      rfl

theorem filter_foldl_keepWith (hp : PicksDefined le pick) : ∀ (ms : List Float) {kept : Option Float},
    Open pick kept → (ms.foldl (keepWith pick) kept).filter isDefined =
      (ms.filter isDefined).foldl (keepWith pick) (kept.filter isDefined)
  | [], _, _ => rfl
  | x :: ms, kept, h => by
    rw [List.foldl_cons, filter_foldl_keepWith hp ms (h.step hp x), filter_keepWith hp h, List.filter_cons]
    split <;> rfl

/-- **What is kept is first among the defined magnitudes**, unless an undefined one was kept. -/
theorem extreme_defined (hp : PicksDefined le pick) {ms : List Float}
    (h : Yields pick ∨ ∀ x ∈ ms.head?, x.isNaN = false) :
    Extreme le ((ms.foldl (keepWith pick) none).filter isDefined) (ms.filter isDefined) := by
  have hfold : (ms.foldl (keepWith pick) none).filter isDefined =
      (ms.filter isDefined).foldl (keepWith pick) none := by
    cases ms with
    | nil => rfl
    | cons x ms =>
      rcases h with h | h
      · exact filter_foldl_keepWith hp (x :: ms) (.inl h)
      · have hx : x.isNaN = false := h x rfl
        rw [List.filter_cons_of_pos (isDefined_iff.2 hx)]
        change (ms.foldl (keepWith pick) (some x)).filter isDefined =
          (ms.filter isDefined).foldl (keepWith pick) (some x)
        rw [filter_foldl_keepWith hp ms (.inr ⟨x, rfl, hx⟩), Option.filter_some_pos (isDefined_iff.2 hx)]
  rw [hfold]
  exact extreme_foldl hp.toPicks (ms.filter isDefined) extreme_none

theorem foldl_of_clings (hp : Clings pick) {m : Float} (hm : m.isNaN = true) : ∀ ms : List Float,
    ms.foldl (keepWith pick) (some m) = some m
  | [] => rfl
  | x :: ms => by
    rw [List.foldl_cons, keepWith, Option.elim_some, hp m x hm]
    exact foldl_of_clings hp hm ms

/-! ## The two bounds -/

/-- What bounds are kept of some magnitudes that are folded anew and that are compared one by one. -/
structure Concur (le : Float → Float → Prop) (ms : List Float) (folded compared : Option Float) : Prop where
  /-- Folding bounds the magnitudes that are defined. -/
  folds : Extreme le (folded.filter isDefined) (ms.filter isDefined)
  /-- So does comparing, if the first magnitude is defined; -/
  compares : (∀ x ∈ ms.head?, x.isNaN = false) → Extreme le (compared.filter isDefined) (ms.filter isDefined)
  /-- else the first one is kept. -/
  stuck : ∀ x ∈ ms.head?, x.isNaN = true → compared = some x
  /-- The two bounds are the same, unless the first magnitude is undefined and another one is not. -/
  same : Option.Rel Double.Same folded compared ↔ ∀ x ∈ ms.head?, x.isNaN = true → ∀ y ∈ ms, y.isNaN = true

def Separates (le : Float → Float → Prop) : Prop :=
  ∀ a b, a.isNaN = false → b.isNaN = false → le a b → le b a → Double.Same a b

theorem separates_le : Separates (· ≤ ·) := fun _ _ ha hb hab hba => Double.same_of_le ha hb hab hba

theorem separates_ge : Separates (fun a b => b ≤ a) := fun _ _ ha hb hab hba => Double.same_of_le ha hb hba hab

theorem mem_of_filter {kept : Option Float} {m : Float} (h : kept.filter isDefined = some m) :
    kept = some m ∧ m.isNaN = false := by
  obtain ⟨hm, hdef⟩ := Option.filter_eq_some_iff.1 h
  exact ⟨hm, isDefined_iff.1 hdef⟩

theorem Extreme.exists_defined {kept : Option Float} {ms : List Float}
    (h : Extreme le (kept.filter isDefined) (ms.filter isDefined)) {y : Float} (hy : y ∈ ms) (hdef : y.isNaN = false) :
    ∃ m, kept = some m ∧ m.isNaN = false ∧ m ∈ ms.filter isDefined ∧ ∀ x ∈ ms.filter isDefined, le m x := by
  have hne : kept.filter isDefined ≠ none := fun hnone =>
    List.ne_nil_of_mem (List.mem_filter.2 ⟨hy, isDefined_iff.2 hdef⟩) (h.absent.1 hnone)
  obtain ⟨m, hm⟩ := Option.ne_none_iff_exists'.1 hne
  obtain ⟨hkept, hmdef⟩ := mem_of_filter hm
  exact ⟨m, hkept, hmdef, h.first (fun x hx => isDefined_iff.1 (List.mem_filter.1 hx).2) m hm⟩

/-- **What is first among the defined magnitudes is only one**, if there is any. -/
theorem Extreme.same (hle : Separates le) {kept kept' : Option Float} {ms : List Float}
    (h : Extreme le (kept.filter isDefined) (ms.filter isDefined))
    (h' : Extreme le (kept'.filter isDefined) (ms.filter isDefined)) {y : Float} (hy : y ∈ ms)
    (hdef : y.isNaN = false) : Option.Rel Double.Same kept kept' := by
  obtain ⟨a, ha, hadef, hamem, hafirst⟩ := h.exists_defined hy hdef
  obtain ⟨b, hb, hbdef, hbmem, hbfirst⟩ := h'.exists_defined hy hdef
  rw [ha, hb]
  exact .some (hle a b hadef hbdef (hafirst b hbmem) (hbfirst a hamem))

theorem exists_undefined (hp : PicksDefined le pick) (hyields : Yields pick) {ms : List Float} (hms : ms ≠ [])
    (hnan : ∀ y ∈ ms, y.isNaN = true) : ∃ m, ms.foldl (keepWith pick) none = some m ∧ m.isNaN = true := by
  have hkept : ms.foldl (keepWith pick) none ≠ none := fun hnone =>
    hms ((extreme_foldl hp.toPicks ms extreme_none).absent.1 hnone)
  obtain ⟨m, hm⟩ := Option.ne_none_iff_exists'.1 hkept
  refine ⟨m, hm, by_contra fun hdef => ?_⟩
  have hnone : (ms.foldl (keepWith pick) none).filter isDefined = none := by
    refine (extreme_defined hp (.inl hyields)).absent.2 (List.filter_eq_nil_iff.2 fun y hy => ?_)
    rw [isDefined, hnan y hy]
    nofun
  rw [hm, Option.filter_some_pos (by simpa [isDefined] using hdef)] at hnone
  cases hnone

/-- **Folding and comparing concur**, if the first magnitude is not the only thing that is undefined. -/
theorem concur {fold compare : Float → Float → Float} (hle : Separates le) (hfold : PicksDefined le fold)
    (hyields : Yields fold) (hcompare : PicksDefined le compare) (hclings : Clings compare) (ms : List Float) :
    Concur le ms (ms.foldl (keepWith fold) none) (ms.foldl (keepWith compare) none) := by
  have folds : Extreme le ((ms.foldl (keepWith fold) none).filter isDefined) (ms.filter isDefined) :=
    extreme_defined hfold (.inl hyields)
  have compares : (∀ x ∈ ms.head?, x.isNaN = false) →
      Extreme le ((ms.foldl (keepWith compare) none).filter isDefined) (ms.filter isDefined) :=
    fun h => extreme_defined hcompare (.inr h)
  have stuck : ∀ x ∈ ms.head?, x.isNaN = true → ms.foldl (keepWith compare) none = some x := by
    intro x hx hnan
    obtain ⟨ms, rfl⟩ := List.head?_eq_some_iff.1 hx
    exact foldl_of_clings hclings hnan ms
  refine ⟨folds, compares, stuck, ?_, ?_⟩
  · intro hsame x hx hnan y hy
    by_contra hdef
    obtain ⟨m, hm, hmdef, -⟩ := folds.exists_defined hy (by simpa using hdef)
    rw [hm, stuck x hx hnan] at hsame
    cases hsame with
    | some h =>
      rw [h.isNaN_eq, hnan] at hmdef
      cases hmdef
  · intro hall
    by_cases hdef : ∃ y ∈ ms, y.isNaN = false
    · -- then the first magnitude is defined, and comparing never meets an undefined bound
      obtain ⟨y, hy, hdef⟩ := hdef
      have hhead : ∀ x ∈ ms.head?, x.isNaN = false := fun x hx => by
        by_contra hnan
        have hynan := hall x hx (by simpa using hnan) y hy
        rw [hdef] at hynan
        cases hynan
      exact folds.same hle (compares hhead) hy hdef
    · -- folding ends with an undefined magnitude, and there is only one of them
      have hnan : ∀ y ∈ ms, y.isNaN = true := fun y hy => by
        by_contra h
        exact hdef ⟨y, hy, by simpa using h⟩
      cases ms with
      | nil => exact .none
      | cons x ms =>
        have hx : x.isNaN = true := hnan x List.mem_cons_self
        obtain ⟨m, hm, hmnan⟩ := exists_undefined hfold hyields (List.cons_ne_nil x ms) hnan
        rw [hm, stuck x rfl hx]
        exact .some (.inl (Double.eq_of_isNaN hmnan hx))

namespace SourceGroup

variable {S : Type} [Source S]

/-! ## Sources that are added -/

theorem foldlM_update : ∀ (sources : List S) (g : SourceGroup S), (∀ s ∈ sources, Source.trt s = g.trt) →
    sources.foldlM update g = .ok (sources.foldl push g)
  | [], _, _ => rfl
  | s :: sources, g, h => by
    have hs : g.update s = .ok (g.push s) := if_neg (not_not_intro (h s List.mem_cons_self))
    rw [List.foldlM_cons, hs, List.foldl_cons]
    exact foldlM_update sources (g.push s) fun s' hs' => h s' (List.mem_cons_of_mem s hs')

theorem foldl_push : ∀ (sources : List S) (g : SourceGroup S), sources.foldl push g =
    { g with
      sources := g.sources ++ sources
      minMag := (sources.map (fun s => (Source.magnitudes s).1)).foldl (keepWith lowerMag) g.minMag
      maxMag := (sources.map (fun s => (Source.magnitudes s).2)).foldl (keepWith higherMag) g.maxMag }
  | [], g => by rw [List.append_nil]; rfl
  | s :: sources, g => by
    rw [List.foldl_cons, foldl_push sources (g.push s), minMag_push, maxMag_push]
    simp [push]

/-- **Replacing sources agrees with adding them**: the groups have the same sources, and the bounds of their magnitude
ranges are the same unless the first magnitude is undefined and another one is not. -/
theorem replaceSources_agrees {g : SourceGroup S} {sources : List S} (h : g.Fits sources) :
    ∃ replaced added, g.replaceSources sources = .ok (g.sources, replaced) ∧ ofSources g.trt sources = .ok added ∧
      replaced.sources = sources ∧ added.sources = sources ∧
      Concur (· ≤ ·) replaced.leastMags replaced.minMag added.minMag ∧
      Concur (fun a b => b ≤ a) replaced.greatestMags replaced.maxMag added.maxMag := by
  refine ⟨_, _, replaceSources_eq_ok.2 ⟨h, rfl⟩, foldlM_update sources _ h.1, rfl, ?_, ?_, ?_⟩
  · rw [foldl_push]
    rfl
  · rw [foldl_push, minMag_setSources]
    exact concur separates_le picksDefined_lesserMag yields_lesserMag picksDefined_lowerMag clings_lowerMag _
  · rw [foldl_push, maxMag_setSources]
    exact concur separates_ge picksDefined_greaterMag yields_greaterMag picksDefined_higherMag clings_higherMag _

/-- Sources of which the first one has no greatest magnitude and the second one no least one. -/
def partlyDefined : List Strip :=
  [{ id := "a", trt := "A", magnitudes := (6, Float.nan) },
    { id := "b", trt := "A", magnitudes := (Float.nan, 7) },
    { id := "c", trt := "A", magnitudes := (5, Float.nan) }]

theorem fits_partlyDefined : ({ trt := "A" } : SourceGroup Strip).Fits partlyDefined :=
  ⟨by decide +kernel, by decide +kernel⟩

theorem replaceSources_agrees_partlyDefined : ∃ replaced added : SourceGroup Strip,
    ({ trt := "A" } : SourceGroup Strip).replaceSources partlyDefined = .ok ([], replaced) ∧
    ofSources "A" partlyDefined = .ok added ∧ Option.Rel Double.Same replaced.minMag added.minMag ∧
    ¬Option.Rel Double.Same replaced.maxMag added.maxMag := by
  obtain ⟨replaced, added, hreplace, hadd, hsources, -, least, greatest⟩ := replaceSources_agrees fits_partlyDefined
  refine ⟨replaced, added, hreplace, hadd, least.same.2 ?_, fun hsame => ?_⟩
  · rw [leastMags, hsources]
    intro x hx hnan
    cases hx
    cases (show (6 : Float).isNaN = false by decide +kernel).symm.trans hnan
  · have hnan := greatest.same.1 hsame
    rw [greatestMags, hsources] at hnan
    have := hnan Float.nan rfl (by decide +kernel) 7 (by simp [partlyDefined, Source.magnitudes])
    revert this
    decide +kernel

/-- An undefined magnitude that comes first is kept by a group that is built up and not by one that is refilled. -/
theorem undefined_first_kept : ∃ replaced added : SourceGroup Strip,
    ({ trt := "A" } : SourceGroup Strip).Fits partlyDefined ∧
    ({ trt := "A" } : SourceGroup Strip).replaceSources partlyDefined = .ok ([], replaced) ∧
    ofSources "A" partlyDefined = .ok added ∧ replaced.maxMag = some 7 ∧ added.maxMag = some Float.nan ∧
    ¬Option.Rel Double.Same replaced.maxMag added.maxMag := by
  have hreplaced : (({ trt := "A" } : SourceGroup Strip).setSources partlyDefined).maxMag = some 7 := by decide +kernel
  have hadded : (partlyDefined.foldl push { trt := "A" }).maxMag = some Float.nan := by decide +kernel
  refine ⟨_, _, fits_partlyDefined, rfl, foldlM_update _ _ fits_partlyDefined.1, hreplaced, hadded, ?_⟩
  rw [hreplaced, hadded]
  rintro ⟨h⟩
  have hnan : (7 : Float).isNaN = true := h.isNaN_eq.trans (by decide +kernel)
  revert hnan
  decide +kernel

end SourceGroup
end SeismicHazard
