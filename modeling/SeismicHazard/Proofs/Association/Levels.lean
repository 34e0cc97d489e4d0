import SeismicHazard.Proofs.Association.Delivery
import SeismicHazard.Proofs.Association.Folding
import Mathlib.Order.Nat
/-!
# Levels — hazard curves are combined level by level

Each curve that is folded in cuts the combined one to its own length, so in the end it has the levels that all of them
have (`length_foldl_zipWith`), and on each of these it is the fold of their values there (`getElem?_foldl_zipWith`).
That is what combining the values of one level as probabilities comes to (`combined_by_level`).
-/
namespace SeismicHazard

variable {W V : Type}

/-! ## Curves -/

theorem length_foldl_zipWith (f : V → V → V) : ∀ (curves : List (List V)) (curve : List V),
    (curves.foldl (List.zipWith f) curve).length = (curves.map List.length).foldl min curve.length
  | [], _ => rfl
  | u :: curves, curve => by
    rw [List.foldl_cons, length_foldl_zipWith f curves, List.length_zipWith]
    rfl

theorem lt_foldl_min {l : Nat} : ∀ {lengths : List Nat} {n : Nat},
    l < lengths.foldl min n ↔ l < n ∧ ∀ m ∈ lengths, l < m
  | [], n => by simp
  | m :: lengths, n => by
    rw [List.foldl_cons, lt_foldl_min, Nat.lt_min, List.forall_mem_cons, and_assoc]

theorem getElem?_foldl_zipWith (f : V → V → V) (l : Nat) : ∀ {curves : List (List V)} (curve : List V),
    (∀ u ∈ curves, l < u.length) → (curves.foldl (List.zipWith f) curve)[l]? =
      (curve[l]?).map (fun x => (curves.filterMap (fun u => u[l]?)).foldl f x)
  | [], curve, _ => by simp
  | u :: curves, curve, h => by
    obtain ⟨hu, hcurves⟩ := List.forall_mem_cons.1 h
    have hl : u[l]? = some u[l] := List.getElem?_eq_getElem hu
    rw [List.foldl_cons, getElem?_foldl_zipWith f l _ hcurves, List.getElem?_zipWith, List.filterMap_cons, hl]
    cases curve[l]? <;> rfl

theorem map_some_filterMap {α β : Type} {F : α → Option β} : ∀ {l : List α}, (∀ a ∈ l, (F a).isSome = true) →
    (l.filterMap F).map some = l.map F
  | [], _ => rfl
  | a :: l, h => by
    obtain ⟨ha, hl⟩ := List.forall_mem_cons.1 h
    obtain ⟨b, hb⟩ := Option.isSome_iff_exists.1 ha
    rw [List.filterMap_cons, hb, List.map_cons, List.map_cons, hb, map_some_filterMap hl]

namespace Association

/-! ## Results -/

def atLevel (l : Nat) (results : List (AssocKey × List V)) : List (AssocKey × V) :=
  results.filterMap (fun e => (e.2[l]?).map (fun v => (e.1, v)))

def listing (a : Association W) (results : List (AssocKey × V)) (n : Nat) : List (AssocKey × V) :=
  results.filter (fun e => decide (n ∈ a.ordinals e.1))

theorem mem_reaching {a : Association W} {results : List (AssocKey × V)} {n : Nat} {v : V} :
    v ∈ a.reaching results n ↔ ∃ e ∈ a.listing results n, e.2 = v := by
  simp only [reaching, listing, List.mem_flatMap, List.mem_replicate, List.mem_filter, decide_eq_true_iff,
    ← List.count_pos_iff, Nat.pos_iff_ne_zero]
  constructor
  · rintro ⟨e, he, hn, rfl⟩
    exact ⟨e, ⟨he, hn⟩, rfl⟩
  · rintro ⟨e, ⟨he, hn⟩, rfl⟩
    exact ⟨e, he, hn, rfl⟩

theorem reaching_listing (a : Association W) (results : List (AssocKey × V)) (n : Nat) :
    a.reaching (a.listing results n) n = a.reaching results n := by
  induction results with
  | nil => rfl
  | cons e results ih =>
    by_cases hn : n ∈ a.ordinals e.1
    · rw [listing, List.filter_cons_of_pos (by simpa using hn), reaching_cons, reaching_cons]
      exact congrArg _ ih
    · rw [listing, List.filter_cons_of_neg (by simpa using hn), reaching_cons, List.count_eq_zero_of_not_mem hn]
      exact ih

theorem reaching_atLevel (a : Association W) (l : Nat) (results : List (AssocKey × List V)) (n : Nat) :
    a.reaching (atLevel l results) n = (a.reaching results n).filterMap (fun u => u[l]?) := by
  induction results with
  | nil => rfl
  | cons e results ih =>
    rw [reaching_cons, List.filterMap_append, ← ih, atLevel, List.filterMap_cons]
    cases hl : e.2[l]? with
    | none => simp [hl, atLevel]
    | some v => simp [hl, atLevel, reaching_cons]

/-! ## Combined curves -/

variable [Scalar V]

structure CombinedByLevel (a : Association W) (levels : Nat) (results : List (AssocKey × List V))
    (curves : List (List V)) : Prop where
  /-- Every position that a key lists has a realization, so no curve is passed over. -/
  listed : ∀ k, ∀ n ∈ a.ordinals k, n < a.realizations.length
  /-- There is one curve for each realization. -/
  length : curves.length = a.realizations.length
  /-- It has the levels that are asked for, as far as all curves have them whose keys list the realization. -/
  depth : ∀ (n : Nat) (curve : List V), curves[n]? = some curve →
    curve.length = ((a.listing results n).map (fun e => e.2.length)).foldl min levels
  /-- On each of its levels these curves have a value, and their values are folded in order, -/
  values : ∀ (n : Nat) (curve : List V), curves[n]? = some curve → ∀ l < curve.length, ∃ vs : List V,
    vs.map some = (a.reaching results n).map (fun u => u[l]?) ∧
      curve[l]? = some (vs.foldl aggregateProbability Scalar.zero)
  /-- which is what combining the values of the level as probabilities comes to. -/
  probabilities : ∀ (n : Nat) (curve : List V), curves[n]? = some curve → ∀ l < curve.length,
    curve[l]? = (a.combineProbabilities (atLevel l results))[n]?
  /-- Curves whose keys do not list the realization change nothing. -/
  unaffected : ∀ results' n, a.listing results' n = a.listing results n →
    (a.combineCurves levels results')[n]? = curves[n]?
  /-- The curves are given back if memory can hold as many levels. -/
  held : levels < Capacity.bound → a.combineCurvesHeld levels results = .ok curves

theorem getElem?_combineCurves {a : Association W} (levels : Nat) (results : List (AssocKey × List V)) {n : Nat}
    (hn : n < a.realizations.length) : (a.combineCurves levels results)[n]? = some
      ((a.reaching results n).foldl (List.zipWith aggregateProbability) (List.replicate levels Scalar.zero)) :=
  getElem?_combine a _ _ results hn

theorem lt_length_foldl_curves {curves : List (List V)} {levels l : Nat} :
    l < (curves.foldl (List.zipWith aggregateProbability) (List.replicate levels Scalar.zero)).length ↔
      l < levels ∧ ∀ u ∈ curves, l < u.length := by
  rw [length_foldl_zipWith, lt_foldl_min, List.length_replicate, List.forall_mem_map]

/-- **Hazard curves are combined level by level.** -/
theorem combined_by_level [Scalar W] {a : Association W} (obtained : a.Obtained) (levels : Nat)
    (results : List (AssocKey × List V)) : a.CombinedByLevel levels results (a.combineCurves levels results) := by
  have hlength : (a.combineCurves levels results).length = a.realizations.length := length_combine a _ _ results
  have hcurve : ∀ n curve, (a.combineCurves levels results)[n]? = some curve → n < a.realizations.length ∧ curve =
      (a.reaching results n).foldl (List.zipWith aggregateProbability) (List.replicate levels Scalar.zero) := by
    intro n curve hn
    have hlt : n < a.realizations.length := hlength ▸ (List.getElem?_eq_some_iff.1 hn).1
    rw [getElem?_combineCurves levels results hlt] at hn
    exact ⟨hlt, (Option.some.inj hn).symm⟩
  have hvalue : ∀ n curve, (a.combineCurves levels results)[n]? = some curve → ∀ l < curve.length,
      (∀ u ∈ a.reaching results n, l < u.length) ∧ curve[l]? =
        some (((a.reaching results n).filterMap (fun u => u[l]?)).foldl aggregateProbability Scalar.zero) := by
    intro n curve hn l hl
    obtain ⟨-, rfl⟩ := hcurve n curve hn
    obtain ⟨hlevels, hcurves⟩ := lt_length_foldl_curves.1 hl
    refine ⟨hcurves, ?_⟩
    rw [getElem?_foldl_zipWith _ l _ hcurves, List.getElem?_replicate, if_pos hlevels]
    rfl
  constructor
  case listed => exact fun k n hn => obtained.lt_of_mem_ordinals hn
  case length => exact hlength
  case depth =>
    intro n curve hn
    obtain ⟨-, rfl⟩ := hcurve n curve hn
    refine eq_of_forall_lt_iff fun l => ?_
    rw [lt_length_foldl_curves, lt_foldl_min, List.forall_mem_map]
    refine and_congr_right fun _ => ⟨fun h e he => h e.2 (mem_reaching.2 ⟨e, he, rfl⟩), fun h u hu => ?_⟩
    obtain ⟨e, he, rfl⟩ := mem_reaching.1 hu
    exact h e he
  case values =>
    intro n curve hn l hl
    obtain ⟨hcurves, hfold⟩ := hvalue n curve hn l hl
    exact ⟨_, map_some_filterMap fun u hu => by simpa using hcurves u hu, hfold⟩
  case probabilities =>
    intro n curve hn l hl
    rw [combineProbabilities, getElem?_combine a _ _ _ (hcurve n curve hn).1, reaching_atLevel]
    exact (hvalue n curve hn l hl).2
  case unaffected =>
    intro results' n hsame
    have hreach : a.reaching results' n = a.reaching results n := by
      rw [← reaching_listing a results', hsame, reaching_listing]
    rw [combineCurves, combineCurves, combine, combine, getElem?_foldl_scatter, getElem?_foldl_scatter, hreach]
  case held =>
    intro hlevels
    rw [combineCurvesHeld, Capacity.check, if_pos hlevels]
    rfl

/-- Two keys, one of which lists a realization twice, with a realization that both of them list. -/
def sharedRealization : AssocIndex := .ofList [(⟨⟨1⟩, "A"⟩, [0, 1, 1]), (⟨⟨2⟩, "B"⟩, [0, 2])]

def unevenCurves : List (AssocKey × List Rat) :=
  [(⟨⟨1⟩, "A"⟩, [1 / 2, 1 / 4, 1 / 8]), (⟨⟨2⟩, "B"⟩, [1 / 2, 1 / 2]), (⟨⟨3⟩, "C"⟩, []),
    (⟨⟨1⟩, "A"⟩, [0, 1 / 4, 1, 1])]

theorem combined_by_level_uneven : ∃ a, ofParts .empty collecting sharedRealization = .ok a ∧ a.Obtained ∧
    a.CombinedByLevel 3 unevenCurves (a.combineCurves 3 unevenCurves) ∧
    a.combineCurves 3 unevenCurves = [[3 / 4, 23 / 32], [3 / 4, 175 / 256, 1], [1 / 2, 1 / 2]] := by
  have parts : ∃ a, ofParts .empty collecting sharedRealization = .ok a ∧
      a.combineCurves 3 unevenCurves = [[3 / 4, 23 / 32], [3 / 4, 175 / 256, 1], [1 / 2, 1 / 2]] :=
    ⟨_, rfl, by decide +kernel⟩
  obtain ⟨a, ha, hcurves⟩ := parts
  have obtained : a.Obtained := .assembled _ _ _ ha
  exact ⟨a, ha, obtained, combined_by_level obtained 3 unevenCurves, hcurves⟩

end Association
end SeismicHazard
