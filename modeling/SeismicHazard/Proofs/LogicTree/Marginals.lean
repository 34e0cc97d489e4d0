import SeismicHazard.Proofs.Association.Reducing
import SeismicHazard.Proofs.LogicTree.Combinations
import SeismicHazard.Proofs.Number.Exact
/-!
# Marginals — a reduced tree sums over the sets that it dropped

A path is told by the positions of its branches (`numbered`), and its weight is the product of the weights that stand
there (`weight_follow`).  Paths that agree on the sets to keep differ in the other sets only, so their weights add up to
the weight of the path of the reduced tree, times the totals of the sets that were dropped (`sum_weightAt`).
-/
namespace SeismicHazard

def SortedSet.inter {κ : Type} [Ord κ] (s s' : SortedSet κ) : SortedSet κ := s.filter (fun k _ => s'.contains k)

theorem SortedSet.contains_inter {κ : Type} [Ord κ] [Std.LawfulEqOrd κ] (s s' : SortedSet κ) (k : κ) :
    (s.inter s').contains k = (s.contains k && s'.contains k) := by
  unfold inter SortedMap.contains
  rw [SortedMap.get?_filter]
  cases s.get? k <;> cases s'.get? k <;> simp [Option.filter_some]

def keptPositions (keep : String → Bool) (trts : List String) (is : List Nat) : List Nat :=
  ((trts.zip is).filter (fun e => keep e.1)).map Prod.snd

section Positions

variable {keep : String → Bool} {trt : String}

theorem keptPositions_cons (trts : List String) (i : Nat) (is : List Nat) :
    keptPositions keep (trt :: trts) (i :: is) =
      if keep trt then i :: keptPositions keep trts is else keptPositions keep trts is := by
  cases h : keep trt <;> simp [keptPositions, h]

theorem filter_positions_kept (h : keep trt = true) {n j : Nat} (hj : j < n) (trts : List String) (ns js : List Nat) :
    (positions (n :: ns)).filter (fun is => decide (keptPositions keep (trt :: trts) is = j :: js)) =
      ((positions ns).filter (fun is => decide (keptPositions keep trts is = js))).map (j :: ·) := by
  have hinner : ∀ i, ((positions ns).map (i :: ·)).filter
      (fun is => decide (keptPositions keep (trt :: trts) is = j :: js)) =
      if i = j then ((positions ns).filter (fun is => decide (keptPositions keep trts is = js))).map (j :: ·)
      else [] := by
    intro i
    rw [List.filter_map]
    by_cases hi : i = j <;> simp [Function.comp_def, keptPositions_cons, h, hi]
  rw [positions, List.filter_flatMap]
  simp only [hinner]
  rw [flatMap_ite_of_nodup List.nodup_range, if_pos (List.mem_range.2 hj)]

theorem filter_positions_dropped (h : keep trt = false) (n : Nat) (trts : List String) (ns js : List Nat) :
    (positions (n :: ns)).filter (fun is => decide (keptPositions keep (trt :: trts) is = js)) =
      (List.range n).flatMap (fun i =>
        ((positions ns).filter (fun is => decide (keptPositions keep trts is = js))).map (i :: ·)) := by
  rw [positions, List.filter_flatMap]
  refine List.flatMap_congr fun i _ => ?_
  rw [List.filter_map]
  simp [Function.comp_def, keptPositions_cons, h]

theorem nodup_positions (ns : List Nat) : (positions ns).Nodup :=
  (positions_increasing ns).imp fun h => Std.ne_of_lt h

end Positions

namespace BranchSetTree

/-! ## Paths with their positions -/

section Numbered

variable {W : Type} [Scalar W]

def numbered (t : BranchSetTree W) : List (List Nat × ChoicePath W) :=
  (positions (t.sets.values.map List.length)).zip t.enumerate

def agreeing (t : BranchSetTree W) (keep : SortedSet String) (js : List Nat) : List (ChoicePath W) :=
  (t.numbered.filter (fun p => decide (keptPositions keep.contains t.trts p.1 = js))).map Prod.snd

def dropped (t : BranchSetTree W) (keep : SortedSet String) : List (List (Branch W)) :=
  (t.sets.filter (fun trt _ => !keep.contains trt)).values

/-- The numbered paths are the enumerated ones, one for each combination of positions. -/
structure Numbering (t : BranchSetTree W) : Prop where
  paths : t.numbered.map Prod.snd = t.enumerate
  none : t.sets.isEmpty = true → t.enumerate = []
  distinct : (t.numbered.map Prod.fst).Nodup
  combinations : t.sets.isEmpty = false → ∀ is, is ∈ t.numbered.map Prod.fst ↔
    List.Forall₂ (· < ·) is (t.sets.values.map List.length)
  /-- A path takes the branches that stand at its positions. -/
  taken : ∀ p ∈ t.numbered, ∃ branches, StandAt t.sets.values p.1 branches ∧ p.2.Takes t.trts branches

theorem numbered_eq {t : BranchSetTree W} (h : t.sets.isEmpty = false) : t.numbered =
    (positions (t.sets.toList.map (fun s => s.2.length))).map
      (fun is => (is, follow t.sets.toList is (.start Scalar.one))) := by
  have hsizes : t.sets.values.map List.length = t.sets.toList.map (fun s => s.2.length) := List.map_map
  rw [numbered, enumerate_eq h, hsizes, List.map_prod_left_eq_zip]

theorem numbered_of_isEmpty {t : BranchSetTree W} (h : t.sets.isEmpty = true) : t.numbered = [] := by
  rw [numbered, enumerate, if_pos h, List.zip_nil_right]

theorem numbering (t : BranchSetTree W) : t.Numbering := by
  cases h : t.sets.isEmpty with
  | true =>
    have hnone := numbered_of_isEmpty h
    constructor
    case paths => rw [hnone, enumerate, if_pos h]; rfl
    case none => exact fun _ => if_pos h
    case distinct => rw [hnone]; exact List.nodup_nil
    case combinations => exact fun hsome => by cases h.symm.trans hsome
    case taken => rw [hnone]; exact fun p hp => by cases hp
  | false =>
    have hfst : t.numbered.map Prod.fst = positions (t.sets.toList.map (fun s => s.2.length)) := by
      rw [numbered_eq h, List.map_map]
      exact List.map_id _
    constructor
    case paths =>
      refine List.map_snd_zip (Nat.le_of_eq ?_)
      rw [enumerate_eq h, List.length_map]
    case none => exact fun hnone => by cases h.symm.trans hnone
    case distinct => rw [hfst]; exact nodup_positions _
    case combinations =>
      intro _ is
      rw [hfst, mem_positions, SortedMap.values, List.map_map]
      rfl
    case taken =>
      rw [numbered_eq h]
      intro p hp
      obtain ⟨is, his, rfl⟩ := List.mem_map.1 hp
      exact takes_follow (mem_positions.1 his) ChoicePath.takes_start t.sets.increasing_keys

end Numbered

/-! ## Weights of paths at positions -/

def weightAt : List (String × List (Branch Rat)) → List Nat → Rat
  | s :: sets, i :: is => s.2[i]?.elim 1 Branch.weight * weightAt sets is
  | _, _ => 1

theorem weight_follow : ∀ (sets : List (String × List (Branch Rat))) (is : List Nat) (p : ChoicePath Rat),
    (follow sets is p).weight = p.weight * weightAt sets is
  | [], _, p => (Rat.mul_one p.weight).symm
  | _ :: _, [], p => (Rat.mul_one p.weight).symm
  | s :: sets, i :: is, p => by
    rw [follow, weight_follow sets is]
    cases hi : s.2[i]? with
    | none => simp [weightAt, hi]
    | some b => simp [weightAt, hi, ChoicePath.take, mul_assoc]

theorem weight_follow_start (sets : List (String × List (Branch Rat))) (is : List Nat) :
    (follow sets is (.start Scalar.one)).weight = weightAt sets is :=
  (weight_follow sets is _).trans (Rat.one_mul _)

/-- **The weights at positions that agree on the kept sets add up** to the weight there, times the totals of the others. -/
theorem sum_weightAt (keep : String → Bool) : ∀ (sets : List (String × List (Branch Rat))) (js : List Nat),
    js ∈ positions ((sets.filter (fun s => keep s.1)).map (fun s => s.2.length)) →
    (((positions (sets.map (fun s => s.2.length))).filter
      (fun is => decide (keptPositions keep (sets.map Prod.fst) is = js))).map (weightAt sets)).sum =
      weightAt (sets.filter (fun s => keep s.1)) js *
        ((sets.filter (fun s => !keep s.1)).map (fun s => setTotal s.2)).prod
  | [], js, hjs => by
    obtain rfl : js = [] := by simpa [positions] using hjs
    simp [positions, keptPositions, weightAt]
  | s :: sets, js, hjs => by
    cases hs : keep s.1 with
    | true =>
      rw [List.filter_cons_of_pos (by simpa using hs)] at hjs
      cases mem_positions.1 hjs with
      | @cons j _ js _ hj hjs =>
        have ih := sum_weightAt keep sets js (mem_positions.2 hjs)
        rw [List.map_cons, List.map_cons, filter_positions_kept hs hj, List.map_map]
        rw [List.filter_cons_of_pos (by simpa using hs), List.filter_cons_of_neg (by simp [hs])]
        simp only [Function.comp_def, weightAt]
        rw [List.sum_map_mul_left, ih, mul_assoc]
    | false =>
      rw [List.filter_cons_of_neg (by simp [hs])] at hjs
      have ih := sum_weightAt keep sets js hjs
      rw [List.map_cons, List.map_cons, filter_positions_dropped hs, List.map_flatMap, Exact.sum_flatMap]
      rw [List.filter_cons_of_neg (by simp [hs]), List.filter_cons_of_pos (by simp [hs])]
      simp only [List.map_map, Function.comp_def, weightAt, List.sum_map_mul_left, List.sum_map_mul_right]
      rw [ih, map_range_getElem?, ← Exact.sum_eq, List.map_cons, List.prod_cons, mul_left_comm]
      rfl

theorem sum_numbered {t : BranchSetTree Rat} (h : t.sets.isEmpty = false) (keep : String → Bool) (js : List Nat)
    (hjs : js ∈ positions ((t.sets.toList.filter (fun s => keep s.1)).map (fun s => s.2.length))) :
    (((t.numbered.filter (fun p => decide (keptPositions keep t.trts p.1 = js))).map Prod.snd).map
      ChoicePath.weight).sum = weightAt (t.sets.toList.filter (fun s => keep s.1)) js *
        ((t.sets.toList.filter (fun s => !keep s.1)).map (fun s => setTotal s.2)).prod := by
  rw [numbered_eq h, List.filter_map, List.map_map, List.map_map, ← sum_weightAt keep t.sets.toList js hjs]
  exact congrArg List.sum (List.map_congr_left fun is _ => weight_follow_start _ is)

/-- **The weights of all paths add up to the product of the totals of the sets.** -/
theorem sum_enumerate {t : BranchSetTree Rat} (h : t.sets.isEmpty = false) :
    Scalar.sum (t.enumerate.map ChoicePath.weight) = Scalar.product (t.sets.values.map setTotal) := by
  have hall := sum_numbered h (fun _ => false) [] (by simp [positions])
  have htotals : t.sets.values.map setTotal = t.sets.toList.map (fun s => setTotal s.2) := List.map_map
  rw [Exact.sum_eq, Exact.product_eq, htotals, ← (numbering t).paths]
  simpa [keptPositions, weightAt] using hall

theorem isEmpty_of_reduce {W : Type} {t : BranchSetTree W} {keep : SortedSet String}
    (h : (t.reduce keep).sets.isEmpty = false) : t.sets.isEmpty = false := by
  obtain ⟨s, hs⟩ := List.exists_mem_of_ne_nil _ (List.isEmpty_eq_false_iff.1 h)
  exact List.isEmpty_eq_false_iff.2 (List.ne_nil_of_mem (List.mem_of_mem_filter hs))

theorem sum_agreeing (t : BranchSetTree Rat) (keep : SortedSet String) {q : List Nat × ChoicePath Rat}
    (hq : q ∈ (t.reduce keep).numbered) : Scalar.sum ((t.agreeing keep q.1).map ChoicePath.weight) =
      q.2.weight * Scalar.product ((t.dropped keep).map setTotal) := by
  cases hkept : (t.reduce keep).sets.isEmpty with
  | true =>
    rw [numbered_of_isEmpty hkept] at hq
    cases hq
  | false =>
    rw [numbered_eq hkept] at hq
    obtain ⟨js, hjs, rfl⟩ := List.mem_map.1 hq
    have htotals : (t.dropped keep).map setTotal =
        (t.sets.toList.filter (fun s => !keep.contains s.1)).map (fun s => setTotal s.2) := List.map_map
    rw [Exact.sum_eq, Exact.product_eq, htotals, weight_follow_start]
    exact sum_numbered (isEmpty_of_reduce hkept) keep.contains js hjs

/-! ## Reducing -/

structure Restricted {W : Type} [Scalar W] (t : BranchSetTree W) (keep : SortedSet String) : Prop where
  trts : (t.reduce keep).trts = t.trts.filter keep.contains
  branches : ∀ trt, (t.reduce keep).branches? trt = if keep.contains trt = true then t.branches? trt else none
  again : ∀ keep', (t.reduce keep).reduce keep' = t.reduce (keep.inter keep')
  numbering : t.Numbering ∧ (t.reduce keep).Numbering

structure Marginal {W : Type} [Scalar W] (t : BranchSetTree W) (keep : SortedSet String) : Prop where
  summed : ∀ q ∈ (t.reduce keep).numbered, Scalar.sum ((t.agreeing keep q.1).map ChoicePath.weight) =
    q.2.weight * Scalar.product ((t.dropped keep).map setTotal)
  balanced : (∀ branches ∈ t.dropped keep, setTotal branches = Scalar.one) → ∀ q ∈ (t.reduce keep).numbered,
    Scalar.sum ((t.agreeing keep q.1).map ChoicePath.weight) = q.2.weight
  total : t.sets.isEmpty = false →
    Scalar.sum (t.enumerate.map ChoicePath.weight) = Scalar.product (t.sets.values.map setTotal)

theorem restricted {W : Type} [Scalar W] (t : BranchSetTree W) (keep : SortedSet String) : t.Restricted keep where
  trts := (List.filter_map (p := keep.contains)).symm
  branches := t.branches?_reduce keep
  again keep' := ext_branches? fun trt => by
    rw [branches?_reduce, branches?_reduce, branches?_reduce, SortedSet.contains_inter]
    cases keep.contains trt <;> simp
  numbering := ⟨numbering t, numbering _⟩

/-- **Reduction is marginalisation.**  A reduced tree has the sets to keep as they were, and to reduce it again keeps what
both times are to be kept.  On rationals, the paths that agree on the kept sets with a path of the reduced tree have
weights that add up to its weight, times the totals of the dropped sets. -/
theorem reduce_marginal (keep : SortedSet String) :
    (∀ {W : Type} [Scalar W] (t : BranchSetTree W), t.Restricted keep) ∧ ∀ t : BranchSetTree Rat, t.Marginal keep := by
  refine ⟨fun t => restricted t keep, fun t => ?_⟩
  constructor
  case summed => exact fun q hq => sum_agreeing t keep hq
  case balanced =>
    intro hone q hq
    rw [sum_agreeing t keep hq, Exact.product_of_ones (List.forall_mem_map.2 hone)]
    exact Rat.mul_one _
  case total => exact sum_enumerate

end BranchSetTree
end SeismicHazard
