import SeismicHazard.Proofs.Association.Delivery
import SeismicHazard.Proofs.Association.Folding
import SeismicHazard.Proofs.Number.Exact
/-!
# Exceedance — the probability that one of several events occurs

Combining probabilities multiplies the probabilities that the events do not occur.  So a realization gets the
complement of one product, with a factor for each time that a key lists it (`combineProbabilities_eq`), and what is
known of products of numbers between zero and one holds of it (`closed_form`).
-/
namespace SeismicHazard

variable {W : Type}

theorem aggregateProbability_eq (acc p : Rat) : aggregateProbability acc p = 1 - (1 - acc) * (1 - p) := rfl

theorem compl_aggregateProbability (acc p : Rat) : 1 - aggregateProbability acc p = (1 - acc) * (1 - p) := by
  rw [aggregateProbability_eq, sub_sub_cancel]

theorem compl_foldl_aggregate : ∀ (ps : List Rat) (acc : Rat),
    1 - ps.foldl aggregateProbability acc = (1 - acc) * (ps.map (fun p => 1 - p)).prod
  | [], acc => (mul_one _).symm
  | p :: ps, acc => by
    rw [List.foldl_cons, compl_foldl_aggregate ps, compl_aggregateProbability, List.map_cons, List.prod_cons, mul_assoc]

namespace Association

/-! ## Products -/

/-- The probability that nothing occurs of what the results give to a position, once for each time that it is listed. -/
def nonExceedance (a : Association W) (results : List (AssocKey × Rat)) (n : Nat) : Rat :=
  (results.map (fun e => (1 - e.2) ^ (a.ordinals e.1).count n)).prod

def Probable (results : List (AssocKey × Rat)) : Prop := ∀ e ∈ results, 0 ≤ e.2 ∧ e.2 ≤ 1

variable {a : Association W} {results results' : List (AssocKey × Rat)} {n : Nat}

theorem nonExceedance_cons (a : Association W) (e : AssocKey × Rat) (results : List (AssocKey × Rat)) (n : Nat) :
    a.nonExceedance (e :: results) n = (1 - e.2) ^ (a.ordinals e.1).count n * a.nonExceedance results n := by
  rw [nonExceedance, List.map_cons, List.prod_cons]
  rfl

theorem nonExceedance_append (a : Association W) (before after : List (AssocKey × Rat)) (n : Nat) :
    a.nonExceedance (before ++ after) n = a.nonExceedance before n * a.nonExceedance after n := by
  rw [nonExceedance, List.map_append, List.prod_append]
  rfl

theorem prod_reaching (a : Association W) (n : Nat) : ∀ results : List (AssocKey × Rat),
    ((a.reaching results n).map (fun p => 1 - p)).prod = a.nonExceedance results n
  | [] => rfl
  | e :: results => by
    rw [reaching_cons, List.map_append, List.prod_append, List.map_replicate, List.prod_replicate, prod_reaching a n,
      nonExceedance_cons]

theorem combineProbabilities_eq (a : Association W) (results : List (AssocKey × Rat)) :
    a.combineProbabilities results =
      (List.range a.realizations.length).map (fun n => 1 - a.nonExceedance results n) := by
  refine List.ext_getElem (by simp [combineProbabilities, length_combine]) fun n hn hn' => ?_
  have hlt : n < a.realizations.length := by simpa using hn'
  rw [List.getElem_map, List.getElem_range]
  refine Option.some.inj ?_
  rw [← List.getElem?_eq_getElem hn, combineProbabilities, getElem?_combine a _ _ results hlt]
  refine congrArg some (sub_right_injective (b := (1 : Rat)) ?_)
  change 1 - (a.reaching results n).foldl aggregateProbability 0 = 1 - (1 - a.nonExceedance results n)
  rw [compl_foldl_aggregate, prod_reaching, sub_zero, one_mul, sub_sub_cancel]

theorem nonExceedance_perm (a : Association W) (h : results.Perm results') (n : Nat) :
    a.nonExceedance results n = a.nonExceedance results' n := (h.map _).prod_eq

/-! ## Bounds -/

theorem factor_bounds {e : AssocKey × Rat} (h : 0 ≤ e.2 ∧ e.2 ≤ 1) (k : Nat) :
    0 ≤ (1 - e.2) ^ k ∧ (1 - e.2) ^ k ≤ 1 := by
  have hnonneg : 0 ≤ 1 - e.2 := sub_nonneg.2 h.2
  exact ⟨pow_nonneg hnonneg k, pow_le_one₀ hnonneg (sub_le_self 1 h.1)⟩

theorem nonExceedance_bounds (a : Association W) (h : Probable results) (n : Nat) :
    0 ≤ a.nonExceedance results n ∧ a.nonExceedance results n ≤ 1 := by
  induction results with
  | nil => exact ⟨zero_le_one, le_rfl⟩
  | cons e results ih =>
    obtain ⟨he, hresults⟩ := List.forall_mem_cons.1 h
    obtain ⟨hfactor, hfactor'⟩ := factor_bounds he ((a.ordinals e.1).count n)
    obtain ⟨hrest, hrest'⟩ := ih hresults
    rw [nonExceedance_cons]
    exact ⟨mul_nonneg hfactor hrest, mul_le_one₀ hfactor' hrest hrest'⟩

theorem nonExceedance_insert_le (a : Association W) {before after : List (AssocKey × Rat)} {e : AssocKey × Rat}
    (h : Probable (before ++ e :: after)) (n : Nat) :
    a.nonExceedance (before ++ e :: after) n ≤ a.nonExceedance (before ++ after) n := by
  obtain ⟨hbefore, hrest⟩ := List.forall_mem_append.1 h
  obtain ⟨he, hafter⟩ := List.forall_mem_cons.1 hrest
  rw [nonExceedance_append, nonExceedance_append, nonExceedance_cons]
  refine mul_le_mul_of_nonneg_left ?_ (nonExceedance_bounds a hbefore n).1
  exact mul_le_of_le_one_left (nonExceedance_bounds a hafter n).1 (factor_bounds he _).2

/-- **That nothing occurs is no likelier than that a result of the position does not occur.** -/
theorem nonExceedance_le_of_mem (h : Probable results) {e : AssocKey × Rat} (he : e ∈ results)
    (hn : n ∈ a.ordinals e.1) : a.nonExceedance results n ≤ 1 - e.2 := by
  have hbounds := h e he
  have hcount : (a.ordinals e.1).count n ≠ 0 := (List.count_pos_iff.2 hn).ne'
  have hfactor : (1 - e.2) ^ (a.ordinals e.1).count n ≤ 1 - e.2 :=
    pow_le_of_le_one (sub_nonneg.2 hbounds.2) (sub_le_self 1 hbounds.1) hcount
  obtain ⟨before, after, rfl⟩ := List.append_of_mem he
  obtain ⟨hbefore, hrest⟩ := List.forall_mem_append.1 h
  have hothers : Probable (before ++ after) := List.forall_mem_append.2 ⟨hbefore, (List.forall_mem_cons.1 hrest).2⟩
  calc a.nonExceedance (before ++ e :: after) n
      = (1 - e.2) ^ (a.ordinals e.1).count n * a.nonExceedance (before ++ after) n := by
        rw [nonExceedance_perm a List.perm_middle, nonExceedance_cons]
    _ ≤ (1 - e.2) ^ (a.ordinals e.1).count n :=
        mul_le_of_le_one_right (factor_bounds hbounds _).1 (nonExceedance_bounds a hothers n).2
    _ ≤ 1 - e.2 := hfactor

def Raised : List (AssocKey × Rat) → List (AssocKey × Rat) → Prop :=
  List.Forall₂ (fun e e' => e'.1 = e.1 ∧ e.2 ≤ e'.2)

theorem nonExceedance_antitone (a : Association W) (raised : Raised results results') (h : Probable results)
    (h' : Probable results') (n : Nat) : a.nonExceedance results' n ≤ a.nonExceedance results n := by
  induction raised with
  | nil => exact le_rfl
  | @cons e e' results results' hhead hraised ih =>
    obtain ⟨hkey, hle⟩ := hhead
    obtain ⟨he, hresults⟩ := List.forall_mem_cons.1 h
    obtain ⟨he', hresults'⟩ := List.forall_mem_cons.1 h'
    have hfactor : (1 - e'.2) ^ (a.ordinals e.1).count n ≤ (1 - e.2) ^ (a.ordinals e.1).count n :=
      pow_le_pow_left₀ (sub_nonneg.2 he'.2) (sub_le_sub_left hle 1) _
    rw [nonExceedance_cons, nonExceedance_cons, hkey]
    exact mul_le_mul hfactor (ih hresults hresults') (nonExceedance_bounds a hresults' n).1 (factor_bounds he _).1

/-! ## Extremes -/

theorem nonExceedance_eq_one (h : ∀ e ∈ results, n ∈ a.ordinals e.1 → e.2 = 0) : a.nonExceedance results n = 1 := by
  refine List.prod_eq_one (List.forall_mem_map.2 fun e he => ?_)
  by_cases hn : n ∈ a.ordinals e.1
  · rw [h e he hn, sub_zero, one_pow]
  · rw [List.count_eq_zero_of_not_mem hn, pow_zero]

theorem nonExceedance_eq_zero {e : AssocKey × Rat} (he : e ∈ results) (hn : n ∈ a.ordinals e.1) (hone : e.2 = 1) :
    a.nonExceedance results n = 0 := by
  refine List.prod_eq_zero (List.mem_map.2 ⟨e, he, ?_⟩)
  rw [hone, sub_self, zero_pow (List.count_pos_iff.2 hn).ne']

/-! ## Combined probabilities -/

structure ClosedForm (a : Association W) : Prop where
  /-- Every position that a key lists has a realization, so no result is passed over. -/
  listed : ∀ k, ∀ n ∈ a.ordinals k, n < a.realizations.length
  /-- A realization gets the complement of a product with one factor for each time that the key of a result lists it, -/
  closed : ∀ results, a.combineProbabilities results = (List.range a.realizations.length).map
    (fun n => 1 - (results.map (fun e : AssocKey × Rat => (1 - e.2) ^ (a.ordinals e.1).count n)).prod)
  /-- whatever the order of the results. -/
  reordered : ∀ results results' : List (AssocKey × Rat), results.Perm results' →
    a.combineProbabilities results = a.combineProbabilities results'
  /-- From probabilities come probabilities, -/
  probable : ∀ results, Probable results → ∀ x ∈ a.combineProbabilities results, 0 ≤ x ∧ x ≤ 1
  /-- none less than one that contributes to it. -/
  contributing : ∀ results, Probable results → ∀ n x, (a.combineProbabilities results)[n]? = some x →
    ∀ e ∈ results, n ∈ a.ordinals e.1 → e.2 ≤ x
  /-- With another result no realization gets less, -/
  added : ∀ before e after, Probable (before ++ e :: after) → List.Forall₂ (· ≤ ·)
    (a.combineProbabilities (before ++ after)) (a.combineProbabilities (before ++ e :: after))
  /-- nor with greater ones. -/
  raised : ∀ results results', Probable results → Probable results' → Raised results results' →
    List.Forall₂ (· ≤ ·) (a.combineProbabilities results) (a.combineProbabilities results')
  /-- It gets zero if all that contributes is zero, -/
  impossible : ∀ (results : List (AssocKey × Rat)) n x, (a.combineProbabilities results)[n]? = some x →
    (∀ e ∈ results, n ∈ a.ordinals e.1 → e.2 = 0) → x = 0
  /-- and one as soon as something that contributes is one. -/
  certain : ∀ (results : List (AssocKey × Rat)) n x, (a.combineProbabilities results)[n]? = some x →
    ∀ e ∈ results, n ∈ a.ordinals e.1 → e.2 = 1 → x = 1

theorem eq_of_getElem?_combineProbabilities {x : Rat} (h : (a.combineProbabilities results)[n]? = some x) :
    x = 1 - a.nonExceedance results n := by
  rw [combineProbabilities_eq, List.getElem?_map] at h
  obtain ⟨i, hi, rfl⟩ := Option.map_eq_some_iff.1 h
  obtain ⟨-, rfl⟩ := List.getElem?_eq_some_iff.1 hi
  rw [List.getElem_range]

theorem forall₂_combineProbabilities
    (h : ∀ n, a.nonExceedance results' n ≤ a.nonExceedance results n) :
    List.Forall₂ (· ≤ ·) (a.combineProbabilities results) (a.combineProbabilities results') := by
  rw [combineProbabilities_eq, combineProbabilities_eq, List.forall₂_map_left_iff, List.forall₂_map_right_iff]
  exact List.forall₂_same.2 fun n _ => sub_le_sub_left (h n) 1

/-- **Combined probabilities have a closed form**, and what is known of products follows for them. -/
theorem closed_form [Scalar W] {a : Association W} (obtained : a.Obtained) : a.ClosedForm := by
  constructor
  case listed => exact fun k n hn => obtained.lt_of_mem_ordinals hn
  case closed => exact combineProbabilities_eq a
  case reordered =>
    intro results results' h
    simp only [combineProbabilities_eq, nonExceedance_perm a h]
  case probable =>
    intro results h x hx
    rw [combineProbabilities_eq] at hx
    obtain ⟨n, -, rfl⟩ := List.mem_map.1 hx
    obtain ⟨hnonneg, hle⟩ := nonExceedance_bounds a h n
    exact ⟨sub_nonneg.2 hle, sub_le_self 1 hnonneg⟩
  case contributing =>
    intro results h n x hx e he hn
    rw [eq_of_getElem?_combineProbabilities hx]
    exact le_sub_comm.1 (nonExceedance_le_of_mem h he hn)
  case added => exact fun before e after h => forall₂_combineProbabilities (nonExceedance_insert_le a h)
  case raised => exact fun results results' h h' hraised =>
    forall₂_combineProbabilities (nonExceedance_antitone a hraised h h')
  case impossible =>
    intro results n x hx hzero
    rw [eq_of_getElem?_combineProbabilities hx, nonExceedance_eq_one hzero, sub_self]
  case certain =>
    intro results n x hx e he hn hone
    rw [eq_of_getElem?_combineProbabilities hx, nonExceedance_eq_zero he hn hone, sub_zero]

/-- Results for a key that lists a realization twice, and a certain one for a key that lists none. -/
def likelyResults : List (AssocKey × Rat) := [(⟨⟨1⟩, "A"⟩, 1 / 2), (⟨⟨2⟩, "A"⟩, 1), (⟨⟨1⟩, "A"⟩, 1 / 3)]

theorem closed_form_likely : ∃ a, ofParts .empty collecting twiceListed = .ok a ∧ a.Obtained ∧ a.ClosedForm ∧
    a.combineProbabilities likelyResults = [2 / 3, 8 / 9, 2 / 3] := by
  have parts : ∃ a, ofParts .empty collecting twiceListed = .ok a ∧
      a.combineProbabilities likelyResults = [2 / 3, 8 / 9, 2 / 3] := ⟨_, rfl, by decide +kernel⟩
  obtain ⟨a, ha, hcombined⟩ := parts
  have obtained : a.Obtained := .assembled _ _ _ ha
  exact ⟨a, ha, obtained, closed_form obtained, hcombined⟩

end Association
end SeismicHazard
