import SeismicHazard.LogicTree.Enumeration
import SeismicHazard.LogicTree.Sampling
import SeismicHazard.Proofs.Outcome
import SeismicHazard.Proofs.Pairing
/-!
# Counting — how many paths a tree gives, and when it gives them

A tree enumerates as many paths as the product of the sizes of its sets (`length_enumerate`), which is the number that it
tells if a word holds it (`numPaths_eq`), and gives as many drawn paths as are asked for, or none if it has no sets
(`length_of_sample`).  Drawing breaks down only at a set without
branches or with a total that is not finite, so it succeeds for a tree without such sets (`sample_of_drawable`).
-/
namespace SeismicHazard
namespace BranchSetTree

variable {W : Type} [Scalar W]

/-! ## Enumerated paths -/

theorem length_extend (ps : List (ChoicePath W)) (set : String × List (Branch W)) :
    (extend ps set).length = ps.length * set.2.length := by
  unfold extend
  induction ps with
  | nil => simp
  | cons p ps ih =>
    rw [List.flatMap_cons, List.length_append, ih, List.length_map, List.length_cons, Nat.succ_mul, Nat.add_comm]

theorem length_foldl_extend : ∀ (sets : List (String × List (Branch W))) (ps : List (ChoicePath W)),
    (sets.foldl extend ps).length = (sets.map (fun s => s.2.length)).foldl (· * ·) ps.length
  | [], _ => rfl
  | s :: sets, ps => by
    rw [List.foldl_cons, length_foldl_extend sets, length_extend]
    rfl

def numCombinations (t : BranchSetTree W) : Nat :=
  if t.sets.isEmpty then 0 else (t.sets.values.map List.length).foldl (· * ·) 1

omit [Scalar W] in
/-- **A tree tells how many combinations it has**, as far as a word holds the number. -/
theorem numPaths_eq (t : BranchSetTree W) : t.numPaths = wrap t.numCombinations := by
  unfold numPaths numCombinations
  split
  · rfl
  · exact wordProduct_eq _

theorem length_enumerate (t : BranchSetTree W) : t.enumerate.length = t.numCombinations := by
  unfold enumerate numCombinations
  split
  · rfl
  · rw [length_foldl_extend]
    simp only [SortedMap.values, SortedMap.toList, List.map_map]
    rfl

/-! ## Drawn paths -/

variable {G : Type} [RandomSource G]

theorem length_of_drawPaths (sets : List (DrawSet W)) : ∀ (n : Nat) (g : G) (ps : List (ChoicePath W)) (g' : G),
    drawPaths sets n g = .ok (ps, g') → ps.length = n
  | 0, g, ps, g', h => by
    cases h
    rfl
  | n + 1, g, ps, g', h => by
    obtain ⟨⟨p, g₁⟩, -, h⟩ := Outcome.bind_eq_ok.1 h
    obtain ⟨⟨qs, _⟩, hqs, h⟩ := Outcome.bind_eq_ok.1 h
    cases h
    rw [List.length_cons, length_of_drawPaths sets n g₁ qs g' hqs]

/-- **A tree gives as many drawn paths as are asked for**; without sets it gives none. -/
theorem length_of_sample {t : BranchSetTree W} {n : Nat} {g g' : G} {ps : List (ChoicePath W)}
    (h : t.sample n g = .ok (ps, g')) : ps.length = if t.sets.isEmpty then 0 else n := by
  unfold sample at h
  split at h
  · rename_i hempty
    cases h
    rw [if_pos hempty]
    rfl
  · rename_i hempty
    obtain ⟨sets, -, h⟩ := Outcome.bind_eq_ok.1 h
    rw [if_neg hempty]
    exact length_of_drawPaths sets n g ps g' h

end BranchSetTree

/-! ## Trees that can be drawn from -/

theorem Weighted.length_partialSums {W : Type} [Scalar W] : ∀ (ws : List W) (s : W),
    (partialSums s ws).length = ws.length
  | [], _ => rfl
  | w :: ws, s => by rw [partialSums, List.length_cons, List.length_cons, length_partialSums ws (s + w)]

theorem Weighted.draw_lt {W : Type} [Scalar W] {G : Type} [RandomSource G] {ws : List W} (hws : ws ≠ [])
    {d : Option (Weighted W)} (hd : ofWeights ws = .ok d) (g : G) : (draw d g).1 < ws.length := by
  cases ws with
  | nil => exact absurd rfl hws
  | cons w ws =>
    cases d with
    | none => exact Nat.zero_lt_succ _
    | some d =>
      have hlen : d.sums.length = ws.length := by
        unfold ofWeights at hd
        dsimp only at hd
        split at hd
        · split at hd
          · cases hd
            exact length_partialSums ws w
          · cases hd
        · cases hd
      have hcount : (draw (some d) g).1 ≤ d.sums.length := List.countP_le_length
      rw [List.length_cons]
      omega

namespace BranchSetTree

variable {W : Type} [Scalar W] {G : Type} [RandomSource G]

/-- A branch set that can be drawn from: it has a branch, and the total of its weights does not break down. -/
structure Drawable (branches : List (Branch W)) : Prop where
  nonempty : branches ≠ []
  total : (Weighted.ofWeights (branches.map Branch.weight)).isOk = true

def DrawSet.Ready (s : DrawSet W) : Prop :=
  s.branches ≠ [] ∧ Weighted.ofWeights (s.branches.map Branch.weight) = .ok s.weights

theorem drawSets_of_drawable {t : BranchSetTree W} (h : ∀ s ∈ t.sets.toList, Drawable s.2) :
    ∃ sets, t.drawSets = .ok sets ∧ ∀ s ∈ sets, s.Ready := by
  obtain ⟨sets, hsets⟩ : ∃ sets, t.drawSets = .ok sets := Outcome.exists_mapM fun s hs => by
    obtain ⟨weights, hw⟩ := Outcome.isOk_iff.1 (h s hs).total
    rw [hw]
    rfl
  refine ⟨sets, hsets, fun d hd => ?_⟩
  obtain ⟨s, hs, hd⟩ := exists_left_of_forall₂ (Outcome.forall₂_of_mapM hsets) d hd
  obtain ⟨weights, hw, hd⟩ := Outcome.bind_eq_ok.1 hd
  cases hd
  exact ⟨(h s hs).nonempty, hw⟩

theorem drawPath_of_ready : ∀ {sets : List (DrawSet W)}, (∀ s ∈ sets, s.Ready) → ∀ (p : ChoicePath W) (g : G),
    ∃ q g', drawPath sets p g = .ok (q, g')
  | [], _, p, g => ⟨p, g, rfl⟩
  | s :: sets, h, p, g => by
    obtain ⟨hne, hw⟩ := h s (List.mem_cons_self ..)
    have hlt := Weighted.draw_lt (by simpa using hne) hw g
    rw [List.length_map] at hlt
    rw [drawPath]
    dsimp only
    rw [List.getElem?_eq_getElem hlt]
    exact drawPath_of_ready (fun s' hs' => h s' (List.mem_cons_of_mem _ hs')) _ _

theorem drawPaths_of_ready {sets : List (DrawSet W)} (h : ∀ s ∈ sets, s.Ready) : ∀ (n : Nat) (g : G),
    ∃ ps g', drawPaths sets n g = .ok (ps, g')
  | 0, g => ⟨[], g, rfl⟩
  | n + 1, g => by
    obtain ⟨p, g₁, hp⟩ := drawPath_of_ready h (ChoicePath.start Scalar.one) g
    obtain ⟨ps, g₂, hps⟩ := drawPaths_of_ready h n g₁
    refine ⟨p :: ps, g₂, ?_⟩
    rw [drawPaths, hp]
    change (drawPaths sets n g₁ >>= _) = _
    rw [hps]
    rfl

theorem sample_of_drawable {t : BranchSetTree W} (h : ∀ s ∈ t.sets.toList, Drawable s.2) (n : Nat) (g : G) :
    ∃ ps g', t.sample n g = .ok (ps, g') := by
  unfold sample
  split
  · exact ⟨[], g, rfl⟩
  · obtain ⟨sets, hsets, hready⟩ := drawSets_of_drawable h
    rw [hsets]
    exact drawPaths_of_ready hready n g

end BranchSetTree
end SeismicHazard
