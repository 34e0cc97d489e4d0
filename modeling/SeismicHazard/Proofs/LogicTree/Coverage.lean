import SeismicHazard.LogicTree.Enumeration
import SeismicHazard.LogicTree.Sampling
import SeismicHazard.Proofs.Outcome
/-!
# Coverage — every path chooses for the tectonic region types of its tree

A path that was enumerated (`covers_of_mem_enumerate`) or drawn (`covers_of_sample`) chooses a ground motion model for
exactly the tectonic region types of the tree.
-/
namespace SeismicHazard

variable {W : Type}

/-- A path chooses a ground motion model for exactly the given tectonic region types. -/
def ChoicePath.Covers (p : ChoicePath W) (trts : List String) : Prop :=
  ∀ trt, (p.gsim? trt).isSome = true ↔ trt ∈ trts

namespace ChoicePath

theorem gsim?_start (w : W) (trt : String) : (start w).gsim? trt = none := rfl

theorem gsim?_take [Scalar W] (p : ChoicePath W) (trt trt' : String) (b : Branch W) :
    (p.take trt b).gsim? trt' = if trt' = trt then some b.gsim else p.gsim? trt' := by
  unfold gsim? take withChoice
  rw [SortedMap.get?_insert]
  simp

theorem covers_start (w : W) : (start w).Covers [] := fun trt => by simp [gsim?_start]

theorem Covers.take [Scalar W] {p : ChoicePath W} {trts : List String} (h : p.Covers trts) (trt : String)
    (b : Branch W) : (p.take trt b).Covers (trts ++ [trt]) := by
  intro trt'
  rw [gsim?_take, List.mem_append, List.mem_singleton, ← h trt']
  by_cases e : trt' = trt <;> simp [e]

end ChoicePath

namespace BranchSetTree

open ChoicePath

variable [Scalar W]

/-! ## Enumerated paths -/

theorem covers_foldl_extend : ∀ (sets : List (String × List (Branch W))) (ps : List (ChoicePath W)) (trts : List String),
    (∀ p ∈ ps, p.Covers trts) → ∀ p ∈ sets.foldl extend ps, p.Covers (trts ++ sets.map Prod.fst)
  | [], ps, trts, h, p, hp => by simpa using h p hp
  | s :: sets, ps, trts, h, p, hp => by
    rw [List.map_cons, List.append_cons]
    refine covers_foldl_extend sets (extend ps s) (trts ++ [s.1]) (fun q hq => ?_) p hp
    obtain ⟨q', hq', hq⟩ := List.mem_flatMap.1 hq
    obtain ⟨b, -, rfl⟩ := List.mem_map.1 hq
    exact (h q' hq').take s.1 b

theorem covers_of_mem_enumerate {t : BranchSetTree W} {p : ChoicePath W} (h : p ∈ t.enumerate) : p.Covers t.trts := by
  unfold enumerate at h
  split at h
  · cases h
  · refine covers_foldl_extend t.sets.toList [start Scalar.one] [] (fun q hq => ?_) p h
    rw [List.mem_singleton.1 hq]
    exact covers_start _

/-! ## Drawn paths -/

variable {G : Type} [RandomSource G]

theorem covers_of_drawPath : ∀ (sets : List (DrawSet W)) (p : ChoicePath W) (g : G) (trts : List String)
    (q : ChoicePath W) (g' : G), p.Covers trts → drawPath sets p g = .ok (q, g') →
    q.Covers (trts ++ sets.map DrawSet.trt)
  | [], p, g, trts, q, g', hp, h => by
    cases h
    simpa using hp
  | s :: sets, p, g, trts, q, g', hp, h => by
    rw [List.map_cons, List.append_cons]
    simp only [drawPath] at h
    split at h
    · cases h
    · rename_i b _
      exact covers_of_drawPath sets _ _ (trts ++ [s.trt]) q g' (hp.take s.trt b) h

theorem covers_of_drawPaths (sets : List (DrawSet W)) : ∀ (n : Nat) (g : G) (ps : List (ChoicePath W)) (g' : G),
    drawPaths sets n g = .ok (ps, g') → ∀ p ∈ ps, p.Covers (sets.map DrawSet.trt)
  | 0, g, ps, g', h => by
    cases h
    simp
  | n + 1, g, ps, g', h => by
    obtain ⟨⟨p, g₁⟩, hp, h⟩ := Outcome.bind_eq_ok.1 h
    obtain ⟨⟨qs, _⟩, hqs, h⟩ := Outcome.bind_eq_ok.1 h
    cases h
    intro q hq
    rcases List.mem_cons.1 hq with rfl | hq
    · exact covers_of_drawPath sets _ g [] q g₁ (covers_start _) hp
    · exact covers_of_drawPaths sets n g₁ qs g' hqs q hq

theorem trts_of_drawSets {t : BranchSetTree W} {sets : List (DrawSet W)} (h : t.drawSets = .ok sets) :
    sets.map DrawSet.trt = t.trts := by
  have hall := Outcome.forall₂_of_mapM h
  have key : ∀ {l : List (String × List (Branch W))} {r : List (DrawSet W)}, List.Forall₂ (fun s d => (do
      let weights ← Weighted.ofWeights (s.2.map Branch.weight)
      return (⟨s.1, s.2, weights⟩ : DrawSet W)) = Except.ok d) l r → r.map DrawSet.trt = l.map Prod.fst := by
    intro l r hlr
    induction hlr with
    | nil => rfl
    | cons hd _ ih =>
      obtain ⟨w, -, hd⟩ := Outcome.bind_eq_ok.1 hd
      cases hd
      rw [List.map_cons, List.map_cons, ih]
  exact key hall

theorem covers_of_sample {t : BranchSetTree W} {n : Nat} {g g' : G} {ps : List (ChoicePath W)}
    (h : t.sample n g = .ok (ps, g')) : ∀ p ∈ ps, p.Covers t.trts := by
  unfold sample at h
  split at h
  · cases h
    simp
  · obtain ⟨sets, hsets, h⟩ := Outcome.bind_eq_ok.1 h
    rw [← trts_of_drawSets hsets]
    exact covers_of_drawPaths sets n g ps g' h

end BranchSetTree
end SeismicHazard
