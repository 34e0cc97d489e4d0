import SeismicHazard.Proofs.LogicTree.Coverage
import SeismicHazard.Proofs.LogicTree.Drawing
/-!
# Choices — which ground motion models the paths of a tree choose

A path that was drawn is one of those that are enumerated (`mem_enumerate_of_sample`), so what these choose is what can
be chosen at all.  Each chooses among the ground motion models of the tree (`mem_values_of_mem_enumerate`), and if there
is a path, then every ground motion model of every set is chosen by one (`exists_mem_enumerate`): the sets are
independent, so that a branch goes with any branches of the other sets.
-/
namespace SeismicHazard
namespace BranchSetTree

variable {W : Type} {t : BranchSetTree W}

/-! ## The ground motion models of a tree -/

theorem values_of_mem {s : String × List (Branch W)} (hs : s ∈ t.sets.toList) :
    t.values s.1 = s.2.map Branch.gsim := by
  have hget : t.branches? s.1 = some s.2 := SortedMap.get?_eq_some.2 hs
  rw [values, hget]
  rfl

theorem exists_branch_of_mem_values {trt gsim : String} (h : gsim ∈ t.values trt) :
    ∃ s ∈ t.sets.toList, s.1 = trt ∧ ∃ b ∈ s.2, b.gsim = gsim := by
  cases hget : t.branches? trt with
  | none =>
    rw [values, hget] at h
    cases h
  | some branches =>
    rw [values, hget] at h
    exact ⟨(trt, branches), SortedMap.get?_eq_some.1 hget, rfl, List.mem_map.1 h⟩

variable [Scalar W]

/-! ## Drawn paths -/

section Drawn

variable {G : Type} {index : PositionDraw W G}

theorem mem_extend {ps : List (ChoicePath W)} {p : ChoicePath W} (hp : p ∈ ps) {s : String × List (Branch W)}
    {b : Branch W} (hb : b ∈ s.2) : p.take s.1 b ∈ extend ps s :=
  List.mem_flatMap.2 ⟨p, hp, List.mem_map_of_mem hb⟩

/-- **A walk ends with one of the extensions** of the paths that it started among. -/
theorem mem_foldl_extend_of_walk : ∀ (sets : List (String × List (Branch W))) {ps : List (ChoicePath W)}
    {p q : ChoicePath W} {g g' : G}, p ∈ ps → walk index sets p g = .ok (q, g') → q ∈ sets.foldl extend ps
  | [], _, _, _, _, _, hp, h => by
    cases h
    exact hp
  | s :: sets, _, _, _, _, _, hp, h => by
    rw [walk] at h
    dsimp only at h
    split at h
    · cases h
    · rename_i b hb
      exact mem_foldl_extend_of_walk sets (mem_extend hp (List.mem_of_getElem? hb)) h

theorem mem_foldl_extend_of_walks {sets : List (String × List (Branch W))} : ∀ {n : Nat} {ps : List (ChoicePath W)}
    {g g' : G}, walks index sets n g = .ok (ps, g') → ∀ p ∈ ps, p ∈ sets.foldl extend [ChoicePath.start Scalar.one]
  | 0, _, _, _, h => by
    cases h
    exact fun p hp => by cases hp
  | n + 1, _, _, _, h => by
    obtain ⟨⟨p, g₁⟩, hp, h⟩ := Outcome.bind_eq_ok.1 h
    obtain ⟨⟨ps, g₂⟩, hps, h⟩ := Outcome.bind_eq_ok.1 h
    cases h
    refine List.forall_mem_cons.2 ⟨?_, mem_foldl_extend_of_walks hps⟩
    exact mem_foldl_extend_of_walk sets (List.mem_singleton_self _) hp

theorem mem_enumerate_of_sample [RandomSource G] {n : Nat} {g g' : G} {ps : List (ChoicePath W)}
    (h : t.sample n g = .ok (ps, g')) : ∀ p ∈ ps, p ∈ t.enumerate := by
  rw [sample_eq_sampleBy (distributed_of_sample (Outcome.isOk_iff.2 ⟨_, h⟩)), sampleBy] at h
  rw [enumerate]
  split at h
  · cases h
    exact fun p hp => by cases hp
  · rename_i hsome
    rw [if_neg hsome]
    exact mem_foldl_extend_of_walks h

end Drawn

/-! ## Every choice is of the tree -/

def ChoosesFrom (t : BranchSetTree W) (p : ChoicePath W) : Prop :=
  ∀ trt gsim, p.gsim? trt = some gsim → gsim ∈ t.values trt

theorem ChoosesFrom.take {p : ChoicePath W} (h : t.ChoosesFrom p) {s : String × List (Branch W)}
    (hs : s ∈ t.sets.toList) {b : Branch W} (hb : b ∈ s.2) : t.ChoosesFrom (p.take s.1 b) := by
  intro trt gsim hgsim
  rw [ChoicePath.gsim?_take] at hgsim
  split at hgsim
  · rename_i htrt
    cases hgsim
    rw [htrt, values_of_mem hs]
    exact List.mem_map_of_mem hb
  · exact h trt gsim hgsim

theorem choosesFrom_foldl_extend : ∀ {sets : List (String × List (Branch W))} {ps : List (ChoicePath W)},
    (∀ s ∈ sets, s ∈ t.sets.toList) → (∀ p ∈ ps, t.ChoosesFrom p) → ∀ p ∈ sets.foldl extend ps, t.ChoosesFrom p
  | [], _, _, h, p, hp => h p hp
  | s :: sets, ps, hsets, h, p, hp => by
    obtain ⟨hs, hsets⟩ := List.forall_mem_cons.1 hsets
    refine choosesFrom_foldl_extend hsets (fun q hq => ?_) p hp
    obtain ⟨q', hq', hq⟩ := List.mem_flatMap.1 hq
    obtain ⟨b, hb, rfl⟩ := List.mem_map.1 hq
    exact (h q' hq').take hs hb

theorem mem_values_of_mem_enumerate {p : ChoicePath W} (h : p ∈ t.enumerate) {trt gsim : String}
    (hgsim : p.gsim? trt = some gsim) : gsim ∈ t.values trt := by
  unfold enumerate at h
  split at h
  · cases h
  · refine choosesFrom_foldl_extend (fun s hs => hs) (fun q hq => ?_) p h trt gsim hgsim
    rw [List.mem_singleton.1 hq]
    intro trt' gsim' hnone
    cases hnone

/-! ## Every branch of the tree is a choice -/

theorem foldl_extend_nil : ∀ sets : List (String × List (Branch W)), sets.foldl extend [] = []
  | [] => rfl
  | _ :: sets => foldl_extend_nil sets

theorem ne_nil_of_foldl_extend : ∀ (sets : List (String × List (Branch W))) {ps : List (ChoicePath W)},
    sets.foldl extend ps ≠ [] → ∀ s ∈ sets, s.2 ≠ []
  | [], _, _, s, hs => by cases hs
  | s :: sets, ps, h, s', hs' => by
    rcases List.mem_cons.1 hs' with rfl | hs'
    · intro hnil
      refine h ?_
      have hextend : extend ps s' = [] := by simp [extend, hnil]
      rw [List.foldl_cons, hextend, foldl_extend_nil]
    · exact ne_nil_of_foldl_extend sets h s' hs'

/-- **A path has an extension by any sets with branches**, and it keeps its choices for the other tectonic region
types. -/
theorem exists_mem_foldl_extend : ∀ {sets : List (String × List (Branch W))} {ps : List (ChoicePath W)}
    {p : ChoicePath W}, (∀ s ∈ sets, s.2 ≠ []) → p ∈ ps →
    ∃ q ∈ sets.foldl extend ps, ∀ trt ∉ sets.map Prod.fst, q.gsim? trt = p.gsim? trt
  | [], _, p, _, hp => ⟨p, hp, fun _ _ => rfl⟩
  | s :: sets, ps, p, h, hp => by
    obtain ⟨hs, hsets⟩ := List.forall_mem_cons.1 h
    obtain ⟨b, hb⟩ := List.exists_mem_of_ne_nil _ hs
    obtain ⟨q, hq, hkept⟩ := exists_mem_foldl_extend hsets (mem_extend hp hb)
    refine ⟨q, hq, fun trt htrt => ?_⟩
    rw [List.map_cons, List.mem_cons, not_or] at htrt
    rw [hkept trt htrt.2, ChoicePath.gsim?_take, if_neg htrt.1]

/-- **If there is a path, each ground motion model of the tree is chosen by one.** -/
theorem exists_mem_enumerate (h : t.enumerate ≠ []) {trt gsim : String} (hgsim : gsim ∈ t.values trt) :
    ∃ p ∈ t.enumerate, p.gsim? trt = some gsim := by
  obtain ⟨s, hs, rfl, b, hb, rfl⟩ := exists_branch_of_mem_values hgsim
  unfold enumerate at h ⊢
  split at h
  · exact absurd rfl h
  · rename_i hsome
    rw [if_neg hsome]
    have hne := ne_nil_of_foldl_extend t.sets.toList h
    have hnodup := t.sets.nodup_keys
    obtain ⟨before, after, hsplit⟩ := List.append_of_mem hs
    change ((t.sets.toList).map Prod.fst).Nodup at hnodup
    rw [hsplit, List.map_append, List.map_cons] at hnodup
    rw [hsplit] at hne ⊢
    -- a path up to the set takes the branch and goes on, and no later set chooses for the same type
    obtain ⟨p, hp, -⟩ := exists_mem_foldl_extend (fun s' hs' => hne s' (List.mem_append_left _ hs'))
      (List.mem_singleton_self (ChoicePath.start (Scalar.one : W)))
    obtain ⟨q, hq, hkept⟩ := exists_mem_foldl_extend
      (fun s' hs' => hne s' (List.mem_append_right _ (List.mem_cons_of_mem s hs'))) (mem_extend hp hb)
    refine ⟨q, ?_, ?_⟩
    · rw [List.foldl_append, List.foldl_cons]
      exact hq
    · rw [hkept s.1 (List.nodup_cons.1 hnodup.of_append_right).1, ChoicePath.gsim?_take, if_pos rfl]

end BranchSetTree
end SeismicHazard
