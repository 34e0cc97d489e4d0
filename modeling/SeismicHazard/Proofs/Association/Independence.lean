import SeismicHazard.Proofs.Association.Viability
/-!
# Independence — the draws of a source model depend on nothing else

The paths of a source model are drawn from a generator of its own, which is seeded by the seed of the sampling and the
number of the model.  Drawing more paths from one state goes on after the ones that fewer draws give (`drawPaths_add`,
`sample_isPrefix`), and the part of a model in an association is made of its own paths whatever models are added before
and after it (`choices_addModel`, `choices_addModels`).  So two samplings with one seed agree on the draws of a model
that they share (`draws_independent`).
-/
namespace SeismicHazard

variable {S S' W : Type} [Scalar W]

/-! ## More draws from one state -/

namespace BranchSetTree

variable {G : Type} [RandomSource G]

theorem drawPaths_add {sets : List (DrawSet W)} (k : Nat) : ∀ {n : Nat} {g g' : G} {ps : List (ChoicePath W)},
    drawPaths sets (n + k) g = .ok (ps, g') →
    ∃ qs g₁ rs, drawPaths sets n g = .ok (qs, g₁) ∧ drawPaths sets k g₁ = .ok (rs, g') ∧ ps = qs ++ rs
  | 0, g, _, ps, h => ⟨[], g, ps, rfl, by rwa [Nat.zero_add] at h, rfl⟩
  | n + 1, g, _, _, h => by
    rw [Nat.add_right_comm, drawPaths] at h
    obtain ⟨⟨p, g₁⟩, hp, h⟩ := Outcome.bind_eq_ok.1 h
    obtain ⟨⟨ps, g₂⟩, hps, h⟩ := Outcome.bind_eq_ok.1 h
    cases h
    obtain ⟨qs, g₃, rs, hqs, hrs, rfl⟩ := drawPaths_add k hps
    refine ⟨p :: qs, g₃, rs, ?_, hrs, rfl⟩
    rw [drawPaths]
    exact Outcome.bind_eq_ok.2 ⟨_, hp, Outcome.bind_eq_ok.2 ⟨_, hqs, rfl⟩⟩

theorem sample_isPrefix {t : BranchSetTree W} {n n' : Nat} (hn : n ≤ n') {g g₁ g₁' : G} {ps ps' : List (ChoicePath W)}
    (h : t.sample n g = .ok (ps, g₁)) (h' : t.sample n' g = .ok (ps', g₁')) : ps <+: ps' := by
  unfold sample at h h'
  split at h
  · rename_i hempty
    rw [if_pos hempty] at h'
    cases h
    cases h'
    exact List.prefix_refl []
  · rename_i hne
    rw [if_neg hne] at h'
    obtain ⟨sets, hsets, h⟩ := Outcome.bind_eq_ok.1 h
    obtain ⟨_, hsets', h'⟩ := Outcome.bind_eq_ok.1 h'
    cases hsets.symm.trans hsets'
    obtain ⟨k, rfl⟩ := Nat.exists_eq_add_of_le hn
    obtain ⟨qs, _, rs, hqs, -, rfl⟩ := drawPaths_add k h'
    cases h.symm.trans hqs
    exact List.prefix_append ps rs

end BranchSetTree

/-! ## Models that are drawn alike -/

/-- Models whose draws are the same: they have one number, one tree and the same live tectonic region types. -/
structure SourceModel.DrawnAlike (weight : SourceGroup S → W) (weight' : SourceGroup S' → W) (m : SourceModel S W)
    (m' : SourceModel S' W) : Prop where
  ordinal : m.ordinal = m'.ordinal
  tree : m.tree = m'.tree
  live : m.liveTrts weight = m'.liveTrts weight'

namespace SourceModel

variable {weight : SourceGroup S → W} {weight' : SourceGroup S' → W} {m : SourceModel S W} {m' : SourceModel S' W}

theorem DrawnAlike.symm (h : DrawnAlike weight weight' m m') : DrawnAlike weight' weight m' m :=
  ⟨h.ordinal.symm, h.tree.symm, h.live.symm⟩

theorem DrawnAlike.reduced (h : DrawnAlike weight weight' m m') :
    (m.reduceToLive weight).tree = (m'.reduceToLive weight').tree := by
  change m.tree.reduce _ = m'.tree.reduce _
  rw [h.tree, h.live]

/-- **With one seed, fewer samples give the first of the paths that more samples give.** -/
theorem DrawnAlike.paths_isPrefix (h : DrawnAlike weight weight' m m') {sampling sampling' : SamplingSettings}
    (hs : sampling.isSampling = true) (hs' : sampling'.isSampling = true) (seeds : sampling.seed = sampling'.seed)
    (hle : m.samples ≤ m'.samples) {ps ps' : List (ChoicePath W)}
    (hps : (m.reduceToLive weight).paths sampling = .ok ps)
    (hps' : (m'.reduceToLive weight').paths sampling' = .ok ps') : ps <+: ps' := by
  have hseed : sampling.seedFor m.ordinal = sampling'.seedFor m'.ordinal := by
    rw [SamplingSettings.seedFor, SamplingSettings.seedFor, seeds, h.ordinal]
  unfold paths at hps hps'
  rw [if_pos hs, h.reduced] at hps
  rw [if_pos hs'] at hps'
  obtain ⟨⟨qs, g⟩, hqs, rfl⟩ := Outcome.map_eq_ok.1 hps
  obtain ⟨⟨qs', g'⟩, hqs', rfl⟩ := Outcome.map_eq_ok.1 hps'
  change BranchSetTree.sample _ m.samples (Generator.seeded (sampling.seedFor m.ordinal)) = _ at hqs
  rw [hseed] at hqs
  exact BranchSetTree.sample_isPrefix hle hqs hqs'

theorem DrawnAlike.isSkipped (h : DrawnAlike weight weight' m m') : m.isSkipped weight = m'.isSkipped weight' := by
  rw [← isEmpty_reduceToLive, ← isEmpty_reduceToLive, h.reduced]

end SourceModel

/-! ## The paths of one model among others -/

namespace Association

def drawnPaths (a : Association W) (m : SourceModel S W) : List (ChoicePath W) :=
  (a.realizationsOf m.ordinal).map Realization.choice

variable {sampling : SamplingSettings} {weight : SourceGroup S → W}

/-- **A model with paths replaces the part with its number by these paths**, and no other part changes. -/
theorem choices_addModel {m : SourceModel S W} {a a' : Association W} (ha : a.Ranged)
    (h : (addModel sampling m a).2 = .ok a') : a'.Ranged ∧ ∃ ps, m.paths sampling = .ok ps ∧
      ∀ i, (a'.realizationsOf i).map Realization.choice =
        if i = m.ordinal ∧ ps ≠ [] then ps else (a.realizationsOf i).map Realization.choice := by
  rcases addModel_ok h with ⟨hps, rfl⟩ | ⟨ps, b, hne, hps, hb, rfl⟩
  · exact ⟨ha, [], hps, fun i => by rw [if_neg fun hi => hi.2 rfl]⟩
  · obtain ⟨new, hnew, hby, -, rfl⟩ := addPaths_extends m ps 0 m.groups a b hb
    refine ⟨ha.noteModel hnew hby m.ordinal, _, hps, fun i => ?_⟩
    rw [realizationsOf_noteModel ha hnew hby]
    by_cases hi : i = m.ordinal
    · rw [if_pos hi, if_pos ⟨hi, hne⟩]
    · rw [if_neg hi, if_neg fun hand => hi hand.1]

/-- **The part with a number holds the paths of the models with this number**, if these are the same for all of them. -/
theorem choices_addModels {k : Nat} {ps : List (ChoicePath W)} : ∀ (ms : List (SourceModel S W)) (a a' : Association W),
    a.Ranged → (∀ m ∈ ms, m.ordinal = k → (m.reduceToLive weight).paths sampling = .ok ps) →
    ((a.realizationsOf k).map Realization.choice = ps ∨ a.realizationsOf k = [] ∧ ∃ m ∈ ms, m.ordinal = k) →
    (addModels sampling weight ms a).2 = .ok a' → (a'.realizationsOf k).map Realization.choice = ps
  | [], a, a', _, _, hk, h => by
    cases h
    exact hk.resolve_right (by simp)
  | m :: ms, a, a', ha, hpaths, hk, h => by
    rw [addModels] at h
    dsimp only at h
    split at h
    · cases h
    · rename_i b hb
      obtain ⟨hb', qs, hqs, hparts⟩ := choices_addModel ha hb
      refine choices_addModels ms b a' hb' (fun m' hm' => hpaths m' (List.mem_cons_of_mem m hm')) ?_ h
      have hpart := hparts k
      by_cases hord : k = m.ordinal
      · -- without paths the model adds no part, and there was none or an empty one
        left
        cases hqs.symm.trans (hpaths m (List.mem_cons_self ..) hord.symm)
        by_cases hps : ps = []
        · rw [hpart, if_neg fun hand => hand.2 hps]
          rcases hk with hk | ⟨hk, -⟩
          · exact hk
          · rw [hk, hps]
            rfl
        · rw [hpart, if_pos ⟨hord, hps⟩]
      · rw [if_neg fun hand => hord hand.1] at hpart
        rcases hk with hk | ⟨hk, m', hm', hord'⟩
        · exact Or.inl (hpart.trans hk)
        · rw [hk] at hpart
          refine Or.inr ⟨List.map_eq_nil_iff.1 hpart, m', (List.mem_cons.1 hm').resolve_left ?_, hord'⟩
          rintro rfl
          exact hord hord'.symm

end Association

/-! ## Built associations -/

theorem getElem?_eq_of_isPrefix {α : Type} {l l' : List α} (h : l <+: l') {i : Nat}
    (hi : l.length ≤ i → l'.length ≤ i) : l[i]? = l'[i]? := by
  rcases Nat.lt_or_ge i l.length with hlt | hge
  · rw [List.prefix_iff_getElem?.1 h i hlt, List.getElem?_eq_getElem hlt]
  · rw [List.getElem?_eq_none hge, List.getElem?_eq_none (hi hge)]

namespace Composite

structure Distinguishes (c : Composite S W) (m : SourceModel S W) : Prop where
  mem : m ∈ c.models
  unique : ∀ m' ∈ c.models, m'.ordinal = m.ordinal → m' = m

variable {c : Composite S W} {c' : Composite S' W} {weight : SourceGroup S → W} {weight' : SourceGroup S' → W}
  {m : SourceModel S W} {m' : SourceModel S' W} {a a' : Association W}

/-- **The part of a model is made of the paths of the model**, whatever the other models are. -/
theorem paths_of_associateBy (h : (c.associateBy weight).2 = .ok a) (hm : c.Distinguishes m) :
    (m.reduceToLive weight).paths c.sampling = .ok (a.drawnPaths m) := by
  obtain ⟨b, f, rfl, hb⟩ := associateBy_added h
  obtain ⟨cs, hcs, -, -⟩ := Association.exists_contributions hb
  have hordered := fun m' => (byOrdinal_perm c.models).mem_iff (a := m')
  obtain ⟨x, -, hmodel, hpaths⟩ := exists_right_of_forall₂ hcs m ((hordered m).2 hm.mem)
  rw [hmodel] at hpaths
  have hchoices : (b.realizationsOf m.ordinal).map Realization.choice = x.paths := by
    refine Association.choices_addModels _ _ b (Association.attributed_empty (S := S) c.composition).ranged
      (fun m' hm' hord => ?_) (Or.inr ⟨rfl, m, (hordered m).2 hm.mem, rfl⟩) hb
    rw [hm.unique m' ((hordered m').1 hm') hord]
    exact hpaths
  rw [hpaths, Association.drawnPaths, Association.realizationsOf_reweight, List.map_map, ← hchoices]
  rfl

theorem length_drawnPaths (h : (c.associateBy weight).2 = .ok a) (drawn : c.sampling.isSampling = true)
    (hm : c.Distinguishes m) : (a.drawnPaths m).length = if m.isSkipped weight then 0 else m.samples :=
  Association.length_paths drawn (paths_of_associateBy h hm)

/-- How the draws of a model of one composite and those of a model of another agree. -/
structure DrawsAgree (weight : SourceGroup S → W) (m : SourceModel S W) (m' : SourceModel S' W) (a a' : Association W) :
    Prop where
  /-- Each draw that both models make follows the same path, -/
  drawn : ∀ i, i < m.samples → i < m'.samples → (a.drawnPaths m)[i]? = (a'.drawnPaths m')[i]?
  /-- and there is a path unless the model is skipped. -/
  present : ∀ i, i < m.samples → (((a.drawnPaths m)[i]?).isSome = !m.isSkipped weight)
  /-- More samples only append draws, -/
  appended : m.samples ≤ m'.samples → a.drawnPaths m <+: a'.drawnPaths m'
  /-- and as many samples leave all of them as they are. -/
  unchanged : m.samples = m'.samples → a.drawnPaths m = a'.drawnPaths m'

/-- **The draws of a model depend on nothing but the seed, its number, its tree and its live groups.** -/
theorem draws_independent (weight : SourceGroup S → W) (weight' : SourceGroup S' → W) (c : Composite S W)
    (c' : Composite S' W) (drawn : c.sampling.isSampling = true) (drawn' : c'.sampling.isSampling = true)
    (seeds : c.sampling.seed = c'.sampling.seed) (a a' : Association W) (h : (c.associateBy weight).2 = .ok a)
    (h' : (c'.associateBy weight').2 = .ok a') (m : SourceModel S W) (hm : c.Distinguishes m) (m' : SourceModel S' W)
    (hm' : c'.Distinguishes m') (alike : SourceModel.DrawnAlike weight weight' m m') :
    DrawsAgree weight m m' a a' := by
  have hpaths := paths_of_associateBy h hm
  have hpaths' := paths_of_associateBy h' hm'
  have hlength := length_drawnPaths h drawn hm
  have hlength' := length_drawnPaths h' drawn' hm'
  rw [← alike.isSkipped] at hlength'
  have happended : m.samples ≤ m'.samples → a.drawnPaths m <+: a'.drawnPaths m' := fun hle =>
    alike.paths_isPrefix drawn drawn' seeds hle hpaths hpaths'
  constructor
  case drawn =>
    intro i hi hi'
    rcases Nat.le_total m.samples m'.samples with hle | hle
    · refine getElem?_eq_of_isPrefix (happended hle) ?_
      rw [hlength, hlength']
      split <;> omega
    · refine (getElem?_eq_of_isPrefix (alike.symm.paths_isPrefix drawn' drawn seeds.symm hle hpaths' hpaths) ?_).symm
      rw [hlength, hlength']
      split <;> omega
  case present =>
    intro i hi
    cases hskip : m.isSkipped weight
    · rw [List.getElem?_eq_getElem (by rwa [hlength, hskip])]
      rfl
    · rw [List.getElem?_eq_none (by simp [hlength, hskip])]
      rfl
  case appended => exact happended
  case unchanged =>
    intro heq
    refine (happended (Nat.le_of_eq heq)).eq_of_length ?_
    rw [hlength, hlength', heq]

def twoRegions : BranchSetTree Rat :=
  ⟨.ofList [("Active", [⟨"b1", "A", 1 / 2⟩, ⟨"b2", "B", 1 / 2⟩]), ("Stable", [⟨"b3", "C", 1 / 4⟩, ⟨"b4", "D", 3 / 4⟩])]⟩

def lone : SourceModel Unit Rat :=
  ⟨"lone", 1, ["s1"], [{ id := ⟨0⟩, trt := "Active", ruptures := 2 }, { id := ⟨1⟩, trt := "Stable", ruptures := 1 }],
    twoRegions, 3, 2⟩

/-- A model with its number and its tree that is drawn more often, and from other groups. -/
def crowded : SourceModel Unit Rat :=
  ⟨"crowded", 1 / 2, ["s2"], [{ id := ⟨5⟩, trt := "Stable" }, { id := ⟨9⟩, trt := "Active" }], twoRegions, 3, 4⟩

def neighbour : SourceModel Unit Rat :=
  ⟨"neighbour", 1 / 2, ["s1"], [{ id := ⟨0⟩, trt := "Stable" }], twoRegions, 1, 3⟩

theorem draws_independent_loneAndCrowded :
    (ofModels [lone] { samples := 2 }).Distinguishes lone ∧
    (ofModels [crowded, neighbour] { samples := 7 }).Distinguishes crowded ∧
    SourceModel.DrawnAlike ruptureCount (fun _ => 1) lone crowded ∧
    ∃ a a', ((ofModels [lone] { samples := 2 }).associateBy ruptureCount).2 = .ok a ∧
      ((ofModels [crowded, neighbour] { samples := 7 }).associateBy (fun _ => 1)).2 = .ok a' ∧
      DrawsAgree ruptureCount lone crowded a a' ∧
      (a.drawnPaths lone).map ChoicePath.branchIds = [["b1", "b3"], ["b2", "b4"]] ∧
      (a'.drawnPaths crowded).map ChoicePath.branchIds = [["b1", "b3"], ["b2", "b4"], ["b2", "b4"], ["b1", "b4"]] := by
  have hlone : (ofModels [lone] { samples := 2 }).Distinguishes lone :=
    ⟨List.mem_singleton_self lone, fun m hm _ => List.mem_singleton.1 hm⟩
  have hcrowded : (ofModels [crowded, neighbour] { samples := 7 }).Distinguishes crowded := by
    refine ⟨List.mem_cons_self .., fun m hm hord => (List.mem_pair.1 hm).resolve_right ?_⟩
    rintro rfl
    cases hord
  have alike : SourceModel.DrawnAlike ruptureCount (fun _ => 1) lone crowded := ⟨rfl, rfl, by decide +kernel⟩
  have drawn : ((ofModels [lone] { samples := 2 }).associateBy ruptureCount).2.toOption.map (fun a =>
      (a.drawnPaths lone).map ChoicePath.branchIds) = some [["b1", "b3"], ["b2", "b4"]] := by
    decide +kernel
  have drawn' : ((ofModels [crowded, neighbour] { samples := 7 }).associateBy (fun _ => 1)).2.toOption.map (fun a =>
      (a.drawnPaths crowded).map ChoicePath.branchIds) =
        some [["b1", "b3"], ["b2", "b4"], ["b2", "b4"], ["b1", "b4"]] := by
    decide +kernel
  obtain ⟨a, ha, hdrawn⟩ := Outcome.map_toOption_eq_some.1 drawn
  obtain ⟨a', ha', hdrawn'⟩ := Outcome.map_toOption_eq_some.1 drawn'
  exact ⟨hlone, hcrowded, alike, a, a', ha, ha',
    draws_independent ruptureCount (fun _ => 1) (ofModels [lone] { samples := 2 })
      (ofModels [crowded, neighbour] { samples := 7 }) (by decide) (by decide) rfl a a' ha ha' lone hlone crowded
      hcrowded alike, hdrawn, hdrawn'⟩

end Composite
end SeismicHazard
