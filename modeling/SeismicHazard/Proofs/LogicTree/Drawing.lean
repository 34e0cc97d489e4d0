import SeismicHazard.Proofs.LogicTree.Checking
/-!
# Drawing — a drawn path is one of the enumerated paths

Drawing walks through the sets and takes one branch of each, enumerating continues every path by every branch.  So what
a walk ends with is among the extensions of what it started with, weight included (`exists_walk`).  That holds for any
way to draw a position by weight, as long as a position is one of those that there are; the distributions of `Weighted`
are such a way, and where none of them breaks down a sampling is a series of walks with them (`sample_eq_sampleBy`).  A
distribution breaks down if its weights add up to infinity; trees that were put together by adding sets have no such set
(`sample_enumerated`), but a document may have one (`sample_overweight`).
-/
namespace SeismicHazard

/-- How positions are drawn by weight: for some weights, a function from states to a position and the next state, or
none if the weights are refused. -/
abbrev PositionDraw (W G : Type) : Type := List W → Option (G → Nat × G)

namespace PositionDraw

variable {W G : Type}

def Below (index : PositionDraw W G) : Prop := ∀ ws draw, index ws = some draw → ∀ g, (draw g).1 < ws.length

/-- A drawn position and the next state; for weights that are refused, the first position and the same state. -/
def position (index : PositionDraw W G) (ws : List W) (g : G) : Nat × G :=
  match index ws with
  | some draw => draw g
  | none => (0, g)

theorem position_lt {index : PositionDraw W G} (h : index.Below) {ws : List W} (hws : ws ≠ []) (g : G) :
    (index.position ws g).1 < ws.length := by
  unfold position
  split
  · rename_i draw hdraw
    exact h ws draw hdraw g
  · exact List.length_pos_iff.2 hws

end PositionDraw

/-- Drawing by the distributions of weights; a total that is not finite counts as refused. -/
def Weighted.index {W : Type} [Scalar W] {G : Type} [RandomSource G] : PositionDraw W G := fun ws =>
  match ofWeights ws with
  | .ok (some d) => some (draw (some d))
  | _ => none

theorem Weighted.index_below {W : Type} [Scalar W] {G : Type} [RandomSource G] :
    (Weighted.index : PositionDraw W G).Below := by
  intro ws draw hdraw g
  unfold index at hdraw
  split at hdraw
  · rename_i d hd
    cases hdraw
    exact draw_lt (fun hnil => by rw [hnil] at hd; cases hd) hd g
  · cases hdraw

theorem Weighted.position_index {W : Type} [Scalar W] {G : Type} [RandomSource G] {ws : List W}
    {d : Option (Weighted W)} (hd : ofWeights ws = .ok d) (g : G) :
    (Weighted.index : PositionDraw W G).position ws g = draw d g := by
  unfold PositionDraw.position index
  rw [hd]
  cases d <;> rfl

namespace BranchSetTree

variable {W G : Type}

/-! ## Trees without empty sets -/

def Furnished (t : BranchSetTree W) : Prop := ∀ s ∈ t.sets.toList, s.2 ≠ []

theorem Furnished.reduce {t : BranchSetTree W} (h : t.Furnished) (keep : SortedSet String) : (t.reduce keep).Furnished :=
  fun s hs => h s (List.mem_filter.1 hs).1

variable [Scalar W]

theorem Checked.furnished {t : BranchSetTree W} (h : t.Checked) : t.Furnished := fun s hs => (h s hs).nonempty

/-- No set has weights that could be drawn by, if they did not add up to infinity. -/
def Distributed (t : BranchSetTree W) : Prop :=
  ∀ s ∈ t.sets.toList, ∀ w ws, s.2.map Branch.weight = w :: ws → (∀ v ∈ w :: ws, Scalar.isNonneg v = true) →
    Scalar.isZero (ws.foldl (· + ·) w) = false → Scalar.isFinite (ws.foldl (· + ·) w) = true

theorem isOk_ofWeights {ws : List W} : (Weighted.ofWeights ws).isOk = true ↔ ∀ v vs, ws = v :: vs →
    (∀ x ∈ v :: vs, Scalar.isNonneg x = true) → Scalar.isZero (vs.foldl (· + ·) v) = false →
    Scalar.isFinite (vs.foldl (· + ·) v) = true := by
  cases ws with
  | nil => exact ⟨fun _ => nofun, fun _ => rfl⟩
  | cons v vs =>
    unfold Weighted.ofWeights
    dsimp only
    constructor
    · rintro h v' vs' ⟨⟩ hnonneg hzero
      rw [List.all_eq_true.2 hnonneg, hzero, Bool.not_false, Bool.and_true, if_pos rfl] at h
      by_contra hfinite
      rw [if_neg hfinite] at h
      cases h
    · intro h
      split
      · rename_i hdrawn
        obtain ⟨hnonneg, hzero⟩ := Bool.and_eq_true_iff.1 hdrawn
        rw [if_pos (h v vs rfl (List.all_eq_true.1 hnonneg) (by simpa using hzero))]
        rfl
      · rfl

/-- **No distribution of a set breaks down**: it is made, or refused for the weights. -/
theorem distributed_iff {t : BranchSetTree W} : t.Distributed ↔
    ∀ s ∈ t.sets.toList, (Weighted.ofWeights (s.2.map Branch.weight)).isOk = true := by
  simp only [isOk_ofWeights]
  rfl

theorem Distributed.reduce {t : BranchSetTree W} (h : t.Distributed) (keep : SortedSet String) :
    (t.reduce keep).Distributed :=
  fun s hs => h s (List.mem_filter.1 hs).1

theorem distributed_of_checked {t : BranchSetTree Float} (h : t.Checked) : t.Distributed :=
  distributed_iff.2 fun s hs => (drawable_of_checked (h s hs)).total

/-! ## Walks -/

/-- A path continued by one branch of each set, at the position that is drawn by the weights of the set. -/
def walk (index : PositionDraw W G) : List (String × List (Branch W)) → ChoicePath W → G →
    Except Abort (ChoicePath W × G)
  | [], p, g => .ok (p, g)
  | s :: sets, p, g =>
    let (i, g) := index.position (s.2.map Branch.weight) g
    match s.2[i]? with
    | none => .error .crashed
    | some b => walk index sets (p.take s.1 b) g

def walks (index : PositionDraw W G) (sets : List (String × List (Branch W))) : Nat → G →
    Except Abort (List (ChoicePath W) × G)
  | 0, g => .ok ([], g)
  | n + 1, g => do
    let (p, g) ← walk index sets (ChoicePath.start Scalar.one) g
    let (ps, g) ← walks index sets n g
    return (p :: ps, g)

def sampleBy (index : PositionDraw W G) (t : BranchSetTree W) (n : Nat) (g : G) :
    Except Abort (List (ChoicePath W) × G) :=
  if t.sets.isEmpty then .ok ([], g) else walks index t.sets.toList n g

variable {index : PositionDraw W G}

/-- **A walk finds every branch that it draws**, and ends with one of the extensions of the paths that it started
among. -/
theorem exists_walk (hindex : index.Below) : ∀ {sets : List (String × List (Branch W))}, (∀ s ∈ sets, s.2 ≠ []) →
    ∀ {ps : List (ChoicePath W)} {p : ChoicePath W}, p ∈ ps → ∀ g : G,
    ∃ q g', walk index sets p g = .ok (q, g') ∧ q ∈ sets.foldl extend ps
  | [], _, _, p, hp, g => ⟨p, g, rfl, hp⟩
  | s :: sets, h, ps, p, hp, g => by
    have hne : s.2.map Branch.weight ≠ [] := by simpa using h s (List.mem_cons_self ..)
    have hlt := PositionDraw.position_lt hindex hne g
    rw [List.length_map] at hlt
    have htaken : p.take s.1 s.2[(index.position (s.2.map Branch.weight) g).1] ∈ extend ps s :=
      List.mem_flatMap.2 ⟨p, hp, List.mem_map_of_mem (List.getElem_mem hlt)⟩
    rw [walk]
    dsimp only
    rw [List.getElem?_eq_getElem hlt]
    exact exists_walk hindex (fun s' hs' => h s' (List.mem_cons_of_mem _ hs')) htaken _

theorem exists_walks (hindex : index.Below) {sets : List (String × List (Branch W))} (h : ∀ s ∈ sets, s.2 ≠ []) :
    ∀ (n : Nat) (g : G), ∃ ps g', walks index sets n g = .ok (ps, g') ∧ ps.length = n ∧
      ∀ p ∈ ps, p ∈ sets.foldl extend [ChoicePath.start Scalar.one]
  | 0, g => ⟨[], g, rfl, rfl, fun p hp => by cases hp⟩
  | n + 1, g => by
    obtain ⟨p, g₁, hp, hmem⟩ := exists_walk hindex h (List.mem_singleton_self (ChoicePath.start Scalar.one)) g
    obtain ⟨ps, g₂, hps, hlen, hall⟩ := exists_walks hindex h n g₁
    refine ⟨p :: ps, g₂, ?_, congrArg (· + 1) hlen, List.forall_mem_cons.2 ⟨hmem, hall⟩⟩
    rw [walks, hp]
    change (walks index sets n g₁ >>= _) = _
    rw [hps]
    rfl

theorem exists_sampleBy (hindex : index.Below) {t : BranchSetTree W} (h : t.Furnished) (n : Nat) (g : G) :
    ∃ ps g', t.sampleBy index n g = .ok (ps, g') ∧ ps.length = (if t.sets.isEmpty then 0 else n) ∧
      ∀ p ∈ ps, p ∈ t.enumerate := by
  unfold sampleBy enumerate
  split
  · exact ⟨[], g, rfl, rfl, fun p hp => by cases hp⟩
  · exact exists_walks hindex h n g

/-! ## Samplings -/

variable [RandomSource G]

/-- A set with its distribution is a set of the tree, with the distribution of its weights. -/
theorem of_drawSets {t : BranchSetTree W} {sets : List (DrawSet W)} (h : t.drawSets = .ok sets) :
    t.sets.toList = sets.map (fun s => (s.trt, s.branches)) ∧
      ∀ s ∈ sets, Weighted.ofWeights (s.branches.map Branch.weight) = .ok s.weights := by
  have hall : List.Forall₂ (fun s d => s = (d.trt, d.branches) ∧
      Weighted.ofWeights (d.branches.map Branch.weight) = .ok d.weights) t.sets.toList sets := by
    refine (Outcome.forall₂_of_mapM h).imp fun s d hd => ?_
    obtain ⟨weights, hw, hd⟩ := Outcome.bind_eq_ok.1 hd
    cases hd
    exact ⟨rfl, hw⟩
  refine ⟨?_, fun d hd => ?_⟩
  · rw [← List.map_id t.sets.toList]
    exact map_eq_of_forall₂ (fun s d hd => hd.1) hall
  · obtain ⟨s, -, -, hw⟩ := exists_left_of_forall₂ hall d hd
    exact hw

theorem drawPath_eq_walk : ∀ {sets : List (DrawSet W)},
    (∀ s ∈ sets, Weighted.ofWeights (s.branches.map Branch.weight) = .ok s.weights) → ∀ (p : ChoicePath W) (g : G),
    drawPath sets p g = walk Weighted.index (sets.map (fun s => (s.trt, s.branches))) p g
  | [], _, _, _ => rfl
  | s :: sets, h, p, g => by
    have hrest : ∀ (p : ChoicePath W) (g : G),
        drawPath sets p g = walk Weighted.index (sets.map (fun s => (s.trt, s.branches))) p g :=
      drawPath_eq_walk fun s' hs' => h s' (List.mem_cons_of_mem _ hs')
    rw [drawPath, List.map_cons, walk, Weighted.position_index (h s (List.mem_cons_self ..)) g]
    dsimp only
    cases s.branches[(Weighted.draw s.weights g).1]? with
    | none => rfl
    | some b => exact hrest _ _

theorem drawPaths_eq_walks {sets : List (DrawSet W)}
    (h : ∀ s ∈ sets, Weighted.ofWeights (s.branches.map Branch.weight) = .ok s.weights) : ∀ (n : Nat) (g : G),
    drawPaths sets n g = walks Weighted.index (sets.map (fun s => (s.trt, s.branches))) n g
  | 0, _ => rfl
  | n + 1, g => by
    rw [drawPaths, walks, drawPath_eq_walk h]
    simp only [drawPaths_eq_walks h n]

/-- **A sampling is a series of walks by the distributions**, if none of these breaks down. -/
theorem sample_eq_sampleBy {t : BranchSetTree W} (h : t.Distributed) (n : Nat) (g : G) :
    t.sample n g = t.sampleBy Weighted.index n g := by
  unfold sample sampleBy
  split
  · rfl
  · obtain ⟨sets, hsets⟩ : ∃ sets, t.drawSets = .ok sets := Outcome.exists_mapM fun s hs => by
      obtain ⟨weights, hw⟩ := Outcome.isOk_iff.1 (distributed_iff.1 h s hs)
      rw [hw]
      rfl
    obtain ⟨hsame, hweights⟩ := of_drawSets hsets
    rw [hsets, hsame]
    exact drawPaths_eq_walks hweights n g

theorem distributed_of_sample {t : BranchSetTree W} {n : Nat} {g : G} (h : (t.sample n g).isOk = true) :
    t.Distributed := by
  refine distributed_iff.2 fun s hs => ?_
  have hsome : ¬t.sets.isEmpty = true := fun hempty => List.ne_nil_of_mem hs (List.isEmpty_iff.1 hempty)
  obtain ⟨⟨ps, g'⟩, hsample⟩ := Outcome.isOk_iff.1 h
  unfold sample at hsample
  rw [if_neg hsome] at hsample
  obtain ⟨sets, hsets, -⟩ := Outcome.bind_eq_ok.1 hsample
  obtain ⟨hsame, hweights⟩ := of_drawSets hsets
  obtain ⟨d, hd, rfl⟩ := List.mem_map.1 (hsame ▸ hs)
  exact Outcome.isOk_iff.2 ⟨d.weights, hweights d hd⟩

theorem sampleHeld_of_lt (t : BranchSetTree W) {n : Nat} (h : n < Capacity.bound) (g : G) :
    t.sampleHeld n g = t.sample n g := by
  unfold sampleHeld
  split
  · rename_i hempty
    rw [sample, if_pos hempty]
  · rw [Capacity.check, if_pos h]
    rfl

/-! ## All trees -/

/-- How the paths that are drawn from a tree compare with those that it enumerates. -/
structure DrawsEnumerated (t : BranchSetTree W) : Prop where
  /-- As many paths are drawn as are asked for, or none if there is no set, and each of them is enumerated, with the same
  branches, choices and weight. -/
  drawn : t.Distributed → ∀ {G : Type} [RandomSource G] (n : Nat) (g : G), ∃ ps g', t.sample n g = .ok (ps, g') ∧
    ps.length = (if t.sets.isEmpty then 0 else n) ∧ ∀ p ∈ ps, p ∈ t.enumerate
  /-- Nothing else than a distribution can break a sampling down, and one that does breaks every sampling down. -/
  broken : ∀ {G : Type} [RandomSource G] (n : Nat) (g : G), (t.sample n g).isOk = true ↔ t.Distributed
  /-- Paths that memory can hold are drawn in the same way. -/
  held : ∀ {G : Type} [RandomSource G] (n : Nat) (g : G), n < Capacity.bound → t.sampleHeld n g = t.sample n g
  /-- With any other way to draw positions, too, every branch that is drawn is there and every path is enumerated. -/
  drawnBy : ∀ {G : Type} (index : PositionDraw W G), index.Below → ∀ (n : Nat) (g : G), ∃ ps g',
    t.sampleBy index n g = .ok (ps, g') ∧ ps.length = (if t.sets.isEmpty then 0 else n) ∧ ∀ p ∈ ps, p ∈ t.enumerate

/-- **Drawing agrees with enumerating**, for every tree without empty sets and without a set whose weights add up to
infinity.  A tree that was put together by adding sets is such a tree, and so is every reduced one. -/
theorem sample_enumerated (t : BranchSetTree Float) (furnished : t.Furnished) : t.DrawsEnumerated ∧
    (∀ keep, (t.reduce keep).Furnished ∧ (t.Distributed → (t.reduce keep).Distributed)) ∧
    ∀ sets (built : BranchSetTree Float), ofSets sets = .ok built →
      ∀ keep, (built.reduce keep).Furnished ∧ (built.reduce keep).Distributed := by
  refine ⟨?_, fun keep => ⟨furnished.reduce keep, fun h => h.reduce keep⟩, fun sets built h keep => ?_⟩
  · have hdrawn : t.Distributed → ∀ {G : Type} [RandomSource G] (n : Nat) (g : G), ∃ ps g',
        t.sample n g = .ok (ps, g') ∧ ps.length = (if t.sets.isEmpty then 0 else n) ∧ ∀ p ∈ ps, p ∈ t.enumerate := by
      intro h G _ n g
      rw [sample_eq_sampleBy h]
      exact exists_sampleBy Weighted.index_below furnished n g
    constructor
    case drawn => exact hdrawn
    case broken =>
      intro G _ n g
      refine ⟨distributed_of_sample, fun h => ?_⟩
      obtain ⟨ps, g', hps, -⟩ := hdrawn h n g
      exact Outcome.isOk_iff.2 ⟨(ps, g'), hps⟩
    case held => exact fun n g h => t.sampleHeld_of_lt h g
    case drawnBy => exact fun index hindex => exists_sampleBy hindex furnished
  · have hchecked := (checked_of_ofSets h).reduce keep
    exact ⟨hchecked.furnished, distributed_of_checked hchecked⟩

def weightlessFirst : BranchSetTree Float :=
  ⟨.ofList [("Active", [⟨"b1", "A", 0⟩, ⟨"b2", "B", 0⟩]), ("Stable", [⟨"b3", "C", 1 / 4⟩, ⟨"b4", "C", 3 / 4⟩])]⟩

def swingingWords : WordStream := ⟨fun i => if i % 2 = 0 then 0 else 0xFFFFFFFFFFFFFFFF, 0⟩

theorem sample_enumerated_weightlessFirst : weightlessFirst.Furnished ∧ weightlessFirst.Distributed ∧
    weightlessFirst.DrawsEnumerated ∧ ∃ ps g', weightlessFirst.sample 3 swingingWords = .ok (ps, g') ∧
      ps.map ChoicePath.branchIds = [["b1", "b3"], ["b1", "b4"], ["b1", "b3"]] ∧
      ∀ p ∈ ps, p ∈ weightlessFirst.enumerate := by
  have furnished : weightlessFirst.Furnished := by
    unfold Furnished
    decide +kernel
  have distributed : weightlessFirst.Distributed := distributed_iff.2 (by decide +kernel)
  have drawn : (weightlessFirst.sample 3 swingingWords).toOption.map (fun r => r.1.map ChoicePath.branchIds) =
      some [["b1", "b3"], ["b1", "b4"], ["b1", "b3"]] := by
    decide +kernel
  obtain ⟨agree, -⟩ := sample_enumerated weightlessFirst furnished
  obtain ⟨⟨qs, g⟩, hqs, hids⟩ := Outcome.map_toOption_eq_some.1 drawn
  obtain ⟨ps, g', hps, -, hall⟩ := agree.drawn distributed 3 swingingWords
  cases hqs.symm.trans hps
  exact ⟨furnished, distributed, agree, qs, g, hqs, hids, hall⟩

def overweight : BranchSetTree Float := ⟨.ofList [("Active", [⟨"b1", "A", 1e308⟩, ⟨"b2", "B", 1e308⟩])]⟩

/-- No path can be drawn from a set whose weights add up to infinity, not even none. -/
theorem sample_overweight : overweight.Furnished ∧ ∀ {G : Type} [RandomSource G] (n : Nat) (g : G),
    (overweight.sample n g).isOk = false := by
  have furnished : overweight.Furnished := by
    unfold Furnished
    decide +kernel
  have broken : ¬ ∀ s ∈ overweight.sets.toList, (Weighted.ofWeights (s.2.map Branch.weight)).isOk = true := by
    decide +kernel
  exact ⟨furnished, fun n g => Bool.eq_false_iff.2 fun h => broken (distributed_iff.1 (distributed_of_sample h))⟩

end BranchSetTree
end SeismicHazard
