import SeismicHazard.Proofs.LogicTree.Combinations
import SeismicHazard.Proofs.LogicTree.Drawing
import SeismicHazard.Proofs.Number.Exact
import Mathlib.Algebra.Order.BigOperators.Group.List
/-!
# Likelihood — a branch is drawn where its weight is

The weights of a set divide the numbers below their total into intervals, one for each branch and as long as its weight.
A point is drawn below the total, and the branch that is taken is the one whose interval the point falls on
(`Weighted.ofWeights_eq`); no point falls on a branch of weight zero.  A walk takes the branches that its points fall on
(`exists_points_walk`), so what a tree whose sets were checked gives is decided by the points alone, and only branches
of positive weight are taken.
-/
namespace SeismicHazard

/-! ## Intervals -/

def FallsOn (ws : List Rat) (x : Rat) (i : Nat) : Prop := (ws.take i).sum ≤ x ∧ x < (ws.take (i + 1)).sum

section Intervals

variable {ws : List Rat} {x : Rat} {i : Nat}

theorem fallsOn_zero {w : Rat} : FallsOn (w :: ws) x 0 ↔ 0 ≤ x ∧ x < w := by
  simp [FallsOn]

theorem fallsOn_succ {w : Rat} : FallsOn (w :: ws) x (i + 1) ↔ FallsOn ws (x - w) i := by
  unfold FallsOn
  rw [List.take_succ_cons, List.take_succ_cons, List.sum_cons, List.sum_cons, le_sub_iff_add_le', sub_lt_iff_lt_add']

theorem FallsOn.weight_pos (h : FallsOn ws x i) : ∃ w, ws[i]? = some w ∧ 0 < w := by
  have hlt : (ws.take i).sum < (ws.take (i + 1)).sum := lt_of_le_of_lt h.1 h.2
  by_cases hi : i < ws.length
  · rw [List.sum_take_succ ws i hi] at hlt
    exact ⟨ws[i], List.getElem?_eq_getElem hi, by linarith⟩
  · rw [List.take_of_length_le (by omega), List.take_of_length_le (by omega)] at hlt
    exact absurd hlt (lt_irrefl _)

theorem not_fallsOn_nil : ¬FallsOn [] x i := fun h => by
  obtain ⟨w, hw, -⟩ := h.weight_pos
  cases hw

theorem not_fallsOn_of_neg {w : Rat} (hws : ∀ w' ∈ w :: ws, 0 ≤ w') (hx : x < w) : ¬FallsOn ws (x - w) i := fun h => by
  have hsum : 0 ≤ (ws.take i).sum :=
    List.sum_nonneg fun w' hw' => hws w' (List.mem_cons_of_mem _ (List.mem_of_mem_take hw'))
  linarith [h.1]

theorem FallsOn.unique : ∀ {ws : List Rat} {x : Rat} {i j : Nat}, (∀ w ∈ ws, 0 ≤ w) → FallsOn ws x i →
    FallsOn ws x j → i = j
  | [], _, _, _, _, hi, _ => absurd hi not_fallsOn_nil
  | _ :: _, _, 0, 0, _, _, _ => rfl
  | _ :: _, _, 0, _ + 1, hws, hi, hj => absurd (fallsOn_succ.1 hj) (not_fallsOn_of_neg hws (fallsOn_zero.1 hi).2)
  | _ :: _, _, _ + 1, 0, hws, hi, hj => absurd (fallsOn_succ.1 hi) (not_fallsOn_of_neg hws (fallsOn_zero.1 hj).2)
  | _ :: _, _, _ + 1, _ + 1, hws, hi, hj =>
    congrArg (· + 1) (FallsOn.unique (fun w hw => hws w (List.mem_cons_of_mem _ hw)) (fallsOn_succ.1 hi)
      (fallsOn_succ.1 hj))

end Intervals

/-! ## Distributions -/

namespace Weighted

variable {x : Rat}

theorem countP_partialSums_eq_zero : ∀ {ws : List Rat} {s : Rat}, x < s → (∀ w ∈ ws, 0 ≤ w) →
    (partialSums s ws).countP (fun s => Scalar.le s x) = 0
  | [], _, _, _ => rfl
  | w :: ws, s, hs, hws => by
    have hw : 0 ≤ w := hws w List.mem_cons_self
    have hbelow : ¬Scalar.le s x = true := fun hle => absurd (Exact.le_iff.1 hle) (not_le.2 hs)
    rw [partialSums, List.countP_cons_of_neg (p := fun s => Scalar.le s x) hbelow]
    refine countP_partialSums_eq_zero ?_ fun w' hw' => hws w' (List.mem_cons_of_mem _ hw')
    change x < s + w
    linarith

/-- **The partial sums that a point has reached tell where it falls**, behind the weights that it has passed. -/
theorem fallsOn_countP : ∀ {ws : List Rat} {w passed : Rat}, (∀ w' ∈ w :: ws, 0 ≤ w') → passed ≤ x →
    x < passed + (w :: ws).sum →
    FallsOn (w :: ws) (x - passed) ((partialSums (passed + w) ws).countP (fun s => Scalar.le s x))
  | [], w, passed, _, hpassed, hx => by
    rw [List.sum_singleton] at hx
    exact fallsOn_zero.2 ⟨by linarith, by linarith⟩
  | v :: ws, w, passed, hws, hpassed, hx => by
    have hrest : ∀ w' ∈ v :: ws, 0 ≤ w' := fun w' hw' => hws w' (List.mem_cons_of_mem _ hw')
    by_cases hreached : passed + w ≤ x
    · rw [List.sum_cons] at hx
      rw [partialSums, List.countP_cons_of_pos (p := fun s => Scalar.le s x) (Exact.le_iff.2 hreached), fallsOn_succ,
        sub_sub]
      exact fallsOn_countP hrest hreached (by linarith)
    · -- the sums behind one that is not reached are not reached either
      rw [countP_partialSums_eq_zero (not_le.1 hreached) hrest]
      exact fallsOn_zero.2 ⟨by linarith, by linarith⟩

theorem foldl_eq_sum (w : Rat) (ws : List Rat) : ws.foldl (· + ·) w = (w :: ws).sum := by
  rw [List.sum_eq_foldl, List.foldl_cons, zero_add]

theorem total_of_ofWeights {ws : List Rat} {d : Weighted Rat} (h : ofWeights ws = .ok (some d)) : d.total = ws.sum := by
  cases ws with
  | nil => cases h
  | cons w ws =>
    unfold ofWeights at h
    dsimp only at h
    split at h
    · cases h
      exact foldl_eq_sum w ws
    · cases h

/-- The distribution of weights that are not negative and have a positive total. -/
theorem ofWeights_eq {ws : List Rat} (hws : ∀ w ∈ ws, 0 ≤ w) (htotal : 0 < ws.sum) :
    ∃ d, ofWeights ws = .ok (some d) ∧ d.total = ws.sum ∧
      ∀ x, 0 ≤ x → x < ws.sum → ∀ i, d.position x = i ↔ FallsOn ws x i := by
  cases ws with
  | nil => cases htotal
  | cons w ws =>
    have hsum := foldl_eq_sum w ws
    have hnonzero : Scalar.isZero (ws.foldl (· + ·) w) = false := by
      rw [hsum, Bool.eq_false_iff, ne_eq, Exact.isZero_iff]
      exact htotal.ne'
    have hnonneg : (w :: ws).all Scalar.isNonneg = true :=
      List.all_eq_true.2 fun w' hw' => Exact.isNonneg_iff.2 (hws w' hw')
    refine ⟨⟨partialSums w ws, ws.foldl (· + ·) w⟩, ?_, hsum, fun x hx hlt i => ?_⟩
    · unfold ofWeights
      dsimp only
      rw [hnonneg, hnonzero]
      rfl
    · have hfalls : FallsOn (w :: ws) x ((partialSums w ws).countP (fun s => Scalar.le s x)) := by
        have := fallsOn_countP hws hx (by rwa [zero_add])
        rwa [sub_zero, zero_add] at this
      exact ⟨fun h => h ▸ hfalls, fun h => hfalls.unique hws h⟩

end Weighted

/-! ## Points -/

/-- How points are drawn: for some weights, a function from states to a point and the next state. -/
abbrev PointDraw (G : Type) : Type := List Rat → G → Rat × G

namespace PointDraw

variable {G : Type}

/-- Every point that is drawn for weights with a positive total is below it and not negative. -/
def Within (draw : PointDraw G) : Prop :=
  ∀ ws, 0 < ws.sum → ∀ g, 0 ≤ (draw ws g).1 ∧ (draw ws g).1 < ws.sum

def index (draw : PointDraw G) : PositionDraw Rat G := fun ws =>
  match Weighted.ofWeights ws with
  | .ok (some d) => some fun g =>
    let (x, g) := draw ws g
    (d.position x, g)
  | _ => none

def points (draw : PointDraw G) : List (List Rat) → G → List Rat × G
  | [], g => ([], g)
  | ws :: rest, g =>
    let (x, g) := draw ws g
    let (xs, g) := draw.points rest g
    (x :: xs, g)

def rounds (draw : PointDraw G) (weights : List (List Rat)) : Nat → G → List (List Rat) × G
  | 0, g => ([], g)
  | n + 1, g =>
    let (xs, g) := draw.points weights g
    let (rest, g) := draw.rounds weights n g
    (xs :: rest, g)

theorem length_rounds (draw : PointDraw G) (weights : List (List Rat)) : ∀ (n : Nat) (g : G),
    (draw.rounds weights n g).1.length = n
  | 0, _ => rfl
  | n + 1, g => congrArg (· + 1) (length_rounds draw weights n (draw.points weights g).2)

def ofWords [RandomSource G] : PointDraw G := fun ws g =>
  let (word, g) := RandomSource.next g
  (Scalar.portion (word >>> 12).toNat ws.sum, g)

theorem within_ofWords [RandomSource G] : (ofWords : PointDraw G).Within := by
  intro ws hws g
  -- 52 bits are left of a word
  have hword : ((RandomSource.next g).1 >>> 12).toNat < 2 ^ 52 := by
    have hlt := (RandomSource.next g).1.toNat_lt
    rw [UInt64.toNat_shiftRight, Nat.shiftRight_eq_div_pow]
    change (RandomSource.next g).1.toNat / 2 ^ 12 < 2 ^ 52
    omega
  have hk : (((RandomSource.next g).1 >>> 12).toNat : Rat) / 2 ^ 52 < 1 := by
    rw [div_lt_one (by norm_num)]
    exact_mod_cast hword
  unfold ofWords
  dsimp only
  rw [Exact.portion_eq]
  exact ⟨mul_nonneg (by positivity) hws.le, mul_lt_of_lt_one_left hws hk⟩

theorem index_ofWords [RandomSource G] : (ofWords : PointDraw G).index = Weighted.index := by
  funext ws
  unfold index Weighted.index ofWords
  cases hd : Weighted.ofWeights ws with
  | error _ => rfl
  | ok d => cases d with
    | none => rfl
    | some d =>
      rw [← Weighted.total_of_ofWeights hd]
      rfl

theorem position_index {draw : PointDraw G} (hdraw : draw.Within) {ws : List Rat} (hws : ∀ w ∈ ws, 0 ≤ w)
    (htotal : 0 < ws.sum) (g : G) : (draw.index.position ws g).2 = (draw ws g).2 ∧
      ∀ i, FallsOn ws (draw ws g).1 i ↔ i = (draw.index.position ws g).1 := by
  obtain ⟨d, hd, -, hposition⟩ := Weighted.ofWeights_eq hws htotal
  obtain ⟨hx, hlt⟩ := hdraw ws htotal g
  have hdrawn : draw.index.position ws g = (d.position (draw ws g).1, (draw ws g).2) := by
    unfold PositionDraw.position index
    rw [hd]
  rw [hdrawn]
  exact ⟨rfl, fun i => (hposition _ hx hlt i).symm.trans eq_comm⟩

end PointDraw

namespace BranchSetTree

/-! ## Trees that were put together -/

inductive Grown {W : Type} [Scalar W] : BranchSetTree W → Prop where
  | empty : Grown .empty
  | add {t t' : BranchSetTree W} {trt : String} {branches : List (Branch W)} (h : t.Grown)
    (hadd : t.withBranchSet trt branches = .ok t') : Grown t'
  | reduce {t : BranchSetTree W} (h : t.Grown) (keep : SortedSet String) : Grown (t.reduce keep)

theorem Grown.checked {W : Type} [Scalar W] {t : BranchSetTree W} (h : t.Grown) : t.Checked := by
  induction h with
  | empty => exact fun s hs => by cases hs
  | add _ hadd ih => exact ih.withBranchSet hadd
  | reduce _ keep ih => exact ih.reduce keep

abbrev weightsOf (branches : List (Branch Rat)) : List Rat := branches.map Branch.weight

theorem CheckedSet.weights_nonneg {branches : List (Branch Rat)} (h : CheckedSet branches) :
    ∀ w ∈ weightsOf branches, 0 ≤ w := by
  intro w hw
  obtain ⟨b, hb, rfl⟩ := List.mem_map.1 hw
  exact Exact.isNonneg_iff.1 (h.nonneg b hb)

/-- **The weights of a checked set have a positive total**, since it is close to one. -/
theorem CheckedSet.total_pos {branches : List (Branch Rat)} (h : CheckedSet branches) :
    0 < (weightsOf branches).sum := by
  have hbalanced := h.balanced
  unfold isUnbalanced setTotal at hbalanced
  rw [Exact.sum_eq, Bool.or_eq_false_iff] at hbalanced
  have hclose : ¬(tolerance : Rat) < 1 - (weightsOf branches).sum := fun hlt =>
    Bool.eq_false_iff.1 hbalanced.2 (Exact.lt_iff.2 hlt)
  have htolerance : (tolerance : Rat) < 1 := by decide +kernel
  linarith

def setWeights (sets : List (String × List (Branch Rat))) : List (List Rat) := sets.map (fun s => weightsOf s.2)

theorem exists_branch_of_fallsOn {branches : List (Branch Rat)} {x : Rat} {i : Nat}
    (h : FallsOn (weightsOf branches) x i) : ∃ b, branches[i]? = some b ∧ 0 < b.weight := by
  obtain ⟨w, hw, hpos⟩ := h.weight_pos
  rw [List.getElem?_map, Option.map_eq_some_iff] at hw
  obtain ⟨b, hb, rfl⟩ := hw
  exact ⟨b, hb, hpos⟩

/-! ## Walks by points -/

/-- Points that fall on some positions, one for each list of weights, and on no other. -/
inductive FallInTurn : List (List Rat) → List Rat → List Nat → Prop where
  | nil : FallInTurn [] [] []
  | cons {ws : List Rat} {x : Rat} {i : Nat} {wss : List (List Rat)} {xs : List Rat} {is : List Nat}
    (h : ∀ j, FallsOn ws x j ↔ j = i) (hrest : FallInTurn wss xs is) : FallInTurn (ws :: wss) (x :: xs) (i :: is)

theorem FallInTurn.branches : ∀ {sets : List (String × List (Branch Rat))} {xs : List Rat} {is : List Nat},
    FallInTurn (setWeights sets) xs is →
    List.Forall₂ (fun s i => ∃ b, s.2[i]? = some b ∧ 0 < b.weight) sets is
  | [], _, _, .nil => .nil
  | _ :: _, _, i :: _, .cons h hrest => .cons (exists_branch_of_fallsOn ((h i).2 rfl)) hrest.branches

section Walks

variable {G : Type} {draw : PointDraw G} {sets : List (String × List (Branch Rat))}

theorem exists_points_walk (hdraw : draw.Within) : ∀ {sets : List (String × List (Branch Rat))},
    (∀ s ∈ sets, CheckedSet s.2) → ∀ (p : ChoicePath Rat) (g : G),
    ∃ is, FallInTurn (setWeights sets) (draw.points (setWeights sets) g).1 is ∧
      walk draw.index sets p g = .ok (follow sets is p, (draw.points (setWeights sets) g).2)
  | [], _, _, _ => ⟨[], .nil, rfl⟩
  | s :: sets, h, p, g => by
    have hs := h s List.mem_cons_self
    obtain ⟨hnext, hfalls⟩ := PointDraw.position_index hdraw hs.weights_nonneg hs.total_pos g
    obtain ⟨b, hb, -⟩ := exists_branch_of_fallsOn ((hfalls _).2 rfl)
    obtain ⟨is, his, hwalk⟩ := exists_points_walk hdraw (fun s' hs' => h s' (List.mem_cons_of_mem s hs'))
      (p.take s.1 b) (draw (weightsOf s.2) g).2
    refine ⟨(draw.index.position (weightsOf s.2) g).1 :: is, .cons hfalls his, ?_⟩
    rw [walk, follow, hb]
    dsimp only
    rw [hb, hnext]
    exact hwalk

theorem exists_rounds_walks (hdraw : draw.Within) (h : ∀ s ∈ sets, CheckedSet s.2) : ∀ (n : Nat) (g : G),
    ∃ ps, walks draw.index sets n g = .ok (ps, (draw.rounds (setWeights sets) n g).2) ∧
      List.Forall₂ (fun xs p => ∃ is, FallInTurn (setWeights sets) xs is ∧
        p = follow sets is (.start Scalar.one)) (draw.rounds (setWeights sets) n g).1 ps
  | 0, g => ⟨[], rfl, .nil⟩
  | n + 1, g => by
    obtain ⟨is, his, hwalk⟩ := exists_points_walk hdraw h (.start Scalar.one) g
    obtain ⟨ps, hps, hall⟩ := exists_rounds_walks hdraw h n (draw.points (setWeights sets) g).2
    refine ⟨follow sets is (.start Scalar.one) :: ps, ?_, .cons ⟨is, his, rfl⟩ hall⟩
    rw [walks, hwalk]
    change (walks draw.index sets n _ >>= _) = _
    rw [hps]
    rfl

end Walks

/-! ## All trees -/

def weights (t : BranchSetTree Rat) : List (List Rat) := setWeights t.sets.toList

/-- A path that was drawn by some points: it takes the branches that they fall on, whose weights are positive. -/
structure DrawnBy (t : BranchSetTree Rat) (xs : List Rat) (p : ChoicePath Rat) : Prop where
  taken : ∃ is branches, FallInTurn t.weights xs is ∧ StandAt t.sets.values is branches ∧ p.Takes t.trts branches ∧
    ∀ b ∈ branches, 0 < b.weight
  weight_pos : 0 < p.weight

theorem forall_mem_of_standAt {α : Type} {P : α → Prop} {lists : List (List α)} {is : List Nat}
    (h : List.Forall₂ (fun l i => ∃ a, l[i]? = some a ∧ P a) lists is) :
    ∀ {members : List α}, StandAt lists is members → ∀ a ∈ members, P a := by
  induction h with
  | nil =>
    intro members hstand a ha
    rw [StandAt, List.zipWith_nil_left, List.map_eq_nil_iff] at hstand
    rw [hstand] at ha
    cases ha
  | cons hfirst _ ih =>
    intro members hstand a ha
    obtain ⟨b, hb, hP⟩ := hfirst
    rw [StandAt, List.zipWith_cons_cons, hb, List.map_eq_cons_iff] at hstand
    obtain ⟨c, members, rfl, hc, hstand⟩ := hstand
    cases hc
    rcases List.mem_cons.1 ha with rfl | ha
    · exact hP
    · exact ih hstand a ha

theorem drawnBy_follow {t : BranchSetTree Rat} {xs : List Rat} {is : List Nat} (h : FallInTurn t.weights xs is) :
    t.DrawnBy xs (follow t.sets.toList is (.start Scalar.one)) := by
  have hbranches := h.branches
  have hsizes : List.Forall₂ (· < ·) is (t.sets.toList.map (fun s => s.2.length)) := by
    rw [List.forall₂_map_right_iff]
    refine (hbranches.imp fun s i hb => ?_).flip
    obtain ⟨b, hb, -⟩ := hb
    exact (List.getElem?_eq_some_iff.1 hb).1
  obtain ⟨branches, hstand, htakes⟩ := takes_follow hsizes ChoicePath.takes_start t.sets.increasing_keys
  have hpos : ∀ b ∈ branches, 0 < b.weight :=
    forall_mem_of_standAt (List.forall₂_map_left_iff.2 hbranches) hstand
  refine ⟨⟨is, branches, h, hstand, htakes, hpos⟩, ?_⟩
  have hweight := htakes.weight.trans (Exact.product_eq (branches.map Branch.weight))
  rw [hweight]
  refine List.prod_pos fun w hw => ?_
  obtain ⟨b, hb, rfl⟩ := List.mem_map.1 hw
  exact hpos b hb

structure DrawsByWeight (t : BranchSetTree Rat) : Prop where
  /-- Every set has a distribution, by which a position is drawn exactly if the point falls on it.  So the first branch
  is never taken for want of a distribution. -/
  distributed : ∀ s ∈ t.sets.toList, ∃ d, Weighted.ofWeights (weightsOf s.2) = .ok (some d) ∧ 0 < d.total ∧
    d.total = (weightsOf s.2).sum ∧ ∀ x, 0 ≤ x → x < d.total → ∀ i, d.position x = i ↔ FallsOn (weightsOf s.2) x i
  none : t.sets.isEmpty = true → ∀ {G : Type} (index : PositionDraw Rat G) (n : Nat) (g : G),
    t.sampleBy index n g = .ok ([], g)
  /-- Any other tree gives as many paths as are asked for.  However the points are drawn, each path takes the branches
  that those of its round fall on. -/
  drawn : t.sets.isEmpty = false → ∀ {G : Type} (draw : PointDraw G), draw.Within → ∀ (n : Nat) (g : G), ∃ ps,
    t.sampleBy draw.index n g = .ok (ps, (draw.rounds t.weights n g).2) ∧ ps.length = n ∧
      List.Forall₂ t.DrawnBy (draw.rounds t.weights n g).1 ps
  sampled : ∀ {G : Type} [RandomSource G], (PointDraw.ofWords : PointDraw G).Within ∧ ∀ (n : Nat) (g : G),
    t.sample n g = t.sampleBy PointDraw.ofWords.index n g

/-- **Branches of weight zero are never drawn** from a tree that was put together by adding sets and by reducing: a
branch is drawn exactly where the point falls on its weight. -/
theorem drawsByWeight {t : BranchSetTree Rat} (grown : t.Grown) : t.DrawsByWeight := by
  have checked := grown.checked
  have distributed := fun s hs => Weighted.ofWeights_eq (checked s hs).weights_nonneg (checked s hs).total_pos
  constructor
  case distributed =>
    intro s hs
    obtain ⟨d, hd, htotal, hposition⟩ := distributed s hs
    rw [← htotal] at hposition
    exact ⟨d, hd, htotal ▸ (checked s hs).total_pos, htotal, hposition⟩
  case none => exact fun hempty _ _ _ _ => if_pos hempty
  case drawn =>
    intro hsome G draw hdraw n g
    obtain ⟨ps, hps, hall⟩ := exists_rounds_walks hdraw checked n g
    have hdrawn : List.Forall₂ t.DrawnBy (draw.rounds t.weights n g).1 ps :=
      hall.imp fun xs p ⟨is, his, hp⟩ => hp ▸ drawnBy_follow his
    refine ⟨ps, (if_neg (Bool.eq_false_iff.1 hsome)).trans hps, ?_, hdrawn⟩
    rw [← hdrawn.length_eq, PointDraw.length_rounds]
  case sampled =>
    intro G _
    refine ⟨PointDraw.within_ofWords, fun n g => ?_⟩
    rw [PointDraw.index_ofWords]
    refine sample_eq_sampleBy (distributed_iff.2 fun s hs => ?_) n g
    obtain ⟨d, hd, -⟩ := distributed s hs
    rw [weightsOf] at hd
    rw [hd]
    rfl

def gappySet : List (Branch Rat) :=
  [⟨"b1", "A", 0⟩, ⟨"b2", "B", 1 / 2⟩, ⟨"b3", "C", 0⟩, ⟨"b4", "D", 1 / 2⟩, ⟨"b5", "E", 0⟩]

def halves : PointDraw Nat := fun ws k => (if k % 2 = 0 then 0 else ws.sum / 2, k + 1)

theorem within_halves : halves.Within := by
  intro ws hws k
  unfold halves
  dsimp only
  split
  · exact ⟨le_rfl, hws⟩
  · exact ⟨by linarith, by linarith⟩

theorem drawsByWeight_gappySet : ∃ t : BranchSetTree Rat, t.Grown ∧ halves.Within ∧
    t.sets.toList = [("Active", gappySet)] ∧ ∃ ps, t.sampleBy halves.index 3 0 = .ok (ps, 3) ∧
      ps.map ChoicePath.branchIds = [["b2"], ["b4"], ["b2"]] ∧ ∀ p ∈ ps, 0 < p.weight := by
  let keep : SortedSet String := .ofList ["Active"]
  have reduced : (ofSets [("Active", gappySet), ("Stable", [⟨"s1", "S", 1⟩])]).toOption.map (fun t =>
      ((t.reduce keep).sets.toList, (((t.reduce keep).sampleBy halves.index 3 0).toOption.map fun r =>
        (r.1.map ChoicePath.branchIds, r.2)))) =
      some ([("Active", gappySet)], some ([["b2"], ["b4"], ["b2"]], 3)) := by
    decide +kernel
  obtain ⟨t, built, hreduced⟩ := Outcome.map_toOption_eq_some.1 reduced
  obtain ⟨t₁, first, built⟩ := Outcome.bind_eq_ok.1 built
  obtain ⟨t₂, second, built⟩ := Outcome.bind_eq_ok.1 built
  cases built
  have grown : (t.reduce keep).Grown := .reduce (.add (.add .empty first) second) keep
  obtain ⟨hsets, hdrawn⟩ := Prod.mk.inj hreduced
  obtain ⟨⟨ps, k⟩, hps, hids⟩ := Outcome.map_toOption_eq_some.1 hdrawn
  obtain ⟨hids, rfl⟩ := Prod.mk.inj hids
  have hsome : (t.reduce keep).sets.isEmpty = false := by
    change (t.reduce keep).sets.toList.isEmpty = false
    rw [hsets]
    rfl
  obtain ⟨qs, hqs, -, hall⟩ := (drawsByWeight grown).drawn hsome halves within_halves 3 0
  obtain rfl : ps = qs := congrArg Prod.fst (Except.ok.inj (hps.symm.trans hqs))
  refine ⟨t.reduce keep, grown, within_halves, hsets, ps, hps, hids, fun p hp => ?_⟩
  obtain ⟨xs, -, h⟩ := exists_left_of_forall₂ hall p hp
  exact h.weight_pos

end BranchSetTree
end SeismicHazard
