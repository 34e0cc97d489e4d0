import SeismicHazard.Proofs.LogicTree.Assembling
import SeismicHazard.Proofs.LogicTree.Checking
/-!
# Combinations — the enumerated paths in their order

A path takes one branch of each set, so it is named by a list of positions.  The lists of positions in sets of given
sizes are `positions`: each occurs once, in lexicographic order (`mem_positions`, `positions_increasing`).  Continuing
every path by every branch, set after set, goes through the same lists in the same order (`foldl_extend`), and the path
at some positions takes the branches that stand there (`takes_follow`).  `enumerate_ordered` puts this together for the
trees whose sets were added one by one.
-/
namespace SeismicHazard

variable {W : Type}

/-! ## Positions -/

/-- The lists of positions in lists of some sizes, the last position varying fastest. -/
def positions : List Nat → List (List Nat)
  | [] => [[]]
  | n :: ns => (List.range n).flatMap (fun i => (positions ns).map (i :: ·))

theorem mem_positions : ∀ {ns is : List Nat}, is ∈ positions ns ↔ List.Forall₂ (· < ·) is ns
  | [], is => by rw [positions, List.mem_singleton, List.forall₂_nil_right_iff]
  | n :: ns, is => by
    rw [positions, List.mem_flatMap]
    constructor
    · rintro ⟨i, hi, his⟩
      obtain ⟨js, hjs, rfl⟩ := List.mem_map.1 his
      exact .cons (List.mem_range.1 hi) (mem_positions.1 hjs)
    · rintro (_ | ⟨hi, hjs⟩)
      exact ⟨_, List.mem_range.2 hi, List.mem_map_of_mem (mem_positions.2 hjs)⟩

theorem positions_increasing : ∀ ns : List Nat, (positions ns).Pairwise (List.Lex (· < ·))
  | [] => List.pairwise_singleton _ _
  | n :: ns => by
    rw [positions, List.pairwise_flatMap]
    constructor
    · -- behind one first position
      intro i _
      rw [List.pairwise_map]
      exact (positions_increasing ns).imp List.Lex.cons
    · -- behind two of them
      refine List.pairwise_lt_range.imp fun {i j} hij is his js hjs => ?_
      obtain ⟨is, -, rfl⟩ := List.mem_map.1 his
      obtain ⟨js, -, rfl⟩ := List.mem_map.1 hjs
      exact List.Lex.rel hij

def StandAt {α : Type} (lists : List (List α)) (is : List Nat) (members : List α) : Prop :=
  members.map some = List.zipWith (fun l i => l[i]?) lists is

/-! ## Paths at positions -/

structure ChoicePath.Takes [Scalar W] (p : ChoicePath W) (trts : List String) (branches : List (Branch W)) : Prop where
  ids : p.branchIds = branches.map Branch.id
  trts : p.choices.keys = trts
  gsims : p.choices.values = branches.map Branch.gsim
  weight : p.weight = (branches.map Branch.weight).foldl (· * ·) Scalar.one

namespace ChoicePath

variable [Scalar W]

theorem takes_start : (start (Scalar.one : W)).Takes [] [] := ⟨rfl, rfl, rfl, rfl⟩

/-- **A path that takes one more branch**, for a tectonic region type behind the others. -/
theorem Takes.take {p : ChoicePath W} {trts : List String} {branches : List (Branch W)} (h : p.Takes trts branches)
    {trt : String} (behind : ∀ trt' ∈ trts, compare trt' trt = .lt) (b : Branch W) :
    (p.take trt b).Takes (trts ++ [trt]) (branches ++ [b]) := by
  have hentries : (p.choices.insert trt b.gsim).entries = p.choices.entries ++ [(trt, b.gsim)] :=
    SortedMap.insertInto_of_above fun e he => behind e.1 (h.trts ▸ List.mem_map_of_mem he)
  constructor
  · simp [ChoicePath.take, withChoice, h.ids]
  · change (p.choices.insert trt b.gsim).entries.map Prod.fst = _
    rw [hentries, List.map_append, ← h.trts]
    rfl
  · change (p.choices.insert trt b.gsim).entries.map Prod.snd = _
    rw [hentries, List.map_append, List.map_append, ← h.gsims]
    rfl
  · simp [ChoicePath.take, h.weight]

end ChoicePath

namespace BranchSetTree

variable [Scalar W]

def follow : List (String × List (Branch W)) → List Nat → ChoicePath W → ChoicePath W
  | s :: sets, i :: is, p => follow sets is (s.2[i]?.elim p (p.take s.1))
  | _, _, p => p

theorem map_range_getElem? {α β : Type} (f : α → β) (d : β) (l : List α) :
    (List.range l.length).map (fun i => l[i]?.elim d f) = l.map f :=
  List.ext_getElem? fun i => by
    rw [List.getElem?_map, List.getElem?_map]
    by_cases hi : i < l.length
    · simp [hi]
    · rw [List.getElem?_eq_none (by simpa using hi), List.getElem?_eq_none (by simpa using hi)]
      rfl

theorem flatMap_range_getElem? {α β : Type} (f : α → List β) (d : List β) (l : List α) :
    (List.range l.length).flatMap (fun i => l[i]?.elim d f) = l.flatMap f := by
  rw [List.flatMap_def, map_range_getElem?, ← List.flatMap_def]

/-- **Extending paths by the sets one after the other goes through all positions in order.** -/
theorem foldl_extend : ∀ (sets : List (String × List (Branch W))) (ps : List (ChoicePath W)),
    sets.foldl extend ps =
      ps.flatMap (fun p => (positions (sets.map (fun s => s.2.length))).map (fun is => follow sets is p))
  | [], ps => by simp [positions, follow]
  | s :: sets, ps => by
    rw [List.foldl_cons, foldl_extend sets, extend, List.flatMap_assoc]
    refine List.flatMap_congr fun p _ => ?_
    rw [List.map_cons, positions, List.map_flatMap, List.flatMap_map]
    rw [← flatMap_range_getElem? _ ((positions (sets.map (fun s => s.2.length))).map (fun is => follow sets is p)) s.2]
    refine List.flatMap_congr fun i _ => ?_
    rw [List.map_map]
    cases hi : s.2[i]? <;> simp [Function.comp_def, follow, hi]

/-- **A path that is continued at some positions takes the branches that stand there.** -/
theorem takes_follow : ∀ {sets : List (String × List (Branch W))} {is : List Nat} {p : ChoicePath W}
    {trts : List String} {branches : List (Branch W)},
    List.Forall₂ (· < ·) is (sets.map (fun s => s.2.length)) → p.Takes trts branches →
    (trts ++ sets.map Prod.fst).Pairwise (fun a b => compare a b = .lt) →
    ∃ taken, StandAt (sets.map Prod.snd) is taken ∧
      (follow sets is p).Takes (trts ++ sets.map Prod.fst) (branches ++ taken)
  | [], _, p, trts, branches, .nil, hp, _ => ⟨[], rfl, by simpa [follow] using hp⟩
  | s :: sets, i :: is, p, trts, branches, .cons hi his, hp, hincreasing => by
    have hbehind : ∀ trt ∈ trts, compare trt s.1 = .lt := fun trt htrt =>
      (List.pairwise_append.1 hincreasing).2.2 trt htrt s.1 (List.mem_cons_self ..)
    rw [List.map_cons, List.append_cons] at hincreasing
    obtain ⟨taken, hstand, htakes⟩ := takes_follow his (hp.take hbehind s.2[i]) hincreasing
    refine ⟨s.2[i] :: taken, ?_, ?_⟩
    · rw [StandAt, List.map_cons, List.map_cons, List.zipWith_cons_cons, ← hstand, List.getElem?_eq_getElem hi]
    · rw [follow, List.getElem?_eq_getElem hi, List.map_cons, List.append_cons, List.append_cons branches]
      exact htakes

/-! ## All paths -/

theorem enumerate_eq {t : BranchSetTree W} (h : t.sets.isEmpty = false) : t.enumerate =
    (positions (t.sets.values.map List.length)).map (fun is => follow t.sets.toList is (.start Scalar.one)) := by
  have hsizes : t.sets.values.map List.length = t.sets.toList.map (fun s => s.2.length) := List.map_map
  unfold enumerate
  rw [if_neg (Bool.eq_false_iff.1 h), foldl_extend, List.flatMap_singleton, hsizes]

theorem foldl_mul_pos : ∀ {ns : List Nat} {k : Nat}, 0 < k → (∀ n ∈ ns, 0 < n) → 0 < ns.foldl (· * ·) k
  | [], _, hk, _ => hk
  | n :: ns, k, hk, h => by
    have hkn : 0 < k * n := Nat.mul_pos hk (h n (List.mem_cons_self ..))
    rw [List.foldl_cons]
    exact foldl_mul_pos hkn fun n' hn' => h n' (List.mem_cons_of_mem n hn')

theorem numCombinations_pos {t : BranchSetTree W} (h : t.Checked) (hne : t.sets.isEmpty = false) :
    0 < t.numCombinations := by
  unfold numCombinations
  rw [if_neg (Bool.eq_false_iff.1 hne)]
  refine foldl_mul_pos Nat.one_pos fun n hn => ?_
  obtain ⟨branches, hbranches, rfl⟩ := List.mem_map.1 hn
  obtain ⟨s, hs, rfl⟩ := List.mem_map.1 hbranches
  exact List.length_pos_iff.2 (h s hs).nonempty

/-- **A tree enumerates the combinations of its branches in lexicographic order**, each once.  The tree holds the sets
that it was put together from, by increasing tectonic region type, in whatever order they were added.  Without sets it
has no path.  Else there are as many paths as the product of the sizes of the sets, which is not zero and which the tree
tells as far as a word holds it, and they stand in the order of the positions of their branches, the last position
varying fastest. -/
theorem enumerate_ordered {sets : List (String × List (Branch W))} {t : BranchSetTree W}
    (built : ofSets sets = .ok t) :
    (t.sets.toList.Perm sets ∧ t.trts.Pairwise (fun a b => compare a b = .lt) ∧
      ∀ sets', sets'.Perm sets → ∃ t', ofSets sets' = .ok t' ∧ t'.enumerate = t.enumerate) ∧
    (sets = [] → t.enumerate = [] ∧ t.numPaths = 0) ∧
    (sets ≠ [] → 0 < t.enumerate.length ∧ t.enumerate.length = (t.sets.values.map List.length).foldl (· * ·) 1 ∧
      t.numPaths = wrap t.enumerate.length ∧ (t.enumerate.length < wordBound → t.enumerate.length = t.numPaths) ∧
      ∃ order : List (List Nat), order.Pairwise (List.Lex (· < ·)) ∧
        (∀ is, is ∈ order ↔ List.Forall₂ (· < ·) is (t.sets.values.map List.length)) ∧
        List.Forall₂ (fun is p => ∃ branches, StandAt t.sets.values is branches ∧ p.Takes t.trts branches)
          order t.enumerate) := by
  have hperm : t.sets.toList.Perm sets := (ofSets_eq_ok.1 built).2.2
  have hempty : t.sets.isEmpty = sets.isEmpty := hperm.isEmpty_eq
  refine ⟨⟨hperm, t.sets.increasing_keys, fun sets' h => ⟨t, ofSets_perm h.symm built, rfl⟩⟩, ?_, ?_⟩
  · rintro rfl
    have hnone : t.sets.isEmpty = true := hempty
    unfold enumerate numPaths
    rw [if_pos hnone, if_pos hnone]
    exact ⟨rfl, rfl⟩
  · intro hne
    have hsome : t.sets.isEmpty = false := hempty.trans (List.isEmpty_eq_false_iff.2 hne)
    have htold : t.numPaths = wrap t.enumerate.length := (numPaths_eq t).trans (congrArg wrap (length_enumerate t)).symm
    refine ⟨?_, ?_, htold, fun hfits => (htold.trans (wrap_of_lt hfits)).symm,
      positions (t.sets.values.map List.length), positions_increasing _, fun is => mem_positions, ?_⟩
    · rw [length_enumerate]
      exact numCombinations_pos (checked_of_ofSets built) hsome
    · rw [length_enumerate, numCombinations, if_neg (Bool.eq_false_iff.1 hsome)]
    · rw [enumerate_eq hsome, List.forall₂_map_right_iff, List.forall₂_same]
      intro is his
      have hsizes := mem_positions.1 his
      rw [SortedMap.values, List.map_map] at hsizes
      change List.Forall₂ (· < ·) is (t.sets.toList.map fun s => s.2.length) at hsizes
      exact takes_follow hsizes ChoicePath.takes_start t.sets.increasing_keys

def stableFirst : List (String × List (Branch Rat)) :=
  [("Stable", [⟨"s1", "C", 1 / 2⟩, ⟨"s2", "T", 3 / 10⟩, ⟨"s3", "C", 1 / 5⟩]),
    ("Active", [⟨"a1", "B", 3 / 5⟩, ⟨"a2", "Y", 2 / 5⟩])]

theorem enumerate_ordered_stableFirst : ∃ t, ofSets stableFirst = .ok t ∧ stableFirst ≠ [] ∧
    t.enumerate.map (fun p => (p.branchIds, p.weight)) =
      [(["a1", "s1"], 3 / 10), (["a1", "s2"], 9 / 50), (["a1", "s3"], 3 / 25), (["a2", "s1"], 1 / 5),
        (["a2", "s2"], 3 / 25), (["a2", "s3"], 2 / 25)] ∧
    t.enumerate.length = t.numPaths ∧ (∃ t', ofSets stableFirst.reverse = .ok t' ∧ t'.enumerate = t.enumerate) := by
  have paths : (ofSets stableFirst).toOption.map (fun t => t.enumerate.map (fun p => (p.branchIds, p.weight))) =
      some [(["a1", "s1"], 3 / 10), (["a1", "s2"], 9 / 50), (["a1", "s3"], 3 / 25), (["a2", "s1"], 1 / 5),
        (["a2", "s2"], 3 / 25), (["a2", "s3"], 2 / 25)] := by
    decide +kernel
  obtain ⟨t, built, listed⟩ := Outcome.map_toOption_eq_some.1 paths
  obtain ⟨⟨-, -, reordered⟩, -, nonempty⟩ := enumerate_ordered built
  have two : stableFirst ≠ [] := List.cons_ne_nil _ _
  have six : t.enumerate.length = 6 := by simpa using congrArg List.length listed
  exact ⟨t, built, two, listed, (nonempty two).2.2.2.1 (six ▸ by decide), reordered _ (List.reverse_perm _)⟩

end BranchSetTree
end SeismicHazard
