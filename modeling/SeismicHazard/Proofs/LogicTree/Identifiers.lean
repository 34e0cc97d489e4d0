import SeismicHazard.Proofs.LogicTree.Checking
import Mathlib.Data.List.ProdSigma
/-!
# Identifiers — when the identifier of a path tells it from the others

The identifier of a path joins those of its branches by underscores, and nothing keeps an underscore out of these.  So
branches that are all told apart do not make paths that are (`identifiers_clash`).  What it takes is that no identifier
of a set goes on, behind an underscore, from another one of the set (`ToldApart`).  Joined by underscores, the members
of two such lists make such a list again (`ToldApart.joined`), and the identifiers of the paths are made in this way,
set after set (`toldApart_enumerate`).
-/
namespace SeismicHazard

/-! ## Joined identifiers -/

/-- Identifiers are told apart, by themselves and in front of an underscore. -/
structure ToldApart (ids : List String) : Prop where
  nodup : ids.Nodup
  /-- None goes on from another one, or from itself, with an underscore. -/
  ended : ∀ a ∈ ids, ∀ b ∈ ids, ¬a.toList ++ ['_'] <+: b.toList

instance (ids : List String) : Decidable (ToldApart ids) :=
  decidable_of_iff (ids.Nodup ∧ ∀ a ∈ ids, ∀ b ∈ ids, ¬a.toList ++ ['_'] <+: b.toList)
    ⟨fun h => ⟨h.1, h.2⟩, fun h => ⟨h.nodup, h.ended⟩⟩

theorem toldApart_of_no_underscore {ids : List String} (nodup : ids.Nodup) (h : ∀ a ∈ ids, '_' ∉ a.toList) :
    ToldApart ids :=
  ⟨nodup, fun _ _ b hb hbegins => h b hb (hbegins.subset (List.mem_append_right _ (List.mem_singleton_self _)))⟩

def joined (as bs : List String) : List String := (as.product bs).map (fun x => x.1 ++ "_" ++ x.2)

namespace ToldApart

variable {as bs : List String}

theorem eq_nil_of_split (h : ToldApart as) {a a' : String} (ha : a ∈ as) (ha' : a' ∈ as) {x y z : List Char}
    (hsplit : a'.toList = a.toList ++ z) (hbehind : '_' :: x = z ++ y) : z = [] := by
  cases z with
  | nil => rfl
  | cons c z =>
    obtain ⟨rfl, -⟩ := List.cons.inj hbehind
    refine absurd ⟨z, ?_⟩ (h.ended a ha a' ha')
    rw [hsplit, List.append_assoc]
    rfl

/-- **What stands in front of the underscore is found again**, and so is what stands behind it. -/
theorem eq_of_append_eq (h : ToldApart as) {a a' : String} (ha : a ∈ as) (ha' : a' ∈ as) {x y : List Char}
    (heq : a.toList ++ '_' :: x = a'.toList ++ '_' :: y) : a = a' ∧ x = y := by
  rcases List.append_eq_append_iff.1 heq with ⟨z, hsplit, hbehind⟩ | ⟨z, hsplit, hbehind⟩
  · obtain rfl := h.eq_nil_of_split ha ha' hsplit hbehind
    rw [List.append_nil] at hsplit
    exact ⟨String.toList_inj.1 hsplit.symm, (List.cons.inj hbehind).2⟩
  · obtain rfl := h.eq_nil_of_split ha' ha hsplit hbehind
    rw [List.append_nil] at hsplit
    exact ⟨String.toList_inj.1 hsplit, (List.cons.inj hbehind).2.symm⟩

theorem toList_join (a b : String) : (a ++ "_" ++ b).toList = a.toList ++ '_' :: b.toList := by
  rw [String.toList_append, String.toList_append, List.append_assoc]
  rfl

theorem joined (has : ToldApart as) (hbs : ToldApart bs) : ToldApart (joined as bs) := by
  constructor
  case nodup =>
    refine List.Nodup.map_on ?_ (has.nodup.product hbs.nodup)
    rintro ⟨a, b⟩ hx ⟨a', b'⟩ hy heq
    have hlists := congrArg String.toList heq
    rw [toList_join, toList_join] at hlists
    obtain ⟨ha, hb⟩ := has.eq_of_append_eq (List.mem_product.1 hx).1 (List.mem_product.1 hy).1 hlists
    exact Prod.ext ha (String.toList_inj.1 hb)
  case ended =>
    intro c hc c' hc' hbegins
    obtain ⟨⟨a, b⟩, hx, rfl⟩ := List.mem_map.1 hc
    obtain ⟨⟨a', b'⟩, hy, rfl⟩ := List.mem_map.1 hc'
    obtain ⟨ha, hb⟩ := List.mem_product.1 hx
    obtain ⟨ha', hb'⟩ := List.mem_product.1 hy
    obtain ⟨rest, heq⟩ := hbegins
    rw [toList_join, toList_join, List.append_assoc, List.append_assoc] at heq
    -- the first parts are the same, so that the second parts would go on from each other
    obtain ⟨-, hsecond⟩ := has.eq_of_append_eq ha ha' heq
    exact hbs.ended b hb b' hb' ⟨rest, by rw [List.append_assoc]; exact hsecond⟩

end ToldApart

/-! ## Identifiers of paths -/

namespace ChoicePath

variable {W : Type} [Scalar W]

theorem uid_start_take (w : W) (trt : String) (b : Branch W) : ((start w).take trt b).uid = b.id :=
  String.intercalate_singleton

theorem uid_take {p : ChoicePath W} (h : p.branchIds ≠ []) (trt : String) (b : Branch W) :
    (p.take trt b).uid = p.uid ++ "_" ++ b.id := by
  change "_".intercalate (p.branchIds ++ [b.id]) = _
  rw [String.intercalate_append_of_ne_nil h (List.cons_ne_nil _ _), String.intercalate_singleton]
  rfl

end ChoicePath

namespace BranchSetTree

variable {W : Type}

def IdsApart (t : BranchSetTree W) : Prop := ∀ s ∈ t.sets.toList, ToldApart (s.2.map Branch.id)

theorem IdsApart.reduce {t : BranchSetTree W} (h : t.IdsApart) (keep : SortedSet String) : (t.reduce keep).IdsApart :=
  fun s hs => h s (List.mem_filter.1 hs).1

variable [Scalar W]

theorem branchIds_ne_nil_of_mem_extend {ps : List (ChoicePath W)} {s : String × List (Branch W)} :
    ∀ p ∈ extend ps s, p.branchIds ≠ [] := by
  intro p hp
  obtain ⟨q, -, hp⟩ := List.mem_flatMap.1 hp
  obtain ⟨b, -, rfl⟩ := List.mem_map.1 hp
  exact List.append_ne_nil_of_right_ne_nil _ (List.cons_ne_nil _ _)

theorem map_uid_extend {ps : List (ChoicePath W)} (h : ∀ p ∈ ps, p.branchIds ≠ []) (s : String × List (Branch W)) :
    (extend ps s).map ChoicePath.uid = joined (ps.map ChoicePath.uid) (s.2.map Branch.id) := by
  have hproduct : joined (ps.map ChoicePath.uid) (s.2.map Branch.id) =
      ps.flatMap (fun p => s.2.map (fun b => p.uid ++ "_" ++ b.id)) := by
    simp only [joined, List.product, List.flatMap_map, List.map_flatMap, List.map_map]
    rfl
  rw [hproduct, extend, List.map_flatMap]
  refine List.flatMap_congr fun p hp => ?_
  rw [List.map_map]
  exact List.map_congr_left fun b _ => ChoicePath.uid_take (h p hp) s.1 b

/-- **Paths that are told apart stay so when they are extended** by sets whose branches are. -/
theorem toldApart_foldl_extend : ∀ (sets : List (String × List (Branch W))) {ps : List (ChoicePath W)},
    (∀ s ∈ sets, ToldApart (s.2.map Branch.id)) → (∀ p ∈ ps, p.branchIds ≠ []) → ToldApart (ps.map ChoicePath.uid) →
    ToldApart ((sets.foldl extend ps).map ChoicePath.uid)
  | [], _, _, _, h => h
  | s :: sets, ps, hsets, hps, h => by
    obtain ⟨hs, hsets⟩ := List.forall_mem_cons.1 hsets
    refine toldApart_foldl_extend sets hsets branchIds_ne_nil_of_mem_extend ?_
    rw [map_uid_extend hps]
    exact h.joined hs

/-- **The paths of a tree are told apart by their identifiers** if the branches of each set are. -/
theorem toldApart_enumerate {t : BranchSetTree W} (h : t.IdsApart) : ToldApart (t.enumerate.map ChoicePath.uid) := by
  unfold enumerate
  split
  · exact ⟨List.nodup_nil, fun a ha => by cases ha⟩
  · rename_i hsome
    obtain ⟨s, sets, hsets⟩ := List.exists_cons_of_ne_nil fun hnil : t.sets.toList = [] =>
      hsome (List.isEmpty_iff.2 hnil)
    unfold IdsApart at h
    rw [hsets] at h ⊢
    obtain ⟨hs, hrest⟩ := List.forall_mem_cons.1 h
    refine toldApart_foldl_extend sets hrest branchIds_ne_nil_of_mem_extend ?_
    -- the paths behind the first set are its branches
    have hfirst : (extend [ChoicePath.start (Scalar.one : W)] s).map ChoicePath.uid = s.2.map Branch.id := by
      rw [extend, List.flatMap_singleton, List.map_map]
      exact List.map_congr_left fun b _ => ChoicePath.uid_start_take _ s.1 b
    rw [hfirst]
    exact hs

end BranchSetTree
end SeismicHazard
