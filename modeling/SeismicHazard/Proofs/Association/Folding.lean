import SeismicHazard.Proofs.Association.Routing
/-!
# Folding — which values a realization is folded from

Combining results folds a value in at each position that its key lists, so a position is folded from the values whose
keys list it, in the order of the results (`getElem?_combine`).  When there is one value for each key, in the order of
the keys, these are the values of the groups that the model of a realization uses, one for each group and in the order
of the groups (`reaching_of_draw`, `combine_used`).
-/
namespace SeismicHazard

variable {S W V : Type}

namespace Association

/-- The values that reach a position, in order, once for each time that their keys list it. -/
def reaching (a : Association W) (results : List (AssocKey × V)) (n : Nat) : List V :=
  results.flatMap (fun e => List.replicate ((a.ordinals e.1).count n) e.2)

theorem reaching_cons (a : Association W) (e : AssocKey × V) (results : List (AssocKey × V)) (n : Nat) :
    a.reaching (e :: results) n = List.replicate ((a.ordinals e.1).count n) e.2 ++ a.reaching results n :=
  List.flatMap_cons

theorem length_scatter (agg : V → V → V) (v : V) : ∀ (positions : List Nat) (acc : List V),
    (scatter agg v positions acc).length = acc.length
  | [], _ => rfl
  | o :: positions, acc => by
    have ih := length_scatter agg v positions (acc.modify o (fun x => agg x v))
    rwa [List.length_modify] at ih

theorem getElem?_scatter (agg : V → V → V) (v : V) (n : Nat) : ∀ (positions : List Nat) (acc : List V),
    (scatter agg v positions acc)[n]? = (acc[n]?).map (fun x => (List.replicate (positions.count n) v).foldl agg x)
  | [], acc => by simp [scatter]
  | o :: positions, acc => by
    have ih := getElem?_scatter agg v n positions (acc.modify o (fun x => agg x v))
    refine Eq.trans ih ?_
    rw [List.getElem?_modify]
    by_cases h : o = n
    · subst h
      rw [List.count_cons_self, List.replicate_succ]
      cases acc[o]? <;> simp
    · rw [List.count_cons_of_ne h]
      cases acc[n]? <;> simp [h]

theorem length_combine (a : Association W) (agg : V → V → V) (start : V) (results : List (AssocKey × V)) :
    (a.combine agg start results).length = a.realizations.length := by
  have hfold : ∀ (results : List (AssocKey × V)) (acc : List V),
      (results.foldl (fun acc r => scatter agg r.2 (a.ordinals r.1) acc) acc).length = acc.length := by
    intro results
    induction results with
    | nil => exact fun _ => rfl
    | cons e results ih => exact fun acc => (ih _).trans (length_scatter agg e.2 (a.ordinals e.1) acc)
  rw [combine, hfold, List.length_replicate]

theorem getElem?_foldl_scatter (a : Association W) (agg : V → V → V) (n : Nat) :
    ∀ (results : List (AssocKey × V)) (acc : List V),
      (results.foldl (fun acc r => scatter agg r.2 (a.ordinals r.1) acc) acc)[n]? =
        (acc[n]?).map (fun x => (a.reaching results n).foldl agg x)
  | [], acc => by simp [reaching]
  | e :: results, acc => by
    rw [List.foldl_cons, getElem?_foldl_scatter a agg n results, getElem?_scatter, Option.map_map]
    congr 1
    funext x
    rw [reaching_cons, List.foldl_append]
    rfl

theorem getElem?_combine (a : Association W) (agg : V → V → V) (start : V) (results : List (AssocKey × V)) {n : Nat}
    (h : n < a.realizations.length) :
    (a.combine agg start results)[n]? = some ((a.reaching results n).foldl agg start) := by
  rw [combine, getElem?_foldl_scatter, List.getElem?_replicate, if_pos h]
  rfl

theorem reaching_of_nodup {a : Association W} (h : ∀ k, (a.ordinals k).Nodup) (values : SortedMap AssocKey V)
    (n : Nat) : a.reaching values.toList n = (values.filter (fun k _ => decide (n ∈ a.ordinals k))).values := by
  have hfilter : ∀ results : List (AssocKey × V), a.reaching results n =
      (results.filter (fun e => decide (n ∈ a.ordinals e.1))).map Prod.snd := by
    intro results
    induction results with
    | nil => rfl
    | cons e results ih =>
      rw [reaching_cons, List.filter_cons, ih]
      by_cases hn : n ∈ a.ordinals e.1
      · rw [if_pos (decide_eq_true hn), List.count_eq_one_of_mem (h e.1) hn]
        rfl
      · rw [if_neg (by simpa using hn), List.count_eq_zero_of_not_mem hn]
        rfl
  exact hfilter values.toList

/-- The value for a group and the ground motion model that a realization chose for it. -/
def valueFor (values : SortedMap AssocKey V) (r : Realization W) (g : SourceGroup S) : Option V :=
  (r.choice.gsim? g.trt).bind (fun gsim => values.get? ⟨g.id, gsim⟩)

theorem linkKeys_increasing (p : ChoicePath W) {gs : List (SourceGroup S)}
    (h : gs.Pairwise (fun g g' => g.id.val < g'.id.val)) :
    (linkKeys p gs).Pairwise (fun k k' => compare k k' = .lt) := by
  refine List.Pairwise.filterMap _ (fun g g' hlt k hk k' hk' => ?_) h
  obtain ⟨gsim, -, rfl⟩ := Option.map_eq_some_iff.1 hk
  obtain ⟨gsim', -, rfl⟩ := Option.map_eq_some_iff.1 hk'
  change (compare g.id.val g'.id.val).then (compare gsim gsim') = .lt
  exact Ordering.then_eq_lt.2 (Or.inl (Nat.compare_eq_lt.2 hlt))

theorem map_linkKeys {p : ChoicePath W} (F : AssocKey → Option V) : ∀ {gs : List (SourceGroup S)},
    (∀ g ∈ gs, (p.gsim? g.trt).isSome = true) →
    (linkKeys p gs).map F = gs.map (fun g => (p.gsim? g.trt).bind (fun gsim => F ⟨g.id, gsim⟩))
  | [], _ => rfl
  | g :: gs, h => by
    obtain ⟨gsim, hgsim⟩ := Option.isSome_iff_exists.1 (h g (List.mem_cons_self ..))
    have ih := map_linkKeys F fun g' hg' => h g' (List.mem_cons_of_mem g hg')
    rw [linkKeys_cons_some hgsim, List.map_cons, List.map_cons, ih, hgsim]
    rfl

end Association

/-! ## The groups that a model uses -/

def SourceModel.usedGroups [Scalar W] (weight : SourceGroup S → W) (m : SourceModel S W) : List (SourceGroup S) :=
  sortBy (fun g g' => decide (g.id.val ≤ g'.id.val))
    (m.groups.filter (fun g => decide (g.trt ∈ (m.reduceToLive weight).tree.trts)))

namespace SourceModel

variable [Scalar W] {weight : SourceGroup S → W} {m : SourceModel S W}

theorem mem_usedGroups {g : SourceGroup S} : g ∈ m.usedGroups weight ↔ m.Uses weight g := by
  rw [usedGroups, (sortBy_perm _ _).mem_iff, List.mem_filter, decide_eq_true_iff]
  rfl

theorem usedGroups_increasing (h : (m.groups.map SourceGroup.id).Nodup) :
    (m.usedGroups weight).Pairwise (fun g g' => g.id.val < g'.id.val) := by
  have hids : ((m.groups.map SourceGroup.id).map GroupId.val).Nodup := h.map fun ⟨_⟩ ⟨_⟩ heq => congrArg _ heq
  rw [List.map_map] at hids
  exact sortBy_increasing (fun g : SourceGroup S => g.id.val) (hids.sublist (List.filter_sublist.map _))

end SourceModel

/-! ## Built associations -/

theorem filterMap_of_map_some {α β : Type} {F : α → Option β} {l : List α} {r : List β} (h : r.map some = l.map F) :
    (∀ a ∈ l, (F a).isSome = true) ∧ l.filterMap F = r := by
  constructor
  · intro a ha
    obtain ⟨b, -, hb⟩ := List.mem_map.1 (h ▸ List.mem_map_of_mem ha : F a ∈ r.map some)
    exact hb ▸ rfl
  · have hid : l.filterMap F = (l.map F).filterMap id := by rw [List.filterMap_map]; rfl
    rw [hid, ← h, List.filterMap_map]
    exact List.filterMap_some

namespace Composite

variable [Scalar W] {weight : SourceGroup S → W} {c : Composite S W} {a : Association W} {m : SourceModel S W} {i : Nat}
  {r : Realization W}

/-- **The values that reach a draw are those of the groups that its model uses**, one for each group and in order. -/
theorem reaching_of_draw (ids : (m.groups.map SourceGroup.id).Nodup) (listed : ∀ k, (a.ordinals k).Nodup)
    (hd : c.IsDraw weight a m i r) {values : SortedMap AssocKey V}
    (complete : ∀ k ∈ a.index.keys, values.contains k = true) :
    (a.reaching values.toList r.ordinal).map some = (m.usedGroups weight).map (Association.valueFor values r) := by
  have hcovered : ∀ g ∈ m.usedGroups weight, (r.choice.gsim? g.trt).isSome = true := fun g hg =>
    (hd.covers g.trt).2 (SourceModel.mem_usedGroups.1 hg).2
  have hlink : ∀ k, k ∈ Association.linkKeys r.choice (m.usedGroups weight) ↔ r.ordinal ∈ a.ordinals k := by
    intro k
    rw [hd.listed, Association.mem_linkKeys, Association.mem_linkKeys]
    constructor
    · rintro ⟨g, hg, hk⟩
      exact ⟨g, (SourceModel.mem_usedGroups.1 hg).1, hk⟩
    · rintro ⟨g, hg, hid, hgsim⟩
      refine ⟨g, SourceModel.mem_usedGroups.2 ⟨hg, (hd.covers g.trt).1 ?_⟩, hid, hgsim⟩
      rw [hgsim]
      rfl
  have hvalue : ∀ k, r.ordinal ∈ a.ordinals k → ∃ v, values.get? k = some v := by
    intro k hk
    refine Option.isSome_iff_exists.1 (complete k (SortedMap.mem_keys.2 ?_))
    cases hget : a.index.get? k with
    | none =>
      rw [Association.ordinals, hget] at hk
      cases hk
    | some positions => exact ⟨positions, rfl⟩
  have hkeys : (values.filter (fun k _ => decide (r.ordinal ∈ a.ordinals k))).keys =
      Association.linkKeys r.choice (m.usedGroups weight) := by
    refine SortedMap.eq_of_increasing (SortedMap.increasing_keys _)
      (Association.linkKeys_increasing _ (SourceModel.usedGroups_increasing ids)) fun k => ?_
    rw [hlink, SortedMap.mem_keys, SortedMap.get?_filter]
    constructor
    · rintro ⟨v, hv⟩
      obtain ⟨_, _⟩ := Option.filter_eq_some_iff.1 hv
      simp_all
    · intro hk
      obtain ⟨v, hv⟩ := hvalue k hk
      exact ⟨v, by simp [hv, hk]⟩
  rw [Association.reaching_of_nodup listed, SortedMap.map_some_values, hkeys]
  refine Eq.trans (List.map_congr_left fun k hk => ?_) (Association.map_linkKeys values.get? hcovered)
  obtain ⟨v, hv⟩ := hvalue k ((hlink k).1 hk)
  rw [SortedMap.get?_filter, hv]
  simp [(hlink k).1 hk]

structure FoldedByGroup (weight : SourceGroup S → W) (c : Composite S W) (a : Association W)
    (values : SortedMap AssocKey V) (agg : V → V → V) (start : V) (result : List V) : Prop where
  /-- There is one result for each realization, -/
  length : result.length = a.realizations.length
  /-- and each realization belongs to a model. -/
  attributed : ∀ r ∈ a.realizations, ∃ m ∈ c.models, r ∈ a.realizationsOf m.ordinal
  /-- The groups that the model uses are taken by number, -/
  increasing : ∀ m ∈ c.models, (m.usedGroups weight).Pairwise (fun g g' => g.id.val < g'.id.val)
  /-- each has a value for the ground motion model that the realization chose, -/
  valued : ∀ m ∈ c.models, ∀ r ∈ a.realizationsOf m.ordinal, ∀ g ∈ m.usedGroups weight,
    (Association.valueFor values r g).isSome = true
  /-- and the realization is folded from these values and no other. -/
  folded : ∀ m ∈ c.models, ∀ r ∈ a.realizationsOf m.ordinal, result[r.ordinal]? =
    some (((m.usedGroups weight).filterMap (Association.valueFor values r)).foldl agg start)

/-- **Combining one value for each key folds each realization from the values of the groups that its model uses.** -/
theorem combine_used (weight : SourceGroup S → W) (c : Composite S W) (groups : (c.groups.map SourceGroup.id).Nodup)
    (models : (c.models.map SourceModel.ordinal).Nodup) (a : Association W) (h : (c.associateBy weight).2 = .ok a)
    (values : SortedMap AssocKey V) (complete : ∀ k ∈ a.index.keys, values.contains k = true) (agg : V → V → V)
    (start : V) : c.FoldedByGroup weight a values agg start (a.combine agg start values.toList) := by
  obtain ⟨hdraws, hparts⟩ := isDraw_of_associateBy models h
  have hids : ∀ m ∈ c.models, (m.groups.map SourceGroup.id).Nodup := fun m hm =>
    groups.sublist ((sublist_groups hm).map SourceGroup.id)
  have hreach : ∀ m ∈ c.models, ∀ r ∈ a.realizationsOf m.ordinal, r.ordinal < a.realizations.length ∧
      (a.reaching values.toList r.ordinal).map some = (m.usedGroups weight).map (Association.valueFor values r) := by
    intro m hm r hr
    obtain ⟨i, hi⟩ := List.mem_iff_getElem?.1 hr
    have hd := hparts m hm i r hi
    exact ⟨(List.getElem?_eq_some_iff.1 hd.position).1,
      reaching_of_draw (hids m hm) (nodup_listed groups models h) hd complete⟩
  constructor
  case length => exact Association.length_combine a agg start values.toList
  case attributed =>
    intro r hr
    obtain ⟨n, hn⟩ := List.mem_iff_getElem?.1 hr
    obtain ⟨-, m, hm, i, hd⟩ := hdraws n r hn
    exact ⟨m, hm, List.mem_of_getElem? hd.part⟩
  case increasing => exact fun m hm => SourceModel.usedGroups_increasing (hids m hm)
  case valued => exact fun m hm r hr => (filterMap_of_map_some (hreach m hm r hr).2).1
  case folded =>
    intro m hm r hr
    obtain ⟨hlt, hvalues⟩ := hreach m hm r hr
    rw [Association.getElem?_combine a agg start values.toList hlt, (filterMap_of_map_some hvalues).2]

/-- A model with its groups out of order, one of which it does not use and another not live by itself, and a second
model. -/
def descending : Composite Unit Rat :=
  let active := ("Active", [⟨"b1", "A", 1 / 4⟩, ⟨"b2", "B", 1 / 4⟩, ⟨"b3", "A", 1 / 2⟩])
  let stable := ("Stable", [⟨"b4", "C", 1⟩])
  let volcanic := ("Volcanic", [⟨"b5", "D", 1⟩])
  .ofModels [
    ⟨"down", 1 / 2, ["s1"], [{ id := ⟨6⟩, trt := "Active", ruptures := 4 }, { id := ⟨4⟩, trt := "Volcanic" },
      { id := ⟨3⟩, trt := "Stable", ruptures := 1 }, { id := ⟨1⟩, trt := "Active" }],
      ⟨.ofList [active, stable, volcanic]⟩, 1, 1⟩,
    ⟨"other", 1 / 2, ["s2"], [{ id := ⟨2⟩, trt := "Stable", ruptures := 2 }], ⟨.ofList [stable]⟩, 0, 1⟩] {}

def keyedValues : SortedMap AssocKey (List Nat) :=
  .ofList [(⟨⟨1⟩, "A"⟩, [10]), (⟨⟨1⟩, "B"⟩, [11]), (⟨⟨2⟩, "C"⟩, [20]), (⟨⟨3⟩, "C"⟩, [30]), (⟨⟨6⟩, "A"⟩, [60]),
    (⟨⟨6⟩, "B"⟩, [61])]

theorem combine_used_descending :
    (descending.groups.map SourceGroup.id).Nodup ∧ (descending.models.map SourceModel.ordinal).Nodup ∧
    ∃ a, (descending.associateBy ruptureCount).2 = .ok a ∧
      (∀ k ∈ a.index.keys, keyedValues.contains k = true) ∧
      descending.FoldedByGroup ruptureCount a keyedValues (· ++ ·) [] (a.combine (· ++ ·) [] keyedValues.toList) ∧
      a.combine (· ++ ·) [] keyedValues.toList = [[20], [10, 30, 60], [11, 30, 61], [10, 30, 60]] := by
  have groups : (descending.groups.map SourceGroup.id).Nodup := by decide +kernel
  have models : (descending.models.map SourceModel.ordinal).Nodup := by decide +kernel
  have combined : (descending.associateBy ruptureCount).2.toOption.map (fun a =>
      (a.index.keys, a.combine (· ++ ·) [] keyedValues.toList)) =
        some (keyedValues.keys, [[20], [10, 30, 60], [11, 30, 61], [10, 30, 60]]) := by
    decide +kernel
  obtain ⟨a, ha, hvalues⟩ := Outcome.map_toOption_eq_some.1 combined
  obtain ⟨hkeys, hresult⟩ := Prod.mk.inj hvalues
  have complete : ∀ k ∈ a.index.keys, keyedValues.contains k = true := by
    rw [hkeys]
    decide +kernel
  exact ⟨groups, models, a, ha, complete,
    combine_used ruptureCount descending groups models a ha keyedValues complete (· ++ ·) [], hresult⟩

end Composite
end SeismicHazard
