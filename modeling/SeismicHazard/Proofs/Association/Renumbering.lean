import SeismicHazard.Proofs.Association.Partition
import SeismicHazard.Proofs.Composite.Collections
/-!
# Renumbering — the order in which models are stored

Models are visited in the order of their numbers, but their collections are given out in the order in which the models
are stored.  Stored in another order, the same models give a draw of a group another collection, and the one composition
is the other renumbered (`renumbers_ofModels`).  Every step of a build commutes with a renumbering, also when it fails
(`linkGroups_renumber`, `addPaths_renumber`, `addModels_renumber`, `normalize_renumber`).  So the order in which models
are stored shows in the collections and nowhere else (`storage_order_irrelevant`).
-/
namespace SeismicHazard

/-! ## Images of sets -/

namespace SortedSet

variable {κ ι : Type} [Ord κ] [Std.TransOrd κ] [Std.LawfulEqOrd κ] [Ord ι] [Std.TransOrd ι] [Std.LawfulEqOrd ι]

def image (f : κ → ι) (s : SortedSet κ) : SortedSet ι := ofList (s.keys.map f)

theorem ext_contains {s t : SortedSet κ} (h : ∀ k, s.contains k = true ↔ t.contains k = true) : s = t := by
  refine SortedMap.ext_get? fun k => ?_
  have hk := h k
  unfold SortedMap.contains at hk
  cases hs : SortedMap.get? s k <;> cases ht : SortedMap.get? t k <;> simp_all

theorem contains_insert {s : SortedSet κ} {a k : κ} :
    (insert s a).contains k = true ↔ k = a ∨ s.contains k = true := by
  have h := contains_foldl_insert [a] s k
  rwa [List.mem_singleton] at h

omit [Std.TransOrd κ] in
theorem contains_image {f : κ → ι} {s : SortedSet κ} {b : ι} :
    (image f s).contains b = true ↔ ∃ a, s.contains a = true ∧ f a = b := by
  rw [image, contains_ofList, List.mem_map]
  simp only [SortedMap.mem_keys, ← Option.isSome_iff_exists]
  rfl

theorem image_insert (f : κ → ι) (s : SortedSet κ) (a : κ) : image f (insert s a) = insert (image f s) (f a) := by
  refine ext_contains fun b => ?_
  simp only [contains_image, contains_insert]
  constructor
  · rintro ⟨k, rfl | hk, rfl⟩
    · exact Or.inl rfl
    · exact Or.inr ⟨k, hk, rfl⟩
  · rintro (rfl | ⟨k, hk, rfl⟩)
    · exact ⟨a, Or.inl rfl, rfl⟩
    · exact ⟨k, Or.inr hk, rfl⟩

end SortedSet

variable {S W : Type}

/-! ## Renumbered collections -/

namespace Composition

/-- The collection that another composition gives to the group and draw of a collection. -/
def renumber (c c' : Composition) (col : CollectionId) : CollectionId :=
  match c.collections.toList.find? (fun e => e.2 = col) with
  | some e => (c'.collections.get? e.1).getD col
  | none => col

def Renumbers (f : CollectionId → CollectionId) (c c' : Composition) : Prop :=
  ∀ g i, c'.collection? g i = (c.collection? g i).map f

theorem renumbers_renumber {c c' : Composition} (fresh : c.Fresh)
    (h : ∀ g i, (c'.collection? g i).isSome = true ↔ (c.collection? g i).isSome = true) :
    Renumbers (c.renumber c') c c' := by
  intro g i
  have hgi := h g i
  cases hcol : c.collection? g i with
  | none =>
    rw [hcol] at hgi
    simpa using hgi
  | some col =>
    rw [hcol] at hgi
    obtain ⟨col', hcol'⟩ := Option.isSome_iff_exists.1 (hgi.2 rfl)
    have hkey : c'.collections.get? ⟨g, i⟩ = some col' := hcol'
    rw [hcol', Option.map_some, renumber, fresh.find?_collection hcol]
    simp only [hkey, Option.getD_some]

/-- **Models that are stored in another order get their collections renumbered.** -/
theorem renumbers_ofModels {ms ms' : List (SourceModel S W)} (h : ms.Perm ms') :
    Renumbers ((ofModels ms).renumber (ofModels ms')) (ofModels ms) (ofModels ms') := by
  refine renumbers_renumber (fresh_ofModels ms) fun g i => ?_
  rw [collection?_ofModels, collection?_ofModels]
  simp only [h.mem_iff]

end Composition

def Realization.renumber (f : CollectionId → CollectionId) (r : Realization W) : Realization W :=
  { r with collections := SortedSet.image f r.collections }

namespace Association

def Links.renumber (f : CollectionId → CollectionId) (links : Links) : Links :=
  { links with collections := SortedSet.image f links.collections }

def Linking.map {α β : Type} (f : α → β) (linked : Linking S α) : Linking S β :=
  { groups := linked.groups, result := linked.result.map f }

/-- The association of another composition, with the collections of the realizations renumbered. -/
def renumber (f : CollectionId → CollectionId) (c : Composition) (a : Association W) : Association W :=
  { a with composition := c, realizations := a.realizations.map (Realization.renumber f) }

theorem realizationsOf_renumber (f : CollectionId → CollectionId) (c : Composition) (a : Association W) (i : Nat) :
    (a.renumber f c).realizationsOf i = (a.realizationsOf i).map (Realization.renumber f) := by
  unfold realizationsOf renumber
  dsimp only
  split
  · rw [List.map_take, List.map_drop]
  · rfl

theorem reweight_renumber (f : CollectionId → CollectionId) (c : Composition) (g : W → W) (a : Association W) :
    (a.renumber f c).reweight g = (a.reweight g).renumber f c := by
  unfold reweight renumber
  rw [List.map_map, List.map_map]
  rfl

theorem noteModel_renumber (f : CollectionId → CollectionId) (c : Composition) (model first : Nat) (a : Association W) :
    noteModel model first (a.renumber f c) = (noteModel model first a).renumber f c := by
  unfold noteModel renumber
  dsimp only
  rw [List.length_map]

/-- An association and another that differs from it in the numbers of collections only. -/
structure Renumbered (f : CollectionId → CollectionId) (a a' : Association W) : Prop where
  /-- The realizations have the same numbers, paths and weights; their collections are renumbered. -/
  realizations : a'.realizations = a.realizations.map (Realization.renumber f)
  index : a'.index = a.index
  gsimByTrt : a'.gsimByTrt = a.gsimByTrt
  contributingModels : a'.contributingModels = a.contributingModels
  realizationsOf : ∀ i, a'.realizationsOf i = (a.realizationsOf i).map (Realization.renumber f)

theorem renumbered_renumber (f : CollectionId → CollectionId) (c : Composition) (a : Association W) :
    a.Renumbered f (a.renumber f c) :=
  ⟨rfl, rfl, rfl, rfl, realizationsOf_renumber f c a⟩

/-! ## Steps of a build -/

variable {f : CollectionId → CollectionId} {c c' : Composition}

theorem addCollection_renumber (h : c.Renumbers f c') (samples draw : Nat) (g : GroupId)
    (cols : SortedSet CollectionId) : addCollection c' samples draw g (SortedSet.image f cols) =
      (addCollection c samples draw g cols).map (SortedSet.image f) := by
  unfold addCollection
  split
  · rw [h g draw]
    cases c.collection? g draw with
    | none => rfl
    | some col => exact congrArg Except.ok (SortedSet.image_insert f cols col).symm
  · rfl

theorem linkGroups_renumber (h : c.Renumbers f c') (m : SourceModel S W) (draw ordinal : Nat) (p : ChoicePath W) :
    ∀ (gs : List (SourceGroup S)) (links : Links), linkGroups c' m draw ordinal p gs (links.renumber f) =
      (linkGroups c m draw ordinal p gs links).map (Links.renumber f)
  | [], _ => rfl
  | g :: gs, links => by
    rw [linkGroups, linkGroups]
    cases p.gsim? g.trt with
    | none =>
      dsimp only
      rw [linkGroups_renumber h m draw ordinal p gs links]
      rfl
    | some gsim =>
      have hcols : addCollection c' m.samples draw g.id (links.renumber f).collections = _ :=
        addCollection_renumber h m.samples draw g.id links.collections
      dsimp only
      rw [hcols]
      cases addCollection c m.samples draw g.id links.collections with
      | error e => rfl
      | ok cols =>
        have ih := linkGroups_renumber h m draw ordinal p gs ⟨listUnder ⟨g.id, gsim⟩ ordinal links.index, cols⟩
        simp only [Links.renumber] at ih
        simp only [Except.map, Links.renumber, ih]
        rfl

variable [Scalar W]

theorem enter_renumber (m : SourceModel S W) (p : ChoicePath W) (links : Links) (a : Association W) :
    (a.renumber f c').enter m p (links.renumber f) = (a.enter m p links).renumber f c' := by
  unfold enter renumber
  dsimp only
  rw [List.map_append, List.length_map]
  rfl

theorem addPaths_renumber (m : SourceModel S W) : ∀ (ps : List (ChoicePath W)) (draw : Nat)
    (groups : List (SourceGroup S)) (a : Association W), a.composition.Renumbers f c' →
    addPaths m ps draw groups (a.renumber f c') = (addPaths m ps draw groups a).map (renumber f c')
  | [], _, _, _, _ => rfl
  | p :: ps, draw, groups, a, h => by
    have hlen : (a.renumber f c').realizations.length = a.realizations.length := List.length_map _
    have hlink : linkGroups (a.renumber f c').composition m draw a.realizations.length p groups
        ⟨(a.renumber f c').index, .empty⟩ = _ :=
      linkGroups_renumber h m draw a.realizations.length p groups ⟨a.index, .empty⟩
    rw [addPaths_cons, addPaths_cons]
    dsimp only
    rw [hlen, hlink]
    cases hr : (linkGroups a.composition m draw a.realizations.length p groups ⟨a.index, .empty⟩).result with
    | error e => simp only [Linking.map, hr, Except.map]
    | ok links =>
      simp only [Linking.map, hr, Except.map]
      rw [enter_renumber]
      exact addPaths_renumber m ps (draw + 1) _ _ h

theorem addModel_renumber (sampling : SamplingSettings) (m : SourceModel S W) (a : Association W)
    (h : a.composition.Renumbers f c') : addModel sampling m (a.renumber f c') =
      ((addModel sampling m a).1, (addModel sampling m a).2.map (renumber f c')) := by
  have hlen : (a.renumber f c').realizations.length = a.realizations.length := List.length_map _
  unfold addModel
  cases m.paths sampling with
  | error e => rfl
  | ok ps =>
    cases ps with
    | nil => rfl
    | cons p ps =>
      dsimp only
      rw [addPaths_renumber m (p :: ps) 0 m.groups a h, hlen]
      simp only [Linking.map]
      cases (addPaths m (p :: ps) 0 m.groups a).result with
      | error e => rfl
      | ok b => exact congrArg (fun b => (_, Except.ok b)) (noteModel_renumber f c' m.ordinal a.realizations.length b)

/-- **Adding models commutes with a renumbering**, and a failure stays the same. -/
theorem addModels_renumber (sampling : SamplingSettings) (weight : SourceGroup S → W) :
    ∀ (ms : List (SourceModel S W)) (a : Association W), a.composition.Renumbers f c' →
      (addModels sampling weight ms (a.renumber f c')).2 = (addModels sampling weight ms a).2.map (renumber f c')
  | [], _, _ => rfl
  | m :: ms, a, h => by
    rw [addModels, addModels, addModel_renumber sampling (m.reduceToLive weight) a h]
    dsimp only
    cases hb : (addModel sampling (m.reduceToLive weight) a).2 with
    | error e => rfl
    | ok b =>
      have hc : b.composition = a.composition := composition_addModel hb
      exact addModels_renumber sampling weight ms b (hc ▸ h)

theorem normalize_renumber (sampling : SamplingSettings) (c : Composition) (a : Association W) :
    (a.renumber f c).normalize sampling = (a.normalize sampling).map (renumber f c) := by
  have hlen : (a.renumber f c).realizations.length = a.realizations.length := List.length_map _
  have hweights : (a.renumber f c).realizations.map Realization.weight = a.realizations.map Realization.weight := by
    unfold renumber
    rw [List.map_map]
    rfl
  unfold normalize
  rw [hlen, hweights]
  dsimp only
  simp only [reweight_renumber]
  split <;> split <;> rfl

end Association

/-! ## Two orders of storage -/

namespace Composite

theorem byOrdinal_congr {ms ms' : List (SourceModel S W)} (h : ms.Perm ms')
    (ordinals : (ms.map SourceModel.ordinal).Nodup) : (byOrdinal ms).map Prod.fst = (byOrdinal ms').map Prod.fst := by
  have ordinals' : (ms'.map SourceModel.ordinal).Nodup := (h.map SourceModel.ordinal).nodup_iff.1 ordinals
  have hinc := List.pairwise_map.1 (byOrdinal_increasing ordinals)
  have hinc' := List.pairwise_map.1 (byOrdinal_increasing ordinals')
  have hperm : ((byOrdinal ms).map Prod.fst).Perm ((byOrdinal ms').map Prod.fst) :=
    (byOrdinal_perm ms).trans (h.trans (byOrdinal_perm ms').symm)
  exact hperm.eq_of_pairwise (fun _ _ _ _ hab hba => absurd hab (Nat.lt_asymm hba)) hinc hinc'

/-- Two builds that end alike: with the same failure, or with associations that differ in the numbers of collections. -/
structure EndsAlike (f : CollectionId → CollectionId) (result result' : Except Abort (Association W)) : Prop where
  failed : ∀ e, result = .error e ↔ result' = .error e
  built : ∀ a, result = .ok a → ∃ a', result' = .ok a' ∧ a.Renumbered f a'

/-- **The order in which models are stored shows in the numbers of collections and nowhere else.** -/
theorem storage_order_irrelevant [Scalar W] {ms ms' : List (SourceModel S W)} (h : ms.Perm ms')
    (ordinals : (ms.map SourceModel.ordinal).Nodup) (sampling : SamplingSettings) (weight : SourceGroup S → W) :
    ∃ f, (Composition.ofModels ms).Renumbers f (Composition.ofModels ms') ∧
      EndsAlike f ((ofModels ms sampling).associateBy weight).2 ((ofModels ms' sampling).associateBy weight).2 := by
  have hf := Composition.renumbers_ofModels h
  refine ⟨_, hf, ?_⟩
  generalize (Composition.ofModels ms).renumber (Composition.ofModels ms') = f at hf
  have hempty : (Association.empty (Composition.ofModels ms') : Association W) =
      (Association.empty (Composition.ofModels ms)).renumber f (Composition.ofModels ms') := rfl
  have hadded := Association.addModels_renumber sampling weight ((byOrdinal ms).map Prod.fst)
    (Association.empty (Composition.ofModels ms)) hf
  have hresult : ((ofModels ms' sampling).associateBy weight).2 =
      ((ofModels ms sampling).associateBy weight).2.map (Association.renumber f (Composition.ofModels ms')) := by
    unfold associateBy ofModels
    dsimp only
    rw [← byOrdinal_congr h ordinals, hempty, hadded]
    cases (Association.addModels sampling weight ((byOrdinal ms).map Prod.fst)
      (Association.empty (Composition.ofModels ms))).2 with
    | error e => rfl
    | ok b =>
      simp only [Except.map, Except.bind, Association.normalize_renumber]
      cases b.normalize sampling <;> rfl
  rw [hresult]
  constructor
  case failed =>
    intro e
    cases ((ofModels ms sampling).associateBy weight).2 with
    | error e' => exact Iff.rfl
    | ok a => constructor <;> (intro he; cases he)
  case built =>
    rintro a ha
    rw [ha]
    exact ⟨_, rfl, Association.renumbered_renumber f _ a⟩

def storedBackwards : List (SourceModel Unit Rat) :=
  let active := ("Active", [⟨"b1", "A", 1 / 2⟩, ⟨"b2", "B", 1 / 2⟩])
  [⟨"second", 1 / 2, ["s2"], [{ id := ⟨1⟩, trt := "Active", ruptures := 4 }], ⟨.ofList [active]⟩, 1, 2⟩,
   ⟨"first", 1 / 2, ["s1"], [{ id := ⟨2⟩, trt := "Active", ruptures := 1 }], ⟨.ofList [active]⟩, 0, 2⟩]

theorem storage_order_irrelevant_storedBackwards : storedBackwards.Perm storedBackwards.reverse ∧
    (storedBackwards.map SourceModel.ordinal).Nodup ∧
    (∃ f, (Composition.ofModels storedBackwards).Renumbers f (Composition.ofModels storedBackwards.reverse) ∧
      EndsAlike f ((ofModels storedBackwards { samples := 4 }).associateBy ruptureCount).2
        ((ofModels storedBackwards.reverse { samples := 4 }).associateBy ruptureCount).2) ∧
    [storedBackwards, storedBackwards.reverse].map (fun ms =>
      ((ofModels ms { samples := 4 }).associateBy ruptureCount).2.toOption.map (fun a =>
        a.realizations.map (fun r => r.collections.keys))) =
      [some [[⟨2⟩], [⟨3⟩], [⟨0⟩], [⟨1⟩]], some [[⟨0⟩], [⟨1⟩], [⟨2⟩], [⟨3⟩]]] := by
  have perm : storedBackwards.Perm storedBackwards.reverse := (List.reverse_perm storedBackwards).symm
  have ordinals : (storedBackwards.map SourceModel.ordinal).Nodup := by decide +kernel
  exact ⟨perm, ordinals, storage_order_irrelevant perm ordinals { samples := 4 } ruptureCount, by decide +kernel⟩

end Composite
end SeismicHazard
