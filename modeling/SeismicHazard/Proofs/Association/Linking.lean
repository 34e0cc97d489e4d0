import SeismicHazard.Association.Build
import SeismicHazard.Proofs.Outcome
import SeismicHazard.Proofs.Pairing
/-!
# Linking — what the groups of a source model do with one path

A path is listed under one key for each group that it chooses a ground motion model for (`linkKeys`), and its draw gets
the collections of those groups (`drawnCollections`).  Linking that succeeds lists the path under these keys and adds
these collections (`linkGroups_ok`); whether it succeeds or not, it only tells groups their ground motion models
(`linkGroups_told`).
-/
namespace SeismicHazard
namespace Association

variable {S W : Type}

/-! ## Groups that are told their ground motion models -/

/-- A group before and after linking: it may have been told the ground motion models of its tree. -/
def Told (t : BranchSetTree W) (g g' : SourceGroup S) : Prop :=
  g' = g ∨ g' = { g with gsims := t.values g.trt }

theorem Told.refl (t : BranchSetTree W) (g : SourceGroup S) : Told t g g := Or.inl rfl

theorem Told.id_eq {t : BranchSetTree W} {g g' : SourceGroup S} (h : Told t g g') : g'.id = g.id := by
  rcases h with rfl | rfl <;> rfl

theorem Told.trt_eq {t : BranchSetTree W} {g g' : SourceGroup S} (h : Told t g g') : g'.trt = g.trt := by
  rcases h with rfl | rfl <;> rfl

theorem Told.trans {t : BranchSetTree W} {g g' g'' : SourceGroup S} (h : Told t g g') (h' : Told t g' g'') :
    Told t g g'' := by
  rcases h with rfl | rfl
  · exact h'
  · rcases h' with rfl | rfl <;> exact Or.inr rfl

theorem forall₂_told_refl (t : BranchSetTree W) (gs : List (SourceGroup S)) : List.Forall₂ (Told t) gs gs :=
  List.forall₂_same.2 fun g _ => Told.refl t g

theorem forall₂_told_trans {t : BranchSetTree W} {l l' l'' : List (SourceGroup S)} (h : List.Forall₂ (Told t) l l')
    (h' : List.Forall₂ (Told t) l' l'') : List.Forall₂ (Told t) l l'' :=
  forall₂_trans (fun _ _ _ hg hg' => hg.trans hg') h h'

/-! ## Keys of a path -/

/-- The keys that list a path: one for each group that it chooses a ground motion model for, in order. -/
def linkKeys (p : ChoicePath W) (gs : List (SourceGroup S)) : List AssocKey :=
  gs.filterMap (fun g => (p.gsim? g.trt).map (AssocKey.mk g.id))

/-- The collections that a draw was given, one for each key; none for a model that is drawn once. -/
def drawnCollections (c : Composition) (samples draw : Nat) (keys : List AssocKey) : List CollectionId :=
  if 1 < samples then keys.filterMap (fun k => c.collection? k.group draw) else []

theorem linkKeys_cons_none {p : ChoicePath W} {g : SourceGroup S} (h : p.gsim? g.trt = none)
    (gs : List (SourceGroup S)) : linkKeys p (g :: gs) = linkKeys p gs := by
  rw [linkKeys, List.filterMap_cons, h]
  rfl

theorem linkKeys_cons_some {p : ChoicePath W} {g : SourceGroup S} {gsim : String} (h : p.gsim? g.trt = some gsim)
    (gs : List (SourceGroup S)) : linkKeys p (g :: gs) = ⟨g.id, gsim⟩ :: linkKeys p gs := by
  rw [linkKeys, List.filterMap_cons, h]
  rfl

theorem mem_linkKeys {p : ChoicePath W} {gs : List (SourceGroup S)} {k : AssocKey} :
    k ∈ linkKeys p gs ↔ ∃ g ∈ gs, g.id = k.group ∧ p.gsim? g.trt = some k.gsim := by
  rw [linkKeys, List.mem_filterMap]
  constructor
  · rintro ⟨g, hg, hk⟩
    obtain ⟨gsim, hgsim, rfl⟩ := Option.map_eq_some_iff.1 hk
    exact ⟨g, hg, rfl, hgsim⟩
  · rintro ⟨g, hg, hid, hgsim⟩
    exact ⟨g, hg, by rw [hgsim, hid]; rfl⟩

theorem linkKeys_told {t : BranchSetTree W} (p : ChoicePath W) : ∀ {l l' : List (SourceGroup S)},
    List.Forall₂ (Told t) l l' → linkKeys p l' = linkKeys p l
  | _, _, .nil => rfl
  | _, _, .cons (a := g) h hs => by
    have ih := linkKeys_told p hs
    cases hp : p.gsim? g.trt with
    | none => rw [linkKeys_cons_none hp, linkKeys_cons_none (h.trt_eq ▸ hp), ih]
    | some gsim => rw [linkKeys_cons_some hp, linkKeys_cons_some (h.trt_eq ▸ hp), h.id_eq, ih]

/-- **A path is listed once under each of its keys** when the groups are told apart. -/
theorem nodup_linkKeys (p : ChoicePath W) : ∀ {gs : List (SourceGroup S)}, (gs.map SourceGroup.id).Nodup →
    (linkKeys p gs).Nodup
  | [], _ => List.nodup_nil
  | g :: gs, h => by
    rw [List.map_cons, List.nodup_cons] at h
    have ih := nodup_linkKeys p h.2
    cases hp : p.gsim? g.trt with
    | none => rwa [linkKeys_cons_none hp]
    | some gsim =>
      rw [linkKeys_cons_some hp]
      refine List.nodup_cons.2 ⟨fun hk => h.1 ?_, ih⟩
      obtain ⟨g', hg', hid, -⟩ := mem_linkKeys.1 hk
      exact List.mem_map.2 ⟨g', hg', hid⟩

theorem drawnCollections_cons (c : Composition) (samples draw : Nat) (k : AssocKey) (ks : List AssocKey) :
    drawnCollections c samples draw (k :: ks) =
      (if 1 < samples then (c.collection? k.group draw).toList else []) ++ drawnCollections c samples draw ks := by
  unfold drawnCollections
  by_cases h : 1 < samples
  · cases hc : c.collection? k.group draw <;> simp [h, hc]
  · simp [h]

/-! ## Linking -/

theorem addCollection_ok {c : Composition} {samples draw : Nat} {g : GroupId} {cols cols' : SortedSet CollectionId}
    (h : addCollection c samples draw g cols = .ok cols') :
    cols' = (if 1 < samples then (c.collection? g draw).toList else []).foldl
      (fun s k => SortedMap.insert s k ()) cols := by
  unfold addCollection at h
  by_cases hs : 1 < samples
  · rw [if_pos hs] at h ⊢
    cases hc : c.collection? g draw with
    | none =>
      rw [hc] at h
      cases h
    | some col =>
      rw [hc] at h
      cases h
      rfl
  · rw [if_neg hs] at h ⊢
    cases h
    rfl

theorem linkGroups_told (c : Composition) (m : SourceModel S W) (draw ordinal : Nat) (p : ChoicePath W) :
    ∀ (gs : List (SourceGroup S)) (links : Links),
      List.Forall₂ (Told m.tree) gs (linkGroups c m draw ordinal p gs links).groups
  | [], _ => .nil
  | g :: gs, links => by
    rw [linkGroups]
    split
    · exact .cons (Told.refl _ g) (linkGroups_told c m draw ordinal p gs links)
    · dsimp only
      split
      · exact .cons (Or.inr rfl) (forall₂_told_refl m.tree gs)
      · exact .cons (Or.inr rfl) (linkGroups_told c m draw ordinal p gs _)

/-- **Linking lists the path under its keys** and gives its draw the collections of their groups. -/
theorem linkGroups_ok (c : Composition) (m : SourceModel S W) (draw ordinal : Nat) (p : ChoicePath W) :
    ∀ (gs : List (SourceGroup S)) (links links' : Links), (linkGroups c m draw ordinal p gs links).result = .ok links' →
      links'.index = (linkKeys p gs).foldl (fun i k => listUnder k ordinal i) links.index ∧
      links'.collections = (drawnCollections c m.samples draw (linkKeys p gs)).foldl
        (fun s k => SortedMap.insert s k ()) links.collections
  | [], links, links', h => by
    cases h
    refine ⟨rfl, ?_⟩
    unfold drawnCollections
    split <;> rfl
  | g :: gs, links, links', h => by
    rw [linkGroups] at h
    split at h
    · rename_i hp
      rw [linkKeys_cons_none hp]
      exact linkGroups_ok c m draw ordinal p gs links links' h
    · rename_i gsim hp
      dsimp only at h
      split at h
      · cases h
      · rename_i cols hcols
        obtain ⟨hindex, hcollections⟩ := linkGroups_ok c m draw ordinal p gs _ links' h
        rw [linkKeys_cons_some hp, drawnCollections_cons, List.foldl_append, ← addCollection_ok hcols]
        exact ⟨hindex, hcollections⟩

def enter [Scalar W] (m : SourceModel S W) (p : ChoicePath W) (links : Links) (a : Association W) :
    Association W :=
  { a with
    index := links.index
    realizations := a.realizations ++ [realizationOf m a.realizations.length p links.collections]
    gsimByTrt := a.gsimByTrt ++ [p.choices] }

/-- **A path is linked, and then it is in the association**: its realization, its row and its place in the index. -/
theorem addPaths_cons [Scalar W] (m : SourceModel S W) (p : ChoicePath W) (ps : List (ChoicePath W)) (draw : Nat)
    (groups : List (SourceGroup S)) (a : Association W) : addPaths m (p :: ps) draw groups a =
      let linked := linkGroups a.composition m draw a.realizations.length p groups ⟨a.index, .empty⟩
      match linked.result with
      | .error f => ⟨linked.groups, .error f⟩
      | .ok links => addPaths m ps (draw + 1) linked.groups (a.enter m p links) := rfl

end Association
end SeismicHazard
