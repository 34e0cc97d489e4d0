import SeismicHazard.Proofs.Association.Linking
/-!
# Origins — what an association is built from

Every realization comes from an origin: a source model with its reduced tree, the number of a draw and a path.  The
origin tells the realization and the keys that list it.  `BuiltFrom` says that an association holds exactly what a list
of origins makes of it, and `Attributed` that its ranges give each model the realizations of its origins.  A path
appends one origin (`BuiltFrom.step`), a model those of its paths (`builtFrom_addModel`, `attributed_addModel`), and a
whole build those of all models in the order of their numbers (`builtFrom_addModels`).
-/
namespace SeismicHazard

structure Origin (S W : Type) where
  model : SourceModel S W
  draw : Nat
  path : ChoicePath W

variable {S W : Type}

namespace Origin

def keys (o : Origin S W) : List AssocKey := Association.linkKeys o.path o.model.groups

def collections (c : Composition) (o : Origin S W) : SortedSet CollectionId :=
  SortedSet.ofList (Association.drawnCollections c o.model.samples o.draw o.keys)

def realization [Scalar W] (c : Composition) (o : Origin S W) (ordinal : Nat) : Realization W :=
  Association.realizationOf o.model ordinal o.path (o.collections c)

end Origin

def SourceModel.originsFrom (m : SourceModel S W) (draw : Nat) (ps : List (ChoicePath W)) : List (Origin S W) :=
  (ps.zipIdx draw).map (fun p => ⟨m, p.2, p.1⟩)

theorem SourceModel.mem_originsFrom {m : SourceModel S W} {draw : Nat} {ps : List (ChoicePath W)} {o : Origin S W}
    (h : o ∈ m.originsFrom draw ps) : o.model = m ∧ o.path ∈ ps := by
  obtain ⟨p, hp, rfl⟩ := List.mem_map.1 h
  exact ⟨rfl, List.fst_mem_of_mem_zipIdx hp⟩

namespace Association

/-! ## The index -/

theorem get?_listUnder (key k : AssocKey) (ordinal : Nat) (index : AssocIndex) :
    (listUnder key ordinal index).get? k =
      if k = key then some ((index.get? key).getD [] ++ [ordinal]) else index.get? k := by
  rw [listUnder, SortedMap.get?_update]
  by_cases h : k = key <;> simp [h]

theorem ordinals_foldl_listUnder (ordinal : Nat) (k : AssocKey) : ∀ (keys : List AssocKey) (index : AssocIndex),
    ((keys.foldl (fun i key => listUnder key ordinal i) index).get? k).getD [] =
      (index.get? k).getD [] ++ List.replicate (keys.count k) ordinal
  | [], index => by simp
  | key :: keys, index => by
    rw [List.foldl_cons, ordinals_foldl_listUnder ordinal k keys, get?_listUnder]
    by_cases h : k = key
    · subst h
      rw [if_pos rfl, List.count_cons_self, List.replicate_succ, Option.getD_some, List.append_assoc]
      rfl
    · rw [if_neg h, List.count_cons_of_ne (Ne.symm h)]

theorem listed_foldl_listUnder (ordinal : Nat) : ∀ (keys : List AssocKey) (index : AssocIndex),
    (∀ k, index.get? k ≠ some []) → ∀ k, (keys.foldl (fun i key => listUnder key ordinal i) index).get? k ≠ some []
  | [], _, h => h
  | key :: keys, index, h => by
    rw [List.foldl_cons]
    refine listed_foldl_listUnder ordinal keys _ fun k => ?_
    rw [get?_listUnder]
    by_cases hk : k = key
    · simp [hk]
    · rw [if_neg hk]
      exact h k

/-! ## The ranges -/

def Ranged (a : Association W) : Prop :=
  ∀ i r, a.byModel.get? i = some r → r.1 ≤ r.2 ∧ r.2 ≤ a.realizations.length

theorem get?_noteModel (model first i : Nat) (a : Association W) :
    (noteModel model first a).byModel.get? i =
      if i = model then some (first, a.realizations.length) else a.byModel.get? i := by
  rw [noteModel, SortedMap.get?_insert]
  by_cases h : i = model <;> simp [h]

theorem Ranged.noteModel {a b : Association W} {new : List (Realization W)} (ha : a.Ranged)
    (hb : b.realizations = a.realizations ++ new) (hby : b.byModel = a.byModel) (model : Nat) :
    (noteModel model a.realizations.length b).Ranged := by
  intro i r hi
  have hlen : b.realizations.length = a.realizations.length + new.length := by rw [hb, List.length_append]
  rw [get?_noteModel, hby] at hi
  change r.1 ≤ r.2 ∧ r.2 ≤ b.realizations.length
  split at hi
  · cases hi
    dsimp only
    omega
  · have := ha i r hi
    omega

theorem realizationsOf_of_some {a : Association W} {i first stop : Nat} (h : a.byModel.get? i = some (first, stop)) :
    a.realizationsOf i = (a.realizations.drop first).take (stop - first) := by
  rw [realizationsOf, h]

theorem realizationsOf_of_none {a : Association W} {i : Nat} (h : a.byModel.get? i = none) :
    a.realizationsOf i = [] := by
  rw [realizationsOf, h]

/-- **A noted range selects the realizations that were added**, and the other ranges select what they did. -/
theorem realizationsOf_noteModel {a b : Association W} {new : List (Realization W)} (ha : a.Ranged)
    (hb : b.realizations = a.realizations ++ new) (hby : b.byModel = a.byModel) (model i : Nat) :
    (noteModel model a.realizations.length b).realizationsOf i = if i = model then new else a.realizationsOf i := by
  have hget := get?_noteModel model a.realizations.length i b
  rw [hby] at hget
  by_cases hi : i = model
  · rw [if_pos hi] at hget ⊢
    rw [realizationsOf_of_some hget]
    change List.take _ (List.drop _ b.realizations) = new
    rw [hb, List.drop_left, List.take_of_length_le]
    rw [List.length_append]
    omega
  · rw [if_neg hi] at hget ⊢
    cases hr : a.byModel.get? i with
    | none => rw [realizationsOf_of_none (hget.trans hr), realizationsOf_of_none hr]
    | some r =>
      obtain ⟨h₁, h₂⟩ := ha i r hr
      rw [realizationsOf_of_some (hget.trans hr), realizationsOf_of_some hr]
      change List.take _ (List.drop _ b.realizations) = _
      rw [hb, List.drop_append_of_le_length (Nat.le_trans h₁ h₂), List.take_append_of_le_length]
      rw [List.length_drop]
      omega

theorem realizationsOf_reweight (f : W → W) (a : Association W) (i : Nat) :
    (a.reweight f).realizationsOf i = (a.realizationsOf i).map (fun r => { r with weight := f r.weight }) := by
  unfold realizationsOf reweight
  dsimp only
  split
  · rw [List.map_take, List.map_drop]
  · rfl

theorem filter_zipIdx_eq_nil {os : List (Origin S W)} {i : Nat} (h : ∀ o ∈ os, o.model.ordinal ≠ i) (n : Nat) :
    (os.zipIdx n).filter (fun o => o.1.model.ordinal = i) = [] :=
  List.filter_eq_nil_iff.2 fun o ho => by simpa using h o.1 (List.fst_mem_of_mem_zipIdx ho)

/-! ## One path -/

variable [Scalar W]

structure BuiltFrom (os : List (Origin S W)) (a : Association W) : Prop where
  realizations : a.realizations = os.zipIdx.map (fun o => o.1.realization a.composition o.2)
  /-- The rows of the table are what the paths of the origins choose. -/
  tabled : a.gsimByTrt = os.map (fun o => o.path.choices)
  /-- A key lists the positions of the origins that have it, in order. -/
  ordinals : ∀ k, a.ordinals k = os.zipIdx.flatMap (fun o => List.replicate (o.1.keys.count k) o.2)
  listed : ∀ k, a.index.get? k ≠ some []

theorem builtFrom_empty (c : Composition) : BuiltFrom ([] : List (Origin S W)) (empty c) :=
  ⟨rfl, rfl, fun _ => rfl, fun k h => by simp [empty] at h⟩

theorem BuiltFrom.length_eq {os : List (Origin S W)} {a : Association W} (h : a.BuiltFrom os) :
    a.realizations.length = os.length := by
  rw [h.realizations, List.length_map, List.length_zipIdx]

theorem BuiltFrom.step {os : List (Origin S W)} {a : Association W} (h : a.BuiltFrom os) {m : SourceModel S W}
    {groups : List (SourceGroup S)} (hg : List.Forall₂ (Told m.tree) m.groups groups) {draw : Nat} {p : ChoicePath W}
    {links : Links}
    (hl : (linkGroups a.composition m draw a.realizations.length p groups ⟨a.index, .empty⟩).result = .ok links) :
    BuiltFrom (os ++ [⟨m, draw, p⟩]) (a.enter m p links) := by
  obtain ⟨hindex, hcollections⟩ := linkGroups_ok _ _ _ _ _ _ _ _ hl
  rw [linkKeys_told p hg] at hindex hcollections
  rw [h.length_eq] at hindex
  have hzip : (os ++ [(⟨m, draw, p⟩ : Origin S W)]).zipIdx = os.zipIdx ++ [(⟨m, draw, p⟩, os.length)] := by
    rw [List.zipIdx_append, Nat.zero_add]
    rfl
  refine ⟨?_, ?_, fun k => ?_, ?_⟩
  · change a.realizations ++ _ = List.map (fun o : Origin S W × Nat => o.1.realization a.composition o.2) _
    rw [hzip, List.map_append, ← h.realizations, hcollections, h.length_eq]
    rfl
  · rw [List.map_append, ← h.tabled]
    rfl
  · have hk := ordinals_foldl_listUnder os.length k (linkKeys p m.groups) a.index
    rw [← hindex] at hk
    rw [hzip, List.flatMap_append, ← h.ordinals k]
    refine hk.trans ?_
    rw [List.flatMap_singleton]
    rfl
  · change ∀ k, links.index.get? k ≠ some []
    rw [hindex]
    exact listed_foldl_listUnder os.length _ _ h.listed

theorem builtFrom_addPaths (m : SourceModel S W) : ∀ (ps : List (ChoicePath W)) (draw : Nat)
    (groups : List (SourceGroup S)) (os : List (Origin S W)) (a a' : Association W),
    List.Forall₂ (Told m.tree) m.groups groups → a.BuiltFrom os → (addPaths m ps draw groups a).result = .ok a' →
    a'.BuiltFrom (os ++ m.originsFrom draw ps) ∧ a'.composition = a.composition ∧ a'.byModel = a.byModel
  | [], draw, groups, os, a, a', _, h, ha => by
    cases ha
    exact ⟨by simpa [SourceModel.originsFrom] using h, rfl, rfl⟩
  | p :: ps, draw, groups, os, a, a', hg, h, ha => by
    rw [addPaths_cons] at ha
    dsimp only at ha
    split at ha
    · cases ha
    · rename_i links hl
      have hg' := forall₂_told_trans hg
        (linkGroups_told a.composition m draw a.realizations.length p groups ⟨a.index, .empty⟩)
      have ih := builtFrom_addPaths m ps (draw + 1) _ _ _ a' hg' (h.step hg hl) ha
      rwa [List.append_assoc] at ih

/-! ## One source model -/

/-- What adding a model can come to: nothing without paths, else its paths and the range of their positions. -/
theorem addModel_ok {sampling : SamplingSettings} {m : SourceModel S W} {a a' : Association W}
    (h : (addModel sampling m a).2 = .ok a') : (m.paths sampling = .ok [] ∧ a' = a) ∨
      ∃ ps b, ps ≠ [] ∧ m.paths sampling = .ok ps ∧ (addPaths m ps 0 m.groups a).result = .ok b ∧
        a' = noteModel m.ordinal a.realizations.length b := by
  unfold addModel at h
  cases hps : m.paths sampling with
  | error e =>
    rw [hps] at h
    cases h
  | ok ps =>
    rw [hps] at h
    cases ps with
    | nil =>
      cases h
      exact Or.inl ⟨rfl, rfl⟩
    | cons p ps =>
      obtain ⟨b, hb, rfl⟩ := Outcome.map_eq_ok.1 (Outcome.lift_eq_ok.1 h)
      exact Or.inr ⟨p :: ps, b, List.cons_ne_nil p ps, rfl, hb, rfl⟩

theorem BuiltFrom.noteModel {os : List (Origin S W)} {a : Association W} (h : a.BuiltFrom os) (model first : Nat) :
    (noteModel model first a).BuiltFrom os := ⟨h.realizations, h.tabled, h.ordinals, h.listed⟩

theorem builtFrom_addModel {sampling : SamplingSettings} {m : SourceModel S W} {os : List (Origin S W)}
    {a a' : Association W} (ha : a.BuiltFrom os) (h : (addModel sampling m a).2 = .ok a') :
    ∃ ps, m.paths sampling = .ok ps ∧ a'.BuiltFrom (os ++ m.originsFrom 0 ps) ∧ a'.composition = a.composition := by
  rcases addModel_ok h with ⟨hps, rfl⟩ | ⟨ps, b, -, hps, hb, rfl⟩
  · exact ⟨[], hps, by simpa [SourceModel.originsFrom] using ha, rfl⟩
  · obtain ⟨hbuilt, hc, -⟩ := builtFrom_addPaths m ps 0 _ os a b (forall₂_told_refl m.tree m.groups) ha hb
    exact ⟨ps, hps, hbuilt.noteModel _ _, hc⟩

def originated (c : Composition) (os : List (Origin S W)) (model : Nat) : List (Realization W) :=
  (os.zipIdx.filter (fun o => o.1.model.ordinal = model)).map (fun o => o.1.realization c o.2)

structure Attributed (os : List (Origin S W)) (a : Association W) : Prop where
  ranged : a.Ranged
  /-- A range selects the realizations of the origins of its model. -/
  realizationsOf : ∀ i, a.realizationsOf i = originated a.composition os i

theorem attributed_empty (c : Composition) : Attributed ([] : List (Origin S W)) (empty c) :=
  ⟨fun i r h => by simp [empty] at h, fun _ => rfl⟩

theorem originated_append (c : Composition) (os os' : List (Origin S W)) (i : Nat) :
    originated c (os ++ os') i = originated c os i ++
      ((os'.zipIdx os.length).filter (fun o => o.1.model.ordinal = i)).map (fun o => o.1.realization c o.2) := by
  unfold originated
  rw [List.zipIdx_append, Nat.zero_add, List.filter_append, List.map_append]

/-- **A model takes the range of the origins of its paths**, if no model before it has its number. -/
theorem attributed_addModel {sampling : SamplingSettings} {m : SourceModel S W} {os : List (Origin S W)}
    {a a' : Association W} (ha : a.BuiltFrom os) (hr : a.Attributed os) (hm : ∀ o ∈ os, o.model.ordinal ≠ m.ordinal)
    (h : (addModel sampling m a).2 = .ok a') {ps : List (ChoicePath W)} (hps : m.paths sampling = .ok ps) :
    a'.Attributed (os ++ m.originsFrom 0 ps) := by
  rcases addModel_ok h with ⟨hps', rfl⟩ | ⟨ps', b, -, hps', hb, rfl⟩
  · cases hps.symm.trans hps'
    simpa [SourceModel.originsFrom] using hr
  · cases hps.symm.trans hps'
    obtain ⟨hbuilt, hc, hby⟩ := builtFrom_addPaths m ps 0 _ os a b (forall₂_told_refl m.tree m.groups) ha hb
    have hnew : ∀ o ∈ m.originsFrom 0 ps, o.model.ordinal = m.ordinal := fun o ho => by
      rw [(SourceModel.mem_originsFrom ho).1]
    have hreal : b.realizations = a.realizations ++ ((m.originsFrom 0 ps).zipIdx os.length).map
        (fun o => o.1.realization a.composition o.2) := by
      rw [hbuilt.realizations, hc, List.zipIdx_append, Nat.zero_add, List.map_append, ← ha.realizations]
    refine ⟨hr.ranged.noteModel hreal hby m.ordinal, fun i => ?_⟩
    rw [realizationsOf_noteModel hr.ranged hreal hby]
    change _ = originated b.composition (os ++ m.originsFrom 0 ps) i
    rw [hc, originated_append]
    by_cases hi : i = m.ordinal
    · have hold : originated a.composition os i = [] := by
        rw [originated, filter_zipIdx_eq_nil (hi ▸ hm)]
        rfl
      rw [if_pos hi, hold, List.nil_append, List.filter_eq_self.2 fun o ho => by
        simpa [hi] using hnew o.1 (List.fst_mem_of_mem_zipIdx ho)]
    · rw [if_neg hi, filter_zipIdx_eq_nil fun o ho => by rw [hnew o ho]; exact fun e => hi e.symm]
      rw [List.map_nil, List.append_nil, hr.realizationsOf]

/-! ## All source models -/

structure Contribution (S W : Type) where
  model : SourceModel S W
  paths : List (ChoicePath W)

def Contribution.origins (c : Contribution S W) : List (Origin S W) := c.model.originsFrom 0 c.paths

def Contributes (sampling : SamplingSettings) (weight : SourceGroup S → W) (m : SourceModel S W)
    (c : Contribution S W) : Prop := c.model = m.reduceToLive weight ∧ c.model.paths sampling = .ok c.paths

/-- **Models append the origins of their contributions**; if all their numbers differ, each gets its own range. -/
theorem builtFrom_addModels (sampling : SamplingSettings) (weight : SourceGroup S → W) :
    ∀ (ms : List (SourceModel S W)) (os : List (Origin S W)) (a a' : Association W), a.BuiltFrom os →
    (addModels sampling weight ms a).2 = .ok a' →
    ∃ cs, List.Forall₂ (Contributes sampling weight) ms cs ∧ a'.BuiltFrom (os ++ cs.flatMap Contribution.origins) ∧
      ((ms.map SourceModel.ordinal).Nodup → (∀ o ∈ os, o.model.ordinal ∉ ms.map SourceModel.ordinal) →
        a.Attributed os → a'.Attributed (os ++ cs.flatMap Contribution.origins))
  | [], os, a, a', ha, h => by
    cases h
    exact ⟨[], .nil, by simpa using ha, fun _ _ hr => by simpa using hr⟩
  | m :: ms, os, a, a', ha, h => by
    rw [addModels] at h
    dsimp only at h
    split at h
    · cases h
    · rename_i b hb
      obtain ⟨ps, hps, hbuilt, -⟩ := builtFrom_addModel ha hb
      obtain ⟨cs, hcs, hbuilt', hattr⟩ := builtFrom_addModels sampling weight ms _ b a' hbuilt h
      refine ⟨⟨m.reduceToLive weight, ps⟩ :: cs, .cons ⟨rfl, hps⟩ hcs, ?_, fun hn hd hr => ?_⟩
      · rwa [List.append_assoc] at hbuilt'
      · rw [List.map_cons, List.nodup_cons] at hn
        have hm : ∀ o ∈ os, o.model.ordinal ≠ (m.reduceToLive weight).ordinal := fun o ho e =>
          hd o ho (e ▸ List.mem_cons_self ..)
        have hattr' := hattr hn.2 (fun o ho => ?_) (attributed_addModel ha hr hm hb hps)
        · rwa [List.append_assoc] at hattr'
        · rcases List.mem_append.1 ho with ho | ho
          · exact fun hmem => hd o ho (List.mem_cons_of_mem _ hmem)
          · rw [(SourceModel.mem_originsFrom ho).1]
            exact hn.1

/-- **An association that models were added to comes from their contributions.** -/
theorem exists_contributions {sampling : SamplingSettings} {weight : SourceGroup S → W} {ms : List (SourceModel S W)}
    {c : Composition} {a : Association W} (h : (addModels sampling weight ms (empty c)).2 = .ok a) :
    ∃ cs, List.Forall₂ (Contributes sampling weight) ms cs ∧ a.BuiltFrom (cs.flatMap Contribution.origins) ∧
      ((ms.map SourceModel.ordinal).Nodup → a.Attributed (cs.flatMap Contribution.origins)) := by
  obtain ⟨cs, hcs, hbuilt, hattr⟩ := builtFrom_addModels sampling weight ms [] _ a (builtFrom_empty c) h
  exact ⟨cs, hcs, hbuilt, fun hn => hattr hn (fun o ho => by cases ho) (attributed_empty c)⟩

theorem ordinals_contributions {sampling : SamplingSettings} {weight : SourceGroup S → W} {ms : List (SourceModel S W)}
    {cs : List (Contribution S W)} (h : List.Forall₂ (Contributes sampling weight) ms cs) :
    ms.map SourceModel.ordinal = cs.map (fun c => c.model.ordinal) :=
  map_eq_of_forall₂ (fun _ _ hc => by rw [hc.1]; rfl) h

/-! ## Weights -/

theorem normalize_ok {sampling : SamplingSettings} {a a' : Association W} (h : a.normalize sampling = .ok a') :
    ∃ f, a' = a.reweight f := by
  unfold normalize at h
  split at h
  · split at h
    · cases h
      exact ⟨_, rfl⟩
    · cases h
  · dsimp only at h
    split at h
    · cases h
    · cases h
      exact ⟨_, rfl⟩

end Association

namespace Composite

theorem byOrdinal_perm (ms : List (SourceModel S W)) : ((byOrdinal ms).map Prod.fst).Perm ms := by
  have h := (sortBy_perm (fun a b => decide (a.1.ordinal ≤ b.1.ordinal)) ms.zipIdx).map Prod.fst
  rwa [List.zipIdx_map_fst] at h

theorem associateBy_normalized [Scalar W] {weight : SourceGroup S → W} {c : Composite S W} {a : Association W}
    (h : (c.associateBy weight).2 = .ok a) : ∃ b, b.normalize c.sampling = .ok a ∧
      (Association.addModels c.sampling weight ((byOrdinal c.models).map Prod.fst)
        (Association.empty c.composition)).2 = .ok b := by
  obtain ⟨b, hb, h⟩ := Outcome.bind_eq_ok.1 h
  exact ⟨b, Outcome.lift_eq_ok.1 h, hb⟩

theorem associateBy_added [Scalar W] {weight : SourceGroup S → W} {c : Composite S W} {a : Association W}
    (h : (c.associateBy weight).2 = .ok a) : ∃ b f, a = b.reweight f ∧
      (Association.addModels c.sampling weight ((byOrdinal c.models).map Prod.fst)
        (Association.empty c.composition)).2 = .ok b := by
  obtain ⟨b, h, hb⟩ := associateBy_normalized h
  obtain ⟨f, rfl⟩ := Association.normalize_ok h
  exact ⟨b, f, rfl, hb⟩

/-- **A built association comes from the contributions of the models** in the order of their numbers; weights apart. -/
theorem associateBy_ok [Scalar W] {weight : SourceGroup S → W} {c : Composite S W} {a : Association W}
    (h : (c.associateBy weight).2 = .ok a) : ∃ cs, ∃ b : Association W, ∃ f,
    List.Forall₂ (Association.Contributes c.sampling weight) ((byOrdinal c.models).map Prod.fst) cs ∧
      b.BuiltFrom (cs.flatMap Association.Contribution.origins) ∧ a = b.reweight f ∧
      ((c.models.map SourceModel.ordinal).Nodup → b.Attributed (cs.flatMap Association.Contribution.origins)) := by
  obtain ⟨b, f, rfl, hb⟩ := associateBy_added h
  obtain ⟨cs, hcs, hbuilt, hattr⟩ := Association.exists_contributions hb
  exact ⟨cs, b, f, hcs, hbuilt, rfl, fun hn =>
    hattr (((byOrdinal_perm c.models).map SourceModel.ordinal).nodup_iff.2 hn)⟩

end Composite
end SeismicHazard
