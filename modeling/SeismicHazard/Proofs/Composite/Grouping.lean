import SeismicHazard.Composite.Builder
import SeismicHazard.Proofs.Outcome
import SeismicHazard.Proofs.Source.Soundness
/-!
# Grouping — the models that a composite is built from

The sources of a branch enter the group of their tectonic region type one by one, and that never fails (`byTrt_eq`): in
the end a group holds exactly the sources of its tectonic region type, in the order of the branch (`gathered_foldl`).
Sorting and numbering the groups changes neither what they hold nor what they say of it (`toModel_eq`), so every model
is sound, and through all models the groups are numbered without a gap (`laidOut_buildModels`).
-/
namespace SeismicHazard

variable {S W : Type}

/-- The groups of a model have tectonic region types of their own, and each of them is sound. -/
structure SourceModel.Sound [Source S] (m : SourceModel S W) : Prop where
  apart : (m.groups.map SourceGroup.trt).Nodup
  groups : ∀ g ∈ m.groups, g.Sound

namespace ModelBranch

/-! ## Numbers -/

theorem ids_number (first : Nat) (gs : List (SourceGroup S)) :
    (number first gs).map SourceGroup.id = (List.range' first gs.length).map GroupId.mk := by
  have h : (gs.zipIdx.map Prod.snd).map (first + ·) = List.range' first gs.length := by
    rw [List.zipIdx_map_snd, List.map_add_range', Nat.add_zero]
  rw [← h, number, List.map_map, List.map_map, List.map_map]
  rfl

theorem trts_number (first : Nat) (gs : List (SourceGroup S)) :
    (number first gs).map SourceGroup.trt = gs.map SourceGroup.trt := by
  have h : (gs.zipIdx.map Prod.fst).map SourceGroup.trt = gs.map SourceGroup.trt := by rw [List.zipIdx_map_fst]
  rw [← h, number, List.map_map, List.map_map]
  rfl

theorem length_number (first : Nat) (gs : List (SourceGroup S)) : (number first gs).length = gs.length := by
  rw [number, List.length_map, List.length_zipIdx]

/-! ## Identifiers -/

theorem repeated?_eq_none : ∀ {l seen : List String}, repeated? seen l = none ↔ l.Nodup ∧ ∀ s ∈ l, s ∉ seen
  | [], seen => by simp [repeated?]
  | s :: l, seen => by
    rw [repeated?]
    by_cases hs : s ∈ seen
    · simp [hs]
    · rw [if_neg hs, repeated?_eq_none]
      simp only [List.nodup_cons, List.mem_cons, not_or, forall_eq_or_imp]
      constructor
      · rintro ⟨hl, hseen⟩
        exact ⟨⟨fun hmem => (hseen s hmem).1 rfl, hl⟩, hs, fun s' hs' => (hseen s' hs').2⟩
      · rintro ⟨⟨hnew, hl⟩, -, hseen⟩
        exact ⟨hl, fun s' hs' => ⟨fun heq => hnew (heq ▸ hs'), hseen s' hs'⟩⟩

/-! ## One group for each tectonic region type -/

def groupAt (m : SortedMap String (SourceGroup S)) (trt : String) : SourceGroup S := (m.get? trt).getD { trt }

theorem groupAt_of_mem {m : SortedMap String (SourceGroup S)} {e : String × SourceGroup S} (he : e ∈ m.entries) :
    groupAt m e.1 = e.2 := by
  rw [groupAt, SortedMap.get?_eq_some.2 he]
  rfl

variable [Source S]

def enter (m : SortedMap String (SourceGroup S)) (s : S) : SortedMap String (SourceGroup S) :=
  m.insert (Source.trt s) ((groupAt m (Source.trt s)).push s)

theorem groupAt_enter (m : SortedMap String (SourceGroup S)) (s : S) (trt : String) :
    groupAt (enter m s) trt = if trt = Source.trt s then (groupAt m trt).push s else groupAt m trt := by
  unfold enter
  rw [groupAt, SortedMap.get?_insert]
  by_cases h : trt = Source.trt s
  · subst h
    simp
  · rw [if_neg h, if_neg fun hc => h (Std.LawfulEqCmp.eq_of_compare hc)]
    rfl

theorem foldlM_update : ∀ (l : List S) {m : SortedMap String (SourceGroup S)}, (∀ t, (groupAt m t).trt = t) →
    l.foldlM (fun m s => do
      let g ← (groupAt m (Source.trt s)).update s
      return m.insert (Source.trt s) g) m = (.ok (l.foldl enter m) : Except Failure _)
  | [], _, _ => rfl
  | s :: l, m, h => by
    have hupdate : (groupAt m (Source.trt s)).update s = .ok ((groupAt m (Source.trt s)).push s) := by
      unfold SourceGroup.update
      rw [if_neg (not_not_intro (h _).symm)]
    have henter : ∀ t, (groupAt (enter m s) t).trt = t := fun t => by
      rw [groupAt_enter]
      split
      · exact h t
      · exact h t
    rw [List.foldlM_cons, hupdate]
    exact foldlM_update l henter

/-- **Grouping never fails**: every source has the tectonic region type of the group that it is put into. -/
theorem byTrt_eq (b : ModelBranch S W) : b.byTrt = .ok (b.sources.foldl enter .empty) :=
  foldlM_update b.sources fun _ => rfl

structure Gathers (l : List S) (trt : String) (g : SourceGroup S) : Prop where
  trt_eq : g.trt = trt
  sources_eq : g.sources = l.filter (fun s => Source.trt s = trt)
  sound : g.Sound
  uncounted : g.ruptures = 0

/-- **One more source goes into the group of its tectonic region type** and into no other. -/
theorem Gathers.snoc {l : List S} {m : SortedMap String (SourceGroup S)} {trt : String}
    (h : Gathers l trt (groupAt m trt)) {s : S} (hs : Source.id s ∉ l.map Source.id) :
    Gathers (l ++ [s]) trt (groupAt (enter m s) trt) := by
  rw [groupAt_enter]
  by_cases ht : trt = Source.trt s
  · rw [if_pos ht]
    have hnew : Source.id s ∉ (groupAt m trt).sources.map Source.id := fun hmem => by
      rw [h.sources_eq] at hmem
      exact hs ((List.filter_sublist.map Source.id).mem hmem)
    refine ⟨h.trt_eq, ?_, h.sound.push (ht.symm.trans h.trt_eq.symm) hnew h.uncounted, h.uncounted⟩
    rw [List.filter_append, ← h.sources_eq]
    simp [SourceGroup.push, ht]
  · rw [if_neg ht]
    refine ⟨h.trt_eq, ?_, h.sound, h.uncounted⟩
    rw [List.filter_append, ← h.sources_eq]
    simp [Ne.symm ht]

/-- **Every group holds exactly the sources of its tectonic region type**, if the identifiers of the sources differ. -/
theorem gathered_foldl : ∀ (rest : List S) {l : List S} {m : SortedMap String (SourceGroup S)},
    (∀ t, Gathers l t (groupAt m t)) → ((l ++ rest).map Source.id).Nodup →
    ∀ t, Gathers (l ++ rest) t (groupAt (rest.foldl enter m) t)
  | [], l, m, h, _, t => by simpa using h t
  | s :: rest, l, m, h, hn, t => by
    have hs : Source.id s ∉ l.map Source.id := fun hmem => by
      rw [List.map_append, List.nodup_append] at hn
      exact hn.2.2 _ hmem _ (List.mem_cons_self ..) rfl
    have hn' : ((l ++ [s] ++ rest).map Source.id).Nodup := by rwa [List.append_assoc]
    have ih := gathered_foldl rest (fun t => (h t).snoc hs) hn' t
    rwa [List.append_assoc] at ih

theorem gathers_empty (t : String) : Gathers ([] : List S) t (groupAt .empty t) :=
  ⟨rfl, rfl, SourceGroup.sound_empty t, rfl⟩

theorem sound_of_mem_values {l : List S} {m : SortedMap String (SourceGroup S)}
    (h : ∀ t, Gathers l t (groupAt m t)) : ∀ g ∈ m.values, g.Sound := by
  intro g hg
  obtain ⟨e, he, rfl⟩ := List.mem_map.1 hg
  have hgathers := h e.1
  rw [groupAt_of_mem he] at hgathers
  exact hgathers.sound

theorem nodup_trts_values {l : List S} {m : SortedMap String (SourceGroup S)}
    (h : ∀ t, Gathers l t (groupAt m t)) : (m.values.map SourceGroup.trt).Nodup := by
  have hkeys : m.values.map SourceGroup.trt = m.keys := by
    rw [SortedMap.values, SortedMap.keys, List.map_map]
    refine List.map_congr_left fun e he => ?_
    have hgathers := h e.1
    rw [groupAt_of_mem he] at hgathers
    exact hgathers.trt_eq
  rw [hkeys]
  exact m.nodup_keys

/-! ## Models of branches -/

theorem nodup_of_fault? [Scalar W] {b : ModelBranch S W} (h : b.fault? = none) : (b.sources.map Source.id).Nodup := by
  unfold fault? at h
  split at h
  · cases h
  · split at h
    · cases h
    · exact (repeated?_eq_none.1 (Option.map_eq_none_iff.1 h)).1

theorem sound_number {first : Nat} {gs : List (SourceGroup S)} (h : ∀ g ∈ gs, g.Sound) :
    ∀ g ∈ number first gs, g.Sound := by
  intro g hg
  obtain ⟨p, hp, rfl⟩ := List.mem_map.1 hg
  have hsound := h p.1 (List.fst_mem_of_mem_zipIdx hp)
  exact ⟨hsound.trts, hsound.distinct, hsound.least, hsound.greatest, hsound.counted⟩

def sortedGroups (b : ModelBranch S W) : List (SourceGroup S) :=
  sortBy SourceGroup.le (b.sources.foldl enter .empty).values

theorem toModel_eq (b : ModelBranch S W) (ordinal first : Nat) : b.toModel ordinal first = .ok
    { name := b.name, weight := b.weight, path := b.path, tree := b.tree, ordinal, samples := b.samples,
      groups := number first b.sortedGroups } := by
  unfold toModel
  rw [byTrt_eq]
  rfl

theorem sound_of_toModel {b : ModelBranch S W} (h : (b.sources.map Source.id).Nodup) {ordinal first : Nat}
    {m : SourceModel S W} (hm : b.toModel ordinal first = .ok m) : m.Sound := by
  have hgathers := gathered_foldl b.sources gathers_empty h
  have hperm := sortBy_perm SourceGroup.le (b.sources.foldl enter .empty).values
  rw [toModel_eq] at hm
  cases hm
  refine ⟨?_, sound_number fun g hg => sound_of_mem_values hgathers g (hperm.mem_iff.1 hg)⟩
  dsimp only
  rw [trts_number]
  exact (hperm.map SourceGroup.trt).nodup_iff.2 (nodup_trts_values hgathers)

end ModelBranch

namespace Composite

variable [Source S]

/-! ## All models -/

structure LaidOut (ordinal first : Nat) (ms : List (SourceModel S W)) : Prop where
  ordinals : ms.map SourceModel.ordinal = List.range' ordinal ms.length
  ids : (ms.flatMap SourceModel.groups).map SourceGroup.id =
    (List.range' first (ms.flatMap SourceModel.groups).length).map GroupId.mk
  sound : ∀ m ∈ ms, m.Sound

theorem LaidOut.cons {ordinal first : Nat} {m : SourceModel S W} {ms : List (SourceModel S W)}
    (h : LaidOut (ordinal + 1) (first + m.groups.length) ms) (hm : m.Sound) (ho : m.ordinal = ordinal)
    (hids : m.groups.map SourceGroup.id = (List.range' first m.groups.length).map GroupId.mk) :
    LaidOut ordinal first (m :: ms) := by
  refine ⟨?_, ?_, fun m' hm' => ?_⟩
  · rw [List.map_cons, List.length_cons, List.range'_succ, h.ordinals, ho]
  · rw [List.flatMap_cons, List.map_append, List.length_append, hids, h.ids, ← List.map_append,
      List.range'_append_1]
  · rcases List.mem_cons.1 hm' with rfl | hm'
    · exact hm
    · exact h.sound m' hm'

theorem buildModels_cons_eq_ok [Scalar W] {b : ModelBranch S W} {branches : List (ModelBranch S W)}
    {ordinal first : Nat} {ms : List (SourceModel S W)} : buildModels ordinal first (b :: branches) = .ok ms ↔
    b.fault? = none ∧ ∃ m rest, b.toModel ordinal first = .ok m ∧
      buildModels (ordinal + 1) (first + m.groups.length) branches = .ok rest ∧ ms = m :: rest := by
  rw [buildModels]
  cases hb : b.fault? with
  | some f =>
    constructor
    · intro h
      cases h
    · rintro ⟨hnone, -⟩
      cases hnone
  | none =>
    constructor
    · intro h
      obtain ⟨m, hm, h⟩ := Outcome.bind_eq_ok.1 h
      obtain ⟨rest, hrest, h⟩ := Outcome.bind_eq_ok.1 h
      cases h
      exact ⟨rfl, m, rest, hm, hrest, rfl⟩
    · rintro ⟨-, m, rest, hm, hrest, rfl⟩
      exact Outcome.bind_eq_ok.2 ⟨m, hm, Outcome.bind_eq_ok.2 ⟨rest, hrest, rfl⟩⟩

theorem laidOut_buildModels [Scalar W] : ∀ (branches : List (ModelBranch S W)) {ordinal first : Nat}
    {ms : List (SourceModel S W)}, buildModels ordinal first branches = .ok ms → LaidOut ordinal first ms
  | [], _, _, _, h => by
    cases h
    exact ⟨rfl, rfl, fun m hm => by cases hm⟩
  | b :: branches, ordinal, first, ms, h => by
    obtain ⟨hb, m, ms, hm, hms, rfl⟩ := buildModels_cons_eq_ok.1 h
    refine (laidOut_buildModels branches hms).cons (ModelBranch.sound_of_toModel (ModelBranch.nodup_of_fault? hb) hm)
      ?_ ?_ <;> (rw [ModelBranch.toModel_eq] at hm; cases hm)
    · rfl
    · dsimp only
      rw [ModelBranch.ids_number, ModelBranch.length_number]

end Composite
end SeismicHazard
