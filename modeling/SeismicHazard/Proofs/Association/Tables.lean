import SeismicHazard.Proofs.Association.Delivery
import SeismicHazard.Proofs.Association.Relevance
import SeismicHazard.Proofs.Association.Telling
import SeismicHazard.Proofs.LogicTree.Choices
/-!
# Tables — the ground motion models of groups and collections

An association tells which ground motion models a group is used with by collecting them from its keys.  A build has told
the group the same in another way, from the branch set of its tectonic region type.  The keys come from paths
(`mem_index_keys`), and a path can choose any branch of the set, so in an enumeration the two lists have the same
members; a sampling may miss some.  By collection the table names the ground motion models of the owner, which each
collection has (`exists_owner`).
-/
namespace SeismicHazard

variable {S W : Type}

theorem AssocKey.lt_iff {a b : AssocKey} :
    compare a b = .lt ↔ a.group.val < b.group.val ∨ (a.group = b.group ∧ compare a.gsim b.gsim = .lt) := by
  change (compare a.group.val b.group.val).then (compare a.gsim b.gsim) = .lt ↔ _
  have hgroup : a.group.val = b.group.val ↔ a.group = b.group := by
    cases a.group; cases b.group; simp
  rw [Ordering.then_eq_lt, Nat.compare_eq_lt, Nat.compare_eq_eq, hgroup]

namespace Association

/-! ## The table by group -/

def gsimsOf (keys : List AssocKey) (g : GroupId) : List String :=
  (keys.filter (fun k => decide (k.group = g))).map AssocKey.gsim

variable {g : GroupId}

theorem gsimsOf_cons_eq {k : AssocKey} (hk : k.group = g) (keys : List AssocKey) :
    gsimsOf (k :: keys) g = k.gsim :: gsimsOf keys g := by
  rw [gsimsOf, List.filter_cons_of_pos (by simpa using hk)]
  rfl

theorem gsimsOf_cons_ne {k : AssocKey} (hk : k.group ≠ g) (keys : List AssocKey) :
    gsimsOf (k :: keys) g = gsimsOf keys g := by
  rw [gsimsOf, List.filter_cons_of_neg (by simpa using hk)]
  rfl

theorem mem_gsimsOf {keys : List AssocKey} {gsim : String} : gsim ∈ gsimsOf keys g ↔ ⟨g, gsim⟩ ∈ keys := by
  simp only [gsimsOf, List.mem_map, List.mem_filter, decide_eq_true_iff]
  constructor
  · rintro ⟨k, ⟨hk, rfl⟩, rfl⟩
    exact hk
  · exact fun hk => ⟨_, ⟨hk, rfl⟩, rfl⟩

/-- **Keys in order name the ground motion models of a group in order**, each once. -/
theorem gsimsOf_increasing {keys : List AssocKey} (h : keys.Pairwise (fun k k' => compare k k' = .lt)) (g : GroupId) :
    (gsimsOf keys g).Pairwise (fun x y => compare x y = .lt) := by
  refine List.pairwise_map.2 ((h.filter _).imp_of_mem fun {k k'} hk hk' hlt => ?_)
  have hgroup : k.group = g := by simpa using (List.mem_filter.1 hk).2
  have hgroup' : k'.group = g := by simpa using (List.mem_filter.1 hk').2
  rcases AssocKey.lt_iff.1 hlt with hlt | ⟨-, hlt⟩
  · rw [hgroup, hgroup'] at hlt
    exact absurd hlt (Nat.lt_irrefl _)
  · exact hlt

/-- Keys that are gone through append their ground motion models to what their groups had. -/
theorem get?_foldl_append (g : GroupId) : ∀ (keys : List AssocKey) (m : SortedMap GroupId (List String)),
    (keys.foldl (fun m k => m.update k.group (fun gsims => gsims.getD [] ++ [k.gsim])) m).get? g =
      if gsimsOf keys g = [] then m.get? g else some ((m.get? g).getD [] ++ gsimsOf keys g)
  | [], m => rfl
  | k :: keys, m => by
    rw [List.foldl_cons, get?_foldl_append g keys, SortedMap.get?_update]
    by_cases hk : k.group = g
    · subst hk
      rw [gsimsOf_cons_eq rfl]
      by_cases hrest : gsimsOf keys k.group = [] <;> simp [hrest]
    · have hne : ¬compare g k.group = .eq := fun h => hk (Std.LawfulEqCmp.eq_of_compare h).symm
      rw [gsimsOf_cons_ne hk, if_neg hne]

/-- **The table holds the ground motion models of the keys of a group**, if it has a key. -/
theorem get?_gsimsByGroup {a : Association W} {l : List String} :
    a.gsimsByGroup.get? g = some l ↔ gsimsOf a.index.keys g = l ∧ l ≠ [] := by
  rw [gsimsByGroup, get?_foldl_append, SortedMap.get?_empty, Option.getD_none, List.nil_append]
  split <;> grind

/-! ## The table by collection -/

theorem gsimsByCollection_ok (a : Association W)
    (h : ∀ c < a.composition.count, ∃ g, a.composition.groupOf ⟨c⟩ = .ok g) :
    ∃ ls, a.gsimsByCollection = .ok ls ∧ ls.length = a.composition.count ∧
      ∀ (col : CollectionId) (g : GroupId), col.val < a.composition.count → a.composition.groupOf col = .ok g →
        ls[col.val]? = some ((a.gsimsByGroup.get? g).getD []) := by
  obtain ⟨ls, hls⟩ : ∃ ls, a.gsimsByCollection = .ok ls := Outcome.exists_mapM fun c hc => by
    obtain ⟨g, hg⟩ := h c (List.mem_range.1 hc)
    rw [hg]
    rfl
  have hentries := Outcome.forall₂_of_mapM hls
  refine ⟨ls, hls, by rw [← hentries.length_eq, List.length_range], fun col g hcol hg => ?_⟩
  obtain ⟨l, hl, hentry⟩ := getElem?_of_forall₂ hentries (List.getElem?_range hcol)
  rw [hg] at hentry
  cases hentry
  exact hl

/-! ## Keys and paths -/

variable [Scalar W] {a : Association W}

theorem BuiltFrom.mem_keys {os : List (Origin S W)} (h : a.BuiltFrom os) {k : AssocKey} :
    k ∈ a.index.keys ↔ ∃ o ∈ os, k ∈ o.keys := by
  rw [SortedMap.mem_keys]
  constructor
  · rintro ⟨l, hl⟩
    obtain ⟨n, hn⟩ := List.exists_mem_of_ne_nil l fun hnil => h.listed k (hnil ▸ hl)
    have hmem : n ∈ a.ordinals k := by rwa [Association.ordinals, hl]
    have hlt : n < os.length := h.length_eq ▸ h.lt_of_mem_ordinals hmem
    have ho := List.getElem?_eq_getElem hlt
    exact ⟨os[n], List.getElem_mem hlt, (h.mem_ordinals ho k).1 hmem⟩
  · rintro ⟨o, ho, hk⟩
    obtain ⟨n, hn⟩ := List.mem_iff_getElem?.1 ho
    have hmem := (h.mem_ordinals hn k).2 hk
    rw [Association.ordinals] at hmem
    cases hget : a.index.get? k with
    | none =>
      rw [hget] at hmem
      cases hmem
    | some l => exact ⟨l, rfl⟩

end Association

theorem SourceModel.exists_origin (m : SourceModel S W) (draw : Nat) {ps : List (ChoicePath W)} {p : ChoicePath W}
    (h : p ∈ ps) : ∃ o ∈ m.originsFrom draw ps, o.model = m ∧ o.path = p := by
  rw [← List.zipIdx_map_fst draw ps] at h
  obtain ⟨x, hx, rfl⟩ := List.mem_map.1 h
  exact ⟨_, List.mem_map_of_mem hx, rfl, rfl⟩

theorem SourceModel.mem_enumerate_of_paths [Scalar W] {sampling : SamplingSettings} {m : SourceModel S W}
    {ps : List (ChoicePath W)} (h : m.paths sampling = .ok ps) : ∀ p ∈ ps, p ∈ m.tree.enumerate := by
  unfold SourceModel.paths at h
  split at h
  · obtain ⟨⟨qs, g⟩, hs, rfl⟩ := Outcome.map_eq_ok.1 h
    exact BranchSetTree.mem_enumerate_of_sample hs
  · cases h
    exact fun p hp => hp

namespace Composition

theorem exists_owner {ms : List (SourceModel S W)} (groups : ((ms.flatMap SourceModel.groups).map SourceGroup.id).Nodup)
    {col : CollectionId} (h : col.val < (ofModels ms).count) : ∃ g i, (ofModels ms).collection? g i = some col := by
  obtain ⟨l, hl⟩ := exists_foldl_addModel ms empty
  have hcount : (ofModels ms).count = extent (blocks ms) := by
    rw [ofModels, hl]
    exact (count_lay (blocks ms) empty).trans (Nat.zero_add _)
  obtain ⟨before, g, n, after, i, hsplit, hi, hplace⟩ := exists_block (hcount ▸ h)
  exact ⟨g, i, (collection?_iff groups hsplit).2 ⟨hi, hplace⟩⟩

end Composition

namespace Composite

/-! ## Built associations -/

theorem MadeOf.ids_eq {c : Composite S W} {ms : List (SourceModel S W)} (made : c.MadeOf ms) :
    c.groups.map SourceGroup.id = (ms.flatMap SourceModel.groups).map SourceGroup.id := by
  have hids : ∀ l : List (SourceModel S W),
      (l.flatMap SourceModel.groups).map SourceGroup.id = (l.map SourceModel.outline).flatMap (fun o => o.2.2) := by
    intro l
    rw [List.map_flatMap, List.flatMap_map]
    rfl
  rw [hids, ← made.outlines, ← hids]
  rfl

variable [Scalar W] {weight : SourceGroup S → W} {c : Composite S W} {a : Association W}

theorem mem_index_keys (h : (c.associateBy weight).2 = .ok a) {k : AssocKey} :
    k ∈ a.index.keys ↔ ∃ m ∈ c.models, ∃ ps, (m.reduceToLive weight).paths c.sampling = .ok ps ∧
      ∃ p ∈ ps, k ∈ Association.linkKeys p m.groups := by
  obtain ⟨cs, b, f, hcs, hb, rfl, -⟩ := associateBy_ok h
  change k ∈ b.index.keys ↔ _
  rw [hb.mem_keys]
  constructor
  · rintro ⟨o, ho, hk⟩
    obtain ⟨x, hx, ho⟩ := List.mem_flatMap.1 ho
    obtain ⟨m, hm, hmodel, hpaths⟩ := exists_left_of_forall₂ hcs x hx
    obtain ⟨hom, hop⟩ := SourceModel.mem_originsFrom ho
    rw [hmodel] at hpaths hom
    rw [Origin.keys, hom] at hk
    exact ⟨m, (byOrdinal_perm c.models).mem_iff.1 hm, x.paths, hpaths, o.path, hop, hk⟩
  · rintro ⟨m, hm, ps, hps, p, hp, hk⟩
    obtain ⟨x, hx, hmodel, hpaths⟩ := exists_right_of_forall₂ hcs m ((byOrdinal_perm c.models).mem_iff.2 hm)
    rw [hmodel, hps] at hpaths
    cases hpaths
    obtain ⟨o, ho, hom, rfl⟩ := x.model.exists_origin 0 hp
    refine ⟨o, List.mem_flatMap.2 ⟨x, hx, ho⟩, ?_⟩
    rw [Origin.keys, hom, hmodel]
    exact hk

variable {m : SourceModel S W} {g : SourceGroup S}

/-- A group is used with the ground motion models that the paths of its model choose for it. -/
theorem mem_gsimsOf_iff (groups : (c.groups.map SourceGroup.id).Nodup) (h : (c.associateBy weight).2 = .ok a)
    (hm : m ∈ c.models) (hg : g ∈ m.groups) {gsim : String} : gsim ∈ Association.gsimsOf a.index.keys g.id ↔
      ∃ ps, (m.reduceToLive weight).paths c.sampling = .ok ps ∧ ∃ p ∈ ps, p.gsim? g.trt = some gsim := by
  rw [Association.mem_gsimsOf, mem_index_keys h]
  constructor
  · rintro ⟨m', hm', ps, hps, p, hp, hk⟩
    obtain ⟨g', hg', hid, hgsim⟩ := Association.mem_linkKeys.1 hk
    obtain ⟨rfl, rfl⟩ := eq_of_shared_group groups hm' hm hg' hg hid
    exact ⟨ps, hps, p, hp, hgsim⟩
  · rintro ⟨ps, hps, p, hp, hgsim⟩
    exact ⟨m, hm, ps, hps, p, hp, Association.mem_linkKeys.2 ⟨g, hg, rfl, hgsim⟩⟩

theorem exists_entry_iff (h : (c.associateBy weight).2 = .ok a) {id : GroupId} :
    (∃ l, a.gsimsByGroup.get? id = some l) ↔
      ∃ m ∈ c.models, (m.reduceToLive weight).Yields c.sampling ∧ ∃ g, m.Uses weight g ∧ g.id = id := by
  constructor
  · rintro ⟨l, hl⟩
    obtain ⟨rfl, hne⟩ := Association.get?_gsimsByGroup.1 hl
    obtain ⟨gsim, hgsim⟩ := List.exists_mem_of_ne_nil _ hne
    obtain ⟨m, hm, ps, hps, p, hp, hk⟩ := (mem_index_keys h).1 (Association.mem_gsimsOf.1 hgsim)
    obtain ⟨g, hg, hid, hchosen⟩ := Association.mem_linkKeys.1 hk
    have hcovered := (SourceModel.covers_of_paths hps p hp g.trt).1 (Option.isSome_iff_exists.2 ⟨_, hchosen⟩)
    exact ⟨m, hm, ⟨ps, hps, List.ne_nil_of_mem hp⟩, g, ⟨hg, hcovered⟩, hid⟩
  · rintro ⟨m, hm, ⟨ps, hps, hne⟩, g, ⟨hg, htrt⟩, rfl⟩
    obtain ⟨p, hp⟩ := List.exists_mem_of_ne_nil _ hne
    obtain ⟨gsim, hgsim⟩ := Option.isSome_iff_exists.1 ((SourceModel.covers_of_paths hps p hp g.trt).2 htrt)
    have hkey : ⟨g.id, gsim⟩ ∈ a.index.keys :=
      (mem_index_keys h).2 ⟨m, hm, ps, hps, p, hp, Association.mem_linkKeys.2 ⟨g, hg, rfl, hgsim⟩⟩
    exact ⟨_, Association.get?_gsimsByGroup.2 ⟨rfl, List.ne_nil_of_mem (Association.mem_gsimsOf.2 hkey)⟩⟩

/-- A group with an entry was told the ground motion models of the reduced tree of its model, which contributed. -/
theorem told_of_entry (groups : (c.groups.map SourceGroup.id).Nodup) (h : (c.associateBy weight).2 = .ok a)
    {g' : SourceGroup S} (hg' : g' ∈ (c.associateBy weight).1.groups) {l : List String}
    (hl : a.gsimsByGroup.get? g'.id = some l) :
    ∃ m ∈ c.models, ∃ g ∈ m.groups, (m.reduceToLive weight).Yields c.sampling ∧ g.id = g'.id ∧
      g'.gsims = (m.reduceToLive weight).tree.values g.trt := by
  obtain ⟨m', hm', hg'⟩ := List.mem_flatMap.1 hg'
  obtain ⟨m, hm, hvisited⟩ := exists_left_of_forall₂ (visited_associateBy h).1 m' hm'
  obtain ⟨m₂, hm₂, hyields₂, g₂, huses, hid⟩ := (exists_entry_iff h).1 ⟨l, hl⟩
  -- a model without paths is not told anything, but then no group of it has an entry
  by_cases hyields : (m.reduceToLive weight).Yields c.sampling
  · rw [hvisited.told hyields] at hg'
    obtain ⟨g, hg, rfl⟩ := List.mem_map.1 hg'
    have hsame : g₂.id = g.id := hid.trans (g.id_tell _)
    obtain ⟨rfl, rfl⟩ := eq_of_shared_group groups hm₂ hm huses.1 hg hsame
    exact ⟨m₂, hm, g₂, hg, hyields, hid, by rw [SourceGroup.tell_of_mem huses.2]⟩
  · rw [hvisited.skipped hyields] at hg'
    obtain ⟨rfl, -⟩ := eq_of_shared_group groups hm₂ hm huses.1 hg' hid
    exact absurd hyields₂ hyields

structure TablesAgree (weight : SourceGroup S → W) (c : Composite S W) (a : Association W) : Prop where
  /-- The models that contributed are those that yield a path once their tree is reduced. -/
  contributing : ∀ i, i ∈ a.contributingModels ↔
    ∃ m ∈ c.models, m.ordinal = i ∧ (m.reduceToLive weight).Yields c.sampling
  /-- The groups with an entry are those that the reduced tree of one of these models covers. -/
  entries : ∀ id, (∃ l, a.gsimsByGroup.get? id = some l) ↔
    ∃ m ∈ c.models, (m.reduceToLive weight).Yields c.sampling ∧ ∃ g, m.Uses weight g ∧ g.id = id
  /-- They are groups of the composite that the build leaves. -/
  named : ∀ id l, a.gsimsByGroup.get? id = some l → ∃ g ∈ (c.associateBy weight).1.groups, g.id = id
  /-- An entry names its ground motion models in order, each once. -/
  increasing : ∀ id l, a.gsimsByGroup.get? id = some l → l.Pairwise (fun x y => compare x y = .lt)
  /-- They are among those that the build told the group. -/
  told : ∀ g ∈ (c.associateBy weight).1.groups, ∀ l, a.gsimsByGroup.get? g.id = some l → ∀ x ∈ l, x ∈ g.gsims
  exhausted : c.sampling.isSampling = false → ∀ g ∈ (c.associateBy weight).1.groups, ∀ l,
    a.gsimsByGroup.get? g.id = some l → ∀ x, x ∈ l ↔ x ∈ g.gsims
  /-- The collections are those that were given to a group for a draw. -/
  owned : ∀ col : CollectionId, col.val < a.composition.count ↔ ∃ g i, a.composition.collection? g i = some col
  /-- Each has the entry of its owner, or none if the owner has none. -/
  collected : ∃ ls, a.gsimsByCollection = .ok ls ∧ ls.length = a.composition.count ∧
    ∀ g i col, a.composition.collection? g i = some col → ls[col.val]? = some ((a.gsimsByGroup.get? g).getD [])

/-- **The tables of an association agree with the groups and with each other**, if the groups of the composite are told
apart. -/
theorem tables_agree {ms : List (SourceModel S W)} (made : c.MadeOf ms) (groups : (c.groups.map SourceGroup.id).Nodup)
    (weight : SourceGroup S → W) (a : Association W) (h : (c.associateBy weight).2 = .ok a) :
    c.TablesAgree weight a := by
  have hcomposition : a.composition = .ofModels ms := (composition_associateBy h).trans made.composition
  have fresh : a.composition.Fresh := hcomposition ▸ Composition.fresh_ofModels ms
  have howned : ∀ col : CollectionId,
      col.val < a.composition.count ↔ ∃ g i, a.composition.collection? g i = some col := by
    intro col
    constructor
    · intro hcol
      rw [hcomposition] at hcol ⊢
      exact Composition.exists_owner (made.ids_eq ▸ groups) hcol
    · rintro ⟨g, i, hcol⟩
      exact fresh.below hcol
  have htold : ∀ g ∈ (c.associateBy weight).1.groups, ∀ l, a.gsimsByGroup.get? g.id = some l →
      ∀ x ∈ l, x ∈ g.gsims := by
    intro g' hg' l hl x hx
    obtain ⟨m, hm, g, hg, -, hid, hgsims⟩ := told_of_entry groups h hg' hl
    obtain ⟨rfl, -⟩ := Association.get?_gsimsByGroup.1 hl
    rw [← hid, mem_gsimsOf_iff groups h hm hg] at hx
    obtain ⟨ps, hps, p, hp, hchosen⟩ := hx
    rw [hgsims]
    exact BranchSetTree.mem_values_of_mem_enumerate (SourceModel.mem_enumerate_of_paths hps p hp) hchosen
  constructor
  case contributing => exact (visited_associateBy h).2
  case entries => exact fun id => exists_entry_iff h
  case named =>
    intro id l hl
    obtain ⟨m, hm, -, g, ⟨hg, -⟩, rfl⟩ := (exists_entry_iff h).1 ⟨l, hl⟩
    have hid : g.id ∈ c.groups.map SourceGroup.id := List.mem_map_of_mem ((sublist_groups hm).subset hg)
    rw [made.ids_eq, ← (made.associateBy weight).ids_eq] at hid
    exact List.mem_map.1 hid
  case increasing =>
    intro id l hl
    obtain ⟨rfl, -⟩ := Association.get?_gsimsByGroup.1 hl
    exact Association.gsimsOf_increasing a.index.increasing_keys id
  case told => exact htold
  case exhausted =>
    intro hs g' hg' l hl x
    refine ⟨htold g' hg' l hl x, fun hx => ?_⟩
    obtain ⟨m, hm, g, hg, ⟨ps, hps, hne⟩, hid, hgsims⟩ := told_of_entry groups h hg' hl
    obtain ⟨rfl, -⟩ := Association.get?_gsimsByGroup.1 hl
    have henumerate : ps = (m.reduceToLive weight).tree.enumerate := by
      rw [SourceModel.paths, if_neg (by simp [hs])] at hps
      exact (Except.ok.inj hps).symm
    rw [hgsims] at hx
    obtain ⟨p, hp, hchosen⟩ := BranchSetTree.exists_mem_enumerate (henumerate ▸ hne) hx
    rw [← hid, mem_gsimsOf_iff groups h hm hg]
    exact ⟨ps, hps, p, henumerate ▸ hp, hchosen⟩
  case owned => exact howned
  case collected =>
    obtain ⟨ls, hls, hlen, hentry⟩ := a.gsimsByCollection_ok fun col hcol => by
      obtain ⟨g, i, howner⟩ := (howned ⟨col⟩).1 hcol
      exact ⟨g, Composition.groupOf_eq_ok fresh howner⟩
    exact ⟨ls, hls, hlen, fun g i col hcol =>
      hentry col g (fresh.below hcol) (Composition.groupOf_eq_ok fresh hcol)⟩

/-- A model that is drawn twice, with a set whose ground motion models are in no order and a group without ruptures. -/
def disordered : List (SourceModel Unit Rat) :=
  let active := ("Active", [⟨"b1", "Y", 1 / 2⟩, ⟨"b2", "B", 1 / 2⟩])
  let stable := ("Stable", [⟨"b3", "C", 1⟩])
  [⟨"twice", 1 / 2, ["s1"], [{ id := ⟨7⟩, trt := "Active", ruptures := 3 }, { id := ⟨3⟩, trt := "Stable" }],
      ⟨.ofList [active, stable]⟩, 0, 2⟩,
   ⟨"once", 1 / 2, ["s2"], [{ id := ⟨5⟩, trt := "Stable", ruptures := 1 }], ⟨.ofList [stable]⟩, 1, 1⟩]

theorem tables_agree_disordered : (ofModels disordered {}).MadeOf disordered ∧
    ((ofModels disordered {}).groups.map SourceGroup.id).Nodup ∧
    ∃ a, ((ofModels disordered {}).associateBy ruptureCount).2 = .ok a ∧
      (ofModels disordered {}).TablesAgree ruptureCount a ∧
      a.gsimsByGroup.toList = [(⟨5⟩, ["C"]), (⟨7⟩, ["B", "Y"])] ∧
      a.gsimsByCollection.toOption = some [["B", "Y"], ["B", "Y"], [], []] := by
  have made : (ofModels disordered {}).MadeOf disordered := madeOf_ofModels disordered {}
  have groups : ((ofModels disordered {}).groups.map SourceGroup.id).Nodup := by decide +kernel
  have tables : ((ofModels disordered {}).associateBy ruptureCount).2.toOption.map (fun a =>
      (a.gsimsByGroup.toList, a.gsimsByCollection.toOption)) =
      some ([(⟨5⟩, ["C"]), (⟨7⟩, ["B", "Y"])], some [["B", "Y"], ["B", "Y"], [], []]) := by
    decide +kernel
  obtain ⟨a, ha, htables⟩ := Outcome.map_toOption_eq_some.1 tables
  obtain ⟨hgroups, hcollections⟩ := Prod.mk.inj htables
  exact ⟨made, groups, a, ha, tables_agree made groups ruptureCount a ha, hgroups, hcollections⟩

end Composite
end SeismicHazard
