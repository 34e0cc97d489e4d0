import SeismicHazard.Proofs.Composite.Collections
import Mathlib.Data.List.Nodup
/-!
# Layout — where the collections of a group lie

Collections are given out in one row.  Each group of a model that is drawn more than once takes a block of it, with one
place for each draw of the model, right behind the blocks of the groups before it (`lay`).  So the place of a collection
is the extent of the blocks before its own and its draw (`collection?_lay`), and every place of the row is taken
(`exists_block`).  A composition answers questions in both directions along this row, and its answers fit together
(`laid_out`).
-/
namespace SeismicHazard

variable {S W : Type}

theorem DrawKey.lt_iff {a b : DrawKey} :
    compare a b = .lt ↔ a.group.val < b.group.val ∨ (a.group = b.group ∧ a.draw < b.draw) := by
  change (compare a.group.val b.group.val).then (compare a.draw b.draw) = .lt ↔ _
  have hgroup : a.group.val = b.group.val ↔ a.group = b.group := by
    cases a.group; cases b.group; simp
  rw [Ordering.then_eq_lt, Nat.compare_eq_lt, Nat.compare_eq_eq, Nat.compare_eq_lt, hgroup]

/-! ## Blocks -/

/-- The groups of a model that is drawn more than once, each with the number of its draws. -/
def SourceModel.blocks (m : SourceModel S W) : List (GroupId × Nat) :=
  if 1 < m.samples then m.groups.map (fun g => (g.id, m.samples)) else []

theorem SourceModel.mem_blocks {m : SourceModel S W} {g : GroupId} {n : Nat} :
    (g, n) ∈ m.blocks ↔ 1 < m.samples ∧ g ∈ m.groups.map SourceGroup.id ∧ n = m.samples := by
  unfold blocks
  by_cases h : 1 < m.samples
  · rw [if_pos h, List.mem_map, List.mem_map]
    constructor
    · rintro ⟨x, hx, heq⟩
      cases heq
      exact ⟨h, ⟨x, hx, rfl⟩, rfl⟩
    · rintro ⟨-, ⟨x, hx, rfl⟩, rfl⟩
      exact ⟨x, hx, rfl⟩
  · simp [h]

namespace Composition

def blocks (ms : List (SourceModel S W)) : List (GroupId × Nat) := ms.flatMap SourceModel.blocks

def extent (bs : List (GroupId × Nat)) : Nat := total (bs.map Prod.snd)

theorem mem_blocks {ms : List (SourceModel S W)} {g : GroupId} {n : Nat} :
    (g, n) ∈ blocks ms ↔ ∃ m ∈ ms, 1 < m.samples ∧ g ∈ m.groups.map SourceGroup.id ∧ n = m.samples := by
  simp only [blocks, List.mem_flatMap, SourceModel.mem_blocks]

theorem blocks_sublist : ∀ ms : List (SourceModel S W),
    ((blocks ms).map Prod.fst).Sublist ((ms.flatMap SourceModel.groups).map SourceGroup.id)
  | [] => List.Sublist.refl _
  | m :: ms => by
    have hm : (m.blocks.map Prod.fst).Sublist (m.groups.map SourceGroup.id) := by
      unfold SourceModel.blocks
      split
      · rw [List.map_map]
        exact List.Sublist.refl _
      · exact List.nil_sublist _
    rw [blocks, List.flatMap_cons, List.flatMap_cons, List.map_append, List.map_append]
    exact hm.append (blocks_sublist ms)

theorem exists_block : ∀ {bs : List (GroupId × Nat)} {x : Nat}, x < extent bs →
    ∃ before g n after i, bs = before ++ (g, n) :: after ∧ i < n ∧ x = extent before + i
  | [], x, h => absurd h (Nat.not_lt_zero x)
  | (g, n) :: bs, x, h => by
    by_cases hx : x < n
    · exact ⟨[], g, n, bs, x, rfl, hx, (Nat.zero_add x).symm⟩
    · have hrest : x - n < extent bs := by
        simp only [extent, List.map_cons, total_cons] at h ⊢
        omega
      obtain ⟨before, g', n', after, i, rfl, hi, hplace⟩ := exists_block hrest
      refine ⟨(g, n) :: before, g', n', after, i, rfl, hi, ?_⟩
      simp only [extent, List.map_cons, total_cons] at hplace ⊢
      omega

/-! ## Laying blocks -/

def lay (c : Composition) (bs : List (GroupId × Nat)) : Composition := bs.foldl (fun c b => allocate b.2 c b.1) c

theorem lay_append (c : Composition) (bs bs' : List (GroupId × Nat)) : lay c (bs ++ bs') = lay (lay c bs) bs' :=
  List.foldl_append

theorem lay_models (l : List ModelSummary) : ∀ (bs : List (GroupId × Nat)) (c : Composition),
    lay { c with models := l } bs = { lay c bs with models := l }
  | [], _ => rfl
  | b :: bs, c => lay_models l bs (allocate b.2 c b.1)

theorem addModel_eq (c : Composition) (m : SourceModel S W) :
    c.addModel m = { lay c m.blocks with models := (c.addModel m).models } := by
  have hlay : lay c m.blocks =
      if m.isOversampled then (m.groups.map SourceGroup.id).foldl (allocate m.samples) c else c := by
    unfold lay SourceModel.blocks SourceModel.isOversampled
    by_cases h : 1 < m.samples <;> simp [h, List.foldl_map]
  rw [hlay]
  rfl

/-- **A composition lays the blocks of its models**, whatever it notes of them beside. -/
theorem exists_foldl_addModel : ∀ (ms : List (SourceModel S W)) (c : Composition),
    ∃ l, ms.foldl addModel c = { lay c (blocks ms) with models := l }
  | [], c => ⟨c.models, rfl⟩
  | m :: ms, c => by
    obtain ⟨l, hl⟩ := exists_foldl_addModel ms (c.addModel m)
    refine ⟨l, ?_⟩
    have hblocks : blocks (m :: ms) = m.blocks ++ blocks ms := List.flatMap_cons
    rw [List.foldl_cons, hl, hblocks, lay_append, addModel_eq, lay_models]

theorem count_lay : ∀ (bs : List (GroupId × Nat)) (c : Composition), (lay c bs).count = c.count + extent bs
  | [], _ => rfl
  | (g, n) :: bs, c => by
    have ih := count_lay bs (allocate n c g)
    change (lay (allocate n c g) bs).count = c.count + (n + extent bs)
    rw [ih]
    exact Nat.add_assoc ..

theorem collection?_lay_of_notMem (g : GroupId) (i : Nat) : ∀ (bs : List (GroupId × Nat)) (c : Composition),
    g ∉ bs.map Prod.fst → (lay c bs).collection? g i = c.collection? g i
  | [], _, _ => rfl
  | (g', n) :: bs, c, h => by
    rw [List.map_cons, List.mem_cons, not_or] at h
    refine (collection?_lay_of_notMem g i bs (allocate n c g') h.2).trans ?_
    rw [collection?_allocate, if_neg fun hg => h.1 hg.1]

theorem get?_draws_lay_of_notMem (g : GroupId) : ∀ (bs : List (GroupId × Nat)) (c : Composition),
    g ∉ bs.map Prod.fst → (lay c bs).draws.get? g = c.draws.get? g
  | [], _, _ => rfl
  | (g', n) :: bs, c, h => by
    rw [List.map_cons, List.mem_cons, not_or] at h
    refine (get?_draws_lay_of_notMem g bs (allocate n c g') h.2).trans ?_
    change (c.draws.insert g' n).get? g = _
    rw [SortedMap.get?_insert, if_neg fun hg => h.1 (Std.LawfulEqCmp.eq_of_compare hg)]

variable {before after : List (GroupId × Nat)} {g : GroupId} {n : Nat}

theorem notMem_after (hn : ((before ++ (g, n) :: after).map Prod.fst).Nodup) : g ∉ after.map Prod.fst := by
  rw [List.map_append, List.map_cons] at hn
  exact (List.nodup_cons.1 hn.of_append_right).1

theorem collection?_lay (hn : ((before ++ (g, n) :: after).map Prod.fst).Nodup) (c : Composition) {i : Nat}
    (hi : i < n) : (lay c (before ++ (g, n) :: after)).collection? g i = some ⟨c.count + extent before + i⟩ := by
  rw [lay_append]
  refine (collection?_lay_of_notMem g i after (allocate n (lay c before) g) (notMem_after hn)).trans ?_
  rw [collection?_allocate, if_pos ⟨rfl, hi⟩, count_lay]

theorem get?_draws_lay (hn : ((before ++ (g, n) :: after).map Prod.fst).Nodup) (c : Composition) :
    (lay c (before ++ (g, n) :: after)).draws.get? g = some n := by
  rw [lay_append]
  refine (get?_draws_lay_of_notMem g after (allocate n (lay c before) g) (notMem_after hn)).trans ?_
  change ((lay c before).draws.insert g n).get? g = _
  rw [SortedMap.get?_insert, if_pos Std.ReflCmp.compare_self]

/-! ## Questions -/

variable {c : Composition}

theorem groupOf_eq_ok (h : c.Fresh) {col : CollectionId} {i : Nat} (hcol : c.collection? g i = some col) :
    c.groupOf col = .ok g := by
  rw [groupOf, h.find?_collection hcol]

theorem groupOf_eq_error {col : CollectionId} :
    c.groupOf col = .error (.unknownCollection col) ↔ ∀ g i, c.collection? g i ≠ some col := by
  unfold groupOf
  cases he : c.collections.toList.find? (fun e => e.2 = col) with
  | none =>
    refine iff_of_true rfl fun g i hcol => ?_
    exact List.find?_eq_none.1 he _ (SortedMap.get?_eq_some.1 hcol) (decide_eq_true rfl)
  | some e =>
    refine iff_of_false (fun h => by cases h) fun h => h e.1.group e.1.draw ?_
    have hval : e.2 = col := by simpa using List.find?_some he
    exact hval ▸ SortedMap.get?_eq_some.2 (List.mem_of_find?_eq_some he)

theorem drawKeys_increasing (g : GroupId) (n : Nat) :
    ((List.range n).map (DrawKey.mk g)).Pairwise (fun a b => compare a b = .lt) := by
  rw [List.pairwise_map]
  refine List.pairwise_lt_range.imp fun {i j} (h : i < j) => ?_
  exact DrawKey.lt_iff.2 (Or.inr ⟨rfl, h⟩)

theorem map_some_collectionsOf (h : ∀ i, (c.collection? g i).isSome = true ↔ i < n) :
    (c.collectionsOf g).map some = (List.range n).map (c.collection? g) := by
  have hget : ∀ k : DrawKey, (c.collections.filter (fun k _ => k.group = g)).get? k =
      if k.group = g then c.collection? g k.draw else none := by
    intro k
    rw [SortedMap.get?_filter]
    by_cases hk : k.group = g
    · subst hk
      rw [if_pos rfl]
      change _ = c.collections.get? k
      cases c.collections.get? k <;> simp
    · rw [if_neg hk]
      cases c.collections.get? k <;> simp [hk]
  have hkeys : (c.collections.filter (fun k _ => k.group = g)).keys = (List.range n).map (DrawKey.mk g) := by
    refine SortedMap.eq_of_increasing (SortedMap.increasing_keys _) (drawKeys_increasing g n) fun k => ?_
    rw [SortedMap.mem_keys, ← Option.isSome_iff_exists, hget, List.mem_map]
    by_cases hk : k.group = g
    · rw [if_pos hk, h]
      constructor
      · exact fun hlt => ⟨k.draw, List.mem_range.2 hlt, by cases k; cases hk; rfl⟩
      · rintro ⟨i, hi, rfl⟩
        exact List.mem_range.1 hi
    · rw [if_neg hk]
      refine iff_of_false (by simp) ?_
      rintro ⟨i, -, rfl⟩
      exact hk rfl
  rw [collectionsOf, SortedMap.map_some_values, hkeys, List.map_map]
  refine List.map_congr_left fun i _ => ?_
  rw [Function.comp_apply, hget, if_pos rfl]

theorem mem_triples {i : Nat} {col : CollectionId} : (g, i, col) ∈ c.triples ↔ c.collection? g i = some col := by
  rw [triples, List.mem_map, collection?, SortedMap.get?_eq_some]
  constructor
  · rintro ⟨e, he, heq⟩
    cases heq
    exact he
  · exact fun he => ⟨_, he, rfl⟩

theorem triples_increasing (c : Composition) :
    c.triples.Pairwise (fun a b => a.1.val < b.1.val ∨ (a.1 = b.1 ∧ a.2.1 < b.2.1)) :=
  List.pairwise_map.2 (c.collections.increasing.imp fun h => DrawKey.lt_iff.1 h)

theorem max?_congr {l r : List Nat} (h : ∀ n, n ∈ l ↔ n ∈ r) : l.max? = r.max? := by
  ext n
  simp only [List.max?_eq_some_iff, h]

/-! ## Compositions of models -/

structure Layout (ms : List (SourceModel S W)) (c : Composition) : Prop where
  /-- A draw of a group has a collection exactly if a model with the group is drawn more than once and that often. -/
  defined : ∀ g i, (c.collection? g i).isSome = true ↔
    ∃ m ∈ ms, 1 < m.samples ∧ g ∈ m.groups.map SourceGroup.id ∧ i < m.samples
  /-- Its place is its draw, counted from behind the blocks of the groups before it. -/
  place : ∀ before g n after, blocks ms = before ++ (g, n) :: after → ∀ i < n,
    c.collection? g i = some ⟨total (before.map Prod.snd) + i⟩
  /-- The places are those below the number of collections. -/
  onto : ∀ col : CollectionId, col.val < c.count ↔ ∃ g i, c.collection? g i = some col
  /-- Each is taken once. -/
  once : ∀ g i g' i' col, c.collection? g i = some col → c.collection? g' i' = some col → g = g' ∧ i = i'
  /-- A collection leads back to its group, -/
  owner : ∀ g i col, c.collection? g i = some col → c.groupOf col = .ok g
  /-- and any other number to none. -/
  unknown : ∀ col, c.groupOf col = .error (.unknownCollection col) ↔ c.count ≤ col.val
  /-- A group of a model that is drawn more than once lists one collection for each draw, in order. -/
  listed : ∀ m ∈ ms, 1 < m.samples → ∀ g ∈ m.groups.map SourceGroup.id, c.numDraws g = m.samples ∧
    (c.collectionsOf g).map some = (List.range (c.numDraws g)).map (c.collection? g)
  /-- Any other group lists none. -/
  unlisted : ∀ g, (∀ m ∈ ms, 1 < m.samples → g ∉ m.groups.map SourceGroup.id) → c.collectionsOf g = []
  /-- The triples are the groups and draws with their collections, -/
  triples : ∀ g i col, (g, i, col) ∈ c.triples ↔ c.collection? g i = some col
  /-- by group and draw. -/
  increasing : c.triples.Pairwise (fun a b => a.1.val < b.1.val ∨ (a.1 = b.1 ∧ a.2.1 < b.2.1))
  /-- The largest number of draws is that of a model with a group that is drawn more than once. -/
  largest : c.maxDraws =
    ((ms.filter (fun m => decide (1 < m.samples) && !m.groups.isEmpty)).map SourceModel.samples).max?.getD 1

theorem get?_draws_ofModels {ms : List (SourceModel S W)}
    (groups : ((ms.flatMap SourceModel.groups).map SourceGroup.id).Nodup) :
    (ofModels ms).draws.get? g = some n ↔ (g, n) ∈ blocks ms := by
  obtain ⟨l, hl⟩ := exists_foldl_addModel ms empty
  have hn : ((blocks ms).map Prod.fst).Nodup := groups.sublist (blocks_sublist ms)
  have hdraws : (ofModels ms).draws = (lay empty (blocks ms)).draws := by rw [ofModels, hl]
  have hin : ∀ n, (g, n) ∈ blocks ms → (ofModels ms).draws.get? g = some n := by
    intro n hmem
    obtain ⟨before, after, hsplit⟩ := List.append_of_mem hmem
    rw [hdraws, hsplit]
    exact get?_draws_lay (hsplit ▸ hn) empty
  refine ⟨fun hget => ?_, hin n⟩
  by_cases hmem : g ∈ (blocks ms).map Prod.fst
  · obtain ⟨⟨g', n'⟩, hb, rfl⟩ := List.mem_map.1 hmem
    obtain rfl : n' = n := Option.some.inj ((hin n' hb).symm.trans hget)
    exact hb
  · rw [hdraws, get?_draws_lay_of_notMem g _ empty hmem] at hget
    cases hget

theorem maxDraws_ofModels {ms : List (SourceModel S W)}
    (groups : ((ms.flatMap SourceModel.groups).map SourceGroup.id).Nodup) : (ofModels ms).maxDraws =
      ((ms.filter (fun m => decide (1 < m.samples) && !m.groups.isEmpty)).map SourceModel.samples).max?.getD 1 := by
  unfold maxDraws
  congr 1
  refine max?_congr fun n => ?_
  simp only [SortedMap.mem_values, get?_draws_ofModels groups, mem_blocks, List.mem_map, List.mem_filter,
    Bool.and_eq_true, decide_eq_true_iff, Bool.not_eq_true', List.isEmpty_eq_false_iff_exists_mem]
  constructor
  · rintro ⟨g, m, hm, hs, ⟨x, hx, -⟩, rfl⟩
    exact ⟨m, ⟨hm, hs, x, hx⟩, rfl⟩
  · rintro ⟨m, ⟨hm, hs, x, hx⟩, rfl⟩
    exact ⟨x.id, m, hm, hs, ⟨x, hx, rfl⟩, rfl⟩

/-- **The collections of groups that are told apart are laid out without gap or overlap.** -/
theorem laid_out (ms : List (SourceModel S W))
    (groups : ((ms.flatMap SourceModel.groups).map SourceGroup.id).Nodup) : Layout ms (ofModels ms) := by
  obtain ⟨l, hl⟩ := exists_foldl_addModel ms empty
  have hn : ((blocks ms).map Prod.fst).Nodup := groups.sublist (blocks_sublist ms)
  have hcount : (ofModels ms).count = extent (blocks ms) := by
    rw [ofModels, hl]
    exact (count_lay (blocks ms) empty).trans (Nat.zero_add _)
  have hplace : ∀ before g n after, blocks ms = before ++ (g, n) :: after → ∀ i < n,
      (ofModels ms).collection? g i = some ⟨extent before + i⟩ := by
    intro before g n after hsplit i hi
    have hlay := collection?_lay (hsplit ▸ hn) empty hi
    rw [← hsplit, empty, Nat.zero_add] at hlay
    rw [ofModels, hl]
    exact hlay
  have fresh := fresh_ofModels ms
  have honto : ∀ col : CollectionId,
      col.val < (ofModels ms).count ↔ ∃ g i, (ofModels ms).collection? g i = some col := by
    intro col
    constructor
    · intro hlt
      obtain ⟨before, g, n, after, i, hsplit, hi, hcol⟩ := exists_block (hcount ▸ hlt)
      refine ⟨g, i, ?_⟩
      rw [hplace before g n after hsplit i hi, ← hcol]
    · rintro ⟨g, i, hcol⟩
      exact fresh.below hcol
  constructor
  case defined => exact fun g i => collection?_ofModels ms g i
  case place => exact hplace
  case onto => exact honto
  case once => exact fun g i g' i' col h h' => fresh.apart h h'
  case owner => exact fun g i col h => groupOf_eq_ok fresh h
  case unknown =>
    intro col
    rw [groupOf_eq_error, ← Nat.not_lt, honto]
    simp only [not_exists]
  case listed =>
    intro m hm hs g hg
    have hdraws : (ofModels ms).numDraws g = m.samples := by
      rw [numDraws, (get?_draws_ofModels groups).2 (mem_blocks.2 ⟨m, hm, hs, hg, rfl⟩)]
      rfl
    refine ⟨hdraws, map_some_collectionsOf fun i => ?_⟩
    rw [collection?_ofModels, hdraws]
    constructor
    · rintro ⟨m', hm', hs', hg', hi⟩
      -- a model with the same group is drawn as often
      have hdraws' := (get?_draws_ofModels groups).2 (mem_blocks.2 ⟨m', hm', hs', hg', rfl⟩)
      rw [numDraws, hdraws'] at hdraws
      exact hdraws ▸ hi
    · exact fun hi => ⟨m, hm, hs, hg, hi⟩
  case unlisted =>
    intro g hg
    have hnone := map_some_collectionsOf (c := ofModels ms) (g := g) (n := 0) fun i => ?_
    · exact List.map_eq_nil_iff.1 hnone
    · rw [collection?_ofModels]
      refine iff_of_false ?_ (Nat.not_lt_zero i)
      rintro ⟨m, hm, hs, hmem, -⟩
      exact hg m hm hs hmem
  case triples => exact fun g i col => mem_triples
  case increasing => exact triples_increasing _
  case largest => exact maxDraws_ofModels groups

/-- Groups that are not numbered in order, a model that is drawn once and one that is drawn often but has no group. -/
def scattered : List (SourceModel Unit Rat) := [
  ⟨"thrice", 1 / 4, ["s1"], [{ id := ⟨5⟩, trt := "Active" }, { id := ⟨2⟩, trt := "Stable" }], .empty, 0, 3⟩,
  ⟨"once", 1 / 4, ["s2"], [{ id := ⟨4⟩, trt := "Active" }], .empty, 1, 1⟩,
  ⟨"bare", 1 / 4, ["s3"], [], .empty, 2, 9⟩,
  ⟨"twice", 1 / 4, ["s4"], [{ id := ⟨1⟩, trt := "Active" }], .empty, 3, 2⟩]

theorem laid_out_scattered : ((scattered.flatMap SourceModel.groups).map SourceGroup.id).Nodup ∧
    Layout scattered (ofModels scattered) ∧ (ofModels scattered).maxDraws = 3 ∧
    (ofModels scattered).triples = [(⟨1⟩, 0, ⟨6⟩), (⟨1⟩, 1, ⟨7⟩), (⟨2⟩, 0, ⟨3⟩), (⟨2⟩, 1, ⟨4⟩), (⟨2⟩, 2, ⟨5⟩),
      (⟨5⟩, 0, ⟨0⟩), (⟨5⟩, 1, ⟨1⟩), (⟨5⟩, 2, ⟨2⟩)] := by
  have groups : ((scattered.flatMap SourceModel.groups).map SourceGroup.id).Nodup := by decide +kernel
  exact ⟨groups, laid_out scattered groups, by decide +kernel, by decide +kernel⟩

end Composition
end SeismicHazard
