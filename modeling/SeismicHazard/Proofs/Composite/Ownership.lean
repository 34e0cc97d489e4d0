import SeismicHazard.Proofs.Composite.Layout
import Mathlib.Data.List.Pairwise
import Mathlib.Data.List.Perm.Basic
/-!
# Ownership — from collections back to their groups

To be asked for the groups of some collections, a composition goes through these in order and leaves out a group that
repeats the one before it.  That would not do if the collections of a group were scattered.  But a group has a block of
the row (`collection?_iff`), so that all its collections come before those of another group or all behind them
(`earlier_or_earlier`), and a group that comes back comes back at once.  So each owner is found once, in the order in
which the groups were given their blocks (`groupsOf_eq`).
-/
namespace SeismicHazard

/-! ## Repeats -/

section Repeats

variable {α : Type} [DecidableEq α]

theorem mem_dropRepeats {x : α} : ∀ {l : List α}, x ∈ dropRepeats l ↔ x ∈ l
  | [] => Iff.rfl
  | [_] => Iff.rfl
  | a :: b :: rest => by
    have ih : x ∈ dropRepeats (b :: rest) ↔ x ∈ b :: rest := mem_dropRepeats
    rw [dropRepeats]
    split
    · rename_i hab
      subst hab
      rw [ih]
      simp
    · rw [List.mem_cons, List.mem_cons, ih]

/-- **A list without repeats is in strict order** if it was in order before, repeats apart. -/
theorem pairwise_dropRepeats {R : α → α → Prop} : ∀ {l : List α}, (∀ a ∈ l, ∀ b ∈ l, R a b → ¬R b a) →
    l.Pairwise (fun a b => a = b ∨ R a b) → (dropRepeats l).Pairwise R
  | [], _, _ => .nil
  | [_], _, _ => List.pairwise_singleton ..
  | a :: b :: rest, hasymm, h => by
    obtain ⟨ha, hrest⟩ := List.pairwise_cons.1 h
    have ih := pairwise_dropRepeats
      (fun x hx y hy => hasymm x (List.mem_cons_of_mem a hx) y (List.mem_cons_of_mem a hy)) hrest
    rw [dropRepeats]
    split
    · exact ih
    · rename_i hab
      refine List.pairwise_cons.2 ⟨fun x hx => ?_, ih⟩
      have hx := mem_dropRepeats.1 hx
      refine (ha x hx).resolve_left ?_
      -- were it to come back, it would have to stand before and behind the next one
      rintro rfl
      have hfirst : R a b := (ha b (List.mem_cons_self ..)).resolve_left hab
      rcases List.mem_cons.1 hx with rfl | hx
      · exact hab rfl
      · rcases (List.pairwise_cons.1 hrest).1 a hx with rfl | hback
        · exact hab rfl
        · exact hasymm a (List.mem_cons_self ..) b (List.mem_cons_of_mem a (List.mem_cons_self ..)) hfirst hback

end Repeats

namespace Composition

variable {S W : Type}

/-! ## Owners -/

def Owns (c : Composition) (g : GroupId) (col : CollectionId) : Prop := ∃ i, c.collection? g i = some col

def Earlier (c : Composition) (g g' : GroupId) : Prop :=
  ∀ col col', c.Owns g col → c.Owns g' col' → col.val < col'.val

variable {c : Composition} {g g' : GroupId} {col : CollectionId}

theorem groupOf_toOption (fresh : c.Fresh) : (c.groupOf col).toOption = some g ↔ c.Owns g col := by
  constructor
  · intro h
    by_contra hnone
    by_cases howned : ∃ g', c.Owns g' col
    · obtain ⟨g', i, hcol⟩ := howned
      rw [groupOf_eq_ok fresh hcol] at h
      cases h
      exact hnone ⟨i, hcol⟩
    · rw [groupOf_eq_error.2 fun g' i hcol => howned ⟨g', i, hcol⟩] at h
      cases h
  · rintro ⟨i, hcol⟩
    rw [groupOf_eq_ok fresh hcol]
    rfl

theorem mem_collectionsOf : col ∈ c.collectionsOf g ↔ c.Owns g col := by
  rw [collectionsOf, SortedMap.mem_values]
  simp only [SortedMap.get?_filter, Option.filter_eq_some_iff, decide_eq_true_iff]
  constructor
  · rintro ⟨⟨_, i⟩, hget, rfl⟩
    exact ⟨i, hget⟩
  · rintro ⟨i, hget⟩
    exact ⟨⟨g, i⟩, hget, rfl⟩

theorem Earlier.asymm (h : c.Earlier g g') {col' : CollectionId} (hg : c.Owns g col) (hg' : c.Owns g' col') :
    ¬c.Earlier g' g := fun h' => Nat.lt_asymm (h col col' hg hg') (h' col' col hg' hg)

/-! ## Blocks of models -/

variable {ms : List (SourceModel S W)}

theorem collection?_iff (groups : ((ms.flatMap SourceModel.groups).map SourceGroup.id).Nodup)
    {before after : List (GroupId × Nat)} {n : Nat} (hsplit : blocks ms = before ++ (g, n) :: after) {i : Nat} :
    (ofModels ms).collection? g i = some col ↔ i < n ∧ col.val = extent before + i := by
  have hn : ((blocks ms).map Prod.fst).Nodup := groups.sublist (blocks_sublist ms)
  obtain ⟨l, hl⟩ := exists_foldl_addModel ms empty
  have hplace : i < n → (ofModels ms).collection? g i = some ⟨extent before + i⟩ := by
    intro hi
    have hlay := collection?_lay (hsplit ▸ hn) empty hi
    rw [← hsplit, empty, Nat.zero_add] at hlay
    rw [ofModels, hl]
    exact hlay
  constructor
  · intro hcol
    obtain ⟨m, hm, hs, hg, hi⟩ := (collection?_ofModels ms g i).1 (by rw [hcol]; rfl)
    have hblock : (g, n) ∈ blocks ms := hsplit ▸ List.mem_append_right before (List.mem_cons_self ..)
    have hdraws := (get?_draws_ofModels groups).2 hblock
    rw [(get?_draws_ofModels groups).2 (mem_blocks.2 ⟨m, hm, hs, hg, rfl⟩)] at hdraws
    obtain rfl := Option.some.inj hdraws
    rw [hplace hi] at hcol
    obtain rfl := Option.some.inj hcol
    exact ⟨hi, rfl⟩
  · rintro ⟨hi, hval⟩
    rw [hplace hi, ← hval]

theorem mem_blocks_of_owns (h : (ofModels ms).Owns g col) : g ∈ (blocks ms).map Prod.fst := by
  obtain ⟨i, hcol⟩ := h
  obtain ⟨m, hm, hs, hg, -⟩ := (collection?_ofModels ms g i).1 (by rw [hcol]; rfl)
  exact List.mem_map.2 ⟨_, mem_blocks.2 ⟨m, hm, hs, hg, rfl⟩, rfl⟩

theorem pairwise_earlier (groups : ((ms.flatMap SourceModel.groups).map SourceGroup.id).Nodup) :
    ((blocks ms).map Prod.fst).Pairwise (ofModels ms).Earlier := by
  have hbehind : ∀ after before, blocks ms = before ++ after → (after.map Prod.fst).Pairwise (ofModels ms).Earlier := by
    intro after
    induction after with
    | nil => exact fun _ _ => .nil
    | cons b after ih =>
      intro before hsplit
      refine List.pairwise_cons.2 ⟨fun g' hg' => ?_, ih (before ++ [b]) (by simpa using hsplit)⟩
      rintro col col' ⟨i, hcol⟩ ⟨i', hcol'⟩
      obtain ⟨b', hb', rfl⟩ := List.mem_map.1 hg'
      obtain ⟨between, rest, rfl⟩ := List.append_of_mem hb'
      obtain ⟨hi, hval⟩ := (collection?_iff groups hsplit).1 hcol
      have hsplit' : blocks ms = (before ++ b :: between) ++ b' :: rest := by simpa using hsplit
      obtain ⟨-, hval'⟩ := (collection?_iff groups hsplit').1 hcol'
      simp only [extent, List.map_append, List.map_cons, total_append, total_cons] at hval hval'
      omega
  exact hbehind (blocks ms) [] rfl

theorem earlier_or_earlier (groups : ((ms.flatMap SourceModel.groups).map SourceGroup.id).Nodup) {col' : CollectionId}
    (hg : (ofModels ms).Owns g col) (hg' : (ofModels ms).Owns g' col') :
    g = g' ∨ (ofModels ms).Earlier g g' ∨ (ofModels ms).Earlier g' g := by
  have heither : ((blocks ms).map Prod.fst).Pairwise
      (fun a b => (ofModels ms).Earlier a b ∨ (ofModels ms).Earlier b a) := (pairwise_earlier groups).imp Or.inl
  have : Std.Symm (fun a b => (ofModels ms).Earlier a b ∨ (ofModels ms).Earlier b a) := ⟨fun _ _ => Or.symm⟩
  by_cases heq : g = g'
  · exact Or.inl heq
  · exact Or.inr (heither.forall (mem_blocks_of_owns hg) (mem_blocks_of_owns hg') heq)

/-! ## Groups of collections -/

theorem mem_groupsOf (fresh : c.Fresh) {cols : SortedSet CollectionId} :
    g ∈ c.groupsOf cols.keys ↔ ∃ col, c.Owns g col ∧ cols.contains col = true := by
  rw [groupsOf, mem_dropRepeats, List.mem_filterMap]
  simp only [groupOf_toOption fresh, SortedMap.mem_keys, SortedMap.contains, Option.isSome_iff_exists, and_comm]

theorem pairwise_groupsOf (groups : ((ms.flatMap SourceModel.groups).map SourceGroup.id).Nodup)
    (cols : SortedSet CollectionId) : ((ofModels ms).groupsOf cols.keys).Pairwise (ofModels ms).Earlier := by
  have fresh := fresh_ofModels ms
  refine pairwise_dropRepeats (fun g hg g' hg' h => ?_) (List.pairwise_filterMap.2 ?_)
  · obtain ⟨col, -, howns⟩ := List.mem_filterMap.1 hg
    obtain ⟨col', -, howns'⟩ := List.mem_filterMap.1 hg'
    exact h.asymm ((groupOf_toOption fresh).1 howns) ((groupOf_toOption fresh).1 howns')
  · refine cols.increasing_keys.imp fun {col col'} hlt g hg g' hg' => ?_
    have howns := (groupOf_toOption fresh).1 hg
    have howns' := (groupOf_toOption fresh).1 hg'
    rcases earlier_or_earlier groups howns howns' with heq | hearlier | hlater
    · exact Or.inl heq
    · exact Or.inr hearlier
    · have hval : col.val < col'.val := Nat.compare_eq_lt.1 hlt
      exact absurd (hlater col' col howns' howns) (Nat.lt_asymm hval)

theorem nodup_groupsOf (groups : ((ms.flatMap SourceModel.groups).map SourceGroup.id).Nodup)
    (cols : SortedSet CollectionId) : ((ofModels ms).groupsOf cols.keys).Nodup := by
  refine (pairwise_groupsOf groups cols).imp_of_mem fun {g g'} hg _ hearlier heq => ?_
  subst heq
  obtain ⟨col, howns, -⟩ := (mem_groupsOf (fresh_ofModels ms)).1 hg
  exact Nat.lt_irrefl _ (hearlier col col howns howns)

/-- **The groups of some collections** are those that own one, each once and in the order of the blocks. -/
theorem groupsOf_eq (groups : ((ms.flatMap SourceModel.groups).map SourceGroup.id).Nodup)
    (cols : SortedSet CollectionId) : (ofModels ms).groupsOf cols.keys =
      ((blocks ms).map Prod.fst).filter (fun g => ((ofModels ms).collectionsOf g).any cols.contains) := by
  have hfound : ∀ g, g ∈ (ofModels ms).groupsOf cols.keys ↔
      ∃ col, (ofModels ms).Owns g col ∧ cols.contains col = true := fun g => mem_groupsOf (fresh_ofModels ms)
  have hkept : ∀ g, g ∈ ((blocks ms).map Prod.fst).filter
      (fun g => ((ofModels ms).collectionsOf g).any cols.contains) ↔
        ∃ col, (ofModels ms).Owns g col ∧ cols.contains col = true := by
    intro g
    simp only [List.mem_filter, List.any_eq_true, mem_collectionsOf]
    exact ⟨fun h => h.2, fun ⟨col, h⟩ => ⟨mem_blocks_of_owns h.1, col, h⟩⟩
  have hfirst := pairwise_groupsOf groups cols
  have hsecond := (pairwise_earlier groups).filter (fun g => ((ofModels ms).collectionsOf g).any cols.contains)
  have hnodup := nodup_groupsOf groups cols
  have hnodup' : ((blocks ms).map Prod.fst).Nodup := groups.sublist (blocks_sublist ms)
  refine List.Perm.eq_of_pairwise (fun g g' hg hg' h h' => ?_) hfirst hsecond
    ((List.perm_ext_iff_of_nodup hnodup (hnodup'.filter _)).2 fun g => (hfound g).trans (hkept g).symm)
  obtain ⟨col, howns, -⟩ := (hfound g).1 hg
  obtain ⟨col', howns', -⟩ := (hkept g').1 hg'
  exact absurd h' (h.asymm howns howns')

end Composition
end SeismicHazard
