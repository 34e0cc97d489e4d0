import SeismicHazard.Composition
/-!
# Collections — which draws are given one

Collections are given out model by model, group by group and draw by draw.  A group is given one for each draw of its
model, the next ones that are free (`collection?_allocate`); so in the end a draw of a group has one exactly if a model
with that group is drawn more than once and that often (`collection?_ofModels`).  No two draws are given the same one
(`fresh_ofModels`).
-/
namespace SeismicHazard

variable {S W : Type}

def SourceModel.Draws (m : SourceModel S W) (g : GroupId) (draw : Nat) : Prop :=
  1 < m.samples ∧ g ∈ m.groups.map SourceGroup.id ∧ draw < m.samples

namespace Composition

theorem get?_foldl_insert (m : SortedMap DrawKey CollectionId) (g : GroupId) (first : Nat) (k : DrawKey) : ∀ n : Nat,
    ((List.range n).foldl (fun m i => m.insert ⟨g, i⟩ ⟨first + i⟩) m).get? k =
      if k.group = g ∧ k.draw < n then some ⟨first + k.draw⟩ else m.get? k
  | 0 => by simp
  | n + 1 => by
    rw [List.range_succ, List.foldl_append, List.foldl_cons, List.foldl_nil, SortedMap.get?_insert,
      get?_foldl_insert m g first k n]
    by_cases hk : k = ⟨g, n⟩
    · subst hk
      simp
    · have hne : ¬compare k ⟨g, n⟩ = .eq := fun h => hk (Std.LawfulEqCmp.eq_of_compare h)
      have hlt : k.group = g ∧ k.draw < n ↔ k.group = g ∧ k.draw < n + 1 := by
        constructor
        · exact fun h => ⟨h.1, Nat.lt_succ_of_lt h.2⟩
        · rintro ⟨hg, hd⟩
          refine ⟨hg, Nat.lt_of_le_of_ne (Nat.le_of_lt_succ hd) fun hn => hk ?_⟩
          cases k
          cases hg
          cases hn
          rfl
      rw [if_neg hne]
      simp only [hlt]

theorem collection?_allocate (n : Nat) (c : Composition) (g g' : GroupId) (draw : Nat) :
    (allocate n c g).collection? g' draw =
      if g' = g ∧ draw < n then some ⟨c.count + draw⟩ else c.collection? g' draw :=
  get?_foldl_insert c.collections g c.count ⟨g', draw⟩ n

theorem isSome_foldl_allocate (n : Nat) (g : GroupId) (draw : Nat) : ∀ (ids : List GroupId) (c : Composition),
    ((ids.foldl (allocate n) c).collection? g draw).isSome = true ↔
      (g ∈ ids ∧ draw < n) ∨ (c.collection? g draw).isSome = true
  | [], c => by simp
  | g' :: ids, c => by
    rw [List.foldl_cons, isSome_foldl_allocate n g draw ids, collection?_allocate, List.mem_cons]
    by_cases h : g = g' ∧ draw < n
    · rw [if_pos h]
      exact ⟨fun _ => Or.inl ⟨Or.inl h.1, h.2⟩, fun _ => Or.inr rfl⟩
    · rw [if_neg h]
      constructor
      · rintro (⟨hg, hd⟩ | hc)
        · exact Or.inl ⟨Or.inr hg, hd⟩
        · exact Or.inr hc
      · rintro (⟨hg | hg, hd⟩ | hc)
        · exact absurd ⟨hg, hd⟩ h
        · exact Or.inl ⟨hg, hd⟩
        · exact Or.inr hc

theorem collection?_addModel (m : SourceModel S W) (g : GroupId) (draw : Nat) (c : Composition) :
    (c.addModel m).collection? g draw =
      (if m.isOversampled then (m.groups.map SourceGroup.id).foldl (allocate m.samples) c else c).collection? g draw :=
  rfl

theorem isSome_addModel (m : SourceModel S W) (g : GroupId) (draw : Nat) (c : Composition) :
    ((c.addModel m).collection? g draw).isSome = true ↔ m.Draws g draw ∨ (c.collection? g draw).isSome = true := by
  have hover : m.isOversampled = true ↔ 1 < m.samples := decide_eq_true_iff
  unfold SourceModel.Draws
  rw [collection?_addModel, ← hover]
  by_cases h : m.isOversampled = true
  · rw [if_pos h, isSome_foldl_allocate]
    simp only [h, true_and]
  · rw [if_neg h]
    simp only [h, false_and, false_or, Bool.false_eq_true]

theorem isSome_foldl_addModel (g : GroupId) (draw : Nat) : ∀ (ms : List (SourceModel S W)) (c : Composition),
    ((ms.foldl addModel c).collection? g draw).isSome = true ↔
      (∃ m ∈ ms, m.Draws g draw) ∨ (c.collection? g draw).isSome = true
  | [], c => by simp
  | m :: ms, c => by
    rw [List.foldl_cons, isSome_foldl_addModel g draw ms, isSome_addModel]
    simp only [List.mem_cons, exists_eq_or_imp]
    rw [← or_assoc, or_comm (a := m.Draws g draw)]

/-- **A draw of a group has a collection exactly if a model that is drawn more than once gives it one.** -/
theorem collection?_ofModels (ms : List (SourceModel S W)) (g : GroupId) (draw : Nat) :
    ((ofModels ms).collection? g draw).isSome = true ↔ ∃ m ∈ ms, m.Draws g draw := by
  unfold ofModels
  rw [isSome_foldl_addModel]
  simp [empty, collection?]

/-! ## No collection is given out twice -/

/-- The collections that were given out are below the next free one and differ from each other. -/
structure Fresh (c : Composition) : Prop where
  below : ∀ {g draw col}, c.collection? g draw = some col → col.val < c.count
  apart : ∀ {g draw g' draw' col}, c.collection? g draw = some col → c.collection? g' draw' = some col →
    g = g' ∧ draw = draw'

theorem Fresh.allocate {c : Composition} (h : c.Fresh) (n : Nat) (g : GroupId) : (allocate n c g).Fresh := by
  have hnew : ∀ g' draw col, (Composition.allocate n c g).collection? g' draw = some col →
      (g' = g ∧ draw < n ∧ col.val = c.count + draw) ∨ (c.collection? g' draw = some col ∧ col.val < c.count) := by
    intro g' draw col hcol
    rw [collection?_allocate] at hcol
    split at hcol
    · rename_i hg
      cases hcol
      exact Or.inl ⟨hg.1, hg.2, rfl⟩
    · exact Or.inr ⟨hcol, h.below hcol⟩
  constructor
  · intro g' draw col hcol
    change col.val < c.count + n
    rcases hnew _ _ _ hcol with ⟨-, hd, hv⟩ | ⟨-, hlt⟩ <;> omega
  · intro g₁ d₁ g₂ d₂ col h₁ h₂
    rcases hnew _ _ _ h₁ with ⟨rfl, -, hv₁⟩ | ⟨hc₁, hlt₁⟩
    · rcases hnew _ _ _ h₂ with ⟨rfl, -, hv₂⟩ | ⟨-, hlt₂⟩
      · exact ⟨rfl, by omega⟩
      · omega
    · rcases hnew _ _ _ h₂ with ⟨-, -, hv₂⟩ | ⟨hc₂, -⟩
      · omega
      · exact h.apart hc₁ hc₂

theorem Fresh.foldl_allocate (n : Nat) : ∀ (ids : List GroupId) {c : Composition}, c.Fresh →
    (ids.foldl (Composition.allocate n) c).Fresh
  | [], _, h => h
  | g :: ids, _, h => Fresh.foldl_allocate n ids (h.allocate n g)

theorem Fresh.addModel {c : Composition} (h : c.Fresh) (m : SourceModel S W) : (c.addModel m).Fresh := by
  unfold Composition.addModel
  dsimp only
  split
  · have hall := h.foldl_allocate m.samples (m.groups.map SourceGroup.id)
    exact ⟨hall.below, hall.apart⟩
  · exact ⟨h.below, h.apart⟩

theorem Fresh.foldl_addModel : ∀ (ms : List (SourceModel S W)) {c : Composition}, c.Fresh →
    (ms.foldl Composition.addModel c).Fresh
  | [], _, h => h
  | m :: ms, _, h => Fresh.foldl_addModel ms (h.addModel m)

theorem fresh_ofModels (ms : List (SourceModel S W)) : (ofModels ms).Fresh := by
  have hempty : empty.Fresh := by constructor <;> (intros; contradiction)
  exact hempty.foldl_addModel ms

theorem Fresh.find?_collection {c : Composition} (h : c.Fresh) {g : GroupId} {i : Nat} {col : CollectionId}
    (hcol : c.collection? g i = some col) :
    c.collections.toList.find? (fun e => e.2 = col) = some (⟨g, i⟩, col) := by
  have hmem : ((⟨g, i⟩, col) : DrawKey × CollectionId) ∈ c.collections.toList := SortedMap.get?_eq_some.1 hcol
  cases he : c.collections.toList.find? (fun e => e.2 = col) with
  | none => exact absurd (decide_eq_true rfl) (List.find?_eq_none.1 he _ hmem)
  | some e =>
    obtain ⟨⟨g', i'⟩, col'⟩ := e
    obtain rfl : col' = col := by simpa using List.find?_some he
    have hget : c.collection? g' i' = some col' := SortedMap.get?_eq_some.2 (List.mem_of_find?_eq_some he)
    obtain ⟨rfl, rfl⟩ := h.apart hget hcol
    rfl

end Composition
end SeismicHazard
