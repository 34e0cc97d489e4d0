import SeismicHazard.Proofs.Processing.Merging
import SeismicHazard.Source.Strip
/-!
# Merge laws — split results are put together in any order

Split results form a monoid: a merge is told by what it stores for every group (`get?_merge`), and there lists are
joined.  It is no commutative one, since joined lists keep their order.  But nothing else of the order is kept, so trees
with the same tasks come to results that differ in the order inside their lists alone (`reordered_value`), and their
sub-sources are counted alike (`numSources_value`).
-/
namespace SeismicHazard
namespace SplitResult

variable {S α : Type}

/-! ## A monoid -/

theorem ext_get? {a b : SplitResult S} (hgroups : ∀ g, a.byGroup.get? g = b.byGroup.get? g)
    (hrecords : a.records = b.records) : a = b := by
  obtain ⟨m, records⟩ := a
  obtain ⟨m', records'⟩ := b
  obtain rfl : m = m' := SortedMap.ext_get? hgroups
  obtain rfl : records = records' := hrecords
  rfl

instance : Std.Associative (merge (S := S)) where
  assoc a b c := by
    have joined : Std.Associative (Option.merge (α := List S) (· ++ ·)) := inferInstance
    refine ext_get? (fun g => ?_) (List.append_assoc ..)
    simp only [get?_merge]
    exact joined.assoc ..

instance : Std.LawfulIdentity (merge (S := S)) empty where
  left_id a := by
    refine ext_get? (fun g => ?_) (List.nil_append _)
    rw [get?_merge]
    exact Option.merge_none_left
  right_id a := by
    refine ext_get? (fun g => ?_) (List.append_nil _)
    rw [get?_merge]
    exact Option.merge_none_right

/-! ## Up to order -/

/-- Results of the same groups, which hold the same sub-sources and records in another order. -/
structure Reordered (a b : SplitResult S) : Prop where
  groups : a.byGroup.keys = b.byGroup.keys
  sources : ∀ g, (a.sourcesOf g).Perm (b.sourcesOf g)
  records : a.records.Perm b.records

theorem mem_keys_merge {a b : SplitResult S} {g : GroupId} :
    g ∈ (a.merge b).byGroup.keys ↔ g ∈ a.byGroup.keys ∨ g ∈ b.byGroup.keys := by
  simp only [SortedMap.mem_keys, get?_merge]
  cases a.byGroup.get? g <;> cases b.byGroup.get? g <;> simp

theorem mem_keys_value {f : α → SplitResult S} {g : GroupId} : ∀ {t : Reduction α},
    g ∈ (t.value empty merge f).byGroup.keys ↔ ∃ a ∈ t.tasks, g ∈ (f a).byGroup.keys
  | .unit => by simp [Reduction.value, Reduction.tasks, empty, SortedMap.keys, SortedMap.empty]
  | .task a => by simp [Reduction.value, Reduction.tasks]
  | .merge l r => by
    rw [Reduction.value, Reduction.tasks, mem_keys_merge, mem_keys_value (t := l), mem_keys_value (t := r)]
    simp only [List.mem_append, or_and_right, exists_or]

theorem reordered_value (f : α → SplitResult S) {t t' : Reduction α} (h : t.tasks.Perm t'.tasks) :
    Reordered (t.value empty merge f) (t'.value empty merge f) := by
  refine ⟨SortedMap.eq_of_increasing (SortedMap.increasing_keys _) (SortedMap.increasing_keys _) fun g => ?_,
    fun g => ?_, ?_⟩
  · simp only [mem_keys_value, h.mem_iff]
  · rw [sourcesOf_value, sourcesOf_value]
    exact h.flatMap_right _
  · rw [records_value, records_value]
    exact h.flatMap_right _

/-! ## The number of sub-sources -/

theorem total_insertInto {k : GroupId} {v : List S} : ∀ {l : List (GroupId × List S)},
    l.Pairwise (fun a b => compare a.1 b.1 = .lt) →
    total ((SortedMap.insertInto k v l).map (fun e => e.2.length)) + ((SortedMap.lookupIn k l).getD []).length =
      total (l.map (fun e => e.2.length)) + v.length
  | [], _ => by simp [SortedMap.insertInto, SortedMap.lookupIn]
  | e :: l, h => by
    have ih := total_insertInto (k := k) (v := v) (List.pairwise_cons.1 h).2
    rw [SortedMap.insertInto, SortedMap.lookupIn]
    cases hk : compare k e.1 with
    | lt =>
      -- a key in front of all others is not stored yet
      have hfirst : ((k, v) :: e :: l).Pairwise (fun a b => compare a.1 b.1 = .lt) := by
        refine List.pairwise_cons.2 ⟨fun e' he' => ?_, h⟩
        rcases List.mem_cons.1 he' with rfl | he'
        · exact hk
        · exact Std.TransCmp.lt_trans hk ((List.pairwise_cons.1 h).1 e' he')
      have hnone := SortedMap.lookupIn_behind hfirst
      rw [SortedMap.lookupIn, if_neg (by simp [hk])] at hnone
      simp [hnone]
      omega
    | eq => simp; omega
    | gt => simp; omega

theorem numSources_addTo (m : SortedMap GroupId (List S)) (e : GroupId × List S) :
    total ((addTo m e).values.map List.length) = total (m.values.map List.length) + e.2.length := by
  have h := total_insertInto (k := e.1) (v := (m.get? e.1).getD [] ++ e.2) m.increasing
  rw [List.length_append] at h
  unfold addTo SortedMap.update SortedMap.insert SortedMap.values SortedMap.get? at *
  simp only [List.map_map, Function.comp_def] at *
  omega

theorem numSources_merge (a b : SplitResult S) : (a.merge b).numSources = a.numSources + b.numSources := by
  have hfold : ∀ (entries : List (GroupId × List S)) (m : SortedMap GroupId (List S)),
      total ((entries.foldl addTo m).values.map List.length) =
        total (m.values.map List.length) + total (entries.map (fun e => e.2.length)) := by
    intro entries
    induction entries with
    | nil => simp
    | cons e entries ih =>
      intro m
      rw [List.foldl_cons, ih, numSources_addTo, List.map_cons, total_cons, Nat.add_assoc]
  rw [numSources, merge, hfold]
  simp [numSources, SortedMap.values, SortedMap.toList, Function.comp_def]

theorem numSources_value (f : α → SplitResult S) : ∀ t : Reduction α,
    (t.value empty merge f).numSources = total (t.tasks.map (fun a => (f a).numSources))
  | .unit => rfl
  | .task a => by simp [Reduction.value, Reduction.tasks]
  | .merge l r => by
    rw [Reduction.value, Reduction.tasks, List.map_append, total_append, numSources_merge, numSources_value f l,
      numSources_value f r]

/-! ## All laws -/

/-- How split results are put together. -/
structure MergesLawfully (S : Type) : Prop where
  assoc : ∀ a b c : SplitResult S, (a.merge b).merge c = a.merge (b.merge c)
  neutral : ∀ a : SplitResult S, a.merge empty = a ∧ empty.merge a = a
  comm : ∀ a b : SplitResult S, Reordered (a.merge b) (b.merge a)
  /-- However the same results are ordered, bracketed and mixed with empty ones. -/
  trees : ∀ t t' : Reduction (SplitResult S), t.tasks.Perm t'.tasks →
    Reordered (t.value empty merge id) (t'.value empty merge id)
  count : ∀ a b : SplitResult S, (a.merge b).numSources = a.numSources + b.numSources
  countTree : ∀ t : Reduction (SplitResult S),
    (t.value empty merge id).numSources = total (t.tasks.map numSources)

/-- **Split results are merged in any order.**  Merging is associative, the empty result is neutral, and whoever merges
the same results in another order or bracketing gets the same groups, sub-sources and records, only the lists in another
order; the numbers of sub-sources add up. -/
theorem merges_lawfully : MergesLawfully S where
  assoc := Std.Associative.assoc
  neutral a := ⟨Std.LawfulRightIdentity.right_id a, Std.LawfulLeftIdentity.left_id a⟩
  comm a b := by
    have swapped : (Reduction.merge (.task a) (.task b)).tasks.Perm (Reduction.merge (.task b) (.task a)).tasks :=
      List.Perm.swap b a []
    exact reordered_value id swapped
  trees _ _ := reordered_value id
  count := numSources_merge
  countTree := numSources_value id

def named (g : Nat) (names : List String) : SplitResult String := ⟨SortedMap.empty.insert ⟨g⟩ names, []⟩

/-- Two results share a group, so it shows which was in front; a third one is of a group without sub-sources. -/
theorem merges_lawfully_sharedGroup :
    let a := named 1 ["a", "b"]
    let b := named 1 ["c"]
    let c := named 2 []
    let t : Reduction (SplitResult String) := .merge (.merge (.task a) (.task b)) (.task c)
    let t' : Reduction (SplitResult String) := .merge (.merge (.task c) .unit) (.merge (.task b) (.task a))
    t.tasks.Perm t'.tasks ∧ Reordered (t.value empty merge id) (t'.value empty merge id) ∧
      (t.value empty merge id).sourcesOf ⟨1⟩ = ["a", "b", "c"] ∧
      (t'.value empty merge id).sourcesOf ⟨1⟩ = ["c", "a", "b"] ∧
      (t'.value empty merge id).byGroup.keys = [⟨1⟩, ⟨2⟩] := by
  intro a b c t t'
  have same : t.tasks.Perm t'.tasks := List.reverse_perm [c, b, a]
  exact ⟨same, merges_lawfully.trees t t' same, rfl, rfl, rfl⟩

end SplitResult
end SeismicHazard
