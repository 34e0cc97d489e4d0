import SeismicHazard.LogicTree.Tree
import SeismicHazard.Proofs.Outcome
import Mathlib.Data.List.Nodup
/-!
# Assembling — a tree does not know in which order its sets were added

A set is accepted for what it is, and for a tectonic region type that the tree does not have yet
(`withBranchSet_eq_ok`).  So sets can be added one after the other exactly if each of them is acceptable and no two are
for one tectonic region type, and the tree then holds these sets and no others (`ofSets_eq_ok`).  Nothing in that depends
on their order (`ofSets_perm`).
-/
namespace SeismicHazard

namespace SortedMap

variable {κ ν : Type} [Ord κ]

theorem insertInto_perm [Std.LawfulEqOrd κ] {k : κ} (v : ν) : ∀ {l : List (κ × ν)}, (∀ e ∈ l, e.1 ≠ k) →
    (insertInto k v l).Perm ((k, v) :: l)
  | [], _ => List.Perm.refl _
  | e :: l, h => by
    rw [insertInto]
    split
    · exact List.Perm.refl _
    · rename_i heq
      exact absurd (Std.LawfulEqCmp.eq_of_compare heq).symm (h e (List.mem_cons_self ..))
    · have ih := insertInto_perm v fun e' he' => h e' (List.mem_cons_of_mem _ he')
      exact (ih.cons e).trans (List.Perm.swap ..)

theorem contains_eq_false [Std.LawfulEqOrd κ] {m : SortedMap κ ν} {k : κ} :
    m.contains k = false ↔ ∀ e ∈ m.toList, e.1 ≠ k := by
  rw [contains, Option.isSome_eq_false_iff, Option.isNone_iff_eq_none]
  constructor
  · rintro h e he rfl
    rw [get?_eq_some.2 he] at h
    cases h
  · intro h
    cases hv : m.get? k with
    | none => rfl
    | some v => exact absurd rfl (h _ (get?_eq_some.1 hv))

/-- **Maps with the same entries are equal**, whatever the order in which these are listed. -/
theorem eq_of_perm [Std.TransOrd κ] {a b : SortedMap κ ν} (h : a.toList.Perm b.toList) : a = b := by
  have hentries : a.entries = b.entries := eq_of_mem_iff a.increasing b.increasing fun _ => h.mem_iff
  cases a
  cases b
  congr

end SortedMap

namespace BranchSetTree

variable {W : Type} [Scalar W]

def Acceptable (set : String × List (Branch W)) : Prop := (empty : BranchSetTree W).setFault? set.1 set.2 = none

theorem setFault?_eq_none {t : BranchSetTree W} {trt : String} {branches : List (Branch W)} :
    t.setFault? trt branches = none ↔ t.sets.contains trt = false ∧ Acceptable (trt, branches) := by
  have hempty : (empty : BranchSetTree W).sets.contains trt = false := rfl
  unfold Acceptable setFault?
  rw [hempty]
  cases t.sets.contains trt <;> simp

/-- **A tree takes an acceptable set for a new tectonic region type**, beside those that it has. -/
theorem withBranchSet_eq_ok {t t' : BranchSetTree W} {trt : String} {branches : List (Branch W)} :
    t.withBranchSet trt branches = .ok t' ↔
      Acceptable (trt, branches) ∧ (∀ s ∈ t.sets.toList, s.1 ≠ trt) ∧
        t'.sets.toList.Perm ((trt, branches) :: t.sets.toList) := by
  rw [← SortedMap.contains_eq_false]
  unfold withBranchSet
  constructor
  · intro h
    split at h
    · cases h
    · rename_i hfault
      obtain ⟨hnew, hset⟩ := setFault?_eq_none.1 hfault
      cases h
      exact ⟨hset, hnew, SortedMap.insertInto_perm _ (SortedMap.contains_eq_false.1 hnew)⟩
  · rintro ⟨hset, hnew, hperm⟩
    rw [setFault?_eq_none.2 ⟨hnew, hset⟩]
    have hinsert : (t.sets.insert trt branches).toList.Perm ((trt, branches) :: t.sets.toList) :=
      SortedMap.insertInto_perm _ (SortedMap.contains_eq_false.1 hnew)
    have hsets : t.sets.insert trt branches = t'.sets := SortedMap.eq_of_perm (hinsert.trans hperm.symm)
    exact congrArg (fun sets => Except.ok (BranchSetTree.mk sets)) hsets

theorem foldlM_withBranchSet_eq_ok : ∀ {sets : List (String × List (Branch W))} {t t' : BranchSetTree W},
    sets.foldlM (fun t s => t.withBranchSet s.1 s.2) t = .ok t' ↔
      (∀ s ∈ sets, Acceptable s) ∧ ((t.sets.toList ++ sets).map Prod.fst).Nodup ∧
        t'.sets.toList.Perm (t.sets.toList ++ sets)
  | [], t, t' => by
    rw [List.foldlM_nil, List.append_nil]
    constructor
    · intro h
      cases h
      exact ⟨fun s hs => absurd hs List.not_mem_nil, t.sets.nodup_keys, List.Perm.refl _⟩
    · rintro ⟨-, -, hperm⟩
      have hsets : t.sets = t'.sets := SortedMap.eq_of_perm hperm.symm
      exact congrArg (fun sets => Except.ok (BranchSetTree.mk sets)) hsets
  | s :: sets, t, t' => by
    have hmiddle : (t.sets.toList ++ s :: sets).Perm (s :: (t.sets.toList ++ sets)) := List.perm_middle
    rw [List.foldlM_cons, Outcome.bind_eq_ok, (hmiddle.map Prod.fst).nodup_iff, List.map_cons, List.nodup_cons]
    constructor
    · rintro ⟨t₁, hadd, hrest⟩
      obtain ⟨hset, hnew, hperm⟩ := withBranchSet_eq_ok.1 hadd
      obtain ⟨hsets, hnodup, hperm'⟩ := foldlM_withBranchSet_eq_ok.1 hrest
      have hboth : (t₁.sets.toList ++ sets).Perm (s :: (t.sets.toList ++ sets)) := hperm.append_right sets
      rw [(hboth.map Prod.fst).nodup_iff, List.map_cons, List.nodup_cons] at hnodup
      refine ⟨?_, hnodup, hperm'.trans (hboth.trans hmiddle.symm)⟩
      rintro s' hs'
      rcases List.mem_cons.1 hs' with rfl | hs'
      · exact hset
      · exact hsets s' hs'
    · rintro ⟨hsets, hnodup, hperm⟩
      have hnew : ∀ s' ∈ t.sets.toList, s'.1 ≠ s.1 := fun s' hs' heq =>
        hnodup.1 (heq ▸ List.mem_map_of_mem (List.mem_append_left _ hs'))
      have hinsert : (t.sets.insert s.1 s.2).toList.Perm (s :: t.sets.toList) := SortedMap.insertInto_perm _ hnew
      have hboth : ((t.sets.insert s.1 s.2).toList ++ sets).Perm (s :: (t.sets.toList ++ sets)) :=
        hinsert.append_right sets
      refine ⟨⟨t.sets.insert s.1 s.2⟩, withBranchSet_eq_ok.2 ⟨hsets s (List.mem_cons_self ..), hnew, hinsert⟩,
        foldlM_withBranchSet_eq_ok.2 ⟨fun s' hs' => hsets s' (List.mem_cons_of_mem _ hs'), ?_, ?_⟩⟩
      · rw [(hboth.map Prod.fst).nodup_iff, List.map_cons, List.nodup_cons]
        exact hnodup
      · exact hperm.trans (hmiddle.trans hboth.symm)

/-- **Which sets make up a tree**: acceptable ones for different tectonic region types; the tree holds exactly these. -/
theorem ofSets_eq_ok {sets : List (String × List (Branch W))} {t : BranchSetTree W} :
    ofSets sets = .ok t ↔
      (∀ s ∈ sets, Acceptable s) ∧ (sets.map Prod.fst).Nodup ∧ t.sets.toList.Perm sets :=
  foldlM_withBranchSet_eq_ok (t := empty)

theorem ofSets_perm {sets sets' : List (String × List (Branch W))} (h : sets.Perm sets') {t : BranchSetTree W}
    (ht : ofSets sets = .ok t) : ofSets sets' = .ok t := by
  obtain ⟨hsets, hnodup, hperm⟩ := ofSets_eq_ok.1 ht
  exact ofSets_eq_ok.2 ⟨fun s hs => hsets s (h.mem_iff.2 hs), (h.map Prod.fst).nodup_iff.1 hnodup, hperm.trans h⟩

end BranchSetTree
end SeismicHazard
