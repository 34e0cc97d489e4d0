/-!
# Sorting — lists put in order

A list is sorted by inserting its members one after the other, the last one first, each before the first member that it
may precede.  Members of equal rank keep their order.  The main statements say that sorting permutes
(`sortBy_perm`), that its result is in order (`sortBy_pairwise`), that a list in order stays as it is
(`sortBy_eq_self`) and that the order of the given list does not matter (`sortBy_eq_of_perm`).  The last two statements
say the same of lists that are sorted by a number.
-/
namespace SeismicHazard

variable {α : Type}

def insertBy (le : α → α → Bool) (a : α) : List α → List α
  | [] => [a]
  | b :: bs => if le a b then a :: b :: bs else b :: insertBy le a bs

/-- **Sorts a list**; `le a b` says that `a` may stand before `b`. -/
def sortBy (le : α → α → Bool) : List α → List α
  | [] => []
  | a :: as => insertBy le a (sortBy le as)

theorem insertBy_perm (le : α → α → Bool) (a : α) (l : List α) : (insertBy le a l).Perm (a :: l) := by
  induction l with
  | nil => exact List.Perm.refl _
  | cons b l ih =>
    simp only [insertBy]
    split
    · exact List.Perm.refl _
    · exact (ih.cons b).trans (List.Perm.swap a b l)

theorem sortBy_perm (le : α → α → Bool) (l : List α) : (sortBy le l).Perm l := by
  induction l with
  | nil => exact List.Perm.refl _
  | cons a l ih => exact (insertBy_perm le a _).trans (ih.cons a)

theorem insertBy_pairwise {le : α → α → Bool} (trans : ∀ a b c, le a b → le b c → le a c)
    (connected : ∀ a b, le a b || le b a) (a : α) {l : List α} (h : l.Pairwise (fun a b => le a b)) :
    (insertBy le a l).Pairwise (fun a b => le a b) := by
  induction l with
  | nil => simp [insertBy]
  | cons b l ih =>
    rw [List.pairwise_cons] at h
    simp only [insertBy]
    split
    · rename_i hab
      refine List.pairwise_cons.2 ⟨fun c hc => ?_, List.pairwise_cons.2 h⟩
      rcases List.mem_cons.1 hc with rfl | hc
      · exact hab
      · exact trans _ _ _ hab (h.1 c hc)
    · rename_i hab
      have hba : le b a = true := by simpa [hab] using connected a b
      refine List.pairwise_cons.2 ⟨fun c hc => ?_, ih h.2⟩
      rcases List.mem_cons.1 ((insertBy_perm le a l).mem_iff.1 hc) with rfl | hc
      · exact hba
      · exact h.1 c hc

theorem sortBy_pairwise {le : α → α → Bool} (trans : ∀ a b c, le a b → le b c → le a c)
    (connected : ∀ a b, le a b || le b a) (l : List α) : (sortBy le l).Pairwise (fun a b => le a b) := by
  induction l with
  | nil => exact List.Pairwise.nil
  | cons a l ih => exact insertBy_pairwise trans connected a ih

theorem sortBy_eq_self {le : α → α → Bool} {l : List α} (h : l.Pairwise (fun a b => le a b)) : sortBy le l = l := by
  induction l with
  | nil => rfl
  | cons a l ih =>
    rw [List.pairwise_cons] at h
    rw [sortBy, ih h.2]
    cases l with
    | nil => rfl
    | cons b l => simp [insertBy, h.1 b (List.mem_cons_self ..)]

theorem sortBy_eq_of_perm {le : α → α → Bool} (trans : ∀ a b c, le a b → le b c → le a c)
    (connected : ∀ a b, le a b || le b a) {l r : List α} (h : l.Perm r)
    (apart : ∀ a ∈ l, ∀ b ∈ l, le a b → le b a → a = b) : sortBy le l = sortBy le r := by
  have hl := sortBy_perm le l
  have hr := (sortBy_perm le r).trans h.symm
  refine List.Perm.eq_of_pairwise (fun a b ha hb => ?_) (sortBy_pairwise trans connected l)
    (sortBy_pairwise trans connected r) (hl.trans hr.symm)
  exact apart a (hl.mem_iff.1 ha) b (hr.mem_iff.1 hb)

/-! ## Sorting by a number -/

theorem sortBy_increasing (key : α → Nat) {l : List α} (h : (l.map key).Nodup) :
    (sortBy (fun a b => decide (key a ≤ key b)) l).Pairwise (fun a b => key a < key b) := by
  have hsorted : (sortBy (fun a b => decide (key a ≤ key b)) l).Pairwise
      (fun a b => decide (key a ≤ key b) = true) := by
    refine sortBy_pairwise (fun a b c hab hbc => ?_) (fun a b => ?_) l
    · exact decide_eq_true (Nat.le_trans (of_decide_eq_true hab) (of_decide_eq_true hbc))
    · rw [Bool.or_eq_true, decide_eq_true_iff, decide_eq_true_iff]
      exact Nat.le_total (key a) (key b)
  have hnodup : ((sortBy (fun a b => decide (key a ≤ key b)) l).map key).Nodup :=
    ((sortBy_perm _ l).map key).nodup_iff.2 h
  refine (hsorted.and (List.pairwise_map.1 hnodup)).imp fun hab => ?_
  exact Nat.lt_of_le_of_ne (of_decide_eq_true hab.1) hab.2

theorem sortBy_congr (key : α → Nat) {l r : List α} (h : l.Perm r) (hn : (l.map key).Nodup) :
    sortBy (fun a b => decide (key a ≤ key b)) l = sortBy (fun a b => decide (key a ≤ key b)) r := by
  have hl := sortBy_perm (fun a b => decide (key a ≤ key b)) l
  have hr := sortBy_perm (fun a b => decide (key a ≤ key b)) r
  refine List.Perm.eq_of_pairwise (fun a b _ _ hab hba => absurd hab (Nat.lt_asymm hba)) (sortBy_increasing key hn)
    (sortBy_increasing key ((h.map key).nodup_iff.1 hn)) (hl.trans (h.trans hr.symm))

end SeismicHazard
