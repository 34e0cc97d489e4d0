import SeismicHazard.Sorting
import Mathlib.Data.List.Forall2
/-!
# Pairing — lists that are related member by member

A step that changes the members of a list one by one relates the list before to the list after.  What such lists have in
common, and where a member comes from, is read off the relation of the members.  What only one member of a list without
repetitions gives is given once (`flatMap_ite_of_nodup`).  Lists whose members are compared alike stay related when they
are sorted (`forall₂_sortBy`).
-/
namespace SeismicHazard

variable {α β γ : Type} {R : α → β → Prop}

theorem map_eq_of_forall₂ {f : α → γ} {g : β → γ} (heq : ∀ a b, R a b → f a = g b) : ∀ {l : List α} {r : List β},
    List.Forall₂ R l r → l.map f = r.map g
  | _, _, .nil => rfl
  | _, _, .cons h hs => by rw [List.map_cons, List.map_cons, heq _ _ h, map_eq_of_forall₂ heq hs]

theorem eq_map_of_forall₂ {f : α → β} {l : List α} {r : List β} (h : List.Forall₂ (fun a b => b = f a) l r) :
    r = l.map f := by
  simpa using (map_eq_of_forall₂ (f := f) (g := id) (fun _ _ hab => hab.symm) h).symm

theorem exists_left_of_forall₂ : ∀ {l : List α} {r : List β}, List.Forall₂ R l r → ∀ b ∈ r, ∃ a ∈ l, R a b
  | _, _, .nil, b, hb => by cases hb
  | _, _, .cons (a := a) h hs, b, hb => by
    rcases List.mem_cons.1 hb with rfl | hb
    · exact ⟨a, List.mem_cons_self .., h⟩
    · obtain ⟨a', ha', hab⟩ := exists_left_of_forall₂ hs b hb
      exact ⟨a', List.mem_cons_of_mem a ha', hab⟩

theorem exists_right_of_forall₂ {l : List α} {r : List β} (h : List.Forall₂ R l r) : ∀ a ∈ l, ∃ b ∈ r, R a b :=
  exists_left_of_forall₂ h.flip

theorem forall₂_trans {R : α → α → Prop} (trans : ∀ a b c, R a b → R b c → R a c) : ∀ {l l' l'' : List α},
    List.Forall₂ R l l' → List.Forall₂ R l' l'' → List.Forall₂ R l l''
  | _, _, _, .nil, .nil => .nil
  | _, _, _, .cons h hs, .cons h' hs' => .cons (trans _ _ _ h h') (forall₂_trans trans hs hs')

theorem forall₂_map_self {f : α → β} (h : ∀ a, R a (f a)) (l : List α) : List.Forall₂ R l (l.map f) :=
  List.forall₂_map_right_iff.2 (List.forall₂_same.2 fun a _ => h a)

theorem forall₂_zipWith {P : α → γ → Prop} {f : α → β → γ} (h : ∀ a b, R a b → P a (f a b)) :
    ∀ {l : List α} {r : List β}, List.Forall₂ R l r → List.Forall₂ P l (List.zipWith f l r)
  | _, _, .nil => .nil
  | _, _, .cons hab hs => .cons (h _ _ hab) (forall₂_zipWith h hs)

theorem getElem?_of_forall₂ : ∀ {l : List α} {r : List β}, List.Forall₂ R l r → ∀ {i : Nat} {a : α}, l[i]? = some a →
    ∃ b, r[i]? = some b ∧ R a b
  | _, _, .nil, _, _, ha => by simp at ha
  | _, _, .cons h hs, i, a, ha => by
    cases i with
    | zero =>
      obtain rfl : _ = a := by simpa using ha
      exact ⟨_, by simp, h⟩
    | succ i =>
      obtain ⟨b, hb, hab⟩ := getElem?_of_forall₂ hs (i := i) (by simpa using ha)
      exact ⟨b, by simpa using hb, hab⟩

theorem forall₂_of_getElem? : ∀ {l : List α} {r : List β}, l.length = r.length →
    (∀ (i : Nat) (a : α) (b : β), l[i]? = some a → r[i]? = some b → R a b) → List.Forall₂ R l r
  | [], [], _, _ => .nil
  | a :: l, b :: r, hlen, h => by
    refine .cons (h 0 a b rfl rfl) (forall₂_of_getElem? (by simpa using hlen) fun i a' b' ha hb => ?_)
    exact h (i + 1) a' b' (by simpa using ha) (by simpa using hb)

theorem forall₂_zipIdx : ∀ {l : List α} {r : List β} (n : Nat), List.Forall₂ R l r →
    List.Forall₂ (fun p q => R p.1 q.1 ∧ p.2 = q.2) (l.zipIdx n) (r.zipIdx n)
  | _, _, _, .nil => .nil
  | _, _, n, .cons h hs => .cons ⟨h, rfl⟩ (forall₂_zipIdx (n + 1) hs)

theorem flatMap_ite_of_nodup [DecidableEq α] {a : α} {bs : List β} : ∀ {l : List α}, l.Nodup →
    l.flatMap (fun a' => if a' = a then bs else []) = if a ∈ l then bs else []
  | [], _ => rfl
  | a' :: l, h => by
    rw [List.nodup_cons] at h
    rw [List.flatMap_cons, flatMap_ite_of_nodup h.2]
    by_cases ha : a' = a
    · rw [if_pos ha, if_neg (ha ▸ h.1), List.append_nil, if_pos (ha ▸ List.mem_cons_self ..)]
    · rw [if_neg ha, List.nil_append]
      simp only [List.mem_cons, Ne.symm ha, false_or]

/-! ## Sorted lists -/

section Sorted

variable {le : α → α → Bool} {le' : β → β → Bool}

theorem forall₂_insertBy (agree : ∀ a b a' b', R a a' → R b b' → le a b = le' a' b') {a : α} {a' : β} (ha : R a a') :
    ∀ {l : List α} {r : List β}, List.Forall₂ R l r → List.Forall₂ R (insertBy le a l) (insertBy le' a' r) := by
  intro l r hl
  induction hl with
  | nil => exact .cons ha .nil
  | @cons b b' _ _ hb hs ih =>
    have hle := agree a b a' b' ha hb
    by_cases h : le a b = true
    · simpa [insertBy, h, ← hle] using ⟨ha, hb, hs⟩
    · simpa [insertBy, h, ← hle] using ⟨hb, ih⟩

/-- **Lists whose members are compared alike stay related when they are sorted.** -/
theorem forall₂_sortBy (agree : ∀ a b a' b', R a a' → R b b' → le a b = le' a' b') :
    ∀ {l : List α} {r : List β}, List.Forall₂ R l r → List.Forall₂ R (sortBy le l) (sortBy le' r)
  | _, _, .nil => .nil
  | _, _, .cons h hs => forall₂_insertBy agree h (forall₂_sortBy agree hs)

end Sorted

end SeismicHazard
