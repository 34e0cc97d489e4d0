import SeismicHazard.Proofs.Number.Order
import SeismicHazard.Source.Group
/-!
# Envelope — the magnitude range of a group

The bounds of a magnitude range are kept up source by source: the new magnitude is compared with the bound so far and
one of the two is picked.  `Extreme` says what a bound is worth, `Extreme.snoc` that a pick keeps it so, and
`extreme_foldl` that a whole list of picks does.  Magnitudes that are not numbers compare with nothing, so a bound is
only promised to be the least or the greatest if there are none.
-/
namespace SeismicHazard

/-- What is kept of some magnitudes is absent exactly if there are none; else it is one of them, and it stands in the
given relation to all of them, if all are defined. -/
structure Extreme (le : Float → Float → Prop) (kept : Option Float) (ms : List Float) : Prop where
  absent : kept = none ↔ ms = []
  /-- What is kept is one of the magnitudes and the first of them. -/
  first : (∀ x ∈ ms, x.isNaN = false) → ∀ m, kept = some m → m ∈ ms ∧ ∀ x ∈ ms, le m x

structure Orders (le : Float → Float → Prop) : Prop where
  refl : ∀ a, a.isNaN = false → le a a
  trans : ∀ a b c, a.isNaN = false → b.isNaN = false → c.isNaN = false → le a b → le b c → le a c

structure Picks (le : Float → Float → Prop) (pick : Float → Float → Float) : Prop extends Orders le where
  either : ∀ a b, pick a b = a ∨ pick a b = b
  before : ∀ a b, a.isNaN = false → b.isNaN = false → le (pick a b) a ∧ le (pick a b) b

def keepWith (pick : Float → Float → Float) (kept : Option Float) (x : Float) : Option Float :=
  some (kept.elim x (fun m => pick m x))

variable {le : Float → Float → Prop} {pick : Float → Float → Float}

theorem extreme_none : Extreme le none [] := ⟨⟨fun _ => rfl, fun _ => rfl⟩, fun _ _ h => by cases h⟩

theorem Extreme.snoc (hp : Picks le pick) {kept : Option Float} {ms : List Float} (h : Extreme le kept ms) (x : Float) :
    Extreme le (keepWith pick kept x) (ms ++ [x]) := by
  refine ⟨by simp [keepWith], fun hdef m hm => ?_⟩
  have hx : x.isNaN = false := hdef x (List.mem_append_right _ (List.mem_singleton_self x))
  have hms : ∀ y ∈ ms, y.isNaN = false := fun y hy => hdef y (List.mem_append_left _ hy)
  cases kept with
  | none =>
    obtain rfl : ms = [] := h.absent.1 rfl
    cases hm
    simpa using hp.refl x hx
  | some k =>
    obtain ⟨hk, hfirst⟩ := h.first hms k rfl
    cases hm
    obtain ⟨hleft, hright⟩ := hp.before k x (hms k hk) hx
    have hpick : (pick k x).isNaN = false := by
      rcases hp.either k x with e | e <;> rw [e]
      · exact hms k hk
      · exact hx
    change pick k x ∈ ms ++ [x] ∧ ∀ y ∈ ms ++ [x], le (pick k x) y
    refine ⟨?_, fun y hy => ?_⟩
    · rcases hp.either k x with e | e <;> rw [e]
      · exact List.mem_append_left _ hk
      · exact List.mem_append_right _ (List.mem_singleton_self x)
    · rcases List.mem_append.1 hy with hy | hy
      · exact hp.trans _ _ _ hpick (hms k hk) (hms y hy) hleft (hfirst y hy)
      · rw [List.mem_singleton.1 hy]
        exact hright

theorem extreme_foldl (hp : Picks le pick) : ∀ (xs : List Float) {kept : Option Float} {ms : List Float},
    Extreme le kept ms → Extreme le (xs.foldl (keepWith pick) kept) (ms ++ xs)
  | [], kept, ms, h => by simpa using h
  | x :: xs, kept, ms, h => by
    have ih := extreme_foldl hp xs (h.snoc hp x)
    rwa [List.append_assoc] at ih

/-! ## The picks of the program -/

theorem orders_le : Orders (· ≤ ·) where
  refl _ := Double.le_refl
  trans _ _ _ := Double.le_trans

theorem orders_ge : Orders (fun a b => b ≤ a) where
  refl _ := Double.le_refl
  trans _ _ _ ha hb hc hab hbc := Double.le_trans hc hb ha hbc hab

theorem picks_ite (h : Orders le) {test : Float → Float → Prop} [∀ a b, Decidable (test a b)]
    (hpick : ∀ a b, pick a b = if test a b then b else a)
    (hyes : ∀ a b, a.isNaN = false → b.isNaN = false → test a b → le b a)
    (hno : ∀ a b, a.isNaN = false → b.isNaN = false → ¬test a b → le a b) : Picks le pick where
  toOrders := h
  either a b := by
    rw [hpick]
    split
    · exact Or.inr rfl
    · exact Or.inl rfl
  before a b ha hb := by
    rw [hpick]
    split
    · rename_i ht
      exact ⟨hyes a b ha hb ht, h.refl b hb⟩
    · rename_i ht
      exact ⟨h.refl a ha, hno a b ha hb ht⟩

theorem picks_lesserMag : Picks (· ≤ ·) lesserMag := by
  refine picks_ite orders_le (fun _ _ => rfl) (fun a b ha hb ht => ?_) (fun a b ha hb ht => ?_)
  · rw [ha, Bool.false_or] at ht
    exact of_decide_eq_true ht
  · rw [ha, Bool.false_or] at ht
    exact Double.le_of_not_le hb ha (by simpa using ht)

theorem picks_greaterMag : Picks (fun a b => b ≤ a) greaterMag := by
  refine picks_ite orders_ge (fun _ _ => rfl) (fun a b ha hb ht => ?_) (fun a b ha hb ht => ?_)
  · rw [ha, Bool.false_or] at ht
    exact of_decide_eq_true ht
  · rw [ha, Bool.false_or] at ht
    exact Double.le_of_not_le ha hb (by simpa using ht)

def lowerMag (m x : Float) : Float := if x < m then x else m

def higherMag (m x : Float) : Float := if m < x then x else m

theorem picks_lowerMag : Picks (· ≤ ·) lowerMag :=
  picks_ite orders_le (fun _ _ => rfl) (fun _ _ ha hb ht => Double.le_of_lt hb ha ht)
    (fun _ _ ha hb ht => Double.le_of_not_lt hb ha ht)

theorem picks_higherMag : Picks (fun a b => b ≤ a) higherMag :=
  picks_ite orders_ge (fun _ _ => rfl) (fun _ _ ha hb ht => Double.le_of_lt ha hb ht)
    (fun _ _ ha hb ht => Double.le_of_not_lt ha hb ht)

end SeismicHazard
