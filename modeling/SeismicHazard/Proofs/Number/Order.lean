import SeismicHazard.Number.Scalar
/-!
# Order — doubles that are defined stand in a row

The order of doubles leaves out the undefined ones.  The others have a rank, and one of them is below another exactly
when its rank is (`compare_eq`); so they are ordered like their ranks, zero of either sign standing in one place.
-/
namespace SeismicHazard
namespace Double

open Float.Model Float.Model.UnpackedFloat

/-- Where a double stands: its side and whether it is infinite, its exponent, its mantissa. -/
structure Rank where
  /-- Zero for zero; one for numbers, two for infinity, negative below zero. -/
  side : Int
  exponent : Int
  mantissa : Int

instance : Ord Rank :=
  ⟨compareLex (compareOn Rank.side) (compareLex (compareOn Rank.exponent) (compareOn Rank.mantissa))⟩

instance : Std.TransOrd Rank :=
  inferInstanceAs (Std.TransCmp
    (compareLex (compareOn Rank.side) (compareLex (compareOn Rank.exponent) (compareOn Rank.mantissa))))

def rank : UnpackedFloat → Rank
  | .notANumber => ⟨0, 0, 0⟩
  | .zero _ => ⟨0, 0, 0⟩
  | .infinity .positive => ⟨2, 0, 0⟩
  | .infinity .negative => ⟨-2, 0, 0⟩
  | .finite .positive m e _ => ⟨1, e, m⟩
  | .finite .negative m e _ => ⟨-1, -e, -m⟩

theorem compare_neg (a b : Int) : compare (-a) (-b) = compare b a := by
  rcases Int.lt_trichotomy a b with h | rfl | h
  · rw [Int.compare_eq_gt.2 (show -b < -a by omega), Int.compare_eq_gt.2 h]
  · simp
  · rw [Int.compare_eq_lt.2 (show -a < -b by omega), Int.compare_eq_lt.2 h]

theorem compare_cast (m n : Nat) : compare (m : Int) (n : Int) = compare m n := by
  rcases Nat.lt_trichotomy m n with h | rfl | h
  · rw [Int.compare_eq_lt.2 (by omega), Nat.compare_eq_lt.2 h]
  · simp
  · rw [Int.compare_eq_gt.2 (by omega), Nat.compare_eq_gt.2 h]

theorem compare_above (e₁ e₂ : Int) (m₁ m₂ : Nat) :
    compare (⟨1, e₁, m₁⟩ : Rank) ⟨1, e₂, m₂⟩ = (compare e₁ e₂).then (compare m₁ m₂) := by
  change (compare e₁ e₂).then (compare (m₁ : Int) (m₂ : Int)) = _
  rw [compare_cast]

theorem compare_below (e₁ e₂ : Int) (m₁ m₂ : Nat) :
    compare (⟨-1, -e₁, -m₁⟩ : Rank) ⟨-1, -e₂, -m₂⟩ = ((compare e₁ e₂).then (compare m₁ m₂)).swap := by
  change (compare (-e₁) (-e₂)).then (compare (-(m₁ : Int)) (-(m₂ : Int))) = _
  rw [compare_neg, compare_neg, compare_cast, Ordering.swap_then, Int.compare_swap, Nat.compare_swap]

theorem compare_eq {u v : UnpackedFloat} (hu : u.isNaN = false) (hv : v.isNaN = false) :
    UnpackedFloat.compare u v = some (compare (rank u) (rank v)) := by
  cases u with
  | notANumber => cases hu
  | infinity s => cases v with
    | notANumber => cases hv
    | infinity s' => cases s <;> cases s' <;> rfl
    | zero _ => cases s <;> rfl
    | finite s' _ _ _ => cases s <;> cases s' <;> rfl
  | zero _ => cases v with
    | notANumber => cases hv
    | infinity s' => cases s' <;> rfl
    | zero _ => rfl
    | finite s' _ _ _ => cases s' <;> rfl
  | finite s m e _ => cases v with
    | notANumber => cases hv
    | infinity s' => cases s <;> cases s' <;> rfl
    | zero _ => cases s <;> rfl
    | finite s' m' e' _ =>
      cases s <;> cases s'
      · exact congrArg some (compare_below e e' m m').symm
      · rfl
      · rfl
      · exact congrArg some (compare_above e e' m m').symm

/-! ## Doubles -/

theorem lt_iff {a b : Float} : a < b ↔ UnpackedFloat.compare a.toModel.unpack b.toModel.unpack = some .lt := by
  change decide (UnpackedFloat.lt _ _ = true) = true ↔ _
  rw [decide_eq_true_iff, UnpackedFloat.lt, beq_iff_eq]

theorem le_iff {a b : Float} :
    a ≤ b ↔ (UnpackedFloat.compare a.toModel.unpack b.toModel.unpack).any Ordering.isLE = true := by
  change decide (UnpackedFloat.le _ _ = true) = true ↔ _
  rw [decide_eq_true_iff, UnpackedFloat.le]

def rankOf (a : Float) : Rank := rank a.toModel.unpack

theorem lt_iff_rank {a b : Float} (ha : a.isNaN = false) (hb : b.isNaN = false) :
    a < b ↔ compare (rankOf a) (rankOf b) = .lt := by
  rw [lt_iff, compare_eq ha hb, Option.some.injEq]
  rfl

theorem le_iff_rank {a b : Float} (ha : a.isNaN = false) (hb : b.isNaN = false) :
    a ≤ b ↔ (compare (rankOf a) (rankOf b)).isLE = true := by
  rw [le_iff, compare_eq ha hb]
  rfl

theorem le_refl {a : Float} (ha : a.isNaN = false) : a ≤ a :=
  (le_iff_rank ha ha).2 Std.ReflCmp.isLE_rfl

theorem le_trans {a b c : Float} (ha : a.isNaN = false) (hb : b.isNaN = false) (hc : c.isNaN = false) (hab : a ≤ b)
    (hbc : b ≤ c) : a ≤ c :=
  (le_iff_rank ha hc).2 (Std.TransCmp.isLE_trans ((le_iff_rank ha hb).1 hab) ((le_iff_rank hb hc).1 hbc))

theorem le_of_lt {a b : Float} (ha : a.isNaN = false) (hb : b.isNaN = false) (h : a < b) : a ≤ b := by
  rw [lt_iff_rank ha hb] at h
  rw [le_iff_rank ha hb, h]
  rfl

theorem compare_rank_swap (a b : Float) : compare (rankOf b) (rankOf a) = (compare (rankOf a) (rankOf b)).swap :=
  Std.OrientedCmp.eq_swap

theorem le_of_not_lt {a b : Float} (ha : a.isNaN = false) (hb : b.isNaN = false) (h : ¬ a < b) : b ≤ a := by
  rw [lt_iff_rank ha hb] at h
  rw [le_iff_rank hb ha, compare_rank_swap, Ordering.isLE_swap]
  exact Ordering.isGE_iff_ne_lt.2 h

theorem le_of_not_le {a b : Float} (ha : a.isNaN = false) (hb : b.isNaN = false) (h : ¬ a ≤ b) : b ≤ a := by
  rw [le_iff_rank ha hb] at h
  rw [le_iff_rank hb ha, compare_rank_swap, Ordering.isLE_swap]
  cases ho : compare (rankOf a) (rankOf b) with
  | gt => rfl
  | lt | eq => exact absurd (by rw [ho]; rfl) h

end Double
end SeismicHazard
