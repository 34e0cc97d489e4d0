import SeismicHazard.Number.Scalar
import Mathlib.Algebra.BigOperators.Ring.List
import Mathlib.Algebra.Field.Rat
import Mathlib.Algebra.Order.Ring.Rat
/-!
# Exact — rationals obey the laws of arithmetic

The operations that the library computes weights with are, on rationals, the usual ones: its sums and products are those
of the field, whatever their order.  What is stated for the operations of `Scalar` is so proved with the laws of a field.
-/
namespace SeismicHazard

def Scalar.product {W : Type} [Scalar W] (xs : List W) : W := xs.foldl (· * ·) one

namespace Exact

theorem sum_eq (xs : List Rat) : Scalar.sum xs = xs.sum := by
  rw [List.sum_eq_foldl]
  rfl

theorem product_eq (xs : List Rat) : Scalar.product xs = xs.prod := by
  rw [List.prod_eq_foldl]
  rfl

theorem product_of_ones {xs : List Rat} (h : ∀ x ∈ xs, x = Scalar.one) : Scalar.product xs = 1 :=
  (product_eq xs).trans (List.prod_eq_one h)

theorem isZero_iff {x : Rat} : Scalar.isZero x = true ↔ x = 0 := by
  have hboth : Scalar.isZero x = true ↔ ¬0 < x ∧ ¬x < 0 := by
    change (!Rat.blt 0 x && !Rat.blt x 0) = true ↔ ¬Rat.blt 0 x = true ∧ ¬Rat.blt x 0 = true
    simp
  rw [hboth, Rat.not_lt, Rat.not_lt]
  constructor
  · rintro ⟨h, h'⟩
    exact le_antisymm h h'
  · rintro rfl
    exact ⟨le_rfl, le_rfl⟩

theorem lt_iff {a b : Rat} : Scalar.lt a b = true ↔ a < b := Iff.rfl

theorem le_iff {a b : Rat} : Scalar.le a b = true ↔ a ≤ b := by
  rw [← Rat.not_lt]
  change (!Rat.blt b a) = true ↔ ¬Rat.blt b a = true
  simp

theorem isNonneg_iff {x : Rat} : Scalar.isNonneg x = true ↔ 0 ≤ x := le_iff

theorem portion_eq (k : Nat) (total : Rat) : Scalar.portion k total = (k : Rat) / 2 ^ 52 * total := by
  have hportion : Scalar.portion k total = mkRat k (twoTo 52) * total := rfl
  have htwo : (twoTo 52 : Rat) = 2 ^ 52 := Nat.cast_pow 2 52
  rw [hportion, Rat.mkRat_eq_div, htwo, Int.cast_natCast]

theorem sum_flatMap {α : Type} (f : α → List Rat) (l : List α) :
    (l.flatMap f).sum = (l.map (fun a => (f a).sum)).sum := by
  rw [List.flatMap_def, List.sum_flatten, List.map_map]
  rfl

theorem sum_map_div {α : Type} (f : α → Rat) (x : Rat) (l : List α) :
    (l.map (fun a => f a / x)).sum = (l.map f).sum / x := by
  simp only [div_eq_mul_inv]
  exact List.sum_map_mul_right l f x⁻¹

theorem sum_map_filter {α : Type} {f : α → Rat} {p : α → Bool} {l : List α} (h : ∀ a ∈ l, p a = false → f a = 0) :
    ((l.filter p).map f).sum = (l.map f).sum := by
  induction l with
  | nil => rfl
  | cons a l ih =>
    have hrest := ih fun a' ha' => h a' (List.mem_cons_of_mem a ha')
    cases hp : p a with
    | true => rw [List.filter_cons_of_pos hp, List.map_cons, List.map_cons, List.sum_cons, List.sum_cons, hrest]
    | false =>
      rw [List.filter_cons_of_neg (by simp [hp]), List.map_cons, List.sum_cons, h a (List.mem_cons_self ..) hp, hrest]
      exact (zero_add _).symm

end Exact
end SeismicHazard
