import SeismicHazard.Proofs.Number.Totals
import Mathlib.Algebra.Order.Ring.Rat
/-!
# Counts — numbers that counts add up in

A counter that is kept in some kind of number is exact as long as counts add up in it the way natural numbers do
(`CountsBelow`).  Rationals do that without limit (`countsBelow_rat`).  Doubles do it below `2 ^ 53`: both counts are
scaled to one exponent, and their sum needs no bit that a double does not have (`countsBelow_double`).
-/
namespace SeismicHazard

def CountsBelow (N : Type) [Scalar N] (limit : Nat) : Prop :=
  ∀ a b : Nat, a + b < limit → (Scalar.ofNat a + Scalar.ofNat b : N) = Scalar.ofNat (a + b)

theorem countsBelow_rat (limit : Nat) : CountsBelow Rat limit := fun a b _ => (Nat.cast_add a b).symm

namespace Double

open Float.Model Float.Model.UnpackedFloat

theorem add_ofCount {a b : Nat} (ha : 0 < a) (hb : 0 < b) (h : a + b < 2 ^ 53) :
    UnpackedFloat.add .binary64 (ofCount a ha) (ofCount b hb) = ofCount (a + b) (Nat.add_pos_left ha b) := by
  -- both counts are scaled by the number of bits that the smaller one leaves free
  obtain ⟨k, hk⟩ : ∃ k, k = max (52 - a.log2) (52 - b.log2) := ⟨_, rfl⟩
  have hexponent : min (-((52 - a.log2 : Nat) : Int)) (-((52 - b.log2 : Nat) : Int)) = -(k : Int) := by omega
  have hscale : ∀ n : Nat, 52 - n.log2 ≤ k → (n <<< (52 - n.log2)) <<< (-((52 - n.log2 : Nat) : Int) - -(k : Int)).toNat =
      n <<< k := by
    intro n hn
    rw [← Nat.shiftLeft_add]
    congr 1
    omega
  have hsum : (((a <<< k : Nat) : Int) + ((b <<< k : Nat) : Int)) = (((a + b) <<< k : Nat) : Int) := by
    rw [← Int.natCast_add, Nat.shiftLeft_eq, Nat.shiftLeft_eq, Nat.shiftLeft_eq, Nat.add_mul]
  have hpos : 0 < (a + b) <<< k := shiftLeft_pos (Nat.add_pos_left ha b) k
  rw [← round_scaled (Nat.add_pos_left ha b) h (k := k) (by omega)]
  unfold ofCount UnpackedFloat.add decreaseExponent
  dsimp only
  rw [hexponent, hscale a (by omega), hscale b (by omega)]
  change UnpackedFloat.normalize .binary64 (((a <<< k : Nat) : Int) + ((b <<< k : Nat) : Int)) (-(k : Int)) .positive = _
  unfold UnpackedFloat.normalize
  rw [hsum, Int.compare_eq_gt.2 (by omega)]
  rfl

theorem countsBelow_double : CountsBelow Float (2 ^ 53) := by
  intro a b h
  refine add_eq ?_
  change UnpackedFloat.add .binary64 (Float.ofNat a).toModel.unpack (Float.ofNat b).toModel.unpack =
    (Float.ofNat (a + b)).toModel.unpack
  rcases Nat.eq_zero_or_pos a with rfl | ha
  · rcases Nat.eq_zero_or_pos b with rfl | hb
    · rfl
    · rw [Nat.zero_add, unpack_zero, unpack_ofNat hb (by omega)]
      rfl
  · rcases Nat.eq_zero_or_pos b with rfl | hb
    · rw [Nat.add_zero, unpack_zero, unpack_ofNat ha (by omega)]
      rfl
    · rw [unpack_ofNat ha (by omega), unpack_ofNat hb (by omega), unpack_ofNat (Nat.add_pos_left ha b) h]
      exact add_ofCount ha hb h

end Double
end SeismicHazard
