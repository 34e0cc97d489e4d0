import SeismicHazard.LogicTree.Tree
import SeismicHazard.Proofs.Number.Positivity
/-!
# Totals — sums of doubles that are not negative

Rounding loses digits but no sign: a sum of doubles that are at least zero is at least zero (`atLeastZero_add`), so it
is defined.  If it is also within a tolerance of one, it is finite (`isFinite_of_balanced`).  A sum may start from `-0`
as well as from its first member (`sum_cons`).
-/
namespace SeismicHazard
namespace Double

open Float.Model Float.Model.UnpackedFloat

/-! ## Unpacked doubles -/

theorem pack_unpack (f : Float.Model) : Float.Model.pack f.unpack = f := by
  have h : UnpackedFloat.pack .binary64 (UnpackedFloat.unpack .binary64 f.toBits.toBitVec) = f.toBits.toBitVec :=
    pack_unpack_of_valid f.valid
  obtain ⟨bits, valid⟩ := f
  simp only [Float.Model.pack, Float.Model.unpack, h]

theorem exponent_unpack {b : BitVec Format.binary64.numBits} {s : Sign} {m : Nat} {e : Int} {h : 0 < m}
    (hb : UnpackedFloat.unpack .binary64 b = .finite s m e h) : -1074 ≤ e := by
  have hbias : Format.binary64.exponentBias = 1023 := rfl
  have hbits : Format.binary64.mantissaBitsWithoutImplicit = 52 := rfl
  unfold UnpackedFloat.unpack at hb
  dsimp only at hb
  split at hb
  · split at hb <;> cases hb
  · split at hb
    · split at hb
      · cases hb
      · cases hb
        omega
    · rename_i hpos
      cases hb
      have hne : (unpackExponent b).toNat ≠ 0 := fun h0 => hpos (BitVec.eq_of_toNat_eq h0)
      omega

inductive AtLeastZero : UnpackedFloat → Prop
  | zero (s : Sign) : AtLeastZero (.zero s)
  | infinity : AtLeastZero (.infinity .positive)
  | finite {m : Nat} {e : Int} (h : 0 < m) (he : -1074 ≤ e) : AtLeastZero (.finite .positive m e h)

theorem atLeastZero_of_isAbove {b : BitVec Format.binary64.numBits} (h : IsAbove (UnpackedFloat.unpack .binary64 b)) :
    AtLeastZero (UnpackedFloat.unpack .binary64 b) := by
  cases hb : UnpackedFloat.unpack .binary64 b with
  | notANumber | zero s =>
    rw [hb] at h
    cases h
  | infinity s =>
    rw [hb] at h
    cases s with
    | negative => cases h
    | positive => exact .infinity
  | finite s m e hm =>
    have he := exponent_unpack hb
    rw [hb] at h
    cases s with
    | negative => cases h
    | positive => exact .finite hm he

theorem isNonneg_iff {a : Float} : Scalar.isNonneg a = true ↔ AtLeastZero a.toModel.unpack := by
  have hle : Scalar.isNonneg a = true ↔
      (UnpackedFloat.compare (.zero .positive) a.toModel.unpack).any Ordering.isLE = true := by
    rw [← unpack_zero, ← le_iff]
    exact decide_eq_true_iff
  rw [hle]
  constructor
  · intro h
    cases ha : a.toModel.unpack with
    | zero s => exact .zero s
    | notANumber =>
      rw [ha] at h
      cases h
    | infinity s =>
      rw [ha] at h
      cases s with
      | negative => cases h
      | positive => exact .infinity
    | finite s m e hm =>
      rw [ha] at h
      cases s with
      | negative => cases h
      | positive => exact .finite hm (exponent_unpack ha)
  · intro h
    generalize a.toModel.unpack = u at h
    cases h <;> rfl

theorem round_positive {m : Nat} (hm : 0 < m) {e : Int} (he : -1074 ≤ e) : ∃ m' e' h,
    UnpackedFloat.round .binary64 .positive m e = .finite .positive m' e' h ∧ m' < 2 ^ 53 ∧ -1074 ≤ e' := by
  have htarget : -1074 ≤ e - ((e - Format.binary64.targetExponent (totalExponent m e)).toNat : Int) := by
    simp only [Format.targetExponent, totalExponent, Format.mantissaBits, Format.minExponent]
    omega
  unfold UnpackedFloat.round decreaseExponent
  dsimp only
  refine round_pos ?_ htarget
  rw [Nat.shiftLeft_eq]
  exact Nat.mul_pos hm (Nat.two_pow_pos _)

/-! ## Sums -/

theorem unpack_add (a b : Float) : (a + b).toModel.unpack = UnpackedFloat.unpack .binary64
    (UnpackedFloat.pack .binary64 (UnpackedFloat.add .binary64 a.toModel.unpack b.toModel.unpack)) := rfl

theorem add_eq {a b c : Float}
    (h : UnpackedFloat.add .binary64 a.toModel.unpack b.toModel.unpack = c.toModel.unpack) : a + b = c := by
  change Float.ofModel (Float.Model.pack (UnpackedFloat.add .binary64 a.toModel.unpack b.toModel.unpack)) = c
  rw [h, pack_unpack]

theorem add_finite {m₁ m₂ : Nat} {e₁ e₂ : Int} (h₁ : 0 < m₁) (h₂ : 0 < m₂) (he₁ : -1074 ≤ e₁) (he₂ : -1074 ≤ e₂) :
    ∃ m e h, UnpackedFloat.add .binary64 (.finite .positive m₁ e₁ h₁) (.finite .positive m₂ e₂ h₂) =
      .finite .positive m e h ∧ m < 2 ^ 53 ∧ -1074 ≤ e := by
  have hpos : 0 < m₁ <<< (e₁ - min e₁ e₂).toNat + m₂ <<< (e₂ - min e₁ e₂).toNat := by
    rw [Nat.shiftLeft_eq, Nat.shiftLeft_eq]
    exact Nat.add_pos_left (Nat.mul_pos h₁ (Nat.two_pow_pos _)) _
  obtain ⟨m, e, h, hround, hm, he⟩ := round_positive hpos (e := min e₁ e₂) (by omega)
  refine ⟨m, e, h, ?_, hm, he⟩
  rw [← hround]
  change UnpackedFloat.normalize .binary64 (((m₁ <<< (e₁ - min e₁ e₂).toNat : Nat) : Int) +
    ((m₂ <<< (e₂ - min e₁ e₂).toNat : Nat) : Int)) (min e₁ e₂) .positive = _
  rw [← Int.natCast_add]
  unfold UnpackedFloat.normalize
  rw [Int.compare_eq_gt.2 (by omega)]
  rfl

theorem atLeastZero_infinity :
    AtLeastZero (UnpackedFloat.unpack .binary64 (UnpackedFloat.pack .binary64 (.infinity .positive))) :=
  atLeastZero_of_isAbove trivial

theorem atLeastZero_add {a b : Float} (ha : AtLeastZero a.toModel.unpack) (hb : AtLeastZero b.toModel.unpack) :
    AtLeastZero (a + b).toModel.unpack := by
  have hsum := unpack_add a b
  generalize hu : a.toModel.unpack = u at ha hsum
  generalize hv : b.toModel.unpack = v at hb hsum
  cases ha with
  | infinity =>
    rw [hsum]
    cases hb <;> exact atLeastZero_infinity
  | zero s =>
    cases hb with
    | zero s' =>
      rw [hsum]
      cases s <;> cases s' <;> exact .zero _
    | infinity =>
      rw [hsum]
      exact atLeastZero_infinity
    | finite h he =>
      rw [add_eq (c := b) (by rw [hu, hv]; rfl), hv]
      exact .finite h he
  | finite h he =>
    cases hb with
    | zero s' =>
      rw [add_eq (c := a) (by rw [hu, hv]; rfl), hu]
      exact .finite h he
    | infinity =>
      rw [hsum]
      exact atLeastZero_infinity
    | finite h' he' =>
      obtain ⟨m, e, hm, hadd, hlt, hle⟩ := add_finite h h' he he'
      rw [hsum, hadd]
      exact atLeastZero_of_isAbove (isAbove_unpack_pack hm hlt hle)

theorem atLeastZero_foldl : ∀ (ws : List Float) {w : Float}, AtLeastZero w.toModel.unpack →
    (∀ w' ∈ ws, AtLeastZero w'.toModel.unpack) → AtLeastZero (ws.foldl (· + ·) w).toModel.unpack
  | [], _, h, _ => h
  | w' :: ws, _, h, hall => by
    rw [List.foldl_cons]
    exact atLeastZero_foldl ws (atLeastZero_add h (hall w' (List.mem_cons_self ..)))
      fun w'' hw'' => hall w'' (List.mem_cons_of_mem _ hw'')

theorem sum_cons {w : Float} (h : AtLeastZero w.toModel.unpack) (ws : List Float) :
    Scalar.sum (w :: ws) = ws.foldl (· + ·) w := by
  have hstart : (-0.0 : Float) + w = w := by
    refine add_eq ?_
    generalize w.toModel.unpack = v at h
    cases h with
    | zero s => cases s <;> rfl
    | infinity => rfl
    | finite h he => rfl
  change ws.foldl (· + ·) ((-0.0 : Float) + w) = _
  rw [hstart]

/-! ## Balance -/

/-- **A total that is at least zero and within the tolerance of one is finite.** -/
theorem isFinite_of_balanced {total : Float} (h : AtLeastZero total.toModel.unpack)
    (balanced : BranchSetTree.isUnbalanced total = false) : Scalar.isFinite total = true := by
  change total.toModel.unpack.isFinite = true
  cases hu : total.toModel.unpack with
  | zero s => rfl
  | finite s m e hm => rfl
  | notANumber =>
    rw [hu] at h
    cases h
  | infinity s =>
    rw [hu] at h
    cases h
    -- the infinite total is one double, and it is further from one than the tolerance
    have htotal : total = Float.ofModel (Float.Model.pack (.infinity .positive)) := by
      rw [← hu, pack_unpack]
    rw [htotal] at balanced
    exact absurd balanced (by decide +kernel)

end Double
end SeismicHazard
