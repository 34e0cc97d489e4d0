import Mathlib
import SeismicHazard.Proofs.Number.Order
/-!
# Positivity — a count is above zero as a double exactly when it is not zero

A natural number becomes a double by rounding.  Rounding a positive number that is not tiny yields a positive number
(`round_pos`), which stays above zero when it is packed (`isAbove_unpack_pack`).  So a positive count never becomes zero,
however large it is (`isPositive_ofNat`).
-/
namespace SeismicHazard
namespace Double

open Float.Model Float.Model.UnpackedFloat

def IsAbove : UnpackedFloat → Prop
  | .infinity .positive => True
  | .finite .positive _ _ _ => True
  | _ => False

theorem compare_zero_of_isAbove {u : UnpackedFloat} (h : IsAbove u) (s : Sign) :
    UnpackedFloat.compare (.zero s) u = some .lt := by
  cases u with
  | infinity s' => cases s' with
    | negative => cases h
    | positive => rfl
  | notANumber => cases h
  | zero _ => cases h
  | finite s' _ _ _ => cases s' with
    | negative => cases h
    | positive => rfl

/-! ## Rounding -/

theorem mantissa_repeat (em : ExtendedMantissa) : ∀ n : Nat,
    (n.repeat ExtendedMantissa.shiftRightOne em).mantissa = em.mantissa / 2 ^ n
  | 0 => by simp [Nat.repeat]
  | n + 1 => by
    rw [Nat.repeat, ExtendedMantissa.shiftRightOne, mantissa_repeat em n, Nat.div_div_eq_div_mul, Nat.pow_succ]

theorem roundedMantissa_bounds (em : ExtendedMantissa) :
    em.mantissa ≤ em.roundedMantissa ∧ em.roundedMantissa ≤ em.mantissa + 1 := by
  obtain ⟨m, r, s⟩ := em
  have : m % 2 ≤ 1 := by omega
  cases r <;> cases s <;>
    simp only [ExtendedMantissa.roundedMantissa, ExtendedMantissa.accuracy, Accuracy.roundToNearestEven] <;> omega

/-- Rounding drops the bits beyond the first 53 of a mantissa; the exponent only has to be in range. -/
theorem shiftToTargetExponent_eq (m : Nat) {e : Int} (he : -1074 ≤ e) :
    shiftToTargetExponent .binary64 m e .exact =
      ((m.log2 - 52).repeat ExtendedMantissa.shiftRightOne ⟨m, false, false⟩, e + (m.log2 - 52 : Nat)) := by
  have hamount : (Format.binary64.targetExponent (totalExponent m e) - e).toNat = m.log2 - 52 := by
    simp only [Format.targetExponent, totalExponent, Format.mantissaBits, Format.minExponent]
    omega
  unfold shiftToTargetExponent shiftToExponent
  dsimp only
  rw [hamount]
  rfl

theorem leadingBits_bounds {m : Nat} (h : 0 < m) : 0 < m / 2 ^ (m.log2 - 52) ∧ m / 2 ^ (m.log2 - 52) < 2 ^ 53 := by
  constructor
  · have hle : 2 ^ (m.log2 - 52) ≤ m :=
      Nat.le_trans (Nat.pow_le_pow_right (by decide) (Nat.sub_le ..)) (Nat.log2_self_le (Nat.ne_of_gt h))
    exact Nat.div_pos hle (Nat.two_pow_pos _)
  · rw [Nat.div_lt_iff_lt_mul (Nat.two_pow_pos _), ← Nat.pow_add]
    exact Nat.lt_of_lt_of_le Nat.lt_log2_self (Nat.pow_le_pow_right (by decide) (by omega))

theorem round_pos {m : Nat} (hm : 0 < m) {e : Int} (he : -1074 ≤ e) : ∃ m' e' h,
    roundWithAccuracy .binary64 .positive m e .exact = .finite .positive m' e' h ∧ m' < 2 ^ 53 ∧ -1074 ≤ e' := by
  have hfirst := leadingBits_bounds hm
  rw [← mantissa_repeat ⟨m, false, false⟩] at hfirst
  generalize hem : (m.log2 - 52).repeat ExtendedMantissa.shiftRightOne ⟨m, false, false⟩ = em at hfirst
  have hround := roundedMantissa_bounds em
  have hsecond := leadingBits_bounds (m := em.roundedMantissa) (by omega)
  have he' : -1074 ≤ e + (m.log2 - 52 : Nat) := by omega
  have hm' : ((em.roundedMantissa.log2 - 52).repeat ExtendedMantissa.shiftRightOne
      ⟨em.roundedMantissa, false, false⟩).mantissa ≠ 0 := by
    rw [mantissa_repeat]
    exact Nat.ne_of_gt hsecond.1
  unfold roundWithAccuracy
  rw [shiftToTargetExponent_eq m he, hem]
  dsimp only
  rw [shiftToTargetExponent_eq _ he']
  dsimp only
  rw [dif_neg hm']
  refine ⟨_, _, _, rfl, ?_, by omega⟩
  rw [mantissa_repeat]
  exact hsecond.2

/-! ## Packing -/

theorem unpackSign_packComponents {spec : Format} (s : Sign) (e : BitVec spec.exponentBits)
    (m : BitVec spec.mantissaBitsWithoutImplicit) : Sign.ofBitVec (unpackSign (packComponents spec s e m)) = s := by
  have h : unpackSign (packComponents spec s e m) = s.toBitVec := by
    ext i hi
    obtain rfl : i = 0 := by omega
    have hlt : ¬ spec.mantissaBitsWithoutImplicit + spec.exponentBits < spec.mantissaBitsWithoutImplicit := by omega
    simp [unpackSign, packComponents, BitVec.getLsbD_append, BitVec.getLsbD_eq_getElem, BitVec.getElem_append, hlt]
  rw [h]
  cases s <;> rfl

theorem implicitBit_pos {n : Nat} (m : BitVec n) : 0 < (1#1 ++ m).toNat := by
  rw [BitVec.toNat_append]
  exact Nat.lt_of_lt_of_le (by simp) Nat.left_le_or

theorem unpack_packComponents_normal (s : Sign) {e : BitVec 11} (m : BitVec 52) (hinf : e ≠ -1#11) (h0 : e ≠ 0#11) :
    UnpackedFloat.unpack .binary64 (packComponents .binary64 s e m) =
      .finite s (1#1 ++ m).toNat ((e.toNat : Int) - 1075) (implicitBit_pos m) := by
  unfold UnpackedFloat.unpack
  simp only [unpackMantissa_packComponents, unpackExponent_packComponents, unpackSign_packComponents]
  rw [if_neg hinf, if_neg h0]
  rfl

theorem isAbove_unpack_packComponents {e : BitVec 11} {m : BitVec 52} (hinf : e = -1#11 → m = 0#52)
    (h0 : e = 0#11 → m ≠ 0#52) : IsAbove (UnpackedFloat.unpack .binary64 (packComponents .binary64 .positive e m)) := by
  unfold UnpackedFloat.unpack
  simp only [unpackMantissa_packComponents, unpackExponent_packComponents, unpackSign_packComponents]
  by_cases he : e = -1#11
  · rw [if_pos he, if_pos (hinf he)]
    trivial
  · rw [if_neg he]
    by_cases hz : e = 0#11
    · rw [if_pos hz, dif_neg (h0 hz)]
      trivial
    · rw [if_neg hz]
      trivial

theorem ofNat_exponent_ne {b : Nat} (h0 : 0 < b) (hb : b < 2 ^ 11 - 1) :
    BitVec.ofNat 11 b ≠ -1#11 ∧ BitVec.ofNat 11 b ≠ 0#11 := by
  constructor <;> intro heq <;> have h := congrArg BitVec.toNat heq <;> simp at h <;> omega

theorem ofNat_mantissa_ne {m : Nat} (h : 0 < m) (hm : m < 2 ^ 53) (hlog : m.log2 + 1 ≠ 53) :
    BitVec.ofNat 52 m ≠ 0#52 := by
  have hlt : m < 2 ^ 52 := by
    have h53 := (Nat.log2_lt (Nat.ne_of_gt h)).2 hm
    exact (Nat.log2_lt (Nat.ne_of_gt h)).1 (by omega)
  intro heq
  have h' := congrArg BitVec.toNat heq
  simp at h'
  omega

theorem biasedExponent_eq (e : Int) :
    (e + (Format.binary64.exponentBias : Nat) + (52 : Nat)).toNat = (e + 1075).toNat := by
  have : Format.binary64.exponentBias = 1023 := rfl
  omega

theorem isAbove_unpack_pack {m : Nat} {e : Int} (h : 0 < m) (hm : m < 2 ^ 53) (he : -1074 ≤ e) :
    IsAbove (UnpackedFloat.unpack .binary64 (UnpackedFloat.pack .binary64 (.finite .positive m e h))) := by
  unfold UnpackedFloat.pack
  dsimp only
  rw [biasedExponent_eq]
  split
  · exact isAbove_unpack_packComponents (fun _ => rfl) fun h => by cases h
  · rename_i hsmall
    change ¬ 2 ^ 11 ≤ _ at hsmall
    split
    · obtain ⟨hinf, h0⟩ := ofNat_exponent_ne (b := (e + 1075).toNat) (by omega) (by omega)
      exact isAbove_unpack_packComponents (fun heq => absurd heq hinf) fun heq => absurd heq h0
    · rename_i hlog
      exact isAbove_unpack_packComponents (fun heq => by cases heq) fun _ => ofNat_mantissa_ne h hm hlog

theorem implicitBit_eq {m : Nat} (hlog : m.log2 = 52) : (1#1 ++ BitVec.ofNat 52 m).toNat = m := by
  have hm : m ≠ 0 := fun h => by
    rw [h] at hlog
    cases hlog
  have hle := Nat.log2_self_le hm
  have hlt := @Nat.lt_log2_self m
  rw [hlog] at hle hlt
  rw [BitVec.toNat_append, BitVec.toNat_ofNat, BitVec.toNat_ofNat,
    ← Nat.shiftLeft_add_eq_or_of_lt (Nat.mod_lt m (Nat.two_pow_pos 52)), Nat.shiftLeft_eq]
  omega

theorem unpack_pack_normal {m : Nat} {e : Int} (h : 0 < m) (hlog : m.log2 = 52) (he : -1074 ≤ e) (he' : e ≤ 971) :
    UnpackedFloat.unpack .binary64 (UnpackedFloat.pack .binary64 (.finite .positive m e h)) =
      .finite .positive m e h := by
  obtain ⟨hinf, h0⟩ := ofNat_exponent_ne (b := (e + 1075).toNat) (by omega) (by omega)
  have hbits : m.log2 + 1 = Format.binary64.mantissaBits := by
    rw [hlog]
    rfl
  unfold UnpackedFloat.pack
  dsimp only
  rw [biasedExponent_eq, if_neg (show ¬ 2 ^ 11 ≤ _ by omega), if_pos hbits]
  refine (unpack_packComponents_normal .positive (BitVec.ofNat 52 m) hinf h0).trans ?_
  congr 1
  · exact implicitBit_eq hlog
  · rw [BitVec.toNat_ofNat, Nat.mod_eq_of_lt (by omega)]
    omega

/-! ## Counts -/

theorem log2_shiftLeft {n : Nat} (h : 0 < n) (k : Nat) : (n <<< k).log2 = n.log2 + k := by
  have hle := Nat.log2_self_le (Nat.ne_of_gt h)
  have hlt := @Nat.lt_log2_self n
  have hk := Nat.two_pow_pos k
  rw [Nat.shiftLeft_eq, Nat.log2_eq_iff (Nat.ne_of_gt (Nat.mul_pos h hk)), Nat.pow_add,
    show n.log2 + k + 1 = n.log2 + 1 + k by omega, Nat.pow_add 2 (n.log2 + 1)]
  exact ⟨Nat.mul_le_mul_right _ hle, Nat.mul_lt_mul_of_pos_right hlt hk⟩

theorem shiftLeft_pos {n : Nat} (h : 0 < n) (k : Nat) : 0 < n <<< k := by
  rw [Nat.shiftLeft_eq]
  exact Nat.mul_pos h (Nat.two_pow_pos k)

theorem repeat_shiftRightOne (m : Nat) : ∀ j : Nat,
    j.repeat ExtendedMantissa.shiftRightOne ⟨m <<< j, false, false⟩ = ⟨m, false, false⟩
  | 0 => rfl
  | j + 1 => by
    have ih := repeat_shiftRightOne (m <<< 1) j
    rw [← Nat.shiftLeft_add, Nat.add_comm 1 j] at ih
    rw [Nat.repeat, ih, ExtendedMantissa.shiftRightOne, Nat.shiftLeft_eq]
    dsimp only
    congr 1
    · omega
    · rw [Nat.pow_one, Nat.mul_mod_left]
      rfl

theorem roundWithAccuracy_exact {m : Nat} (h : 0 < m) (hlog : m.log2 = 52) (j : Nat) {e : Int} (he : -1074 ≤ e) :
    roundWithAccuracy .binary64 .positive (m <<< j) e .exact = .finite .positive m (e + j) h := by
  have hdown : shiftToTargetExponent .binary64 (m <<< j) e .exact = (⟨m, false, false⟩, e + j) := by
    rw [shiftToTargetExponent_eq _ he, log2_shiftLeft h, hlog, Nat.add_sub_cancel_left, repeat_shiftRightOne]
  have hstay : shiftToTargetExponent .binary64 m (e + j) .exact = (⟨m, false, false⟩, e + j) := by
    rw [shiftToTargetExponent_eq _ (by omega), hlog]
    simp [Nat.repeat]
  have hround : (⟨m, false, false⟩ : ExtendedMantissa).roundedMantissa = m := rfl
  unfold roundWithAccuracy
  rw [hdown]
  dsimp only
  rw [hround, hstay]
  exact dif_neg (Nat.ne_of_gt h)

/-- The double that is a count below `2 ^ 53`: the count shifted until it has all of its 53 bits. -/
def ofCount (n : Nat) (h : 0 < n) : UnpackedFloat :=
  .finite .positive (n <<< (52 - n.log2)) (-(52 - n.log2 : Nat)) (shiftLeft_pos h _)

theorem log2_lt_of_lt {n : Nat} (h : 0 < n) (hn : n < 2 ^ 53) : n.log2 < 53 := (Nat.log2_lt (Nat.ne_of_gt h)).2 hn

theorem log2_count {n : Nat} (h : 0 < n) (hn : n < 2 ^ 53) : (n <<< (52 - n.log2)).log2 = 52 := by
  have hlog := log2_lt_of_lt h hn
  rw [log2_shiftLeft h]
  omega

theorem round_scaled {n : Nat} (h : 0 < n) (hn : n < 2 ^ 53) {k : Nat} (hk : k ≤ 1074) :
    UnpackedFloat.round .binary64 .positive (n <<< k) (-(k : Nat)) = ofCount n h := by
  have hlog := log2_lt_of_lt h hn
  have hamount : (-(k : Int) - Format.binary64.targetExponent (totalExponent (n <<< k) (-(k : Int)))).toNat =
      52 - n.log2 - k := by
    simp only [Format.targetExponent, totalExponent, Format.mantissaBits, Format.minExponent, log2_shiftLeft h]
    omega
  have hpos : 0 < n <<< (52 - n.log2) := shiftLeft_pos h _
  unfold UnpackedFloat.round decreaseExponent
  dsimp only
  rw [hamount]
  by_cases hle : k ≤ 52 - n.log2
  · rw [← Nat.shiftLeft_add, Nat.add_sub_cancel' hle]
    have hround := roundWithAccuracy_exact hpos (log2_count h hn) 0 (e := -(k : Int) - (52 - n.log2 - k : Nat)) (by omega)
    rw [Nat.shiftLeft_zero] at hround
    rw [hround, ofCount]
    congr 1
    omega
  · rw [Nat.sub_eq_zero_of_le (by omega), Nat.shiftLeft_zero]
    have hround := roundWithAccuracy_exact hpos (log2_count h hn) (k - (52 - n.log2)) (e := -(k : Int) - (0 : Nat))
      (by omega)
    rw [← Nat.shiftLeft_add, Nat.add_sub_cancel' (by omega)] at hround
    rw [hround, ofCount]
    congr 1
    omega

theorem unpack_pack_ofCount {n : Nat} (h : 0 < n) (hn : n < 2 ^ 53) :
    UnpackedFloat.unpack .binary64 (UnpackedFloat.pack .binary64 (ofCount n h)) = ofCount n h :=
  unpack_pack_normal _ (log2_count h hn) (by omega) (by omega)

theorem unpack_toFloat {n : Nat} (h : 0 < n) (hn : n < 2 ^ 53) : n.toUInt64.toFloat.toModel.unpack = ofCount n h := by
  have hround := round_scaled h hn (Nat.zero_le 1074)
  have hnat : n.toUInt64.toNat = n := by
    rw [Nat.toUInt64_eq, UInt64.toNat_ofNat']
    omega
  have hmodel : UnpackedFloat.ofUInt64 .binary64 n.toUInt64 = UnpackedFloat.round .binary64 .positive n 0 := by
    have hcompare : compare (n : Int) 0 = .gt := by
      rw [Int.compare_eq_gt]
      omega
    unfold UnpackedFloat.ofUInt64 UnpackedFloat.ofNat UnpackedFloat.ofInt UnpackedFloat.normalize
    rw [hnat, hcompare]
    rfl
  rw [← unpack_pack_ofCount h hn, ← hround, Nat.shiftLeft_zero]
  exact congrArg (fun u => UnpackedFloat.unpack .binary64 (UnpackedFloat.pack .binary64 u)) hmodel

theorem unpack_zero : (Float.ofNat 0).toModel.unpack = .zero .positive := rfl

theorem unpack_one : (Float.exactlyRepresentablePowersOfTen[0]).toModel.unpack =
    .finite .positive (2 ^ 52) (-52) (Nat.two_pow_pos _) := rfl

theorem unpack_ofNat {n : Nat} (h : 0 < n) (hn : n < 2 ^ 53) : (Float.ofNat n).toModel.unpack = ofCount n h := by
  have hround := roundWithAccuracy_exact (shiftLeft_pos h (52 - n.log2)) (log2_count h hn) 52
    (e := -(52 - n.log2 : Nat) + -52) (by omega)
  rw [Nat.shiftLeft_eq _ 52, Int.add_assoc, show (-52 + (52 : Nat) : Int) = 0 from rfl, Int.add_zero] at hround
  change (Float.ofScientific n false 0).toModel.unpack = _
  unfold Float.ofScientific
  rw [dif_pos ⟨hn, by decide⟩]
  change UnpackedFloat.unpack .binary64 (UnpackedFloat.pack .binary64 (UnpackedFloat.mul .binary64
    n.toUInt64.toFloat.toModel.unpack (Float.exactlyRepresentablePowersOfTen[0]).toModel.unpack)) = _
  rw [unpack_toFloat h hn, unpack_one]
  refine Eq.trans ?_ (unpack_pack_ofCount h hn)
  exact congrArg (fun u => UnpackedFloat.unpack .binary64 (UnpackedFloat.pack .binary64 u)) hround

theorem isAbove_unpack_mul {m₁ m₂ : Nat} {e₁ e₂ : Int} (h₁ : 0 < m₁) (h₂ : 0 < m₂) (he : -1074 ≤ e₁ + e₂) :
    IsAbove (UnpackedFloat.unpack .binary64 (UnpackedFloat.pack .binary64
      (UnpackedFloat.mul .binary64 (.finite .positive m₁ e₁ h₁) (.finite .positive m₂ e₂ h₂)))) := by
  obtain ⟨m, e, h, hround, hm, he'⟩ := round_pos (Nat.mul_pos h₁ h₂) he
  have hmul : UnpackedFloat.mul .binary64 (.finite .positive m₁ e₁ h₁) (.finite .positive m₂ e₂ h₂) =
      .finite .positive m e h := hround
  rw [hmul]
  exact isAbove_unpack_pack h hm he'

theorem isAbove_ofNat {n : Nat} (h : 0 < n) : IsAbove (Float.ofNat n).toModel.unpack := by
  by_cases hn : n < 2 ^ 53
  · rw [unpack_ofNat h hn]
    trivial
  · change IsAbove (Float.ofScientific n false 0).toModel.unpack
    unfold Float.ofScientific
    rw [dif_neg fun hand => hn hand.1]
    change IsAbove (UnpackedFloat.unpack .binary64 (UnpackedFloat.pack .binary64
      (UnpackedFloat.ofScientific .binary64 n 0)))
    have hbits : (2 : Int) ^ Format.binary64.exponentBits = 2048 := rfl
    unfold UnpackedFloat.ofScientific
    rw [dif_neg (Nat.ne_of_gt h), hbits, if_neg (by decide), if_neg (by omega), if_pos (by decide)]
    exact isAbove_unpack_mul _ _ (by decide)

theorem isPositive_ofNat (n : Nat) : Scalar.isPositive (Scalar.ofNat n : Float) = true ↔ 0 < n := by
  have hlt : Scalar.isPositive (Scalar.ofNat n : Float) = true ↔
      UnpackedFloat.compare (Float.ofNat 0).toModel.unpack (Float.ofNat n).toModel.unpack = some .lt := by
    rw [← lt_iff]
    exact decide_eq_true_iff
  rw [hlt]
  constructor
  · intro h
    refine Nat.pos_of_ne_zero fun h0 => ?_
    rw [h0, unpack_zero] at h
    cases h
  · intro h
    rw [unpack_zero]
    exact compare_zero_of_isAbove (isAbove_ofNat h) _

end Double
end SeismicHazard
