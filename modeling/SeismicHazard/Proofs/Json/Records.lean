import SeismicHazard.Json.Record
import SeismicHazard.Proofs.Json.RoundTrip
import Mathlib.Data.List.Nodup
/-!
# Records — typed values are read from where they were written

The fields of a record stand under their names (`fields?_record`), and a 64-bit word is read back whatever its size
(`word?_word`).  The exponent field of its bits tells whether a double is finite (`isFinite_iff`); one that is not is
written as `null`, which is no number (`float_of_not_finite`).  A finite double is written in decimal digits.  That they
are read as the same double is a property of the double (`ReadsBack`), since a number of many digits may be read one
place off.
-/
namespace SeismicHazard
namespace Json

/-! ## Fields -/

def valuesUnder (name : String) (members : List (Option String × Json)) : List Json :=
  (members.filter fun m => m.1 = some name).map Prod.snd

def Named (members : List (Option String × Json)) : Prop := ∀ m ∈ members, m.1.isSome = true

instance (members : List (Option String × Json)) : Decidable (Named members) :=
  inferInstanceAs (Decidable (∀ m ∈ members, m.1.isSome = true))

def Distinct (names : List String) (members : List (Option String × Json)) : Prop :=
  ∀ n ∈ names, (valuesUnder n members).length ≤ 1

instance (names : List String) (members : List (Option String × Json)) : Decidable (Distinct names members) :=
  inferInstanceAs (Decidable (∀ n ∈ names, (valuesUnder n members).length ≤ 1))

theorem occurrences_eq (name : String) (members : List (Option String × Json)) :
    occurrences name members = (valuesUnder name members).length := by
  rw [occurrences, List.countP_eq_length_filter, valuesUnder, List.length_map]

theorem member?_eq (name : String) : ∀ members : List (Option String × Json),
    member? name members = (valuesUnder name members).head?
  | [] => rfl
  | (k, v) :: members => by
    have ih := member?_eq name members
    by_cases hk : k = some name <;> simp_all [member?, valuesUnder]

/-- **The fields of an object** are what stands under their names, unless one of them is repeated. -/
theorem fields?_object (names : List String) (members : List (Option String × Json)) :
    (object members).fields? names =
      if Named members ∧ Distinct names members then some (names.map fun n => (valuesUnder n members).head?) else none := by
  rw [fields?]
  simp only [occurrences_eq, member?_eq]
  exact if_congr (by simp [Named, Distinct, List.all_eq_true]) rfl rfl

theorem valuesUnder_record_length (name : String) (members : List (String × Json)) :
    (valuesUnder name (members.map fun m => (some m.1, m.2))).length = (members.map Prod.fst).count name := by
  rw [← occurrences_eq, occurrences, List.countP_map, List.count, List.countP_map]
  exact List.countP_congr fun m _ => by simp

theorem mem_valuesUnder {name : String} {v : Json} {members : List (Option String × Json)} :
    v ∈ valuesUnder name members ↔ (some name, v) ∈ members := by
  simp [valuesUnder]

theorem eq_singleton_of_mem {α : Type} {a : α} : ∀ {l : List α}, l.length ≤ 1 → a ∈ l → l = [a]
  | [b], _, h => by rw [List.mem_singleton.1 h]

theorem fields?_record {members : List (String × Json)} (h : (members.map Prod.fst).Nodup) :
    (record members).fields? (members.map Prod.fst) = some (members.map fun m => some m.2) := by
  have hnamed : Named (members.map fun m => (some m.1, m.2)) := by
    intro m hm
    obtain ⟨_, _, rfl⟩ := List.mem_map.1 hm
    rfl
  have hdistinct : Distinct (members.map Prod.fst) (members.map fun m => (some m.1, m.2)) := by
    intro n _
    rw [valuesUnder_record_length]
    exact List.nodup_iff_count_le_one.1 h n
  rw [record, fields?_object, if_pos ⟨hnamed, hdistinct⟩, List.map_map]
  refine congrArg some (List.map_congr_left fun m hm => ?_)
  rw [Function.comp_apply, eq_singleton_of_mem (hdistinct m.1 (List.mem_map.2 ⟨m, hm, rfl⟩))
    (mem_valuesUnder.2 (List.mem_map.2 ⟨m, hm, rfl⟩))]
  rfl

theorem writable_record {members : List (String × Json)} (h : ∀ m ∈ members, Writable m.2) : Writable (record members) := by
  refine .object fun m hm => ?_
  obtain ⟨m', hm', rfl⟩ := List.mem_map.1 hm
  exact h m' hm'

/-! ## Words -/

theorem word?_word (n : UInt64) : word? (word n) = some n := by
  have hlt : n.toNat < wordBound := n.toNat_lt
  have hread : natBelow? wordBound (word n) = some n.toNat := by
    change (if n.toNat < wordBound then some n.toNat else none) = some n.toNat
    rw [if_pos hlt]
  rw [word?, hread, Option.map_some, UInt64.ofNat_toNat]

theorem writable_word (n : UInt64) : Writable (word n) := .number fun _ h => absurd h List.not_mem_nil

/-! ## Doubles -/

section Finite

open Float.Model Float.Model.UnpackedFloat

theorem isFinite_unpack (b : BitVec 64) :
    (UnpackedFloat.unpack .binary64 b).isFinite = true ↔ @unpackExponent .binary64 b ≠ -1#11 := by
  unfold UnpackedFloat.unpack
  by_cases h : @unpackExponent .binary64 b = -1#11
  · rw [if_pos h]
    refine iff_of_false ?_ (not_not_intro h)
    split <;> exact Bool.false_ne_true
  · rw [if_neg h]
    refine iff_of_true ?_ h
    by_cases hfield : @unpackExponent .binary64 b = 0#11
    · rw [if_pos hfield]
      by_cases hfraction : @unpackMantissa .binary64 b = 0#52
      · rw [dif_pos hfraction]
        rfl
      · rw [dif_neg hfraction]
        rfl
    · rw [if_neg hfield]
      rfl

theorem isFinite_iff (x : Float) : x.isFinite = true ↔ x.toBits.toNat / twoTo 52 % twoTo 11 ≠ 2047 := by
  have hfield : (@unpackExponent .binary64 x.toBits.toBitVec).toNat = x.toBits.toNat / twoTo 52 % twoTo 11 := by
    change (BitVec.extractLsb 62 52 x.toBits.toBitVec).toNat = _
    rw [BitVec.extractLsb_toNat, Nat.shiftRight_eq_div_pow]
    rfl
  have hones : @unpackExponent .binary64 x.toBits.toBitVec = -1#11 ↔ x.toBits.toNat / twoTo 52 % twoTo 11 = 2047 := by
    rw [← hfield]
    exact BitVec.toNat_inj.symm
  exact (isFinite_unpack x.toBits.toBitVec).trans (not_congr hones)

end Finite

theorem lastDigits_lt (count n : Nat) : ∀ d ∈ lastDigits count n, d < 10 := by
  intro d hd
  obtain ⟨i, -, rfl⟩ := List.mem_map.1 hd
  exact Nat.mod_lt _ (by decide)

theorem fraction_point_lt (point : Bool) : ∀ d ∈ (if point then [0] else []), d < 10 := by
  cases point <;> decide

theorem fraction_ofDecimal_lt (l : Layout) (negative : Bool) (d : Decimal) :
    ∀ f ∈ (l.ofDecimal negative d).fraction, f < 10 := by
  unfold Layout.ofDecimal
  dsimp only
  split
  · split
    · exact fraction_point_lt l.point
    · exact lastDigits_lt _ _
  · exact lastDigits_lt _ _

theorem fraction_numeral?_lt {l : Layout} {x : Float} {n : Numeral} (h : l.numeral? x = some n) :
    ∀ d ∈ n.fraction, d < 10 := by
  unfold Layout.numeral? at h
  split at h
  · cases h
  · cases h
  · split at h
    · cases h
      exact fraction_point_lt l.point
    · cases h
      exact fraction_ofDecimal_lt l _ _

theorem writable_float (x : Float) : Writable (float x) := by
  unfold float
  split
  · rename_i h
    exact .number (fraction_numeral?_lt h)
  · exact .null

theorem float_of_not_finite {x : Float} (h : x.isFinite = false) : float x = .null := by
  have hfield : x.toBits.toNat / twoTo 52 % twoTo 11 = 2047 := by
    by_contra hne
    rw [(isFinite_iff x).2 hne] at h
    cases h
  have hread : Binary.ofFloat x = .undefined ∨ ∃ negative, Binary.ofFloat x = .infinite negative := by
    rw [Binary.ofFloat, if_pos hfield]
    split
    · exact .inr ⟨_, rfl⟩
    · exact .inl rfl
  have hnone : Layout.document.numeral? x = none := by
    rcases hread with hread | ⟨negative, hread⟩ <;> rw [Layout.numeral?, hread]
  rw [float, hnone]

def ReadsBack (x : Float) : Prop := (float x).float? = some x

instance (x : Float) : Decidable (ReadsBack x) := inferInstanceAs (Decidable ((float x).float? = some x))

end Json
end SeismicHazard
