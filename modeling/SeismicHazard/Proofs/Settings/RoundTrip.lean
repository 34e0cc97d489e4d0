import SeismicHazard.Settings.Document
import SeismicHazard.Proofs.Json.Records
/-!
# The settings document is read back

The seed and the counts of a configuration are read back whatever they are; of what is written only the two distances
can go wrong (`ofJson?_toJson`).  A distance that is not finite is written as `null`, and the document is refused before
the configuration is looked at (`read_write_of_not_finite`).  Finite distances are read back, so what is checked is the
configuration that was written, and the answer is that of its own check (`read_write_of_readsBack`).
-/
namespace SeismicHazard

open Json (ReadsBack Writable writable_record writable_word writable_float word?_word fields?_record float_of_not_finite)

namespace SamplingSettings

theorem writable_toJson (s : SamplingSettings) : Writable s.toJson :=
  writable_record (List.forall_mem_cons.2 ⟨writable_word _, List.forall_mem_singleton.2 (writable_word _)⟩)

theorem ofJson?_toJson (s : SamplingSettings) : ofJson? s.toJson = some s := by
  have hfields : s.toJson.fields? fieldNames = some [some (.word s.seed), some (.word s.samples)] :=
    fields?_record (show fieldNames.Nodup by decide)
  rw [ofJson?, hfields]
  dsimp only [Option.bind_eq_bind, Option.bind_some, Json.fieldOr]
  rw [word?_word, word?_word]
  rfl

end SamplingSettings

namespace ProcessingSettings

theorem writable_toJson (s : ProcessingSettings) : Writable s.toJson :=
  writable_record (List.forall_mem_cons.2 ⟨writable_float _,
    List.forall_mem_cons.2 ⟨writable_float _, List.forall_mem_singleton.2 (writable_word _)⟩⟩)

theorem ofJson?_toJson (s : ProcessingSettings) : ofJson? s.toJson = do
    return ⟨← (Json.float s.maximumDistance).float?, ← (Json.float s.discretization).float?, s.workers⟩ := by
  have hfields : s.toJson.fields? fieldNames =
      some [some (.float s.maximumDistance), some (.float s.discretization), some (.word s.workers)] :=
    fields?_record (show fieldNames.Nodup by decide)
  rw [ofJson?, hfields]
  dsimp only [Option.bind_eq_bind, Option.bind_some, Json.fieldOr]
  rw [word?_word]
  rfl

theorem validate_cases (s : ProcessingSettings) :
    (isPositiveDistance s.maximumDistance = true ∧ isPositiveDistance s.discretization = true ∧ s.validate = .ok ()) ∨
      ((isPositiveDistance s.maximumDistance = false ∨ isPositiveDistance s.discretization = false) ∧
        ∃ fault, s.validate = .error (.settings fault)) := by
  unfold validate
  cases hdistance : isPositiveDistance s.maximumDistance with
  | false => exact .inr ⟨.inl rfl, _, rfl⟩
  | true =>
    cases hdiscretization : isPositiveDistance s.discretization with
    | false => exact .inr ⟨.inr rfl, _, rfl⟩
    | true => exact .inl ⟨rfl, rfl, rfl⟩

theorem isPositiveDistance_of_finite {x : Float} (h : x.isFinite = true) : isPositiveDistance x = decide (0 < x) := by
  rw [isPositiveDistance, h, Bool.true_and]

end ProcessingSettings

namespace Settings

theorem writable_toJson (s : Settings) : Writable s.toJson :=
  writable_record (List.forall_mem_cons.2 ⟨s.sampling.writable_toJson,
    List.forall_mem_singleton.2 s.processing.writable_toJson⟩)

theorem ofJson?_toJson (s : Settings) :
    ofJson? s.toJson = (ProcessingSettings.ofJson? s.processing.toJson).map fun p => ⟨s.sampling, p⟩ := by
  have hfields : s.toJson.fields? fieldNames = some [some s.sampling.toJson, some s.processing.toJson] :=
    fields?_record (show fieldNames.Nodup by decide)
  rw [ofJson?, hfields]
  dsimp only [Option.bind_eq_bind, Option.bind_some, Json.fieldOr]
  rw [SamplingSettings.ofJson?_toJson]
  cases ProcessingSettings.ofJson? s.processing.toJson <;> rfl

/-- The text of a configuration is a document, and holds what the document value holds. -/
theorem parse?_write (s : Settings) : Json.parse? (write s) = some s.toJson := Json.parse?_pretty s.writable_toJson

theorem read_write_of_readsBack {s : Settings} (hdistance : ReadsBack s.processing.maximumDistance)
    (hdiscretization : ReadsBack s.processing.discretization) : read (write s) = s.validate.map fun _ => s := by
  have hsettings : ofJson? s.toJson = some s := by
    rw [ofJson?_toJson, ProcessingSettings.ofJson?_toJson, hdistance, hdiscretization]
    rfl
  rw [read, parse?_write, Option.bind_some, hsettings]

/-- **A configuration with a distance that is not finite is refused as a document.** -/
theorem read_write_of_not_finite {s : Settings}
    (h : s.processing.maximumDistance.isFinite = false ∨ s.processing.discretization.isFinite = false) :
    read (write s) = .error .document := by
  have hnone : ProcessingSettings.ofJson? s.processing.toJson = none := by
    rw [ProcessingSettings.ofJson?_toJson]
    rcases h with h | h
    · rw [float_of_not_finite h]
      rfl
    · rw [float_of_not_finite h]
      cases (Json.float s.processing.maximumDistance).float? <;> rfl
  rw [read, parse?_write, Option.bind_some, ofJson?_toJson, hnone]
  rfl

/-- **A written configuration is read back.**  With finite distances, if their numbers are read back: one with positive
distances as it is, any other is refused as its own check refuses it.  One with a distance that is not finite is refused
as a document. -/
theorem read_write (s : Settings)
    (hdistance : s.processing.maximumDistance.isFinite = true → ReadsBack s.processing.maximumDistance)
    (hdiscretization : s.processing.discretization.isFinite = true → ReadsBack s.processing.discretization) :
    (s.processing.maximumDistance.isFinite = true → s.processing.discretization.isFinite = true →
      (0 < s.processing.maximumDistance ∧ 0 < s.processing.discretization → read (write s) = .ok s) ∧
      (¬(0 < s.processing.maximumDistance ∧ 0 < s.processing.discretization) →
        ∃ fault, s.validate = .error (.settings fault) ∧ read (write s) = .error (.settings fault))) ∧
    (s.processing.maximumDistance.isFinite = false ∨ s.processing.discretization.isFinite = false →
      read (write s) = .error .document) := by
  refine ⟨fun hfinite hfinite' => ?_, read_write_of_not_finite⟩
  have hcases := s.processing.validate_cases
  rw [ProcessingSettings.isPositiveDistance_of_finite hfinite, ProcessingSettings.isPositiveDistance_of_finite hfinite',
    decide_eq_true_iff, decide_eq_true_iff, decide_eq_false_iff_not, decide_eq_false_iff_not] at hcases
  rw [read_write_of_readsBack (hdistance hfinite) (hdiscretization hfinite'), validate]
  rcases hcases with ⟨hpos, hpos', hok⟩ | ⟨hnot, fault, herror⟩
  · refine ⟨fun _ => ?_, fun hnot => absurd ⟨hpos, hpos'⟩ hnot⟩
    rw [hok]
    rfl
  · refine ⟨fun ⟨hpos, hpos'⟩ => ?_, fun _ => ⟨fault, herror, ?_⟩⟩
    · rcases hnot with hnot | hnot
      · exact absurd hpos hnot
      · exact absurd hpos' hnot
    · rw [herror]
      rfl

def largest (distance discretization : Float) : Settings :=
  ⟨⟨18446744073709551615, 18446744073709551615⟩, ⟨distance, discretization, 18446744073709551615⟩⟩

/-- The largest counts with distances of which one is written with an exponent, with a distance of zero, and with an
infinite one. -/
theorem read_write_largest :
    (ReadsBack 212.5 ∧ ReadsBack 1e-7 ∧ read (write (largest 212.5 1e-7)) = .ok (largest 212.5 1e-7)) ∧
      (ReadsBack 0 ∧ ∃ fault, (largest 212.5 0).validate = .error (.settings fault) ∧
        read (write (largest 212.5 0)) = .error (.settings fault)) ∧
      read (write (largest (1 / 0) 10)) = .error .document := by
  have hlong : ReadsBack 212.5 := by decide +kernel
  have hshort : ReadsBack 1e-7 := by decide +kernel
  have hzero : ReadsBack 0 := by decide +kernel
  have hten : ReadsBack 10 := by decide +kernel
  have hpositive := (read_write (largest 212.5 1e-7) (fun _ => hlong) fun _ => hshort).1
    (by decide +kernel) (by decide +kernel)
  have hrefused := (read_write (largest 212.5 0) (fun _ => hlong) fun _ => hzero).1
    (by decide +kernel) (by decide +kernel)
  have hinfinite := (read_write (largest (1 / 0) 10) (fun h => absurd h (by decide +kernel)) fun _ => hten).2
  exact ⟨⟨hlong, hshort, hpositive.1 ⟨by decide +kernel, by decide +kernel⟩⟩,
    ⟨hzero, hrefused.2 fun h => absurd h.2 (by decide +kernel)⟩, hinfinite (.inl (by decide +kernel))⟩

end Settings
end SeismicHazard
