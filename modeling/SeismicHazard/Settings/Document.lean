import SeismicHazard.Settings.Basic
import SeismicHazard.Json.Reader
import SeismicHazard.Json.Writer
import SeismicHazard.Json.Record
/-!
# The settings document

A configuration is written as a JSON document with two sections.  A section or a field that is not given has its
default.  `Settings.read` accepts a document only if the configuration in it is valid.
-/
namespace SeismicHazard

def SamplingSettings.fieldNames : List String := ["random_seed", "number_of_logic_tree_samples"]

def SamplingSettings.ofJson? (v : Json) : Option SamplingSettings := do
  match ← v.fields? fieldNames with
  | [seed, samples] =>
    let default : SamplingSettings := {}
    return ⟨← Json.fieldOr default.seed Json.word? seed, ← Json.fieldOr default.samples Json.word? samples⟩
  | _ => none

def SamplingSettings.toJson (s : SamplingSettings) : Json :=
  .record [("random_seed", .word s.seed), ("number_of_logic_tree_samples", .word s.samples)]

def ProcessingSettings.fieldNames : List String := ["maximum_distance", "area_source_discretization", "num_workers"]

def ProcessingSettings.ofJson? (v : Json) : Option ProcessingSettings := do
  match ← v.fields? fieldNames with
  | [distance, discretization, workers] =>
    let default : ProcessingSettings := {}
    return ⟨← Json.fieldOr default.maximumDistance Json.float? distance,
      ← Json.fieldOr default.discretization Json.float? discretization,
      ← Json.fieldOr default.workers Json.word? workers⟩
  | _ => none

def ProcessingSettings.toJson (s : ProcessingSettings) : Json :=
  .record [("maximum_distance", .float s.maximumDistance), ("area_source_discretization", .float s.discretization),
    ("num_workers", .word s.workers)]

namespace Settings

def fieldNames : List String := ["sampling", "processor"]

def ofJson? (v : Json) : Option Settings := do
  match ← v.fields? fieldNames with
  | [sampling, processing] =>
    return ⟨← Json.fieldOr {} SamplingSettings.ofJson? sampling,
      ← Json.fieldOr {} ProcessingSettings.ofJson? processing⟩
  | _ => none

def toJson (s : Settings) : Json :=
  .record [("sampling", s.sampling.toJson), ("processor", s.processing.toJson)]

/-- **The configuration that a text holds**, if the text is a document, its fields have the right form and the
configuration is valid. -/
def read (text : String) : Except Failure Settings :=
  match (Json.parse? text).bind ofJson? with
  | none => .error .document
  | some s => s.validate.map (fun _ => s)

/-- The configuration that a file holds, given its bytes or none when there is no such file. -/
def readBytes (bytes : Option ByteArray) : Except Failure Settings :=
  match bytes.bind String.fromUTF8? with
  | none => .error .unreadable
  | some text => read text

def write (s : Settings) : String := s.toJson.pretty

end Settings

end SeismicHazard
