import SeismicHazard.Failure
import SeismicHazard.Telemetry.Basic
/-!
# Exposition — telemetry as text

Telemetry is shown as families of samples, in the order of their names.  A family has a line of help, a line that says
what it is, and one line for each sample: its name with its labels, and its value.  A family whose samples are told
apart by labels is left out while it has none.
-/
namespace SeismicHazard

inductive FamilyKind where
  | counter
  | histogram
  deriving DecidableEq, Repr

def FamilyKind.name : FamilyKind → String
  | .counter => "counter"
  | .histogram => "histogram"

structure Sample where
  part : String := ""
  labels : List (String × String) := []
  value : String
  deriving DecidableEq, Repr

structure Family where
  name : String
  help : String
  kind : FamilyKind
  samples : List Sample
  deriving DecidableEq, Repr

namespace Sample

def labelText (labels : List (String × String)) : String :=
  if labels.isEmpty then ""
  else "\x7b" ++ ",".intercalate (labels.map (fun l => l.1 ++ "=\"" ++ l.2 ++ "\"")) ++ "\x7d"

def line (family : String) (s : Sample) : String := family ++ s.part ++ labelText s.labels ++ " " ++ s.value

end Sample

namespace Family

def lines (f : Family) : List String :=
  s!"# HELP {f.name} {f.help}" :: s!"# TYPE {f.name} {f.kind.name}" :: f.samples.map (Sample.line f.name)

def counter {N : Type} [Scalar N] (name help : String) (n : N) : Family :=
  ⟨name, help, .counter, [{ value := Scalar.text n }]⟩

def histogramSamples (h : Histogram) : List Sample :=
  h.buckets.map (fun b =>
    { part := "_bucket", labels := [("le", Layout.plain.text b.1)], value := toString b.2 }) ++
  [{ part := "_bucket", labels := [("le", "+Inf")], value := toString h.count },
    { part := "_sum", value := Layout.plain.text h.sum }, { part := "_count", value := toString h.count }]

def histogram (name help : String) (h : Histogram) : Family := ⟨name, help, .histogram, histogramSamples h⟩

end Family

namespace Telemetry

variable {N : Type} [Scalar N]

def processedSamples (t : Telemetry N) : List Sample :=
  t.processed.toList.flatMap (fun k => k.2.toList.map (fun m =>
    { labels := [("kind", k.1), ("mode", m.1)], value := Scalar.text m.2 }))

def allFamilies (t : Telemetry N) : List Family := [
  .counter "quake_empty_groups_total" "Groups left without sources after processing" t.emptyGroups,
  .histogram "quake_filter_seconds" "Time spent filtering a source" t.filterSeconds,
  .counter "quake_sources_discarded_total" "Sources with no site within the maximum distance" t.dropped,
  ⟨"quake_sources_processed_total", "Sources filtered and split", .counter, t.processedSamples⟩,
  .histogram "quake_split_seconds" "Time spent splitting a source" t.splitSeconds,
  .counter "quake_split_sources_total" "Sub-sources produced by splitting" t.parts]

def families (t : Telemetry N) : List Family := t.allFamilies.filter (fun f => !f.samples.isEmpty)

def text (t : Telemetry N) : String := "".intercalate (t.families.flatMap (fun f => f.lines.map (· ++ "\n")))

/-- Adds a family to those that are collected, unless there is one with its name. -/
def register (collected : List Family) (f : Family) : Except Failure (List Family) :=
  if collected.any (fun g => g.name = f.name) then
    .error (.telemetry "Duplicate metrics collector registration attempted")
  else .ok (collected ++ [f])

end Telemetry

end SeismicHazard
