import SeismicHazard.Number.Scalar
import SeismicHazard.Processing.Report
import SeismicHazard.SortedMap
/-!
# Telemetry — what passes over sources add up to

Every source that was filtered and split, and every group that was left without sources, is an event.  Telemetry counts
them: sources by kind and by how they were run, sources that were dropped, sub-sources, empty groups, and the times
spent in two histograms.  Counts grow in the numbers they are kept in, so that very large ones round.
-/
namespace SeismicHazard

inductive RunMode where
  | sequential
  | parallel
  deriving DecidableEq, Repr, Inhabited

def RunMode.name : RunMode → String
  | .sequential => "sequential"
  | .parallel => "parallel"

inductive TelemetryEvent where
  /-- A source was filtered and split into a number of parts. -/
  | source (kind : SourceKind) (mode : RunMode) (parts : Nat) (filterTime splitTime : Float)
  | emptyGroup
  deriving DecidableEq, Inhabited

def SourceRecord.event (mode : RunMode) (r : SourceRecord) : TelemetryEvent :=
  .source r.kind mode r.parts r.filterTime r.splitTime

/-! ## Histograms -/

/-- How many observations lie below certain bounds, with their sum. -/
structure Histogram where
  /-- The bounds, each with the number of observations that are not above it. -/
  buckets : List (Float × Nat)
  sum : Float := 0
  count : Nat := 0
  deriving DecidableEq, Inhabited

namespace Histogram

def secondBounds : List Float := [0.0001, 0.001, 0.01, 0.1, 1, 10]

def empty : Histogram := { buckets := secondBounds.map (fun b => (b, 0)) }

def observe (x : Float) (h : Histogram) : Histogram :=
  { buckets := h.buckets.map (fun b => (b.1, if x ≤ b.1 then b.2 + 1 else b.2))
    sum := h.sum + x
    count := h.count + 1 }

end Histogram

/-! ## Counters -/

/-- The counters and histograms, with counts kept in numbers of type `N`. -/
structure Telemetry (N : Type) where
  /-- The sources by the name of their kind and of their mode; only pairs that occurred. -/
  processed : SortedMap String (SortedMap String N) := .empty
  dropped : N
  parts : N
  emptyGroups : N
  filterSeconds : Histogram := .empty
  splitSeconds : Histogram := .empty

namespace Telemetry

variable {N : Type} [Scalar N]

def empty : Telemetry N := { dropped := Scalar.zero, parts := Scalar.zero, emptyGroups := Scalar.zero }

def increment (n : Option N) : N := n.getD Scalar.zero + Scalar.one

def countProcessed (kind : SourceKind) (mode : RunMode) (m : SortedMap String (SortedMap String N)) :
    SortedMap String (SortedMap String N) :=
  m.update kind.sourceName (fun modes => (modes.getD .empty).update mode.name increment)

/-- The number of sources of a kind that were run in a mode; none if there was no such source. -/
def processedBy (t : Telemetry N) (kind : SourceKind) (mode : RunMode) : Option N :=
  (t.processed.get? kind.sourceName).bind (fun modes => modes.get? mode.name)

def record (t : Telemetry N) : TelemetryEvent → Telemetry N
  | .source kind mode parts filterTime splitTime =>
    { t with
      processed := countProcessed kind mode t.processed
      dropped := if parts = 0 then t.dropped + Scalar.one else t.dropped
      parts := t.parts + Scalar.ofNat parts
      filterSeconds := t.filterSeconds.observe filterTime
      splitSeconds := t.splitSeconds.observe splitTime }
  | .emptyGroup => { t with emptyGroups := t.emptyGroups + Scalar.one }

def recordAll (t : Telemetry N) (events : List TelemetryEvent) : Telemetry N := events.foldl record t

def diagnosticText : String := "ProcessorMetrics \x7b .. \x7d"

end Telemetry

end SeismicHazard
