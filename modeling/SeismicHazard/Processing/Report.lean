import SeismicHazard.Number.Natural
import SeismicHazard.Identifier
import SeismicHazard.Json.Reader
import SeismicHazard.Json.Record
import SeismicHazard.Json.Writer
import SeismicHazard.Sorting
import SeismicHazard.Source.Kind
import SeismicHazard.Stamp.Instant
import SeismicHazard.Stamp.Uuid
/-!
# Reports — what a processing pass did

A pass leaves a record of every source it was given: how many parts the source was split into, none when it was dropped,
and how long that took.  A report holds the records of one pass, the slowest first.
-/
namespace SeismicHazard

structure SourceRecord where
  group : GroupId
  source : String
  kind : SourceKind
  /-- The number of its parts; zero when it was dropped. -/
  parts : Nat
  filterTime : Float
  splitTime : Float
  deriving DecidableEq, Inhabited

namespace SourceRecord

def totalTime (r : SourceRecord) : Float := r.filterTime + r.splitTime

/-- The order of a report: more time first, then by identifier. -/
def le (a b : SourceRecord) : Bool :=
  ((compare (Binary.totalRank b.totalTime) (Binary.totalRank a.totalTime)).then (compare a.source b.source)).isLE

end SourceRecord

structure PassTimes where
  sequential : Float
  parallel : Float
  deriving DecidableEq, Inhabited

structure Report where
  runId : Uuid
  completedAt : Instant
  records : List SourceRecord
  times : PassTimes
  deriving DecidableEq, Inhabited

namespace Report

def ofRecords (runId : Uuid) (completedAt : Instant) (times : PassTimes) (records : List SourceRecord) : Report :=
  ⟨runId, completedAt, sortBy SourceRecord.le records, times⟩

def numParts (r : Report) : Nat := total (r.records.map SourceRecord.parts)

def numDropped (r : Report) : Nat := r.records.countP (fun s => s.parts = 0)

def slowest (n : Nat) (r : Report) : List SourceRecord := r.records.take n

def isOrdered (r : Report) : Bool := (r.records.zip (r.records.drop 1)).all (fun p => SourceRecord.le p.1 p.2)

/-! ## The report document -/

def recordFields : List String := ["group_id", "source_id", "source_class", "num_split", "filter_time", "split_time"]

def recordOfJson? (v : Json) : Option SourceRecord := do
  match ← v.fields? recordFields with
  | [some group, some source, some kind, some parts, some filterTime, some splitTime] =>
    return { group := ⟨← group.natBelow? identifierBound⟩
             source := ← source.text?
             kind := ← SourceKind.ofJson? kind
             parts := ← parts.natBelow? wordBound
             filterTime := ← filterTime.float?
             splitTime := ← splitTime.float? }
  | _ => none

def recordToJson (r : SourceRecord) : Json :=
  .record [("group_id", .nat r.group.val), ("source_id", .text r.source), ("source_class", .text r.kind.name),
    ("num_split", .nat r.parts), ("filter_time", .float r.filterTime), ("split_time", .float r.splitTime)]

def timesOfJson? (v : Json) : Option PassTimes := do
  match ← v.fields? ["sequential", "parallel"] with
  | [some sequential, some parallel] => return ⟨← sequential.float?, ← parallel.float?⟩
  | _ => none

def timesToJson (t : PassTimes) : Json :=
  .record [("sequential", .float t.sequential), ("parallel", .float t.parallel)]

/-- The report in a document value.  The records are taken as they stand. -/
def ofJson? (v : Json) : Option Report := do
  match ← v.fields? ["run_id", "completed_at", "records", "times"] with
  | [some runId, some completedAt, some records, some times] =>
    return { runId := ← Uuid.ofText? (← runId.text?)
             completedAt := ← Instant.ofText? (← completedAt.text?)
             records := ← records.list? recordOfJson?
             times := ← timesOfJson? times }
  | _ => none

def toJson (r : Report) : Json :=
  .record [("run_id", .text r.runId.text), ("completed_at", .text r.completedAt.text),
    ("records", .array (r.records.map recordToJson)), ("times", timesToJson r.times)]

def read? (text : String) : Option Report := (Json.parse? text).bind ofJson?

def write (r : Report) : String := r.toJson.pretty

end Report

end SeismicHazard
