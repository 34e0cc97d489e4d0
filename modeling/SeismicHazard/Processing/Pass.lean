import SeismicHazard.Composite.Basic
import SeismicHazard.Processing.Processor
import SeismicHazard.Processing.TaskManager
import SeismicHazard.Sorting
import SeismicHazard.Telemetry.Basic
/-!
# Passes — filtering and splitting every source of a composite

A pass runs the light sources one after the other and hands the heavy ones to a task manager; `processWith` leaves open
what comes of them there.  When both halves are complete, every group is offered its sub-sources, those of light sources
in front, sorted by identifier.  Only if every group accepts are the groups changed; then their ruptures are counted anew
and the report of the pass is stored.

A break-down in either half breaks the pass down.  Otherwise a failure among the light sources comes before one among
the heavy sources, and both come before the refusal of a group.  A sub-source may also break down when it is put into its
group, after other groups were changed; `Frailty` says which do.
-/
namespace SeismicHazard

structure PassStamp where
  runId : Uuid
  completedAt : Instant
  times : PassTimes
  deriving DecidableEq, Inhabited

structure Pass (S W : Type) where
  composite : Composite S W
  events : List TelemetryEvent
  result : Except Abort PassTimes

structure Half (S : Type) where
  result : Except Abort (SplitResult S)
  events : List TelemetryEvent

/-- Which sub-sources break down when they are put into their group and asked for their magnitudes and their ruptures. -/
structure Frailty (S : Type) where
  magnitudes : S → Bool := fun _ => false
  ruptures : S → Bool := fun _ => false

/-- How far groups were changed. -/
structure Refilling (S : Type) where
  groups : List (SourceGroup S)
  events : List TelemetryEvent
  result : Except Abort Unit

namespace Processor

variable {S W : Type} [Source S]

/-! ## The two halves -/

def isHeavy (s : S) : Bool := (Source.kind s).costClass = .heavy

def halves (sources : List (GroupId × S)) : List (GroupId × S) × List (GroupId × S) :=
  sources.partition (fun s => isHeavy s.2)

def runHalf (p : Processor S) (m : TaskManager) (sources : List (GroupId × S)) : Except Abort (SplitResult S) :=
  m.mapReduce .empty SplitResult.merge (fun s => p.filterAndSplit s.1 s.2) sources

def eventsOf (p : Processor S) (m : TaskManager) (mode : RunMode) (sources : List (GroupId × S)) :
    List TelemetryEvent :=
  (m.progress Abort.halts (fun s => p.filterAndSplit s.1 s.2) sources).done.flatMap
    (fun r => r.records.map (SourceRecord.event mode))

def half (p : Processor S) (m : TaskManager) (mode : RunMode) (sources : List (GroupId × S)) : Half S :=
  ⟨p.runHalf m sources, p.eventsOf m mode sources⟩

def joinHalves (light heavy : Except Abort (SplitResult S)) : Except Abort (SplitResult S) :=
  match light, heavy with
  | .error .crashed, _ => .error .crashed
  | _, .error .crashed => .error .crashed
  | .error e, _ => .error e
  | _, .error e => .error e
  | .ok l, .ok h => .ok (l.merge h)

/-! ## Back to the groups -/

/-- The order of sub-sources in a group: by identifier. -/
def leById (a b : S) : Bool := (compare (Source.id a) (Source.id b)).isLE

/-- The sub-sources for each of some groups, in order, if every group accepts its own.  What a group was offered is not
offered to a later group with its number. -/
def replacements : List (SourceGroup S) → SortedMap GroupId (List S) → Except Failure (List (List S))
  | [], _ => .ok []
  | g :: gs, byGroup => do
    let sources := sortBy leById ((byGroup.get? g.id).getD [])
    g.checkReplacement sources
    let rest ← replacements gs (byGroup.erase g.id)
    return sources :: rest

/-- Replaces the sources of a group and counts their ruptures.  The magnitudes are asked for one by one, while the old
sources are still there; a sub-source that breaks down over them leaves the range of those before it.  The ruptures are
asked for when the new sources are in place. -/
def replaceOne (frailty : Frailty S) (g : SourceGroup S) (sources : List S) : SourceGroup S × Except Abort Unit :=
  match g.replaceSources sources with
  | .error f => (g, .error (.failed f))
  | .ok (_, replaced) =>
    if sources.any frailty.magnitudes then
      let range := g.setSources (sources.takeWhile (fun s => !frailty.magnitudes s))
      ({ g with minMag := range.minMag, maxMag := range.maxMag }, .error .crashed)
    else if sources.any frailty.ruptures then (replaced, .error .crashed)
    else (replaced.countRuptures true, .ok ())

def emptyGroupEvents (groups : List (SourceGroup S)) : List TelemetryEvent :=
  (groups.filter SourceGroup.isEmpty).map (fun _ => .emptyGroup)

/-- Replaces the sources of groups one after the other.  The groups after one that does not get to its end are left as
they are. -/
def replaceAll (frailty : Frailty S) : List (SourceGroup S) → List (List S) → Refilling S
  | g :: gs, sources :: rest =>
    match replaceOne frailty g sources with
    | (g, .error e) => ⟨g :: gs, [], .error e⟩
    | (g, .ok ()) =>
      let behind := replaceAll frailty gs rest
      ⟨g :: behind.groups, emptyGroupEvents [g] ++ behind.events, behind.result⟩
  | gs, _ => ⟨gs, [], .ok ()⟩

def install (frailty : Frailty S) (c : Composite S W) (r : SplitResult S) : Refilling S :=
  match replacements c.groups r.byGroup with
  | .error f => ⟨c.groups, [], .error (.failed f)⟩
  | .ok sources => replaceAll frailty c.groups sources

/-! ## The pass -/

def withReport (c : Composite S W) (stamp : PassStamp) (r : SplitResult S) : Composite S W :=
  { c with report := some (.ofRecords stamp.runId stamp.completedAt stamp.times r.records) }

/-- Filters and splits every source of a composite, whatever comes of its light and its heavy sources. -/
def processHalves (settings : ProcessingSettings) (runLight runHeavy : List (GroupId × S) → Half S)
    (frailty : Frailty S) (stamp : PassStamp) (c : Composite S W) : Pass S W :=
  match settings.validate with
  | .error f => ⟨c, [], .error (.failed f)⟩
  | .ok () =>
    let sources := halves c.taggedSources
    let heavy := runHeavy sources.1
    let light := runLight sources.2
    let events := light.events ++ heavy.events
    match joinHalves light.result heavy.result with
    | .error e => ⟨c, events, .error e⟩
    | .ok r =>
      let done := install frailty c r
      match done.result with
      | .error e => ⟨c.setGroups done.groups, events ++ done.events, .error e⟩
      | .ok () => ⟨withReport (c.setGroups done.groups) stamp r, events ++ done.events, .ok stamp.times⟩

def processWith (p : Processor S) (runHeavy : List (GroupId × S) → Half S) (stamp : PassStamp) (c : Composite S W) :
    Pass S W :=
  processHalves p.settings (p.half .sequential .sequential) runHeavy {} stamp c

/-- **Filters and splits every source of a composite.** -/
def process (p : Processor S) (m : TaskManager) (stamp : PassStamp) (c : Composite S W) : Pass S W :=
  p.processWith (p.half m .parallel) stamp c

end Processor

end SeismicHazard
