import SeismicHazard.Processing.SplitResult
import SeismicHazard.Settings.Basic
import SeismicHazard.Source.Basic
/-!
# Processors — filtering and splitting one source

A processor drops sources that are too far from every site and splits the others.  Every sub-source is given its weight
and the tag of its group.
-/
namespace SeismicHazard

/-- How single sources are filtered and split. -/
structure Processor (S : Type) where
  settings : ProcessingSettings := {}
  /-- The sites within a distance of a source; without it no source is dropped. -/
  sites : Option (S → Float → Except Failure (List Nat)) := none
  /-- The seconds that filtering and splitting a source of a group took. -/
  clock : GroupId → S → Float × Float := fun _ _ => (0, 0)

namespace Processor

variable {S : Type}

/-- Whether a source is kept: without a filter always, else if it has a site within the maximum distance. -/
def keeps (p : Processor S) (s : S) : Except Failure Bool :=
  match p.sites with
  | none => .ok true
  | some sites => (sites s p.settings.maximumDistance).map (fun found => !found.isEmpty)

def diagnosticText (recording : Bool) (p : Processor S) : String :=
  let distance := Layout.diagnostic.text p.settings.maximumDistance
  let discretization := Layout.diagnostic.text p.settings.discretization
  s!"SourceProcessor \x7b filtering: {p.sites.isSome}, config: ProcessorConfig \x7b maximum_distance: {distance}, " ++
    s!"area_source_discretization: {discretization}, num_workers: {p.settings.workers} \x7d, metrics: {recording} \x7d"

variable [Source S]

def finish (g : GroupId) (s : S) : S := Source.setTag (Source.setWeight s (sourceWeight s none)) g

def parts (p : Processor S) (g : GroupId) (s : S) : Except Abort (List S) := do
  if ← Abort.lift (p.keeps s) then
    return (← Source.split s p.settings.discretization).map (finish g)
  else return []

def recordOf (p : Processor S) (g : GroupId) (s : S) (parts : Nat) : SourceRecord :=
  let (filterTime, splitTime) := p.clock g s
  { group := g, source := Source.id s, kind := Source.kind s, parts, filterTime, splitTime }

def filterAndSplit (p : Processor S) (g : GroupId) (s : S) : Except Abort (SplitResult S) :=
  (p.parts g s).map (fun subs => ⟨SortedMap.empty.insert g subs, [p.recordOf g s subs.length]⟩)

end Processor

end SeismicHazard
