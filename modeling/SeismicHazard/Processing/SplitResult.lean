import SeismicHazard.Number.Natural
import SeismicHazard.Processing.Report
import SeismicHazard.SortedMap
/-!
# Split results — sub-sources on the way back to their groups

Filtering and splitting some sources yields sub-sources by group and one record for each of the sources.  Results of
different sources are merged by joining the lists.
-/
namespace SeismicHazard

structure SplitResult (S : Type) where
  byGroup : SortedMap GroupId (List S) := .empty
  records : List SourceRecord := []
  deriving Inhabited

namespace SplitResult

variable {S : Type}

def empty : SplitResult S := {}

def addTo (m : SortedMap GroupId (List S)) (entry : GroupId × List S) : SortedMap GroupId (List S) :=
  m.update entry.1 (fun old => old.getD [] ++ entry.2)

/-- **Joins two results**, the first one in front. -/
def merge (a b : SplitResult S) : SplitResult S :=
  ⟨b.byGroup.toList.foldl addTo a.byGroup, a.records ++ b.records⟩

def sourcesOf (r : SplitResult S) (g : GroupId) : List S := (r.byGroup.get? g).getD []

def numSources (r : SplitResult S) : Nat := total (r.byGroup.values.map List.length)

end SplitResult

end SeismicHazard
