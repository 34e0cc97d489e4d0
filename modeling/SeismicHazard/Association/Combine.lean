import SeismicHazard.Association.Basic
import SeismicHazard.Association.Tag
import SeismicHazard.Capacity
/-!
# Combining results over realizations

Results that were computed for groups and ground motion models are folded onto the realizations that use them: any
values with any aggregation, probabilities of exceedance, hazard curves, and tagged results of single events, which go
to the realizations of their draw.
-/
namespace SeismicHazard

/-- **The probability that at least one of two independent events occurs.** -/
def aggregateProbability {W : Type} [Scalar W] (acc p : W) : W := Scalar.one - (Scalar.one - acc) * (Scalar.one - p)

namespace Association

variable {W V : Type}

/-- Folds a value into the accumulated values at some positions, once for each time that a position is listed. -/
def scatter (agg : V → V → V) (v : V) (positions : List Nat) (acc : List V) : List V :=
  positions.foldl (fun acc o => acc.modify o (fun x => agg x v)) acc

/-- **Folds results onto the realizations**, each of which starts from one value. -/
def combine (a : Association W) (agg : V → V → V) (start : V) (results : List (AssocKey × V)) : List V :=
  results.foldl (fun acc r => scatter agg r.2 (a.ordinals r.1) acc) (List.replicate a.realizations.length start)

def combineProbabilities [Scalar V] (a : Association W) (results : List (AssocKey × V)) : List V :=
  a.combine aggregateProbability Scalar.zero results

/-- Combines hazard curves level by level; the shorter of two curves decides how many levels there are. -/
def combineCurves [Scalar V] (a : Association W) (levels : Nat) (results : List (AssocKey × List V)) : List (List V) :=
  a.combine (List.zipWith aggregateProbability) (List.replicate levels Scalar.zero) results

/-- Combines hazard curves of as many levels as memory can hold; to ask for more of them is a break-down. -/
def combineCurvesHeld [Scalar V] (a : Association W) (levels : Nat) (results : List (AssocKey × List V)) :
    Except Abort (List (List V)) :=
  (Capacity.check levels).map (fun _ => a.combineCurves levels results)

/-! ## Tagged results -/

/-- Whether a realization takes the results with a tag.  One without collections takes them all, and its tags are not
looked up. -/
def accepts (lookup : String → Except Failure CollectionId) (r : Realization W) (tag : String) : Except Failure Bool :=
  if r.collections.isEmpty then .ok true else (lookup tag).map r.collections.contains

/-- Folds a tagged value into the values by tag; the first value of a tag is taken as it is. -/
def foldTagged (agg : V → V → V) (acc : SortedMap String V) (entry : String × V) : SortedMap String V :=
  acc.update entry.1 (fun old => old.elim entry.2 (fun x => agg x entry.2))

def absorb (lookup : String → Except Failure CollectionId) (agg : V → V → V) (r : Realization W)
    (acc : SortedMap String V) (entries : List (String × V)) : Except Failure (SortedMap String V) :=
  entries.foldlM (fun acc e => do return if ← accepts lookup r e.1 then foldTagged agg acc e else acc) acc

def absorbAt (a : Association W) (lookup : String → Except Failure CollectionId) (agg : V → V → V)
    (entries : List (String × V)) (acc : List (SortedMap String V)) (ordinal : Nat) :
    Except Failure (List (SortedMap String V)) :=
  match a.realizations[ordinal]?, acc[ordinal]? with
  | some r, some values => (absorb lookup agg r values entries).map (acc.set ordinal)
  | _, _ => .ok acc

/-- **Folds tagged results onto the realizations.**  A realization of an oversampled model takes only the tags whose
collection is one of its own; a tag that cannot be looked up aborts the whole combination. -/
def combineTagged (a : Association W) (lookup : String → Except Failure CollectionId) (agg : V → V → V)
    (results : List (AssocKey × SortedMap String V)) : Except Failure (List (SortedMap String V)) :=
  results.foldlM (fun acc r => (a.ordinals r.1).foldlM (a.absorbAt lookup agg r.2.toList) acc)
    (List.replicate a.realizations.length .empty)

end Association

end SeismicHazard
