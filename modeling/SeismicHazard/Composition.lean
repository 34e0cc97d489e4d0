import SeismicHazard.SortedMap
import SeismicHazard.Source.Model
/-!
# Composition — which collection belongs to which group

Only a model that is drawn more than once needs its results kept apart by draw.  Every group of such a model gets one
collection for each draw; collections are numbered in the order of models, groups and draws.  The composition is a
snapshot: it does not follow later changes of the models.
-/
namespace SeismicHazard

structure ModelSummary where
  path : List String
  name : String
  groups : List GroupId
  /-- The number of paths of its tree times the number of draws, in a word. -/
  numRealizations : Nat
  deriving DecidableEq, Repr, Inhabited

structure Composition where
  /-- The collection of every draw of every group of an oversampled model. -/
  collections : SortedMap DrawKey CollectionId
  draws : SortedMap GroupId Nat
  models : List ModelSummary
  count : Nat
  deriving DecidableEq

def dropRepeats {α : Type} [DecidableEq α] : List α → List α
  | [] => []
  | [a] => [a]
  | a :: b :: rest => if a = b then dropRepeats (b :: rest) else a :: dropRepeats (b :: rest)

namespace Composition

def empty : Composition := ⟨.empty, .empty, [], 0⟩

instance : Inhabited Composition := ⟨empty⟩

/-! ## Allocation -/

def allocate (n : Nat) (c : Composition) (g : GroupId) : Composition :=
  { c with
    collections := (List.range n).foldl (fun m i => m.insert ⟨g, i⟩ ⟨c.count + i⟩) c.collections
    draws := c.draws.insert g n
    count := c.count + n }

def addModel {S W : Type} (c : Composition) (m : SourceModel S W) : Composition :=
  let ids := m.groups.map SourceGroup.id
  let c := if m.isOversampled then ids.foldl (allocate m.samples) c else c
  { c with models := c.models ++ [⟨m.path, m.name, ids, wrap (m.tree.numPaths * m.samples)⟩] }

def ofModels {S W : Type} (models : List (SourceModel S W)) : Composition := models.foldl addModel empty

/-! ## Questions -/

/-- The largest number of draws of a group of an oversampled model; one if there is none. -/
def maxDraws (c : Composition) : Nat := c.draws.values.max?.getD 1

def numDraws (c : Composition) (g : GroupId) : Nat := (c.draws.get? g).getD 1

def collection? (c : Composition) (g : GroupId) (draw : Nat) : Option CollectionId := c.collections.get? ⟨g, draw⟩

def groupOf (c : Composition) (col : CollectionId) : Except Failure GroupId :=
  match c.collections.toList.find? (fun e => e.2 = col) with
  | some e => .ok e.1.group
  | none => .error (.unknownCollection col)

def collectionsOf (c : Composition) (g : GroupId) : List CollectionId :=
  (c.collections.filter (fun k _ => k.group = g)).values

def triples (c : Composition) : List (GroupId × Nat × CollectionId) :=
  c.collections.toList.map (fun e => (e.1.group, e.1.draw, e.2))

/-- The groups of some collections in the order of the collections, each once where its collections are neighbours. -/
def groupsOf (c : Composition) (cols : List CollectionId) : List GroupId :=
  dropRepeats (cols.filterMap (fun col => (c.groupOf col).toOption))

def groupsAt (c : Composition) (path : List String) : List GroupId :=
  (c.models.filter (fun m => m.path = path)).flatMap ModelSummary.groups

/-! ## Text -/

def modelText (m : ModelSummary) : String :=
  let path := "_".intercalate m.path
  let ids := ", ".intercalate (m.groups.map toString)
  s!"{path}, {m.name}, trt=[{ids}]: {m.numRealizations} realization(s)\n"

def text (c : Composition) : String :=
  "<CompositionInfo\n" ++ "".intercalate (c.models.map modelText) ++ ">"

end Composition

end SeismicHazard
