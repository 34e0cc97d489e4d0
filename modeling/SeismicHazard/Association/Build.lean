import SeismicHazard.Association.Basic
import SeismicHazard.Composite.Basic
import SeismicHazard.LogicTree.Enumeration
import SeismicHazard.LogicTree.Sampling
import SeismicHazard.Random.ChaCha
import SeismicHazard.Sorting
/-!
# Building an association

The source models are taken in the order of their numbers.  The tree of a model is reduced to the tectonic region types
that have a live group, one of positive weight; then its paths are enumerated or drawn, and every path becomes a
realization.  Each group that a path covers lists the realization under the ground motion model that the path chooses
for it.  In the end the weights are made to add up to one.

The models change on the way: a reduced tree stays reduced, and a covered group is told the ground motion models of its
tectonic region type.  What was changed before a failure stays changed.
-/
namespace SeismicHazard

namespace SourceModel

variable {S W : Type} [Scalar W]

/-- The tectonic region types with a group of positive weight. -/
def liveTrts (weight : SourceGroup S → W) (m : SourceModel S W) : SortedSet String :=
  SortedSet.ofList ((m.groups.filter (fun g => Scalar.isPositive (weight g))).map SourceGroup.trt)

def reduceToLive (weight : SourceGroup S → W) (m : SourceModel S W) : SourceModel S W :=
  { m with tree := m.tree.reduce (m.liveTrts weight) }

/-- The paths that become realizations: all of them or, in a sampling, as many as the model has samples, drawn with the
seed of the model. -/
def paths (sampling : SamplingSettings) (m : SourceModel S W) : Except Abort (List (ChoicePath W)) :=
  if sampling.isSampling then
    (m.tree.sample m.samples (Generator.seeded (sampling.seedFor m.ordinal))).map Prod.fst
  else .ok m.tree.enumerate

end SourceModel

namespace Association

variable {S W : Type} [Scalar W]

/-! ## One realization -/

structure Links where
  index : AssocIndex
  collections : SortedSet CollectionId := .empty
  deriving DecidableEq

/-- What linking the groups of a model comes to: the groups, and the links or the reason why there are none. -/
structure Linking (S α : Type) where
  groups : List (SourceGroup S)
  result : Except Failure α

def listUnder (key : AssocKey) (ordinal : Nat) (index : AssocIndex) : AssocIndex :=
  index.update key (fun o => o.getD [] ++ [ordinal])

/-- The collections of a draw with that of a group, which a model that is drawn once does not need. -/
def addCollection (c : Composition) (samples draw : Nat) (g : GroupId) (cols : SortedSet CollectionId) :
    Except Failure (SortedSet CollectionId) :=
  if 1 < samples then
    match c.collection? g draw with
    | some col => .ok (cols.insert col)
    | none => .error (.missingCollection g draw)
  else .ok cols

/-- **Links groups to a path**, one after the other.  A group that the path does not cover is passed over. -/
def linkGroups (c : Composition) (m : SourceModel S W) (draw ordinal : Nat) (p : ChoicePath W) :
    List (SourceGroup S) → Links → Linking S Links
  | [], links => ⟨[], .ok links⟩
  | g :: gs, links =>
    match p.gsim? g.trt with
    | none =>
      let rest := linkGroups c m draw ordinal p gs links
      ⟨g :: rest.groups, rest.result⟩
    | some gsim =>
      let told := { g with gsims := m.tree.values g.trt }
      match addCollection c m.samples draw g.id links.collections with
      | .error f => ⟨told :: gs, .error f⟩
      | .ok collections =>
        let rest := linkGroups c m draw ordinal p gs ⟨listUnder ⟨g.id, gsim⟩ ordinal links.index, collections⟩
        ⟨told :: rest.groups, rest.result⟩

def realizationOf (m : SourceModel S W) (ordinal : Nat) (p : ChoicePath W) (collections : SortedSet CollectionId) :
    Realization W :=
  { ordinal, path := m.path, choice := p, weight := m.weight * p.weight, collections }

def tabulate (p : ChoicePath W) (a : Association W) : Association W :=
  { a with gsimByTrt := a.gsimByTrt ++ [p.choices] }

/-- Adds a realization for each of some paths, the first of which is the given draw.  The choices of a path are entered
before its groups are linked, and the realization is there only when they are. -/
def addPaths (m : SourceModel S W) : List (ChoicePath W) → (draw : Nat) → List (SourceGroup S) → Association W →
    Linking S (Association W)
  | [], _, groups, a => ⟨groups, .ok a⟩
  | p :: ps, draw, groups, a =>
    let ordinal := a.realizations.length
    let a := a.tabulate p
    let linked := linkGroups a.composition m draw ordinal p groups ⟨a.index, .empty⟩
    match linked.result with
    | .error f => ⟨linked.groups, .error f⟩
    | .ok links =>
      let r := realizationOf m ordinal p links.collections
      addPaths m ps (draw + 1) linked.groups
        { a with index := links.index, realizations := a.realizations ++ [r] }

/-! ## One source model -/

def noteModel (model first : Nat) (a : Association W) : Association W :=
  { a with byModel := a.byModel.insert model (first, a.realizations.length) }

/-- Adds the realizations of a model whose tree was reduced.  A model without paths adds nothing. -/
def addModel (sampling : SamplingSettings) (m : SourceModel S W) (a : Association W) :
    SourceModel S W × Except Abort (Association W) :=
  match m.paths sampling with
  | .error e => (m, .error e)
  | .ok [] => (m, .ok a)
  | .ok ps =>
    let linked := addPaths m ps 0 m.groups a
    ({ m with groups := linked.groups }, Abort.lift (linked.result.map (noteModel m.ordinal a.realizations.length)))

/-- Adds the realizations of some models in order.  The models after a failure are left as they are. -/
def addModels (sampling : SamplingSettings) (weight : SourceGroup S → W) : List (SourceModel S W) → Association W →
    List (SourceModel S W) × Except Abort (Association W)
  | [], a => ([], .ok a)
  | m :: ms, a =>
    let (m, added) := addModel sampling (m.reduceToLive weight) a
    match added with
    | .error e => (m :: ms, .error e)
    | .ok a =>
      let (ms, result) := addModels sampling weight ms a
      (m :: ms, result)

/-! ## Weights -/

def reweight (f : W → W) (a : Association W) : Association W :=
  { a with realizations := a.realizations.map (fun r => { r with weight := f r.weight }) }

/-- **Makes the weights add up to one.**  Drawn realizations weigh the same and are as many as were asked for;
enumerated ones are divided by their total, which must not be zero. -/
def normalize (sampling : SamplingSettings) (a : Association W) : Except Failure (Association W) :=
  if sampling.isSampling then
    if a.realizations.length = sampling.count then
      .ok (a.reweight (fun _ => Scalar.one / Scalar.ofNat sampling.count))
    else .error (.sampleCount sampling.count a.realizations.length)
  else
    let total := Scalar.sum (a.realizations.map Realization.weight)
    if Scalar.isZero total then .error .noViableRealizations else .ok (a.reweight (fun w => w / total))

end Association

/-! ## All source models -/

namespace Composite

variable {S W : Type}

/-- The source models with their positions, in the order of their numbers; models with one number keep their order. -/
def byOrdinal (models : List (SourceModel S W)) : List (SourceModel S W × Nat) :=
  sortBy (fun a b => decide (a.1.ordinal ≤ b.1.ordinal)) models.zipIdx

def byPosition (models : List (SourceModel S W × Nat)) : List (SourceModel S W) :=
  (sortBy (fun a b => decide (a.2 ≤ b.2)) models).map Prod.fst

/-- **Builds the association**, with a weight that tells the live groups, and gives back the changed composite. -/
def associateBy [Scalar W] (weight : SourceGroup S → W) (c : Composite S W) :
    Composite S W × Except Abort (Association W) :=
  let ordered := byOrdinal c.models
  let (models, added) :=
    Association.addModels c.sampling weight (ordered.map Prod.fst) (Association.empty c.composition)
  ({ c with models := byPosition (models.zip (ordered.map Prod.snd)) },
    added.bind (fun a => Abort.lift (a.normalize c.sampling)))

/-- The weight of a group: its rupture count. -/
def ruptureCount [Scalar W] (g : SourceGroup S) : W := Scalar.ofNat g.ruptures

/-- **Builds the association**; the live groups are those with ruptures, which are counted if they were not. -/
def associate [Scalar W] [Source S] (c : Composite S W) : Composite S W × Except Abort (Association W) :=
  (c.countRuptures false).associateBy ruptureCount

end Composite

end SeismicHazard
