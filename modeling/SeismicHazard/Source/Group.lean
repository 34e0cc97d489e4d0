import SeismicHazard.Number.Natural
import SeismicHazard.Source.Basic
/-!
# Groups — sources of one tectonic region type

A group keeps its sources in order, with the envelope of their magnitudes and a count of their ruptures that is taken
when it is first asked for.  Sources enter one by one, or all at once in place of the old ones; both ways refuse a
source of another tectonic region type, and the second one also a repeated identifier.
-/
namespace SeismicHazard

/-- Sources of one tectonic region type. -/
structure SourceGroup (S : Type) where
  id : GroupId := ⟨0⟩
  trt : String
  sources : List S := []
  /-- The number of ruptures; zero when they were not counted. -/
  ruptures : Nat := 0
  minMag : Option Float := none
  maxMag : Option Float := none
  /-- The ground motion models of the tectonic region type. -/
  gsims : List String := []
  deriving DecidableEq, Inhabited

/-- The smaller of two magnitudes; an undefined one gives way, and of two that compare equal the second is taken. -/
def lesserMag (a b : Float) : Float := if a.isNaN || decide (b ≤ a) then b else a

/-- The larger of two magnitudes; an undefined one gives way, and of two that compare equal the second is taken. -/
def greaterMag (a b : Float) : Float := if a.isNaN || decide (a ≤ b) then b else a

namespace SourceGroup

variable {S : Type}

def size (g : SourceGroup S) : Nat := g.sources.length

def isEmpty (g : SourceGroup S) : Bool := g.sources.isEmpty

def order (a b : SourceGroup S) : Ordering := (compare a.size b.size).then (compare a.trt b.trt)

def le (a b : SourceGroup S) : Bool := (a.order b).isLE

def skeleton (g : SourceGroup S) : SourceGroup S := { g with sources := [] }

def text (g : SourceGroup S) : String :=
  s!"<SourceGroup #{g.id} {g.trt}, {g.size} source(s), {g.ruptures} rupture(s)>"

section Sources

variable [Source S]

/-! ## One source at a time -/

def foreign (g : SourceGroup S) (s : S) : Failure := .foreignTrt g.trt (Source.trt s) (Source.id s)

/-- Adds a source of the right tectonic region type and widens the magnitude range. -/
def push (g : SourceGroup S) (s : S) : SourceGroup S :=
  let (least, greatest) := Source.magnitudes s
  { g with
    sources := g.sources ++ [s]
    minMag := if g.minMag.all (fun m => decide (least < m)) then some least else g.minMag
    maxMag := if g.maxMag.all (fun m => decide (m < greatest)) then some greatest else g.maxMag }

/-- **Adds a source**, if it has the tectonic region type of the group. -/
def update (g : SourceGroup S) (s : S) : Except Failure (SourceGroup S) :=
  if Source.trt s ≠ g.trt then .error (g.foreign s) else .ok (g.push s)

def ofSources (trt : String) (sources : List S) : Except Failure (SourceGroup S) :=
  sources.foldlM update { trt }

/-! ## All sources at once -/

def fault? (g : SourceGroup S) (seen : List String) : List S → Option Failure
  | [] => none
  | s :: rest =>
    if Source.trt s ≠ g.trt then some (g.foreign s)
    else if Source.id s ∈ seen then some (.repeatedId (Source.id s) s!"group {g.id}")
    else g.fault? (Source.id s :: seen) rest

def checkReplacement (g : SourceGroup S) (sources : List S) : Except Failure Unit :=
  match g.fault? [] sources with
  | some f => .error f
  | none => .ok ()

def setSources (g : SourceGroup S) (sources : List S) : SourceGroup S :=
  let mags := sources.map Source.magnitudes
  { g with
    sources
    minMag := mags.foldl (fun acc m => some (acc.elim m.1 (fun least => lesserMag least m.1))) none
    maxMag := mags.foldl (fun acc m => some (acc.elim m.2 (fun greatest => greaterMag greatest m.2))) none }

/-- **Replaces the sources**, if the new ones may replace them, and gives back the old ones. -/
def replaceSources (g : SourceGroup S) (sources : List S) : Except Failure (List S × SourceGroup S) :=
  (g.checkReplacement sources).map (fun _ => (g.sources, g.setSources sources))

/-! ## Ruptures and tags -/

def totalRuptures (g : SourceGroup S) : Nat := wordTotal (g.sources.map Source.ruptures)

/-- Counts the ruptures, if they were not counted or if a new count is asked for. -/
def countRuptures (force : Bool) (g : SourceGroup S) : SourceGroup S :=
  if g.ruptures = 0 || force then { g with ruptures := g.totalRuptures } else g

def tagSources (g : SourceGroup S) : SourceGroup S :=
  { g with sources := g.sources.map (fun s => Source.setTag s g.id) }

end Sources

end SourceGroup

end SeismicHazard
