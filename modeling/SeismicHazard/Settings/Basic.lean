import SeismicHazard.Failure
import SeismicHazard.Number.Layout
/-!
# Settings — the configuration of a calculation

How the logic tree is sampled and how sources are filtered and split.  No samples means that the tree is enumerated.
Counts and seeds are 64-bit words, and the seed of a source model wraps around.
-/
namespace SeismicHazard

structure SamplingSettings where
  /-- The seed that the seeds of all source models derive from. -/
  seed : UInt64 := 42
  /-- The number of realizations to draw; zero for all of them, each once. -/
  samples : UInt64 := 0
  deriving DecidableEq, Repr, Inhabited

namespace SamplingSettings

def isSampling (s : SamplingSettings) : Bool := s.samples ≠ 0

def count (s : SamplingSettings) : Nat := s.samples.toNat

def seedFor (s : SamplingSettings) (ordinal : Nat) : UInt64 := s.seed + UInt64.ofNat ordinal

end SamplingSettings

structure ProcessingSettings where
  /-- The largest distance between a source and a site that it affects, in km. -/
  maximumDistance : Float := 200
  /-- The size of the pieces that sources are split into, in km. -/
  discretization : Float := 10
  /-- The number of workers; zero for one for each processor. -/
  workers : UInt64 := 0
  deriving DecidableEq, Repr, Inhabited

namespace ProcessingSettings

def isPositiveDistance (x : Float) : Bool := x.isFinite && decide (0 < x)

def validate (s : ProcessingSettings) : Except Failure Unit :=
  if !isPositiveDistance s.maximumDistance then
    .error (.settings (.notPositive "maximum_distance" (Layout.plain.text s.maximumDistance)))
  else if !isPositiveDistance s.discretization then
    .error (.settings (.notPositive "area_source_discretization" (Layout.plain.text s.discretization)))
  else .ok ()

/-- Whether two processing sections have distances that compare equal and as many workers. -/
def agrees (a b : ProcessingSettings) : Bool :=
  a.maximumDistance.beq b.maximumDistance && a.discretization.beq b.discretization && decide (a.workers = b.workers)

end ProcessingSettings

structure Settings where
  sampling : SamplingSettings := {}
  processing : ProcessingSettings := {}
  deriving DecidableEq, Repr, Inhabited

namespace Settings

/-- Whether two configurations have equal seeds and counts, and distances that compare equal. -/
def agrees (a b : Settings) : Bool := decide (a.sampling = b.sampling) && a.processing.agrees b.processing

def validate (s : Settings) : Except Failure Unit := s.processing.validate

end Settings

end SeismicHazard
