import SeismicHazard.Capacity
import SeismicHazard.Number.Natural
import SeismicHazard.Number.Binary
import SeismicHazard.Source.Basic
/-!
# Strips — sources that are cut to length

A strip is a source with a fixed number of ruptures and a length.  It is split into equal pieces no longer than the
discretization, and its ruptures are shared out among them; it breaks down when there are more pieces than memory
holds.  A strip may also be made to break down, to fail, to split into given sources or to move to another tectonic
region type when it is split.
-/
namespace SeismicHazard

/-- A source of a given length. -/
structure Strip where
  id : String
  trt : String
  kind : SourceKind := .simpleFault
  magnitudes : Float × Float := (5, 7)
  ruptures : Nat := 1
  extent : Float := 10
  distances : List Float := [0]
  filterFault : Option String := none
  splitFault : Option String := none
  splitTrt : Option String := none
  parts : Option (List Strip) := none
  breaks : Bool := false
  weight : Float := 0
  tag : Option GroupId := none
  deriving Inhabited

namespace Strip

def pieceCount (s : Strip) (d : Float) : Nat := max (Binary.ceiling (wordBound - 1) (Binary.ofFloat (s.extent / d))) 1

def piece (s : Strip) (n i : Nat) : Strip :=
  { s with id := s!"{s.id}:{i}", ruptures := max (s.ruptures / n) 1, extent := s.extent / Float.ofNat n }

/-- The pieces no longer than `d`; a strip that is short enough is its own one piece. -/
def pieces (s : Strip) (d : Float) : List Strip :=
  let n := s.pieceCount d
  if n = 1 then [s] else (List.range n).map (s.piece n)

def split (s : Strip) (d : Float) : Except Abort (List Strip) :=
  if s.breaks then .error .crashed
  else
    match s.splitFault with
    | some reason => .error (.failed (.splitting s.id reason))
    | none =>
      match s.parts with
      | some parts => .ok parts
      | none =>
        (Capacity.check (s.pieceCount d)).map (fun _ =>
          match s.splitTrt with
          | some trt => (s.pieces d).map (fun p => { p with trt })
          | none => s.pieces d)

instance : Source Strip where
  id := Strip.id
  trt := Strip.trt
  kind := Strip.kind
  magnitudes := Strip.magnitudes
  ruptures := Strip.ruptures
  split := Strip.split
  setWeight s weight := { s with weight }
  tag? := Strip.tag
  setTag s g := { s with tag := some g }

def sitesWithin (s : Strip) (d : Float) : Except Failure (List Nat) :=
  match s.filterFault with
  | some reason => .error (.filtering s.id reason)
  | none => .ok ((s.distances.zipIdx.filter (fun p => decide (p.1 ≤ d))).map Prod.snd)

end Strip

end SeismicHazard
