import SeismicHazard.Failure
import SeismicHazard.Source.Kind
/-!
# Sources — what is asked of a seismic source

The physics of a source is opaque.  It has an identifier, a tectonic region type, a kind, a magnitude range and a number
of ruptures; it can be split into smaller sources; it stores a weight and, if it wants to, the group it belongs to.
-/
namespace SeismicHazard

/-- Types of seismic sources. -/
class Source (S : Type) where
  id : S → String
  trt : S → String
  kind : S → SourceKind
  magnitudes : S → Float × Float
  ruptures : S → Nat
  /-- The parts of the source at a discretization. -/
  split : S → Float → Except Abort (List S)
  setWeight : S → Float → S
  tag? : S → Option GroupId := fun _ => none
  /-- Tags the source; sources that keep no tag ignore it. -/
  setTag : S → GroupId → S := fun s _ => s

/-- The computational weight of a source: its ruptures, counted anew where no positive number is given, times the weight
of one. -/
def sourceWeight {S : Type} [Source S] (source : S) (ruptures : Option Nat) : Float :=
  let n := match ruptures with
    | some n => if 0 < n then n else Source.ruptures source
    | none => Source.ruptures source
  Float.ofNat n * (Source.kind source).ruptureWeight

structure Untagged (S : Type) where
  source : S

instance {S : Type} [Source S] : Source (Untagged S) where
  id u := Source.id u.source
  trt u := Source.trt u.source
  kind u := Source.kind u.source
  magnitudes u := Source.magnitudes u.source
  ruptures u := Source.ruptures u.source
  split u d := (Source.split u.source d).map (List.map Untagged.mk)
  setWeight u w := ⟨Source.setWeight u.source w⟩

end SeismicHazard
