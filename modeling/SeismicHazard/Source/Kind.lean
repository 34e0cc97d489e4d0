import SeismicHazard.Json.Basic
/-!
# Kinds — the typologies of seismic sources

The kind of a source decides two things: whether it is cheap or expensive to filter and split, and how much one of its
ruptures weighs.
-/
namespace SeismicHazard

inductive CostClass where
  | light
  | heavy
  deriving DecidableEq, Repr, Inhabited

def CostClass.name : CostClass → String
  | .light => "Light"
  | .heavy => "Heavy"

inductive SourceKind where
  | point
  | area
  | simpleFault
  | complexFault
  | characteristic
  | nonParametric
  deriving DecidableEq, Repr, Inhabited

namespace SourceKind

def all : List SourceKind := [.point, .area, .simpleFault, .complexFault, .characteristic, .nonParametric]

def costClass : SourceKind → CostClass
  | .point => .light
  | .area => .light
  | _ => .heavy

def ruptureWeight : SourceKind → Float
  | .point => 1 / 40
  | _ => 1

def name : SourceKind → String
  | .point => "Point"
  | .area => "Area"
  | .simpleFault => "SimpleFault"
  | .complexFault => "ComplexFault"
  | .characteristic => "Characteristic"
  | .nonParametric => "NonParametric"

def sourceName : SourceKind → String
  | .point => "PointSource"
  | .area => "AreaSource"
  | .simpleFault => "SimpleFaultSource"
  | .complexFault => "ComplexFaultSource"
  | .characteristic => "CharacteristicFaultSource"
  | .nonParametric => "NonParametricSeismicSource"

def ofName? (s : String) : Option SourceKind := all.find? (fun k => k.name = s)

/-- The kind in a document value: its name, or an object with the name as its one member and no value. -/
def ofJson? : Json → Option SourceKind
  | .string (some s) => ofName? s
  | .object [(some s, .null)] => ofName? s
  | _ => none

end SourceKind

end SeismicHazard
