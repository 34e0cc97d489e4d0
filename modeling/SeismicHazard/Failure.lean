import SeismicHazard.Identifier
import SeismicHazard.Text.Quoted
/-!
# Failure — what can go wrong

Every operation that can fail says why with a `Failure`.  The cause is data; the wording is in `Failure.message` and the
functions beside it.  A computation may also be aborted without a cause, when a source breaks down or when a path is
drawn from a branch set without branches; `Abort` is either of the two.
-/
namespace SeismicHazard

inductive TreeFault where
  | repeatedSet (trt : String)
  | emptySet (trt : String)
  | branchWeight (branch : String) (weight : String)
  | setWeight (trt : String) (total : String)
  | other (reason : String)
  deriving DecidableEq, Repr

inductive SettingsFault where
  | notPositive (field : String) (value : String)
  | neverSampled (model : String)
  /-- A source model has a negative, infinite or undefined weight. -/
  | modelWeight (model : String) (weight : String)
  /-- A source model is sampled several times although the logic tree is enumerated. -/
  | sampledInEnumeration (model : String) (samples : Nat)
  /-- The samples of the source models do not add up to the number of samples. -/
  | sampleTotal (total : Nat) (expected : Nat)
  /-- A realization does not stand at the position that its ordinal names. -/
  | misplacedRealization (position : Nat) (ordinal : Nat)
  | unknownRealization (key : AssocKey)
  | other (reason : String)
  deriving DecidableEq, Repr

inductive Failure where
  /-- Two sources of a model or group have one identifier. -/
  | repeatedId (source : String) (scope : String)
  /-- A source is offered to a group of another tectonic region type. -/
  | foreignTrt (expected : String) (found : String) (source : String)
  | noViableRealizations
  /-- The number of realizations is not the number of samples. -/
  | sampleCount (expected : Nat) (actual : Nat)
  | missingCollection (group : GroupId) (draw : Nat)
  | unknownCollection (collection : CollectionId)
  | malformedTag (tag : String)
  | tree (fault : TreeFault)
  | settings (fault : SettingsFault)
  | filtering (source : String) (reason : String)
  | splitting (source : String) (reason : String)
  | workers (reason : String)
  | telemetry (reason : String)
  | unreadable
  /-- A document is malformed or does not have the expected content. -/
  | document
  deriving DecidableEq, Repr

def TreeFault.message : TreeFault → String
  | .repeatedSet trt => s!"duplicated branch set for {trt}"
  | .emptySet trt => s!"empty branch set for {trt}"
  | .branchWeight branch weight => s!"branch {branch} has invalid weight {weight}"
  | .setWeight trt total => s!"branch weights for {trt} sum to {total}, not 1"
  | .other reason => reason

def SettingsFault.message : SettingsFault → String
  | .notPositive field value => s!"{field} must be positive, got {value}"
  | .neverSampled model => s!"source model {model} must be sampled at least once"
  | .modelWeight model weight => s!"source model {model} has invalid weight {weight}"
  | .sampledInEnumeration model samples =>
    s!"source model {model} has {samples} samples but the logic tree is enumerated"
  | .sampleTotal total expected => s!"source model samples add up to {total}, expected {expected}"
  | .misplacedRealization position ordinal => s!"realization at position {position} has ordinal {ordinal}"
  | .unknownRealization key => s!"key {key} refers to an unknown realization"
  | .other reason => reason

namespace Failure

/-- The wording of a failure.  The last two have no wording of their own: what is shown is the reason that the file or
the document gave. -/
def message : Failure → String
  | .repeatedId source scope => s!"the source ID {source} is duplicated in {scope}"
  | .foreignTrt expected found source =>
    s!"tectonic region type mismatch: group is {expected}, source {source} is {found}"
  | .noViableRealizations => "all realizations have zero weight"
  | .sampleCount expected actual => s!"expected {expected} sampled realizations, got {actual}"
  | .missingCollection group draw => s!"no collection for group {group}, sample {draw}"
  | .unknownCollection collection => s!"there is no group associated to the collection {collection}"
  | .malformedTag tag => "malformed collection tag: " ++ quoted tag
  | .tree fault => "invalid logic tree: " ++ fault.message
  | .settings fault => "configuration error: " ++ fault.message
  | .filtering source reason => s!"filtering of source {source} failed: {reason}"
  | .splitting source reason => s!"splitting of source {source} failed: {reason}"
  | .workers reason => "worker pool error: " ++ reason
  | .telemetry reason => "metrics error: " ++ reason
  | .unreadable => "io error"
  | .document => "serialization error"

def isTaskFailure : Failure → Bool
  | .filtering _ _ => true
  | .splitting _ _ => true
  | _ => false

end Failure

/-- How a computation ends without a value. -/
inductive Abort where
  | failed (why : Failure)
  | crashed
  deriving DecidableEq, Repr

namespace Abort

/-- A computation that can only fail for a reason, among those that may break down. -/
def lift {α : Type} : Except Failure α → Except Abort α
  | .ok a => .ok a
  | .error f => .error (.failed f)

/-- Whether it halts tasks that run apart: a failure is told to all of them, a break-down is not. -/
def halts : Abort → Bool
  | failed _ => true
  | crashed => false

end Abort

end SeismicHazard
