import SeismicHazard.Failure
import SeismicHazard.Number.Natural
/-!
# Capacity — lists that no memory holds

A list whose length is asked for from outside is made only if memory can hold it.  Asking for a longer one is a
break-down, and nothing of it is made.
-/
namespace SeismicHazard

namespace Capacity

/-- The length from which on no memory holds a list. -/
def bound : Nat := twoTo 48

def check (length : Nat) : Except Abort Unit := if length < bound then .ok () else .error .crashed

end Capacity

end SeismicHazard
