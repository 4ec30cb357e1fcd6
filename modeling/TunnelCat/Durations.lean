/-!
The units of Go's `time.Duration`, in nanoseconds. A clock is an integer or, where nothing is subtracted
from it, a natural number.
-/
namespace TunnelCat.Durations
universe u
variable {α : Type u}

def millisecond [OfNat α 1000000] : α := 1000000

def second [OfNat α 1000000000] : α := 1000000000

def minute [OfNat α 60000000000] : α := 60000000000

def hour [OfNat α 3600000000000] : α := 3600000000000

end TunnelCat.Durations
