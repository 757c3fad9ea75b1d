/-!
# Words

Counts that come from outside or leave the library in milliseconds fit into 64 bits.
-/

namespace RecencyCache

/-- The largest number that a 64-bit word holds. -/
def largestWord : Nat := 0xFFFFFFFFFFFFFFFF

end RecencyCache
