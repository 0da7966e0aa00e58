/-!
# Numbers in bytes

The number that some bytes stand for when the lowest comes first.
-/

namespace PolledUart.Log

/-- The number that some bytes stand for, the lowest first. -/
def ofLittleEndian (bytes : List UInt8) : Nat :=
  bytes.foldr (fun b n => b.toNat + 0x100 * n) 0

end PolledUart.Log
