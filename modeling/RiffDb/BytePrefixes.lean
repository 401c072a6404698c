import RiffDb.OrderedBytes

/-!
# Byte strings with a common beginning

In the order of byte strings, those that start with given bytes lie between these bytes and their
exclusive end; bytes without such an end are the beginning of everything that is not below them.
-/

namespace BytePrefixes

open ByteWire List

/-- The first byte string after all those that start with the given bytes. -/
def exclusivePrefixEnd : Bytes → Option Bytes
  | [] => none
  | byte :: rest =>
    match exclusivePrefixEnd rest with
    | some stop => some (byte :: stop)
    | none => if byte ≠ 0xff then some [byte + 1] else none

variable {stop : Bytes}

end BytePrefixes
