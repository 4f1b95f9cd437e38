/-!
# Limits of the wire protocol

A peer announces lengths before it sends what they measure, so both readers refuse a length that
no honest peer needs before they wait for anything.

## Main definitions

* `Wire.maxBulkLength`: The longest bulk string.
* `Wire.maxArrayLength`: The most elements of an array.
* `Wire.maxLineLength`: The longest unfinished line.
-/

namespace KeyValue

namespace Wire

/-- The longest bulk string, in bytes: 512 MiB. -/
def maxBulkLength : Nat := 512 * 1024 * 1024

/-- The most elements of an array. -/
def maxArrayLength : Nat := 1024 * 1024

/-- The most bytes of a header or command line that are kept while its line feed is missing. -/
def maxLineLength : Nat := 64 * 1024

end Wire

end KeyValue
