import KeyValue.Snapshot.Reader

/-!
# The snapshot file

A server may have a snapshot file that it never writes. Keys that the keyspace does not hold are
looked up there, and the file is read anew for each look-up, so a damaged file makes every such
look-up fail.

## Main definitions

* `Snapshot.File`: What the path of the snapshot file leads to.
* `Snapshot.File.lookup?`: Finds a key.
* `Snapshot.File.keys`: Lists the keys.
-/

namespace KeyValue

namespace Snapshot

/-- What the path of the snapshot file leads to. -/
inductive File where
  | missing
  | directory
  | regular (content : Bytes)
  deriving DecidableEq, Repr, Inhabited

namespace File

/-- Every key in the file; a missing file has none. -/
def entries : File → Except Error (List Entry)
  | missing => .ok []
  | directory => .error (.io "Is a directory (os error 21)")
  | regular content => Snapshot.entries content

/-- The first entry of a key that is not expired at the time `now`. -/
def lookup? (file : File) (now : UInt64) (key : String) : Except Error (Option Entry) :=
  file.entries.map (·.find? fun entry => entry.key == key && !entry.isExpired now)

/-- The keys that are not expired at the time `now`, in the order of the file. -/
def keys (file : File) (now : UInt64) : Except Error (List String) :=
  file.entries.map fun entries =>
    (entries.filter fun entry => !entry.isExpired now).map (·.key)

end File

end Snapshot

end KeyValue
