import KeyValue.Error
import KeyValue.Text.Decimal
import KeyValue.Text.Word

/-!
# Configuration

What a server is told at its start: where it listens, how long it waits for its peers, which
master it replicates, if any, and where its snapshot file is.

## Main definitions

* `MasterAddress`: The address of a master.
* `MasterAddress.ofText`: An address from its two words.
* `Config`: The configuration, with its defaults.
* `Config.snapshotPath`: The path of the snapshot file.
-/

namespace KeyValue

/-- The address of a master. -/
structure MasterAddress where
  host : String
  port : UInt16
  deriving DecidableEq, Repr, Inhabited

namespace MasterAddress

/-- An address from two words, a host and a port. -/
def ofText (text : String) : Except Error MasterAddress :=
  match Text.words text with
  | [host, port] =>
    match Decimal.bounded? (UInt16.size - 1) port.toList with
    | some number => .ok ⟨host, UInt16.ofNat number⟩
    | none => .error (.config s!"invalid master port '{port}'")
  | _ => .error (.config s!"replicaof expects '<host> <port>', got '{text}'")

/-- The two words of an address. -/
def text (address : MasterAddress) : String :=
  address.host ++ " " ++ Nat.repr address.port.toNat

/-- The address in the form that connections are opened with. -/
def endpoint (address : MasterAddress) : String :=
  address.host ++ ":" ++ Nat.repr address.port.toNat

end MasterAddress

/-- What a server is told at its start. -/
structure Config where
  bindHost : String := "127.0.0.1"
  /-- The port to listen on; zero lets the system choose. -/
  port : UInt16 := 6379
  /-- How many clients are served at the same time. -/
  maxConnections : Nat := 1024
  /-- How long a silent client is kept, in milliseconds; zero means forever. -/
  readTimeout : UInt64 := 0
  /-- How long a write may take, in milliseconds; zero means forever. -/
  writeTimeout : UInt64 := 5000
  /-- The master to replicate; a server without one is a master. -/
  replicaOf : Option MasterAddress := none
  snapshotDirectory : String := "."
  snapshotName : String := "dump.rdb"
  deriving DecidableEq, Repr, Inhabited

namespace Config

/-- The address to listen on. -/
def listenEndpoint (config : Config) : String :=
  config.bindHost ++ ":" ++ Nat.repr config.port.toNat

/-- A file name within a directory; an absolute name stands for itself. -/
def joinPath (directory name : String) : String :=
  if name.toList.head? = some '/' then name
  else if directory.isEmpty || directory.toList.getLast? = some '/' then directory ++ name
  else directory ++ "/" ++ name

/-- The path of the snapshot file. -/
def snapshotPath (config : Config) : String :=
  joinPath config.snapshotDirectory config.snapshotName

end Config

end KeyValue
