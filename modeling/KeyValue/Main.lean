import KeyValue.Connection
import KeyValue.Display
import KeyValue.Replication.Id
import KeyValue.Wire.ReplyReader
import Std.Time.DateTime.Timestamp

/-!
# The command line

* `serve` serves one client on the standard streams until its input ends.
* `request` writes a command in its wire form.
* `show` reads a reply and shows it; the exit code is one if it reports a failure.

The three work together in a pipeline: `request GET key`, then `serve`, then `show`.
-/

namespace KeyValue

namespace CommandLine

/-- How the program is used. -/
def usage : String :=
  "usage: serve [--dir DIRECTORY] [--dbfilename NAME] | request WORD... | show"

/-- The configuration that options ask for, or none if they are not understood. -/
def configOf (config : Config) : List String → Option Config
  | [] => some config
  | "--dir" :: snapshotDirectory :: rest => configOf { config with snapshotDirectory } rest
  | "--dbfilename" :: snapshotName :: rest => configOf { config with snapshotName } rest
  | _ => none

/-- The time of day, in Unix milliseconds. -/
def currentTime : IO UInt64 := do
  let timestamp ← Std.Time.Timestamp.now
  return UInt64.ofNat timestamp.toMillisecondsSinceUnixEpoch.toInt.toNat

/-- What a path leads to at the moment. -/
def fileAt (path : String) : IO Snapshot.File := do
  try
    return .regular (← IO.FS.readBinFile path).toList
  catch
    | .noFileOrDirectory .. => return .missing
    | _ => return .directory

/-- A replication id, drawn at random. -/
def drawReplicationId : IO String := do
  let source ← IO.stdGenRef.get
  let (id, source) := ReplicationId.generate source
  IO.stdGenRef.set source
  return id

/-- Hand out what was written to the client. -/
def deliver (connection : Connection) (engine : Engine) : IO Engine := do
  let (bytes, links) := engine.links.collect connection.link
  let output ← IO.getStdout
  output.write (ByteArray.mk bytes.toArray)
  output.flush
  return { engine with links }

/-- Wait for the command that waits. A single client that waits forever is not served any more,
    since nobody is left who could wake it. -/
partial def settle (connection : Connection) (engine : Engine) :
    IO (Option (Connection × Engine)) := do
  let engine ← deliver connection engine
  if connection.suspended.isNone then return some (connection, engine)
  match connection.deadline? with
  | none => return none
  | some deadline =>
    IO.sleep (UInt32.ofNat (min (deadline - (← currentTime).toNat) (UInt32.size - 1)))
    let now ← currentTime
    if now.toNat < deadline then settle connection engine
    else
      let (connection, engine) := connection.giveUp engine now
      settle connection engine

/-- Serve the client until its input ends. -/
partial def serveFrom (connection : Connection) (engine : Engine) : IO Unit := do
  let chunk ← (← IO.getStdin).read (USize.ofNat Connection.chunkSize)
  if chunk.isEmpty then return
  let file ← fileAt engine.config.snapshotPath
  let (connection, engine) :=
    connection.receive { engine with file } (← currentTime) chunk.toList
  match ← settle connection engine with
  | none => return
  | some (connection, engine) => serveFrom connection engine

/-- Serve one client on the standard streams. -/
def serve (config : Config) : IO Unit := do
  let engine := Engine.start config .missing (← drawReplicationId)
  let (connection, engine) := Connection.opened engine
  serveFrom connection engine

/-- Write a command in its wire form. -/
def request (words : List String) : IO Unit := do
  let output ← IO.getStdout
  output.write (ByteArray.mk (Wire.request words).toArray)
  output.flush

/-- Read a reply and show it; the result is the exit code. -/
def showReply : IO UInt32 := do
  let input ← (← IO.getStdin).readBinToEnd
  match Reply.read input.toList with
  | (.ok reply, _) =>
    IO.print (Display.text reply)
    return if reply.isError then 1 else 0
  | (.error e, _) =>
    IO.eprintln ("Error: " ++ e.message)
    return 1

end CommandLine

end KeyValue

open KeyValue in
/-- Do what the arguments ask for. -/
def main (arguments : List String) : IO UInt32 := do
  match arguments with
  | "serve" :: options =>
    match CommandLine.configOf {} options with
    | some config =>
      CommandLine.serve config
      return 0
    | none =>
      IO.eprintln CommandLine.usage
      return 2
  | "request" :: word :: words =>
    CommandLine.request (word :: words)
    return 0
  | ["show"] => CommandLine.showReply
  | _ =>
    IO.eprintln CommandLine.usage
    return 2
