import KeyValue.Text.Word
import KeyValue.Wire.ReplyReader
import KeyValue.Wire.Framer
import KeyValue.Keyspace
import KeyValue.Snapshot.Source
import KeyValue.Text.Quoted
import KeyValue.Glob
import KeyValue.Config
import KeyValue.Transaction
import KeyValue.Readers
import KeyValue.Replication.Master
import KeyValue.Replication.Replica
import KeyValue.Replication.Handshake
import KeyValue.Replication.Id
import KeyValue.Request
import KeyValue.Role
import KeyValue.Execution.Keys
import KeyValue.Execution.Streams
import KeyValue.Execution.Reports
import KeyValue.Engine
import KeyValue.Session
import KeyValue.Waiting
import KeyValue.Dispatch
import KeyValue.Connection
import KeyValue.Replication.Following
import KeyValue.Server
import KeyValue.Display
import KeyValue.Main
import KeyValue.Proofs.Framing.Buffering
import KeyValue.Proofs.Framing.Segmentation
import KeyValue.Proofs.Keyspace.Contents
import KeyValue.Proofs.Keyspace.Writes
import KeyValue.Proofs.Engine.Requests
import KeyValue.Proofs.Framing.Frames
import KeyValue.Proofs.Engine.Dispatching
import KeyValue.Proofs.Engine.Reachable
import KeyValue.Proofs.Replication.Replaying
import KeyValue.Proofs.Replication.Simulation
import KeyValue.Proofs.Sessions.Threads
import KeyValue.Proofs.Replication.Propagation
import KeyValue.Proofs.Keyspace.Streams
import KeyValue.Proofs.Sessions.Traffic
import KeyValue.Proofs.Sessions.Waking
import KeyValue.Proofs.Wire.Codec
import KeyValue.Proofs.Framing.Encoding
import KeyValue.Proofs.Engine.Answers
import KeyValue.Proofs.Sessions.Conversation
import KeyValue.Proofs.Sessions.Storing
import KeyValue.Proofs.Replication.Resyncing
import KeyValue.Proofs.Framing.Spelling
import KeyValue.Proofs.Sessions.Pipelining
import KeyValue.Proofs.Sessions.Aiming
import KeyValue.Proofs.Sessions.Booking
import KeyValue.Proofs.Engine.Queueing
import KeyValue.Proofs.Sessions.Transacting
import KeyValue.Proofs.Engine.Using
import KeyValue.Proofs.Replication.Withholding
import KeyValue.Proofs.Replication.Redating
import KeyValue.Proofs.Replication.Reporting
import KeyValue.Proofs.Sessions.Isolating
import KeyValue.Proofs.Sessions.Interleaving
import KeyValue.Proofs.Sessions.Enrolling
import KeyValue.Proofs.Replication.Greeting
import KeyValue.Proofs.Snapshot.Decoding
import KeyValue.Proofs.Engine.Lookups
import KeyValue.Proofs.Engine.Loading
import KeyValue.Proofs.Keyspace.Ledger
import KeyValue.Proofs.Text.Matching
import KeyValue.Proofs.Framing.Overlong
import KeyValue.Proofs.Engine.Chronicle
import KeyValue.Proofs.Engine.Tailing
import KeyValue.Proofs.Framing.Accounting
import KeyValue.Proofs.Engine.Refusing
import KeyValue.Proofs.Stream.Choosing
import KeyValue.Proofs.Engine.Stalling
import KeyValue.Proofs.Replication.Exchanging
import KeyValue.Proofs.Stream.Ranges
import KeyValue.Proofs.Engine.Direct
import KeyValue.Proofs.Engine.Ranging
import KeyValue.Proofs.Keyspace.Canonical
import KeyValue.Proofs.Engine.Incrementing
import KeyValue.Proofs.Sessions.Sequencing
import KeyValue.Proofs.Framing.Registers
import KeyValue.Proofs.Sessions.Serving
import KeyValue.Proofs.Text.Globbing
import KeyValue.Proofs.Keyspace.Slicing
import KeyValue.Proofs.Engine.Indexing
import KeyValue.Proofs.Engine.Bounding
import KeyValue.Proofs.Sessions.Admitting
