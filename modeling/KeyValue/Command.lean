import KeyValue.Text.Word
import KeyValue.Wire.Reply

/-!
# Commands

The server knows eighteen commands. A table gives, for each of them, whether it may change the
keyspace and how many arguments it takes. Some commands act on the connection that sends them
instead of the keyspace: they open and close transactions or belong to replication.

A command keeps the bytes it was read from, because a master forwards a write to its replicas
byte for byte.

## Main definitions

* `CommandName`: The commands, by name.
* `CommandName.ofText?`: The command that a word names, in any letter case.
* `Arity`: The argument counts that a command accepts.
* `Command`: A command with its arguments and its bytes.
-/

namespace KeyValue

/-- The commands, by name. -/
inductive CommandName where
  | ping | echo | set | get | incr | type | keys | info | config
  | multi | exec | discard | replconf | psync | wait
  | xadd | xrange | xread
  deriving DecidableEq, Repr, Inhabited

/-- Whether a command may change the keyspace. -/
inductive CommandKind where
  | read
  | write
  deriving DecidableEq, Repr, Inhabited

/-- The argument counts that a command accepts, its name not counted. -/
inductive Arity where
  | exactly (count : Nat)
  | atLeast (count : Nat)
  /-- Both ends included. -/
  | between (least most : Nat)
  deriving DecidableEq, Repr, Inhabited

/-- Whether a number of arguments is accepted. -/
def Arity.accepts (arity : Arity) (count : Nat) : Bool :=
  match arity with
  | exactly n => count == n
  | atLeast n => n ≤ count
  | between least most => least ≤ count && count ≤ most

namespace CommandName

/-- Every command. -/
def all : List CommandName :=
  [ping, echo, set, get, incr, type, keys, info, config, multi, exec, discard, replconf, psync,
    wait, xadd, xrange, xread]

/-- The canonical spelling of a command name. -/
def text : CommandName → String
  | ping => "PING"
  | echo => "ECHO"
  | set => "SET"
  | get => "GET"
  | incr => "INCR"
  | type => "TYPE"
  | keys => "KEYS"
  | info => "INFO"
  | config => "CONFIG"
  | multi => "MULTI"
  | exec => "EXEC"
  | discard => "DISCARD"
  | replconf => "REPLCONF"
  | psync => "PSYNC"
  | wait => "WAIT"
  | xadd => "XADD"
  | xrange => "XRANGE"
  | xread => "XREAD"

/-- The command that a word names; the case of ASCII letters does not matter. -/
def ofText? (word : String) : Option CommandName :=
  all.find? fun name => Text.sameWord name.text word

/-- Whether the command may change the keyspace. -/
def kind : CommandName → CommandKind
  | set | incr | xadd => .write
  | _ => .read

/-- The argument counts that the command accepts. -/
def arity : CommandName → Arity
  | ping => .between 0 1
  | echo => .exactly 1
  | set => .atLeast 2
  | get => .exactly 1
  | incr => .exactly 1
  | type => .exactly 1
  | keys => .exactly 1
  | info => .between 0 1
  | config => .atLeast 2
  | multi => .exactly 0
  | exec => .exactly 0
  | discard => .exactly 0
  | replconf => .atLeast 1
  | psync => .exactly 2
  | wait => .exactly 2
  | xadd => .atLeast 4
  | xrange => .atLeast 3
  | xread => .atLeast 3

/-- Whether the command acts on the connection that sends it, so that it makes no sense in the
    queue of a transaction. -/
def isConnectionBound : CommandName → Bool
  | multi | exec | discard | replconf | psync => true
  | _ => false

/-- Whether the command opens or closes a transaction; such a command is never queued. -/
def isTransactionControl : CommandName → Bool
  | multi | exec | discard => true
  | _ => false

/-- Refuse a number of arguments that the command does not accept. -/
def checkArity (name : CommandName) (count : Nat) : Except Error Unit :=
  if name.arity.accepts count then .ok () else .error (.wrongArity name.text.toLower)

end CommandName

/-- A command as it was received. -/
structure Command where
  name : CommandName
  args : List String
  /-- The bytes that the command was read from. -/
  raw : Bytes
  deriving DecidableEq, Repr, Inhabited

namespace Command

/-- A command in its canonical wire form. -/
def ofParts (name : CommandName) (args : List String) : Command :=
  ⟨name, args, Wire.request (name.text :: args)⟩

/-- Refuse a command with a number of arguments that its name does not accept. -/
def checkArity (command : Command) : Except Error Unit :=
  command.name.checkArity command.args.length

end Command

end KeyValue
