import KeyValue.Command

/-!
# Requests

A command is a name with words; a request is what the words mean. The name and the number of
words decide which request it is, so running a request never has to ask whether a word is there.
What the words say, such as numbers, ids and options, is read when the request runs, because a
command is queued in a transaction however wrong its words are.

A command is a request exactly if its name accepts the number of its arguments.

## Main definitions

* `Request`: What a client asks for.
* `Request.ofCommand`: The request that a command is.

## Theorems

* `Request.ofCommand_eq_error_iff`: Only the number of arguments can be wrong.
-/

namespace KeyValue

/-- What a client asks for. -/
inductive Request where
  | ping (message : Option String)
  | echo (message : String)
  | set (key value : String) (options : List String)
  | get (key : String)
  | increment (key : String)
  | type (key : String)
  | keys (pattern : String)
  | info (topic : Option String)
  | config (action : String) (parameters : List String)
  | beginTransaction
  | runTransaction
  | dropTransaction
  /-- A word between a replica and its master. -/
  | replication (option : String) (arguments : List String)
  /-- A replica asks for a resync; what it knows already is not looked at. -/
  | resync
  | waitForReplicas (wanted timeout : String)
  | addEntry (key id : String) (fields : List String)
  | range (key start stop : String) (options : List String)
  | readStreams (arguments : List String)
  deriving DecidableEq, Repr, Inhabited

namespace Request

/-- The request that a command is. -/
def ofCommand (command : Command) : Except Error Request :=
  match command.name, command.args with
  | .ping, [] => .ok (.ping none)
  | .ping, [message] => .ok (.ping (some message))
  | .echo, [message] => .ok (.echo message)
  | .set, key :: value :: options => .ok (.set key value options)
  | .get, [key] => .ok (.get key)
  | .incr, [key] => .ok (.increment key)
  | .type, [key] => .ok (.type key)
  | .keys, [pattern] => .ok (.keys pattern)
  | .info, [] => .ok (.info none)
  | .info, [topic] => .ok (.info (some topic))
  | .config, action :: parameter :: parameters => .ok (.config action (parameter :: parameters))
  | .multi, [] => .ok .beginTransaction
  | .exec, [] => .ok .runTransaction
  | .discard, [] => .ok .dropTransaction
  | .replconf, option :: arguments => .ok (.replication option arguments)
  | .psync, [_, _] => .ok .resync
  | .wait, [wanted, timeout] => .ok (.waitForReplicas wanted timeout)
  | .xadd, key :: id :: field :: value :: fields =>
    .ok (.addEntry key id (field :: value :: fields))
  | .xrange, key :: start :: stop :: options => .ok (.range key start stop options)
  | .xread, first :: second :: third :: arguments =>
    .ok (.readStreams (first :: second :: third :: arguments))
  | name, _ => .error (.wrongArity name.text.toLower)

/-- A command is refused as a request exactly if its name refuses the number of its arguments, and
    then with the same error. -/
theorem ofCommand_eq_error_iff (command : Command) (e : Error) :
    ofCommand command = .error e ↔ command.checkArity = .error e := by
  obtain ⟨name, args, raw⟩ := command
  cases name <;> rcases args with _ | ⟨a, _ | ⟨b, _ | ⟨c, _ | ⟨d, args⟩⟩⟩⟩ <;>
    simp [ofCommand, Command.checkArity, CommandName.checkArity, CommandName.arity, Arity.accepts,
      CommandName.text]

end Request

end KeyValue
