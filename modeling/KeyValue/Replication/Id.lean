/-!
# Replication ids

A master has an id of forty lower-case letters and digits, drawn at random at its start.

The letters are drawn from both cases and then lowered, so a letter is twice as likely as a digit.

## Main definitions

* `ReplicationId.generate`: Draws an id.
-/

namespace KeyValue

namespace ReplicationId

/-- The number of characters of an id. -/
def length : Nat := 40

/-- The characters that are drawn from. -/
def alphabet : List Char :=
  "ABCDEFGHIJKLMNOPQRSTUVWXYZabcdefghijklmnopqrstuvwxyz0123456789".toList

/-- The character that a draw stands for. -/
def character (draw : Nat) : Char :=
  (alphabet.getD (draw % alphabet.length) '0').toLower

/-- Draw `count` characters. -/
def draw {γ : Type} [RandomGen γ] : Nat → γ → List Char × γ
  | 0, source => ([], source)
  | count + 1, source =>
    let (number, source) := randNat source 0 (alphabet.length - 1)
    let (characters, source) := draw count source
    (character number :: characters, source)

/-- Draw an id. -/
def generate {γ : Type} [RandomGen γ] (source : γ) : String × γ :=
  let (characters, source) := draw length source
  (String.ofList characters, source)

end ReplicationId

end KeyValue
