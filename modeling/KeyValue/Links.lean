import KeyValue.Text.Utf8

/-!
# Links

A link is the way to one peer. What the server wrote on it, in order, is all that the peer can
ever learn, so a link is the record of the bytes written, up to what the peer has collected. A
link that is closed refuses further writes; what was written before can still be collected.

## Main definitions

* `Link`: The bytes written to one peer.
* `Links`: All links that were ever opened.
* `Links.connect`, `Links.close`: Open and close a link.
* `Links.write`: Writes to a link.
* `Links.written`: What was written to a link.
* `Links.collect`: The peer collects what was written.
-/

namespace KeyValue

/-- The way to one peer. -/
structure Link where
  /-- The bytes written and not collected yet. -/
  written : Bytes := []
  isOpen : Bool := true
  deriving DecidableEq, Repr, Inhabited

/-- All links that were ever opened; the place of a link is its number. -/
structure Links where
  all : List Link := []
  deriving DecidableEq, Repr, Inhabited

namespace Links

/-- No links. -/
def empty : Links := {}

/-- Open a link; the result is its number. -/
def connect (links : Links) : Nat × Links :=
  (links.all.length, ⟨links.all ++ [({} : Link)]⟩)

/-- Close a link. -/
def close (links : Links) (link : Nat) : Links :=
  ⟨links.all.modify link fun l => { l with isOpen := false }⟩

/-- Whether a link can be written to. -/
def isOpen (links : Links) (link : Nat) : Bool :=
  (links.all[link]?.map (·.isOpen)).getD false

/-- What was written to a link and not collected yet. -/
def written (links : Links) (link : Nat) : Bytes :=
  (links.all[link]?.map (·.written)).getD []

/-- Write to a link, if it is open. -/
def write (links : Links) (link : Nat) (bytes : Bytes) : Links :=
  ⟨links.all.modify link fun l => if l.isOpen then { l with written := l.written ++ bytes } else l⟩

/-- The peer collects what was written to its link. -/
def collect (links : Links) (link : Nat) : Bytes × Links :=
  (links.written link, ⟨links.all.modify link fun l => { l with written := [] }⟩)

end Links

end KeyValue
