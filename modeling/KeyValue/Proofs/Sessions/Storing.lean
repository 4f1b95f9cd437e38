import KeyValue.Proofs.Engine.Dispatching
import KeyValue.Proofs.Framing.Encoding
import KeyValue.Proofs.Keyspace.Writes
import KeyValue.Proofs.Sessions.Handling

/-!
# Values that are read back

A client that sets a key and gets it receives the text that the bytes of its value read as.

Keys and values cross the forgiving reader of UTF-8 on their way in, and are written as UTF-8 on
their way out. In between a text that spells an integer is stored as one, which is undone exactly
(`valueReply_ofText`). So the bytes of a value come back if they are UTF-8, and otherwise with
U+FFFD in the place of those that are not. The same holds of keys: two of them can be told apart by
their texts only.

How the requests are cut into pieces does not matter. They are handled one by one, and each request
of a client that has set a key leaves the key with its text, unless it sets this key
(`Serves.handle`).

## Main definitions

* `Engine.Relays`: Bytes are forwarded to the replicas, and nothing else is sent.
* `Connection.setRequest`, `Connection.getRequest`: The requests of a client.
* `Connection.setAnswer`: What a link receives when a key is set.
* `Connection.Ahead`: What a client sends that sets a key, with what its link is owed.
* `Connection.Serves`: A client is owed answers, and the key holds its text.

## Theorems

* `Engine.dispatch_set`, `Engine.dispatch_get`: Setting and getting a key.
* `receiveAll_reads_back`: What is answered for a key that was set.
* `receive_replaces_bytes`: Bytes that do not come back, and two keys that are one.
-/

namespace KeyValue

/-- The text of a value is read back, whether it is stored as an integer or as a text. -/
theorem KeyCommand.valueReply_ofText (text : String) :
    KeyCommand.valueReply (.ofText text) = .ok (.bulkText text) := by
  unfold Value.ofText
  split
  · split
    · rename_i number _ hspelling
      rw [KeyCommand.valueReply, hspelling]
    · rfl
  · rfl

namespace Engine

/-- Bytes are forwarded to the replicas, nothing else is sent, and no replica comes or goes. -/
structure Relays (bytes : Bytes) (before after : Engine) : Prop where
  peers : after.peers = before.peers
  isOpen : ∀ link, after.links.isOpen link = before.links.isOpen link
  written : ∀ link, before.links.isOpen link = true → after.links.written link =
    before.links.written link ++ (List.replicate (before.copies link) bytes).flatten

theorem propagate_relays (engine : Engine) (bytes : Bytes) :
    Relays bytes engine (engine.propagate bytes) :=
  ⟨engine.propagate_peers bytes, engine.propagate_isOpen bytes,
    fun _ => engine.written_propagate_copies bytes⟩

/-- Only links and replicas matter to what is forwarded. -/
theorem Relays.congr {bytes : Bytes} {before before' after after' : Engine}
    (h : Relays bytes before after) (hlinks : before.links = before'.links)
    (hpeers : before.peers = before'.peers) (hlinks' : after'.links = after.links)
    (hpeers' : after'.peers = after.peers) : Relays bytes before' after' := by
  have hwritten := h.written
  simp only [copies, hlinks, hpeers, ← hlinks'] at hwritten
  refine ⟨(hpeers'.trans h.peers).trans hpeers, fun link => ?_, hwritten⟩
  rw [hlinks', h.isOpen, hlinks]

theorem Quiet.relays {before after : Engine} (h : Quiet before after) : Relays [] before after :=
  ⟨h.peers, fun link => by rw [h.links], fun link _ => by rw [h.links]; simp⟩

variable (engine : Engine) {session : Session} (now : UInt64) {key text : String} (raw : Bytes)

theorem dispatch_of_handle {command : Command} {response : Response} {after : Engine}
    {session' : Session}
    (h : (engine.record command).2.handle session now (engine.record command).1 command =
      (.answered response, after, session')) :
    engine.dispatch session now command =
      (.answered response, after.conclude (engine.record command).1 response, session') := by
  unfold dispatch
  simp only [h]

/-- Without a transaction a key is set at once, and the command is forwarded. -/
theorem dispatch_set (hclosed : session.transaction = .closed) (key text : String) :
    ∃ after, engine.dispatch session now ⟨.set, [key, text], raw⟩ =
        (.answered (.reply .ok), after, session) ∧ Relays raw engine after ∧
      after.keyspace.contents = engine.keyspace.contents.hold key (.ofText text) := by
  have hrecord := engine.record_quiet ⟨.set, [key, text], raw⟩
  have hrequest : Request.ofCommand ⟨.set, [key, text], raw⟩ = .ok (.set key text []) := rfl
  have hhandle : (engine.record ⟨.set, [key, text], raw⟩).2.handle session now
      (engine.record ⟨.set, [key, text], raw⟩).1 ⟨.set, [key, text], raw⟩ = _ :=
    handle_of_closed hrequest hclosed
  rw [perform_write _ rfl rfl] at hhandle
  refine ⟨_, engine.dispatch_of_handle now hhandle, ?_⟩
  simp only [runAndForward, run, withKeyspace, KeyCommand.set, KeyCommand.deadlineOf]
  have hconclude := fun after => conclude_quiet after (engine.record ⟨.set, [key, text], raw⟩).1
    (.reply .ok)
  constructor
  · refine (propagate_relays _ raw).congr ?_ ?_ (hconclude _).links (hconclude _).peers
    · exact hrecord.links
    · exact hrecord.peers
  · rw [(hconclude _).keyspace.contents_eq, propagate_keyspace, Keyspace.set_effect,
      hrecord.keyspace.contents_eq]

/-- Without a transaction the text of a key is answered at once. -/
theorem dispatch_get (hclosed : session.transaction = .closed)
    (h : engine.keyspace.contents key = some (.ofText text)) :
    ∃ after, engine.dispatch session now ⟨.get, [key], raw⟩ =
        (.answered (.reply (.bulkText text)), after, session) ∧ Quiet engine after := by
  have hrecord := engine.record_quiet ⟨.get, [key], raw⟩
  have hitem : (engine.record ⟨.get, [key], raw⟩).2.keyspace.item? key =
      some ⟨.ofText text, .never⟩ := by
    rw [← Keyspace.contents_eq_some, hrecord.keyspace.contents_eq, h]
  have hget : ((engine.record ⟨.get, [key], raw⟩).2.run now (.get key)).1 =
      .ok (.bulkText text) := by
    have hlive : Item.isExpired ⟨.ofText text, .never⟩ now = false :=
      Item.isExpired_of_never rfl now
    simp only [run, withKeyspace, KeyCommand.get, Keyspace.get, Keyspace.live?, hitem,
      Option.filter_some, hlive, Bool.not_false, if_true, Option.map_some,
      KeyCommand.valueReply_ofText]
  have hrequest : Request.ofCommand ⟨.get, [key], raw⟩ = .ok (.get key) := rfl
  have hhandle : (engine.record ⟨.get, [key], raw⟩).2.handle session now
      (engine.record ⟨.get, [key], raw⟩).1 ⟨.get, [key], raw⟩ = _ :=
    handle_of_closed hrequest hclosed
  simp only [perform, startRequest, hget] at hhandle
  refine ⟨_, engine.dispatch_of_handle now hhandle, ?_⟩
  -- Getting a key prunes it at most.
  have hread : (Request.get key).isWrite = false := rfl
  have hrun := quiet_of_prunes ((engine.record ⟨.get, [key], raw⟩).2.run_read now hread)
  exact (hrecord.trans hrun).trans (conclude_quiet _ _ _)

end Engine

namespace Connection

/-- What a link receives when a key is set on which `copies` replicas are registered: the request
    that is forwarded, and the answer. -/
def setAnswer (copies : Nat) (request : Bytes) : Bytes :=
  (List.replicate copies request).flatten ++ Reply.ok.encode

/-- What a client sends that sets a key, then sets other keys and gets this one, with what its link
    is owed for that; `true` if it has set the key. -/
inductive Ahead (copies : Nat) (key text : String) : Bool → List Framer.Event → Bytes → Prop where
  | set {raw : Bytes} {events : List Framer.Event} {owed : Bytes}
      (h : Ahead copies key text true events owed) :
      Ahead copies key text false (.ok ⟨.set, [key, text], raw⟩ :: events)
        (setAnswer copies raw ++ owed)
  | other {name value : String} {raw : Bytes} {events : List Framer.Event} {owed : Bytes}
      (hne : name ≠ key) (h : Ahead copies key text true events owed) :
      Ahead copies key text true (.ok ⟨.set, [name, value], raw⟩ :: events)
        (setAnswer copies raw ++ owed)
  | get {raw : Bytes} {events : List Framer.Event} {owed : Bytes}
      (h : Ahead copies key text true events owed) :
      Ahead copies key text true (.ok ⟨.get, [key], raw⟩ :: events)
        ((Reply.bulkText text).encode ++ owed)
  | done : Ahead copies key text true [] []

/-- A client is served on its own link. What the link has received and what it is owed for the
    events ahead make up the answers, and once the key is set it holds the text. -/
structure Serves (link copies : Nat) (key text : String) (answers : Bytes)
    (events : List Framer.Event) (connection : Connection) (engine : Engine) : Prop where
  owner : connection.link = link
  idle : connection.suspended = none
  closed : connection.session.transaction = .closed
  isOpen : engine.links.isOpen link = true
  registered : engine.copies link = copies
  ahead : ∃ isSet owed, Ahead copies key text isSet events owed ∧
    (isSet = true → engine.keyspace.contents key = some (.ofText text)) ∧
    engine.links.written link ++ owed = answers

namespace Serves

variable {link copies : Nat} {key text : String} {answers : Bytes} {events : List Framer.Event}
  {connection : Connection} {engine : Engine}

/-- A client whose next command is dispatched and answered is served on. -/
theorem answered {command : Command}
    (h : Serves link copies key text answers (.ok command :: events) connection engine)
    (now : UInt64) {reply : Reply} {after : Engine} {forwarded : Bytes}
    (hdispatch : engine.dispatch connection.session now command =
      (.answered (.reply reply), after, connection.session))
    (hrelays : Engine.Relays forwarded engine after)
    (hahead : ∃ owed, Ahead copies key text true events owed ∧
      after.keyspace.contents key = some (.ofText text) ∧
      engine.links.written link ++
        ((List.replicate copies forwarded).flatten ++ reply.encode ++ owed) = answers) :
    Serves link copies key text answers events (connection.handle engine now (.ok command)).1
      (connection.handle engine now (.ok command)).2 := by
  obtain rfl := h.owner
  have hisOpen : after.links.isOpen connection.link = true := (hrelays.isOpen _).trans h.isOpen
  have hwritten := after.links.written_write connection.link connection.link reply.encode
  rw [if_pos ⟨rfl, hisOpen⟩, hrelays.written _ h.isOpen, h.registered] at hwritten
  have hhandle : connection.handle engine now (.ok command) =
      (connection, { after with links := after.links.write connection.link reply.encode }) := by
    simp only [handle, hdispatch, answer, write]
  rw [hhandle]
  rcases hahead with ⟨owed, hahead, hcontents, hanswers⟩
  have hcopies : after.copies connection.link = copies := by
    rw [Engine.copies, hrelays.peers]
    exact h.registered
  refine ⟨rfl, h.idle, h.closed, ?_, hcopies, true, owed, hahead, fun _ => hcontents, ?_⟩
  · exact (after.links.isOpen_write connection.link connection.link reply.encode).trans hisOpen
  · simp only [← hanswers, hwritten, List.append_assoc]

/-- Each command of the client is answered with what is owed for it. -/
theorem handle {event : Framer.Event} (now : UInt64)
    (h : Serves link copies key text answers (event :: events) connection engine) :
    Serves link copies key text answers events (connection.handle engine now event).1
      (connection.handle engine now event).2 := by
  rcases h.ahead with ⟨isSet, owed, hahead, hset, hanswers⟩
  cases hahead with
  | set hlater =>
      rename_i raw owed
      rcases engine.dispatch_set now raw h.closed key text with
        ⟨after, hdispatch, hrelays, hcontents⟩
      refine h.answered now hdispatch hrelays ⟨_, hlater, ?_, hanswers⟩
      rw [hcontents, Contents.hold, if_pos rfl]
  | other hne hlater =>
      rename_i other value raw owed
      rcases engine.dispatch_set now raw h.closed other value with
        ⟨after, hdispatch, hrelays, hcontents⟩
      refine h.answered now hdispatch hrelays ⟨_, hlater, ?_, hanswers⟩
      -- What is set here is another key.
      rw [hcontents, Contents.hold, if_neg hne.symm]
      exact hset rfl
  | get hlater =>
      rename_i raw owed
      rcases engine.dispatch_get now raw h.closed (hset rfl) with ⟨after, hdispatch, hquiet⟩
      refine h.answered now hdispatch hquiet.relays ⟨_, hlater, ?_, ?_⟩
      · rw [hquiet.keyspace.contents_eq]
        exact hset rfl
      · rw [List.flatten_replicate_nil, List.nil_append]
        exact hanswers

end Serves

/-- The request to set a key. -/
def setRequest (key value : Bytes) : Bytes := Framer.encoded [Text.bytes "SET", key, value]

/-- The request to get a key. -/
def getRequest (key : Bytes) : Bytes := Framer.encoded [Text.bytes "GET", key]

-- A client that has set the key sets others, and gets the key in the end.
theorem ahead_others (copies : Nat) {key text : String} (raw : Bytes)
    (others : List (Bytes × Bytes)) (h : ∀ other ∈ others, Text.ofBytes other.1 ≠ key) :
    Ahead copies key text true
      (others.map (fun other => .ok ⟨.set, [Text.ofBytes other.1, Text.ofBytes other.2],
        setRequest other.1 other.2⟩) ++ [.ok ⟨.get, [key], raw⟩])
      (others.flatMap (fun other => setAnswer copies (setRequest other.1 other.2)) ++
        (Reply.bulkText text).encode) := by
  induction others with
  | nil =>
      have hget : Ahead copies key text true [.ok ⟨.get, [key], raw⟩]
          ((Reply.bulkText text).encode ++ []) := .get .done
      rwa [List.append_nil] at hget
  | cons other rest ih =>
      rw [List.forall_mem_cons] at h
      rw [List.map_cons, List.cons_append, List.flatMap_cons, List.append_assoc]
      exact .other h.1 (ih h.2)

/-- A client sets a key, sets other keys and gets the first one, with its requests cut into pieces
    in any way. It is answered with the bytes of the text that its value reads as. Those are the
    bytes that it sent exactly if they are UTF-8; and keys that are UTF-8 are other keys exactly if
    their bytes are others. A link on which replicas are registered also carries what is forwarded
    to them. -/
theorem receiveAll_reads_back {connection : Connection} {engine : Engine} {key value : Bytes}
    {others : List (Bytes × Bytes)} {arrivals : List (UInt64 × Bytes)}
    (hframer : connection.framer = .empty) (hidle : connection.suspended = none)
    (hclosed : connection.session.transaction = .closed)
    (hopen : engine.links.isOpen connection.link = true)
    (hkey : key.length ≤ Wire.maxBulkLength) (hvalue : value.length ≤ Wire.maxBulkLength)
    (hlengths : ∀ other ∈ others,
      other.1.length ≤ Wire.maxBulkLength ∧ other.2.length ≤ Wire.maxBulkLength)
    (hothers : ∀ other ∈ others, Text.ofBytes other.1 ≠ Text.ofBytes key)
    (harrivals : arrivals.flatMap (·.2) = setRequest key value ++
      (others.flatMap (fun other => setRequest other.1 other.2) ++ getRequest key)) :
    let copies := engine.copies connection.link
    (connection.receiveAll engine arrivals).2.links.written connection.link =
        engine.links.written connection.link ++ (setAnswer copies (setRequest key value) ++
          (others.flatMap (fun other => setAnswer copies (setRequest other.1 other.2)) ++
            (Reply.bulk (Text.bytes (Text.ofBytes value))).encode)) ∧
      (Text.bytes (Text.ofBytes value) = value ↔ ∃ text, Text.bytes text = value) ∧
      ∀ text text', Text.ofBytes (Text.bytes text) = Text.ofBytes (Text.bytes text') ↔
        Text.bytes text = Text.bytes text' := by
  intro copies
  refine ⟨?_, Text.bytes_ofBytes_iff, ?_⟩
  · have hset : ∀ {key value : Bytes}, key.length ≤ Wire.maxBulkLength →
        value.length ≤ Wire.maxBulkLength → Framer.Carries .start (setRequest key value)
          [.ok ⟨.set, [Text.ofBytes key, Text.ofBytes value], setRequest key value⟩] :=
      fun hkey hvalue => Framer.carries_command .set (by decide : 2 < Wire.maxArrayLength)
        (by simp [hkey, hvalue])
    have hget : Framer.Carries .start (getRequest key)
        [.ok ⟨.get, [Text.ofBytes key], getRequest key⟩] :=
      Framer.carries_command .get (by decide : 1 < Wire.maxArrayLength) (by simp [hkey])
    have hcarries := (hset hkey hvalue).append ((Framer.Carries.flatMap fun other hmem =>
      hset (hlengths other hmem).1 (hlengths other hmem).2).append hget)
    rw [← harrivals] at hcarries
    have hahead : Ahead copies (Text.ofBytes key) (Text.ofBytes value) false _ _ :=
      @Ahead.set _ _ _ (setRequest key value) _ _
        (ahead_others copies (getRequest key) others hothers)
    have hserves : Serves connection.link copies (Text.ofBytes key) (Text.ofBytes value)
        (engine.links.written connection.link ++ _) _ connection engine :=
      ⟨rfl, hidle, hclosed, hopen, rfl, false, _, hahead, (fun h => nomatch h), rfl⟩
    have hdone := @receiveAll_carries (Serves connection.link copies _ _ _)
      (fun _ _ h => { h with }) Serves.idle (fun now h => h.handle now) arrivals _ _ .start [] _
      hframer rfl hcarries hserves
    rcases hdone.ahead with ⟨isSet, owed, hahead, _, hanswers⟩
    cases hahead
    rwa [List.append_nil] at hanswers
  · intro text text'
    rw [Text.ofBytes_bytes, Text.ofBytes_bytes]
    exact ⟨fun h => h ▸ rfl, Text.bytes_injective⟩

/-- A value that is not all UTF-8 comes in, in two pieces, and so does another key. -/
theorem receiveAll_reads_back_beside :
    let requests := setRequest [107] [104, 255] ++ (setRequest [108] [98] ++ getRequest [107])
    let (connection, engine) := opened (Engine.start {} .missing "id")
    (connection.receiveAll engine [(7, requests.take 20), (8, requests.drop 20)]).2.links.written
      connection.link = (List.replicate 2 Reply.ok.encode).flatten ++
        (Reply.bulk [104, 239, 191, 189]).encode := by
  have hothers : ∀ other ∈ ([([108], [98])] : List (Bytes × Bytes)),
      Text.ofBytes other.1 ≠ Text.ofBytes [107] := by decide +kernel
  have hvalue : Text.bytes (Text.ofBytes [104, 255]) = [104, 239, 191, 189] := by decide +kernel
  rw [← hvalue]
  exact (receiveAll_reads_back rfl rfl rfl rfl (by decide) (by decide) (by decide) hothers
    (by decide)).1

/-- A byte that is no UTF-8 does not come back, as a value; and as keys two of them are the same. -/
theorem receive_replaces_bytes :
    let (connection, engine) := opened (Engine.start {} .missing "id")
    (connection.receive engine 7
        (setRequest [107] [255] ++ getRequest [107])).2.links.written connection.link =
      Reply.ok.encode ++ (Reply.bulk [239, 191, 189]).encode ∧
    (connection.receive engine 7 (setRequest [255] [97] ++ setRequest [254] [98] ++
        getRequest [255])).2.links.written connection.link =
      Reply.ok.encode ++ Reply.ok.encode ++ (Reply.bulk [98]).encode := by
  decide +kernel

end Connection

end KeyValue
