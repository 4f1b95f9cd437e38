import KeyValue.Server
import KeyValue.Proofs.Sessions.Sharing

/-!
# Clients that are admitted

A server serves as many clients as it was set up for, and no more. A client that comes when there
are that many is told so and nothing else changes. Any other is served, on a link that no other
client has (`Server.after_admits`).

What happens at a server is a run of the connections that share its engine (`Server.crowd`), so
that what holds of all such runs holds of servers. One instance is what the registry of replicas
has of each client (`Server.after_registers`).

## Main definitions

* `Server.crowd`: The connections of a server, by their links.
* `Server.Event`, `Server.next`, `Server.after`: What happens at a server, once and over and over.
* `Server.Acts`: What connections do in steps.
* `Server.Serves`: What a server keeps of its connections while it runs.

## Theorems

* `Server.crowd_act`, `Server.crowd_dismiss`: What happens on a connection, in terms of the crowd.
* `Server.Serves.next`, `Server.Serves.after`: What one event keeps, and what all of them keep.
* `Server.after_admits`: Who is admitted.
* `Server.after_registers`: What the registry has of the clients of a master.
-/

namespace KeyValue

namespace Connection

variable (connection : Connection) (engine : Engine) (now : UInt64)

/-- An answer does not move a connection to another link. -/
theorem answer_link (response : Response) :
    (connection.answer engine response).1.link = connection.link := by
  cases response with
  | reply reply => rfl
  | silent => rfl
  | fullResync header snapshot =>
      simp only [answer, enroll]
      split <;> rfl

/-- A connection keeps its link while it handles what was framed, up to a command that waits. -/
theorem handleAll_link (events : List Framer.Event) :
    ∀ (connection : Connection) (engine : Engine),
      (connection.handleAll engine now events).1.link = connection.link := by
  induction events with
  | nil =>
      intro connection engine
      rfl
  | cons event rest ih =>
      intro connection engine
      have hhandle := connection.handle_link engine now event
      simp only [handleAll]
      split
      · exact hhandle
      · exact (ih _ _).trans hhandle

/-- A connection keeps its link when bytes come in, whether a command waits or not. -/
theorem receive_link (chunk : Bytes) :
    (connection.receive engine now chunk).1.link = connection.link := by
  simp only [receive]
  split
  · rfl
  · exact handleAll_link now _ _ engine

theorem proceed_link (response : Response) :
    (connection.proceed engine now response).1.link = connection.link := by
  simp only [proceed]
  exact (handleAll_link now _ _ _).trans (answer_link _ engine response)

theorem wake_link : (connection.wake engine now).1.link = connection.link := by
  unfold wake
  split
  · rfl
  · split
    · rfl
    · exact proceed_link _ _ now _

theorem giveUp_link : (connection.giveUp engine now).1.link = connection.link := by
  unfold giveUp
  split
  · rfl
  · exact proceed_link _ _ now _

end Connection

/-- The outcome of a handshake changes neither the configuration nor the registry, which only a
    master has. -/
theorem Engine.takeOver_keeps (engine : Engine) (now : UInt64) (resync : Handshake.Resync) :
    (engine.takeOver now resync).config = engine.config ∧
      (engine.takeOver now resync).peers = engine.peers := by
  have hupdate : ∀ update, (engine.updateReplica update).config = engine.config ∧
      (engine.updateReplica update).peers = engine.peers := by
    intro update
    unfold updateReplica
    cases hrole : engine.role with
    | master master => exact ⟨rfl, rfl⟩
    | replica replica => exact ⟨rfl, by simp only [peers, registry, hrole]⟩
  simp only [takeOver]
  split
  · exact hupdate _
  · exact hupdate _

namespace Crowd

/-- No run changes what the engine is set up with. -/
theorem Run.setup {first crowd : Crowd} {log : List Nat} (h : Run first log crowd) :
    first.engine.SameSetup crowd.engine := by
  induction h with
  | start => exact .refl _
  | step _ hstep ih => exact ih.trans hstep.setup

end Crowd

namespace Server

/-- The connections of a server, by their links. -/
def crowd (server : Server) : Crowd where
  engine := server.engine
  served link := server.connections.find? (·.link == link)

@[simp] theorem crowd_engine (server : Server) : server.crowd.engine = server.engine := rfl

/-- What happens at a server. -/
inductive Event where
  /-- A client arrives. -/
  | arrival
  /-- Bytes come in from a client. -/
  | bytes (now : UInt64) (link : Nat) (chunk : Bytes)
  /-- Whoever waits looks for a wake-up. -/
  | wakeUp (now : UInt64)
  /-- The time of a command that waits is over. -/
  | timeout (now : UInt64) (link : Nat)
  /-- A client is gone. -/
  | departure (link : Nat)

/-- One thing happens at a server. -/
def next (server : Server) : Event → Server
  | .arrival => server.accept.2
  | .bytes now link chunk => server.receive now link chunk
  | .wakeUp now => server.wakeAll now
  | .timeout now link => server.act link fun connection engine => connection.giveUp engine now
  | .departure link => server.dismiss link

/-- One thing after another happens at a server. -/
def after (server : Server) (events : List Event) : Server := events.foldl next server

section Views

variable {server : Server} {link : Nat} {connection : Connection}

/-- A connection that is served is in the list, under its own link. -/
theorem mem_of_served (h : server.crowd.served link = some connection) :
    connection ∈ server.connections ∧ connection.link = link := by
  have hlink := List.find?_some h
  exact ⟨List.mem_of_find?_eq_some h, by simpa using hlink⟩

/-- A link without a connection is that of no connection in the list. -/
theorem ne_of_not_served (h : server.crowd.served link = none)
    (hmem : connection ∈ server.connections) : connection.link ≠ link := by
  have hnone := List.find?_eq_none.mp h connection hmem
  simpa using hnone

/-- A connection in the list is served under its link, if the links are all different. -/
theorem served_of_mem (hdistinct : (server.connections.map (·.link)).Nodup)
    (hmem : connection ∈ server.connections) :
    server.crowd.served connection.link = some connection := by
  cases hserved : server.crowd.served connection.link with
  | none => exact absurd rfl (ne_of_not_served hserved hmem)
  | some found =>
      rcases mem_of_served hserved with ⟨hfound, hlink⟩
      exact congrArg some (List.inj_on_of_nodup_map hdistinct hfound hmem hlink)

variable {action : Connection → Engine → Connection × Engine}
  (hserved : server.crowd.served link = some connection)
include hserved

/-- The connection that is found acts, and takes its place in the list. -/
theorem act_of_served :
    server.act link action = ⟨(action connection server.engine).2,
      server.connections.map fun other =>
        if other.link == link then (action connection server.engine).1 else other⟩ := by
  have hfind : server.connections.find? (·.link == link) = some connection := hserved
  simp only [act, hfind]

/-- A connection that acts takes its own place in the crowd, and no other one. -/
theorem crowd_act (hlink : (action connection server.engine).1.link = connection.link) :
    (server.act link action).crowd =
      server.crowd.put (action connection server.engine).1 (action connection server.engine).2 := by
  have hown := (mem_of_served hserved).2
  rw [act_of_served hserved]
  simp only [crowd, Crowd.put, Crowd.mk.injEq, true_and]
  funext other
  -- The one that acted has the link it had, so the same place is found.
  have hsame : ((fun connection : Connection => connection.link == other) ∘ fun old : Connection =>
      if old.link == link then (action connection server.engine).1 else old) =
      fun old => old.link == other := by
    funext old
    simp only [Function.comp_apply]
    split
    · rename_i hold
      rw [hlink, hown, beq_iff_eq.mp hold]
    · rfl
  rw [List.find?_map, hsame, hlink, hown]
  by_cases heq : other = link
  · subst heq
    have hfind : server.connections.find? (·.link == other) = some connection := hserved
    simp [hfind, hown]
  · rw [Function.update_of_ne heq]
    cases hfind : server.connections.find? (·.link == other) with
    | none => rfl
    | some found =>
        have hfound : found.link = other := by simpa using List.find?_some hfind
        simp [hfound, heq]

/-- The connection of a client that is gone is dropped. -/
theorem crowd_dismiss : (server.dismiss link).crowd = server.crowd.drop connection := by
  have hfind : server.connections.find? (·.link == link) = some connection := hserved
  have hown := (mem_of_served hserved).2
  simp only [dismiss, hfind, crowd, Crowd.drop, Crowd.mk.injEq, true_and]
  funext other
  rw [List.find?_filter, hown]
  by_cases heq : other = link
  · subst heq
    rw [Function.update_self]
    refine List.find?_eq_none.mpr fun found _ => ?_
    simp
  · rw [Function.update_of_ne heq]
    refine congrArg (List.find? · server.connections) ?_
    funext found
    by_cases hfound : found.link = other
    · simp [hfound, heq]
    · simp [hfound]

end Views

/-- What connections do in steps: they keep their links, and when they are done they have handled
    all that was framed, unless a command waits. -/
structure Acts (first : Crowd) (action : Connection → Engine → Connection × Engine) : Prop where
  link : ∀ connection engine, (action connection engine).1.link = connection.link
  settled : ∀ connection engine, Conversation.Settled connection →
    Conversation.Settled (action connection engine).1
  run : ∀ {crowd : Crowd} {connection : Connection} {log : List Nat},
    crowd.served connection.link = some connection → Crowd.Run first log crowd →
    Conversation.Settled connection → ∃ granted, Crowd.Run first (log ++ granted)
      (crowd.put (action connection crowd.engine).1 (action connection crowd.engine).2)

namespace Acts

variable (first : Crowd) (now : UInt64)

/-- Bytes that come in are framed, and handled one event after the other. -/
theorem receive (chunk : Bytes) :
    Acts first fun connection engine => connection.receive engine now chunk where
  link connection engine := connection.receive_link engine now chunk
  settled connection engine h := by
    rcases Conversation.receive_run connection engine now chunk h with ⟨_, _, hsettled⟩
    exact hsettled
  run hserved hrun hsettled := Crowd.receive_run now hserved hrun chunk hsettled

/-- A command that looks for a wake-up is left as it is, or answered with those behind it. -/
theorem wake : Acts first fun connection engine => connection.wake engine now where
  link connection engine := connection.wake_link engine now
  settled connection engine h := by
    rcases Conversation.wake_run connection engine now h with ⟨_, _, hsettled⟩
    exact hsettled
  run hserved hrun _ := Crowd.wake_run now hserved hrun

/-- A command that gives up is answered, and those behind it are handled. -/
theorem giveUp : Acts first fun connection engine => connection.giveUp engine now where
  link connection engine := connection.giveUp_link engine now
  settled connection engine h := by
    rcases Conversation.giveUp_run connection engine now h with ⟨_, _, hsettled⟩
    exact hsettled
  run hserved hrun _ := Crowd.giveUp_run now hserved hrun

end Acts

/-- What a server keeps of its connections while it runs, since there was the crowd `first`: what
    happened to them is a run, they have links of their own, and there are no more of them than the
    server was set up for. -/
structure Serves (first : Crowd) (log : List Nat) (server : Server) : Prop where
  run : Crowd.Run first log server.crowd
  distinct : (server.connections.map (·.link)).Nodup
  atMost : server.connections.length ≤ server.engine.config.maxConnections
  settled : ∀ connection ∈ server.connections, Conversation.Settled connection

namespace Serves

variable {first : Crowd} {log : List Nat} {server : Server} (h : Serves first log server)
include h

/-- The limit is the one of the start, since no event changes the configuration. -/
theorem config : server.engine.config = first.engine.config := h.run.setup.config

/-- What goes on as a run of the crowd and admits no one keeps the limit. -/
theorem of_run {log' : List Nat} {after : Server} (hrun : Crowd.Run first log' after.crowd)
    (hdistinct : (after.connections.map (·.link)).Nodup)
    (hlength : after.connections.length ≤ server.connections.length)
    (hsettled : ∀ connection ∈ after.connections, Conversation.Settled connection) :
    Serves first log' after := by
  have hconfig : after.engine.config = server.engine.config :=
    hrun.setup.config.trans h.config.symm
  exact ⟨hrun, hdistinct, hconfig ▸ hlength.trans h.atMost, hsettled⟩

/-- When a connection acts, the others stay as they are; without a connection on the link nothing
    happens. -/
theorem act {action : Connection → Engine → Connection × Engine} (hacts : Acts first action)
    (link : Nat) : ∃ granted, Serves first (log ++ granted) (server.act link action) := by
  cases hserved : server.crowd.served link with
  | none =>
      have hfind : server.connections.find? (·.link == link) = none := hserved
      exact ⟨[], by simpa only [Server.act, hfind, List.append_nil] using h⟩
  | some connection =>
      rcases mem_of_served hserved with ⟨hmem, rfl⟩
      rcases hacts.run hserved h.run (h.settled connection hmem) with ⟨granted, hrun⟩
      rw [crowd_engine, ← crowd_act hserved (hacts.link _ _)] at hrun
      refine ⟨granted, h.of_run hrun ?_ ?_ ?_⟩ <;> rw [act_of_served hserved]
      · -- The links are the same as before.
        have hlinks : ∀ old ∈ server.connections,
            (if old.link == connection.link then (action connection server.engine).1
              else old).link = old.link := by
          intro old _
          split
          · rename_i heq
            rw [hacts.link, beq_iff_eq.mp heq]
          · rfl
        rw [List.map_map]
        exact List.map_congr_left hlinks ▸ h.distinct
      · exact (List.length_map _).le
      · intro next hnext
        rcases List.mem_map.mp hnext with ⟨old, hold, rfl⟩
        split
        · exact hacts.settled _ _ (h.settled connection hmem)
        · exact h.settled old hold

/-- Each of any number of connections acts in its turn. -/
theorem actAll {action : Connection → Engine → Connection × Engine} (hacts : Acts first action)
    (connections : List Connection) : ∃ granted, Serves first (log ++ granted)
      (connections.foldl (fun server connection => server.act connection.link action) server) := by
  induction connections generalizing log server with
  | nil => exact ⟨[], by rwa [List.append_nil]⟩
  | cons connection rest ih =>
      rcases h.act hacts connection.link with ⟨granted, hact⟩
      rcases ih hact with ⟨more, hall⟩
      exact ⟨granted ++ more, by rwa [← List.append_assoc]⟩

/-- A client that is gone makes room for another one. -/
theorem dismiss (link : Nat) : Serves first log (server.dismiss link) := by
  cases hserved : server.crowd.served link with
  | none =>
      have hfind : server.connections.find? (·.link == link) = none := hserved
      simpa only [Server.dismiss, hfind] using h
  | some connection =>
      have hclose := h.run.step (.close hserved)
      rw [List.append_nil, ← crowd_dismiss hserved] at hclose
      have hfind : server.connections.find? (·.link == link) = some connection := hserved
      refine h.of_run hclose ?_ ?_ ?_ <;> simp only [Server.dismiss, hfind]
      · exact h.distinct.sublist (List.filter_sublist.map _)
      · exact List.length_filter_le _ _
      · intro other hother
        exact h.settled other (List.mem_filter.mp hother).1

variable (hfirst : Crowd.Books [] first)
include hfirst

/-- A link that is opened now is that of no connection. -/
theorem fresh {connection : Connection} (hmem : connection ∈ server.connections) :
    connection.link < server.engine.links.all.length := by
  cases hserved : server.crowd.served connection.link with
  | none => exact absurd rfl (ne_of_not_served hserved hmem)
  | some found =>
      exact Links.lt_of_isOpen ((h.run.books hfirst).of_served hserved).2.1

/-- A client that is admitted is one more; one that is not changes nothing. -/
theorem accept : Serves first log server.accept.2 := by
  unfold Server.accept
  split
  · exact h
  · rename_i hroom
    have hconnect := h.run.step (.connect _)
    rw [List.append_nil] at hconnect
    have hnew : ∀ connection ∈ server.connections,
        connection.link ≠ (Connection.opened server.engine).1.link :=
      fun connection hmem => Nat.ne_of_lt (h.fresh hfirst hmem)
    refine ⟨?_, ?_, ?_, ?_⟩
    · convert hconnect using 1
      simp only [crowd, Crowd.put, Crowd.mk.injEq, true_and]
      funext other
      rw [List.find?_append]
      by_cases heq : other = (Connection.opened server.engine).1.link
      · have hnone : server.connections.find? (·.link == other) = none := by
          refine List.find?_eq_none.mpr fun connection hmem => ?_
          simpa [heq] using hnew connection hmem
        rw [hnone, heq, Function.update_self]
        simp
      · rw [Function.update_of_ne heq]
        simp [Ne.symm heq]
    · simp only [List.map_append, List.map_cons, List.map_nil]
      refine List.nodup_append.mpr ⟨h.distinct, List.nodup_singleton _, ?_⟩
      intro link hlink other hother
      rcases List.mem_map.mp hlink with ⟨connection, hmem, rfl⟩
      rw [List.mem_singleton.mp hother]
      exact hnew connection hmem
    · simp only [List.length_append, List.length_singleton]
      exact Nat.lt_of_not_le hroom
    · intro connection hmem
      rcases List.mem_append.mp hmem with hold | hadded
      · exact h.settled connection hold
      · rw [List.mem_singleton.mp hadded]
        exact fun _ => rfl

/-- One more event keeps what servers keep, and adds to the run of the crowd. -/
theorem next (event : Event) : ∃ granted, Serves first (log ++ granted) (server.next event) := by
  cases event with
  | arrival => exact ⟨[], by rw [List.append_nil]; exact h.accept hfirst⟩
  | bytes now link chunk => exact h.act (.receive first now chunk) link
  | wakeUp now => exact h.actAll (.wake first now) server.connections
  | timeout now link => exact h.act (.giveUp first now) link
  | departure link => exact ⟨[], by rw [List.append_nil]; exact h.dismiss link⟩

/-- However much happens, it is a run of the crowd and keeps what servers keep. -/
theorem after (events : List Event) :
    ∃ granted, Serves first (log ++ granted) (server.after events) := by
  induction events generalizing log server with
  | nil => exact ⟨[], by rwa [List.append_nil]⟩
  | cons event rest ih =>
      rcases h.next hfirst event with ⟨granted, hnext⟩
      rcases ih hnext with ⟨more, hafter⟩
      exact ⟨granted ++ more, by rwa [← List.append_assoc]⟩

end Serves

section Start

variable {config : Config} {file : Snapshot.File} {replicationId : String} {now : UInt64}
  {port : UInt16} {input rest : Bytes} {server : Server}

/-- A server that is ready serves no one, and no replica is registered. -/
theorem start_ready (h : start config file replicationId now port input = .ok (server, rest)) :
    server.engine.config = config ∧ server.connections = [] ∧ server.engine.peers = [] := by
  unfold start at h
  cases hreplica : config.replicaOf with
  | none =>
      simp only [hreplica, Except.ok.injEq, Prod.mk.injEq] at h
      rw [← h.1]
      exact ⟨rfl, rfl, Engine.start_peers config file replicationId⟩
  | some address =>
      simp only [hreplica] at h
      cases houtcome : (Handshake.run port input).outcome with
      | error e => simp [houtcome, Except.map] at h
      | ok resync =>
          simp only [houtcome, Except.map, Except.ok.injEq, Prod.mk.injEq] at h
          rw [← h.1]
          have htakes := (Engine.start config file replicationId).takeOver_keeps now resync
          exact ⟨htakes.1, rfl, htakes.2.trans (Engine.start_peers config file replicationId)⟩

/-- A server that is ready has all that servers keep. -/
theorem serves_start (h : start config file replicationId now port input = .ok (server, rest)) :
    Crowd.Books [] server.crowd ∧ Serves server.crowd [] server := by
  rcases start_ready h with ⟨-, hnone, hpeers⟩
  refine ⟨?_, .start, ?_, ?_, ?_⟩
  · have hcrowd : server.crowd = { engine := server.engine } := by
      simp only [crowd, hnone]
      rfl
    exact hcrowd ▸ .of_no_peers hpeers
  · simp [hnone]
  · simp [hnone]
  · simp [hnone]

/-- However much has happened, a server serves no more clients than it was set up for, on links that
    are all different. If there are that many, a client that arrives is told so, and the server
    stays as it is. Otherwise it is served on a link that no other client has. -/
theorem after_admits (h : start config file replicationId now port input = .ok (server, rest))
    (events : List Event) :
    let server := server.after events
    (server.connections.map (·.link)).Nodup ∧
      (server.connections.length = config.maxConnections ∧
          server.accept = (.rejected farewell, server) ∨
        server.connections.length < config.maxConnections ∧
          ∃ connection, server.accept.1 = .served connection.link ∧
            server.accept.2.connections = server.connections ++ [connection] ∧
            ∀ other ∈ server.connections, other.link ≠ connection.link) := by
  rcases serves_start h with ⟨hfirst, hserves⟩
  rcases hserves.after hfirst events with ⟨granted, hafter⟩
  have hconfig : (server.after events).engine.config = config :=
    hafter.config.trans (start_ready h).1
  refine ⟨hafter.distinct, ?_⟩
  simp only [accept, hconfig]
  have hmost := hafter.atMost
  rw [hconfig] at hmost
  by_cases hfull : config.maxConnections ≤ (server.after events).connections.length
  · exact Or.inl ⟨Nat.le_antisymm hmost hfull, if_pos hfull⟩
  · refine Or.inr ⟨Nat.lt_of_not_le hfull, (Connection.opened (server.after events).engine).1, ?_⟩
    rw [if_neg hfull]
    exact ⟨rfl, rfl, fun other hmem => Nat.ne_of_lt (hafter.fresh hfirst hmem)⟩

-- The limit is on the clients that are served now: the one that leaves makes room for the last.
example : ((Server.mk (Engine.start { maxConnections := 1 } .missing "id") []).after
    [.arrival, .arrival, .departure 0, .arrival]).connections.map (·.link) = [1] := by
  decide +kernel

/-- What has happened at a master is a run of connections from its start. So its registry has one
    entry of each client for each resync that the client was granted, and one less when the client
    is gone. -/
theorem after_registers (hmaster : config.replicaOf = none)
    (h : start config file replicationId now port input = .ok (server, rest))
    (events : List Event) :
    ∃ log, Crowd.Run (Crowd.start config file replicationId) log (server.after events).crowd ∧
      ∀ connection ∈ (server.after events).connections,
        ((server.after events).engine.entriesOn connection.link).length =
            log.count connection.link ∧
        (((server.after events).dismiss connection.link).engine.entriesOn connection.link).length =
            log.count connection.link - 1 := by
  rcases serves_start h with ⟨hfirst, hserves⟩
  rcases hserves.after hfirst events with ⟨log, hafter⟩
  rw [List.nil_append] at hafter
  have hstart : server.crowd = Crowd.start config file replicationId := by
    simp only [start, hmaster, Except.ok.injEq, Prod.mk.injEq] at h
    rw [← h.1]
    rfl
  refine ⟨log, hstart ▸ hafter.run, fun connection hmem => ⟨?_, ?_⟩⟩
  · have hserved := served_of_mem hafter.distinct hmem
    exact ((hafter.run.books hfirst).of_served hserved).2.2.1
  · have hgone := hafter.dismiss connection.link
    have hholds := (hgone.run.books hfirst).holds connection.link
    have hnone : ((server.after events).dismiss connection.link).crowd.served connection.link =
        none := by
      rw [crowd_dismiss (served_of_mem hafter.distinct hmem)]
      exact Function.update_self ..
    rw [hnone] at hholds
    cases hholds with
    | gone hentries => exact hentries

end Start

end Server

end KeyValue
