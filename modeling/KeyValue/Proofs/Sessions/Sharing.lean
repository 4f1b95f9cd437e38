import KeyValue.Proofs.Replication.Simulation
import KeyValue.Proofs.Sessions.Enrolling

/-!
# Connections beside each other

What the other connections do to one that stays as it is: they change neither what the master
announces nor whether its link is open, and what they write to its link is whole frames, each once
for each time that the link is registered.

The frames are requests for an acknowledgement and writes in the bytes they came in. The commands
were handed out by framers, so their bytes are read as these commands, whoever reads them
(`Crowd.Framed`).

## Main definitions

* `Frame.command`: The command that a frame is.
* `Engine.WritesFrames`: What is written to a link in between is frames.
* `Crowd.Framed`: What connections have framed is read in the same way from its bytes.

## Theorems

* `Crowd.Step.setup`, `Crowd.Run.framed`: What all steps keep.
* `Connection.handle_beside`: What handling writes to the link of another connection.
* `Crowd.Step.beside`: What a step does to a connection that stays as it is.
-/

namespace KeyValue

open Framer

/-- The command that a frame is. -/
def Frame.command : Frame → Command
  | ask => Master.ask
  | write command => command

/-- The bytes of a frame are those of its command. -/
theorem Frame.bytes_eq (frame : Frame) : frame.bytes = frame.command.raw := by
  cases frame <;> rfl

-- A framer at a position that is reached by what it has read stays at such positions.
theorem Framer.absorb_contained {position : Position} (unread chunk : Bytes)
    (h : Contained position) :
    ∃ events last left, (framerAt position unread).absorb chunk = (events, framerAt last left) ∧
      Contained last ∧ ∀ command, .ok command ∈ events → command.Framed := by
  rcases drain_framerAt position unread chunk with ⟨events, last, left, hreads, hstops, hdrain⟩
  rcases hreads.framed h with ⟨hlast, hframed⟩
  unfold Framer.absorb
  rw [hdrain, drained]
  rcases hstops with hmore | ⟨e, hrefused⟩
  · rw [hmore]
    exact ⟨events, last, left, by cases last <;> rfl, hlast, hframed⟩
  · -- A framer that has failed starts afresh.
    rw [hrefused]
    refine ⟨events ++ [.error e], .start, [], rfl, .here _ _, fun command hmem => ?_⟩
    rcases List.mem_append.mp hmem with hbefore | hlast
    · exact hframed command hbefore
    · simp at hlast

namespace Engine

/-- A command sends frames, all of which are read as what they are if the command is. -/
theorem dispatch_frames (engine : Engine) (session : Session) (now : UInt64) {command : Command}
    (h : command.Framed) :
    ∃ frames, engine.Sends frames (engine.dispatch session now command).2.1 ∧
      ∀ frame ∈ frames, frame.command.Framed := by
  have hallows : ∃ response,
      (engine.dispatch session now command).1.Allows response := by
    cases (engine.dispatch session now command).1 with
    | answered response => exact ⟨response, rfl⟩
    | waits pending index => exact ⟨default, trivial⟩
  rcases hallows with ⟨response, hallows⟩
  rcases engine.dispatch_sends session now command hallows with ⟨frames, hsends, hwrites⟩
  refine ⟨frames, hsends, fun frame hmem => ?_⟩
  cases frame with
  | ask => exact framed_of_delivered Master.ask_delivered
  | write sent =>
      -- The only write that is sent is the command itself.
      have hsent : sent ∈ frames.flatMap (·.writes) :=
        List.mem_flatMap.mpr ⟨_, hmem, List.mem_cons_self⟩
      rw [hwrites] at hsent
      have hsame : sent = command := by
        unfold Answered.writes at hsent
        split at hsent
        · exact List.mem_singleton.mp hsent
        · simp at hsent
      exact hsame ▸ h

/-- What is written to a link in between is frames, each once for each time that the link is
    registered, and they are read as what they are. -/
def WritesFrames (before : Engine) (link : Nat) (after : Engine) : Prop :=
  ∃ frames : List Frame,
    after.links.written link = before.links.written link ++ frames.flatMap (fun frame =>
      (List.replicate (before.copies link) frame.bytes).flatten) ∧
    ∀ frame ∈ frames, frame.command.Framed

/-- Where nothing was written no frames were. -/
theorem WritesFrames.of_nothing {before after : Engine} {link : Nat}
    (h : after.links.written link = before.links.written link) :
    before.WritesFrames link after :=
  ⟨[], by rw [h, List.flatMap_nil, List.append_nil], by simp⟩

end Engine

namespace Connection

variable (connection : Connection) (engine : Engine)

/-- A replica that is registered changes the registry, which is not announced. -/
theorem enroll_setup : engine.SameSetup (connection.enroll engine).2 := by
  unfold enroll
  cases hrole : engine.role with
  | replica replica => exact .refl engine
  | master master =>
      refine ⟨rfl, rfl, ?_⟩
      simp only [Engine.announced, hrole]
      rfl

/-- A response is written to a link and may register it, and neither is announced. -/
theorem answer_setup (response : Response) :
    engine.SameSetup (connection.answer engine response).2 := by
  cases response with
  | reply reply => exact ⟨rfl, rfl, rfl⟩
  | silent => exact .refl engine
  | fullResync header snapshot =>
      have hannounce : engine.SameSetup (connection.announce engine header snapshot) :=
        ⟨rfl, rfl, rfl⟩
      exact hannounce.trans (connection.enroll_setup _)

theorem handle_setup (now : UInt64) (event : Event) :
    engine.SameSetup (connection.handle engine now event).2 := by
  cases event with
  | error e => exact ⟨rfl, rfl, rfl⟩
  | ok command =>
      have hdispatch := engine.dispatch_setup now connection.session command
      simp only [handle]
      split <;> (rename_i hresult; rw [hresult] at hdispatch)
      · exact hdispatch.trans (answer_setup _ _ _)
      · exact hdispatch

theorem close_setup : engine.SameSetup (connection.close engine) := by
  unfold close
  cases connection.session.replicaId with
  | none => exact ⟨rfl, rfl, rfl⟩
  | some id =>
      have hremove : engine.SameSetup (engine.updateMaster (·.remove id)) :=
        engine.updateMaster_setup fun _ => rfl
      exact hremove.trans ⟨rfl, rfl, rfl⟩

section Beside

variable {link : Nat} (hne : link ≠ connection.link)
include hne

/-- What is written to a link of its own is not seen on other links. -/
theorem write_beside (bytes : Bytes) :
    (connection.write engine bytes).links.written link = engine.links.written link := by
  rw [write, Links.written_write, if_neg fun h => hne h.1]

theorem answer_beside (response : Response) :
    (connection.answer engine response).2.links.written link = engine.links.written link := by
  cases response with
  | reply reply => exact connection.write_beside engine hne _
  | silent => rfl
  | fullResync header snapshot =>
      rw [answer, enroll_links, announce]
      exact connection.write_beside engine hne _

/-- What is written to the link of another connection is frames. -/
theorem handle_beside (hopen : engine.links.isOpen link = true) (now : UInt64) {event : Event}
    (hframed : ∀ command, event = .ok command → command.Framed) :
    engine.WritesFrames link (connection.handle engine now event).2 := by
  cases event with
  | error e => exact .of_nothing (connection.write_beside engine hne _)
  | ok command =>
      rcases engine.dispatch_frames connection.session now (hframed command rfl) with
        ⟨frames, hsends, hall⟩
      refine ⟨frames, ?_, hall⟩
      have hwritten := hsends.written link hopen
      rw [← hwritten]
      simp only [handle]
      split <;> (rename_i hresult; rw [hresult])
      rename_i response after session
      exact answer_beside { connection with session } after hne response

end Beside

end Connection

namespace Crowd

open Connection

/-- No step changes what a master announces. -/
theorem Step.setup {before after : Crowd} {granted : List Nat} (h : Step before granted after) :
    before.engine.SameSetup after.engine := by
  cases h with
  | connect => exact ⟨rfl, rfl, rfl⟩
  | arrive => exact .refl _
  | handle now => exact handle_setup _ _ now _
  | @look _ _ waiting _ now _ _ hresume =>
      have hsetup := before.engine.resume_setup now waiting.pending waiting.index
      rwa [hresume] at hsetup
  | @answer _ _ waiting response middle now _ _ hanswer =>
      have hsetup : before.engine.SameSetup middle := by
        rcases hanswer with hresume | hgiveUp
        · have hsetup := before.engine.resume_setup now waiting.pending waiting.index
          rwa [hresume] at hsetup
        · have hsetup := before.engine.giveUp_setup now waiting.pending waiting.index
          rwa [hgiveUp] at hsetup
      exact hsetup.trans (answer_setup _ _ _)
  | close => exact close_setup _ _

end Crowd

/-- What the connection has framed is read in the same way from its bytes, and so is what it is
    going to frame. -/
structure Connection.Framed (connection : Connection) : Prop where
  framer : ∃ position unread, connection.framer = framerAt position unread ∧ Contained position
  backlog : ∀ command, .ok command ∈ connection.backlog → command.Framed

/-- Only what was received matters. -/
theorem Connection.Framed.congr {connection next : Connection} (h : connection.Framed)
    (hframer : next.framer = connection.framer) (hbacklog : next.backlog ⊆ connection.backlog) :
    next.Framed :=
  ⟨hframer ▸ h.framer, fun command hmem => h.backlog command (hbacklog hmem)⟩

namespace Crowd

open Connection

/-- What the connections have framed is read in the same way from its bytes. -/
def Framed (crowd : Crowd) : Prop :=
  ∀ link connection, crowd.served link = some connection → connection.Framed

/-- A connection in its place is framed if it was put there so. -/
theorem Framed.put {crowd : Crowd} (h : crowd.Framed) {connection : Connection}
    (hconnection : connection.Framed) (engine : Engine) : (crowd.put connection engine).Framed := by
  intro link other hother
  simp only [Crowd.put, Function.update_apply] at hother
  split at hother
  · rw [← Option.some.inj hother]
    exact hconnection
  · exact h link other hother

/-- Steps keep it that way. -/
theorem Step.framed {before after : Crowd} {granted : List Nat} (h : Step before granted after)
    (hframed : before.Framed) : after.Framed := by
  cases h with
  | connect => exact hframed.put ⟨⟨.start, [], rfl, .here _ _⟩, by simp [opened]⟩ _
  | @arrive link connection events framer chunk hserved habsorb =>
      have hconnection := hframed link connection hserved
      rcases hconnection.framer with ⟨position, unread, hframer, hcontained⟩
      rcases absorb_contained unread chunk hcontained with
        ⟨found, last, left, hfound, hlast, hcommands⟩
      rw [hframer, hfound] at habsorb
      obtain ⟨rfl, rfl⟩ := Prod.mk.inj habsorb
      refine hframed.put ⟨⟨last, left, rfl, hlast⟩, fun command hmem => ?_⟩ _
      rcases List.mem_append.mp hmem with hbefore | hnew
      · exact hconnection.backlog command hbefore
      · exact hcommands command hnew
  | @handle link connection event rest now hserved _ hbacklog =>
      refine hframed.put ((hframed link connection hserved).congr ?_ ?_) _
      · exact handle_framer { connection with backlog := rest } before.engine now event
      · rw [connection.handle_backlog before.engine now event rest, hbacklog]
        exact List.subset_cons_self event rest
  | look _ hserved => exact hframed.put (hframed _ _ hserved) _
  | @answer link connection _ response middle _ hserved _ hanswer =>
      have hsame := (answer_keeps { connection with suspended := none } middle
        (Engine.answers_plainly hanswer)).1
      have hidle : ({ connection with suspended := none } : Connection).Framed :=
        (hframed link connection hserved).congr rfl fun _ hmem => hmem
      rw [hsame]
      exact hframed.put hidle _
  | close hserved =>
      intro link other hother
      simp only [drop, Function.update_apply] at hother
      split at hother
      · simp at hother
      · exact hframed link other hother

/-- Every run keeps what was framed. -/
theorem Run.framed {first crowd : Crowd} {log : List Nat} (h : Run first log crowd)
    (hfirst : first.Framed) : crowd.Framed := by
  induction h with
  | start => exact hfirst
  | step _ hstep ih => exact hstep.framed ih

-- A connection that handles what it framed does not stay as it is.
theorem handle_changes (crowd : Crowd) {connection : Connection} {event : Event}
    {rest : List Event} (hbacklog : connection.backlog = event :: rest) (now : UInt64) :
    (crowd.put ({ connection with backlog := rest }.handle crowd.engine now event).1
      ({ connection with backlog := rest }.handle crowd.engine now event).2).served
        connection.link ≠ some connection := by
  intro hsame
  have hput := crowd.served_put
    ({ connection with backlog := rest }.handle crowd.engine now event).1
    ({ connection with backlog := rest }.handle crowd.engine now event).2
  rw [handle_link { connection with backlog := rest }] at hput
  have hchanged := Option.some.inj (hput.symm.trans hsame)
  rw [connection.handle_backlog crowd.engine now event rest] at hchanged
  have hlength := congrArg (·.backlog.length) hchanged
  simp [hbacklog] at hlength

/-- A connection is granted resyncs for its own link. -/
theorem notMem_granted {link : Nat} {connection : Connection} (hne : link ≠ connection.link)
    (engine : Engine) (event : Event) : link ∉ connection.granted engine event := by
  unfold granted
  split
  · exact List.not_mem_nil
  · split
    · simpa using hne
    · exact List.not_mem_nil

/-- A step that leaves a connection as it is, with no command that waits, grants its link no resync,
    and writes nothing to its link but frames. -/
theorem Step.beside {before after : Crowd} {granted log : List Nat} {link : Nat}
    {connection : Connection} (h : Step before granted after) (hbooks : Books log before)
    (hframed : before.Framed) (hserved : before.served link = some connection)
    (hidle : connection.suspended = none) (hsame : after.served link = some connection) :
    link ∉ granted ∧ before.engine.WritesFrames link after.engine := by
  have hopen := (hbooks.of_served hserved).2.1
  cases h with
  | connect =>
      refine ⟨List.not_mem_nil, .of_nothing ?_⟩
      exact (before.engine.links.connect_of_lt (Links.lt_of_isOpen hopen)).2
  | arrive => exact ⟨List.not_mem_nil, .of_nothing rfl⟩
  | @handle other acting event rest now hacting _ hbacklog =>
      rcases hbooks.of_served hacting with ⟨rfl, -, -, -⟩
      have hne : link ≠ acting.link := by
        rintro rfl
        obtain rfl := Option.some.inj (hacting.symm.trans hserved)
        exact before.handle_changes hbacklog now hsame
      refine ⟨notMem_granted hne before.engine event, ?_⟩
      refine handle_beside { acting with backlog := rest } before.engine hne hopen now ?_
      rintro command rfl
      refine (hframed _ _ hacting).backlog command ?_
      rw [hbacklog]
      exact List.mem_cons_self
  | @look _ _ waiting _ now _ _ hresume =>
      have hquiet := before.engine.resume_quiet now waiting.pending waiting.index
      rw [hresume] at hquiet
      exact ⟨List.not_mem_nil, .of_nothing (by rw [put_engine, hquiet.links])⟩
  | @answer other acting waiting response middle now hacting hwaits hanswer =>
      rcases hbooks.of_served hacting with ⟨rfl, -, -, -⟩
      have hne : link ≠ acting.link := by
        rintro rfl
        rw [hserved] at hacting
        rw [← Option.some.inj hacting, hidle] at hwaits
        simp at hwaits
      have hquiet := Engine.answers_quietly hanswer
      refine ⟨List.not_mem_nil, .of_nothing ?_⟩
      exact (answer_beside { acting with suspended := none } middle hne response).trans
        (by rw [hquiet.links])
  | @close other acting hacting =>
      refine ⟨List.not_mem_nil, .of_nothing ?_⟩
      exact (congrArg (·.written link) (close_links _ _)).trans (Links.written_close _ _ _)

end Crowd

end KeyValue
