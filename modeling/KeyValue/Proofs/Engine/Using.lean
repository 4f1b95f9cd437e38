import KeyValue.Proofs.Engine.Requests
import KeyValue.Proofs.Keyspace.Locality

/-!
# What a session uses of the engine

Sessions share the keyspace, and what is reported about the role. A session uses them in one go, with
no other session in between: it runs a request as a whole, looks up where a read of a stream is to
start, or looks at one stream (`Use`). A read of several streams is several uses.

A use touches some keys, or the role, and it neither looks at anything else nor changes it. Two uses
are `Apart` if they touch nothing in common, or only read at the same time. Then they can come in
either order (`swap`).

## Main definitions

* `Place`, `Use`, `Use.touches`: What is used, and what of it is touched.
* `Use.on`: A use, with what it finds.
* `Engine.Same`: Engines that no request tells apart.
* `Use.Apart`: Uses that can come in either order.

## Theorems

* `Use.onKeys_local`, `Use.onKeys_reads`: What a use does to the keys.
* `Use.on_congr`: A use finds the same in engines that are the same.
* `Use.swap`: Two uses in either order.
-/

namespace KeyValue

/-- What sessions share: what a key holds, and what is reported about the role. -/
inductive Place where
  | key (key : String)
  | role
  deriving DecidableEq

/-- What is used in one go. -/
inductive Use where
  /-- A request is run; a read of streams is not run as a whole. -/
  | run (request : Request) (hwhole : ∀ arguments, request ≠ .readStreams arguments)
  /-- The start of a read of a stream is looked up. -/
  | resolve (key id : String)
  /-- A stream is looked at. -/
  | look (count : Option Nat) (cursor : Cursor)
  /-- The role changes, as when a replica comes or goes. -/
  | become (role : Role)

/-- What is found by a use. -/
inductive Finding where
  | reply (result : Except Error Reply)
  | start (result : Except Error Cursor)
  | entries (result : Except Error (List StreamEntry))
  | nothing

/-- The request looks at the place, or changes it. -/
def Request.touches (place : Place) : Request → Prop
  | set key _ _ => place = .key key
  | get key => place = .key key
  | increment key => place = .key key
  | type key => place = .key key
  | addEntry key _ _ => place = .key key
  | range key _ _ _ => place = .key key
  | keys _ => place ≠ .role
  | info _ => place = .role
  | _ => False

namespace Use

/-- The use looks at the place, or changes it. -/
def touches (place : Place) : Use → Prop
  | run request _ => request.touches place
  | resolve key _ => place = .key key
  | look _ cursor => place = .key cursor.key
  | become _ => place = .role

/-- The use changes nothing, except that keys may be removed that are expired. -/
def isRead : Use → Bool
  | run request _ => !request.isWrite
  | become _ => false
  | _ => true

/-- What is used at the time `now`, with what is found. -/
def on (engine : Engine) (now : UInt64) : Use → Finding × Engine
  | run request _ => (.reply (engine.run now request).1, (engine.run now request).2)
  | resolve key id =>
    let (cursor, engine) := engine.withKeyspace (Cursor.resolve engine.keyspace now key id)
    (.start cursor, engine)
  | look count cursor =>
    let (entries, engine) := engine.withKeyspace (cursor.read engine.keyspace now count)
    (.entries entries, engine)
  | become role => (.nothing, { engine with role })

/-- The role after the use. -/
def roleAfter (role : Role) : Use → Role
  | become role => role
  | _ => role

/-- What the use does to the keyspace. -/
def onKeys (use : Use) (engine : Engine) (now : UInt64) (keyspace : Keyspace) :
    Finding × Keyspace :=
  ((use.on { engine with keyspace } now).1, (use.on { engine with keyspace } now).2.keyspace)

/-- Uses that can come in either order: what both of them touch, they read at the same time. -/
def Apart (use use' : Use) (now now' : UInt64) : Prop :=
  ∀ place, use.touches place → use'.touches place →
    use.isRead = true ∧ use'.isRead = true ∧ now = now'

end Use

/-- Engines that no request tells apart: each key holds the same, and the same is reported. -/
structure Engine.Same (a b : Engine) : Prop where
  config : a.config = b.config
  file : a.file = b.file
  facts : a.role.facts = b.role.facts
  items : ∀ key, a.keyspace.item? key = b.keyspace.item? key

theorem Engine.Same.refl (engine : Engine) : engine.Same engine := ⟨rfl, rfl, rfl, fun _ => rfl⟩

theorem Engine.Same.symm {a b : Engine} (h : a.Same b) : b.Same a :=
  ⟨h.config.symm, h.file.symm, h.facts.symm, fun key => (h.items key).symm⟩

theorem Engine.Same.trans {a b c : Engine} (h : a.Same b) (h' : b.Same c) : a.Same c :=
  ⟨h.config.trans h'.config, h.file.trans h'.file, h.facts.trans h'.facts,
    fun key => (h.items key).trans (h'.items key)⟩

namespace Use

variable {use use' : Use} {a b engine : Engine} {now now' : UInt64}

/-- No use changes the configuration or the file. -/
theorem on_setting (use : Use) (engine : Engine) (now : UInt64) :
    (use.on engine now).2.config = engine.config ∧ (use.on engine now).2.file = engine.file := by
  cases use with
  | run request hwhole =>
      rcases engine.run_frame now request with ⟨keyspace, readers, hrun⟩
      simp only [on, hrun, and_self]
  | _ => exact ⟨rfl, rfl⟩

theorem on_role (use : Use) (engine : Engine) (now : UInt64) :
    (use.on engine now).2.role = use.roleAfter engine.role := by
  cases use with
  | run request hwhole =>
      rcases engine.run_frame now request with ⟨keyspace, readers, hrun⟩
      simp only [on, hrun, roleAfter]
  | _ => rfl

-- What a use does to the keyspace depends on nothing else than what it touches.
theorem onKeys_congr (hconfig : a.config = b.config) (hfile : a.file = b.file)
    (hfacts : use.touches .role → a.role.facts = b.role.facts) :
    use.onKeys a now = use.onKeys b now := by
  funext keyspace
  cases use with
  | run request hwhole =>
      cases request with
      | readStreams arguments => exact absurd rfl (hwhole arguments)
      | addEntry key id fields =>
          simp only [onKeys, on, Engine.run_addEntry]
      | info topic => simp only [onKeys, on, Engine.run, Report.info, hfacts rfl]
      | ping message => cases message <;> rfl
      | _ => simp only [onKeys, on, Engine.run, Engine.withKeyspace, hconfig, hfile]
  | _ => rfl

/-- A use that reads finds what is live, and at most removes what is not. -/
theorem onKeys_reads (engine : Engine) (now : UInt64) (h : use.isRead = true) :
    Keyspace.Reads now (fun key => use.touches (.key key)) (use.onKeys engine now) := by
  cases use with
  | become role => simp [isRead] at h
  | resolve key id =>
      exact ((Cursor.resolve_reads now key id).map Finding.start).imp fun _ => congrArg Place.key
  | look count cursor =>
      exact ((Cursor.read_reads now count cursor).map Finding.entries).imp fun _ =>
        congrArg Place.key
  | run request hwhole =>
      cases request with
      | readStreams arguments => exact absurd rfl (hwhole arguments)
      | get key =>
          exact ((KeyCommand.get_reads engine.file now key).map Finding.reply).imp fun _ =>
            congrArg Place.key
      | type key =>
          exact ((KeyCommand.type_reads engine.file now key).map Finding.reply).imp fun _ =>
            congrArg Place.key
      | keys pattern =>
          exact ((KeyCommand.keys_reads engine.file now pattern).map Finding.reply).imp fun _ _ =>
            by simp [touches, Request.touches]
      | range key start stop options =>
          exact ((StreamCommand.range_reads now key start stop options).map Finding.reply).imp
            fun _ => congrArg Place.key
      | set | increment | addEntry => simp [isRead, Request.isWrite] at h
      | ping message => cases message <;> exact Keyspace.reads_of_still (fun _ _ => rfl) fun _ => rfl
      | _ => exact Keyspace.reads_of_still (fun _ _ => rfl) fun _ => rfl

/-- A use looks at the keys that it touches only, and changes no other. -/
theorem onKeys_local (use : Use) (engine : Engine) (now : UInt64) :
    Keyspace.Local (fun key => use.touches (.key key)) (use.onKeys engine now) := by
  by_cases hread : use.isRead = true
  · exact (onKeys_reads engine now hread).toLocal
  · cases use with
    | run request hwhole =>
        cases request with
        | set key value options =>
            exact ((KeyCommand.set_local now key value options).map Finding.reply).imp fun _ =>
              congrArg Place.key
        | increment key =>
            exact ((KeyCommand.increment_local now key).map Finding.reply).imp fun _ =>
              congrArg Place.key
        | addEntry key id fields =>
            have hadd := (StreamCommand.addEntry_local now key id fields).map fun result =>
              Finding.reply (result.map fun id => Reply.bulkText id.text)
            have hon : (run (.addEntry key id fields) hwhole).onKeys engine now = fun keyspace =>
                (.reply ((StreamCommand.addEntry keyspace now key id fields).1.map
                  fun id => .bulkText id.text),
                  (StreamCommand.addEntry keyspace now key id fields).2) := by
              funext keyspace
              simp only [onKeys, on, Engine.run_addEntry]
            rw [hon]
            exact hadd.imp fun _ => congrArg Place.key
        | _ => simp [isRead, Request.isWrite] at hread
    | become role => exact Keyspace.local_of_still (fun _ _ => rfl) fun _ => rfl
    | _ => simp [isRead] at hread

/-- In engines that are the same a use finds the same, and leaves them the same. -/
theorem on_congr (use : Use) (now : UInt64) (h : a.Same b) :
    (use.on a now).1 = (use.on b now).1 ∧ (use.on a now).2.Same (use.on b now).2 := by
  have hlocal := use.onKeys_local b now
  have hsame : use.onKeys a now = use.onKeys b now :=
    onKeys_congr h.config h.file fun _ => h.facts
  have hfinds : (use.on a now).1 = (use.onKeys a now a.keyspace).1 := rfl
  have hleaves : (use.on a now).2.keyspace = (use.onKeys a now a.keyspace).2 := rfl
  rw [hsame] at hfinds hleaves
  have hsetting := use.on_setting a now
  have hsetting' := use.on_setting b now
  refine ⟨hfinds.trans (hlocal.result fun key _ => h.items key),
    ⟨?_, ?_, ?_, fun key => ?_⟩⟩
  · rw [hsetting.1, hsetting'.1, h.config]
  · rw [hsetting.2, hsetting'.2, h.file]
  · rw [on_role, on_role]
    cases use with
    | become role => rfl
    | _ => exact h.facts
  · rw [hleaves]
    by_cases hkey : use.touches (.key key)
    · exact hlocal.inside (fun other _ => h.items other) key hkey
    · exact (hlocal.outside _ key hkey).trans
        ((h.items key).trans (hlocal.outside b.keyspace key hkey).symm)

-- Apart from each other, neither use looks at the role if the other changes it.
theorem Apart.facts_eq (h : Apart use use' now now') (engine : Engine)
    (htouches : use'.touches .role) :
    (use.on engine now).2.role.facts = engine.role.facts := by
  rw [on_role]
  cases use with
  | become role => exact absurd (h .role rfl htouches).1 (by simp [isRead])
  | _ => rfl

theorem Apart.symm (h : Apart use use' now now') : Apart use' use now' now := by
  intro place htouches htouches'
  rcases h place htouches' htouches with ⟨hread, hread', hnow⟩
  exact ⟨hread', hread, hnow.symm⟩

theorem Apart.commutes (h : Apart use use' now now') (engine : Engine) :
    Keyspace.Commutes (use.onKeys engine now) (use'.onKeys engine now') := by
  by_cases hshared : ∃ place, use.touches place ∧ use'.touches place
  · rcases hshared with ⟨place, htouches, htouches'⟩
    rcases h place htouches htouches' with ⟨hread, hread', rfl⟩
    exact (onKeys_reads engine now hread).commutes (onKeys_reads engine now hread')
  · exact (use.onKeys_local engine now).commutes (use'.onKeys_local engine now') fun key hkey hkey' =>
      hshared ⟨.key key, hkey, hkey'⟩

/-- Two uses that are apart find the same in either order, and leave the engine the same. -/
theorem swap (h : Apart use use' now now') (engine : Engine) :
    (use'.on (use.on engine now).2 now').1 = (use'.on engine now').1 ∧
      (use.on (use'.on engine now').2 now).1 = (use.on engine now).1 ∧
      (use'.on (use.on engine now).2 now').2.Same (use.on (use'.on engine now').2 now).2 := by
  have hsecond : ∀ {use use' : Use} {now now' : UInt64}, Apart use use' now now' →
      use'.onKeys (use.on engine now).2 now' = use'.onKeys engine now' := by
    intro use use' now now' h
    have hsetting := use.on_setting engine now
    exact onKeys_congr hsetting.1 hsetting.2 (h.facts_eq engine)
  rcases h.commutes engine engine.keyspace with ⟨hfinds, hfinds', hitems⟩
  have hlast := congrFun (hsecond h) (use.onKeys engine now engine.keyspace).2
  have hlast' := congrFun (hsecond h.symm) (use'.onKeys engine now' engine.keyspace).2
  refine ⟨(congrArg Prod.fst hlast).trans hfinds, (congrArg Prod.fst hlast').trans hfinds',
    ?_, ?_, ?_, fun key => ?_⟩
  · rw [(use'.on_setting _ now').1, (use.on_setting _ now).1, (use.on_setting _ now).1,
      (use'.on_setting _ now').1]
  · rw [(use'.on_setting _ now').2, (use.on_setting _ now).2, (use.on_setting _ now).2,
      (use'.on_setting _ now').2]
  · -- Not both of them change the role.
    simp only [on_role]
    cases use with
    | become role =>
        cases use' with
        | become role' => exact absurd (h .role rfl rfl).1 (by simp [isRead])
        | _ => rfl
    | _ => rfl
  · have hfirst := congrArg (fun after : Finding × Keyspace => after.2.item? key) hlast
    have hfirst' := congrArg (fun after : Finding × Keyspace => after.2.item? key) hlast'
    exact hfirst.trans ((hitems key).trans hfirst'.symm)

end Use

end KeyValue
