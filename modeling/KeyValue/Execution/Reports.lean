import KeyValue.Role
import KeyValue.Text.Word

/-!
# Commands that report

The server reports on its replication and on the settings of its snapshot file. Topics and
settings that it does not know are left out, not refused.

## Main definitions

* `Report.info`: The report on replication.
* `Report.config`: The report on settings.
-/

namespace KeyValue

namespace Report

/-- The topics under which replication is reported. -/
def replicationTopics : List String := ["replication", "all", "default", "everything"]

/-- The report on a topic, or on the usual topics if none is named. -/
def info (role : Role) (topic : Option String) : Reply :=
  let isWanted := match topic with
    | none => true
    | some topic => replicationTopics.contains topic.toLower
  if isWanted then
    .bulkText (String.intercalate "\r\n"
      ("# Replication" :: role.facts.map fun (name, value) => name ++ ":" ++ value))
  else .bulkText ""

/-- The value of a setting, by its name in lower case. -/
def setting? (config : Config) (name : String) : Option String :=
  if name = "dir" then some config.snapshotDirectory
  else if name = "dbfilename" then some config.snapshotName
  else none

/-- The names and values of the settings that are asked for. -/
def config (config : Config) (action : String) (parameters : List String) : Except Error Reply :=
  if Text.sameWord action "GET" then
    .ok (.bulkTexts (parameters.flatMap fun parameter =>
      match setting? config parameter.toLower with
      | some value => [parameter.toLower, value]
      | none => []))
  else .error (.malformed s!"unsupported CONFIG subcommand '{action}'")

end Report

end KeyValue
