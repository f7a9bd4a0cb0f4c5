import CycleBench.Event
import CycleBench.Text.Quoted

/-!
The line of an event in a text log: the level right-aligned, the target, the message and the
fields.
-/

namespace CycleBench

def FieldValue.text : FieldValue → String
  | number value => toString value
  | flag value => if value then "true" else "false"
  | plain text => text
  | quoted text => Text.quoted text

namespace Event

/-- Level names fill five columns. -/
def levelColumn (level : Level) : String :=
  String.ofList (List.replicate (5 - level.name.length) ' ') ++ level.name

def line (event : Event) : String :=
  levelColumn event.level ++ " " ++ event.target.path ++ ": " ++ event.message ++
    String.join (event.fields.map fun field => " " ++ field.1 ++ "=" ++ field.2.text)

end Event

/-- The lines of a log, each ended by a line feed. -/
def Log.text (log : Log) : String :=
  String.join (log.toList.map fun event => event.line ++ "\n")

end CycleBench
