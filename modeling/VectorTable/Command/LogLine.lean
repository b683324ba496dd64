import VectorTable.Command.Invocation
import VectorTable.Event
import VectorTable.Text.Json

/-! Events as lines of a log. -/
namespace VectorTable

def FieldValue.toJson : FieldValue → JsonValue
  | .number n => .number n
  | .flag b => .flag b
  | .text s => .text s

def FieldValue.plain : FieldValue → String
  | .number n => toString n
  | .flag b => toString b
  | .text s => s

namespace Event

def jsonLine (e : Event) : String :=
  let member (f : String × FieldValue) := JsonValue.quote f.1 ++ ":" ++ f.2.toJson.pretty 0
  let members := (("message", FieldValue.text e.message) :: e.fields).map member
  "\x7b\"level\":" ++ JsonValue.quote e.level.name ++ ",\"fields\":\x7b" ++
    ",".intercalate members ++ "\x7d\x7d"

def plainLine (e : Event) : String :=
  " ".intercalate (e.level.name :: e.message :: e.fields.map fun f => f.1 ++ "=" ++ f.2.plain)

/-- The line of an event. The two formats for readers are the same here. -/
def line (e : Event) : Command.LogFormat → String
  | .json => e.jsonLine
  | .pretty | .compact => e.plainLine

end Event
end VectorTable
