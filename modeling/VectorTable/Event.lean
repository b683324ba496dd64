/-! Log events as values. An event has a level, the area of the program that it
comes from, a message and named fields; which of them reach a log is decided by
the log's filter and not here. -/
namespace VectorTable

inductive Level where
  | error | warn | info | debug | trace
  deriving DecidableEq, Repr

namespace Level

/-- More talkative levels have higher numbers. -/
def verbosity : Level → Nat
  | .error => 1
  | .warn => 2
  | .info => 3
  | .debug => 4
  | .trace => 5

def name : Level → String
  | .error => "ERROR"
  | .warn => "WARN"
  | .info => "INFO"
  | .debug => "DEBUG"
  | .trace => "TRACE"

end Level

/-- The parts of the program that log. -/
inductive Area where
  | index | gather | file | table | inspect | migrate | command
  deriving DecidableEq, Repr

/-- The path under which a log filter addresses an area. -/
def Area.path : Area → String
  | .index => "embedding_table::index"
  | .gather => "embedding_table::backend"
  | .file => "embedding_table::codec"
  | .table => "embedding_table::embedding"
  | .inspect => "embedding_table::commands::inspect"
  | .migrate => "embedding_table::commands::migrate"
  | .command => "embedding_table"

inductive FieldValue where
  | number (n : Int)
  | flag (b : Bool)
  | text (s : String)
  deriving DecidableEq, Repr

structure Event where
  level : Level
  area : Area
  message : String
  fields : List (String × FieldValue) := []
  deriving DecidableEq, Repr

end VectorTable
