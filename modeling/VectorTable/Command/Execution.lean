import VectorTable.Command.LogLine
import VectorTable.Command.Report
import VectorTable.EventFilter
import VectorTable.Table

/-! What the commands do to a file system and what they print. A command that
fails says so in its log and in its exit code. -/
namespace VectorTable.Command

/-- Why a command comes to nothing. All but the last are failures that it reports; where memory
runs out, the program ends. -/
inductive Failure where
  | outputExists (path : String)
  | opening (path : String) (fault : IoFault)
  | reading (path : String) (fault : IoFault)
  | decoding (path : String) (error : Error)
  | writing (path : String) (error : Error)
  | outOfMemory
  deriving DecidableEq, Repr

namespace Failure

/-- What became of a table that was to be read from a file. -/
def ofReading (path : String) : Error → Failure
  | .outOfMemory => .outOfMemory
  | error => .decoding path error

def message : Failure → String
  | .outputExists path => path ++ " already exists; pass --force to overwrite"
  | .opening path _ => "failed to open table: " ++ path
  | .reading path _ => "failed to read table: " ++ path
  | .decoding path _ => "failed to decode table: " ++ path
  | .writing path _ => "failed to write table: " ++ path
  | .outOfMemory => Error.outOfMemory.message

def cause? : Failure → Option String
  | .outputExists _ | .outOfMemory => none
  | .opening _ fault | .reading _ fault => some fault.message
  | .decoding _ error | .writing _ error => some error.message

/-- The exit code of the program. -/
def code : Failure → UInt8
  | .outOfMemory => 101
  | _ => 1

/-- A failure that is reported, in a log: what went wrong, and on a line of its own why. -/
def events (f : Failure) : List Event :=
  let event (message : String) : Event := ⟨.error, .command, message, []⟩
  event ("command failed: " ++ f.message) ::
    (f.cause?.map fun cause => event ("  caused by: " ++ cause)).toList

end Failure

/-- The items of a kind. -/
def ItemKind.type : ItemKind → Type
  | .string => String
  | .u64 => UInt64
  | .i64 => Int64

instance : (kind : ItemKind) → DecidableEq kind.type
  | .string => inferInstanceAs (DecidableEq String)
  | .u64 => inferInstanceAs (DecidableEq UInt64)
  | .i64 => inferInstanceAs (DecidableEq Int64)

instance : (kind : ItemKind) → Item kind.type
  | .string => inferInstanceAs (Item String)
  | .u64 => inferInstanceAs (Item UInt64)
  | .i64 => inferInstanceAs (Item Int64)

/-! ### Inspecting -/

def decoded {α : Type} (p : Persisted α) : Event :=
  ⟨.debug, .inspect, "decoded table",
    [("version", .number p.version.toNat), ("retrofitted", .flag p.retrofitted)]⟩

/-- The report on a file with items of a type. -/
def InspectRequest.runAs (α : Type) [DecidableEq α] [Item α] (r : InspectRequest) (fs : Files) :
    Run Event Failure Report := do
  let source ← (fs.openSource r.file).mapError (Failure.opening r.file)
  let (p, _) ← (Persisted.read (α := α) source).mapError (Failure.ofReading r.file)
  Run.tell (decoded p)
  pure (Report.ofPersisted r.file r.showItems p)

def InspectRequest.run (r : InspectRequest) (fs : Files) : Run Event Failure Report :=
  r.runAs r.itemKind.type fs

/-! ### Migrating -/

def migrated {α : Type} [Item α] (bytes : List UInt8) (t : Table α) (output : String) : Event :=
  ⟨.info, .migrate, "migrated embedding table",
    [("from_version", .number (bytes.headD 0).toNat), ("to_version", .number currentVersion.toNat),
     ("num_items", .number t.numItems), ("embedding_size", .number t.width),
     ("output", .text output)]⟩

/-- The bytes of the input and the table that they make. -/
def restoreInput (α : Type) [DecidableEq α] [Item α] (fs : Files) (input : String) :
    Run Event Failure (List UInt8 × Table α) := do
  let bytes ← (fs.read input).mapError (Failure.reading input)
  let (t, _) ← (Table.restore ⟨bytes, .endOfData⟩ Fallthrough.none).mapError (Failure.ofReading input)
  pure (bytes, t)

/-- Read a table of any version and write it in the current one. Nothing is written
unless the whole input makes a table. -/
def MigrateRequest.runAs (α : Type) [DecidableEq α] [Item α] (r : MigrateRequest) (fs : Files) :
    Files × Run Event Failure Unit :=
  let input := restoreInput α fs r.input
  match input.result with
  | .error f => (fs, ⟨input.trail, .error f⟩)
  | .ok (bytes, t) =>
    let (after, outcome) := t.saveFile fs r.output
    (after, do
      Run.tellAll input.trail
      outcome.mapError (Failure.writing r.output)
      Run.tell (migrated bytes t r.output))

def MigrateRequest.run (r : MigrateRequest) (fs : Files) : Files × Run Event Failure Unit :=
  if fs.pathExists r.output && !r.force then (fs, Run.fail (.outputExists r.output))
  else r.runAs r.itemKind.type fs

/-! ### The whole program -/

/-- What is left when the program ends. -/
structure Outcome where
  code : UInt8
  stdout : String := ""
  /-- The lines of the log. -/
  stderr : List String := []
  files : Files
  deriving DecidableEq, Repr

/-- The files after a request, and what it prints. -/
def Request.run (request : Request) (fs : Files) : Files × Run Event Failure String :=
  match request with
  | .inspect r =>
    (fs, (fun report => if r.json then report.jsonText else report.text) <$> r.run fs)
  | .migrate r =>
    let (after, outcome) := r.run fs
    (after, (fun _ => "") <$> outcome)

/-- What a request leaves, with a log of the events that a filter lets pass. The log breaks off
where memory runs out, and the end of the program is told outside of it. -/
def Request.outcome (request : Request) (fs : Files) (filter : EventFilter) (format : LogFormat) :
    Outcome :=
  let lines (events : List Event) := (events.filter filter.passes).map fun e => e.line format
  let (files, r) := request.run fs
  match r.result with
  | .ok stdout => ⟨0, stdout, lines r.trail, files⟩
  | .error .outOfMemory =>
    ⟨Failure.code .outOfMemory, "", lines r.trail ++ ["error: " ++ Failure.message .outOfMemory],
      files⟩
  | .error f => ⟨f.code, "", lines (r.trail ++ f.events), files⟩

/-- Nothing is begun without a log. -/
def Invocation.run (i : Invocation) (fs : Files) : Outcome :=
  match EventFilter.parse? i.logLevel with
  | some filter => i.request.outcome fs filter i.logFormat
  | none =>
    { code := 101, stderr := ["error: a part of the log level ends inside a character"], files := fs }

def programName : String := "embedding-table"

def usage : List String := [
  "Usage: " ++ programName ++ " [OPTIONS] <COMMAND>",
  "  inspect [--item-type TYPE] [--json] [--show-items N] FILE",
  "  migrate [--item-type TYPE] [--force] INPUT OUTPUT",
  "Options: --log-level LEVEL, --log-format FORMAT, --help, --version"]

def run (fs : Files) (arguments : List String) : Outcome :=
  match Invocation.parse arguments with
  | .ok i => i.run fs
  | .error .misuse => { code := 2, stderr := "error: these arguments make no command" :: usage, files := fs }
  | .error .help => { code := 0, stdout := String.join (usage.map (· ++ "\n")), files := fs }
  | .error .version => { code := 0, stdout := programName ++ " 0.1.0\n", files := fs }

end VectorTable.Command
