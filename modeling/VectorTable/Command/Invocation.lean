import VectorTable.Environment

/-! The command line. Two options are understood before and after the name of a
command, and where they are given in both places the later one counts; within
one place no option may be repeated. An option takes its value after an equals
sign or from the next argument, which then must not look like an option. Two
dashes end the options. -/
namespace VectorTable.Command

/-- How the items of a file are to be read. -/
inductive ItemKind where
  | string | u64 | i64
  deriving DecidableEq, Repr

def ItemKind.ofName? : String → Option ItemKind
  | "string" => some .string
  | "u64" => some .u64
  | "i64" => some .i64
  | _ => none

inductive LogFormat where
  | pretty | compact | json
  deriving DecidableEq, Repr

def LogFormat.ofName? : String → Option LogFormat
  | "pretty" => some .pretty
  | "compact" => some .compact
  | "json" => some .json
  | _ => none

structure InspectRequest where
  file : String
  itemKind : ItemKind := .string
  json : Bool := false
  /-- How many items are listed at most. -/
  showItems : Nat := 10
  deriving DecidableEq, Repr

structure MigrateRequest where
  input : String
  output : String
  itemKind : ItemKind := .string
  /-- Whether an existing output may be replaced. -/
  force : Bool := false
  deriving DecidableEq, Repr

inductive Request where
  | inspect (r : InspectRequest)
  | migrate (r : MigrateRequest)
  deriving DecidableEq, Repr

structure Invocation where
  logLevel : String := "info"
  logFormat : LogFormat := .pretty
  request : Request
  deriving DecidableEq, Repr

/-- Why arguments lead to no command. -/
inductive Stop where
  | help
  | version
  | misuse
  deriving DecidableEq, Repr

/-- What may stand in one place of the command line. -/
structure Place where
  /-- The options with a value, and which values they accept. -/
  valued : List (String × (String → Bool))
  flags : List String := []
  /-- The number of arguments that are no options. -/
  operands : Nat := 0
  hasVersion : Bool := false

/-- What does stand there. -/
structure Found where
  values : List (String × String) := []
  flags : List String := []
  operands : List String := []
  deriving DecidableEq, Repr

namespace Found

def addValue (f : Found) (place : Place) (name value : String) : Except Stop Found :=
  match place.valued.lookup name with
  | some accepts =>
    if accepts value && (f.values.lookup name).isNone then
      .ok { f with values := (name, value) :: f.values }
    else .error .misuse
  | none => .error .misuse

def addFlag (f : Found) (place : Place) (name : String) : Except Stop Found :=
  if name = "help" then .error .help
  else if name = "version" && place.hasVersion then .error .version
  else if place.flags.contains name && !f.flags.contains name then
    .ok { f with flags := name :: f.flags }
  else .error .misuse

/-- An operand is a path, and no path is empty. -/
def addOperand (f : Found) (place : Place) (word : String) : Except Stop Found :=
  if word ≠ "" ∧ f.operands.length < place.operands then
    .ok { f with operands := f.operands ++ [word] }
  else .error .misuse

end Found

/-- The shapes of an argument. A dash alone is a word like any other. -/
inductive Argument where
  | long (name : String) (value : Option String)
  | short (letter : Char)
  | dashes
  | word (text : String)
  deriving DecidableEq, Repr

def Argument.of (text : String) : Argument :=
  match text.toList with
  | ['-', '-'] => .dashes
  | '-' :: '-' :: rest =>
    let name := rest.takeWhile (· ≠ '=')
    match rest.drop name.length with
    | [] => .long (String.ofList name) none
    | _ :: value => .long (String.ofList name) (some (String.ofList value))
  | '-' :: letter :: _ => .short letter
  | _ => .word text

def shortOption (place : Place) (letter : Char) : Stop :=
  if letter = 'h' then .help
  else if letter = 'V' && place.hasVersion then .version
  else .misuse

/-- Read the arguments of a place. Where it has no operands, the first word ends it
and is left over with what follows. -/
def Place.scan (place : Place) (found : Found) : List String → Except Stop (Found × List String)
  | [] => .ok (found, [])
  | text :: rest =>
    match Argument.of text with
    | .dashes => do
      let found ← rest.foldlM (fun f word => f.addOperand place word) found
      .ok (found, [])
    | .short letter => .error (shortOption place letter)
    | .long name (some value) => do place.scan (← found.addValue place name value) rest
    | .long name none =>
      if (place.valued.lookup name).isNone then do place.scan (← found.addFlag place name) rest
      else match rest with
        | [] => .error .misuse
        | value :: rest =>
          match Argument.of value with
          | .word _ => do place.scan (← found.addValue place name value) rest
          | _ => .error .misuse
    | .word _ =>
      if place.operands = 0 then .ok (found, text :: rest)
      else do place.scan (← found.addOperand place text) rest

def logOptions : List (String × (String → Bool)) :=
  [("log-level", fun _ => true), ("log-format", fun s => (LogFormat.ofName? s).isSome)]

def kindOption : String × (String → Bool) := ("item-type", fun s => (ItemKind.ofName? s).isSome)

def frontPlace : Place := { valued := logOptions, hasVersion := true }

def inspectPlace : Place := {
  valued := kindOption :: ("show-items", fun s => (Environment.parseSize s).isSome) :: logOptions
  flags := ["json"]
  operands := 1 }

def migratePlace : Place := {
  valued := kindOption :: logOptions
  flags := ["force"]
  operands := 2 }

def Found.kind (f : Found) : ItemKind :=
  ((f.values.lookup "item-type").bind ItemKind.ofName?).getD .string

def Found.inspect (f : Found) : Except Stop Request :=
  match f.operands with
  | [file] =>
    let showItems := ((f.values.lookup "show-items").bind Environment.parseSize).getD 10
    .ok (.inspect ⟨file, f.kind, f.flags.contains "json", showItems⟩)
  | _ => .error .misuse

def Found.migrate (f : Found) : Except Stop Request :=
  match f.operands with
  | [input, output] => .ok (.migrate ⟨input, output, f.kind, f.flags.contains "force"⟩)
  | _ => .error .misuse

/-- The value of an option after the command, or else before it. -/
def laterValue? (front back : Found) (name : String) : Option String :=
  (back.values.lookup name).or (front.values.lookup name)

def Invocation.ofFound (front back : Found) (request : Request) : Invocation := {
  logLevel := (laterValue? front back "log-level").getD "info"
  logFormat := ((laterValue? front back "log-format").bind LogFormat.ofName?).getD .pretty
  request }

/-- Whether the words after `help` name something that there is help for. -/
def isHelpTopic : List String → Bool
  | [] | ["inspect"] | ["migrate"] | ["help"] => true
  | _ => false

def Invocation.parse (arguments : List String) : Except Stop Invocation := do
  let (front, rest) ← frontPlace.scan {} arguments
  match rest with
  | "inspect" :: rest =>
    let (back, _) ← inspectPlace.scan {} rest
    .ok (.ofFound front back (← back.inspect))
  | "migrate" :: rest =>
    let (back, _) ← migratePlace.scan {} rest
    .ok (.ofFound front back (← back.migrate))
  | "help" :: topics => .error (if isHelpTopic topics then .help else .misuse)
  | _ => .error .misuse

end VectorTable.Command
