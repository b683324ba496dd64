import VectorTable.Command.Execution

/-! The program. It shows the commands the places on disk that its arguments lead
through, and puts what they answer into effect. -/
namespace VectorTable.Command

def Request.paths : Request → List String
  | .inspect r => [r.file]
  | .migrate r => [r.input, r.output]

/-- The places on the way along a path. -/
def stations (path : List String) : List (List String) :=
  (List.range (path.length + 1)).map fun n => Files.resolve (path.take n)

def pathText : List String → String
  | "/" :: rest => "/" ++ "/".intercalate rest
  | path => "/".intercalate path

/-- What is on disk at some places. -/
def snapshot (places : List (List String)) : IO Files := do
  let here ← IO.currentDir
  let mut files : Files := {}
  for place in places do
    let path := here / pathText place
    if ← path.isDir then files := { files with directories := place :: files.directories }
    else if ← path.pathExists then
      files := files.put place (← IO.FS.readBinFile path).toList
  pure files

/-- Write the files that differ from what is on disk. -/
def writeBack (before after : Files) : IO Unit := do
  let here ← IO.currentDir
  for (place, bytes) in after.files do
    if before.get? place ≠ some bytes then
      IO.FS.writeBinFile (here / pathText place) ⟨bytes.toArray⟩

end VectorTable.Command

open VectorTable Command

def main (arguments : List String) : IO UInt32 := do
  let paths := match Invocation.parse arguments with
    | .ok i => i.request.paths
    | .error _ => []
  let before ← snapshot (paths.flatMap fun p => stations (Path.parse p).parts)
  let outcome := run before arguments
  for line in outcome.stderr do
    IO.eprintln line
  writeBack before outcome.files
  IO.print outcome.stdout
  pure outcome.code.toUInt32
