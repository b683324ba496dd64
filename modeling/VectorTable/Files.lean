import VectorTable.Bytes.Source
import VectorTable.Bytes.Writer

/-! A finite file system: files by path, and the directories that are known to
be there. The directory of the program always is, and so is every directory
above it and every directory on the way to a file. -/
namespace VectorTable

structure Files where
  files : List (List String × List UInt8) := []
  directories : List (List String) := []
  deriving DecidableEq, Repr

/-- How a path ends. After a slash or a dot it means a directory. -/
inductive PathEnd where
  | name | slash | dot
  deriving DecidableEq, Repr

/-- A path as written: its parts, and how it ends. -/
structure Path where
  parts : List String
  ending : PathEnd
  deriving DecidableEq, Repr

/-- The parts between the slashes. A leading slash is a part of its own, and dots
count only as the end of the path. -/
def Path.parse (text : String) : Path :=
  let raw := text.splitOn "/"
  let written := raw.filter (· ≠ "")
  let parts := written.filter (· ≠ ".")
  let ending :=
    if written.getLast? = some "." then .dot
    else if raw.getLastD "" = "" then .slash
    else .name
  ⟨if text.startsWith "/" then "/" :: parts else parts, ending⟩

/-- Whether the path ends in a slash that does not stand after two dots. -/
def Path.endsInSlash (path : Path) : Bool :=
  path.ending = .slash && path.parts.getLast?.any (· ≠ "..")

/-- What a path leads to. -/
inductive Place where
  | directory
  | file (path : List String) (bytes : List UInt8)
  | vacant (path : List String)
  deriving DecidableEq, Repr

namespace Files

def get? (fs : Files) (path : List String) : Option (List UInt8) := fs.files.lookup path

def isDirectory (fs : Files) (path : List String) : Bool :=
  path.all (· == "..") || path == ["/"] || fs.directories.contains path ||
    fs.files.any fun f => path.isPrefixOf f.1 && path.length < f.1.length

/-- The longest name of a file, in bytes. -/
def maxName : Nat := 255

/-- The longest path, in bytes. -/
def maxPath : Nat := 4095

/-- The directory above. The program's own directory has one, too, and the root is its
own. -/
def parent (path : List String) : List String :=
  if path.all (· == "..") then path ++ [".."]
  else if path = ["/"] then path
  else path.dropLast

/-- The place that a path means if every part before `..` is a directory. -/
def resolve (path : List String) : List String :=
  path.foldl (fun here name => if name = ".." then parent here else here ++ [name]) []

/-- Follow the parts of a path from a directory. -/
def walk (fs : Files) (here : List String) : List String → Except IoFault Place
  | [] => .ok .directory
  | ".." :: rest => walk fs (parent here) rest
  | name :: rest =>
    let next := here ++ [name]
    if maxName < name.utf8ByteSize then .error .nameTooLong
    else if fs.isDirectory next then walk fs next rest
    else match fs.get? next with
      | some bytes => if rest.isEmpty then .ok (.file next bytes) else .error .notDirectory
      | none => if rest.isEmpty then .ok (.vacant next) else .error .notFound

/-- A text as a path, if it can be one. -/
def checkedPath (text : String) : Except IoFault Path :=
  if text.toList.contains '\x00' then .error .nulInName
  else if maxPath < text.utf8ByteSize then .error .nameTooLong
  else .ok (Path.parse text)

def place (fs : Files) (text : String) : Except IoFault Place := do
  let path ← checkedPath text
  match ← walk fs [] path.parts with
  | .file name bytes =>
    if path.ending = .name then .ok (.file name bytes) else .error .notDirectory
  | found => .ok found

def pathExists (fs : Files) (text : String) : Bool :=
  match fs.place text with
  | .ok (.vacant _) | .error _ => false
  | .ok _ => true

/-- Open a file for reading. A directory opens too, but the first read fails. -/
def openSource (fs : Files) (text : String) : Except IoFault Source :=
  match fs.place text with
  | .error fault => .error fault
  | .ok (.file _ bytes) => .ok ⟨bytes, .endOfData⟩
  | .ok .directory => .ok ⟨[], .failing .isDirectory⟩
  | .ok (.vacant _) => .error .notFound

/-- All bytes of a file. -/
def read (fs : Files) (text : String) : Except IoFault (List UInt8) := do
  let source ← fs.openSource text
  match source.ending with
  | .endOfData => .ok source.bytes
  | .failing fault => .error fault

/-- The file system with one file replaced or added. -/
def put (fs : Files) (path : List String) (bytes : List UInt8) : Files :=
  { fs with files := (path, bytes) :: fs.files.filter fun f => f.1 ≠ path }

/-- Create a file, or empty the one that is there, and say where it is. A slash after
its name asks for a directory, whatever the name means, once the way to it is found. -/
def create (fs : Files) (text : String) : Except IoFault (List String) := do
  let path ← checkedPath text
  if path.endsInSlash then
    match ← walk fs [] path.parts.dropLast with
    | .directory => .error .isDirectory
    | .file .. => .error .notDirectory
    | .vacant _ => .error .notFound
  else
    match ← fs.place text with
    | .directory => .error .isDirectory
    | .file found _ => .ok found
    | .vacant found => if path.ending = .dot then .error .notFound else .ok found

/-- Write to a file. A writer that fails leaves what it had written. -/
def write (fs : Files) (text : String) (w : Writer Unit) : Files × Except Error Unit :=
  match fs.create text with
  | .error fault => (fs, .error (.io fault))
  | .ok path => (fs.put path w.trail, w.result)

end Files
end VectorTable
