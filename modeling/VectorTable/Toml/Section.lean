import VectorTable.Toml.Quotation
import VectorTable.Toml.Value
import VectorTable.Number.Decimal

/-! Writing a TOML document, section by section. A list of two or more values
takes a line for each. -/
namespace VectorTable.Toml

/-- What is written under a key. -/
inductive Field where
  | one (s : Scalar)
  | list (items : List Scalar)
  deriving DecidableEq, Repr

/-- A header and the pairs below it. The keys must be bare ones. -/
structure Section where
  path : List String
  fields : List (String × Field)
  deriving DecidableEq, Repr

def Field.value : Field → Value
  | .one s => .scalar s
  | .list items => .array (items.map .scalar)

def Scalar.write : Scalar → List Char
  | .text s => Quotation.write s.toList
  | .integer n => (toString n.toInt).toList
  | .float bits => (NumberLayout.file.write .double bits.toNat).toList
  | .flag b => (toString b).toList
  | .moment written => written.toList

def Field.write : Field → List Char
  | .one s => s.write
  | .list [] => ['[', ']']
  | .list [s] => '[' :: s.write ++ [']']
  | .list items =>
    '[' :: '\n' :: items.flatMap (fun s => "    ".toList ++ s.write ++ [',', '\n']) ++ [']']

def Section.write (s : Section) : List Char :=
  '[' :: (".".intercalate s.path).toList ++ [']', '\n'] ++
    s.fields.flatMap fun (key, field) => key.toList ++ " = ".toList ++ field.write ++ ['\n']

/-- The sections with a blank line between two. -/
def writeSections (sections : List Section) : String :=
  String.ofList (['\n'].intercalate (sections.map Section.write))

end VectorTable.Toml
