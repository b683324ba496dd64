import VectorTable.Text.Utf8

/-! Everything that can go wrong, as causes. Each cause carries what its message
names, and the wording is decided here and nowhere else. -/
namespace VectorTable

/-- What is wrong with persisted bytes, or with a value that has no place in them. -/
inductive Flaw where
  | truncated (what : String)
  | negative (what : String) (value : Int)
  | tooLarge (what : String) (size : Nat)
  | notUtf8 (what : String)
  | lengthField (what : String) (size : Nat)
  | stringLength (size : Nat)
  | rank (found most : Nat)
  | layoutLength (size : Nat)
  | layoutUnits
  | shapeCount (count : Nat)
  | typeName (name : String)
  | notInitialized
  | marker (found : UInt16)
  | parameterVersion (found : UInt8)
  | notMatrix (shape : String)
  | matrixSize (shape : String)
  | declaredSize (shape typeName : String) (needed : Nat) (declared : Int)
  | matrixTruncated (found needed : Nat)
  | cellType (name : String)
  | encodingVersion (found : UInt8)
  | negativeSlot (slot : Int) (item : String)
  | noRows
  | unshiftableSlot (slot : UInt32)
  | noReservedSlot
  | slotOutside (slot : UInt32) (item : String) (numItems : Nat)
  | slotTwice (slot : UInt32)
  | itemTwice (item : String)
  deriving DecidableEq, Repr

/-- Options or arguments that contradict each other. -/
inductive Misfit where
  | emptyRows
  | normalDeviation (std : String)
  | uniformRange (low high : String)
  | fallthroughSources (names : List String)
  | matrixSize (rows cols numItems width : Nat)
  | unsavableCells (name : String)
  | cellType (name : String)
  | pretrainedRows (rows items : Nat)
  | answerCount (answers items : Nat)
  deriving DecidableEq, Repr

/-- Why bytes are no item, or why a handler would not serve one. -/
inductive ItemFault where
  | notUtf8 (fault : Utf8.Fault)
  | width (expected : Nat) (typeName : String) (found : Nat)
  | refused (reason : String)
  deriving DecidableEq, Repr

/-- Why an operation on tensors has no answer. -/
inductive TensorFault where
  | rank (expected found : Nat)
  | noDimension
  | dimensionsDiffer
  | typesDiffer
  | notContiguous
  | rowOutside (row rows : Nat)
  | emptyRange
  | unboundedSpread
  deriving DecidableEq, Repr

/-- Why a file or another device does not serve. A read that is merely interrupted is taken up
again by the standard library and is no fault; every other fault that has no name of its own
here is told by its message. -/
inductive IoFault where
  | notFound
  | isDirectory
  | notDirectory
  | nameTooLong
  | nulInName
  | denied
  | full
  | notText
  | other (message : String)
  deriving DecidableEq, Repr

/-- Why a text is no configuration. -/
inductive TomlFault where
  | grammar
  | definedTwice
  | field
  deriving DecidableEq, Repr

/-- How an operation ends that has no answer. All but the last are the errors it reports. The last
is the end of the program itself: a block of memory is asked for that there cannot be, and nothing
that would come after is done. -/
inductive Error where
  | configuration (misfit : Misfit)
  | itemNotFound
  | undefinedFallthrough
  | invalidParameterName (name : String)
  | malformed (flaw : Flaw)
  | slotOutOfRange (slot : Int) (numItems : Nat)
  | slotsExhausted (numItems : Nat)
  | itemCodec (fault : ItemFault)
  | tensor (fault : TensorFault)
  | tomlParse (fault : TomlFault)
  | tomlSerialize
  | invalidEnvVar (key value : String)
  | io (fault : IoFault)
  | outOfMemory
  deriving DecidableEq, Repr

/-- Hexadecimal digits with at least `width` of them. -/
def hexPadded (width n : Nat) : String :=
  let digits := Nat.toDigits 16 n
  String.ofList (List.replicate (width - digits.length) '0' ++ digits)

def Flaw.message : Flaw → String
  | .truncated what => s!"truncated while reading {what}"
  | .negative what value => s!"negative {what}: {value}"
  | .tooLarge what size => s!"{what} too large: {size} bytes"
  | .notUtf8 what => s!"{what} is not UTF-8"
  | .lengthField what size => s!"{what} {size} exceeds i32 range"
  | .stringLength size => s!"string of {size} bytes is too long"
  | .rank found most => s!"shape rank {found} exceeds {most}"
  | .layoutLength size => s!"layout length {size}"
  | .layoutUnits => "shape layout is not valid UTF-16"
  | .shapeCount count => s!"{count} input shapes"
  | .typeName name => s!"unsupported data type: {name}"
  | .notInitialized => "embedding matrix was saved before it was initialized"
  | .marker found => "bad parameter marker 0x" ++ hexPadded 4 found.toNat
  | .parameterVersion found => s!"unsupported parameter version: {found}"
  | .notMatrix shape => s!"embedding matrix must be rank 2 with known dims, got {shape}"
  | .matrixSize shape => s!"matrix {shape} is too large"
  | .declaredSize shape name needed declared =>
    s!"matrix {shape} of {name} needs {needed} bytes, payload declares {declared}"
  | .matrixTruncated found needed => s!"matrix data truncated: {found} of {needed} bytes"
  | .cellType name => s!"unsupported matrix dtype {name}"
  | .encodingVersion found => s!"unsupported encoding version: {found}"
  | .negativeSlot slot item => s!"negative slot {slot} for {item}"
  | .noRows => "embedding matrix has no rows"
  | .unshiftableSlot slot => s!"slot {slot} cannot be shifted"
  | .noReservedSlot => "table must hold at least the reserved slot"
  | .slotOutside slot item numItems => s!"slot {slot} for {item} is outside 1..{numItems}"
  | .slotTwice slot => s!"slot {slot} assigned twice"
  | .itemTwice item => s!"item {item} assigned twice"

def Misfit.message : Misfit → String
  | .emptyRows => "embedding_size must be >= 1"
  | .normalDeviation std => s!"invalid normal std: {std}"
  | .uniformRange low high => s!"invalid uniform range: [{low}, {high})"
  | .fallthroughSources names =>
    "only one fallthrough may be specified, got " ++ " and ".intercalate names
  | .matrixSize rows cols numItems width =>
    s!"matrix is {rows}x{cols} but the table expects {numItems}x{width}"
  | .unsavableCells name => s!"cannot persist {name} matrices"
  | .cellType name => s!"unsupported matrix dtype {name}"
  | .pretrainedRows rows items => s!"pretrained matrix has {rows} rows for {items} items"
  | .answerCount answers items => s!"fallthrough returned {answers} slots for {items} items"

def ItemFault.message : ItemFault → String
  | .notUtf8 fault => "item is not UTF-8: " ++ fault.message
  | .width expected name found => s!"expected {expected} bytes for {name}, got {found}"
  | .refused reason => reason

def TensorFault.message : TensorFault → String
  | .rank expected found => s!"expected rank {expected}, got rank {found}"
  | .noDimension => "a scalar has no rows"
  | .dimensionsDiffer => "dimensions differ"
  | .typesDiffer => "element types differ"
  | .notContiguous => "rows are not contiguous"
  | .rowOutside row rows => s!"row {row} is outside 0..{rows}"
  | .emptyRange => "the range holds no value"
  | .unboundedSpread => "the spread is not finite"

def IoFault.message : IoFault → String
  | .notFound => "No such file or directory (os error 2)"
  | .isDirectory => "Is a directory (os error 21)"
  | .notDirectory => "Not a directory (os error 20)"
  | .nameTooLong => "File name too long (os error 36)"
  | .nulInName => "file name contained an unexpected NUL byte"
  | .denied => "Permission denied (os error 13)"
  | .full => "failed to write whole buffer"
  | .notText => "stream did not contain valid UTF-8"
  | .other message => message

def TomlFault.message : TomlFault → String
  | .grammar => "the text does not follow the grammar"
  | .definedTwice => "a key or a table is defined twice"
  | .field => "a field is missing or has the wrong type"

def Error.message : Error → String
  | .configuration misfit => "configuration error: " ++ misfit.message
  | .itemNotFound => "the provided item was not found"
  | .undefinedFallthrough =>
    "slot 0 is reserved for the fallthrough but no fallthrough is configured"
  | .invalidParameterName name => s!"invalid parameter name: {name}"
  | .malformed flaw => "malformed embedding data: " ++ flaw.message
  | .slotOutOfRange slot numItems =>
    s!"slot {slot} is out of range for a table with {numItems} slots"
  | .slotsExhausted numItems => s!"slot space exhausted after {numItems} slots"
  | .itemCodec fault => "item codec error: " ++ fault.message
  | .tensor fault => "tensor error: " ++ fault.message
  | .tomlParse fault => "TOML parse error: " ++ fault.message
  | .tomlSerialize => "TOML serialization error: number out of range"
  | .invalidEnvVar key value => s!"invalid environment variable value for {key}: {value}"
  | .io fault => fault.message
  | .outOfMemory => "capacity overflow"

end VectorTable
