import VectorTable.Environment
import VectorTable.Event
import VectorTable.Text.Cut
import VectorTable.Text.Pattern

/-! Which events reach a log. A filter is a list of directives with commas between
them, such as `info` or `embedding_table::codec=debug`. For an event the most
specific directive that speaks of it decides: the one with the longest target,
then the one that names the most fields, and of equals the last. What is no
directive is passed over; without any directive only errors pass.

A directive is recognised without the blanks around it, but its parts are cut out of
the text with the blanks, at the byte positions found without them. So blanks in
front shift every part, and blanks behind belong to the last one. -/
namespace VectorTable

structure Directive where
  /-- The start of the paths of the areas that are meant; absent for all. -/
  target : Option String := none
  /-- Whether only events inside of spans are meant. No event here is inside one. -/
  spanned : Bool := false
  /-- The fields that an event must have, and whether a value is asked for, which
  only spans can meet. -/
  fields : List (String × Bool) := []
  /-- The verbosity up to which events pass. -/
  verbosity : Nat := Level.trace.verbosity
  deriving DecidableEq, Repr

/-- A level by its name in any mixture of ASCII cases or by its number. -/
def verbosity? (text : String) : Option Nat :=
  match Environment.parseSize text with
  | some n => if n ≤ Level.trace.verbosity then some n else none
  | none =>
    match lowerAscii text with
    | "off" => some 0
    | "error" | "" => some 1
    | "warn" => some 2
    | "info" => some 3
    | "debug" => some 4
    | "trace" => some 5
    | _ => none

/-- Digits with at most one point among them and perhaps an exponent, or a word for
what is no finite number. -/
def isNumeral (s : List Char) : Bool :=
  let whole := s.takeWhile Char.isDigit
  let (fraction, rest) := match s.drop whole.length with
    | '.' :: s => (s.takeWhile Char.isDigit, s.dropWhile Char.isDigit)
    | s => ([], s)
  let exponent := match rest with
    | [] => true
    | e :: s =>
      let digits := match s with
        | '+' :: s | '-' :: s => s
        | s => s
      (e = 'e' || e = 'E') && !digits.isEmpty && digits.all Char.isDigit
  ["inf", "infinity", "nan"].contains (lowerAscii (String.ofList s)) ||
    (!(whole ++ fraction).isEmpty && exponent)

/-- Whether a text can be asked for as the value of a field: a pattern or a number. A
number is a pattern as well unless it has a plus sign in front. -/
def isFieldValue (s : List Char) : Bool :=
  Pattern.isPattern s || match s with
    | '+' :: s => isNumeral s
    | _ => false

/-- Why a text gives no directive. -/
inductive DirectiveFault where
  | grammar
  /-- A part of the text would begin or end inside a character. -/
  | cutCharacter
  deriving DecidableEq, Repr

namespace Directive

/-- The part of a text from a byte position to the end. -/
def remainder (text : List Char) (start : Nat) : Except DirectiveFault (List Char) :=
  match dropBytes start text with
  | some s => .ok s
  | none => .error .cutCharacter

/-- The part of a text from one byte position to another. -/
def piece (text : List Char) (start stop : Nat) : Except DirectiveFault (List Char) := do
  match takeBytes (stop - start) (← remainder text start) with
  | some s => .ok s
  | none => .error .cutCharacter

/-- The directive with a level. None at all is the most verbose. -/
def withLevel (d : Directive) (level : List Char) : Except DirectiveFault Directive :=
  if level.isEmpty then .ok d
  else match verbosity? (String.ofList level) with
    | some verbosity => .ok { d with verbosity }
    | none => .error .grammar

/-- The directive with what follows its brackets, from a position on. -/
def withEnd (d : Directive) (text : List Char) (start : Nat) :
    List Char → Except DirectiveFault Directive
  | [] => .ok d
  | '=' :: _ => do d.withLevel (← remainder text (start + 1))
  | _ => .error .grammar

/-- The directive with a field, which may come with a value behind an equals sign. -/
def withField (d : Directive) (field : List Char) : Except DirectiveFault Directive :=
  let name := field.takeWhile (· ≠ '=')
  match field, field.drop name.length with
  | [], _ => .error .grammar
  | _, [] => .ok { d with fields := [(String.ofList name, false)] }
  | _, _ :: s =>
    if isFieldValue (s.takeWhile (· ≠ '=')) then
      .ok { d with fields := [(String.ofList name, true)] }
    else .error .grammar

/-- The directive with the field in braces that starts at a position, and with what
follows it. -/
def withBraces (d : Directive) (text : List Char) (start : Nat) (s : List Char) :
    Except DirectiveFault Directive := do
  let field := s.takeWhile (· ≠ '\x7d')
  let stop := start + byteSize field
  match s.drop field.length with
  | '\x7d' :: rest =>
    let d ← d.withField (← piece text start stop)
    match rest with
    | ']' :: rest => d.withEnd text (stop + 2) rest
    | _ => .error .grammar
  | _ => .error .grammar

/-- The directive with the span and the field in brackets that start at a position, and
with what follows them. -/
def withBrackets (d : Directive) (text : List Char) (start : Nat) (s : List Char) :
    Except DirectiveFault Directive := do
  let name := s.takeWhile fun c => c ≠ ']' && c ≠ '\x7b'
  let stop := start + byteSize name
  match s.drop name.length with
  | ']' :: rest =>
    let _ ← piece text start stop
    withEnd { d with spanned := true } text (stop + 1) rest
  | _ :: rest =>
    let span ← piece text start stop
    withBraces { d with spanned := !span.isEmpty } text (stop + 1) rest
  | [] => .error .grammar

/-- A word by itself is a level or else a target. -/
def ofWord (word : String) : Directive :=
  match verbosity? word with
  | some verbosity => { verbosity }
  | none => { target := some word }

def isTargetStart (c : Char) : Bool := isAlphanumeric c || c == '-' || c == ':' || c == '_'

def parse (word : String) : Except DirectiveFault Directive := do
  let text := word.toList
  match (trimBlanks word).toList with
  | [] => .error .grammar
  | '[' :: rest => withBrackets {} text 1 rest
  | c :: s =>
    if !isTargetStart c then .error .grammar
    else
      let head := (c :: s).takeWhile fun c => c ≠ '=' && c ≠ '['
      let stop := byteSize head
      match (c :: s).drop head.length with
      | [] => .ok (ofWord word)
      | next :: rest =>
        let target := some (String.ofList (← piece text 0 stop))
        if next = '[' then withBrackets { target } text (stop + 1) rest
        else withLevel { target } (← remainder text (stop + 1))

/-- Whether a directive can decide about events outside of spans. -/
def isStatic (d : Directive) : Bool := !d.spanned && d.fields.all fun f => !f.2

/-- Whether a directive speaks of an event. -/
def concerns (d : Directive) (e : Event) : Bool :=
  (match d.target with
    | none => true
    | some target => target.toList.isPrefixOf e.area.path.toList) &&
  d.fields.all fun f => f.1 == "message" || e.fields.any fun g => g.1 == f.1

/-- The length of the target, one more than of an absent one, and the number of
fields. -/
def specificity (d : Directive) : Nat × Nat :=
  ((d.target.map fun t => t.utf8ByteSize + 1).getD 0, d.fields.length)

/-- The names of the fields, as code points. -/
def fieldNames (d : Directive) : List (List Nat) := d.fields.map fun f => f.1.toList.map Char.toNat

/-- Of two directives that are equally specific, the one whose field names come first. -/
def yieldsTo (d other : Directive) : Bool :=
  let (a, b) := d.specificity
  let (a', b') := other.specificity
  a < a' || (a == a' && (b < b' || (b == b' &&
    !other.fieldNames.lex d.fieldNames fun x y => x.lex y fun m n => decide (m < n))))

end Directive

structure EventFilter where
  directives : List Directive
  deriving DecidableEq, Repr

namespace EventFilter

/-- The directives among some words. There is no telling them if a part of a word cuts
a character in two. -/
def directives? : List String → Option (List Directive)
  | [] => some []
  | word :: rest =>
    match Directive.parse word with
    | .ok d => (directives? rest).map (d :: ·)
    | .error .grammar => directives? rest
    | .error .cutCharacter => none

def parse? (text : String) : Option EventFilter :=
  (directives? (text.splitOn ",")).map fun
    | [] => ⟨[{ verbosity := Level.error.verbosity }]⟩
    | directives => ⟨directives⟩

/-- The directive that decides about an event. -/
def decisive? (f : EventFilter) (e : Event) : Option Directive :=
  (f.directives.filter fun d => d.isStatic && d.concerns e).foldl (fun best d =>
    match best with
    | none => some d
    | some b => if b.yieldsTo d then some d else some b) none

def passes (f : EventFilter) (e : Event) : Bool :=
  match f.decisive? e with
  | some d => e.level.verbosity ≤ d.verbosity
  | none => false

end EventFilter
end VectorTable
