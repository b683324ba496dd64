import VectorTable.Text.Blank
import VectorTable.Text.Letter

/-! Search patterns, as far as it can be told from a text whether it is one. A
pattern is made of characters, brackets with sets of characters, groups,
alternatives and repetitions. Its modes are switched inside of it; in the mode for
Unicode nothing is at hand that needs a table of letters, so neither case nor
classes such as `\w` can be asked for, and outside of that mode nothing may match a
part of a character. The texts around patterns end them at a closing brace, so what
needs one is no pattern. -/
namespace VectorTable.Pattern

structure Modes where
  ignoreCase : Bool := false
  unicode : Bool := true
  /-- Whether blanks and comments between the parts are passed over. -/
  verbose : Bool := false
  deriving DecidableEq, Repr

/-- What an escape or a character of a set stands for. -/
inductive Atom where
  /-- A character, and whether it is written as the two digits of a byte. -/
  | literal (c : Char) (asByte : Bool)
  /-- Digits, blanks or letters, or all but these. -/
  | shorthand (negated : Bool)
  | wordEdge
  | textEdge
  deriving DecidableEq, Repr

namespace Modes

/-- Whether an atom may stand by itself. -/
def allows (m : Modes) : Atom → Bool
  | .literal c asByte => if m.unicode then !m.ignoreCase else !(asByte && 0x7F < c.toNat)
  | .shorthand negated => !m.unicode && !negated
  | .wordEdge => !m.unicode
  | .textEdge => true

/-- Whether an atom may stand in brackets. -/
def allowsInSet (m : Modes) : Atom → Bool
  | .literal c _ => if m.unicode then !m.ignoreCase else c.toNat ≤ 0x7F
  | .shorthand negated => !m.unicode && !negated
  | _ => false

end Modes

/-- The text behind blanks and comments, which run to the end of their line. -/
def dropGap : Bool → List Char → List Char
  | _, [] => []
  | true, c :: s => dropGap (c ≠ '\n') s
  | false, c :: s =>
    if isBlank c then dropGap false s else if c = '#' then dropGap true s else c :: s

def Modes.skip (m : Modes) (s : List Char) : List Char := if m.verbose then dropGap false s else s

def hexValue? (c : Char) : Option Nat :=
  if c.isDigit then some (c.toNat - '0'.toNat)
  else if 'a' ≤ c ∧ c ≤ 'f' then some (c.toNat - 'a'.toNat + 10)
  else if 'A' ≤ c ∧ c ≤ 'F' then some (c.toNat - 'A'.toNat + 10)
  else none

/-- A number of so many hexadecimal digits. -/
def hexDigits (m : Modes) : Nat → Nat → List Char → Option (Nat × List Char)
  | 0, n, s => some (n, s)
  | _ + 1, _, [] => none
  | k + 1, n, c :: s => do hexDigits m k (16 * n + (← hexValue? c)) (m.skip s)

def hexLiteral (m : Modes) (digits : Nat) (s : List Char) : Option (Atom × List Char) := do
  let (n, rest) ← hexDigits m digits 0 (m.skip s)
  if n.isValidChar then some (.literal (Char.ofNat n) (digits = 2), rest) else none

/-- What follows a backslash. -/
def escape (m : Modes) : List Char → Option (Atom × List Char)
  | [] => none
  | c :: s =>
    match c with
    | 'x' => hexLiteral m 2 s
    | 'u' => hexLiteral m 4 s
    | 'U' => hexLiteral m 8 s
    | 'd' | 's' | 'w' => some (.shorthand false, s)
    | 'D' | 'S' | 'W' => some (.shorthand true, s)
    | 'b' | 'B' | '<' | '>' => some (.wordEdge, s)
    | 'A' | 'z' => some (.textEdge, s)
    | 'a' => some (.literal '\x07' false, s)
    | 't' => some (.literal '\t' false, s)
    | 'n' => some (.literal '\n' false, s)
    | 'v' => some (.literal '\x0b' false, s)
    | 'f' => some (.literal '\x0c' false, s)
    | 'r' => some (.literal '\r' false, s)
    | c => if c.toNat < 0x80 ∧ !c.isAlphanum then some (.literal c false, s) else none

/-- How deep a row of parts is: a single part counts for itself. -/
def rowDepth : List Nat → Nat
  | [] => 0
  | [d] => d
  | ds => 1 + ds.foldl max 0

/-! ### Brackets -/

/-- How far a pair of brackets has been read. -/
inductive Stage where
  | opened
  /-- Dashes still stand for themselves. -/
  | leading
  | inside
  deriving DecidableEq, Repr

/-- A pair of brackets that is still open: how deep the parts behind the last
operator are, and what is in front of it. -/
structure Bracket where
  stage : Stage := .opened
  items : List Nat := []
  left : Option Nat := none
  deriving DecidableEq, Repr

namespace Bracket

def depth (b : Bracket) : Nat :=
  match b.left with
  | none => rowDepth b.items
  | some left => 1 + max left (rowDepth b.items)

def push (b : Bracket) (depth : Nat) : Bracket :=
  { b with stage := .inside, items := depth :: b.items }

def operator (b : Bracket) : Bracket := ⟨.inside, [], some b.depth⟩

end Bracket

/-- Where reading in brackets has come to: the innermost pair, and those around it. -/
inductive Progress where
  | more (inner : Bracket) (outer : List Bracket) (rest : List Char)
  | done (depth : Nat) (rest : List Char)

def asciiClasses : List String :=
  ["alnum", "alpha", "ascii", "blank", "cntrl", "digit", "graph", "lower", "print", "punct",
   "space", "upper", "word", "xdigit"]

/-- The name of a class between colons, behind its bracket, and whether it is negated. -/
def asciiClass? : List Char → Option (Bool × List Char)
  | ':' :: s =>
    let (negated, s) := match s with
      | '^' :: s => (true, s)
      | s => (false, s)
    let name := s.takeWhile (· ≠ ':')
    match s.drop name.length with
    | ':' :: ']' :: rest =>
      if asciiClasses.contains (String.ofList name) then some (negated, rest) else none
    | _ => none
  | _ => none

def setAtom (m : Modes) : List Char → Option (Atom × List Char)
  | [] => none
  | '\\' :: s => escape m s
  | c :: s => some (.literal c false, s)

/-- An atom of a set, or a range between two of them. -/
def setRange (m : Modes) (s : List Char) : Option (List Char) := do
  let (low, s) ← setAtom m s
  let single (rest : List Char) := if m.allowsInSet low then some rest else none
  match m.skip s with
  | [] => none
  | '-' :: behind =>
    match m.skip behind with
    | ']' :: _ | '-' :: _ => single ('-' :: behind)
    | behind => do
      let (high, rest) ← setAtom m behind
      match low, high with
      | .literal a _, .literal b _ =>
        if m.allowsInSet low ∧ m.allowsInSet high ∧ a ≤ b then some rest else none
      | _, _ => none
  | rest => single rest

def closeBracket (inner : Bracket) (outer : List Bracket) (rest : List Char) : Progress :=
  match outer with
  | [] => .done (1 + inner.depth) rest
  | b :: outer => .more (b.push (1 + inner.depth)) outer rest

/-- One step in brackets. -/
def setStep (m : Modes) (inner : Bracket) (outer : List Bracket) (s : List Char) :
    Option Progress :=
  let literal (c : Char) (rest : List Char) (stage : Stage) : Option Progress :=
    if m.allowsInSet (.literal c false) then some (.more { inner.push 0 with stage } outer rest)
    else none
  match inner.stage, s with
  | _, [] => none
  | .opened, '^' :: rest =>
    if m.unicode then some (.more { inner with stage := .leading } outer rest) else none
  | .opened, '-' :: rest | .leading, '-' :: rest => literal '-' rest .leading
  | .opened, ']' :: rest | .leading, ']' :: rest =>
    if inner.items.isEmpty then literal ']' rest .inside
    else some (closeBracket inner outer rest)
  | .inside, ']' :: rest => some (closeBracket inner outer rest)
  | _, '[' :: rest =>
    match asciiClass? rest with
    | some (negated, rest) =>
      if (if m.unicode then !m.ignoreCase else !negated) then
        some (.more (inner.push 0) outer rest)
      else none
    | none => some (.more {} ({ inner with stage := .inside } :: outer) rest)
  | _, '&' :: '&' :: rest | _, '-' :: '-' :: rest | _, '~' :: '~' :: rest =>
    some (.more inner.operator outer rest)
  | _, s => (setRange m s).map (.more (inner.push 0) outer ·)

/-- The depth of a set, from behind its first bracket. -/
def readSet (m : Modes) (inner : Bracket) (outer : List Bracket) (s : List Char) :
    Option (Nat × List Char) :=
  match setStep m inner outer (m.skip s) with
  | none => none
  | some (.done depth rest) => some (depth, rest)
  | some (.more inner outer rest) =>
    if rest.length < s.length then readSet m inner outer rest else none
  termination_by s.length

/-! ### Groups -/

/-- What has been read of a group: how deep the parts of its last branch are, the
last part first, and how deep the branches before it are. A switch of modes is a
part that cannot be repeated. -/
structure Body where
  parts : List (Option Nat) := []
  branches : List Nat := []
  deriving DecidableEq, Repr

namespace Body

def branchDepth (b : Body) : Nat := rowDepth (b.parts.map (·.getD 0))

def depth (b : Body) : Nat :=
  if b.branches.isEmpty then b.branchDepth else 1 + (b.branchDepth :: b.branches).foldl max 0

def nextBranch (b : Body) : Body := ⟨[], b.branchDepth :: b.branches⟩

def push (b : Body) (depth : Nat) : Body := { b with parts := some depth :: b.parts }

def repeatLast? (b : Body) : Option Body :=
  match b.parts with
  | some depth :: parts => some { b with parts := some (depth + 1) :: parts }
  | _ => none

end Body

structure Reading where
  modes : Modes := {}
  body : Body := {}
  /-- The bodies around the open groups, with the modes that hold in them. -/
  outer : List (Modes × Body) := []
  names : List String := []
  deriving DecidableEq, Repr

namespace Reading

def push (r : Reading) (depth : Nat) : Reading := { r with body := r.body.push depth }

def atom? (r : Reading) (a : Atom) : Option Reading :=
  if r.modes.allows a then some (r.push 0) else none

def openGroup (r : Reading) (modes : Modes) : Reading :=
  { r with modes, body := {}, outer := (r.modes, r.body) :: r.outer }

def closeGroup? (r : Reading) : Option Reading :=
  match r.outer with
  | [] => none
  | (modes, body) :: outer =>
    some { r with modes, body := body.push (1 + r.body.depth), outer }

/-- A name starts with a letter or an underscore. -/
def isName : List Char → Bool
  | [] => false
  | c :: s => (c = '_' || isAlphabetic c) &&
    s.all fun c => c = '_' || c = '.' || c = '[' || c = ']' || isAlphanumeric c

/-- A group with a name, from its name on. -/
def openNamed? (r : Reading) (s : List Char) : Option (Reading × List Char) :=
  let name := s.takeWhile (· ≠ '>')
  match s.drop name.length with
  | _ :: rest =>
    let text := String.ofList name
    if isName name && !r.names.contains text then
      some ({ r.openGroup r.modes with names := text :: r.names }, rest)
    else none
  | [] => none

/-- The modes after some are switched on and, behind a dash, others off. -/
def switch? (m : Modes) (letters : List Char) : Option Modes :=
  let on := letters.takeWhile (· ≠ '-')
  let off := letters.drop on.length
  let set (letter : Char) (old : Bool) := on.contains letter || (old && !off.contains letter)
  if letters.Nodup ∧ letters.all ("imsUuRx-".contains ·) ∧ letters.getLast? ≠ some '-' then
    some ⟨set 'i' m.ignoreCase, set 'u' m.unicode, set 'x' m.verbose⟩
  else none

/-- A group that starts with modes, or modes for the rest of the group around them. -/
def openModes? (r : Reading) (s : List Char) : Option (Reading × List Char) := do
  let letters := s.takeWhile fun c => c ≠ ':' && c ≠ ')'
  let modes ← switch? r.modes letters
  match s.drop letters.length with
  | ':' :: rest => some (r.openGroup modes, rest)
  | ')' :: rest =>
    if letters.isEmpty then none
    else some ({ r with modes, body := { r.body with parts := none :: r.body.parts } }, rest)
  | _ => none

def open? (r : Reading) : List Char → Option (Reading × List Char)
  | '?' :: 'P' :: '<' :: s | '?' :: '<' :: s => r.openNamed? s
  | '?' :: s => r.openModes? s
  | s => some (r.openGroup r.modes, s)

/-- One step outside of brackets. -/
def step (r : Reading) : List Char → Option (Reading × List Char)
  | [] => none
  | c :: s =>
    if r.modes.verbose ∧ (isBlank c ∨ c = '#') then some (r, dropGap (c = '#') s)
    else match c with
      | '(' => r.open? (r.modes.skip s)
      | ')' => r.closeGroup?.map (·, s)
      | '|' => some ({ r with body := r.body.nextBranch }, s)
      | '[' => (readSet r.modes {} [] s).map fun (depth, rest) => (r.push depth, rest)
      | '?' | '*' | '+' => do
        let body ← r.body.repeatLast?
        let rest := match s with
          | '?' :: rest => rest
          | s => s
        some ({ r with body }, rest)
      | '{' => none
      | '.' => if r.modes.unicode then some (r.push 0, s) else none
      | '^' | '$' => some (r.push 0, s)
      | '\\' => do
        let (a, rest) ← escape r.modes s
        some (← r.atom? a, rest)
      | c => do some (← r.atom? (.literal c false), s)

/-- The deepest nesting of a pattern. -/
def maxDepth : Nat := 250

def run (r : Reading) (s : List Char) : Bool :=
  match s with
  | [] => r.outer.isEmpty && r.body.depth ≤ maxDepth
  | c :: s =>
    match r.step (c :: s) with
    | none => false
    | some (r, rest) => if rest.length ≤ s.length then run r rest else false
  termination_by s.length

end Reading

def isPattern (s : List Char) : Bool := ({} : Reading).run s

end VectorTable.Pattern
