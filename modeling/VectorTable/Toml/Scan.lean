import VectorTable.Error

/-! Taking text apart from the front. A scanner answers and leaves the rest, or
says what is wrong. -/
namespace VectorTable.Toml

abbrev Scan := StateT (List Char) (Except TomlFault)

/-- Spaces and tabs. -/
def isSpace (c : Char) : Bool := c == ' ' || c == '\t'

/-- Every character but the controls, of which the tab alone is plain. -/
def isPlain (c : Char) : Bool := c == '\t' || (' ' ≤ c && c ≠ '\x7f')

namespace Scan

def fail {α : Type} : Scan α := fun _ => .error .grammar

/-- The answer of a function that takes from the front of a text. -/
def front {α : Type} (f : List Char → Option (α × List Char)) : Scan α := fun s =>
  match f s with
  | some r => .ok r
  | none => .error .grammar

def ofExcept {α : Type} (r : Except TomlFault α) : Scan α := fun s => r.map (·, s)

/-- Whether the text goes on with a character, which is then taken. -/
def takes (c : Char) : Scan Bool := fun s =>
  match s with
  | d :: rest => if d = c then .ok (true, rest) else .ok (false, s)
  | [] => .ok (false, [])

/-- A character that has to come. -/
def expect (c : Char) : Scan Unit := do
  if ← takes c then pure () else fail

/-- The longest beginning of characters of a class. -/
def span (p : Char → Bool) : Scan (List Char) := fun s => .ok (s.takeWhile p, s.dropWhile p)

def spaces : Scan Unit := fun s => .ok ((), s.dropWhile isSpace)

/-- The answers of a scanner until it has none. Every answer must take some text. -/
def repeated {α : Type} (step : Scan (Option α)) (s : List Char) :
    Except TomlFault (List α × List Char) :=
  match step s with
  | .error e => .error e
  | .ok (none, rest) => .ok ([], rest)
  | .ok (some a, rest) =>
    if rest.length < s.length then
      match repeated step rest with
      | .error e => .error e
      | .ok (more, rest) => .ok (a :: more, rest)
    else .error .grammar
  termination_by s.length

end Scan

/-- A line break at the front, taken off. -/
def dropNewline? : List Char → Option (List Char)
  | '\n' :: rest => some rest
  | '\r' :: '\n' :: rest => some rest
  | _ => none

/-- The text without the spaces, line breaks and comments at its front. -/
def dropGap (s : List Char) : List Char :=
  match s with
  | [] => []
  | c :: rest =>
    if isSpace c || c == '\n' then dropGap rest
    else if c == '\r' then
      match rest with
      | '\n' :: rest => dropGap rest
      | _ => s
    else if c == '#' then dropGap (rest.dropWhile isPlain)
    else s
  termination_by s.length
  decreasing_by
    · exact Nat.lt_succ_self _
    · simp only [List.length_cons]; omega
    · exact Nat.lt_succ_of_le (List.dropWhile_suffix isPlain).length_le

namespace Scan

def gap : Scan Unit := fun s => .ok ((), dropGap s)

/-- The end of a line: spaces, perhaps a comment, and a line break or the end of
the text. -/
def lineEnd : Scan Unit := do
  spaces
  if ← takes '#' then let _ ← span isPlain
  fun s =>
    match s, dropNewline? s with
    | [], _ => .ok ((), [])
    | _, some rest => .ok ((), rest)
    | _, none => .error .grammar

end Scan
end VectorTable.Toml
