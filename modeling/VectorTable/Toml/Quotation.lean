import VectorTable.Toml.Scan

/-! Text in quotation marks. There are four styles: on one line or on several,
with escapes or literally. The writer takes the plainest style that holds the
text; the reader takes all four. -/
namespace VectorTable.Toml.Quotation

def isControl (c : Char) : Bool := c.toNat < 0x20 || c.toNat == 0x7F

/-! ### Reading -/

def hexValue? (c : Char) : Option Nat :=
  if '0' ≤ c && c ≤ '9' then some (c.toNat - 48)
  else if 'a' ≤ c && c ≤ 'f' then some (c.toNat - 87)
  else if 'A' ≤ c && c ≤ 'F' then some (c.toNat - 55)
  else none

/-- The character with the code of some hexadecimal digits; surrogates and what
passes U+10FFFF have none. -/
def scalar? (digits : List Char) : Option Char := do
  let code ← digits.foldlM (fun n c => (hexValue? c).map (16 * n + ·)) 0
  if code < 0xD800 ∨ (0xDFFF < code ∧ code < 0x110000) then some (Char.ofNat code) else none

def coded? (n : Nat) (s : List Char) : Option (Char × List Char) :=
  if (s.take n).length = n then (scalar? (s.take n)).map (·, s.drop n) else none

/-- The character that the text after a backslash stands for, and the rest. -/
def escaped? : List Char → Option (Char × List Char)
  | 'b' :: rest => some ('\x08', rest)
  | 't' :: rest => some ('\t', rest)
  | 'n' :: rest => some ('\n', rest)
  | 'f' :: rest => some ('\x0c', rest)
  | 'r' :: rest => some ('\r', rest)
  | '"' :: rest => some ('"', rest)
  | '\\' :: rest => some ('\\', rest)
  | 'u' :: rest => coded? 4 rest
  | 'U' :: rest => coded? 8 rest
  | _ => none

theorem length_coded {n : Nat} {s rest : List Char} {c : Char} (h : coded? n s = some (c, rest)) :
    rest.length ≤ s.length := by
  unfold coded? at h
  split at h
  · obtain ⟨_, _, h⟩ := Option.map_eq_some_iff.1 h
    simp only [Prod.mk.injEq] at h
    simp [← h.2]
  · simp at h

theorem length_escaped {s rest : List Char} {c : Char} (h : escaped? s = some (c, rest)) :
    rest.length < s.length := by
  unfold escaped? at h
  split at h
  case h_8 => exact Nat.lt_succ_of_le (length_coded h)
  case h_9 => exact Nat.lt_succ_of_le (length_coded h)
  case h_10 => simp at h
  all_goals
    simp only [Option.some.injEq, Prod.mk.injEq] at h
    simp [← h.2]

/-- The text of a one-line style with escapes, after its opening mark. -/
def basic? (s : List Char) : Option (List Char × List Char) :=
  match s with
  | [] => none
  | c :: rest =>
    if c = '"' then some ([], rest)
    else if c = '\\' then
      match _ : escaped? rest with
      | some (d, after) => (basic? after).map fun (text, rest) => (d :: text, rest)
      | none => none
    else if isPlain c then (basic? rest).map fun (text, rest) => (c :: text, rest)
    else none
  termination_by s.length
  decreasing_by
    · exact Nat.lt_succ_of_lt (length_escaped ‹_›)
    · exact Nat.lt_succ_self _

/-- The text of the literal one-line style. -/
def literal? : List Char → Option (List Char × List Char)
  | [] => none
  | c :: rest =>
    if c = '\'' then some ([], rest)
    else if isPlain c then (literal? rest).map fun (text, rest) => (c :: text, rest)
    else none

/-- The rest after the third of three closing marks, with the one or two marks
before them that belong to the text. -/
def closing (mark : Char) : List Char → List Char × List Char
  | a :: b :: rest =>
    if a = mark then if b = mark then ([a, b], rest) else ([a], b :: rest) else ([], a :: b :: rest)
  | [a] => if a = mark then ([a], []) else ([], [a])
  | [] => ([], [])

/-- The text without the spaces and line breaks at its front. -/
def dropLines : List Char → List Char
  | [] => []
  | c :: rest =>
    if isSpace c || c == '\n' then dropLines rest
    else match c, rest with
      | '\r', '\n' :: rest => dropLines rest
      | _, _ => c :: rest

theorem length_dropLines (s : List Char) : (dropLines s).length ≤ s.length := by
  fun_induction dropLines s <;> simp_all <;> omega

/-- A backslash at the end of a line joins it to the next text, over all spaces
and line breaks between. -/
def joined? (s : List Char) : Option (List Char) :=
  (dropNewline? (s.dropWhile isSpace)).map dropLines

theorem length_dropNewline {s rest : List Char} (h : dropNewline? s = some rest) :
    rest.length < s.length := by
  unfold dropNewline? at h
  split at h
  · cases h; exact Nat.lt_succ_self _
  · cases h; simp only [List.length_cons]; omega
  · cases h

theorem length_joined {s rest : List Char} (h : joined? s = some rest) :
    rest.length < s.length := by
  obtain ⟨t, ht, rfl⟩ := Option.map_eq_some_iff.1 h
  have := length_dropNewline ht
  have := length_dropLines t
  have := (List.dropWhile_suffix isSpace (l := s)).length_le
  omega

/-- The text of the style with escapes over several lines. -/
def basicLines? (s : List Char) : Option (List Char × List Char) :=
  match s with
  | [] => none
  | c :: rest =>
    if ['"', '"', '"'].isPrefixOf s then some (closing '"' (s.drop 3))
    else if c = '\\' then
      match _ : joined? rest, _ : escaped? rest with
      | some after, _ => basicLines? after
      | none, some (d, after) => (basicLines? after).map fun (text, rest) => (d :: text, rest)
      | none, none => none
    else match _ : dropNewline? (c :: rest) with
      | some after => (basicLines? after).map fun (text, rest) => ('\n' :: text, rest)
      | none =>
        if isPlain c then (basicLines? rest).map fun (text, rest) => (c :: text, rest) else none
  termination_by s.length
  decreasing_by
    · exact Nat.lt_succ_of_lt (length_joined ‹_›)
    · exact Nat.lt_succ_of_lt (length_escaped ‹_›)
    · exact length_dropNewline ‹_›
    · exact Nat.lt_succ_self _

/-- The text of the literal style over several lines. -/
def literalLines? (s : List Char) : Option (List Char × List Char) :=
  match s with
  | [] => none
  | c :: rest =>
    if ['\'', '\'', '\''].isPrefixOf s then some (closing '\'' (s.drop 3))
    else match _ : dropNewline? (c :: rest) with
      | some after => (literalLines? after).map fun (text, rest) => ('\n' :: text, rest)
      | none =>
        if isPlain c then (literalLines? rest).map fun (text, rest) => (c :: text, rest) else none
  termination_by s.length
  decreasing_by
    · exact length_dropNewline ‹_›
    · exact Nat.lt_succ_self _

/-- The text without a line break at its very front. -/
def dropFirstBreak (s : List Char) : List Char := (dropNewline? s).getD s

/-- The text in quotation marks of a one-line style. -/
def line? : List Char → Option (List Char × List Char)
  | '"' :: rest => basic? rest
  | '\'' :: rest => literal? rest
  | _ => none

/-- The text in quotation marks of any style. -/
def read? : List Char → Option (List Char × List Char)
  | '"' :: '"' :: '"' :: rest => basicLines? (dropFirstBreak rest)
  | '\'' :: '\'' :: '\'' :: rest => literalLines? (dropFirstBreak rest)
  | s => line? s

/-! ### Writing -/

inductive Style where
  | basic
  | literal
  | basicLines
  | literalLines
  deriving DecidableEq, Repr

/-- Whether a mark stands three times in a row. -/
def hasTriple (mark : Char) : List Char → Bool
  | a :: b :: c :: rest => (a == mark && b == mark && c == mark) || hasTriple mark (b :: c :: rest)
  | _ => false

/-- Whether there are controls that only an escape can show. -/
def needsEscape (s : List Char) : Bool := s.any fun c => isControl c && c ≠ '\t' && c ≠ '\n'

/-- The first style, from plain to heavy, in which a text needs no escape; one with
escapes if there is none. -/
def Style.of (s : List Char) : Style :=
  let ordinary := !needsEscape s
  if ordinary && !s.contains '\\' && !s.contains '"' && !s.contains '\n' then .basic
  else if ordinary && !s.contains '\'' && !s.contains '\n' then .literal
  else if ordinary && !s.contains '\\' && !hasTriple '"' s then .basicLines
  else if ordinary && !hasTriple '\'' s then .literalLines
  else if s.contains '\n' then .basicLines
  else .basic

def hexDigit (n : Nat) : Char := if n < 10 then Char.ofNat (48 + n) else Char.ofNat (55 + n)

/-- A character between double quotation marks. -/
def escapeChar (c : Char) : List Char :=
  match c with
  | '\x08' => ['\\', 'b']
  | '\t' => ['\\', 't']
  | '\n' => ['\\', 'n']
  | '\x0c' => ['\\', 'f']
  | '\r' => ['\\', 'r']
  | '"' => ['\\', '"']
  | '\\' => ['\\', '\\']
  | c =>
    if isControl c then ['\\', 'u', '0', '0', hexDigit (c.toNat / 16), hexDigit (c.toNat % 16)]
    else [c]

/-- A text between tripled double marks: line breaks stand as they are, and of the
marks in a row every third is escaped. The number counts the marks before. -/
def escapeLines : Nat → List Char → List Char
  | _, [] => []
  | marks, c :: rest =>
    if c = '\n' then c :: escapeLines 0 rest
    else if c = '"' then
      if marks < 2 then c :: escapeLines (marks + 1) rest else '\\' :: c :: escapeLines 0 rest
    else escapeChar c ++ escapeLines 0 rest

def tripled (mark : Char) (body s : List Char) : List Char :=
  let marks := [mark, mark, mark]
  marks ++ (if s.contains '\n' then ['\n'] else []) ++ body ++ marks

def write (s : List Char) : List Char :=
  match Style.of s with
  | .basic => '"' :: s.flatMap escapeChar ++ ['"']
  | .literal => '\'' :: s ++ ['\'']
  | .basicLines => tripled '"' (escapeLines 0 s) s
  | .literalLines => tripled '\'' s s

end VectorTable.Toml.Quotation
