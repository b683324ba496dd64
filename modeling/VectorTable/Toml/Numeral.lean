import VectorTable.Toml.Value
import VectorTable.Number.Decimal

/-! Numbers, dates and the other scalars that are written without quotation
marks. Each is one word, but for a date and a time with a space between. -/
namespace VectorTable.Toml.Numeral

def isWordChar (c : Char) : Bool :=
  c.isAlphanum || c == '+' || c == '-' || c == '_' || c == '.' || c == ':'

/-- The value of a digit, also one past nine. -/
def digitValue (c : Char) : Nat :=
  if c.isDigit then c.toNat - 48 else if c.isLower then c.toNat - 87 else c.toNat - 55

def isDigitOf (radix : Nat) (c : Char) : Bool := c.isAlphanum && digitValue c < radix

/-- The digits without the underscores, which may only stand between two digits. -/
def ungroup? (radix : Nat) : List Char → Option (List Char)
  | [] => none
  | c :: rest =>
    if !isDigitOf radix c then none
    else match rest with
      | [] => some [c]
      | '_' :: rest => (ungroup? radix rest).map (c :: ·)
      | rest => (ungroup? radix rest).map (c :: ·)

def value (radix : Nat) (digits : List Char) : Nat :=
  digits.foldl (fun n c => radix * n + digitValue c) 0

/-- The digits of a decimal number, which starts with a zero only if it is zero. -/
def decimal? : List Char → Option (List Char)
  | ['0'] => some ['0']
  | '0' :: _ => none
  | s => ungroup? 10 s

/-- Whether there is a minus sign, and the text after the sign. -/
def sign : List Char → Bool × List Char
  | '-' :: rest => (true, rest)
  | '+' :: rest => (false, rest)
  | s => (false, s)

def withSign (negative : Bool) (n : Nat) : Int := if negative then -n else n

def int64? (n : Int) : Option Int64 :=
  if -2 ^ 63 ≤ n ∧ n < 2 ^ 63 then some (Int64.ofInt n) else none

/-- A whole number that 64 bits hold. Only decimal ones have a sign. -/
def integer? (s : List Char) : Option Int64 :=
  match s with
  | '0' :: 'x' :: rest => do int64? (value 16 (← ungroup? 16 rest))
  | '0' :: 'o' :: rest => do int64? (value 8 (← ungroup? 8 rest))
  | '0' :: 'b' :: rest => do int64? (value 2 (← ungroup? 2 rest))
  | _ => do int64? (withSign (sign s).1 (value 10 (← decimal? (sign s).2)))

def isExponentMark (c : Char) : Bool := c == 'e' || c == 'E'

/-- The exponent that the text from its mark on gives; none is zero. -/
def exponent? : List Char → Option Int
  | [] => some 0
  | _ :: rest => do some (withSign (sign rest).1 (value 10 (← ungroup? 10 (sign rest).2)))

/-- The digits after the point, if the text starts with one. -/
def fraction? : List Char → Option (List Char)
  | [] => some []
  | _ :: rest => ungroup? 10 rest

/-- The number, without its sign, that has a point or an exponent. -/
def magnitude? (s : List Char) : Option Nat := do
  let whole := s.takeWhile fun c => c ≠ '.' && !isExponentMark c
  let tail := s.dropWhile fun c => c ≠ '.' && !isExponentMark c
  if tail.isEmpty then none
  else do
    let before ← decimal? whole
    let after ← fraction? (tail.takeWhile fun c => !isExponentMark c)
    let e ← exponent? (tail.dropWhile fun c => !isExponentMark c)
    some (Binary.ofDecimal (value 10 (before ++ after)) (e - after.length))

/-- A number in double precision. A positive one must not be too large; a negative
one that is too large is infinite. -/
def float? (s : List Char) : Option UInt64 :=
  let (negative, body) := sign s
  let signed (bits : Nat) := UInt64.ofNat (Binary.double.withSign negative bits)
  if body = ['i', 'n', 'f'] then some (signed Binary.double.infinity)
  else if body = ['n', 'a', 'n'] then some (signed Binary.double.quietNan)
  else match magnitude? body with
    | none => none
    | some bits => if bits = Binary.double.infinity ∧ !negative then none else some (signed bits)

/-! ### Dates and times -/

/-- A number of ASCII digits only. -/
def plain? (s : List Char) : Option Nat :=
  if s.all Char.isDigit then some (value 10 s) else none

def daysIn (year month : Nat) : Nat :=
  if month = 2 then
    if year % 4 = 0 ∧ (year % 100 ≠ 0 ∨ year % 400 = 0) then 29 else 28
  else if month ∈ [4, 6, 9, 11] then 30 else 31

/-- The text after a date. -/
def dropDate? : List Char → Option (List Char)
  | y :: y' :: y'' :: y''' :: '-' :: m :: m' :: '-' :: d :: d' :: rest => do
    let year ← plain? [y, y', y'', y''']
    let month ← plain? [m, m']
    let day ← plain? [d, d']
    if 1 ≤ month ∧ month ≤ 12 ∧ 1 ≤ day ∧ day ≤ daysIn year month then some rest else none
  | _ => none

/-- The text after a time of day, which may count a leap second and parts of one. -/
def dropTime? : List Char → Option (List Char)
  | h :: h' :: ':' :: m :: m' :: ':' :: s :: s' :: rest => do
    let hour ← plain? [h, h']
    let minute ← plain? [m, m']
    let second ← plain? [s, s']
    if 24 ≤ hour ∨ 60 ≤ minute ∨ 60 < second then none
    else match rest with
      | '.' :: c :: more => if c.isDigit then some (more.dropWhile Char.isDigit) else none
      | _ => some rest
  | _ => none

/-- What may stand after the time of a date: nothing, a `Z` or a time difference. -/
def isOffset : List Char → Bool
  | [] | ['Z'] | ['z'] => true
  | [c, h, h', ':', m, m'] =>
    (c == '+' || c == '-') &&
      match plain? [h, h'], plain? [m, m'] with
      | some hour, some minute => hour < 24 && minute < 60
      | _, _ => false
  | _ => false

/-- A date, a time, or a date with a time and perhaps an offset. -/
def isMoment (s : List Char) : Bool :=
  match dropDate? s with
  | some [] => true
  | some (c :: rest) =>
    (c == 'T' || c == 't' || c == ' ') &&
      match dropTime? rest with
      | some after => isOffset after
      | none => false
  | none => dropTime? s == some []

/-! ### Words -/

def ofWord? (s : List Char) : Option Scalar :=
  if s = ['t', 'r', 'u', 'e'] then some (.flag true)
  else if s = ['f', 'a', 'l', 's', 'e'] then some (.flag false)
  else if isMoment s then some (.moment (String.ofList s))
  else match integer? s with
    | some n => some (.integer n)
    | none => (float? s).map .float

/-- The length of the word at the front. A date and a word after one space are one
word. -/
def wordLength (s : List Char) : Nat :=
  let word := s.takeWhile isWordChar
  if dropDate? word = some [] then
    match s.drop word.length with
    | ' ' :: rest =>
      let more := rest.takeWhile isWordChar
      if more.isEmpty then word.length else word.length + 1 + more.length
    | _ => word.length
  else word.length

/-- The scalar without quotation marks at the front of a text, and the rest. -/
def read? (s : List Char) : Option (Scalar × List Char) :=
  (ofWord? (s.take (wordLength s))).map (·, s.drop (wordLength s))

end VectorTable.Toml.Numeral
