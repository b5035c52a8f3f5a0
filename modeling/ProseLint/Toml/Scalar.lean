/-!
# Plain values in TOML

Booleans, numbers and moments are written without quotes. Of numbers and moments nothing is kept
but that they are well written: a number fits a word of 64 bits or a double, a moment is a date or
time that exists.
-/

namespace ProseLint.Toml

/-- A value that stands without quotes. -/
inductive Scalar where
  | bool (b : Bool)
  | number
  | moment
deriving DecidableEq, Repr

namespace Scalar

/-! ### Numbers -/

/-- The digits of a number in which single underscores may stand between digits. -/
def digits? (isDigit : Char → Bool) : List Char → Option (List Char)
  | [] => none
  | [c] => if isDigit c then some [c] else none
  | c :: '_' :: s => if isDigit c then (digits? isDigit s).map (c :: ·) else none
  | c :: s => if isDigit c then (digits? isDigit s).map (c :: ·) else none

/-- The number of a sequence of digits and letters to a base. -/
def numberOf (base : Nat) (ds : List Char) : Nat :=
  ds.foldl (fun n c =>
    base * n + if c.isDigit then c.toNat - '0'.toNat else c.toLower.toNat - 'a'.toNat + 10) 0

def isHexDigit (c : Char) : Bool :=
  c.isDigit || ('a' ≤ c.toLower && c.toLower ≤ 'f')

def isOctalDigit (c : Char) : Bool :=
  '0' ≤ c && c ≤ '7'

def isBinaryDigit (c : Char) : Bool :=
  c == '0' || c == '1'

/-- The sign of a number, and the rest of it. -/
def sign : List Char → Bool × List Char
  | '-' :: s => (true, s)
  | '+' :: s => (false, s)
  | s => (false, s)

/-- Digits of which the first is zero only if it is the only one. -/
def integerDigits? (s : List Char) : Option (List Char) := do
  match ← digits? Char.isDigit s with
  | '0' :: _ :: _ => none
  | ds => some ds

/-- The number fits a signed or an unsigned word. -/
def fitsWord (negative : Bool) (n : Nat) : Bool :=
  if negative then n ≤ UInt64.size / 2 else n < UInt64.size

def isInteger (s : List Char) : Bool :=
  match s with
  | '0' :: 'x' :: s => ((digits? isHexDigit s).map (fitsWord false <| numberOf 16 ·)).getD false
  | '0' :: 'o' :: s => ((digits? isOctalDigit s).map (fitsWord false <| numberOf 8 ·)).getD false
  | '0' :: 'b' :: s => ((digits? isBinaryDigit s).map (fitsWord false <| numberOf 2 ·)).getD false
  | s =>
    let (negative, s) := sign s
    ((integerDigits? s).map (fitsWord negative <| numberOf 10 ·)).getD false

/-- The least number that is rounded to infinity: half a unit beyond the greatest double. -/
def overflow : Nat :=
  Nat.pow 2 1024 - Nat.pow 2 970

/-- The number `m · 10 ^ e` is too great for a double. -/
def overflows (m : Nat) (e : Int) : Bool :=
  let magnitude := (Nat.toDigits 10 m).length + e
  if m == 0 || magnitude < 300 then false
  else if 320 < magnitude then true
  else if 0 ≤ e then overflow ≤ m * Nat.pow 10 e.toNat
  else overflow * Nat.pow 10 (-e).toNat ≤ m

/-- The digits of a fraction, and what follows them. -/
def fraction? (s : List Char) : Option (List Char × List Char) :=
  match s with
  | '.' :: s =>
    let isPart (c : Char) := c.isDigit || c == '_'
    (digits? Char.isDigit (s.takeWhile isPart)).map (·, s.dropWhile isPart)
  | s => some ([], s)

/-- The exponent, which is zero if there is none. -/
def exponent? : List Char → Option Int
  | [] => some 0
  | c :: s =>
    if c == 'e' || c == 'E' then do
      let (negative, s) := sign s
      let n : Int := numberOf 10 (← digits? Char.isDigit s)
      return if negative then -n else n
    else none

/-- A fraction or an exponent follows the whole part. -/
def isFloat (s : List Char) : Bool :=
  let (_, s) := sign s
  let isPart (c : Char) := c.isDigit || c == '_'
  let value := do
    let whole ← integerDigits? (s.takeWhile isPart)
    guard (!(s.dropWhile isPart).isEmpty)
    let (part, s) ← fraction? (s.dropWhile isPart)
    let e ← exponent? s
    return (numberOf 10 (whole ++ part), e - part.length)
  s == "inf".toList || s == "nan".toList || value.any fun (m, e) => !overflows m e

/-! ### Moments -/

def twoDigits? : List Char → Option (Nat × List Char)
  | a :: b :: s => if a.isDigit && b.isDigit then some (numberOf 10 [a, b], s) else none
  | _ => none

def isLeapYear (y : Nat) : Bool :=
  y % 4 == 0 && (y % 100 != 0 || y % 400 == 0)

def daysOf (year month : Nat) : Nat :=
  if month == 2 then if isLeapYear year then 29 else 28
  else if [4, 6, 9, 11].contains month then 30 else 31

/-- Reads a year, a month and a day that it has. -/
def skipDate? (s : List Char) : Option (List Char) := do
  let (century, s) ← twoDigits? s
  let (year, s) ← twoDigits? s
  let '-' :: s := s | none
  let (month, s) ← twoDigits? s
  let '-' :: s := s | none
  let (day, s) ← twoDigits? s
  guard (1 ≤ month ∧ month ≤ 12 ∧ 1 ≤ day ∧ day ≤ daysOf (100 * century + year) month)
  return s

/-- Reads the seconds of a time, which may be left out, and the fraction of a second. -/
def skipSeconds? : List Char → Option (List Char)
  | ':' :: s => do
    let (second, s) ← twoDigits? s
    guard (second ≤ 60)
    match s with
    | '.' :: s =>
      if (s.takeWhile Char.isDigit).isEmpty then none else return s.dropWhile Char.isDigit
    | s => return s
  | s => some s

/-- Reads an hour and a minute with a colon between them. -/
def skipClock? (s : List Char) : Option (List Char) := do
  let (hour, s) ← twoDigits? s
  let ':' :: s := s | none
  let (minute, s) ← twoDigits? s
  guard (hour ≤ 23 ∧ minute ≤ 59)
  return s

def skipTime? (s : List Char) : Option (List Char) :=
  (skipClock? s).bind skipSeconds?

/-- The distance from universal time that may follow a date and time. -/
def isOffset : List Char → Bool
  | [] => true
  | c :: s =>
    if c == 'Z' || c == 'z' then s.isEmpty
    else if c == '+' || c == '-' then skipClock? s == some []
    else false

/-- A letter or a space stands between date and time. -/
def isDateEnd (c : Char) : Bool :=
  c == 'T' || c == 't' || c == ' '

def isMoment (s : List Char) : Bool :=
  skipTime? s == some [] ||
    match skipDate? s with
    | none => false
    | some [] => true
    | some (c :: s) => isDateEnd c && (skipTime? s).any isOffset

/-! ### Values -/

def ofChars? (s : List Char) : Option Scalar :=
  if s == "true".toList then some (bool true)
  else if s == "false".toList then some (bool false)
  else if isInteger s || isFloat s then some number
  else if isMoment s then some moment
  else none

/-- The characters before which a plain value ends. -/
def isEnd (c : Char) : Bool :=
  [' ', '\t', '\n', '\r', ',', ']', '\x7d', '#'].contains c

/-- The characters of the plain value that a text starts with, and what follows it. After a date,
a space and a digit the value goes on. -/
def cut (s : List Char) : List Char × List Char :=
  let first := s.takeWhile (!isEnd ·)
  match s.dropWhile (!isEnd ·) with
  | ' ' :: c :: r =>
    if skipDate? first == some [] && c.isDigit then
      (first ++ ' ' :: (c :: r).takeWhile (!isEnd ·), (c :: r).dropWhile (!isEnd ·))
    else (first, ' ' :: c :: r)
  | r => (first, r)

def read? (s : List Char) : Option (Scalar × List Char) :=
  (ofChars? (cut s).1).map (·, (cut s).2)

end Scalar

end ProseLint.Toml
