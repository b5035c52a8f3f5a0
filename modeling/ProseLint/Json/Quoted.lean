import ProseLint.Text.Digit

/-!
# Texts in JSON

A text stands in quotes. Quotes, backslashes and controls in it are escaped; a character beyond the
16-bit words may be written as two escaped words, a surrogate pair.
-/

namespace ProseLint.Json.Quoted

/-- The letters that stand for a control after a backslash. -/
def shortEscapes : List (Char × Char) :=
  [('b', '\x08'), ('t', '\t'), ('n', '\n'), ('f', '\x0c'), ('r', '\r')]

def isControl (c : Char) : Bool :=
  c.toNat < 32

def escapeChar (c : Char) : List Char :=
  if c == '\x22' || c == '\\' then ['\\', c]
  else match shortEscapes.find? (·.2 == c) with
    | some (e, _) => ['\\', e]
    | none =>
      if isControl c then ['\\', 'u', '0', '0', Text.hexDigit (c.toNat / 16),
        Text.hexDigit (c.toNat % 16)]
      else [c]

/-- The text as it is written, in quotes. -/
def write (s : String) : List Char :=
  '\x22' :: (s.toList.flatMap escapeChar ++ ['\x22'])

/-- What a text is made of: characters, and the 16-bit words that are written as numbers. -/
inductive Piece where
  | char (c : Char)
  | word (n : Nat)
deriving DecidableEq, Repr

/-- The character that `\` and `c` stand for. -/
def escaped? (c : Char) : Option Char :=
  if c == '\x22' || c == '\\' || c == '/' then some c
  else (shortEscapes.find? (·.1 == c)).map (·.2)

/-- Reads up to the closing quote. -/
def readPieces : List Char → Option (List Piece × List Char)
  | [] => none
  | '\x22' :: s => some ([], s)
  | '\\' :: 'u' :: a :: b :: c :: d :: s => do
    let n ← Text.hexNumber? [a, b, c, d]
    let (ps, r) ← readPieces s
    return (.word n :: ps, r)
  | '\\' :: e :: s => do
    let c ← escaped? e
    let (ps, r) ← readPieces s
    return (.char c :: ps, r)
  | c :: s =>
    if isControl c then none
    else do
      let (ps, r) ← readPieces s
      return (.char c :: ps, r)

def isHighSurrogate (n : Nat) : Bool :=
  0xD800 ≤ n && n < 0xDC00

def isLowSurrogate (n : Nat) : Bool :=
  0xDC00 ≤ n && n < 0xE000

/-- The character of a surrogate pair. -/
def pair (high low : Nat) : Char :=
  Char.ofNat (0x10000 + (high - 0xD800) * 0x400 + (low - 0xDC00))

/-- The characters of the pieces. A surrogate that is not in a pair is no character. -/
def characters? : List Piece → Option (List Char)
  | [] => some []
  | .char c :: ps => (characters? ps).map (c :: ·)
  | .word n :: ps =>
    if isHighSurrogate n then
      match ps with
      | .word m :: ps => if isLowSurrogate m then (characters? ps).map (pair n m :: ·) else none
      | _ => none
    else if isLowSurrogate n then none
    else (characters? ps).map (Char.ofNat n :: ·)

theorem length_readPieces {s r : List Char} {ps : List Piece} (h : readPieces s = some (ps, r)) :
    r.length < s.length := by
  fun_induction readPieces s generalizing ps r <;>
    simp only [Option.bind_eq_bind, Option.bind_eq_some_iff, Option.pure_def, Option.some.injEq,
      Prod.mk.injEq, reduceCtorEq] at h
  case case2 => simp [← h.2]
  all_goals grind [List.length_cons]

end ProseLint.Json.Quoted
