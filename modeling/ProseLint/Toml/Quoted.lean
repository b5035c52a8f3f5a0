import ProseLint.Text.Digit

/-!
# Strings in TOML

A string is written in one of four forms: basic with escapes or literal without any, each on one
line between single delimiters or as a block between triple ones. A string is written in the first
form, from basic to literal block, that needs few escapes.
-/

namespace ProseLint.Toml.Quoted

/-- Controls may not stand in a string as they are. Tab is none of them. -/
def isControl (c : Char) : Bool :=
  (c.toNat < 32 && c != '\t') || c == '\x7f'

/-- The letters that stand for a control after a backslash. -/
def shortEscapes : List (Char × Char) :=
  [('b', '\x08'), ('t', '\t'), ('n', '\n'), ('f', '\x0c'), ('r', '\r'), ('e', '\x1b'),
    ('\x22', '\x22'), ('\\', '\\')]

/-! ### Reading -/

def scalar? (digits : List Char) : Option Char := do
  let n ← Text.hexNumber? digits
  if n.isValidChar then some (Char.ofNat n) else none

/-- Reads an escape after its backslash. -/
def readEscape? : List Char → Option (Char × List Char)
  | 'x' :: a :: b :: s => (scalar? [a, b]).map (·, s)
  | 'u' :: a :: b :: c :: d :: s => (scalar? [a, b, c, d]).map (·, s)
  | 'U' :: a :: b :: c :: d :: e :: f :: g :: h :: s =>
    (scalar? [a, b, c, d, e, f, g, h]).map (·, s)
  | e :: s => (shortEscapes.find? (·.1 == e)).map (·.2, s)
  | [] => none

theorem length_readEscape? {s r : List Char} {c : Char} (h : readEscape? s = some (c, r)) :
    r.length < s.length := by
  fun_cases readEscape? s <;>
    simp only [readEscape?, Option.map_eq_some_iff, Prod.mk.injEq, reduceCtorEq] at h <;>
    obtain ⟨_, _, _, rfl⟩ := h <;> simp only [List.length_cons] <;> omega

/-- Reads a basic string after its opening quote. -/
def readBasic? (s : List Char) : Option (List Char × List Char) :=
  match s with
  | [] => none
  | '\x22' :: s => some ([], s)
  | '\\' :: s => match h : readEscape? s with
    | none => none
    | some (c, r) =>
      have := length_readEscape? h
      (readBasic? r).map fun (cs, r) => (c :: cs, r)
  | c :: s => if isControl c then none else (readBasic? s).map fun (cs, r) => (c :: cs, r)
termination_by s.length

/-- Reads a literal string after its opening quote. -/
def readLiteral? : List Char → Option (List Char × List Char)
  | [] => none
  | '\x27' :: s => some ([], s)
  | c :: s => if isControl c then none else (readLiteral? s).map fun (cs, r) => (c :: cs, r)

/-- Up to two quotes before the closing delimiter of a block belong to the string. -/
def closingQuotes (q : Char) : List Char → List Char × List Char
  | a :: b :: s => if a == q && b == q then ([q, q], s) else if a == q then ([q], b :: s)
    else ([], a :: b :: s)
  | [a] => if a == q then ([q], []) else ([], [a])
  | [] => ([], [])

/-- The line end that a text starts with is dropped. -/
def dropLineEnd? : List Char → Option (List Char)
  | '\n' :: s => some s
  | '\r' :: '\n' :: s => some s
  | _ => none

def isBlank (c : Char) : Bool :=
  c == ' ' || c == '\t'

/-- Drops blanks and line ends. -/
def skipGap : List Char → List Char
  | '\r' :: '\n' :: s => skipGap s
  | c :: s => if isBlank c || c == '\n' then skipGap s else c :: s
  | [] => []

/-- What follows a backslash at the end of a line, without the white space on the next lines. -/
def continuation? (s : List Char) : Option (List Char) :=
  (dropLineEnd? (s.dropWhile isBlank)).map skipGap

theorem length_skipGap (s : List Char) : (skipGap s).length ≤ s.length := by
  fun_induction skipGap s <;> simp only [List.length_cons, Nat.le_refl] <;> omega

theorem length_dropLineEnd? {s r : List Char} (h : dropLineEnd? s = some r) :
    r.length < s.length := by
  fun_cases dropLineEnd? s <;>
    simp only [dropLineEnd?, Option.some.injEq, reduceCtorEq] at h <;>
    subst h <;> simp only [List.length_cons] <;> omega

theorem length_continuation? {s r : List Char} (h : continuation? s = some r) :
    r.length < s.length := by
  simp only [continuation?, Option.map_eq_some_iff] at h
  obtain ⟨t, ht, rfl⟩ := h
  have h₁ := (List.dropWhile_suffix isBlank (l := s)).length_le
  have h₂ := length_dropLineEnd? ht
  have h₃ := length_skipGap t
  omega

/-- Reads a basic block after its opening delimiter and the line end there. -/
def readBasicBlock? (s : List Char) : Option (List Char × List Char) :=
  match s with
  | [] => none
  | '\x22' :: '\x22' :: '\x22' :: s => some (closingQuotes '\x22' s)
  | '\\' :: s => match h : continuation? s with
    | some r =>
      have := length_continuation? h
      readBasicBlock? r
    | none => match h : readEscape? s with
      | none => none
      | some (c, r) =>
        have := length_readEscape? h
        (readBasicBlock? r).map fun (cs, r) => (c :: cs, r)
  | '\r' :: '\n' :: s => (readBasicBlock? s).map fun (cs, r) => ('\r' :: '\n' :: cs, r)
  | c :: s =>
    if isControl c && c != '\n' then none else (readBasicBlock? s).map fun (cs, r) => (c :: cs, r)
termination_by s.length

/-- Reads a literal block after its opening delimiter and the line end there. -/
def readLiteralBlock? : List Char → Option (List Char × List Char)
  | [] => none
  | '\x27' :: '\x27' :: '\x27' :: s => some (closingQuotes '\x27' s)
  | '\r' :: '\n' :: s => (readLiteralBlock? s).map fun (cs, r) => ('\r' :: '\n' :: cs, r)
  | c :: s =>
    if isControl c && c != '\n' then none
    else (readLiteralBlock? s).map fun (cs, r) => (c :: cs, r)

/-- A line end right after the opening delimiter of a block does not belong to the string. -/
def dropFirstLineEnd (s : List Char) : List Char :=
  (dropLineEnd? s).getD s

/-- Reads a string on one line. -/
def readLine? : List Char → Option (List Char × List Char)
  | '\x22' :: s => readBasic? s
  | '\x27' :: s => readLiteral? s
  | _ => none

/-- Reads a string in any form. -/
def read? : List Char → Option (List Char × List Char)
  | '\x22' :: '\x22' :: '\x22' :: s => readBasicBlock? (dropFirstLineEnd s)
  | '\x27' :: '\x27' :: '\x27' :: s => readLiteralBlock? (dropFirstLineEnd s)
  | s => readLine? s

/-! ### Writing -/

inductive Form where
  | basic
  | literal
  | basicBlock
  | literalBlock
deriving DecidableEq, Repr

/-- The length of the longest run of `q`, after a run of `n` that may go on. -/
def longestRun (q : Char) (n : Nat) : List Char → Nat
  | [] => n
  | c :: s => if c == q then longestRun q (n + 1) s else max n (longestRun q 0 s)

/-- The form in which a string is written. -/
def Form.of (s : List Char) : Form :=
  let controls := s.any fun c => isControl c && c != '\n'
  let lineEnds := s.contains '\n'
  let backslashes := s.contains '\\'
  let quotes := longestRun '\x22' 0 s
  let apostrophes := longestRun '\x27' 0 s
  if !controls && !backslashes && !lineEnds && quotes == 0 then basic
  else if !controls && !lineEnds && apostrophes == 0 then literal
  else if !controls && !backslashes && quotes ≤ 2 then basicBlock
  else if !controls && apostrophes ≤ 2 then literalBlock
  else if lineEnds then basicBlock
  else basic

/-- The controls that are written by a letter. -/
def writtenShort : List Char :=
  ['\x08', '\t', '\n', '\x0c', '\r', '\x22', '\\']

def escape (c : Char) : List Char :=
  match shortEscapes.find? (fun e => e.2 == c && writtenShort.contains c) with
  | some (e, _) => ['\\', e]
  | none =>
    if isControl c then
      ['\\', 'u', '0', '0', (Text.hexDigit (c.toNat / 16)).toUpper,
        (Text.hexDigit (c.toNat % 16)).toUpper]
    else [c]

/-- The inside of a basic block after `n` quotes in a row. Of a run of quotes every third one is
escaped, so that no delimiter stands in the block. -/
def escapeBlock (n : Nat) : List Char → List Char
  | [] => []
  | c :: s =>
    if c == '\x22' && n < 2 then c :: escapeBlock (n + 1) s
    else if c == '\n' then c :: escapeBlock 0 s
    else escape c ++ escapeBlock 0 s

/-- A block with a line end in it starts on the line after its delimiter. -/
def firstLineEnd (s : List Char) : List Char :=
  if s.contains '\n' then ['\n'] else []

def write (s : List Char) : List Char :=
  match Form.of s with
  | .basic => '\x22' :: (s.flatMap escape ++ ['\x22'])
  | .literal => '\x27' :: (s ++ ['\x27'])
  | .basicBlock =>
    let delimiter := List.replicate 3 '\x22'
    delimiter ++ firstLineEnd s ++ escapeBlock 0 s ++ delimiter
  | .literalBlock =>
    let delimiter := List.replicate 3 '\x27'
    delimiter ++ firstLineEnd s ++ s ++ delimiter

end ProseLint.Toml.Quoted
