import ProseLint.Json.Quoted

/-!
# JSON tokens

A JSON text is a sequence of tokens with white space between them that means nothing.
-/

namespace ProseLint.Json

inductive Token where
  | beginArray
  | endArray
  | beginObject
  | endObject
  | colon
  | comma
  | null
  | bool (b : Bool)
  /-- A number without sign, fraction and exponent. -/
  | natural (n : Nat)
  /-- A number with one of these; its value is not kept. -/
  | decimal
  /-- A text, without content if a surrogate stands alone in it. -/
  | text (content? : Option String)
deriving DecidableEq, Repr

namespace Token

/-- The white space between tokens. -/
def isSpace (c : Char) : Bool :=
  c == ' ' || c == '\t' || c == '\n' || c == '\r'

/-- The number of a sequence of decimal digits. -/
def decimalNumber (ds : List Char) : Nat :=
  ds.foldl (fun n c => 10 * n + (c.toNat - '0'.toNat)) 0

/-- The digits of an integer: a zero, or digits of which the first is not zero. -/
def integerDigits : List Char → List Char × List Char
  | '0' :: s => (['0'], s)
  | s => (s.takeWhile Char.isDigit, s.dropWhile Char.isDigit)

/-- Skips digits, of which there must be one. -/
def skipDigits? (s : List Char) : Option (List Char) :=
  if (s.takeWhile Char.isDigit).isEmpty then none else some (s.dropWhile Char.isDigit)

/-- Skips a fraction, if there is one. -/
def skipFraction? : List Char → Option (List Char)
  | '.' :: s => skipDigits? s
  | s => some s

def isExponentMark (c : Char) : Bool :=
  c == 'e' || c == 'E'

def skipSign : List Char → List Char
  | [] => []
  | c :: s => if c == '+' || c == '-' then s else c :: s

/-- Skips an exponent, if there is one. -/
def skipExponent? : List Char → Option (List Char)
  | [] => some []
  | c :: s => if isExponentMark c then skipDigits? (skipSign s) else some (c :: s)

/-- A fraction or an exponent follows the digits of a number. -/
def goesOn (s : List Char) : Bool :=
  s.head?.any fun c => c == '.' || isExponentMark c

/-- Reads a number without a sign. -/
def readUnsigned? (s : List Char) : Option (Token × List Char) :=
  let (ds, rest) := integerDigits s
  if ds.isEmpty then none
  else do
    let r ← skipExponent? (← skipFraction? rest)
    return (if goesOn rest then decimal else natural (decimalNumber ds), r)

/-- Reads the token that a text starts with. -/
def read? : List Char → Option (Token × List Char)
  | '[' :: s => some (beginArray, s)
  | ']' :: s => some (endArray, s)
  | '\x7b' :: s => some (beginObject, s)
  | '\x7d' :: s => some (endObject, s)
  | ':' :: s => some (colon, s)
  | ',' :: s => some (comma, s)
  | 'n' :: 'u' :: 'l' :: 'l' :: s => some (null, s)
  | 't' :: 'r' :: 'u' :: 'e' :: s => some (bool true, s)
  | 'f' :: 'a' :: 'l' :: 's' :: 'e' :: s => some (bool false, s)
  | '\x22' :: s => (Quoted.readPieces s).map fun (ps, r) =>
    (text ((Quoted.characters? ps).map String.ofList), r)
  | '-' :: s => (readUnsigned? s).map fun (_, r) => (decimal, r)
  | s => readUnsigned? s

/-- How the token is written. A number whose value is not kept has no one way to be written. -/
def write : Token → List Char
  | beginArray => ['[']
  | endArray => [']']
  | beginObject => ['\x7b']
  | endObject => ['\x7d']
  | colon => [':']
  | comma => [',']
  | null => "null".toList
  | bool true => "true".toList
  | bool false => "false".toList
  | natural n => Nat.toDigits 10 n
  | decimal => "0.0".toList
  | text content? => Quoted.write (content?.getD "")

theorem length_skipDigits? {s r : List Char} (h : skipDigits? s = some r) :
    r.length < s.length := by
  cases s with
  | nil => simp [skipDigits?] at h
  | cons c s =>
    have hs := (List.dropWhile_suffix Char.isDigit (l := s)).length_le
    by_cases hc : c.isDigit
    · simp [skipDigits?, hc] at h
      simp only [List.length_cons, ← h]; omega
    · simp [skipDigits?, hc] at h

theorem length_skipSign (s : List Char) : (skipSign s).length ≤ s.length := by
  fun_cases skipSign s <;> simp

theorem length_skipFraction? {s r : List Char} (h : skipFraction? s = some r) :
    r.length ≤ s.length := by
  fun_cases skipFraction? s with
  | case1 s =>
    have := length_skipDigits? (by simpa [skipFraction?] using h)
    simp only [List.length_cons]; omega
  | case2 => simp_all [skipFraction?]

theorem length_skipExponent? {s r : List Char} (h : skipExponent? s = some r) :
    r.length ≤ s.length := by
  fun_cases skipExponent? s with
  | case1 => simp_all [skipExponent?]
  | case2 c s hc =>
    have := length_skipDigits? (by simpa [skipExponent?, hc] using h)
    have := length_skipSign s
    simp only [List.length_cons]; omega
  | case3 c s hc =>
    obtain rfl : c :: s = r := by simpa [skipExponent?, hc] using h
    exact Nat.le_refl _

theorem length_integerDigits {s : List Char} (h : (integerDigits s).1 ≠ []) :
    (integerDigits s).2.length < s.length := by
  fun_cases integerDigits s with
  | case1 s => simp
  | case2 s hs =>
    simp only [integerDigits] at h ⊢
    have hl := congrArg List.length (List.takeWhile_append_dropWhile (p := Char.isDigit) (l := s))
    have := List.length_pos_iff.2 h
    simp only [List.length_append] at hl
    omega

theorem length_readUnsigned? {s r : List Char} {t : Token} (h : readUnsigned? s = some (t, r)) :
    r.length < s.length := by
  unfold readUnsigned? at h
  split at h
  rename_i ds rest hs
  split at h
  · simp at h
  rename_i hds
  simp only [Option.bind_eq_bind, Option.bind_eq_some_iff, Option.pure_def, Option.some.injEq,
    Prod.mk.injEq] at h
  obtain ⟨_, hf, _, he, _, rfl⟩ := h
  have h₁ := length_integerDigits (s := s) (by simpa [hs] using hds)
  have h₂ := length_skipFraction? hf
  have h₃ := length_skipExponent? he
  simp only [hs] at h₁
  omega

theorem length_read? {s r : List Char} {t : Token} (h : read? s = some (t, r)) :
    r.length < s.length := by
  fun_cases read? s with
  | case10 s =>
    simp only [read?, Option.map_eq_some_iff, Prod.mk.injEq, Prod.exists] at h
    obtain ⟨_, _, h, _, rfl⟩ := h
    have := Quoted.length_readPieces h
    simp only [List.length_cons]; omega
  | case11 s =>
    simp only [read?, Option.map_eq_some_iff, Prod.mk.injEq, Prod.exists] at h
    obtain ⟨_, _, h, _, rfl⟩ := h
    have := length_readUnsigned? h
    simp only [List.length_cons]; omega
  | case12 => exact length_readUnsigned? (by simpa [read?] using h)
  | _ =>
    simp only [read?, Option.some.injEq, Prod.mk.injEq] at h
    simp only [← h.2, List.length_cons]; omega

end Token

/-- The tokens of a text. -/
def tokens? (s : List Char) : Option (List Token) :=
  match s with
  | [] => some []
  | c :: s =>
    if Token.isSpace c then tokens? s
    else match h : Token.read? (c :: s) with
      | none => none
      | some (t, r) =>
        have := Token.length_read? h
        (tokens? r).map (t :: ·)
termination_by s.length
decreasing_by
  · simp only [List.length_cons]; omega
  · assumption

end ProseLint.Json
