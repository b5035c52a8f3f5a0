/-!
# Characters and texts

Classes of characters, and what is done with a text by the class of its characters: trimming,
cutting into words, comparison up to the case of ASCII letters. Every function but the comparison
works on the list of the characters of a text.
-/

namespace ProseLint.Text

/-! ### Classes -/

/-- Ranges of code points, both ends included. -/
abbrev Class := List (Nat × Nat)

def Class.has (k : Class) (c : Char) : Bool :=
  k.any fun r => r.1 ≤ c.toNat && c.toNat ≤ r.2

/-! ### Blanks

The characters with the Unicode property `White_Space`, and trimming by them. -/

/-- The controls from tab to carriage return, space, next line, and the separators of Unicode. -/
def blanks : Class := [
  (0x9, 0xD), (0x20, 0x20), (0x85, 0x85), (0xA0, 0xA0), (0x1680, 0x1680), (0x2000, 0x200A),
  (0x2028, 0x2029), (0x202F, 0x202F), (0x205F, 0x205F), (0x3000, 0x3000)]

def isBlank (c : Char) : Bool :=
  blanks.has c

/-- Space or tab, the blanks of the line grammar. -/
def isIndent (c : Char) : Bool :=
  c == ' ' || c == '\t'

/-- Drops the longest suffix of characters with property `p`. -/
def dropEndWhile (p : Char → Bool) (s : List Char) : List Char :=
  (s.reverse.dropWhile p).reverse

def trimStart (s : List Char) : List Char :=
  s.dropWhile isBlank

def trimEnd (s : List Char) : List Char :=
  dropEndWhile isBlank s

def trim (s : List Char) : List Char :=
  trimEnd (trimStart s)

/-- A text that is empty after trimming. -/
def isBlankText (s : List Char) : Bool :=
  s.all isBlank

/-! ### Words -/

/-- Puts `c` in front of the first word. -/
def consWord (c : Char) : List (List Char) → List (List Char)
  | [] => [[c]]
  | w :: ws => (c :: w) :: ws

/-- The longest pieces of a text that hold no separator. -/
def words (sep : Char → Bool) : List Char → List (List Char)
  | [] => []
  | c :: s =>
    if sep c then words sep s
    else if s.head?.all sep then [c] :: words sep s
    else consWord c (words sep s)

/-! ### Case of ASCII letters -/

/-- The text with `A` to `Z` made small and every other character kept. -/
def foldAscii (s : String) : List Char :=
  s.toList.map Char.toLower

/-- Equality up to the case of the letters `A` to `Z`. -/
def sameAscii (s t : String) : Bool :=
  foldAscii s == foldAscii t

end ProseLint.Text
