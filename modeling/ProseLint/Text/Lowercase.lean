import ProseLint.Text.Capital
import ProseLint.Text.Cased

/-!
# Lowercase text

The full lowercase mapping of Unicode. It is the mapping of single characters but for two letters:
`İ` becomes an `i` and a dot above, and `Σ` becomes `ς` at the end of a word and `σ` elsewhere.
-/

namespace ProseLint.Text

/-- The lowercase of one character without regard to its neighbours. -/
def lowerChar (c : Char) : List Char :=
  if c = 'İ' then ['i', '\u0307'] else [smallLetter c]

/-- Past the marks that case rules look through stands a cased letter. -/
def nextIsCased (s : List Char) : Bool :=
  (s.dropWhile isCaseIgnorable).head?.any isCased

/-- The lowercase of `Σ` between `before`, read away from it, and `after`. -/
def lowerSigma (before after : List Char) : Char :=
  if nextIsCased before && !nextIsCased after then 'ς' else 'σ'

/-- `before` holds the characters already read, the last one first. -/
def lowerFrom (before : List Char) : List Char → List Char
  | [] => []
  | c :: s =>
    (if c = 'Σ' then [lowerSigma before s] else lowerChar c) ++ lowerFrom (c :: before) s

def lower (s : List Char) : List Char :=
  lowerFrom [] s

/-- The lowercase of a text, final sigmas included. -/
def lowercase (s : String) : String :=
  String.ofList (lower s.toList)

end ProseLint.Text
