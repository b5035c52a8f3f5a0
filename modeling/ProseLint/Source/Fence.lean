import ProseLint.Text.Basic

/-!
# Code fences

A fence line has at most three spaces and then a run of at least three backticks or tildes. What
follows the run of an opening fence is free, but for backticks it may hold no further backtick.
-/

namespace ProseLint.Source

/-- A run of `length` times the character `mark`. -/
structure Fence where
  mark : Char
  length : Nat
deriving DecidableEq, Repr

namespace Fence

def isMark (c : Char) : Bool :=
  c == '\x60' || c == '~'

/-- The run that starts a fence line, and what follows it. -/
def run? (line : List Char) : Option (Fence × List Char) :=
  if 3 < (line.takeWhile (· == ' ')).length then none
  else match line.dropWhile (· == ' ') with
    | [] => none
    | c :: s =>
      let n := (s.takeWhile (· == c)).length + 1
      if isMark c && 3 ≤ n then some (⟨c, n⟩, s.dropWhile (· == c)) else none

/-- The fence that a line opens outside of fences. -/
def opening? (line : List Char) : Option Fence :=
  match run? line with
  | some (f, info) => if f.mark == '\x60' && info.contains '\x60' then none else some f
  | none => none

/-- The line closes the fence: it has a run of the same character, not shorter, and nothing after
it. -/
def closedBy (f : Fence) (line : List Char) : Bool :=
  match run? line with
  | some (g, info) => g.mark == f.mark && f.length ≤ g.length && Text.isBlankText info
  | none => false

end Fence

end ProseLint.Source
