import ProseLint.Section
import ProseLint.Sentence.Splitter
import ProseLint.Source.Line

/-!
# The outline of a source

The lines of a source are read into passages, one for each heading and one for the text above the
first heading. The passages are then nested by their levels: a passage belongs to the closest
passage before it with a smaller level.
-/

namespace ProseLint

/-- A line of text with its number. -/
abbrev TextLine := LineNumber × List Char

/-- A list item whose lines are still being read. -/
structure OpenItem where
  level : Nat
  lines : List TextLine
deriving DecidableEq, Repr

/-- A block whose lines are still being read. -/
inductive OpenBlock where
  | paragraph (lines : List TextLine)
  /-- A list, with the items before the last one apart. -/
  | list (items : List OpenItem) (last : OpenItem)
deriving DecidableEq, Repr

/-- The passages that are complete, the one being read, and its block being read. -/
structure Outline where
  complete : List Passage := []
  current : Passage := { level := 0 }
  block? : Option OpenBlock := none
deriving DecidableEq, Repr

namespace OpenItem

def push (i : OpenItem) (l : TextLine) : OpenItem :=
  { i with lines := i.lines ++ [l] }

def close (k : Splitter) (i : OpenItem) : Item :=
  ⟨i.level, k.split i.lines⟩

end OpenItem

namespace Outline

variable (k : Splitter)

/-- Ends the block being read. -/
def endBlock (o : Outline) : Outline :=
  match o.block? with
  | none => o
  | some (.paragraph ls) =>
    { o with
      current := { o.current with paragraphs := o.current.paragraphs ++ [k.split ls] }
      block? := none }
  | some (.list is i) =>
    { o with
      current := { o.current with lists := o.current.lists ++ [(is ++ [i]).map (·.close k)] }
      block? := none }

/-- Text goes on with the block being read, or opens a paragraph. -/
def text (o : Outline) (l : TextLine) : Outline :=
  match o.block? with
  | none => { o with block? := some (.paragraph [l]) }
  | some (.paragraph ls) => { o with block? := some (.paragraph (ls ++ [l])) }
  | some (.list is i) => { o with block? := some (.list is (i.push l)) }

/-- An item goes on with the list being read, or ends the block and opens a list. -/
def item (o : Outline) (level : Nat) (l : TextLine) : Outline :=
  match o.block? with
  | some (.list is i) => { o with block? := some (.list (is ++ [i]) ⟨level, [l]⟩) }
  | _ => { o.endBlock k with block? := some (.list [] ⟨level, [l]⟩) }

/-- A heading completes the passage being read and opens its own. -/
def heading (o : Outline) (level : Nat) (l : TextLine) : Outline :=
  let o := o.endBlock k
  { complete := o.complete ++ [o.current]
    current := { level, header := k.split [l] } }

/-- Reads a line. Blank lines, comments, markers and code end the block being read. -/
def readLine (o : Outline) (l : Source.Line × Nat) : Outline :=
  match l with
  | (.heading level text, n) => o.heading k level (n, text)
  | (.item level text, n) => o.item k level (n, text)
  | (.text text, n) => o.text (n, text)
  | (.blank, _) | (.comment, _) | (.marker _, _) | (.code, _) => o.endBlock k

/-- The passages of the lines. The first one is the text above the first heading. -/
def passages (ls : List (Source.Line × Nat)) : List Passage :=
  let o := (ls.foldl (readLine k) {}).endBlock k
  o.complete ++ [o.current]

/-- Puts a passage in front of a forest, over the trees up to the first that is not deeper. -/
def adopt (p : Passage) (ss : List Section) : List Section :=
  ⟨p, ss.takeWhile (p.level < ·.own.level)⟩ :: ss.dropWhile (p.level < ·.own.level)

/-- Nests passages by their levels. -/
def nest (ps : List Passage) : List Section :=
  ps.foldr adopt []

/-- The sections of the lines. Text above the first heading makes a section of its own, with no
other below it, if there is a sentence in it. -/
def sections (ls : List (Source.Line × Nat)) : List Section :=
  match passages k ls with
  | [] => []
  | p :: ps => if p.span?.isSome then ⟨p, []⟩ :: nest ps else nest ps

end Outline

end ProseLint
