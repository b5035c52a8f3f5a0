import ProseLint.Sentence
import ProseLint.SymbolTable
import ProseLint.Text.Basic

/-!
# Splitting text into sentences

Sentences end at the terminators of a symbol table: its full stop, question mark and exclamation
mark, as far as it defines them. Text that runs over several lines is joined as the locale joins
words, and a sentence starts on the line of its first character that is not blank.
-/

namespace ProseLint

structure Splitter where
  terminators : List Char
  joiner : List Char
deriving DecidableEq, Repr

namespace Splitter

/-- Japanese is written without spaces between words. -/
def joinerOf : Locale → List Char
  | .english => [' ']
  | .japanese => []

def of (t : SymbolTable) : Splitter where
  terminators := [Symbol.fullStop, .questionMark, .exclamationMark].filterMap fun s =>
    (t.glyph? s).map (·.value)
  joiner := joinerOf t.locale

/-- A sentence that is being read: its first line, and its characters with the last one first. -/
structure Opened where
  line : LineNumber
  read : List Char
deriving DecidableEq, Repr

/-- The sentences read so far, and the one being read. -/
structure State where
  sentences : List Sentence := []
  opened? : Option Opened := none
deriving DecidableEq, Repr

def Opened.close (o : Opened) : Sentence :=
  ⟨String.ofList (Text.trimEnd o.read.reverse), o.line⟩

variable (k : Splitter)

/-- Reads one character of the line `n`. -/
def readChar (n : LineNumber) (s : State) (c : Char) : State :=
  if s.opened?.isNone && Text.isBlank c then s
  else
    let o := match s.opened? with
      | some o => { o with read := c :: o.read }
      | none => ⟨n, [c]⟩
    if k.terminators.contains c then ⟨s.sentences ++ [o.close], none⟩
    else { s with opened? := some o }

/-- Joins a line that holds text to the sentence being read. -/
def join (s : State) (text : List Char) : State :=
  if text.isEmpty then s
  else { s with opened? := s.opened?.map fun o => { o with read := k.joiner.reverse ++ o.read } }

def readLine (s : State) (l : LineNumber × List Char) : State :=
  l.2.foldl (k.readChar l.1) (k.join s l.2)

def State.finish (s : State) : List Sentence :=
  s.sentences ++ (s.opened?.map Opened.close).toList

/-- The sentences of consecutive lines of text. -/
def split (ls : List (LineNumber × List Char)) : List Sentence :=
  (ls.foldl k.readLine {}).finish

end Splitter

end ProseLint
