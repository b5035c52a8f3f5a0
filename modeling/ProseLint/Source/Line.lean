import ProseLint.Source.Fence
import ProseLint.Text.Digit

/-!
# The lines of a source

Every line of a source plays one part: it is blank, a heading, a list item, a comment or marker,
code, or text. Only fences carry over from line to line; all else is decided on the line alone.
-/

namespace ProseLint.Source

/-- A line ends in a line feed, and a carriage return right before it belongs to the end as well.
Text after the last line feed is a line too; a carriage return that ends the whole text is part of
it. -/
def lines : List Char → List (List Char)
  | [] => []
  | '\r' :: '\n' :: s => [] :: lines s
  | '\n' :: s => [] :: lines s
  | c :: s => match lines s with
    | [] => [[c]]
    | l :: ls => (c :: l) :: ls

inductive Line where
  | blank
  | heading (level : Nat) (text : List Char)
  | item (level : Nat) (text : List Char)
  /-- A comment that starts with `@`, with the text after it. -/
  | marker (text : List Char)
  | comment
  /-- A fence, or a line between two fences. -/
  | code
  | text (text : List Char)
deriving DecidableEq, Repr

namespace Line

/-- The text without the spaces and tabs on both sides. -/
def stripIndent (s : List Char) : List Char :=
  Text.dropEndWhile Text.isIndent (s.dropWhile Text.isIndent)

/-- What follows the mark that opens a comment. -/
def afterCommentStart? : List Char → Option (List Char)
  | '<' :: '!' :: '-' :: '-' :: s => some s
  | _ => none

/-- What precedes the mark that closes a comment. -/
def beforeCommentEnd? (s : List Char) : Option (List Char) :=
  match s.reverse with
  | '>' :: '-' :: '-' :: r => some r.reverse
  | _ => none

/-- The body of a comment that fills the line. -/
def commentBody? (line : List Char) : Option (List Char) :=
  (afterCommentStart? (stripIndent line)).bind beforeCommentEnd?

def ofComment (body : List Char) : Line :=
  match Text.trim body with
  | '@' :: s => marker (Text.trim s)
  | _ => comment

/-- The text of a heading, without the hashes that may close it. -/
def headingText (s : List Char) : List Char :=
  Text.trimEnd (Text.dropEndWhile (· == '#') (stripIndent s))

/-- At most three spaces, one to six hashes, and a space, a tab or the end. -/
def heading? (line : List Char) : Option Line :=
  let s := line.dropWhile (· == ' ')
  let level := (s.takeWhile (· == '#')).length
  let rest := s.dropWhile (· == '#')
  if 3 < (line.takeWhile (· == ' ')).length || level == 0 || 6 < level then none
  else if rest.head?.all Text.isIndent then some (heading level (headingText rest)) else none

/-- What follows a bullet or a number with its full stop or bracket. -/
def afterBullet? (s : List Char) : Option (List Char) :=
  match s with
  | [] => none
  | c :: r =>
    if c == '-' || c == '*' || c == '+' then some r
    else if Text.isDecimalDigit c then
      match r.dropWhile Text.isDecimalDigit with
      | '.' :: r => some r
      | ')' :: r => some r
      | _ => none
    else none

/-- The width of an indentation, a tab being as wide as four spaces. -/
def indentWidth (s : List Char) : Nat :=
  s.foldl (fun n c => n + if c == '\t' then 4 else 1) 0

/-- Spaces and tabs, a bullet or number, and a space or tab. Two columns make a level. -/
def item? (line : List Char) : Option Line :=
  match afterBullet? (line.dropWhile Text.isIndent) with
  | some (c :: r) =>
    if Text.isIndent c then
      some (item (indentWidth (line.takeWhile Text.isIndent) / 2) (Text.trim r))
    else none
  | _ => none

/-- The part of a line outside of fences. -/
def classify (line : List Char) : Line :=
  if Text.isBlankText line then blank
  else match commentBody? line with
    | some body => ofComment body
    | none => (heading? line).getD ((item? line).getD (text (Text.trim line)))

/-- The part of a line after lines that leave the fence `open?` open, and the fence after it. -/
def read (open? : Option Fence) (line : List Char) : Line × Option Fence :=
  match open? with
  | some f => (code, if f.closedBy line then none else some f)
  | none => match Fence.opening? line with
    | some f => (code, some f)
    | none => (classify line, none)

/-- The parts of consecutive lines. -/
def readAll (open? : Option Fence) : List (List Char) → List Line
  | [] => []
  | l :: ls => (read open? l).1 :: readAll (read open? l).2 ls

end Line

/-- The lines of a source with their numbers, counted from 1. -/
def numberedLines (source : String) : List (Line × Nat) :=
  (Line.readAll none (lines source.toList)).zipIdx 1

end ProseLint.Source
