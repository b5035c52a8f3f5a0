import ProseLint.Sentence
import ProseLint.Text.Basic
import ProseLint.Text.Lowercase

/-!
# Directives

A directive hides diagnostics from its anchor line on. It starts as a draft, found on a marker
line, to which parameters are added; a draft is completed with or without an upper bound and does
not change after that.
-/

namespace ProseLint

/-- What a directive does. -/
inductive Kind where
  | suppress
deriving DecidableEq, Repr

/-- The word names no kind. -/
structure UnknownKind where
  word : String
deriving DecidableEq, Repr

def UnknownKind.message (e : UnknownKind) : String :=
  s!"unknown rule kind '{e.word}'"

namespace Kind

def word : Kind → String
  | suppress => "SUPPRESS"

/-- A directive of this kind means nothing without parameters. -/
def needsParameters : Kind → Bool
  | suppress => false

/-- Reads the word of a kind, in capitals or small letters. -/
def read (s : String) : Except UnknownKind Kind :=
  if Text.sameAscii suppress.word s then .ok suppress else .error ⟨s⟩

end Kind

/-- Complete: hides diagnostics of the validators in `parameters`, of all if there are none, on
the lines from `anchor` up to but without `bound?`. -/
structure Directive where
  kind : Kind
  anchor : LineNumber
  bound? : Option LineNumber
  parameters : List String
deriving DecidableEq, Repr

/-- A directive that may still receive parameters. -/
structure Draft where
  kind : Kind
  anchor : LineNumber
  parameters : List String := []
deriving DecidableEq, Repr

/-- Why a draft cannot be completed. -/
inductive DirectiveError where
  /-- The upper bound lies above the anchor line. -/
  | boundBeforeAnchor (anchor bound : LineNumber)
  /-- The kind means nothing without parameters, and there are none. -/
  | missingParameters (kind : Kind)
deriving DecidableEq, Repr

def DirectiveError.message : DirectiveError → String
  | boundBeforeAnchor anchor bound => s!"upper bound {bound} precedes the anchor line {anchor}"
  | missingParameters kind => s!"{kind.word} directive requires at least one parameter"

namespace Draft

/-- The draft of a directive found on the line `marker`: it applies from the line below. -/
def start (kind : Kind) (marker : LineNumber) : Draft :=
  { kind, anchor := marker.below }

/-- Adds a validator in lowercase and without the white space around it. Blank tokens and
validators that are there already change nothing. -/
def add (d : Draft) (token : String) : Draft :=
  let t := Text.trim token.toList
  let p := String.ofList (Text.lower t)
  if t.isEmpty || d.parameters.contains p then d
  else { d with parameters := d.parameters ++ [p] }

def addAll (d : Draft) (tokens : List String) : Draft :=
  tokens.foldl add d

/-- The directive with this bound, if it has the parameters that its kind needs. -/
def complete (d : Draft) (bound? : Option LineNumber) : Except DirectiveError Directive :=
  if d.kind.needsParameters && d.parameters.isEmpty then .error (.missingParameters d.kind)
  else .ok ⟨d.kind, d.anchor, bound?, d.parameters⟩

def unbounded (d : Draft) : Except DirectiveError Directive :=
  d.complete none

def bounded (d : Draft) (bound : LineNumber) : Except DirectiveError Directive :=
  if d.anchor ≤ bound then d.complete (some bound) else .error (.boundBeforeAnchor d.anchor bound)

end Draft

namespace Directive

/-- The line lies above the bound. -/
def inWindow (d : Directive) (line : LineNumber) : Bool :=
  d.bound?.all fun b => line < b

/-- The parameters let the directive apply to the validator. -/
def admits (d : Directive) (validator : String) : Bool :=
  d.parameters.isEmpty || d.parameters.contains (Text.lowercase validator)

/-- One line of text that says what the directive does. -/
def describe (d : Directive) : String :=
  let until_ := match d.bound? with
    | some b => s!" until line {b}"
    | none => ""
  let only := if d.parameters.isEmpty then "" else " [" ++ ", ".intercalate d.parameters ++ "]"
  s!"{d.kind.word} from line {d.anchor}" ++ until_ ++ only

end Directive

end ProseLint
