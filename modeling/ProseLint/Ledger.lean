import ProseLint.Directive
import ProseLint.Source.Line

/-!
# The ledger of markers

The ledger is kept while the lines of a source are read. A marker waits for the next line of
content, where its directive is anchored; the directive then waits for the next heading, which
bounds it. Markers above a heading are anchored on the heading and cover its section.
-/

namespace ProseLint

/-- A marker that was found without a directive coming of it. -/
inductive Warning where
  /-- The marker has no word. -/
  | emptyMarker (line : LineNumber)
  /-- The first word names no kind. -/
  | unknownKind (line : LineNumber) (cause : UnknownKind)
  /-- No content follows the marker. -/
  | noContent (line : LineNumber)
  /-- The directive of the marker cannot be completed. -/
  | invalid (line : LineNumber) (cause : DirectiveError)
deriving DecidableEq, Repr

namespace Warning

def line : Warning → LineNumber
  | emptyMarker n => n
  | unknownKind n _ => n
  | noContent n => n
  | invalid n _ => n

def message : Warning → String
  | emptyMarker n => s!"line {n}: empty directive marker"
  | unknownKind n e => s!"line {n}: {e.message}"
  | noContent n => s!"line {n}: directive is not followed by any text"
  | invalid n e => s!"line {n}: {e.message}"

end Warning

/-- A marker that waits for content. -/
structure Marker where
  line : LineNumber
  kind : Kind
  parameters : List String
deriving DecidableEq, Repr

namespace Marker

/-- White space and commas stand between the words of a marker. -/
def isSeparator (c : Char) : Bool :=
  Text.isBlank c || c == ','

/-- The words of a marker. -/
def words (s : List Char) : List String :=
  (Text.words isSeparator s).map String.ofList

/-- Reads the text of a marker found on the line `n`. -/
def read (n : LineNumber) (text : List Char) : Except Warning Marker :=
  match words text with
  | [] => .error (.emptyMarker n)
  | w :: ws => match Kind.read w with
    | .ok kind => .ok ⟨n, kind, ws⟩
    | .error e => .error (.unknownKind n e)

/-- The draft of the marker's directive, anchored on the line `n`. The lines of a source are counted
past those that can be written down, so `n` is taken as it is. -/
def anchorAt (m : Marker) (n : LineNumber) : Draft :=
  { kind := m.kind, anchor := n : Draft }.addAll m.parameters

/-- The directive starts as one that is found on the line above its anchor. -/
theorem anchorAt_eq_start (m : Marker) {n : LineNumber} (h : 0 < n) (hlast : n ≤ LineNumber.last) :
    m.anchorAt n = (Draft.start m.kind (n - 1)).addAll m.parameters := by
  rw [anchorAt, Draft.start, LineNumber.below_pred h hlast]

end Marker

/-- A directive that waits for a heading, with the line of its marker. -/
structure Anchored where
  marker : LineNumber
  draft : Draft
deriving DecidableEq, Repr

structure Ledger where
  waiting : List Marker := []
  anchored : List Anchored := []
  directives : List Directive := []
  warnings : List Warning := []
deriving DecidableEq, Repr

namespace Ledger

def marker (l : Ledger) (n : LineNumber) (text : List Char) : Ledger :=
  match Marker.read n text with
  | .ok m => { l with waiting := l.waiting ++ [m] }
  | .error w => { l with warnings := l.warnings ++ [w] }

/-- Content on the line `n` anchors all waiting markers. -/
def content (l : Ledger) (n : LineNumber) : Ledger :=
  { l with
    waiting := []
    anchored := l.anchored ++ l.waiting.map fun m => ⟨m.line, m.anchorAt n⟩ }

/-- Enters what comes of completing the directive of the marker on the line `n`. -/
def enter (l : Ledger) (n : LineNumber) : Except DirectiveError Directive → Ledger
  | .ok d => { l with directives := l.directives ++ [d] }
  | .error e => { l with warnings := l.warnings ++ [.invalid n e] }

/-- A heading on the line `n` is content, and bounds the directives anchored above it. -/
def heading (l : Ledger) (n : LineNumber) : Ledger :=
  let l := l.content n
  let (above, here) := l.anchored.partition (·.draft.anchor < n)
  above.foldl (fun l a => l.enter a.marker (a.draft.bounded n)) { l with anchored := here }

def readLine (l : Ledger) (x : Source.Line × Nat) : Ledger :=
  match x with
  | (.heading _ _, n) => l.heading n
  | (.item _ _, n) | (.text _, n) => l.content n
  | (.marker s, n) => l.marker n s
  | (.blank, _) | (.comment, _) | (.code, _) => l

/-- At the end of the source, waiting markers are lost and anchored directives stay unbounded. -/
def finish (l : Ledger) : List Directive × List Warning :=
  let lost : Ledger := { l with
    waiting := [], anchored := [], warnings := l.warnings ++ l.waiting.map (.noContent ·.line) }
  let l := l.anchored.foldl (fun l a => l.enter a.marker a.draft.unbounded) lost
  (l.directives, l.warnings)

/-- The directives and warnings of the lines. -/
def ofLines (ls : List (Source.Line × Nat)) : List Directive × List Warning :=
  (ls.foldl readLine {}).finish

end Ledger

end ProseLint
