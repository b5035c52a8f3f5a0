import ProseLint.Diagnostic
import ProseLint.Directive
import ProseLint.Scope

/-!
# Suppression

A directive triggers on a line and a validator if the line is in its window, its parameters admit
the validator, and the anchor shares a scope with the line. Diagnostics on which some directive
triggers are suppressed; the others are retained in their order.
-/

namespace ProseLint

namespace Directive

def triggersIn (d : Directive) (s : Scope) (line : LineNumber) (validator : String) : Bool :=
  d.inWindow line && d.admits validator && s.shares d.anchor line

def triggersAt (d : Directive) (doc : Document) (line : LineNumber) (validator : String) : Bool :=
  d.triggersIn (Scope.of doc) line validator

/-- Triggers on the diagnostic, the sentinel being the usual one. -/
def triggers (d : Directive) (doc : Document) (g : Diagnostic) : Bool :=
  d.triggersAt doc g.line (g.effectiveValidator Diagnostic.scriptValidator)

end Directive

/-- The directives of a document, ready to be applied to its diagnostics. -/
structure Suppressor where
  scope : Scope
  directives : List Directive
  sentinel : String := Diagnostic.scriptValidator

/-- Diagnostics divided by whether a directive hides them, each part in the order of the whole. -/
structure Partition where
  retained : List Diagnostic
  suppressed : List Diagnostic
deriving DecidableEq, Repr

namespace Suppressor

def of (doc : Document) (directives : List Directive) : Suppressor :=
  { scope := Scope.of doc, directives }

def suppresses (s : Suppressor) (g : Diagnostic) : Bool :=
  s.directives.any (·.triggersIn s.scope g.line (g.effectiveValidator s.sentinel))

/-- Without directives no diagnostic is looked at. -/
def partition (s : Suppressor) (gs : List Diagnostic) : Partition :=
  if s.directives.isEmpty then ⟨gs, []⟩
  else
    let (suppressed, retained) := gs.partition s.suppresses
    ⟨retained, suppressed⟩

def filter (s : Suppressor) (gs : List Diagnostic) : List Diagnostic :=
  (s.partition gs).retained

end Suppressor

/-- The diagnostics that no directive hides, the sentinel being the usual one. -/
def filterDiagnostics (doc : Document) (directives : List Directive) (gs : List Diagnostic) :
    List Diagnostic :=
  (Suppressor.of doc directives).filter gs

end ProseLint
