import ProseLint.Command.Report
import ProseLint.Settings.Stored

/-!
# Commands

A request loads the settings, makes the symbol table, ingests the document and reads the
diagnostics, in this order, and stops at the first of these that fails. What it prints is decided
by the texts of its files alone.
-/

namespace ProseLint.Command

/-- Why a request is not carried out. -/
inductive Failure where
  | settings (path : String) (cause : StoreError)
  | symbols (cause : IncompleteSymbol)
  | document (path : String) (cause : IngestError)
  | diagnosticsUnread (path : String) (cause : FileError)
  | diagnosticsInvalid (path : String)
deriving DecidableEq, Repr

def Failure.message : Failure → String
  | settings path _ => s!"failed to load {path}"
  | symbols cause => cause.message
  | document path _ => s!"failed to ingest {path}"
  | diagnosticsUnread path _ => s!"failed to read {path}"
  | diagnosticsInvalid path => s!"failed to parse diagnostics in {path}"

/-- Settings that are not there are the usual ones. -/
def loadSettings (files : Files) (path : String) : Except Failure Settings :=
  match files path with
  | .error .missing => .ok {}
  | text => (Settings.load text).mapError (.settings path)

def symbolTable (c : Settings) : Except Failure SymbolTable :=
  c.symbolTable.mapError .symbols

def ingestDocument (files : Files) (t : SymbolTable) (path : String) : Except Failure Ingested :=
  (ingestFile t files path).mapError (.document path)

def readDiagnostics (files : Files) (path : String) : Except Failure (List Diagnostic) := do
  let text ← (files path).mapError (.diagnosticsUnread path)
  match Diagnostic.readAll? text with
  | some gs => return gs
  | none => .error (.diagnosticsInvalid path)

/-- Divides diagnostics by the directives of a document under the settings. -/
def partition (c : Settings) (i : Ingested) (gs : List Diagnostic) : Partition :=
  ({ Suppressor.of i.document i.directives with sentinel := c.scriptValidator }).partition gs

/-- Carries out a command under the settings. -/
def Action.run (color : Bool) (files : Files) (c : Settings) : Action → Except Failure Report
  | filter document diagnostics format showSuppressed => do
    let i ← ingestDocument files (← symbolTable c) document
    let gs ← readDiagnostics files diagnostics
    return Report.filter color format showSuppressed document (partition c i gs)
  | directives document => do
    let i ← ingestDocument files (← symbolTable c) document
    return Report.directives color i
  | symbols locale? => do
    let t ← symbolTable { c with locale := locale?.getD c.locale }
    return Report.symbols color t

def Request.run (color : Bool) (files : Files) (r : Request) : Except Failure Report := do
  r.action.run color files (← loadSettings files r.settings)

/-- What a whole run comes to: the exit status, the output, and the failure to be reported. -/
structure Response where
  status : Nat
  output : String := ""
  failure? : Option Failure := none
deriving DecidableEq, Repr

/-- A failure and a retained diagnostic have the same status. -/
def Response.of : Except Failure Report → Response
  | .ok r => { status := if r.hasFindings then 1 else 0, output := r.text }
  | .error e => { status := 1, failure? := some e }

namespace Arguments

def versionLine : String := "proofline 0.1.0\n"

def usage : String := Report.ofLines [
  "Usage: proofline [-v] [-c PATH] COMMAND",
  "",
  "Commands:",
  "  filter DOCUMENT -d JSON [--output text|json] [--show-suppressed]",
  "  directives DOCUMENT",
  "  symbols [-l CODE]"]

/-- The paths that have to be read. -/
def paths : Arguments → List String
  | request r => r.paths
  | help | version | misuse => []

def respond (color : Bool) (files : Files) : Arguments → Response
  | help => { status := 0, output := usage }
  | version => { status := 0, output := versionLine }
  | request r => Response.of (r.run color files)
  | misuse => { status := 2 }

end Arguments

end ProseLint.Command
