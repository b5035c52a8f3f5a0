import ProseLint.Document
import ProseLint.File
import ProseLint.Ledger
import ProseLint.Outline

/-!
# Ingestion

A source is read once for its document and once for its directives. Markers do not shape the
document, and markers of which no directive comes are reported and dropped.
-/

namespace ProseLint

structure Ingested where
  document : Document
  directives : List Directive
  warnings : List Warning

/-- Reads a source, its sentences ended by the terminators of the table. -/
def ingest (t : SymbolTable) (source : String) : Except StructureError Ingested := do
  let ls := Source.numberedLines source
  let document ← Document.build (Outline.sections (Splitter.of t) ls)
  let (directives, warnings) := Ledger.ofLines ls
  return { document, directives, warnings }

/-- Why a file cannot be ingested. -/
inductive IngestError where
  | read (path : String) (cause : FileError)
  | malformed (cause : StructureError)
deriving DecidableEq, Repr

def IngestError.message : IngestError → String
  | read path cause => s!"failed to read {path}: {cause.message}"
  | malformed cause => s!"malformed document: {cause.message}"

/-- Ingests the source that a path leads to. -/
def ingestFile (t : SymbolTable) (files : Files) (path : String) : Except IngestError Ingested := do
  let source ← (files path).mapError (.read path)
  (ingest t source).mapError .malformed

end ProseLint
