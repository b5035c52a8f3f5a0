import ProseLint.Command.Arguments
import ProseLint.Command.Style
import ProseLint.Diagnostic.Stored
import ProseLint.Ingest
import ProseLint.Suppression

/-!
# Reports

What the commands print, line by line. Columns are filled up with spaces and counted in characters;
an entry that is too long pushes the others to the right.
-/

namespace ProseLint.Command

/-- What a command prints, and whether a diagnostic was retained. -/
structure Report where
  text : String
  hasFindings : Bool := false
deriving DecidableEq, Repr

namespace Report

/-- The text with every line ended. -/
def ofLines (ls : List String) : String :=
  String.join (ls.map (· ++ "\n"))

/-- The text filled up with spaces to a width. -/
def pad (width : Nat) (s : String) : String :=
  String.ofList (s.toList.rightpad width ' ')

/-! ### Filtered diagnostics -/

def retainedLine (color : Bool) (path : String) (g : Diagnostic) : String :=
  let validator := Style.finding.paint color g.validator
  s!"{path}:{g.line} [{validator}] {g.message}"

def suppressedLine (color : Bool) (path : String) (g : Diagnostic) : String :=
  Style.suppressed.paint color s!"{path}:{g.describe} (suppressed)"

def totalsLine (color : Bool) (p : Partition) : String :=
  let style := if p.retained.isEmpty then Style.clean else Style.muted
  style.paint color s!"{p.retained.length} diagnostics, {p.suppressed.length} suppressed"

/-- The retained diagnostics of a document, the suppressed ones if they are asked for, and how many
there are of both. -/
def filterText (color showSuppressed : Bool) (path : String) (p : Partition) : String :=
  ofLines <|
    p.retained.map (retainedLine color path) ++
    (if showSuppressed then p.suppressed.map (suppressedLine color path) else []) ++
    [totalsLine color p]

def diagnosticsJson (gs : List Diagnostic) : Json :=
  .array (gs.map Diagnostic.toSortedJson)

/-- The retained diagnostics as JSON, together with the suppressed ones if they are asked for. -/
def filterJson (showSuppressed : Bool) (p : Partition) : String :=
  let json :=
    if showSuppressed then
      Json.object [(some "retained", diagnosticsJson p.retained),
        (some "suppressed", diagnosticsJson p.suppressed)]
    else diagnosticsJson p.retained
  ofLines [json.pretty]

def filter (color : Bool) (format : Format) (showSuppressed : Bool) (path : String)
    (p : Partition) : Report :=
  { text := match format with
      | .text => filterText color showSuppressed path p
      | .json => filterJson showSuppressed p
    hasFindings := !p.retained.isEmpty }

/-! ### Directives -/

/-- The lines to which a directive applies, the bound not among them. -/
def window (d : Directive) : String :=
  let bound := (d.bound?.map toString).getD ""
  s!"lines {d.anchor}..{bound}"

def directiveLine (color : Bool) (d : Directive) : String :=
  let parameters :=
    if d.parameters.isEmpty then Style.muted.paint color "all validators"
    else ", ".intercalate d.parameters
  s!"{pad 10 d.kind.word} {pad 16 (window d)} {parameters}"

def warningLine (color : Bool) (w : Warning) : String :=
  let mark := Style.dropped.paint color "dropped:"
  s!"{mark} {w.message}"

/-- The directives of a document, and the markers that were dropped. -/
def directives (color : Bool) (i : Ingested) : Report :=
  let found :=
    if i.directives.isEmpty then [Style.muted.paint color "No directives found."]
    else i.directives.map (directiveLine color)
  { text := ofLines (found ++ i.warnings.map (warningLine color)) }

/-! ### Symbols -/

/-- The sides on which a glyph needs white space. -/
def sides (g : Glyph) : String :=
  match g.spaceBefore, g.spaceAfter with
  | true, true => "both"
  | true, false => "before"
  | false, true => "after"
  | false, false => ""

def symbolRow (name glyph flagged space : String) : String :=
  s!"{pad 30 name} {pad 6 glyph} {pad 10 flagged} {space}"

def symbolLine (s : Symbol) (g : Glyph) : String :=
  symbolRow s.name (String.singleton g.value) (String.ofList g.flagged) (sides g)

/-- The glyphs of a table. -/
def symbols (color : Bool) (t : SymbolTable) : Report :=
  let ruler := String.ofList (List.replicate 26 '─')
  { text := ofLines <|
      [s!"Symbols for locale '{t.locale.code}'", Style.muted.paint color ruler,
        symbolRow "Symbol" "Glyph" "Flagged" "Space"] ++
      t.entries.map fun (s, g) => symbolLine s g }

end Report

end ProseLint.Command
