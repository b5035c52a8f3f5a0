import ProseLint.Command.Piece
import ProseLint.Locale

/-!
# Arguments

What a command line asks for. Before and after the name of the command every option is given at most
once, except that verbosity may be repeated. The settings file may be named in both places; the
later one counts. A command has all the operands and options that it needs, and no other operands.
-/

namespace ProseLint.Command

/-- How filtered diagnostics are printed. -/
inductive Format where
  | text
  | json
deriving DecidableEq, Repr

namespace Format

def all : List Format := [text, json]

def word : Format → String
  | text => "text"
  | json => "json"

def ofWord? (s : String) : Option Format :=
  all.find? (·.word == s)

end Format

/-- A command with what it works on. -/
inductive Action where
  | filter (document diagnostics : String) (format : Format) (showSuppressed : Bool)
  | directives (document : String)
  | symbols (locale? : Option Locale)
deriving DecidableEq, Repr

structure Request where
  settings : String
  action : Action
deriving DecidableEq, Repr

/-- Where settings are looked for if no file is named. -/
def Request.usualSettings : String := "proofline.toml"

/-- The paths that the request needs. -/
def Request.paths (r : Request) : List String :=
  r.settings :: match r.action with
    | .filter document diagnostics _ _ => [document, diagnostics]
    | .directives document => [document]
    | .symbols _ => []

/-- What a command line asks for. -/
inductive Arguments where
  | help
  | version
  | request (r : Request)
  /-- Nothing, because it is malformed. -/
  | misuse
deriving DecidableEq, Repr

/-- What was given in one place, before or after the name of the command. -/
structure Given where
  settings? : Option String := none
  document? : Option String := none
  diagnostics? : Option String := none
  format? : Option Format := none
  showSuppressed : Bool := false
  locale? : Option Locale := none

namespace Given

/-- A path is not empty. -/
def path? (s : String) : Option String :=
  if s.isEmpty then none else some s

/-- Fills a slot that is still empty. -/
def fill? {α : Type} (value? : Option α) : Option α → Option (Option α)
  | none => value?.map some
  | some _ => none

/-- Adds a switch, an option, or the operand of a command that has one. -/
def set? (v? : Option Verb) (g : Given) : Piece → Option Given
  | .switch .verbose => some g
  | .switch .showSuppressed =>
    if g.showSuppressed then none else some { g with showSuppressed := true }
  | .option .settings s => do return { g with settings? := ← fill? (path? s) g.settings? }
  | .option .diagnostics s => do return { g with diagnostics? := ← fill? (path? s) g.diagnostics? }
  | .option .format s => do return { g with format? := ← fill? (Format.ofWord? s) g.format? }
  | .option .locale s => do return { g with locale? := ← fill? (Locale.read s).toOption g.locale? }
  | .operand s => do
    guard (v?.any Verb.takesDocument)
    return { g with document? := ← fill? (path? s) g.document? }
  | _ => none

/-- The command, if all is there that it needs. -/
def action? (g : Given) : Verb → Option Action
  | .filter => do
    return .filter (← g.document?) (← g.diagnostics?) (g.format?.getD .text) g.showSuppressed
  | .directives => do return .directives (← g.document?)
  | .symbols => some (.symbols g.locale?)

end Given

namespace Arguments

/-- What the pieces after the name of a command ask for. -/
def ofCommand (outer : Given) (v : Verb) (g : Given) : List Piece → Arguments
  | [] => match g.action? v with
    | some action =>
      request ⟨(g.settings?.or outer.settings?).getD Request.usualSettings, action⟩
    | none => misuse
  | .switch .help :: _ => help
  | p :: ps => match g.set? (some v) p with
    | some g => ofCommand outer v g ps
    | none => misuse

/-- What the pieces of a whole command line ask for. -/
def ofPieces (g : Given) : List Piece → Arguments
  | [] => misuse
  | .switch .help :: _ => help
  | .switch .version :: _ => version
  | .verb v :: ps => ofCommand g v {} ps
  | p :: ps => match g.set? none p with
    | some g => ofPieces g ps
    | none => misuse

def read (args : List String) : Arguments :=
  ofPieces {} (Piece.ofArguments none none args)

end Arguments

end ProseLint.Command
