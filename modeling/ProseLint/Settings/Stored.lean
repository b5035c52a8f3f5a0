import ProseLint.File
import ProseLint.Settings
import ProseLint.Toml.Reader

/-!
# Settings in TOML

Settings are stored as a table with a version, the locale, the sentinel and a table of overrides
under the names of their symbols. All but the version may be absent, and other keys mean nothing.
What is written holds every setting but the overrides that are not set.
-/

namespace ProseLint

open Toml

/-- Why settings cannot be loaded or saved. -/
inductive StoreError where
  | read (cause : FileError)
  | invalid
  | write (cause : FileError)
deriving DecidableEq, Repr

def StoreError.message : StoreError → String
  | read cause => s!"failed to read config file: {cause.message}"
  | invalid => "failed to parse config file"
  | write cause => s!"failed to write config file: {cause.message}"

/-! ### Reading -/

namespace Override

def ofValues? (value? flagged? spaceBefore? spaceAfter? : Option Toml) : Option Override := do
  return {
    value? := ← optional? character? value?
    flagged? := ← optional? string? flagged?
    spaceBefore? := ← optional? bool? spaceBefore?
    spaceAfter? := ← optional? bool? spaceAfter? }

/-- Reads a table, or an array of the values in their order, the last of which may be left off. A
moment sets nothing. -/
def ofToml? : Toml → Option Override
  | .table es => ofValues? (es.lookup "value") (es.lookup "invalid_chars")
      (es.lookup "before_space") (es.lookup "after_space")
  | .array vs => if 4 < vs.length then none else ofValues? vs[0]? vs[1]? vs[2]? vs[3]?
  | .scalar .moment => some {}
  | _ => none

end Override

/-- An override with its symbol and the key that names it. -/
structure KeyedOverride where
  key : String
  symbol : Symbol
  override : Override

namespace KeyedOverride

/-- Reads an override under the name of a symbol, in capitals or small letters. -/
def ofEntry? (e : String × Toml) : Option KeyedOverride := do
  return ⟨e.1, ← (Symbol.read e.1).toOption, ← Override.ofToml? e.2⟩

def readAll? (es : List (String × Toml)) : Option (List KeyedOverride) :=
  es.mapM ofEntry?

/-- The override of a symbol. Of several keys that name the symbol the greatest one counts. -/
def select? (ks : List KeyedOverride) (s : Symbol) : Option Override :=
  (((ks.filter (·.symbol = s)).mergeSort fun a b => a.key ≤ b.key).getLast?).map (·.override)

end KeyedOverride

/-- Reads the code of a locale, or a table with nothing but an empty table under the code. -/
def Locale.ofToml? : Toml → Option Locale
  | .string s => ofCode? (String.ofList s)
  | .table [(code, .table [])] => ofCode? code
  | _ => none

namespace Settings

/-- The version of the format. -/
def version : String := "1"

/-- Reads settings from the entries of a table. -/
def ofEntries? (es : List (String × Toml)) : Option Settings := do
  guard ((es.lookup "_version").bind string? = some version.toList)
  let locale ← optional? Locale.ofToml? (es.lookup "locale")
  let symbols ← optional? entries? (es.lookup "symbols")
  let overrides ← KeyedOverride.readAll? (symbols.getD [])
  let scriptValidator ← optional? string? (es.lookup "script_validator")
  return {
    locale := locale.getD .english
    override? := KeyedOverride.select? overrides
    scriptValidator := (scriptValidator.map String.ofList).getD Diagnostic.scriptValidator }

/-- Reads settings from a text. -/
def read? (text : String) : Option Settings :=
  (Toml.read? text).bind ofEntries?

/-- The settings in a file that was read with this outcome. -/
def load (text : Except FileError String) : Except StoreError Settings := do
  let text ← text.mapError .read
  match read? text with
  | some c => return c
  | none => .error .invalid

/-! ### Writing -/

/-- An entry on a line of its own. -/
def entryLine (key : String) (value : List Char) : List Char :=
  key.toList ++ " = ".toList ++ value ++ ['\n']

def stringLine (key : String) (value : List Char) : List Char :=
  entryLine key (Quoted.write value)

def boolLine (key : String) (value : Bool) : List Char :=
  entryLine key (if value then "true".toList else "false".toList)

/-- The line for what an override sets, nothing for what it does not set. -/
def optionalLine {α : Type} (line : α → List Char) : Option α → List Char
  | some a => line a
  | none => []

/-- The table of one override, set off by an empty line. -/
def overrideLines (s : Symbol) (o : Override) : List Char :=
  "\n[symbols.".toList ++ s.name.toList ++ "]\n".toList ++
    optionalLine (fun c => stringLine "value" [c]) o.value? ++
    optionalLine (stringLine "invalid_chars") o.flagged? ++
    optionalLine (boolLine "before_space") o.spaceBefore? ++
    optionalLine (boolLine "after_space") o.spaceAfter?

/-- The settings as text. The overrides follow the order of the symbols. -/
def write (c : Settings) : String :=
  String.ofList <|
    stringLine "_version" version.toList ++
    stringLine "locale" c.locale.code.toList ++
    stringLine "script_validator" c.scriptValidator.toList ++
    c.overrides.flatMap fun (s, o) => overrideLines s o

end Settings

end ProseLint
