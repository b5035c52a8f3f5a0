import ProseLint.Diagnostic
import ProseLint.Json.Layout

/-!
# Diagnostics in JSON

A list of diagnostics is stored as a JSON array. Each diagnostic is an object, or an array of the
same values in the order of the members; what may be absent is left out or null. Members of other
names are passed over, but one of these may not be repeated.
-/

namespace ProseLint

namespace Json

/-- A number that fits a line number. -/
def line? : Json → Option LineNumber
  | natural n => if n ≤ LineNumber.last then some n else none
  | _ => none

def string? : Json → Option String
  | text c => c
  | _ => none

/-- A value that may be absent or null. -/
def optional? {α : Type} (f : Json → Option α) : Option Json → Option (Option α)
  | none => some none
  | some null => some none
  | some j => (f j).map some

/-- The value of the member `key`, if there is one. More than one is a fault. -/
def member? (ms : List (Option String × Json)) (key : String) : Option (Option Json) :=
  match ms.filter (·.1 == some key) with
  | [] => some none
  | [(_, j)] => some (some j)
  | _ => none

def required? (ms : List (Option String × Json)) (key : String) : Option Json :=
  (member? ms key).join

/-- Every member has a name that can be told from others. -/
def named (ms : List (Option String × Json)) : Bool :=
  ms.all (·.1.isSome)

end Json

open Json

namespace Sentence

/-- A sentence never belongs to no line. -/
def ofParts? (content line : Json) : Option Sentence := do
  let n ← line.line?
  if n = 0 then none else return ⟨← content.string?, n⟩

def ofJson? : Json → Option Sentence
  | array [content, line] => ofParts? content line
  | object ms => do
    guard (named ms)
    ofParts? (← required? ms "content") (← required? ms "line")
  | _ => none

def toJson (s : Sentence) : Json :=
  object [(some "content", text (some s.content)), (some "line", natural s.line)]

end Sentence

namespace Diagnostic

def ofParts? (validator line message : Json) (subValidator? sentence? : Option Json) :
    Option Diagnostic := do
  return {
    validator := ← validator.string?
    line := ← line.line?
    message := ← message.string?
    subValidator? := ← optional? string? subValidator?
    sentence? := ← optional? Sentence.ofJson? sentence? }

def ofJson? : Json → Option Diagnostic
  | array [v, l, m] => ofParts? v l m none none
  | array [v, l, m, sub] => ofParts? v l m (some sub) none
  | array [v, l, m, sub, s] => ofParts? v l m (some sub) (some s)
  | object ms => do
    guard (named ms)
    ofParts? (← required? ms "validator") (← required? ms "line") (← required? ms "message")
      (← member? ms "sub_validator") (← member? ms "sentence")
  | _ => none

/-- Reads a stored list of diagnostics. -/
def readAll? (s : String) : Option (List Diagnostic) := do
  match ← Json.read? s with
  | array js => js.mapM ofJson?
  | _ => none

/-- The members that are always there, and those that may be absent. -/
def toJson (d : Diagnostic) : Json :=
  object <|
    [(some "validator", text (some d.validator)), (some "line", natural d.line),
      (some "message", text (some d.message))] ++
    (d.subValidator?.map fun s => (some "sub_validator", text (some s))).toList ++
    (d.sentence?.map fun s => (some "sentence", s.toJson)).toList

/-- The members in the order of their names. -/
def toSortedJson (d : Diagnostic) : Json :=
  object <|
    [(some "line", natural d.line), (some "message", text (some d.message))] ++
    (d.sentence?.map fun s => (some "sentence", s.toJson)).toList ++
    (d.subValidator?.map fun s => (some "sub_validator", text (some s))).toList ++
    [(some "validator", text (some d.validator))]

/-- Writes a list of diagnostics as it is stored. -/
def writeAll (ds : List Diagnostic) : String :=
  (array (ds.map toJson)).compact

end Diagnostic

end ProseLint
