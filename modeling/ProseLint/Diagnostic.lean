import ProseLint.Sentence
import ProseLint.Text.Basic

/-!
# Diagnostics

A diagnostic is a finding of a validator on a line. One validator, the sentinel, runs scripts and
stands for many: its diagnostics belong to the script, which is named explicitly or at the start of
the message, as in `[name.ext] the rest`.
-/

namespace ProseLint

structure Diagnostic where
  validator : String
  line : LineNumber
  message : String
  subValidator? : Option String := none
  sentence? : Option Sentence := none
deriving DecidableEq, Repr

namespace Diagnostic

/-- The sentinel where the settings name no other. -/
def scriptValidator : String := "JavaScript"

/-- The characters up to the first blank, blanks before them skipped. -/
def firstToken (s : List Char) : List Char :=
  (s.dropWhile Text.isBlank).takeWhile (!Text.isBlank ·)

/-- The inside of a text in square brackets. -/
def unbracket? : List Char → Option (List Char)
  | '[' :: s => match s.reverse with
    | ']' :: r => some r.reverse
    | _ => none
  | _ => none

/-- What stands before the last full stop and what stands after it. -/
def splitLastStop? (s : List Char) : Option (List Char × List Char) :=
  match s.reverse.dropWhile (· != '.') with
  | [] => none
  | _ :: r => some (r.reverse, (s.reverse.takeWhile (· != '.')).reverse)

/-- The name in a first token `[name.ext]`, where both parts hold something and `ext` has no full
stop. -/
def embeddedName? (message : String) : Option String := do
  let inner ← unbracket? (firstToken message.toList)
  let (name, ext) ← splitLastStop? inner
  if name.isEmpty || ext.isEmpty then none else some (String.ofList name)

/-- The validator that directives see: for the sentinel the script, if it is named at all. -/
def effectiveValidator (d : Diagnostic) (sentinel : String) : String :=
  if d.validator ≠ sentinel then d.validator
  else (d.subValidator?.or (embeddedName? d.message)).getD d.validator

def describe (d : Diagnostic) : String :=
  s!"{d.line}: [{d.validator}] {d.message}"

end Diagnostic

end ProseLint
