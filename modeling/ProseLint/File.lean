/-!
# Files

What is asked of the file system: the text that a path leads to. All text is UTF-8.
-/

namespace ProseLint

/-- Why a path leads to no text. -/
inductive FileError where
  | missing
  | notText
  /-- The system gives its own reason. -/
  | refused (reason : String)
deriving DecidableEq, Repr

def FileError.message : FileError → String
  | missing => "No such file or directory (os error 2)"
  | notText => "stream did not contain valid UTF-8"
  | refused reason => reason

/-- The texts that paths lead to. -/
abbrev Files := String → Except FileError String

/-- The text of a file that holds these bytes. -/
def decodeText (bytes : ByteArray) : Except FileError String :=
  match String.fromUTF8? bytes with
  | some s => .ok s
  | none => .error .notText

end ProseLint
