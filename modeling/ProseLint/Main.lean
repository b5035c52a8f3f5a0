import ProseLint.Command

/-!
# The program

Reads the files that the arguments name, and prints what they come to.
-/

namespace ProseLint.Main

def readText (path : String) : IO (Except FileError String) := do
  try
    return decodeText (← IO.FS.readBinFile path)
  catch
    | .noFileOrDirectory .. => return .error .missing
    | e => return .error (.refused (toString e))

def readAll (paths : List String) : IO Files := do
  let texts ← paths.mapM fun path => return (path, ← readText path)
  return fun path => (texts.lookup path).getD (.error .missing)

def hasColor : IO Bool := do
  return Command.Style.inColor (← IO.getEnv "FORCE_COLOR") (← IO.getEnv "NO_COLOR")
    (← (← IO.getStdout).isTty)

/-- Carries out the arguments and gives the exit status. -/
def run (args : List String) : IO UInt32 := do
  let a := Command.Arguments.read args
  let r := a.respond (← hasColor) (← readAll a.paths)
  IO.print r.output
  if let some e := r.failure? then IO.eprintln s!"Error: {e.message}"
  if a = .misuse then IO.eprint Command.Arguments.usage
  return r.status.toUInt32

end ProseLint.Main

def main (args : List String) : IO UInt32 :=
  ProseLint.Main.run args
