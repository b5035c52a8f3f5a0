/-!
# Styles of reported text

A style is the part that a piece of text plays in a report. On a terminal with colour it is set off
by control sequences around the text, anywhere else the text stands as it is.
-/

namespace ProseLint.Command

inductive Style where
  /-- Nothing was retained. -/
  | clean
  /-- The validator of a retained diagnostic. -/
  | finding
  /-- A suppressed diagnostic. -/
  | suppressed
  /-- A marker without a directive. -/
  | dropped
  /-- Rulers, placeholders and totals. -/
  | muted
deriving DecidableEq, Repr

namespace Style

/-- The control sequence with this code. -/
def control (code : String) : String :=
  "\x1b[" ++ code ++ "m"

/-- What stands before and after a text in colour. -/
def around : Style → String × String
  | clean => (control "38;2;000;128;000", control "39")
  | finding => (control "1" ++ control "38;2;205;092;092", control "39" ++ control "0")
  | suppressed => (control "9" ++ control "2", control "0" ++ control "0")
  | dropped => (control "38;2;255;165;000", control "39")
  | muted => (control "2", control "0")

def paint (s : Style) (color : Bool) (text : String) : String :=
  if color then s.around.1 ++ text ++ s.around.2 else text

/-- Colour is for terminals, unless the environment asks for it or rules it out. -/
def inColor (asked? ruledOut? : Option String) (terminal : Bool) : Bool :=
  asked?.any (fun a => a ≠ "0" && a ≠ "false") || (ruledOut?.all (· == "0") && terminal)

end Style

end ProseLint.Command
