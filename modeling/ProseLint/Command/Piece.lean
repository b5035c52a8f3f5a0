/-!
# Pieces of a command line

A command line is cut into pieces: names of commands, operands, switches, and options with their
values. An option is written by its long name or its letter, its value after `=`, in the next
argument, or right after the letter; letters may be joined in one argument. After `--` there are
operands only. Which options are known depends on the command, if it has been named already.
-/

namespace ProseLint.Command

/-- The name of a command. -/
inductive Verb where
  | filter
  | directives
  | symbols
deriving DecidableEq, Repr

def Verb.all : List Verb := [.filter, .directives, .symbols]

def Verb.word : Verb → String
  | filter => "filter"
  | directives => "directives"
  | symbols => "symbols"

/-- The command is carried out on a document. -/
def Verb.takesDocument : Verb → Bool
  | filter | directives => true
  | symbols => false

def Verb.ofWord? (s : String) : Option Verb :=
  Verb.all.find? (·.word == s)

inductive Flag where
  | verbose
  | settings
  | version
  | help
  | diagnostics
  | format
  | showSuppressed
  | locale
deriving DecidableEq, Repr

namespace Flag

def long : Flag → String
  | verbose => "verbose"
  | settings => "config"
  | version => "version"
  | help => "help"
  | diagnostics => "diagnostics"
  | format => "output"
  | showSuppressed => "show-suppressed"
  | locale => "locale"

def letter? : Flag → Option Char
  | verbose => some 'v'
  | settings => some 'c'
  | version => some 'V'
  | help => some 'h'
  | diagnostics => some 'd'
  | locale => some 'l'
  | format | showSuppressed => none

def takesValue : Flag → Bool
  | settings | diagnostics | format | locale => true
  | verbose | version | help | showSuppressed => false

/-- The flags that are known after the name of a command, or before any. -/
def known : Option Verb → List Flag
  | none => [verbose, settings, help, version]
  | some .filter => [verbose, settings, help, diagnostics, format, showSuppressed]
  | some .directives => [verbose, settings, help]
  | some .symbols => [verbose, settings, help, locale]

def ofLong? (v? : Option Verb) (name : List Char) : Option Flag :=
  (known v?).find? (·.long.toList == name)

def ofLetter? (v? : Option Verb) (c : Char) : Option Flag :=
  (known v?).find? (·.letter? == some c)

end Flag

inductive Piece where
  | verb (v : Verb)
  | operand (s : String)
  | switch (f : Flag)
  | option (f : Flag) (value : String)
  /-- No command line goes on like this. -/
  | fault
deriving DecidableEq, Repr

namespace Piece

/-- The argument is no operand: it starts with `-` and goes on. -/
def isMarked (arg : List Char) : Bool :=
  arg.head? == some '-' && arg != ['-']

/-- The pieces of an argument, and the option that still lacks its value. -/
structure Cut where
  pieces : List Piece
  lacking? : Option Flag := none

/-- Cuts an argument `--name` or `--name=value`. -/
def ofLong (v? : Option Verb) (arg : List Char) : Cut :=
  let name := arg.takeWhile (· != '=')
  match Flag.ofLong? v? name, arg.dropWhile (· != '=') with
  | none, _ => ⟨[fault], none⟩
  | some f, [] => if f.takesValue then ⟨[], some f⟩ else ⟨[switch f], none⟩
  | some f, _ :: value =>
    if f.takesValue then ⟨[option f (String.ofList value)], none⟩ else ⟨[fault], none⟩

/-- Cuts the letters after a single `-`. -/
def ofLetters (v? : Option Verb) : List Char → Cut
  | [] => ⟨[], none⟩
  | c :: cs => match Flag.ofLetter? v? c with
    | none => ⟨[fault], none⟩
    | some f =>
      if f.takesValue then match cs with
        | [] => ⟨[], some f⟩
        | '=' :: value => ⟨[option f (String.ofList value)], none⟩
        | value => ⟨[option f (String.ofList value)], none⟩
      else
        let cut := ofLetters v? cs
        { cut with pieces := switch f :: cut.pieces }

/-- The pieces of a plea for help, which may name commands. -/
def ofHelp (args : List String) : List Piece :=
  match args with
  | [] => [switch .help]
  | [a] => if a == "help" || (Verb.ofWord? a).isSome then [switch .help] else [fault]
  | _ => [fault]

/-- The pieces of the arguments after the name of a command, if it is there, and after an option
that lacks its value, if there is one. -/
def ofArguments (v? : Option Verb) (lacking? : Option Flag) : List String → List Piece
  | [] => if lacking?.isSome then [fault] else []
  | a :: as => match lacking?, a.toList with
    | some f, cs => if isMarked cs then [fault] else option f a :: ofArguments v? none as
    | none, ['-', '-'] => as.map operand
    | none, '-' :: '-' :: cs =>
      let cut := ofLong v? cs
      cut.pieces ++ ofArguments v? cut.lacking? as
    | none, '-' :: c :: cs =>
      let cut := ofLetters v? (c :: cs)
      cut.pieces ++ ofArguments v? cut.lacking? as
    | none, _ =>
      if v?.isSome then operand a :: ofArguments v? none as
      else if a == "help" then ofHelp as
      else match Verb.ofWord? a with
        | some v => verb v :: ofArguments (some v) none as
        | none => [fault]

end Piece

end ProseLint.Command
