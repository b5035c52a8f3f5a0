import ProseLint.Toml.Value

/-!
# Reading TOML

A text is a sequence of lines, each with an entry, a header or nothing, and a comment after it.
Reading is layered: characters to values and keys, lines to statements, statements to tables.
-/

namespace ProseLint.Toml

open Quoted (isBlank dropLineEnd?)

/-! ### Space -/

def skipBlanks (s : List Char) : List Char :=
  s.dropWhile isBlank

/-- Skips a comment, if there is one, up to the end of its line. -/
def skipComment? : List Char → Option (List Char)
  | '#' :: s => skipBody s
  | s => some s
where
  /-- A carriage return in a comment belongs to the end of the line. -/
  skipBody : List Char → Option (List Char)
    | [] => some []
    | '\n' :: s => some ('\n' :: s)
    | '\r' :: '\n' :: s => some ('\r' :: '\n' :: s)
    | c :: s => if Quoted.isControl c then none else skipBody s

/-- Skips blanks, comments and line ends, in at most so many steps. -/
def skipGaps? : Nat → List Char → Option (List Char)
  | 0, _ => none
  | n + 1, s => do
    let s ← skipComment? (skipBlanks s)
    match dropLineEnd? s with
    | some s => skipGaps? n s
    | none => return s

/-! ### Keys -/

def isBareKey (c : Char) : Bool :=
  c.isAlphanum || c == '_' || c == '-'

/-- Reads one part of a key. -/
def simpleKey? (s : List Char) : Option (String × List Char) :=
  match s.takeWhile isBareKey with
  | [] => (Quoted.readLine? s).map fun (k, r) => (String.ofList k, r)
  | k => some (String.ofList k, s.dropWhile isBareKey)

/-- The greatest depth of arrays and inline tables in each other, and of parts in a key. -/
def depthLimit : Nat := 80

/-- Reads a key of at most so many parts with full stops between them. -/
def key? : Nat → List Char → Option (List String × List Char)
  | 0, _ => none
  | n + 1, s => do
    let (k, s) ← simpleKey? s
    match skipBlanks s with
    | '.' :: s =>
      let (ks, s) ← key? n (skipBlanks s)
      return (k :: ks, s)
    | s => return ([k], s)

/-! ### Values -/

mutual

/-- Reads a value inside of arrays and tables, of which `depth` more may follow. -/
def value? (depth : Nat) : Nat → List Char → Option (Toml × List Char)
  | 0, _ => none
  | n + 1, s => match s with
    | '[' :: s => do
      guard (depth ≠ 0)
      let (vs, s) ← items? (depth - 1) n s
      return (.array vs, s)
    | '\x7b' :: s => do
      guard (depth ≠ 0)
      let (es, s) ← members? (depth - 1) n [] s
      return (.table (Node.toEntries es), s)
    | '\x22' :: _ => (Quoted.read? s).map fun (cs, s) => (.string cs, s)
    | '\x27' :: _ => (Quoted.read? s).map fun (cs, s) => (.string cs, s)
    | s => (Scalar.read? s).map fun (v, s) => (.scalar v, s)

/-- Reads the items of an array that are left, and its end. A comma may follow the last one. -/
def items? (depth : Nat) : Nat → List Char → Option (List Toml × List Char)
  | 0, _ => none
  | n + 1, s => do
    match ← skipGaps? (s.length + 1) s with
    | ']' :: s => return ([], s)
    | s =>
      let (v, s) ← value? depth n s
      match ← skipGaps? (s.length + 1) s with
      | ']' :: s => return ([v], s)
      | ',' :: s =>
        let (vs, s) ← items? depth n s
        return (v :: vs, s)
      | _ => none

/-- Reads the members of an inline table that are left into `es`, and its end. Gaps may stand
everywhere but inside of a key, and a comma may follow the last member. -/
def members? (depth : Nat) : Nat → Entries → List Char → Option (Entries × List Char)
  | 0, _, _ => none
  | n + 1, es, s => do
    match ← skipGaps? (s.length + 1) s with
    | '\x7d' :: s => return (es, s)
    | s =>
      let (k, s) ← key? depthLimit s
      let '=' :: s ← skipGaps? (s.length + 1) s | none
      let (v, s) ← value? depth n (← skipGaps? (s.length + 1) s)
      let es ← es.insert? v k
      match ← skipGaps? (s.length + 1) s with
      | '\x7d' :: s => return (es, s)
      | ',' :: s => members? depth n es s
      | _ => none

end

/-! ### Statements -/

/-- What a line says. -/
inductive Statement where
  | entry (key : List String) (v : Toml)
  | header (key : List String)
  | row (key : List String)

/-- Reads the statement that a line starts with. -/
def statement? : List Char → Option (Statement × List Char)
  | '[' :: '[' :: s => do
    let (k, s) ← key? depthLimit (skipBlanks s)
    let ']' :: ']' :: s := skipBlanks s | none
    return (.row k, s)
  | '[' :: s => do
    let (k, s) ← key? depthLimit (skipBlanks s)
    let ']' :: s := skipBlanks s | none
    return (.header k, s)
  | s => do
    let (k, s) ← key? depthLimit s
    let '=' :: s := skipBlanks s | none
    let (v, s) ← value? depthLimit (s.length + 1) (skipBlanks s)
    return (.entry k v, s)

/-- Reads the end of a line or of the text, after blanks and a comment. -/
def skipLineEnd? (s : List Char) : Option (List Char) := do
  match ← skipComment? (skipBlanks s) with
  | [] => return []
  | s => dropLineEnd? s

/-- Reads the statements of a text, in at most so many steps. -/
def statements? : Nat → List Char → Option (List Statement)
  | 0, _ => none
  | n + 1, s => do
    match ← skipGaps? (s.length + 1) s with
    | [] => return []
    | s =>
      let (x, s) ← statement? s
      let xs ← statements? n (← skipLineEnd? s)
      return x :: xs

/-! ### Tables -/

/-- The tables read so far, and the path to the table that entries go into. -/
structure Reading where
  root : Entries := []
  current : List String := []

/-- Splits a key into the path and the last part. -/
def splitKey? : List String → Option (List String × String)
  | [] => none
  | k => (k.getLast?).map (k.dropLast, ·)

def Reading.add? (r : Reading) : Statement → Option Reading
  | .entry k v => (Entries.alter? (Entries.insert? v k) r.current r.root).map ({ r with root := · })
  | .header k => do
    let (path, last) ← splitKey? k
    return ⟨← Entries.alter? (Entries.open? last) path r.root, k⟩
  | .row k => do
    let (path, last) ← splitKey? k
    return ⟨← Entries.alter? (Entries.openRow? last) path r.root, k⟩

/-- A mark of the byte order at the start of a text is passed over. -/
def dropByteOrderMark : List Char → List Char
  | '\ufeff' :: s => s
  | s => s

/-- Reads a text as the entries of its root table. -/
def read? (text : String) : Option (List (String × Toml)) := do
  let s := dropByteOrderMark text.toList
  let r ← (← statements? (s.length + 1) s).foldlM Reading.add? {}
  return Node.toEntries r.root

end ProseLint.Toml
