import ProseLint.Toml.Quoted
import ProseLint.Toml.Scalar

/-!
# TOML values and tables

A value is a string, a plain value, an array or a table. While a text is read, its tables also keep
how they came about, because that decides whether they may be extended: a table with a header of
its own only once, a table made by a dotted key only by dotted keys, and an inline table never.
-/

namespace ProseLint

inductive Toml where
  | string (s : List Char)
  | scalar (s : Toml.Scalar)
  | array (items : List Toml)
  | table (entries : List (String × Toml))

namespace Toml

def string? : Toml → Option (List Char)
  | string s => some s
  | _ => none

def bool? : Toml → Option Bool
  | scalar (.bool b) => some b
  | _ => none

/-- A string of one character. -/
def character? : Toml → Option Char
  | string [c] => some c
  | _ => none

def entries? : Toml → Option (List (String × Toml))
  | table es => some es
  | _ => none

/-- Reads the value under a key, where the key may be absent. -/
def optional? {α : Type} (read? : Toml → Option α) : Option Toml → Option (Option α)
  | none => some none
  | some v => (read? v).map some

/-- How a table came about. -/
inductive Origin where
  /-- By a header of its own. -/
  | header
  /-- On the way to a table with a header. -/
  | path
  /-- By a dotted key. -/
  | dotted
deriving DecidableEq, Repr

/-- A value, or a table that may still be extended, or the tables under repeated headers. -/
inductive Node where
  | value (v : Toml)
  | table (origin : Origin) (entries : List (String × Node))
  | rows (tables : List (List (String × Node)))

abbrev Entries := List (String × Node)

namespace Entries

def find? (es : Entries) (key : String) : Option Node :=
  List.lookup key es

/-- Puts a node under a key, in place of the one that is there. -/
def set (es : Entries) (key : String) (n : Node) : Entries :=
  if es.any (·.1 == key) then es.map fun e => if e.1 == key then (key, n) else e
  else es ++ [(key, n)]

/-- Adds a key that is not there yet. -/
def add? (es : Entries) (key : String) (n : Node) : Option Entries :=
  if es.any (·.1 == key) then none else some (es ++ [(key, n)])

/-- Changes the table on a path of headers. Tables that are not there are made; of repeated tables
the last one is taken. -/
def alter? (f : Entries → Option Entries) : List String → Entries → Option Entries
  | [], es => f es
  | k :: ks, es => match es.find? k with
    | none => (alter? f ks []).map fun t => es.set k (.table .path t)
    | some (.table o t) => (alter? f ks t).map fun t => es.set k (.table o t)
    | some (.rows ts) => match ts.getLast? with
      | none => none
      | some t => (alter? f ks t).map fun t => es.set k (.rows (ts.dropLast ++ [t]))
    | some (.value _) => none

/-- Adds a value under a dotted key. The tables on the way are made by dotted keys. Tables on the way
to headers and the last one of repeated tables may be passed, but nothing is put right into them. -/
def insert? (v : Toml) : List String → Entries → Option Entries
  | [], _ => none
  | [k], es => es.add? k (.value v)
  | k :: ks, es => match es.find? k with
    | none => (insert? v ks []).map fun t => es.set k (.table .dotted t)
    | some (.table o t) =>
      if o = .header || (o = .path && ks.length = 1) then none
      else (insert? v ks t).map fun t => es.set k (.table o t)
    | some (.rows ts) => match ts.getLast? with
      | none => none
      | some t =>
        if ks.length = 1 then none
        else (insert? v ks t).map fun t => es.set k (.rows (ts.dropLast ++ [t]))
    | some (.value _) => none

/-- Opens the table under a header. -/
def open? (key : String) (es : Entries) : Option Entries :=
  match es.find? key with
  | none => some (es.set key (.table .header []))
  | some (.table .path t) => some (es.set key (.table .header t))
  | some _ => none

/-- Opens one more table under a repeated header. -/
def openRow? (key : String) (es : Entries) : Option Entries :=
  match es.find? key with
  | none => some (es.set key (.rows [[]]))
  | some (.rows ts) => some (es.set key (.rows (ts ++ [[]])))
  | some _ => none

end Entries

mutual

/-- The value that a node stands for when reading is over. -/
def Node.toValue : Node → Toml
  | .value v => v
  | .table _ es => .table (Node.toEntries es)
  | .rows ts => .array (Node.toTables ts)

def Node.toEntries : List (String × Node) → List (String × Toml)
  | [] => []
  | (k, n) :: es => (k, n.toValue) :: Node.toEntries es

def Node.toTables : List (List (String × Node)) → List Toml
  | [] => []
  | t :: ts => .table (Node.toEntries t) :: Node.toTables ts

end

end Toml

end ProseLint
