import ProseLint.Locale
import ProseLint.Symbol

/-!
# Symbol tables

A table says for each symbol with which glyph a locale writes it, if it has one. Tables never fall
back on another locale: looking up a symbol that is not defined is an error.
-/

namespace ProseLint

/-- How a symbol is written: the accepted character, the characters that are flagged as wrong
forms of it, and whether white space must stand on either side. -/
structure Glyph where
  value : Char
  flagged : List Char := []
  spaceBefore : Bool := false
  spaceAfter : Bool := false
deriving DecidableEq, Repr

/-- The character is a flagged form. -/
def Glyph.flags (g : Glyph) (c : Char) : Bool :=
  g.flagged.contains c

/-- A locale with the glyphs that it defines. -/
structure SymbolTable where
  locale : Locale
  glyph? : Symbol → Option Glyph

/-- The table of `locale` has no symbol of this name. -/
structure UndefinedSymbol where
  locale : Locale
  name : String
deriving DecidableEq, Repr

def UndefinedSymbol.message (e : UndefinedSymbol) : String :=
  s!"symbol {e.name} is not defined for locale '{e.locale.code}'"

namespace SymbolTable

def empty (l : Locale) : SymbolTable :=
  ⟨l, fun _ => none⟩

/-- Defines `s`, in place of an earlier definition if there is one. -/
def register (t : SymbolTable) (s : Symbol) (g : Glyph) : SymbolTable :=
  { t with glyph? := fun x => if x = s then some g else t.glyph? x }

def defines (t : SymbolTable) (s : Symbol) : Bool :=
  (t.glyph? s).isSome

def lookup (t : SymbolTable) (s : Symbol) : Except UndefinedSymbol Glyph :=
  match t.glyph? s with
  | some g => .ok g
  | none => .error ⟨t.locale, s.name⟩

/-- Looks up a symbol by name. An unknown name is undefined in every table. -/
def lookupName (t : SymbolTable) (name : String) : Except UndefinedSymbol (Symbol × Glyph) :=
  match Symbol.read name with
  | .ok s => (t.lookup s).map (s, ·)
  | .error _ => .error ⟨t.locale, name⟩

/-- The definitions in the order of the symbols. -/
def entries (t : SymbolTable) : List (Symbol × Glyph) :=
  Symbol.all.filterMap fun s => (t.glyph? s).map (s, ·)

def size (t : SymbolTable) : Nat :=
  t.entries.length

/-- The first symbol of which `c` is a flagged form. -/
def findFlagged? (t : SymbolTable) (c : Char) : Option (Symbol × Glyph) :=
  t.entries.find? (·.2.flags c)

@[simp] theorem glyph?_register_self (t : SymbolTable) (s : Symbol) (g : Glyph) :
    (t.register s g).glyph? s = some g := by
  simp [register]

theorem glyph?_register_of_ne (t : SymbolTable) {s x : Symbol} (g : Glyph) (h : x ≠ s) :
    (t.register s g).glyph? x = t.glyph? x := by
  simp [register, h]

end SymbolTable

end ProseLint
