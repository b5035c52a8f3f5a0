import ProseLint.Diagnostic
import ProseLint.SymbolTable.Builtin

/-!
# Settings

Settings choose the locale of the documents, change glyphs of its built-in table, and name the
sentinel among the validators. An override changes what it sets and leaves the rest as the locale
has it; a symbol that the locale leaves undefined needs an override with a value.
-/

namespace ProseLint

/-- Changes to the glyph of one symbol. -/
structure Override where
  value? : Option Char := none
  flagged? : Option (List Char) := none
  spaceBefore? : Option Bool := none
  spaceAfter? : Option Bool := none
deriving DecidableEq, Repr

/-- The glyph after the changes, if there is a value for it. -/
def Override.apply (o : Override) (base? : Option Glyph) : Option Glyph := do
  let value ← o.value?.or (base?.map (·.value))
  return {
    value
    flagged := (o.flagged?.or (base?.map (·.flagged))).getD []
    spaceBefore := (o.spaceBefore?.or (base?.map (·.spaceBefore))).getD false
    spaceAfter := (o.spaceAfter?.or (base?.map (·.spaceAfter))).getD false }

structure Settings where
  locale : Locale := .english
  override? : Symbol → Option Override := fun _ => none
  scriptValidator : String := Diagnostic.scriptValidator

/-- An override without a value is for a symbol that the locale leaves undefined. -/
structure IncompleteSymbol where
  locale : Locale
  symbol : Symbol
deriving DecidableEq, Repr

def IncompleteSymbol.message (e : IncompleteSymbol) : String :=
  s!"symbol {e.symbol.name} is not defined for locale '{e.locale.code}'" ++
    " and its override sets no value"

namespace Settings

/-- Settings are equal if they agree on every symbol. -/
instance : DecidableEq Settings := fun c d =>
  decidable_of_iff (c.locale = d.locale ∧ c.scriptValidator = d.scriptValidator ∧
      ∀ s ∈ Symbol.all, c.override? s = d.override? s) <| by
    constructor
    · intro ⟨hl, hv, ho⟩
      cases c; cases d
      simp only [mk.injEq] at *
      exact ⟨hl, funext fun s => ho s s.mem_all, hv⟩
    · rintro rfl
      exact ⟨rfl, rfl, fun _ _ => rfl⟩

/-- Sets the override of a symbol, in place of an earlier one if there is one. -/
def setOverride (c : Settings) (s : Symbol) (o : Override) : Settings :=
  { c with override? := fun x => if x = s then some o else c.override? x }

/-- The overrides in the order of the symbols. -/
def overrides (c : Settings) : List (Symbol × Override) :=
  Symbol.all.filterMap fun s => (c.override? s).map (s, ·)

/-- Changes the glyph of a symbol in the table as its override says. -/
def applyOverride (t : SymbolTable) (s : Symbol) (o : Override) :
    Except IncompleteSymbol SymbolTable :=
  match o.apply (t.glyph? s) with
  | some g => .ok (t.register s g)
  | none => .error ⟨t.locale, s⟩

/-- The built-in table of the locale with every override applied. -/
def symbolTable (c : Settings) : Except IncompleteSymbol SymbolTable :=
  c.overrides.foldlM (fun t (s, o) => applyOverride t s o) (SymbolTable.builtin c.locale)

@[simp] theorem override?_setOverride_self (c : Settings) (s : Symbol) (o : Override) :
    (c.setOverride s o).override? s = some o := by
  simp [setOverride]

theorem override?_setOverride_of_ne (c : Settings) {s x : Symbol} (o : Override) (h : x ≠ s) :
    (c.setOverride s o).override? x = c.override? x := by
  simp [setOverride, h]

end Settings

end ProseLint
