import ProseLint.Text.Basic

/-!
# Locales

A locale is a writing tradition with punctuation of its own, named by a two-letter code.
-/

namespace ProseLint

inductive Locale where
  | english
  | japanese
deriving DecidableEq, Repr, Inhabited

/-- The code names no locale. -/
structure UnsupportedLocale where
  code : String
deriving DecidableEq, Repr

def UnsupportedLocale.message (e : UnsupportedLocale) : String :=
  s!"unsupported locale '{e.code}'"

namespace Locale

def all : List Locale := [english, japanese]

def code : Locale → String
  | english => "en"
  | japanese => "ja"

/-- The locale whose code is written exactly so. -/
def ofCode? (s : String) : Option Locale :=
  all.find? (·.code == s)

/-- Reads a code, in capitals or small letters. -/
def read (s : String) : Except UnsupportedLocale Locale :=
  match all.find? (Text.sameAscii ·.code s) with
  | some l => .ok l
  | none => .error ⟨s⟩

end Locale

end ProseLint
