/-!
# Sentences and their lines

A sentence is known by its text and the line that it starts on. The span of a group of sentences
runs from the least of their lines to the greatest; a group without sentences has no span.
-/

namespace ProseLint

/-! ### Line numbers

Lines are numbered from 1; a diagnostic that belongs to no line says 0. Line numbers that are
written down fit a word of 64 bits. -/

abbrev LineNumber := Nat

/-- The greatest line number that can be written down. -/
def LineNumber.last : LineNumber := UInt64.size - 1

/-- The line below, and the last line itself at the end. -/
def LineNumber.below (n : LineNumber) : LineNumber :=
  min (n + 1) last

theorem LineNumber.below_pred {n : LineNumber} (h : 0 < n) (hlast : n ≤ last) :
    below (n - 1) = n := by
  rw [below, Nat.sub_add_cancel h, Nat.min_eq_left hlast]

/-! ### Sentences -/

/-- A piece of text together with the line that it starts on. -/
structure Sentence where
  content : String
  line : LineNumber
deriving DecidableEq, Repr

/-! ### Line spans -/

/-- The lines from `first` to `last`, both included. -/
structure Span where
  first : LineNumber
  last : LineNumber
deriving DecidableEq, Repr

namespace Span

def contains (s : Span) (n : LineNumber) : Bool :=
  s.first ≤ n && n ≤ s.last

/-- The least span that holds `s` and the line `n`. -/
def extend (s : Span) (n : LineNumber) : Span :=
  ⟨min s.first n, max s.last n⟩

/-- The span of the lines `ns`. -/
def ofLines? : List LineNumber → Option Span
  | [] => none
  | n :: ns => some (ns.foldl extend ⟨n, n⟩)

/-- The span of the lines that the sentences start on. -/
def of? (ss : List Sentence) : Option Span :=
  ofLines? (ss.map (·.line))

theorem contains_iff {s : Span} {n : LineNumber} :
    s.contains n = true ↔ s.first ≤ n ∧ n ≤ s.last := by
  simp [contains]

end Span

end ProseLint
