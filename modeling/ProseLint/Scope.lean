import ProseLint.Document

/-!
# Scopes

The scope of a document holds the line spans of its blocks and sections. Two lines share a scope
if some block or section reaches from the one to the other.
-/

namespace ProseLint

/-- The spans of one section: of each block that holds a sentence, and of all blocks together. -/
structure SectionScope where
  blocks : List Span
  whole? : Option Span
deriving DecidableEq, Repr

namespace SectionScope

def of (p : Passage) : SectionScope :=
  ⟨p.blocks.filterMap Span.of?, p.span?⟩

def spans (s : SectionScope) : List Span :=
  s.blocks ++ s.whole?.toList

end SectionScope

structure Scope where
  sections : List SectionScope
deriving DecidableEq, Repr

namespace Scope

def of (d : Document) : Scope :=
  ⟨d.passages.map SectionScope.of⟩

/-- The anchor is not below the line, and one span contains both. -/
def shares (s : Scope) (anchor line : LineNumber) : Bool :=
  anchor ≤ line &&
    s.sections.any fun sec => sec.spans.any fun span => span.contains anchor && span.contains line

end Scope

end ProseLint
