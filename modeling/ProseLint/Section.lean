import ProseLint.Sentence

/-!
# Sections

A section owns a header, paragraphs and lists, and holds further sections. What it owns itself is
its `Passage`; the passages of a forest in pre-order are the text in the order of the document.
-/

namespace ProseLint

/-- An element of a list at its depth of nesting, the outermost being 0. -/
structure Item where
  level : Nat
  sentences : List Sentence
deriving DecidableEq, Repr

/-- What a section owns without its subsections. Level 0 is for text above the first heading. -/
structure Passage where
  level : Nat
  header : List Sentence := []
  paragraphs : List (List Sentence) := []
  lists : List (List Item) := []
deriving DecidableEq, Repr

namespace Passage

/-- The groups of sentences in which lines may not decrease: the header, every paragraph and every
item of every list. -/
def blocks (p : Passage) : List (List Sentence) :=
  p.header :: p.paragraphs ++ p.lists.flatten.map (·.sentences)

def sentences (p : Passage) : List Sentence :=
  p.blocks.flatten

/-- The span of all that the passage owns. -/
def span? (p : Passage) : Option Span :=
  Span.of? p.sentences

end Passage

structure Section where
  own : Passage
  subsections : List Section

mutual

/-- The section and all below it, each before its subsections. -/
def Section.preorder : Section → List Section
  | s@⟨_, subs⟩ => s :: Section.preorders subs

/-- The pre-order of a forest: one tree after the other. -/
def Section.preorders : List Section → List Section
  | [] => []
  | s :: ss => s.preorder ++ Section.preorders ss

end

end ProseLint
