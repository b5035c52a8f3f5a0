import ProseLint.Document.Walk

/-!
# Documents

A document is a forest of sections. It is built only from sections whose text runs down the lines:
within a block no sentence starts above the one before, and each section with sentences starts
below the last line of the section with sentences before it.
-/

namespace ProseLint

structure Document where
  topSections : List Section

/-- Why sections do not make a document. -/
inductive StructureError where
  /-- Within a block a sentence on `line` follows one on the later line `previous`. -/
  | lineOrder (previous line : LineNumber)
  /-- A section starts on `start`, not below the line on which the one before it ends. -/
  | overlap (previousEnd start : LineNumber)
deriving DecidableEq, Repr

def StructureError.message : StructureError → String
  | lineOrder previous line =>
    s!"sentence on line {line} follows a sentence on line {previous} in the same block"
  | overlap previousEnd start =>
    s!"section starting on line {start} overlaps the previous section ending on line {previousEnd}"

namespace Document

/-- All sections, each before its subsections. -/
def sections (d : Document) : List Section :=
  (Walk.mk d.topSections).toList

/-- What the sections own, in the order of `sections`. -/
def passages (d : Document) : List Passage :=
  d.sections.map (·.own)

def sentences (d : Document) : List Sentence :=
  d.passages.flatMap (·.sentences)

/-- Finds the first sentence that starts above the one before it. -/
def checkBlock : List Sentence → Except StructureError Unit
  | s :: t :: ss =>
    if t.line < s.line then .error (.lineOrder s.line t.line) else checkBlock (t :: ss)
  | _ => .ok ()

/-- Checks passages of which the one before ended on `previousEnd?`. -/
def checkPassages (previousEnd? : Option LineNumber) : List Passage → Except StructureError Unit
  | [] => .ok ()
  | p :: ps => do
    p.blocks.forM checkBlock
    match p.span?, previousEnd? with
    | none, _ => checkPassages previousEnd? ps
    | some s, some e =>
      if s.first ≤ e then .error (.overlap e s.first) else checkPassages (some s.last) ps
    | some s, none => checkPassages (some s.last) ps

/-- The document with these sections, or the first fault in the order of the passages. -/
def build (ss : List Section) : Except StructureError Document := do
  let d : Document := ⟨ss⟩
  checkPassages none d.passages
  return d

end Document

end ProseLint
