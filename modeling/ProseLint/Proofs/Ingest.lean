import ProseLint.Ingest
import ProseLint.Proofs.Outline

/-!
# Ingestion always gives a document

`ingest_eq`: the sections that a source is nested into are never refused, so a source is ingested
into them and the outcome of its ledger. The reason is that they run down the lines
(`Outline.runsDown_sections`), which needs nothing of the table: its terminators may be missing or
blank.
-/

namespace ProseLint

theorem Source.pairwise_numberedLines (source : String) :
    (numberedLines source).Pairwise (·.2 < ·.2) := by
  have h : ((numberedLines source).map Prod.snd).Pairwise (· < ·) := by
    rw [numberedLines, List.zipIdx_map_snd]
    exact List.pairwise_lt_range'
  exact List.pairwise_map.1 h

def Ingested.ofSource (t : SymbolTable) (source : String) : Ingested :=
  let ls := Source.numberedLines source
  ⟨⟨Outline.sections (Splitter.of t) ls⟩, (Ledger.ofLines ls).1, (Ledger.ofLines ls).2⟩

theorem build_sections (k : Splitter) (source : String) :
    Document.build (Outline.sections k (Source.numberedLines source)) =
      .ok ⟨Outline.sections k (Source.numberedLines source)⟩ :=
  Document.build_eq_ok_iff.2
    ⟨rfl, Outline.runsDown_sections (Source.pairwise_numberedLines source)⟩

theorem ingest_eq (t : SymbolTable) (source : String) :
    ingest t source = .ok (.ofSource t source) := by
  rw [ingest, build_sections]
  rfl

/-- Every source is ingested, and the lines of its document run down as a document requires. -/
theorem ingest_runsDown (t : SymbolTable) (source : String) :
    ∃ i, ingest t source = .ok i ∧
      Document.build (Outline.sections (Splitter.of t) (Source.numberedLines source)) =
        .ok i.document ∧
      (∀ s ∈ Section.preorders i.document.topSections, ∀ b ∈ s.own.blocks,
        b.Pairwise (·.line ≤ ·.line)) ∧
      ((Section.preorders i.document.topSections).filterMap (·.own.span?)).Pairwise
        (·.last < ·.first) := by
  have hd := Outline.runsDown_sections (k := Splitter.of t) (Source.pairwise_numberedLines source)
  refine ⟨_, ingest_eq t source, build_sections _ source, fun s hs => ?_, ?_⟩
  · exact hd.blocks s.own (List.mem_map_of_mem hs)
  · have hspans := hd.spans
    rw [List.filterMap_map] at hspans
    exact hspans

end ProseLint
