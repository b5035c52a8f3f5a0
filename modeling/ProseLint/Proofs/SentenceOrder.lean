import Mathlib.Data.List.Flatten
import ProseLint.Proofs.Layout
import ProseLint.SymbolTable.Builtin

/-!
# The order of the sentences of a document

A passage gives its header, then its paragraphs, then its lists, whichever of them come first in
the source. The header and the paragraphs are in the order of the lines, and so are the header and
the lists (`Stretch.pairwise_prose`, `Stretch.pairwise_listed`); passages follow each other down
the lines. So the sentences of a document are out of order exactly where a section has a paragraph
below a list (`ingest_sentences_ordered_iff`).
-/

namespace ProseLint
open Source (Line)

namespace Passage

def prose (p : Passage) : List Sentence :=
  p.header ++ p.paragraphs.flatten

def listed (p : Passage) : List Sentence :=
  p.lists.flatten.flatMap (·.sentences)

theorem sentences_eq (p : Passage) : p.sentences = p.prose ++ p.listed := by
  simp [sentences, blocks, prose, listed, List.flatMap_def]

/-- The sentences are in order iff no list stands above a paragraph. -/
theorem pairwise_sentences_iff {p : Passage} (hp : p.prose.Pairwise (·.line ≤ ·.line))
    (hl : (p.header ++ p.listed).Pairwise (·.line ≤ ·.line)) :
    p.sentences.Pairwise (·.line ≤ ·.line) ↔
      ∀ x ∈ p.paragraphs.flatten, ∀ y ∈ p.listed, x.line ≤ y.line := by
  obtain ⟨-, hlisted, hheader⟩ := List.pairwise_append.1 hl
  rw [sentences_eq, List.pairwise_append]
  constructor
  · rintro ⟨-, -, h⟩ x hx y hy
    exact h x (List.mem_append_right _ hx) y hy
  · intro h
    refine ⟨hp, hlisted, fun x hx y hy => ?_⟩
    rcases List.mem_append.1 hx with hx | hx
    · exact hheader x hx y hy
    · exact h x hx y hy

end Passage

theorem Splitter.pairwise_flatMap_split {k : Splitter} {gs : List (List TextLine)}
    (h : gs.flatten.Pairwise (·.1 ≤ ·.1)) : (gs.flatMap k.split).Pairwise (·.line ≤ ·.line) := by
  obtain ⟨hgroups, hbelow⟩ := List.pairwise_flatten.1 h
  refine List.pairwise_flatMap.2 ⟨fun g hg => pairwise_split (hgroups g hg), ?_⟩
  refine hbelow.imp fun hlt x hx y hy => ?_
  obtain ⟨l, hl, hlx, -⟩ := exists_line_of_mem_split hx
  obtain ⟨l', hl', hly, -⟩ := exists_line_of_mem_split hy
  rw [← hlx, ← hly]
  exact hlt l hl l' hl'

/-! ### A section -/

namespace Stretch
variable {k : Splitter} {s : Stretch}

theorem content_sublist (s : Stretch) : (s.content.map (·.1)).Sublist s.lines := by
  rw [content, lines, List.map_append, List.map_map, List.map_map]
  exact (List.Sublist.refl _).append (List.filter_sublist.map _)

/-- Groups of lines that follow the order of the stretch are split into sentences that do. -/
theorem pairwise_flatMap_split (hs : s.lines.Pairwise (· < ·)) {gs : List (List TextLine)}
    (hsub : gs.flatten.Sublist s.content) : (gs.flatMap k.split).Pairwise (·.line ≤ ·.line) := by
  have hcontent : s.content.Pairwise (·.1 ≤ ·.1) :=
    (List.pairwise_map.1 (hs.sublist s.content_sublist)).imp Nat.le_of_lt
  exact Splitter.pairwise_flatMap_split (hcontent.sublist hsub)

theorem pairwise_prose (hs : s.lines.Pairwise (· < ·)) :
    ((Layout.of s).passage k).prose.Pairwise (·.line ≤ ·.line) := by
  have hgroups : ((Layout.of s).passage k).prose =
      ((Layout.of s).header :: (Layout.of s).paragraphs).flatMap k.split := by
    rw [List.flatMap_cons, List.flatMap_def]
    rfl
  rw [hgroups]
  refine pairwise_flatMap_split hs ?_
  rw [List.flatten_cons, content, ← Source.flatMap_blockLines_runs, Layout.of,
    List.flatten_filter_not_isEmpty, ← List.flatMap_def]
  refine (List.Sublist.refl _).append (List.Sublist.flatMap_right _ fun r _ => ?_)
  exact List.sublist_append_left ..

theorem pairwise_listed (hs : s.lines.Pairwise (· < ·)) :
    (((Layout.of s).passage k).header ++ ((Layout.of s).passage k).listed).Pairwise
      (·.line ≤ ·.line) := by
  have hgroups : ((Layout.of s).passage k).header ++ ((Layout.of s).passage k).listed =
      ((Layout.of s).header :: (Layout.of s).lists.flatten.map (·.lines)).flatMap k.split := by
    rw [List.flatMap_cons, Passage.listed, Layout.passage, ← List.map_flatten, List.flatMap_map,
      List.flatMap_map]
    rfl
  rw [hgroups]
  refine pairwise_flatMap_split hs ?_
  rw [List.flatten_cons, content, ← Source.flatMap_blockLines_runs, ← List.flatMap_def, Layout.of,
    List.flatten_filter_not_isEmpty, ← List.flatMap_def, List.flatMap_assoc]
  refine (List.Sublist.refl _).append (List.Sublist.flatMap_right _ fun r _ => ?_)
  exact List.sublist_append_right ..

theorem Stacked.pairwise_sentences {cs : List Stretch} (h : Stacked cs) :
    (cs.map (·.passage k)).Pairwise fun p q =>
      ∀ x ∈ p.sentences, ∀ y ∈ q.sentences, x.line < y.line := by
  refine List.pairwise_map.2 (h.below.imp_of_mem fun {c c'} _ hc' hlt x hx y hy => ?_)
  exact Nat.lt_of_lt_of_le (hlt _ (line_mem hx)) (start_le (h.rising c' hc') (line_mem hy))

end Stretch

/-! ### The document -/

/-- Sentences picked from passages that run down the lines are in order if each pick is. -/
theorem Passage.pairwise_flatMap {ps : List Passage} {pick : Passage → List Sentence}
    (hps : ps.Pairwise fun p q => ∀ x ∈ p.sentences, ∀ y ∈ q.sentences, x.line < y.line)
    (hsub : ∀ p, pick p ⊆ p.sentences) (hpick : ∀ p ∈ ps, (pick p).Pairwise (·.line ≤ ·.line)) :
    (ps.flatMap pick).Pairwise (·.line ≤ ·.line) := by
  refine List.pairwise_flatMap.2 ⟨hpick, hps.imp fun {p q} hlt x hx y hy => ?_⟩
  exact Nat.le_of_lt (hlt x (hsub p hx) y (hsub q hy))

namespace Outline
variable {k : Splitter} {ls : List (Line × Nat)}

theorem isHeading_eq_false_of_mem_stretches {s : Stretch} (hs : s ∈ stretches ls)
    {x : Line × Nat} (hx : x ∈ s.body) : x.1.isHeading = false := by
  rw [stretches, Stretch.cut_eq] at hs
  rcases List.mem_cons.1 hs with rfl | hs
  · exact Stretch.isHeading_eq_false_of_mem hx
  · obtain ⟨h, ls', rfl⟩ := Stretch.exists_of_mem_headed hs
    exact Stretch.isHeading_eq_false_of_mem hx

/-- The passages of the sections are those of stretches, one below the other. -/
theorem exists_stacked (hls : ls.Pairwise (·.2 < ·.2)) :
    ∃ cs, Stretch.Stacked cs ∧ (∀ s ∈ cs, ∀ x ∈ s.body, x.1.isHeading = false) ∧
      Document.passages ⟨sections k ls⟩ = cs.map (·.passage k) := by
  refine ⟨(stretches ls).filter (·.counts k), (stacked_stretches hls).sublist List.filter_sublist,
    fun s hs x hx => ?_, ?_⟩
  · exact isHeading_eq_false_of_mem_stretches (List.mem_of_mem_filter hs) hx
  · rw [Document.passages, Document.sections_eq, preorders_sections]

end Outline

/-- The sentences of an ingested document come section by section, in each section the header, the
paragraphs and the lists. Headers and paragraphs are in the order of the lines, and headers and
lists are, so the whole is iff no sentence of a list stands above one of a paragraph in its
section. -/
theorem ingest_sentences_ordered_iff (t : SymbolTable) (source : String) :
    ∃ i, ingest t source = .ok i ∧
      (i.document.passages.flatMap (·.prose)).Pairwise (·.line ≤ ·.line) ∧
      (i.document.passages.flatMap fun p => p.header ++ p.listed).Pairwise (·.line ≤ ·.line) ∧
      (i.document.sentences.Pairwise (·.line ≤ ·.line) ↔
        ∀ p ∈ i.document.passages, ∀ x ∈ p.paragraphs.flatten, ∀ y ∈ p.listed,
          x.line ≤ y.line) := by
  have hls := Source.pairwise_numberedLines source
  obtain ⟨cs, hcs, hbody, hpassages⟩ := Outline.exists_stacked (k := Splitter.of t) hls
  have hbelow := hcs.pairwise_sentences (k := Splitter.of t)
  have hordered : ∀ p ∈ cs.map (·.passage (Splitter.of t)),
      p.prose.Pairwise (·.line ≤ ·.line) ∧ (p.header ++ p.listed).Pairwise (·.line ≤ ·.line) := by
    intro p hp
    obtain ⟨s, hs, rfl⟩ := List.mem_map.1 hp
    rw [Stretch.passage_eq (hbody s hs)]
    exact ⟨Stretch.pairwise_prose (hcs.rising s hs), Stretch.pairwise_listed (hcs.rising s hs)⟩
  have hsub : ∀ p : Passage, p.header ++ p.listed ⊆ p.sentences := by
    intro p x hx
    rw [Passage.sentences_eq, Passage.prose]
    rcases List.mem_append.1 hx with hx | hx
    · exact List.mem_append_left _ (List.mem_append_left _ hx)
    · exact List.mem_append_right _ hx
  refine ⟨_, ingest_eq t source, ?_⟩
  rw [Document.sentences, Ingested.ofSource, hpassages]
  refine ⟨?_, ?_, fun h p hp => ?_, fun h => ?_⟩
  · refine Passage.pairwise_flatMap hbelow (fun p x hx => ?_) fun p hp => (hordered p hp).1
    rw [Passage.sentences_eq]
    exact List.mem_append_left _ hx
  · exact Passage.pairwise_flatMap hbelow hsub fun p hp => (hordered p hp).2
  · have hp' := (List.pairwise_flatMap.1 h).1 p hp
    exact (Passage.pairwise_sentences_iff (hordered p hp).1 (hordered p hp).2).1 hp'
  · refine Passage.pairwise_flatMap hbelow (fun p => List.Subset.refl _) fun p hp => ?_
    exact (Passage.pairwise_sentences_iff (hordered p hp).1 (hordered p hp).2).2 (h p hp)

/-- A list above a paragraph is given after it. -/
theorem ingest_gives_list_late :
    ∃ i, ingest (SymbolTable.builtin .english) "# T\n- Item.\n\nText.\n" = .ok i ∧
      i.document.sentences.map (·.line) = [1, 4, 2] ∧
      ¬ i.document.sentences.Pairwise (·.line ≤ ·.line) := by
  refine ⟨_, ingest_eq _ _, ?_, ?_⟩
  · decide +kernel
  · decide +kernel

end ProseLint
