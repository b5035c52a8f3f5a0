import Mathlib.Data.List.Basic
import ProseLint.Proofs.Blocks
import ProseLint.Proofs.Window

/-!
# The skeleton of a document

The sections below the first heading are, in pre-order, one for each heading (`titles_passages`),
and each lies below the last one before it whose level is smaller (`nestedBy_nest`). Nesting goes
from the last passage to the first. A new passage takes the trees up to the first that is not
deeper; since the levels of the trees never rise (`falling_nest`), it takes all that are deeper.
-/

namespace ProseLint
open Source (Line)

/-! ### The nearest smaller number -/

/-- The last place before `j` with a number smaller than the one at `j`. -/
def nearestSmaller? (ns : List Nat) (j : Nat) : Option Nat :=
  ((List.range j).filter fun i => ns.getD i 0 < ns.getD j 0).max?

section
variable {n i j : Nat} {ns : List Nat}

theorem nearestSmaller?_eq_some_iff : nearestSmaller? ns j = some i ↔
    (i < j ∧ ns.getD i 0 < ns.getD j 0) ∧ ∀ k, k < j → ns.getD k 0 < ns.getD j 0 → k ≤ i := by
  simp [nearestSmaller?, List.max?_eq_some_iff]

example : nearestSmaller? [2, 1, 3, 2, 3] 3 = some 1 := by decide

theorem nearestSmaller?_eq_none_iff :
    nearestSmaller? ns j = none ↔ ∀ k, k < j → ns.getD j 0 ≤ ns.getD k 0 := by
  simp [nearestSmaller?, List.max?_eq_none_iff]

theorem nearestSmaller?_cons_succ (n : Nat) (ns : List Nat) (j : Nat) :
    nearestSmaller? (n :: ns) (j + 1) =
      ((nearestSmaller? ns j).map (· + 1)).or (if n < ns.getD j 0 then some 0 else none) := by
  cases h : nearestSmaller? ns j with
  | some i =>
    obtain ⟨⟨hij, hlt⟩, hlast⟩ := nearestSmaller?_eq_some_iff.1 h
    refine nearestSmaller?_eq_some_iff.2 ⟨⟨Nat.succ_lt_succ hij, hlt⟩, fun k hk hklt => ?_⟩
    cases k with
    | zero => exact Nat.zero_le _
    | succ k => exact Nat.succ_le_succ (hlast k (Nat.lt_of_succ_lt_succ hk) hklt)
  | none =>
    have hnone := nearestSmaller?_eq_none_iff.1 h
    have hsucc : ∀ k, k + 1 < j + 1 → ¬ ns.getD k 0 < ns.getD j 0 := fun k hk =>
      Nat.not_lt.2 (hnone k (Nat.lt_of_succ_lt_succ hk))
    show _ = if n < ns.getD j 0 then some 0 else none
    split
    next hn =>
      refine nearestSmaller?_eq_some_iff.2 ⟨⟨Nat.succ_pos j, hn⟩, fun k hk hklt => ?_⟩
      cases k with
      | zero => exact Nat.le_refl 0
      | succ k => exact absurd hklt (hsucc k hk)
    next hn =>
      refine nearestSmaller?_eq_none_iff.2 fun k hk => Nat.le_of_not_lt fun hklt => ?_
      cases k with
      | zero => exact hn hklt
      | succ k => exact hsucc k hk hklt

end

/-! ### Forests of nearest smaller levels -/

namespace Section
variable {n : Nat} {ns : List Nat} {s t : Section} {ss ts : List Section} {i : Nat}

/-- Those of the sections `ts`, with levels `ns`, whose nearest smaller level is at the place
`i?`. -/
def heldBy (ns : List Nat) (ts : List Section) (i? : Option Nat) : List Section :=
  (ts.zipIdx.filter fun x => nearestSmaller? ns x.2 = i?).map (·.1)

/-- The trees have levels `ns` in pre-order, and each section lies below the last one before it
with a smaller level. -/
structure NestedBy (ns : List Nat) (ss : List Section) : Prop where
  levels : (preorders ss).map (·.own.level) = ns
  top : ss = heldBy ns (preorders ss) none
  below : ∀ i t, (preorders ss)[i]? = some t → t.subsections = heldBy ns (preorders ss) (some i)

theorem heldBy_cons (i? : Option Nat) : heldBy (n :: ns) (s :: ts) i? =
    (if i? = none then [s] else []) ++
      (ts.zipIdx.filter fun x => nearestSmaller? (n :: ns) (x.2 + 1) = i?).map (·.1) := by
  have hzip : (s :: ts).zipIdx = [(s, 0)] ++ ts.zipIdx.map (Prod.map id (· + 1)) :=
    List.zipIdx_cons'
  rw [heldBy, hzip, List.filter_append, List.map_append, List.filter_map, List.map_map]
  cases i? <;> rfl

section
variable (hts : ts.map (·.own.level) = ns)
include hts

theorem getD_levels {x : Section × Nat} (hx : x ∈ ts.zipIdx) :
    ns.getD x.2 0 = x.1.own.level := by
  have hget : ts[x.2]? = some x.1 := List.mk_mem_zipIdx_iff_getElem?.1 hx
  rw [← hts, List.getD_eq_getElem?_getD, List.getElem?_map, hget]
  rfl

/-- A section in front holds those that nothing else holds and that are deeper. -/
theorem heldBy_cons_zero : heldBy (n :: ns) (s :: ts) (some 0) =
    (heldBy ns ts none).filter fun t => n < t.own.level := by
  rw [heldBy_cons, if_neg nofun, List.nil_append, heldBy, List.filter_map, List.filter_filter]
  refine congrArg _ (List.filter_congr fun x hx => ?_)
  rw [nearestSmaller?_cons_succ, getD_levels hts hx]
  cases nearestSmaller? ns x.2 <;> simp

theorem heldBy_cons_none : heldBy (n :: ns) (s :: ts) none =
    s :: (heldBy ns ts none).filter fun t => ¬ n < t.own.level := by
  rw [heldBy_cons, if_pos rfl, List.singleton_append, heldBy, List.filter_map, List.filter_filter]
  refine congrArg _ (congrArg _ (List.filter_congr fun x hx => ?_))
  rw [nearestSmaller?_cons_succ, getD_levels hts hx]
  cases nearestSmaller? ns x.2 <;> simp

end

theorem heldBy_cons_succ (i : Nat) :
    heldBy (n :: ns) (s :: ts) (some (i + 1)) = heldBy ns ts (some i) := by
  rw [heldBy_cons, if_neg nofun, List.nil_append, heldBy]
  refine congrArg _ (List.filter_congr fun x _ => ?_)
  rw [nearestSmaller?_cons_succ]
  cases nearestSmaller? ns x.2 with
  | none => split <;> simp
  | some j => simp

theorem NestedBy.level_lt (h : NestedBy ns ss) (ht : t ∈ preorders ss) (hs : s ∈ t.subsections) :
    t.own.level < s.own.level := by
  obtain ⟨i, hi⟩ := List.mem_iff_getElem?.1 ht
  rw [h.below i t hi] at hs
  obtain ⟨x, hx, rfl⟩ := List.mem_map.1 hs
  obtain ⟨hx, hnearest⟩ := List.mem_filter.1 hx
  have hlt := (nearestSmaller?_eq_some_iff.1 (of_decide_eq_true hnearest)).1.2
  have hparent : ns.getD i 0 = t.own.level :=
    getD_levels (x := (t, i)) h.levels (List.mk_mem_zipIdx_iff_getElem?.2 hi)
  rwa [hparent, getD_levels h.levels hx] at hlt

/-! ### Nesting -/

/-- The levels of the trees never rise. -/
def Falling (ss : List Section) : Prop :=
  ss.Pairwise fun s t => t.own.level ≤ s.own.level

theorem Falling.takeWhile_eq_filter (h : Falling ss) (n : Nat) :
    ss.takeWhile (n < ·.own.level) = ss.filter (n < ·.own.level) ∧
      ss.dropWhile (n < ·.own.level) = ss.filter (¬ n < ·.own.level) := by
  induction ss with
  | nil => exact ⟨rfl, rfl⟩
  | cons s ss ih =>
    obtain ⟨hle, hss⟩ := List.pairwise_cons.1 h
    by_cases hn : n < s.own.level
    · simp [hn, ih hss]
    · have hall : ∀ t ∈ s :: ss, ¬ n < t.own.level := by
        intro t ht
        rcases List.mem_cons.1 ht with rfl | ht
        · exact hn
        · have := hle t ht
          omega
      rw [List.takeWhile_cons_of_neg (by simpa using hn),
        List.dropWhile_cons_of_neg (by simpa using hn),
        List.filter_eq_nil_iff.2 (by simpa using hall), List.filter_eq_self.2 (by simpa using hall)]
      exact ⟨rfl, rfl⟩

end Section

namespace Outline
variable {p : Passage} {ss : List Section} {ns : List Nat}
open Section (NestedBy Falling preorders)

theorem falling_adopt (h : Falling ss) (p : Passage) : Falling (adopt p ss) := by
  refine List.pairwise_cons.2 ⟨fun t ht => ?_, h.sublist (List.dropWhile_sublist _)⟩
  rw [(h.takeWhile_eq_filter p.level).2] at ht
  exact Nat.le_of_not_lt (of_decide_eq_true (List.mem_filter.1 ht).2)

theorem nestedBy_adopt (h : NestedBy ns ss) (hss : Falling ss) (p : Passage) :
    NestedBy (p.level :: ns) (adopt p ss) := by
  obtain ⟨htake, hdrop⟩ := hss.takeWhile_eq_filter p.level
  refine ⟨?_, ?_, fun i t ht => ?_⟩
  · rw [preorders_adopt, List.map_cons, h.levels]
  · rw [preorders_adopt, Section.heldBy_cons_none h.levels, ← h.top, ← hdrop]
    rfl
  · rw [preorders_adopt] at ht ⊢
    -- the new section takes the trees that are deeper; the places of all others move by one
    cases i with
    | zero =>
      cases ht
      rw [Section.heldBy_cons_zero h.levels, ← h.top]
      exact htake
    | succ i =>
      rw [Section.heldBy_cons_succ]
      exact h.below i t ht

theorem falling_nest (ps : List Passage) : Falling (nest ps) := by
  induction ps with
  | nil => exact .nil
  | cons p ps ih => exact falling_adopt ih p

theorem nestedBy_nest (ps : List Passage) : NestedBy (ps.map (·.level)) (nest ps) := by
  induction ps with
  | nil => exact ⟨rfl, rfl, fun i t ht => by cases ht⟩
  | cons p ps ih => exact nestedBy_adopt ih (falling_nest ps) p

end Outline

/-! ### Titles -/

/-- The headings among the lines, with their levels. -/
def Source.headings (ls : List (Line × Nat)) : List (Nat × TextLine) :=
  ls.filterMap fun
    | (.heading level text, n) => some (level, n, text)
    | _ => none

def Passage.title (p : Passage) : Nat × List Sentence :=
  (p.level, p.header)

namespace Outline
variable (k : Splitter)

/-- The titles of the passages up to the one being read. -/
def titles (o : Outline) : List (Nat × List Sentence) :=
  (o.complete ++ [o.current]).map (·.title)

theorem titles_endBlock (o : Outline) : (o.endBlock k).titles = o.titles := by
  obtain ⟨ps, p, _ | ls | ⟨is, i⟩⟩ := o <;> simp [titles, endBlock, Passage.title]

theorem titles_readLine (o : Outline) (x : Line × Nat) : (o.readLine k x).titles =
    o.titles ++ (Source.headings [x]).map fun h => (h.1, k.split [h.2]) := by
  match x with
  | (.heading level t, n) =>
    rw [← titles_endBlock k o]
    simp [readLine, heading, titles, Source.headings, Passage.title]
  | (.item level t, n) =>
    have hitem : (o.item k level (n, t)).titles = o.titles := by
      obtain ⟨ps, p, _ | ls | ⟨is, i⟩⟩ := o <;> simp [titles, item, endBlock, Passage.title]
    simp [readLine, hitem, Source.headings]
  | (.text t, n) =>
    have htext : (o.text (n, t)).titles = o.titles := by
      obtain ⟨ps, p, _ | ls | ⟨is, i⟩⟩ := o <;> rfl
    simp [readLine, htext, Source.headings]
  | (.blank, _) | (.comment, _) | (.marker _, _) | (.code, _) =>
    simp [readLine, titles_endBlock, Source.headings]

theorem titles_foldl (o : Outline) (ls : List (Line × Nat)) : (ls.foldl (readLine k) o).titles =
    o.titles ++ (Source.headings ls).map fun h => (h.1, k.split [h.2]) := by
  induction ls generalizing o with
  | nil => simp [Source.headings]
  | cons x ls ih =>
    -- the accumulator is general: the titles so far stay in front
    have hheadings : Source.headings (x :: ls) = Source.headings [x] ++ Source.headings ls :=
      List.filterMap_append (l := [x])
    rw [List.foldl_cons, ih, titles_readLine, hheadings, List.map_append, List.append_assoc]

theorem titles_passages (ls : List (Line × Nat)) : (passages k ls).map (·.title) =
    (0, []) :: (Source.headings ls).map fun h => (h.1, k.split [h.2]) := by
  show ((ls.foldl (readLine k) {}).endBlock k).titles = _
  rw [titles_endBlock, titles_foldl]
  rfl

end Outline

/-! ### Text above the first heading -/

/-- All headings stand below the line. -/
def Source.AboveHeadings (ls : List (Line × Nat)) (n : LineNumber) : Prop :=
  ∀ x ∈ ls, x.1.isHeading = true → n < x.2

theorem Source.exists_first_content {ls : List (Line × Nat)} (h : ∃ x ∈ ls, x.1.content ≠ []) :
    ∃ y pre post, ls = pre ++ y :: post ∧ y.1.content ≠ [] ∧ ∀ x ∈ pre, x.1.content = [] := by
  have hsome : (ls.find? fun x => x.1.content ≠ []).isSome := by simpa using h
  obtain ⟨y, hy⟩ := Option.isSome_iff_exists.1 hsome
  obtain ⟨hne, pre, post, rfl, hpre⟩ := List.find?_eq_some_iff_append.1 hy
  exact ⟨y, pre, post, rfl, by simpa using hne, fun x hx => by simpa using hpre x hx⟩

namespace Stretch
variable {ls : List (Line × Nat)} {c : Stretch} {cs : List Stretch} {n : LineNumber}

theorem aboveHeadings_of_mem (hls : ls.Pairwise (·.2 < ·.2)) (hc : Outline.stretches ls = c :: cs)
    (hnone : c.heading? = none) (hn : n ∈ c.lines) : Source.AboveHeadings ls n := by
  rintro ⟨line, m⟩ hx hh
  obtain ⟨level, text, rfl⟩ := Source.Line.isHeading_iff.1 hh
  obtain ⟨c', hc', hheading⟩ := exists_heading_of_mem hx {}
  have hstacked := Outline.stacked_stretches hls
  rw [Outline.stretches] at hc hstacked
  rw [hc] at hc' hstacked
  rcases List.mem_cons.1 hc' with rfl | hc'
  · rw [hnone] at hheading
    cases hheading
  · have hlt : n < c'.start := (List.pairwise_cons.1 hstacked.below).1 c' hc' n hn
    rwa [start, hheading] at hlt

/-- The heading of a stretch stands at or above all its lines. -/
theorem not_aboveHeadings_of_mem (hls : ls.Pairwise (·.2 < ·.2)) (hc : c ∈ Outline.stretches ls)
    (hh : c.heading?.isSome) (hn : n ∈ c.lines) : ¬ Source.AboveHeadings ls n := by
  intro habove
  obtain ⟨⟨level, m, text⟩, hheading⟩ := Option.isSome_iff_exists.1 hh
  have hle := start_le ((Outline.stacked_stretches hls).rising c hc) hn
  rw [start, hheading] at hle
  rcases mem_of_heading?_cut hc hheading with heq | hx
  · rw [hheading] at heq
    cases heq
  · exact absurd (habove _ hx rfl) (Nat.not_lt.2 hle)

end Stretch

namespace Outline
variable {k : Splitter} {ls : List (Line × Nat)} {p : Passage} {ps : List Passage}

/-- The section of the text above the first heading, if a sentence is in it. -/
def preamble (p : Passage) : List Section :=
  if p.span?.isSome then [⟨p, []⟩] else []

theorem preamble_eq (p : Passage) : preamble p = [] ∨ preamble p = [⟨p, []⟩] := by
  unfold preamble
  split <;> simp

theorem preamble_ne_nil_iff : preamble p ≠ [] ↔ ∃ s, s ∈ p.sentences := by
  unfold preamble
  cases hspan : p.span? with
  | none => simp [Span.of?_eq_none_iff.1 hspan]
  | some w =>
    obtain ⟨s, hs, -⟩ := Span.exists_first hspan
    simpa using ⟨s, hs⟩

theorem preorders_preamble_append (p : Passage) (ss : List Section) :
    Section.preorders (preamble p ++ ss) = preamble p ++ Section.preorders ss := by
  rw [Section.preorders_append]
  rcases preamble_eq p with h | h <;> rw [h] <;> rfl

theorem sections_eq_append (h : passages k ls = p :: ps) :
    sections k ls = preamble p ++ nest ps := by
  rw [sections, h]
  show (if p.span?.isSome then ⟨p, []⟩ :: nest ps else nest ps) = _
  unfold preamble
  split <;> rfl

theorem mem_sentences_iff_stretch {s : Sentence} :
    s ∈ Document.sentences ⟨sections k ls⟩ ↔ ∃ c ∈ stretches ls, s ∈ (c.passage k).sentences := by
  rw [mem_sentences_sections, ← mem_passages_iff, passages_eq]
  simp

/-- The first passage has the sentences above the first heading. -/
theorem exists_passages_eq_cons (hls : ls.Pairwise (·.2 < ·.2)) :
    ∃ p ps, passages k ls = p :: ps ∧ ∀ s, s ∈ p.sentences ↔
      s ∈ Document.sentences ⟨sections k ls⟩ ∧ Source.AboveHeadings ls s.line := by
  obtain ⟨c, cs, hcut, hnone, hcs⟩ := Stretch.cut_eq_cons {} ls
  have hstretches : stretches ls = c :: cs := hcut
  refine ⟨c.passage k, cs.map (·.passage k), by rw [passages_eq, hstretches]; rfl, fun s => ?_⟩
  rw [mem_sentences_iff_stretch]
  constructor
  · intro hs
    have hc : c ∈ stretches ls := hstretches ▸ List.mem_cons_self ..
    exact ⟨⟨c, hc, hs⟩, Stretch.aboveHeadings_of_mem hls hstretches hnone (Stretch.line_mem hs)⟩
  · rintro ⟨⟨c', hc', hs⟩, habove⟩
    rcases List.mem_cons.1 (hstretches ▸ hc') with rfl | hcs'
    · exact hs
    · exact absurd habove
        (Stretch.not_aboveHeadings_of_mem hls hc' (hcs c' hcs') (Stretch.line_mem hs))

theorem exists_sentence_above_iff (hls : ls.Pairwise (·.2 < ·.2))
    (htrimmed : ∀ x ∈ ls, x.1.Trimmed) :
    (∃ s ∈ Document.sentences ⟨sections k ls⟩, Source.AboveHeadings ls s.line) ↔
      ∃ x ∈ ls, x.1.content ≠ [] ∧ Source.AboveHeadings ls x.2 := by
  constructor
  · rintro ⟨s, hs, habove⟩
    obtain ⟨x, hx, hline, hblank⟩ := exists_line_of_mem_sentences hs
    exact ⟨x, hx, fun hnil => by simp [hnil, Text.isBlankText] at hblank, hline ▸ habove⟩
  · rintro ⟨x, hx, hne, habove⟩
    -- a sentence starts on the first line with content, which is at or above this one
    obtain ⟨y, pre, post, rfl, hy, hpre⟩ := Source.exists_first_content ⟨x, hx, hne⟩
    have hblank := (htrimmed y (by simp)).isBlankText_content hy
    obtain ⟨s, hs, hline⟩ :
        ∃ s ∈ Document.sentences ⟨sections k (pre ++ y :: post)⟩, s.line = y.2 :=
      exists_sentence_of_first hblank hpre
    have hyx : y.2 ≤ x.2 := by
      rcases List.mem_append.1 hx with hx | hx
      · exact absurd (hpre x hx) hne
      · rcases List.mem_cons.1 hx with rfl | hx
        · exact Nat.le_refl _
        · exact Nat.le_of_lt (List.rel_of_pairwise_cons (List.pairwise_append.1 hls).2.1 hx)
    exact ⟨s, hs, fun z hz hh => Nat.lt_of_le_of_lt (hline ▸ hyx) (habove z hz hh)⟩

end Outline

/-- The document of a source has a section without title for the text above the first heading, if
there is any, and below it one section for each heading, with the level and text of the heading.
They are nested by the nearest smaller levels. -/
theorem ingest_skeleton (t : SymbolTable) (source : String) :
    let ls := Source.numberedLines source
    ∃ i above below, ingest t source = .ok i ∧ i.document.topSections = above ++ below ∧
      i.document.sections = above ++ Section.preorders below ∧
      (above = [] ∨ ∃ p, above = [⟨p, []⟩] ∧ p.title = (0, [])) ∧
      (above ≠ [] ↔ ∃ s ∈ i.document.sentences, Source.AboveHeadings ls s.line) ∧
      (above ≠ [] ↔ ∃ x ∈ ls, x.1.content ≠ [] ∧ Source.AboveHeadings ls x.2) ∧
      (Section.preorders below).map (·.own.title) =
        (Source.headings ls).map (fun h => (h.1, (Splitter.of t).split [h.2])) ∧
      Section.NestedBy ((Source.headings ls).map (·.1)) below ∧
      ∀ p ∈ i.document.sections, ∀ s ∈ p.subsections, p.own.level < s.own.level := by
  intro ls
  have hls := Source.pairwise_numberedLines source
  have htrimmed : ∀ x ∈ ls, x.1.Trimmed := fun x hx => Source.trimmed_of_mem_numberedLines hx
  obtain ⟨p, ps, hpassages, hp⟩ := Outline.exists_passages_eq_cons (k := Splitter.of t) hls
  obtain ⟨htitle, htitles⟩ : p.title = (0, []) ∧ ps.map (·.title) = _ :=
    List.cons.inj (hpassages ▸ Outline.titles_passages (Splitter.of t) ls)
  have htop := Outline.sections_eq_append hpassages
  have hsections : Document.sections ⟨Outline.sections (Splitter.of t) ls⟩ =
      Outline.preamble p ++ Section.preorders (Outline.nest ps) := by
    rw [Document.sections_eq, htop, Outline.preorders_preamble_append]
  have hlevels : ps.map (·.level) = (Source.headings ls).map (·.1) := by
    have := congrArg (List.map Prod.fst) htitles
    rwa [List.map_map, List.map_map] at this
  have hnested := hlevels ▸ Outline.nestedBy_nest ps
  have hpreamble : Outline.preamble p ≠ [] ↔
      ∃ s ∈ Document.sentences ⟨Outline.sections (Splitter.of t) ls⟩,
        Source.AboveHeadings ls s.line :=
    Outline.preamble_ne_nil_iff.trans (exists_congr hp)
  refine ⟨_, Outline.preamble p, Outline.nest ps, ingest_eq t source, htop, hsections, ?_,
    hpreamble, ?_, ?_, hnested, fun q hq s hs => ?_⟩
  · exact (Outline.preamble_eq p).imp_right fun h => ⟨p, h, htitle⟩
  · exact hpreamble.trans (Outline.exists_sentence_above_iff hls htrimmed)
  · rw [← htitles, ← Outline.preorders_nest ps, List.map_map, Outline.preorders_nest]
    rfl
  · have hq : q ∈ Outline.preamble p ++ Section.preorders (Outline.nest ps) := hsections ▸ hq
    rcases List.mem_append.1 hq with hq | hq
    · rcases Outline.preamble_eq p with h | h <;> rw [h] at hq
      · exact absurd hq List.not_mem_nil
      · rw [List.mem_singleton.1 hq] at hs
        exact absurd hs List.not_mem_nil
    · exact hnested.level_lt hq hs

end ProseLint
