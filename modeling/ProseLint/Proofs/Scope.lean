import Mathlib.Order.Interval.Set.Defs
import ProseLint.Proofs.Document
import ProseLint.Suppression

/-!
# Matching by the span of one section

`triggersAt_iff_interval`: in a document a directive triggers exactly from its anchor to the last
line of the one section whose span holds the anchor, cut off at the bound. The spans of blocks are
not needed for that (`shares_withoutBlocks`), since each lies within the span of its section, and
the section is unique because the spans of a document run down the lines.
-/

namespace ProseLint

/-! ### Shared scopes -/

namespace SectionScope
variable {p : Passage} {a l : LineNumber}

/-- One of the spans of a passage holds both lines iff the span of the whole passage does. -/
theorem any_spans_of_iff :
    ((of p).spans.any fun s => s.contains a && s.contains l) = true ↔
      ∃ w, p.span? = some w ∧ w.contains a = true ∧ w.contains l = true := by
  simp only [List.any_eq_true, Bool.and_eq_true, spans, of, List.mem_append, List.mem_filterMap,
    Option.mem_toList]
  constructor
  · rintro ⟨s, ⟨b, hb, hs⟩ | hs, ha, hl⟩
    · obtain ⟨w, hw, hfirst, hlast⟩ := Passage.span?_of_block hb hs
      rw [Span.contains_iff] at ha hl
      exact ⟨w, hw, Span.contains_iff.2 ⟨hfirst.trans ha.1, ha.2.trans hlast⟩,
        Span.contains_iff.2 ⟨hfirst.trans hl.1, hl.2.trans hlast⟩⟩
    · exact ⟨s, hs, ha, hl⟩
  · rintro ⟨w, hw, h⟩
    exact ⟨w, .inr hw, h⟩

def withoutBlocks (s : SectionScope) : SectionScope :=
  { s with blocks := [] }

theorem any_spans_withoutBlocks_iff :
    ((of p).withoutBlocks.spans.any fun s => s.contains a && s.contains l) = true ↔
      ∃ w, p.span? = some w ∧ w.contains a = true ∧ w.contains l = true := by
  simp [withoutBlocks, spans, of]

end SectionScope

namespace Scope
variable {doc : Document} {a l : LineNumber}

def withoutBlocks (s : Scope) : Scope :=
  ⟨s.sections.map SectionScope.withoutBlocks⟩

theorem shares_of_iff :
    (of doc).shares a l = true ↔ a ≤ l ∧
      ∃ p ∈ doc.passages, ∃ w, p.span? = some w ∧ w.contains a = true ∧ w.contains l = true := by
  simp only [shares, of, Bool.and_eq_true, decide_eq_true_eq, List.any_map, List.any_eq_true,
    Function.comp_apply, ← SectionScope.any_spans_of_iff]

theorem shares_withoutBlocks : (of doc).withoutBlocks.shares a l = (of doc).shares a l := by
  rw [Bool.eq_iff_iff, shares_of_iff]
  simp only [shares, withoutBlocks, of, List.map_map, Bool.and_eq_true, decide_eq_true_eq,
    List.any_map, List.any_eq_true, Function.comp_apply, ← SectionScope.any_spans_withoutBlocks_iff]

end Scope

namespace Directive
variable {d : Directive} {doc : Document} {l : LineNumber} {v : String}

theorem inWindow_iff : d.inWindow l = true ↔ ∀ b ∈ d.bound?, l < b := by
  cases h : d.bound? <;> simp [inWindow, h]

theorem triggersAt_iff :
    d.triggersAt doc l v = true ↔ d.inWindow l = true ∧ d.admits v = true ∧ d.anchor ≤ l ∧
      ∃ p ∈ doc.passages, ∃ w, p.span? = some w ∧
        w.contains d.anchor = true ∧ w.contains l = true := by
  rw [triggersAt, triggersIn, Bool.and_eq_true, Bool.and_eq_true, Scope.shares_of_iff, and_assoc]

end Directive

/-! ### One section holds the anchor -/

namespace Passage
variable {p : Passage} {w : Span} {n : LineNumber}

def lines (p : Passage) : Set LineNumber :=
  linesOf p.sentences

theorem span?_eq_some_iff :
    p.span? = some w ↔ IsLeast p.lines w.first ∧ IsGreatest p.lines w.last :=
  Span.of?_eq_some_iff

/-- The line lies between the first and the last line that the passage has a sentence on. -/
def Covers (p : Passage) (n : LineNumber) : Prop :=
  ∃ lo hi, IsLeast p.lines lo ∧ IsGreatest p.lines hi ∧ lo ≤ n ∧ n ≤ hi

theorem covers_iff : p.Covers n ↔ ∃ w, p.span? = some w ∧ w.contains n = true := by
  constructor
  · rintro ⟨lo, hi, hlo, hhi, h⟩
    exact ⟨⟨lo, hi⟩, span?_eq_some_iff.2 ⟨hlo, hhi⟩, Span.contains_iff.2 h⟩
  · rintro ⟨w, hw, h⟩
    obtain ⟨hlo, hhi⟩ := span?_eq_some_iff.1 hw
    exact ⟨w.first, w.last, hlo, hhi, Span.contains_iff.1 h⟩

end Passage

namespace Document

theorem RunsDown.eq_of_covers {ps : List Passage} (h : RunsDown ps) {n : LineNumber} {i j : Nat}
    (hi : i < ps.length) (hj : j < ps.length) (hpi : ps[i].Covers n) (hpj : ps[j].Covers n) :
    i = j := by
  have hpairs := List.pairwise_iff_getElem.1 (List.pairwise_filterMap.1 h.spans)
  -- the earlier passage would end above the line and the later one start on it or above it
  have hlt : ∀ i j (hi : i < ps.length) (hj : j < ps.length), ps[i].Covers n → ps[j].Covers n →
      ¬ i < j := by
    intro i j hi hj hpi hpj hij
    obtain ⟨w, hw, hn⟩ := Passage.covers_iff.1 hpi
    obtain ⟨w', hw', hn'⟩ := Passage.covers_iff.1 hpj
    have : w.last < w'.first := hpairs i j hi hj hij w hw w' hw'
    exact absurd ((Span.contains_iff.1 hn').1.trans (Span.contains_iff.1 hn).2) (Nat.not_le.2 this)
  rcases Nat.lt_trichotomy i j with hij | hij | hij
  · exact absurd hij (hlt i j hi hj hpi hpj)
  · exact hij
  · exact absurd hij (hlt j i hj hi hpj hpi)

end Document

/-! ### The triggered lines -/

namespace Directive
variable {doc : Document} {d : Directive} {v : String}

/-- The last line that the directive can trigger on in a section that ends on the line `hi`. -/
def lastLine (d : Directive) (hi : LineNumber) : LineNumber :=
  d.bound?.elim hi fun b => min hi (b - 1)

theorem le_lastLine_iff {l hi : LineNumber} (hb : d.bound? ≠ some 0) :
    l ≤ d.lastLine hi ↔ l ≤ hi ∧ ∀ b ∈ d.bound?, l < b := by
  cases h : d.bound? with
  | none => simp [lastLine, h]
  | some b =>
    have hb' : b ≠ 0 := fun h0 => hb (h0 ▸ h)
    simp only [lastLine, h, Option.elim_some, Option.mem_def, Option.some.injEq, forall_eq']
    rw [Nat.le_min, Nat.le_sub_one_iff_lt (Nat.pos_of_ne_zero hb')]

theorem triggersAt_iff_exists_section {l : LineNumber} :
    d.triggersAt doc l v = true ↔ d.admits v = true ∧
      ∃ s ∈ Section.preorders doc.topSections, ∃ lo hi,
        IsLeast s.own.lines lo ∧ IsGreatest s.own.lines hi ∧
        lo ≤ d.anchor ∧ d.anchor ≤ l ∧ l ≤ hi ∧ ∀ b ∈ d.bound?, l < b := by
  rw [triggersAt_iff, inWindow_iff]
  constructor
  · rintro ⟨hb, hv, hl, p, hp, w, hw, ha, hc⟩
    obtain ⟨s, hs, rfl⟩ := Document.mem_passages.1 hp
    obtain ⟨hlo, hhi⟩ := Passage.span?_eq_some_iff.1 hw
    exact ⟨hv, s, hs, w.first, w.last, hlo, hhi, (Span.contains_iff.1 ha).1, hl,
      (Span.contains_iff.1 hc).2, hb⟩
  · rintro ⟨hv, s, hs, lo, hi, hlo, hhi, ha, hl, hc, hb⟩
    exact ⟨hb, hv, hl, s.own, Document.mem_passages.2 ⟨s, hs, rfl⟩, ⟨lo, hi⟩,
      Passage.span?_eq_some_iff.2 ⟨hlo, hhi⟩, Span.contains_iff.2 ⟨ha, hl.trans hc⟩,
      Span.contains_iff.2 ⟨ha.trans hl, hc⟩⟩

/-- If the spans run down the lines, no section but the one that covers the anchor counts. -/
theorem triggered_eq_Icc (hd : Document.RunsDown ((Section.preorders doc.topSections).map (·.own)))
    (hv : d.admits v = true) {s : Section} (hs : s ∈ Section.preorders doc.topSections)
    {hi : LineNumber} (hhi : IsGreatest s.own.lines hi) (ha : s.own.Covers d.anchor)
    (hb : d.bound? ≠ some 0) :
    {l | d.triggersAt doc l v = true} = Set.Icc d.anchor (d.lastLine hi) := by
  ext l
  rw [Set.mem_ofPred_eq, triggersAt_iff_exists_section, Set.mem_Icc, le_lastLine_iff hb]
  constructor
  · rintro ⟨-, t, ht, lo', hi', hlo', hhi', ha', hl, hc, hbound⟩
    obtain ⟨i, hi, rfl⟩ := List.getElem_of_mem hs
    obtain ⟨j, hj, rfl⟩ := List.getElem_of_mem ht
    obtain rfl := hd.eq_of_covers (i := i) (j := j) (n := d.anchor) (by simpa) (by simpa)
      (by simpa using ha) (by simpa using ⟨lo', hi', hlo', hhi', ha', hl.trans hc⟩)
    exact ⟨hl, hhi.unique hhi' ▸ hc, hbound⟩
  · rintro ⟨hl, hc, hbound⟩
    obtain ⟨lo, hi', hlo, -, ha, -⟩ := ha
    exact ⟨hv, s, hs, lo, hi, hlo, hhi, ha, hl, hc, hbound⟩

/-- Matching is membership in an interval of one section, and blocks do not matter. -/
theorem triggersAt_iff_interval {ss : List Section} (h : Document.build ss = .ok doc)
    (d : Directive) :
    (∀ l v, d.triggersAt doc l v = true ↔ d.admits v = true ∧
      ∃ s ∈ Section.preorders ss, ∃ lo hi, IsLeast s.own.lines lo ∧ IsGreatest s.own.lines hi ∧
        lo ≤ d.anchor ∧ d.anchor ≤ l ∧ l ≤ hi ∧ ∀ b ∈ d.bound?, l < b) ∧
    (∀ i j (hi : i < (Section.preorders ss).length) (hj : j < (Section.preorders ss).length),
      (Section.preorders ss)[i].own.Covers d.anchor →
      (Section.preorders ss)[j].own.Covers d.anchor → i = j) ∧
    (∀ v, d.admits v = true → {l | d.triggersAt doc l v = true} = ∅ ∨
      ∃ s ∈ Section.preorders ss, s.own.Covers d.anchor ∧ ∃ hi, IsGreatest s.own.lines hi ∧
        {l | d.triggersAt doc l v = true} = Set.Icc d.anchor (d.lastLine hi)) ∧
    (∀ a l, (Scope.of doc).withoutBlocks.shares a l = (Scope.of doc).shares a l) := by
  obtain ⟨rfl, hd⟩ := Document.build_eq_ok_iff.1 h
  refine ⟨fun l v => triggersAt_iff_exists_section, fun i j hi hj hpi hpj => ?_, fun v hv => ?_,
    fun a l => Scope.shares_withoutBlocks⟩
  · exact hd.eq_of_covers (n := d.anchor) (by simpa) (by simpa) (by simpa using hpi)
      (by simpa using hpj)
  · rcases Set.eq_empty_or_nonempty {l | d.triggersAt ⟨ss⟩ l v = true} with hempty | ⟨l, hl⟩
    · exact .inl hempty
    · obtain ⟨-, s, hs, lo, hi, hlo, hhi, ha, hal, hc, hb⟩ := triggersAt_iff_exists_section.1 hl
      have hcov : s.own.Covers d.anchor := ⟨lo, hi, hlo, hhi, ha, hal.trans hc⟩
      refine .inr ⟨s, hs, hcov, hi, hhi, triggered_eq_Icc hd hv hs hhi hcov fun h0 => ?_⟩
      exact Nat.not_lt_zero l (hb 0 h0)

/-- From the header of a subsection into the gap before its list, but not up to the bound. -/
theorem triggersAt_in_subsection :
    let ss : List Section :=
      [⟨{ level := 1, header := [⟨"Top", 1⟩], paragraphs := [[⟨"One.", 2⟩, ⟨"Two.", 4⟩]] },
        [⟨{ level := 2, header := [⟨"Sub", 5⟩], lists := [[⟨0, [⟨"Item", 9⟩]⟩]] }, []⟩]⟩]
    let d : Directive := ⟨.suppress, 5, some 8, ["spelling"]⟩
    Document.build ss = .ok ⟨ss⟩ ∧
      d.triggersAt ⟨ss⟩ 7 "Spelling" = true ∧ d.triggersAt ⟨ss⟩ 8 "Spelling" = false := by
  intro ss d
  have hb : Document.build ss = .ok ⟨ss⟩ := Document.build_eq_ok_iff.2 ⟨rfl, by decide, by decide⟩
  have hs : Section.mk { level := 2, header := [⟨"Sub", 5⟩], lists := [[⟨0, [⟨"Item", 9⟩]⟩]] } [] ∈
      Section.preorders ss := .tail _ (.head _)
  obtain ⟨hlo, hhi⟩ := Passage.span?_eq_some_iff (w := ⟨5, 9⟩).1 (rfl : Passage.span?
    { level := 2, header := [⟨"Sub", 5⟩], lists := [[⟨0, [⟨"Item", 9⟩]⟩]] } = _)
  have h := (triggersAt_iff_interval hb d).1
  refine ⟨hb, (h 7 _).2 ⟨by decide +kernel, _, hs, 5, 9, hlo, hhi, by decide⟩, ?_⟩
  refine Bool.eq_false_iff.2 fun h8 => ?_
  obtain ⟨-, _, _, _, _, _, _, _, _, _, hbound⟩ := (h 8 _).1 h8
  exact absurd (hbound 8 rfl) (Nat.lt_irrefl 8)

end Directive

end ProseLint
