import ProseLint.Proofs.Ledger
import ProseLint.Proofs.Scope

/-!
# The window of a directive ends where its section ends

The ledger bounds a directive by the next heading below its anchor, and the outline opens a new
section there. Both read the same lines, so the bound lies below the span that holds the anchor
(`lt_heading`), and that span is the one of the section opened by the last heading at or above the
anchor (`start_eq_headingAbove`). The bounds of ingested directives are thus never what decides.
-/

namespace ProseLint
open Source (firstBelow?)
open Source.Line (isHeading)

namespace Source

theorem Line.isHeading_iff {l : Line} :
    l.isHeading = true ↔ ∃ level text, l = .heading level text := by
  cases l <;> simp [isHeading]

variable {ls : List (Line × Nat)} {n m : LineNumber}

/-- The greatest number of a heading on the line `n` or above it, and 0 if there is none. -/
def headingAbove (ls : List (Line × Nat)) (n : LineNumber) : LineNumber :=
  ((ls.filter fun x => x.2 ≤ n && x.1.isHeading).map (·.2)).max?.getD 0

theorem headingAbove_eq (hm : m = 0 ∨ ∃ x ∈ ls, x.1.isHeading = true ∧ x.2 ≤ n ∧ x.2 = m)
    (hle : ∀ x ∈ ls, x.1.isHeading = true → x.2 ≤ n → x.2 ≤ m) : headingAbove ls n = m := by
  have hmem : ∀ k, k ∈ (ls.filter fun x => x.2 ≤ n && x.1.isHeading).map (·.2) ↔
      ∃ x ∈ ls, x.1.isHeading = true ∧ x.2 ≤ n ∧ x.2 = k := by
    intro k
    simp only [List.mem_map, List.mem_filter, Bool.and_eq_true, decide_eq_true_eq]
    exact ⟨fun ⟨x, ⟨hx, hn, hh⟩, hk⟩ => ⟨x, hx, hh, hn, hk⟩,
      fun ⟨x, hx, hh, hn, hk⟩ => ⟨x, ⟨hx, hn, hh⟩, hk⟩⟩
  rw [headingAbove]
  cases hmax : ((ls.filter fun x => x.2 ≤ n && x.1.isHeading).map (·.2)).max? with
  | none =>
    rcases hm with rfl | hm
    · rfl
    · exact absurd ((hmem m).2 hm) (by simp [List.max?_eq_none_iff.1 hmax])
  | some k =>
    obtain ⟨hk, hgreatest⟩ := List.max?_eq_some_iff.1 hmax
    obtain ⟨x, hx, hh, hn, rfl⟩ := (hmem k).1 hk
    refine Nat.le_antisymm (hle x hx hh hn) ?_
    rcases hm with rfl | hm
    · exact Nat.zero_le _
    · exact hgreatest m ((hmem m).2 hm)

end Source

/-! ### Headings and stretches -/

namespace Stretch
variable {k : Splitter} {c c' : Stretch} {cs : List Stretch} {w : Span} {n : LineNumber}
  {x : Source.Line × Nat} {ls : List (Source.Line × Nat)}

namespace Stacked

theorem trichotomy (h : Stacked cs) (hc : c ∈ cs) (hc' : c' ∈ cs) :
    c = c' ∨ (∀ n ∈ c.lines, n < c'.start) ∨ ∀ n ∈ c'.lines, n < c.start :=
  List.Pairwise.forall_of_forall_of_flip
    (R := fun c c' => c = c' ∨ (∀ n ∈ c.lines, n < c'.start) ∨ ∀ n ∈ c'.lines, n < c.start)
    (fun _ _ => .inl rfl) (h.below.imp fun h => .inr (.inl h)) (h.below.imp fun h => .inr (.inr h))
    hc hc'

theorem start_le_start (h : Stacked cs) (hc : c ∈ cs) (hc' : c' ∈ cs) (hh : c'.heading?.isSome)
    (hw : (c.passage k).span? = some w) (hle : c'.start ≤ w.last) : c'.start ≤ c.start := by
  rcases h.trichotomy hc hc' with rfl | hlt | hlt
  · exact Nat.le_refl _
  · exact absurd hle (Nat.not_le.2 (hlt _ (span?_last_mem hw)))
  · exact Nat.le_of_lt (hlt _ (start_mem hh))

end Stacked

theorem mem_of_heading?_cut {level : Nat} {text : List Char} {s : Stretch}
    (hc : c ∈ s.cut ls) (hh : c.heading? = some (level, n, text)) :
    c.heading? = s.heading? ∨ (.heading level text, n) ∈ ls := by
  induction s, ls using cut.induct with
  | case1 s => exact .inl (congrArg heading? (List.mem_singleton.1 hc))
  | case2 s level' text' n' ls ih =>
    rcases List.mem_cons.1 hc with rfl | hc
    · exact .inl rfl
    · rcases ih hc with heq | hmem
      · rw [hh] at heq
        cases heq
        exact .inr (List.mem_cons_self ..)
      · exact .inr (List.mem_cons_of_mem _ hmem)
  | case3 s y ls hy ih =>
    rw [cut] at hc
    · exact (ih hc).imp_right (List.mem_cons_of_mem _)
    · exact hy

theorem start_spec (hc : c ∈ Outline.stretches ls) :
    c.start = 0 ∨ ∃ x ∈ ls, x.1.isHeading = true ∧ x.2 = c.start := by
  cases hh : c.heading? with
  | none => exact .inl (by rw [start, hh]; rfl)
  | some y =>
    obtain ⟨level, n, text⟩ := y
    rcases mem_of_heading?_cut hc hh with heq | hmem
    · rw [hh] at heq
      cases heq
    · exact .inr ⟨_, hmem, rfl, by rw [start, hh]; rfl⟩

variable (hls : ls.Pairwise (·.2 < ·.2))
include hls

theorem start_le_first (hc : c ∈ Outline.stretches ls) (hw : (c.passage k).span? = some w) :
    c.start ≤ w.first :=
  start_le ((Outline.stacked_stretches hls).rising c hc) (span?_first_mem hw)

theorem heading_le_start (hc : c ∈ Outline.stretches ls) (hw : (c.passage k).span? = some w)
    (hx : x ∈ ls) (hh : x.1.isHeading = true) (hle : x.2 ≤ w.last) : x.2 ≤ c.start := by
  obtain ⟨line, n⟩ := x
  obtain ⟨level, text, rfl⟩ := Source.Line.isHeading_iff.1 hh
  obtain ⟨c', hc', hh'⟩ := exists_heading_of_mem hx {}
  have hstart : c'.start = n := by rw [start, hh']; rfl
  rw [← hstart] at hle ⊢
  exact (Outline.stacked_stretches hls).start_le_start hc hc' (by rw [hh']; rfl) hw hle

/-- A heading below a line of the span lies below the span. -/
theorem lt_heading (hc : c ∈ Outline.stretches ls) (hw : (c.passage k).span? = some w)
    (hn : w.contains n = true) (hx : x ∈ ls) (hh : x.1.isHeading = true) (hlt : n < x.2) :
    w.last < x.2 := by
  refine Nat.lt_of_not_le fun hle => ?_
  have hfirst : w.first ≤ n := (Span.contains_iff.1 hn).1
  have hstart := heading_le_start hls hc hw hx hh hle
  exact absurd hlt (Nat.not_lt.2 (hstart.trans ((start_le_first hls hc hw).trans hfirst)))

theorem start_eq_headingAbove (hc : c ∈ Outline.stretches ls) (hw : (c.passage k).span? = some w)
    (hn : w.contains n = true) : c.start = Source.headingAbove ls n := by
  obtain ⟨hfirst, hlast⟩ := Span.contains_iff.1 hn
  refine (Source.headingAbove_eq ((start_spec hc).imp_right ?_) fun x hx hh hle => ?_).symm
  · rintro ⟨x, hx, hh, heq⟩
    exact ⟨x, hx, hh, heq ▸ (start_le_first hls hc hw).trans hfirst, heq⟩
  · exact heading_le_start hls hc hw hx hh (hle.trans hlast)

end Stretch

/-! ### Ingested directives -/

namespace Outline

/-- The passage is the one opened by the heading on the line `h`, or if `h` is 0 the one above the
first heading. -/
def OpenedAt (k : Splitter) (ls : List (Source.Line × Nat)) (h : LineNumber) (p : Passage) : Prop :=
  ∃ c ∈ stretches ls, c.start = h ∧ c.passage k = p

variable {k : Splitter} {ls : List (Source.Line × Nat)}

theorem exists_stretch_of_mem {s : Section} (hs : s ∈ Section.preorders (sections k ls)) :
    ∃ c ∈ stretches ls, c.passage k = s.own := by
  have hmem : s.own ∈ (Section.preorders (sections k ls)).map (·.own) := List.mem_map_of_mem hs
  rw [preorders_sections] at hmem
  obtain ⟨c, hc, heq⟩ := List.mem_map.1 hmem
  exact ⟨c, (List.mem_filter.1 hc).1, heq⟩

end Outline

theorem Marker.bound?_of_mem_outcomes {ls : List (Source.Line × Nat)} {d : Directive}
    (h : .ok d ∈ outcomes ls) : d.bound? = firstBelow? isHeading d.anchor ls := by
  rcases read_or_settle_of_mem_outcomes h with ⟨n, text, w, hr, hw⟩ | ⟨m, hm⟩
  · cases hw
  · unfold settle at hm
    split at hm <;> cases hm
    rw [directive_anchorAt]

namespace Directive
variable {k : Splitter} {d : Directive} {l : LineNumber} {v : String}
  {ls : List (Source.Line × Nat)}

/-- A directive that is bounded by the next heading, or not at all, triggers in the span of the
section that its anchor is in, up to its end. -/
theorem triggersAt_sections_iff (hls : ls.Pairwise (·.2 < ·.2))
    (hd : ∀ b ∈ d.bound?, firstBelow? isHeading d.anchor ls = some b) :
    d.triggersAt ⟨Outline.sections k ls⟩ l v = true ↔ d.admits v = true ∧ d.anchor ≤ l ∧
      ∃ s ∈ Section.preorders (Outline.sections k ls),
        Outline.OpenedAt k ls (Source.headingAbove ls d.anchor) s.own ∧
        ∃ w, s.own.span? = some w ∧ w.contains d.anchor = true ∧ w.contains l = true := by
  rw [triggersAt_iff, inWindow_iff]
  constructor
  · rintro ⟨-, hv, hl, p, hp, w, hw, ha, hc⟩
    obtain ⟨s, hs, rfl⟩ := Document.mem_passages.1 hp
    obtain ⟨c, hcs, heq⟩ := Outline.exists_stretch_of_mem hs
    have hstart := Stretch.start_eq_headingAbove hls hcs (heq ▸ hw) ha
    exact ⟨hv, hl, s, hs, ⟨c, hcs, hstart, heq⟩, w, hw, ha, hc⟩
  · rintro ⟨hv, hl, s, hs, ⟨c, hcs, -, heq⟩, w, hw, ha, hc⟩
    -- the window needs no more than that the next heading lies below the span of the anchor
    refine ⟨fun b hb => ?_, hv, hl, s.own, Document.mem_passages.2 ⟨s, hs, rfl⟩, w, hw, ha, hc⟩
    obtain ⟨x, hx, hh, hlt, rfl⟩ := Source.exists_of_firstBelow? (hd b hb)
    exact Nat.lt_of_le_of_lt (Span.contains_iff.1 hc).2
      (Stretch.lt_heading hls hcs (heq ▸ hw) ha hx hh hlt)

/-- Such a directive does not trigger on a heading below its anchor, or below that heading. -/
theorem triggersAt_sections_eq_false (hls : ls.Pairwise (·.2 < ·.2))
    (hd : ∀ b ∈ d.bound?, firstBelow? isHeading d.anchor ls = some b) {x : Source.Line × Nat}
    (hx : x ∈ ls) (hh : x.1.isHeading = true) (hlt : d.anchor < x.2) (hle : x.2 ≤ l) :
    d.triggersAt ⟨Outline.sections k ls⟩ l v = false := by
  refine Bool.eq_false_iff.2 fun htrue => ?_
  obtain ⟨-, -, s, -, ⟨c, hcs, -, heq⟩, w, hw, ha, hc⟩ := (triggersAt_sections_iff hls hd).1 htrue
  have hlast := Stretch.lt_heading hls hcs (heq ▸ hw) ha hx hh hlt
  exact absurd (hle.trans (Span.contains_iff.1 hc).2) (Nat.not_le.2 hlast)

end Directive

/-- Every source is ingested into the sections of its stretches, and every ingested directive
triggers in the section opened by the last heading at or above its anchor, its bound being where
that section ends at the latest. -/
theorem ingest_triggersAt (t : SymbolTable) (source : String) :
    let k := Splitter.of t
    let ls := Source.numberedLines source
    ∃ i, ingest t source = .ok i ∧
      (Section.preorders i.document.topSections).map (·.own) =
        ((Outline.stretches ls).filter (·.counts k)).map (·.passage k) ∧
      ∀ d ∈ i.directives, ∀ l v,
        (d.triggersAt i.document l v = true ↔ d.admits v = true ∧ d.anchor ≤ l ∧
          ∃ s ∈ Section.preorders i.document.topSections,
            Outline.OpenedAt k ls (Source.headingAbove ls d.anchor) s.own ∧
            ∃ w, s.own.span? = some w ∧ w.contains d.anchor = true ∧ w.contains l = true) ∧
        { d with bound? := none }.triggersAt i.document l v = d.triggersAt i.document l v ∧
        ∀ x ∈ ls, x.1.isHeading = true → d.anchor < x.2 → x.2 ≤ l →
          d.triggersAt i.document l v = false := by
  intro k ls
  have hls := Source.pairwise_numberedLines source
  refine ⟨_, ingest_eq t source, Outline.preorders_sections ls, fun d hd l v => ?_⟩
  have hmem : .ok d ∈ Marker.outcomes ls := by
    rw [Ingested.ofSource, Ledger.ofLines_eq hls] at hd
    exact Ledger.mem_kept.1 hd
  have hbound : ∀ b ∈ d.bound?, firstBelow? isHeading d.anchor ls = some b :=
    fun b hb => (Marker.bound?_of_mem_outcomes hmem).symm.trans hb
  refine ⟨Directive.triggersAt_sections_iff hls hbound, ?_, fun x hx hh hlt hle =>
    Directive.triggersAt_sections_eq_false hls hbound hx hh hlt hle⟩
  have hnone : ∀ b ∈ { d with bound? := none }.bound?, firstBelow? isHeading d.anchor ls = some b :=
    fun b hb => absurd hb (Option.not_mem_none b)
  rw [Bool.eq_iff_iff]
  exact (Directive.triggersAt_sections_iff hls hnone).trans
    (Directive.triggersAt_sections_iff hls hbound).symm

end ProseLint
