import Mathlib.Data.List.Nodup
import ProseLint.Proofs.Blocks
import ProseLint.Proofs.Window
import ProseLint.SymbolTable.Builtin

/-!
# What an ingested directive covers

Two lines share a scope iff a sentence starts at or above the first and one at or below the second
with no heading in between (`shares_sections_iff`). So a directive covers the text from its anchor
to the last line of its section that a sentence starts on, but not the lines that this sentence
goes on with; and it covers its own anchor unless that is a heading or an item without text.
-/

namespace ProseLint
open Source (Line firstBelow?)
open Source.Line (isContent isHeading)

namespace Source
variable {ls : List (Line × Nat)} {a b c n m : LineNumber} {x : Line × Nat}

/-- No heading stands below the line `a` down to the line `b`. -/
def Unbroken (ls : List (Line × Nat)) (a b : LineNumber) : Prop :=
  ∀ x ∈ ls, x.1.isHeading = true → a < x.2 → b < x.2

namespace Unbroken

theorem refl (ls : List (Line × Nat)) (a : LineNumber) : Unbroken ls a a :=
  fun _ _ _ h => h

theorem mono {a' b' : LineNumber} (h : Unbroken ls a b) (ha : a ≤ a') (hb : b' ≤ b) :
    Unbroken ls a' b' := by
  intro x hx hh hlt
  exact Nat.lt_of_le_of_lt hb (h x hx hh (Nat.lt_of_le_of_lt ha hlt))

theorem trans (h : Unbroken ls a b) (h' : Unbroken ls b c) : Unbroken ls a c := by
  intro x hx hh hlt
  exact h' x hx hh (h x hx hh hlt)

end Unbroken

theorem firstBelow?_le {p : Line → Bool} (h : firstBelow? p n ls = some m) (hx : x ∈ ls)
    (hp : p x.1 = true) (hn : n < x.2) : m ≤ x.2 := by
  refine (List.min?_eq_some_iff.1 h).2 x.2 (List.mem_map_of_mem (List.mem_filter.2 ⟨hx, ?_⟩))
  simp [hn, hp]

theorem Line.goesOn_of_isContent {l : Line} (h : l.isContent = false) : l.goesOn = false := by
  cases l <;> first | rfl | cases h

theorem Line.Trimmed.of_content_nil {l : Line} (h : l.Trimmed) (hl : l.isContent = true)
    (hnil : l.content = []) : ∃ level, l = .heading level [] ∨ l = .item level [] := by
  cases l with
  | heading level t => exact ⟨level, .inl (congrArg _ hnil)⟩
  | item level t => exact ⟨level, .inr (congrArg _ hnil)⟩
  | text t => exact absurd hnil (h.text t rfl)
  | _ => cases hl

/-- The first line with content below a marker goes on with nothing. -/
theorem begins_of_firstBelow? (hls : ls.Pairwise (·.2 < ·.2)) {text : List Char}
    (hmarker : (.marker text, n) ∈ ls) (h : firstBelow? isContent n ls = some x.2) (hx : x ∈ ls)
    (hne : x.1.content ≠ []) : Begins ls x := by
  obtain ⟨pre, post, rfl⟩ := List.append_of_mem hx
  refine ⟨hne, pre, post, rfl, fun t _ y hy => Line.goesOn_of_isContent ?_⟩
  obtain ⟨hpre, hpost, hlt⟩ := List.pairwise_append.1 hls
  obtain ⟨pre, rfl⟩ : ∃ pre', pre = pre' ++ [y] := List.getLast?_eq_some_iff.1 hy
  have hyx : y.2 < x.2 := hlt y (by simp) x (by simp)
  refine Bool.eq_false_iff.2 fun hcontent => ?_
  -- the marker stands above `y`, so `y` would come before `x`
  have hny : n < y.2 := by
    rcases List.mem_append.1 hmarker with hm | hm
    · rcases List.mem_append.1 hm with hm | hm
      · exact (List.pairwise_append.1 hpre).2.2 _ hm y (by simp)
      · rw [← List.mem_singleton.1 hm] at hcontent
        cases hcontent
    · have hle : x.2 ≤ n := by
        rcases List.mem_cons.1 hm with rfl | hm
        · exact Nat.le_refl _
        · exact Nat.le_of_lt (List.rel_of_pairwise_cons hpost hm)
      exact absurd (firstBelow?_lt h) (Nat.not_lt.2 hle)
  have hxy : x.2 ≤ y.2 := firstBelow?_le h (by simp) hcontent hny
  exact absurd hyx (Nat.not_lt.2 hxy)

end Source

theorem Marker.exists_anchor_line {ls : List (Line × Nat)} {d : Directive}
    (hls : ls.Pairwise (·.2 < ·.2)) (h : .ok d ∈ outcomes ls) :
    ∃ x ∈ ls, x.2 = d.anchor ∧ x.1.isContent = true ∧
      (x.1.content ≠ [] → Source.Begins ls x) := by
  obtain ⟨⟨n, text⟩, hfound, hd⟩ := List.mem_map.1 h
  rw [outcome_eq] at hd
  cases hr : read n text with
  | error w => rw [hr] at hd; cases hd
  | ok m =>
    have hd : m.settle ls = .ok d := by rwa [hr] at hd
    unfold settle at hd
    rw [read_line hr] at hd
    split at hd
    · cases hd
    next j hj =>
      cases hd
      obtain ⟨x, hx, hcontent, -, rfl⟩ := Source.exists_of_firstBelow? hj
      exact ⟨x, hx, by rw [directive_anchorAt], hcontent,
        Source.begins_of_firstBelow? hls (mem_found.1 hfound) hj hx⟩

/-! ### Shared scopes by sentences -/

/-- The line lies in the span of what some section owns. -/
def Document.Covers (doc : Document) (n : LineNumber) : Prop :=
  ∃ s ∈ Section.preorders doc.topSections, s.own.Covers n

theorem Scope.shares_self_iff {doc : Document} {n : LineNumber} :
    (of doc).shares n n = true ↔ doc.Covers n := by
  rw [shares_of_iff]
  constructor
  · rintro ⟨-, p, hp, w, hw, hn, -⟩
    obtain ⟨s, hs, rfl⟩ := Document.mem_passages.1 hp
    exact ⟨s, hs, Passage.covers_iff.2 ⟨w, hw, hn⟩⟩
  · rintro ⟨s, hs, hn⟩
    obtain ⟨w, hw, hn⟩ := Passage.covers_iff.1 hn
    exact ⟨Nat.le_refl n, s.own, Document.mem_passages.2 ⟨s, hs, rfl⟩, w, hw, hn, hn⟩

theorem Scope.shares_self_of_shares {doc : Document} {a l : LineNumber}
    (h : (of doc).shares a l = true) : (of doc).shares a a = true := by
  obtain ⟨-, p, hp, w, hw, ha, -⟩ := shares_of_iff.1 h
  exact shares_of_iff.2 ⟨Nat.le_refl a, p, hp, w, hw, ha, ha⟩

namespace Stretch
variable {k : Splitter} {ls : List (Line × Nat)} {c c' : Stretch} {s s' : Sentence}

/-- Sentences with no heading between them are read in one stretch. -/
theorem eq_of_unbroken (hls : ls.Pairwise (·.2 < ·.2)) (hc : c ∈ Outline.stretches ls)
    (hc' : c' ∈ Outline.stretches ls) (hs : s ∈ (c.passage k).sentences)
    (hs' : s' ∈ (c'.passage k).sentences) (hle : s.line ≤ s'.line)
    (h : Source.Unbroken ls s.line s'.line) : c = c' := by
  have hstacked := Outline.stacked_stretches hls
  rcases hstacked.trichotomy hc hc' with heq | hlt | hlt
  · exact heq
  · -- the second stretch would start with a heading between the sentences
    have hbelow : s.line < c'.start := hlt _ (line_mem hs)
    have habove : c'.start ≤ s'.line := start_le (hstacked.rising c' hc') (line_mem hs')
    rcases start_spec hc' with hzero | ⟨x, hx, hh, hstart⟩
    · exact absurd hbelow (by simp [hzero])
    · have := h x hx hh (hstart ▸ hbelow)
      rw [hstart] at this
      exact absurd habove (Nat.not_le.2 this)
  · have hbelow : s'.line < c.start := hlt _ (line_mem hs')
    have habove : c.start ≤ s.line := start_le (hstacked.rising c hc) (line_mem hs)
    exact absurd hle (Nat.not_le.2 (Nat.lt_of_lt_of_le hbelow habove))

end Stretch

section
variable {k : Splitter} {ls : List (Line × Nat)} (hls : ls.Pairwise (·.2 < ·.2))
include hls

theorem Scope.shares_sections_iff {a l : LineNumber} :
    (of ⟨Outline.sections k ls⟩).shares a l = true ↔ a ≤ l ∧
      ∃ s ∈ Document.sentences ⟨Outline.sections k ls⟩,
        ∃ s' ∈ Document.sentences ⟨Outline.sections k ls⟩,
          s.line ≤ a ∧ l ≤ s'.line ∧ Source.Unbroken ls s.line s'.line := by
  rw [shares_of_iff]
  refine and_congr_right fun hal => ?_
  have hstretch : ∀ p ∈ Document.passages ⟨Outline.sections k ls⟩,
      ∃ c ∈ Outline.stretches ls, c.passage k = p := by
    intro p hp
    obtain ⟨sec, hsec, rfl⟩ := Document.mem_passages.1 hp
    exact Outline.exists_stretch_of_mem hsec
  constructor
  · rintro ⟨p, hp, w, hw, ha, hl⟩
    obtain ⟨s, hs, hfirst⟩ := Span.exists_first hw
    obtain ⟨s', hs', hlast⟩ := Span.exists_last hw
    obtain ⟨c, hc, rfl⟩ := hstretch p hp
    refine ⟨s, List.mem_flatMap.2 ⟨_, hp, hs⟩, s', List.mem_flatMap.2 ⟨_, hp, hs'⟩, ?_, ?_, ?_⟩
    · exact hfirst ▸ (Span.contains_iff.1 ha).1
    · exact hlast ▸ (Span.contains_iff.1 hl).2
    · intro x hx hh hlt
      have hcontains : w.contains s.line = true :=
        Span.contains_iff.2 ⟨Span.first_le hw hs, Span.le_last hw hs⟩
      exact hlast ▸ Stretch.lt_heading hls hc hw hcontains hx hh hlt
  · rintro ⟨s, hs, s', hs', ha, hl, h⟩
    obtain ⟨p, hp, hs⟩ := List.mem_flatMap.1 hs
    obtain ⟨p', hp', hs'⟩ := List.mem_flatMap.1 hs'
    obtain ⟨c, hc, rfl⟩ := hstretch p hp
    obtain ⟨c', hc', rfl⟩ := hstretch p' hp'
    obtain rfl := Stretch.eq_of_unbroken hls hc hc' hs hs' (ha.trans (hal.trans hl)) h
    cases hw : (c.passage k).span? with
    | none =>
      rw [Span.of?_eq_none_iff.1 hw] at hs
      exact absurd hs List.not_mem_nil
    | some w =>
      have hfirst := Span.first_le hw hs
      have hlast := Span.le_last hw hs'
      refine ⟨_, hp, w, hw, Span.contains_iff.2 ⟨?_, ?_⟩, Span.contains_iff.2 ⟨?_, ?_⟩⟩
      · exact hfirst.trans ha
      · exact hal.trans (hl.trans hlast)
      · exact hfirst.trans (ha.trans hal)
      · exact hl.trans hlast

theorem Document.covers_sections_iff {n : LineNumber} :
    Covers ⟨Outline.sections k ls⟩ n ↔
      ∃ s ∈ sentences ⟨Outline.sections k ls⟩, ∃ s' ∈ sentences ⟨Outline.sections k ls⟩,
        s.line ≤ n ∧ n ≤ s'.line ∧ Source.Unbroken ls s.line s'.line := by
  rw [← Scope.shares_self_iff, Scope.shares_sections_iff hls, and_iff_right (Nat.le_refl n)]

/-- An ingested directive is never held back by its bound: the next heading ends the scope of its
anchor anyway. -/
theorem Directive.triggersAt_iff_shares {d : Directive} {l : LineNumber} {v : String}
    (hd : ∀ b ∈ d.bound?, firstBelow? isHeading d.anchor ls = some b) :
    d.triggersAt ⟨Outline.sections k ls⟩ l v = true ↔
      d.admits v = true ∧ (Scope.of ⟨Outline.sections k ls⟩).shares d.anchor l = true := by
  rw [triggersAt_iff, ← Scope.shares_of_iff, inWindow_iff]
  refine and_iff_right_of_imp fun ⟨_, hshares⟩ b hb => ?_
  obtain ⟨-, s, hs, s', hs', ha, hl, h⟩ := (Scope.shares_sections_iff hls).1 hshares
  obtain ⟨x, hx, hh, hlt, rfl⟩ := Source.exists_of_firstBelow? (hd b hb)
  exact h.mono ha hl x hx hh hlt

/-- A directive whose anchor is in its own scope covers its section to the last line that a
sentence starts on. -/
theorem Directive.triggersAt_iff_sentence {d : Directive} {l : LineNumber} {v : String}
    (hd : ∀ b ∈ d.bound?, firstBelow? isHeading d.anchor ls = some b)
    (hself : (Scope.of ⟨Outline.sections k ls⟩).shares d.anchor d.anchor = true)
    (hv : d.admits v = true) (hl : d.anchor ≤ l) :
    d.triggersAt ⟨Outline.sections k ls⟩ l v = true ↔
      ∃ s ∈ Document.sentences ⟨Outline.sections k ls⟩,
        l ≤ s.line ∧ Source.Unbroken ls d.anchor s.line := by
  rw [triggersAt_iff_shares hls hd, and_iff_right hv, Scope.shares_sections_iff hls,
    and_iff_right hl]
  constructor
  · rintro ⟨s, -, s', hs', ha, hl', h⟩
    exact ⟨s', hs', hl', h.mono ha (Nat.le_refl _)⟩
  · rintro ⟨s', hs', hl', h'⟩
    obtain ⟨-, s, hs, t, -, ha, ha', h⟩ := (Scope.shares_sections_iff hls).1 hself
    have habove : Source.Unbroken ls s.line d.anchor := h.mono (Nat.le_refl _) ha'
    exact ⟨s, hs, s', hs', ha, hl', habove.trans h'⟩

theorem Outline.content_ne_nil_of_mem_sentences {s : Sentence}
    (hs : s ∈ Document.sentences ⟨sections k ls⟩) (hx : x ∈ ls) (hline : s.line = x.2) :
    x.1.content ≠ [] := by
  obtain ⟨y, hy, hyline, hblank⟩ := exists_line_of_mem_sentences hs
  have hnodup : (ls.map (·.2)).Nodup := (List.pairwise_map.2 hls).imp Nat.ne_of_lt
  obtain rfl := List.inj_on_of_nodup_map hnodup hy hx (hyline.trans hline)
  intro hnil
  rw [hnil] at hblank
  cases hblank

theorem Document.covers_of_begins (hblank : Text.isBlankText x.1.content = false)
    (h : Source.Begins ls x) : Covers ⟨Outline.sections k ls⟩ x.2 := by
  obtain ⟨s, hs, hline⟩ := Outline.exists_sentence_of_begins hblank h
  exact (covers_sections_iff hls).2
    ⟨s, hs, s, hs, Nat.le_of_eq hline, Nat.le_of_eq hline.symm, Source.Unbroken.refl _ _⟩

/-- A line without content is in a section only by lines of text above and below it. -/
theorem Document.covers_iff_of_content_eq_nil (hx : x ∈ ls) (hnil : x.1.content = []) :
    Covers ⟨Outline.sections k ls⟩ x.2 ↔
      ∃ s ∈ sentences ⟨Outline.sections k ls⟩, ∃ s' ∈ sentences ⟨Outline.sections k ls⟩,
        s.line < x.2 ∧ x.2 < s'.line ∧ Source.Unbroken ls s.line s'.line := by
  rw [covers_sections_iff hls]
  have hne : ∀ s ∈ sentences ⟨Outline.sections k ls⟩, s.line ≠ x.2 := fun s hs hline =>
    Outline.content_ne_nil_of_mem_sentences hls hs hx hline hnil
  constructor
  · rintro ⟨s, hs, s', hs', hle, hle', h⟩
    exact ⟨s, hs, s', hs', Nat.lt_of_le_of_ne hle (hne s hs),
      Nat.lt_of_le_of_ne hle' (hne s' hs').symm, h⟩
  · rintro ⟨s, hs, s', hs', hlt, hlt', h⟩
    exact ⟨s, hs, s', hs', Nat.le_of_lt hlt, Nat.le_of_lt hlt', h⟩

/-- A heading without text is in no section, not even in its own. -/
theorem Document.not_covers_of_heading {level : Nat} (hx : x ∈ ls) (hh : x.1 = .heading level []) :
    ¬ Covers ⟨Outline.sections k ls⟩ x.2 := by
  intro hcovers
  have hnil : x.1.content = [] := by rw [hh]; rfl
  have hheading : x.1.isHeading = true := by rw [hh]; rfl
  obtain ⟨s, -, s', -, hlt, hlt', h⟩ := (covers_iff_of_content_eq_nil hls hx hnil).1 hcovers
  exact absurd hlt' (Nat.lt_asymm (h x hx hheading hlt))

end

/-! ### Ingested directives -/

theorem Ingested.mem_directives_iff {t : SymbolTable} {source : String} {d : Directive} :
    d ∈ (ofSource t source).directives ↔
      .ok d ∈ Marker.outcomes (Source.numberedLines source) := by
  rw [ofSource, Ledger.ofLines_eq (Source.pairwise_numberedLines source)]
  exact Ledger.mem_kept

theorem Ingested.bound_spec {t : SymbolTable} {source : String} {d : Directive}
    (hd : d ∈ (ofSource t source).directives) :
    ∀ b ∈ d.bound?, firstBelow? isHeading d.anchor (Source.numberedLines source) = some b :=
  fun _ hb => (Marker.bound?_of_mem_outcomes (mem_directives_iff.1 hd)).symm.trans hb

/-- An ingested directive in whose scope its anchor is covers the section from there to the last
line that a sentence starts on. These are all lines but, below the last sentence, those that it
goes on with. -/
theorem ingest_covers_below (t : SymbolTable) (source : String) :
    let ls := Source.numberedLines source
    ∃ i, ingest t source = .ok i ∧
      ∀ d ∈ i.directives, (Scope.of i.document).shares d.anchor d.anchor = true →
        ∀ l v, d.anchor ≤ l → d.admits v = true →
          (d.triggersAt i.document l v = true ↔
            ∃ s ∈ i.document.sentences, l ≤ s.line ∧ Source.Unbroken ls d.anchor s.line) ∧
          ((∃ x ∈ ls, Source.Begins ls x ∧ l ≤ x.2 ∧ Source.Unbroken ls d.anchor x.2) →
            d.triggersAt i.document l v = true) := by
  intro ls
  have hls := Source.pairwise_numberedLines source
  refine ⟨_, ingest_eq t source, fun d hd hself l v hl hv => ?_⟩
  have hiff := Directive.triggersAt_iff_sentence hls (Ingested.bound_spec hd) hself hv hl
  refine ⟨hiff, fun ⟨x, hx, hbegins, hlx, h⟩ => hiff.2 ?_⟩
  have hblank := (Source.trimmed_of_mem_numberedLines hx).isBlankText_content hbegins.1
  obtain ⟨s, hs, hline⟩ := Outline.exists_sentence_of_begins hblank hbegins
  exact ⟨s, hs, hline ▸ hlx, hline ▸ h⟩

/-- The last line of a section is not covered if a sentence goes on to it from the line above. -/
theorem ingest_leaves_wrapped_line :
    let source := "# T\n<!-- @suppress -->\nOne\ntwo.\n"
    let ls := Source.numberedLines source
    ∃ i, ingest (SymbolTable.builtin .english) source = .ok i ∧
      ∃ d ∈ i.directives, (Scope.of i.document).shares d.anchor d.anchor = true ∧
        ∃ x ∈ ls, x.1 = .text ['t', 'w', 'o', '.'] ∧ d.anchor ≤ x.2 ∧
          Source.Unbroken ls d.anchor x.2 ∧ d.admits "Spelling" = true ∧
          d.triggersAt i.document x.2 "Spelling" = false := by
  intro source ls
  refine ⟨_, ingest_eq _ source, ⟨.suppress, 3, none, []⟩, ?_, ?_, (.text _, 4), ?_, rfl,
    ?_, ?_, ?_, ?_⟩
  · decide +kernel
  · decide +kernel
  · decide +kernel
  · decide
  · unfold Source.Unbroken
    decide +kernel
  · decide +kernel
  · decide +kernel

/-- An ingested directive is anchored on a heading, an item or text, and it triggers there iff a
section covers the line. That is so wherever the line has text. A heading or item without text has
no sentence of its own: the line of such a heading is never covered, and that of such an item only
between sentences of its section. A directive that does not trigger there triggers nowhere. -/
theorem ingest_reaches_anchor (t : SymbolTable) (source : String) :
    let ls := Source.numberedLines source
    ∃ i, ingest t source = .ok i ∧
      ∀ d ∈ i.directives, ∃ x ∈ ls, x.2 = d.anchor ∧ x.1.isContent = true ∧
        (∀ v, d.triggersAt i.document d.anchor v = true ↔
          d.admits v = true ∧ i.document.Covers d.anchor) ∧
        (∀ l v, d.triggersAt i.document l v = true →
          d.triggersAt i.document d.anchor v = true) ∧
        (x.1.content ≠ [] → i.document.Covers d.anchor) ∧
        (x.1.content = [] → (∃ level, x.1 = .heading level [] ∨ x.1 = .item level []) ∧
          (i.document.Covers d.anchor ↔
            ∃ s ∈ i.document.sentences, ∃ s' ∈ i.document.sentences,
              s.line < d.anchor ∧ d.anchor < s'.line ∧ Source.Unbroken ls s.line s'.line)) ∧
        ∀ level, x.1 = .heading level [] → ¬ i.document.Covers d.anchor := by
  intro ls
  have hls := Source.pairwise_numberedLines source
  refine ⟨_, ingest_eq t source, fun d hd => ?_⟩
  have hbound := Ingested.bound_spec hd
  obtain ⟨x, hx, hanchor, hcontent, hbegins⟩ :=
    Marker.exists_anchor_line hls (Ingested.mem_directives_iff.1 hd)
  have htrimmed := Source.trimmed_of_mem_numberedLines hx
  refine ⟨x, hx, hanchor, hcontent, fun v => ?_, fun l v htriggers => ?_, ?_⟩
  · rw [← Scope.shares_self_iff]
    exact Directive.triggersAt_iff_shares hls hbound
  · obtain ⟨hv, hshares⟩ := (Directive.triggersAt_iff_shares hls hbound).1 htriggers
    exact (Directive.triggersAt_iff_shares hls hbound).2 ⟨hv, Scope.shares_self_of_shares hshares⟩
  rw [← hanchor]
  refine ⟨fun hne => ?_, fun hnil => ⟨?_, ?_⟩, fun level hh => ?_⟩
  · exact Document.covers_of_begins hls (htrimmed.isBlankText_content hne) (hbegins hne)
  · exact htrimmed.of_content_nil hcontent hnil
  · exact Document.covers_iff_of_content_eq_nil hls hx hnil
  · exact Document.not_covers_of_heading hls hx hh

/-- A directive above a heading without text triggers on no line, and no warning says so. -/
theorem ingest_misses_empty_heading :
    let source := "<!-- @suppress -->\n##\nText.\n"
    ∃ i, ingest (SymbolTable.builtin .english) source = .ok i ∧ i.warnings = [] ∧
      ∃ d ∈ i.directives, (.heading 2 [], d.anchor) ∈ Source.numberedLines source ∧
        d.admits "Spelling" = true ∧ d.triggersAt i.document d.anchor "Spelling" = false := by
  intro source
  refine ⟨_, ingest_eq _ source, ?_, ⟨.suppress, 2, none, []⟩, ?_, ?_, ?_, ?_⟩
  · decide +kernel
  · decide +kernel
  · decide +kernel
  · decide +kernel
  · decide +kernel

end ProseLint
