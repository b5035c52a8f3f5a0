import ProseLint.Proofs.Shift

/-!
# Sources put together

What two sources give when one follows the other. Further lines leave all sections but the last one
as they are (`passages_prefix`), and a heading that is not deeper than any above it starts new
sections (`sections_append_heading`). Likewise the ledger keeps what it has entered, which is what
a heading has bounded or a marker itself has caused (`Entered`), and a heading settles all that is
anchored above it (`ofLines_append_heading`).
-/

namespace ProseLint
open Source (Line firstBelow?)
open Source.Line (isHeading)

/-! ### Sections -/

namespace Stretch

/-- Lines that follow go on with the last stretch of those above. -/
theorem cut_append (s : Stretch) (ls : List (Line × Nat)) :
    ∃ cs c, s.cut ls = cs ++ [c] ∧ ∀ ls', s.cut (ls ++ ls') = cs ++ c.cut ls' := by
  induction s, ls using cut.induct with
  | case1 s => exact ⟨[], s, rfl, fun ls' => rfl⟩
  | case2 s level text n ls ih =>
    obtain ⟨cs, c, hcut, happend⟩ := ih
    refine ⟨s :: cs, c, by rw [cut, hcut, List.cons_append], fun ls' => ?_⟩
    rw [List.cons_append, cut, happend, List.cons_append]
  | case3 s x ls hx ih =>
    obtain ⟨cs, c, hcut, happend⟩ := ih
    refine ⟨cs, c, ?_, fun ls' => ?_⟩
    · rw [cut, hcut]
      exact hx
    · rw [List.cons_append, cut, happend]
      exact hx

end Stretch

namespace Outline
variable {k : Splitter} {ls : List (Line × Nat)}

theorem adopt_append {p : Passage} {s : Section} (h : ¬ p.level < s.own.level)
    (ss ts : List Section) : adopt p (ss ++ s :: ts) = adopt p ss ++ s :: ts := by
  have hcut : (ss ++ s :: ts).takeWhile (p.level < ·.own.level) =
        ss.takeWhile (p.level < ·.own.level) ∧
      (ss ++ s :: ts).dropWhile (p.level < ·.own.level) =
        ss.dropWhile (p.level < ·.own.level) ++ s :: ts := by
    induction ss with
    | nil => simp [h]
    | cons t ss ih => by_cases ht : p.level < t.own.level <;> simp [ht, ih]
  rw [adopt, hcut.1, hcut.2]
  rfl

/-- A passage that is not deeper than any before it opens a tree of its own. -/
theorem nest_append {ps : List Passage} {q : Passage} (qs : List Passage)
    (h : ∀ p ∈ ps, q.level ≤ p.level) : nest (ps ++ q :: qs) = nest ps ++ nest (q :: qs) := by
  induction ps with
  | nil => rfl
  | cons p ps ih =>
    obtain ⟨hp, hps⟩ := List.forall_mem_cons.1 h
    show adopt p (nest (ps ++ q :: qs)) = _
    rw [ih hps]
    exact adopt_append (Nat.not_lt.2 hp) _ _

theorem passages_append_heading (level n : Nat) (text : List Char) (ls ls' : List (Line × Nat)) :
    ∃ qs, passages k ((.heading level text, n) :: ls') = { level := 0 } :: qs ∧
      passages k (ls ++ (.heading level text, n) :: ls') = passages k ls ++ qs := by
  obtain ⟨cs, c, hcut, happend⟩ := Stretch.cut_append {} ls
  refine ⟨(Stretch.cut ⟨some (level, n, text), []⟩ ls').map (·.passage k), ?_, ?_⟩
  · rw [passages_eq]
    rfl
  · rw [passages_eq, passages_eq, stretches, stretches, hcut, happend, Stretch.cut,
      List.map_append, List.map_append, List.append_assoc]
    rfl

/-- The first passage is the one above all headings; the others have the levels of the headings. -/
theorem exists_passages_eq_levels (k : Splitter) (ls : List (Line × Nat)) :
    ∃ p ps, passages k ls = p :: ps ∧ ps.map (·.level) = (Source.headings ls).map (·.1) := by
  have htitles := titles_passages k ls
  cases h : passages k ls with
  | nil => rw [h] at htitles; cases htitles
  | cons p ps =>
    rw [h] at htitles
    have hps := congrArg (List.map Prod.fst) (List.cons.inj htitles).2
    rw [List.map_map, List.map_map] at hps
    exact ⟨p, ps, rfl, hps⟩

/-- The sections of a heading that is not deeper than any above it, and of what follows, come after
those of the lines above. -/
theorem sections_append_heading {level n : Nat} {text : List Char} {ls' : List (Line × Nat)}
    (h : ∀ l ∈ Source.headings ls, level ≤ l.1) :
    sections k (ls ++ (.heading level text, n) :: ls') =
      sections k ls ++ sections k ((.heading level text, n) :: ls') := by
  obtain ⟨p, ps, habove, hlevels⟩ := exists_passages_eq_levels k ls
  obtain ⟨p', qs, hbelow, hlevels'⟩ :=
    exists_passages_eq_levels k ((.heading level text, n) :: ls')
  obtain ⟨qs', hempty, happend⟩ := passages_append_heading (k := k) level n text ls ls'
  obtain ⟨rfl, rfl⟩ : p' = { level := 0 } ∧ qs = qs' := List.cons.inj (hbelow.symm.trans hempty)
  obtain ⟨q, qs, rfl⟩ : ∃ q rest, qs = q :: rest := by
    cases qs with
    | nil => cases hlevels'
    | cons q rest => exact ⟨q, rest, rfl⟩
  have hq : q.level = level := (List.cons.inj hlevels').1
  have hps : ∀ p ∈ ps, q.level ≤ p.level := by
    intro p hp
    have hmem : p.level ∈ (Source.headings ls).map (·.1) := hlevels ▸ List.mem_map_of_mem hp
    obtain ⟨l, hl, heq⟩ := List.mem_map.1 hmem
    exact hq ▸ heq ▸ h l hl
  have hall : passages k (ls ++ (.heading level text, n) :: ls') = p :: (ps ++ q :: qs) := by
    rw [happend, habove, List.cons_append]
  rw [sections_eq_append hall, sections_eq_append habove, sections_eq_append hempty,
    nest_append qs hps, List.append_assoc]
  rfl

theorem passages_prefix (k : Splitter) (ls ls' : List (Line × Nat)) :
    (Document.passages ⟨sections k ls⟩).dropLast <+:
      Document.passages ⟨sections k (ls ++ ls')⟩ := by
  have hpassages : ∀ ls, Document.passages ⟨sections k ls⟩ =
      ((stretches ls).filter (·.counts k)).map (·.passage k) := by
    intro ls
    rw [Document.passages, Document.sections_eq, preorders_sections]
  obtain ⟨cs, c, hcut, happend⟩ := Stretch.cut_append {} ls
  obtain ⟨c₀, cs₀, hcut₀, -, hheaded⟩ := Stretch.cut_eq_cons {} ls
  rw [hpassages, hpassages, stretches, stretches, hcut, happend, List.filter_append,
    List.filter_append, List.map_append, List.map_append]
  cases hc : c.counts k with
  | true =>
    rw [List.filter_singleton, hc, cond_true, List.map_singleton, List.dropLast_concat]
    exact List.prefix_append ..
  | false =>
    -- only the stretch above all headings may not count, so nothing is before `c`
    have hcs : cs = [] := by
      cases cs with
      | nil => rfl
      | cons d cs =>
        have hmem : c ∈ cs₀ := by
          have htail := (List.cons.inj (hcut.symm.trans hcut₀)).2
          exact htail ▸ List.mem_append_right _ (List.mem_singleton_self c)
        rw [Stretch.counts, hheaded c hmem, Bool.true_or] at hc
        cases hc
    rw [hcs, List.filter_singleton, hc]
    exact List.nil_prefix

end Outline

/-! ### Directives and warnings -/

/-- The warning is given where the marker is read. -/
def Warning.isAtMarker : Warning → Bool
  | emptyMarker _ | unknownKind _ _ => true
  | noContent _ | invalid _ _ => false

/-- The directive with the bound `b`, unless it has one already. -/
def Directive.boundBy (b : LineNumber) (d : Directive) : Directive :=
  { d with bound? := d.bound?.or (some b) }

theorem Marker.isAtMarker_of_read_error {n : LineNumber} {text : List Char} {w : Warning}
    (h : read n text = .error w) : w.isAtMarker = true := by
  obtain ⟨hlate, hinvalid⟩ := read_error h
  cases w with
  | emptyMarker m => rfl
  | unknownKind m e => rfl
  | noContent m => cases hlate
  | invalid m e => exact absurd rfl (hinvalid m e)

namespace Ledger
variable {l : Ledger} {x : Line × Nat} {ls ls' : List (Line × Nat)}

/-- What is in the books while lines are read: directives that a heading has bounded, and warnings
given at their markers. -/
structure Entered (l : Ledger) : Prop where
  directives : ∀ d ∈ l.directives, d.bound?.isSome
  warnings : ∀ w ∈ l.warnings, w.isAtMarker = true

namespace Entered

theorem heading (h : Behind l (x :: ls)) (he : Entered l) : Entered (l.heading x.2) := by
  rw [heading_eq fun a ha => h.anchored a ha x (List.mem_cons_self ..)]
  refine ⟨fun d hd => ?_, he.warnings⟩
  rcases List.mem_append.1 hd with hd | hd
  · exact he.directives d hd
  · obtain ⟨a, -, rfl⟩ := List.mem_map.1 hd
    rfl

theorem marker (he : Entered l) (n : LineNumber) (text : List Char) :
    Entered (l.marker n text) := by
  rw [Ledger.marker]
  cases hr : Marker.read n text with
  | ok m => exact ⟨he.directives, he.warnings⟩
  | error w =>
    refine ⟨he.directives, fun w' hw' => ?_⟩
    rcases List.mem_append.1 hw' with hw' | hw'
    · exact he.warnings w' hw'
    · rw [List.mem_singleton.1 hw']
      exact Marker.isAtMarker_of_read_error hr

theorem readLine (h : Behind l (x :: ls)) (he : Entered l) : Entered (l.readLine x) := by
  match x with
  | (.heading _ _, n) => exact he.heading h
  | (.item _ _, n) | (.text _, n) => exact ⟨he.directives, he.warnings⟩
  | (.marker text, n) => exact he.marker n text
  | (.blank, n) | (.comment, n) | (.code, n) => exact he

theorem foldl (h : Behind l (ls ++ ls')) (he : Entered l) :
    Entered (ls.foldl Ledger.readLine l) ∧ Behind (ls.foldl Ledger.readLine l) ls' := by
  induction ls generalizing l with
  | nil => exact ⟨he, h⟩
  | cons x ls ih => exact ih h.readLine (he.readLine h)

end Entered

/-- The lines are read into a ledger that the lines below go on from. -/
theorem ofLines_append (h : (ls ++ ls').Pairwise (·.2 < ·.2)) :
    ∃ l : Ledger, Entered l ∧ Behind l ls' ∧ ofLines ls = l.finish ∧
      ofLines (ls ++ ls') = l.close ls' := by
  have hstart : Entered {} :=
    ⟨fun _ hd => absurd hd List.not_mem_nil, fun _ hw => absurd hw List.not_mem_nil⟩
  obtain ⟨hentered, hbehind⟩ := hstart.foldl (behind_nil h)
  refine ⟨ls.foldl readLine {}, hentered, hbehind, rfl, ?_⟩
  rw [ofLines, List.foldl_append, finish_foldl_readLine hbehind]

/-- If no marker waits any more, a heading divides the directives and warnings: it bounds those of
the lines above, and those of the lines below do not depend on them. -/
theorem ofLines_append_heading {level n : Nat} {text : List Char}
    (h : (ls ++ (.heading level text, n) :: ls').Pairwise (·.2 < ·.2))
    (hwaiting : ∀ w ∈ (ofLines ls).2, w.isNoContent = false) :
    ofLines (ls ++ (.heading level text, n) :: ls') =
      ((ofLines ls).1.map (·.boundBy n) ++ (ofLines ((.heading level text, n) :: ls')).1,
        (ofLines ls).2 ++ (ofLines ((.heading level text, n) :: ls')).2) := by
  obtain ⟨l, hentered, hbehind, habove, hall⟩ := ofLines_append h
  have hnone : l.waiting = [] := by
    rw [habove, finish_eq_append] at hwaiting
    cases hl : l.waiting with
    | nil => rfl
    | cons m ms => exact absurd (hwaiting (.noContent m.line) (by simp [hl])) Bool.noConfusion
  -- what is entered has its bound already, so the heading changes what is anchored only
  have hkept : l.directives.map (·.boundBy n) = l.directives := by
    conv_rhs => rw [← List.map_id l.directives]
    refine List.map_congr_left fun d hd => ?_
    obtain ⟨b, hb⟩ := Option.isSome_iff_exists.1 (hentered.directives d hd)
    rw [Directive.boundBy, hb, Option.some_or, ← hb]
    rfl
  have hbound : l.anchored.map (fun a => a.draft.directive
      (firstBelow? isHeading a.draft.anchor ((.heading level text, n) :: ls'))) =
        (l.anchored.map (·.draft.directive none)).map (·.boundBy n) := by
    rw [List.map_map]
    refine List.map_congr_left fun a ha => ?_
    have hlt : a.draft.anchor < n := hbehind.anchored a ha _ (List.mem_cons_self ..)
    rw [Source.firstBelow?_cons_of_lt hbehind.rising hlt rfl]
    rfl
  rw [hall, habove, finish_eq_append, close, pending, hbound, hnone, ofLines_eq hbehind.rising]
  simp [hkept, List.append_assoc]

/-- Further lines leave the bounded directives and the warnings given at markers in front. -/
theorem ofLines_prefix (h : (ls ++ ls').Pairwise (·.2 < ·.2)) :
    (ofLines ls).1.filter (·.bound?.isSome) <+: (ofLines (ls ++ ls')).1 ∧
      (ofLines ls).2.filter (·.isAtMarker) <+: (ofLines (ls ++ ls')).2 := by
  obtain ⟨l, hentered, -, habove, hall⟩ := ofLines_append h
  have hdirectives : (ofLines ls).1.filter (·.bound?.isSome) = l.directives := by
    rw [habove, finish_eq_append, List.filter_append, List.filter_eq_self.2 hentered.directives,
      List.filter_eq_nil_iff.2 (by simp [Draft.directive]), List.append_nil]
  have hwarnings : (ofLines ls).2.filter (·.isAtMarker) = l.warnings := by
    rw [habove, finish_eq_append, List.filter_append, List.filter_eq_self.2 hentered.warnings,
      List.filter_eq_nil_iff.2 (by simp [Warning.isAtMarker]), List.append_nil]
  rw [hdirectives, hwarnings, hall, close, List.append_assoc]
  exact ⟨List.prefix_append .., List.prefix_append ..⟩

end Ledger

/-! ### Ingestion -/

namespace Source
variable {source : String}

theorem level_pos_of_mem_headings {l : Nat × TextLine} (h : l ∈ headings (numberedLines source)) :
    0 < l.1 := by
  obtain ⟨x, hx, heq⟩ := List.mem_filterMap.1 h
  split at heq <;> cases heq
  exact level_pos_of_mem_numberedLines hx

end Source

/-- Below a source that ends with its last line, leaves no fence open and no marker waiting, a
source that starts with a heading of level 1 is ingested on its own: its sections, directives and
warnings follow those above, moved down by the lines above, and its heading bounds the directives
above that were unbounded. -/
theorem ingest_append (t : SymbolTable) {s₁ s₂ : String} {text : List Char}
    (hend : Source.EndsLine s₁.toList) (hfence : Source.openFence? s₁ = none)
    (hheading : (Source.numberedLines s₂).head? = some (.heading 1 text, 1)) :
    let n := Source.lineCount s₁
    ∃ i₁ i₂ i, ingest t s₁ = .ok i₁ ∧ ingest t s₂ = .ok i₂ ∧ ingest t (s₁ ++ s₂) = .ok i ∧
      i.document.topSections =
        i₁.document.topSections ++ i₂.document.topSections.map (·.shift n) ∧
      ((∀ w ∈ i₁.warnings, w.isNoContent = false) →
        i.directives =
          i₁.directives.map (·.boundBy (n + 1)) ++ i₂.directives.map (·.shift n) ∧
        i.warnings = i₁.warnings ++ i₂.warnings.map (·.shift n)) := by
  intro n
  obtain ⟨ls, hls⟩ : ∃ ls, Source.numberedLines s₂ = (.heading 1 text, 1) :: ls :=
    ⟨_, (List.eq_cons_of_mem_head? hheading)⟩
  have hshift : Source.shift n (Source.numberedLines s₂) =
      (.heading 1 text, n + 1) :: Source.shift n ls := by
    rw [hls, Nat.add_comm]
    rfl
  have hlines : Source.numberedLines (s₁ ++ s₂) =
      Source.numberedLines s₁ ++ (.heading 1 text, n + 1) :: Source.shift n ls := by
    rw [← hshift]
    exact Source.numberedLines_append_of_closed hend hfence s₂
  have hrising := Source.pairwise_numberedLines (s₁ ++ s₂)
  rw [hlines] at hrising
  have hsections : Outline.sections (Splitter.of t) (Source.numberedLines (s₁ ++ s₂)) =
      Outline.sections (Splitter.of t) (Source.numberedLines s₁) ++
        (Outline.sections (Splitter.of t) (Source.numberedLines s₂)).map (·.shift n) := by
    rw [hlines, Outline.sections_append_heading fun l hl => Source.level_pos_of_mem_headings hl,
      ← hshift, Outline.sections_shift]
  refine ⟨_, _, _, ingest_eq t s₁, ingest_eq t s₂, ingest_eq t (s₁ ++ s₂), ?_, fun hwaiting => ?_⟩
  · simp only [Ingested.ofSource, hsections]
  · have hledger := Ledger.ofLines_append_heading hrising hwaiting
    rw [← hlines, ← hshift, Ledger.ofLines_shift n (Source.pairwise_numberedLines s₂)] at hledger
    simp only [Ingested.ofSource, hledger, and_self]

/-- A preamble and a directive without a bound above, a marker without content below. -/
theorem ingest_append_heading_below :
    let s₁ := "I.\n# A\n<!-- @suppress -->\nO.\n<!-- @ -->\n"
    let s₂ := "# B\nT.\n<!-- @suppress -->\n"
    ∃ i, ingest (SymbolTable.builtin .english) (s₁ ++ s₂) = .ok i ∧
      i.document.topSections.map (·.own) =
        [{ level := 0, paragraphs := [[⟨"I.", 1⟩]] },
          { level := 1, header := [⟨"A", 2⟩], paragraphs := [[⟨"O.", 4⟩]] },
          { level := 1, header := [⟨"B", 6⟩], paragraphs := [[⟨"T.", 7⟩]] }] ∧
      i.directives = [⟨.suppress, 4, some 6, []⟩] ∧
      i.warnings = [.emptyMarker 5, .noContent 8] := by
  intro s₁ s₂
  have hend : Source.EndsLine s₁.toList := .inr ⟨s₁.toList.dropLast, by decide +kernel⟩
  have hfence : Source.openFence? s₁ = none := by decide +kernel
  have hheading : (Source.numberedLines s₂).head? = some (.heading 1 ['B'], 1) := by
    decide +kernel
  obtain ⟨i₁, i₂, i, h₁, h₂, h, htop, hrest⟩ :=
    ingest_append (SymbolTable.builtin .english) hend hfence hheading
  obtain rfl := Except.ok.inj ((ingest_eq _ s₁).symm.trans h₁)
  obtain rfl := Except.ok.inj ((ingest_eq _ s₂).symm.trans h₂)
  obtain ⟨hdirectives, hwarnings⟩ := hrest (by decide +kernel)
  refine ⟨i, h, ?_, ?_, ?_⟩
  · rw [htop]
    decide +kernel
  · rw [hdirectives]
    decide +kernel
  · rw [hwarnings]
    decide +kernel

/-- Whatever follows a source that ends with its last line, its bounded directives and the warnings
given at its markers stay in front, and all its sections but the last one stay as they are. -/
theorem ingest_prefix (t : SymbolTable) {s₁ : String} (hend : Source.EndsLine s₁.toList)
    (s₂ : String) :
    ∃ i₁ i, ingest t s₁ = .ok i₁ ∧ ingest t (s₁ ++ s₂) = .ok i ∧
      i₁.directives.filter (·.bound?.isSome) <+: i.directives ∧
      i₁.warnings.filter (·.isAtMarker) <+: i.warnings ∧
      i₁.document.passages.dropLast <+: i.document.passages := by
  obtain ⟨ls, hlines⟩ : ∃ ls, Source.numberedLines (s₁ ++ s₂) = Source.numberedLines s₁ ++ ls :=
    ⟨_, Source.numberedLines_append hend s₂⟩
  have hrising := Source.pairwise_numberedLines (s₁ ++ s₂)
  rw [hlines] at hrising
  obtain ⟨hdirectives, hwarnings⟩ := Ledger.ofLines_prefix hrising
  have hpassages := Outline.passages_prefix (Splitter.of t) (Source.numberedLines s₁) ls
  rw [← hlines] at hdirectives hwarnings hpassages
  refine ⟨_, _, ingest_eq t s₁, ingest_eq t (s₁ ++ s₂), ?_⟩
  simp only [Ingested.ofSource]
  exact ⟨hdirectives, hwarnings, hpassages⟩

theorem ingest_prefix_below_open_fence :
    let s₁ := "# A\n<!-- @suppress -->\nO.\n# B\n<!-- @ -->\n<!-- @suppress -->\n~~~\n"
    let s₂ := "# C\n~~~\nT.\n"
    ∃ i, ingest (SymbolTable.builtin .english) (s₁ ++ s₂) = .ok i ∧
      [⟨.suppress, 3, some 4, []⟩] <+: i.directives ∧ [.emptyMarker 5] <+: i.warnings ∧
      [{ level := 1, header := [⟨"A", 1⟩], paragraphs := [[⟨"O.", 3⟩]] }] <+:
        i.document.passages := by
  intro s₁ s₂
  have hend : Source.EndsLine s₁.toList := .inr ⟨s₁.toList.dropLast, by decide +kernel⟩
  obtain ⟨i₁, i, h₁, h, hdirectives, hwarnings, hpassages⟩ :=
    ingest_prefix (SymbolTable.builtin .english) hend s₂
  obtain rfl := Except.ok.inj ((ingest_eq _ s₁).symm.trans h₁)
  have hbounded : (Ingested.ofSource (SymbolTable.builtin .english) s₁).directives.filter
      (·.bound?.isSome) = [⟨.suppress, 3, some 4, []⟩] := by decide +kernel
  have hmarkers : (Ingested.ofSource (SymbolTable.builtin .english) s₁).warnings.filter
      (·.isAtMarker) = [.emptyMarker 5] := by decide +kernel
  have hsections : (Ingested.ofSource (SymbolTable.builtin .english) s₁).document.passages.dropLast =
      [{ level := 1, header := [⟨"A", 1⟩], paragraphs := [[⟨"O.", 3⟩]] }] := by decide +kernel
  rw [hbounded] at hdirectives
  rw [hmarkers] at hwarnings
  rw [hsections] at hpassages
  exact ⟨i, h, hdirectives, hwarnings, hpassages⟩

end ProseLint
