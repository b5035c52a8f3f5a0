import Mathlib.Order.Bounds.Basic
import ProseLint.Document

/-!
# Well-formed documents

`build_eq_ok_iff`: sections make a document iff their passages, in pre-order, run down the lines.
`RunsDown` says so without the order in which the checks are made: no block goes up, and of two
passages with sentences the first one ends above the start of the second, whether or not they are
neighbours.
-/

namespace ProseLint

/-- The lines that sentences start on. -/
def linesOf (ss : List Sentence) : Set LineNumber :=
  {n | ∃ x ∈ ss, x.line = n}

/-! ### Spans -/

namespace Span
variable {s t : Span} {ss ts : List Sentence}

theorem foldl_extend (s : Span) (ns : List LineNumber) :
    ns.foldl extend s = ⟨ns.foldl min s.first, ns.foldl max s.last⟩ := by
  induction ns generalizing s with
  | nil => rfl
  | cons n ns ih => rw [List.foldl_cons, ih]; rfl

theorem ofLines?_eq_some_iff {ns : List LineNumber} :
    ofLines? ns = some s ↔ ns.min? = some s.first ∧ ns.max? = some s.last := by
  cases ns with
  | nil => simp [ofLines?]
  | cons n ns =>
    rw [ofLines?, foldl_extend, List.min?_cons', List.max?_cons']
    cases s
    simp

/-- The span reaches from the least of the lines to the greatest. -/
theorem of?_eq_some_iff :
    of? ss = some s ↔ IsLeast (linesOf ss) s.first ∧ IsGreatest (linesOf ss) s.last := by
  rw [of?, ofLines?_eq_some_iff, List.min?_eq_some_iff, List.max?_eq_some_iff]
  simp [IsLeast, IsGreatest, lowerBounds, upperBounds, linesOf]

theorem of?_eq_none_iff : of? ss = none ↔ ss = [] := by
  cases ss <;> simp [of?, ofLines?]

theorem first_le (h : of? ss = some s) {x : Sentence} (hx : x ∈ ss) : s.first ≤ x.line :=
  (of?_eq_some_iff.1 h).1.2 ⟨x, hx, rfl⟩

theorem le_last (h : of? ss = some s) {x : Sentence} (hx : x ∈ ss) : x.line ≤ s.last :=
  (of?_eq_some_iff.1 h).2.2 ⟨x, hx, rfl⟩

theorem exists_first (h : of? ss = some s) : ∃ x ∈ ss, x.line = s.first :=
  (of?_eq_some_iff.1 h).1.1

theorem exists_last (h : of? ss = some s) : ∃ x ∈ ss, x.line = s.last :=
  (of?_eq_some_iff.1 h).2.1

theorem first_le_last (h : of? ss = some s) : s.first ≤ s.last := by
  obtain ⟨x, hx, hl⟩ := exists_first h
  exact hl ▸ le_last h hx

theorem of?_mono (h : of? ss = some s) (hsub : ∀ x ∈ ss, x ∈ ts) :
    ∃ t, of? ts = some t ∧ t.first ≤ s.first ∧ s.last ≤ t.last := by
  obtain ⟨x, hx, hfirst⟩ := exists_first h
  obtain ⟨y, hy, hlast⟩ := exists_last h
  cases ht : of? ts with
  | none =>
    have := hsub x hx
    rw [of?_eq_none_iff.1 ht] at this
    exact absurd this List.not_mem_nil
  | some t => exact ⟨t, rfl, hfirst ▸ first_le ht (hsub x hx), hlast ▸ le_last ht (hsub y hy)⟩

end Span

namespace Passage
variable {p : Passage} {s : Span}

theorem mem_blocks {b : List Sentence} :
    b ∈ p.blocks ↔
      b = p.header ∨ b ∈ p.paragraphs ∨ ∃ is ∈ p.lists, ∃ i ∈ is, i.sentences = b := by
  simp only [blocks, List.cons_append, List.mem_cons, List.mem_append, List.mem_map,
    List.mem_flatten]
  constructor
  · rintro (h | h | ⟨i, ⟨is, his, hi⟩, rfl⟩)
    exacts [.inl h, .inr (.inl h), .inr (.inr ⟨is, his, i, hi, rfl⟩)]
  · rintro (h | h | ⟨is, his, i, hi, rfl⟩)
    exacts [.inl h, .inr (.inl h), .inr (.inr ⟨i, ⟨is, his, hi⟩, rfl⟩)]

theorem forall_mem_blocks {P : List Sentence → Prop} :
    (∀ b ∈ p.blocks, P b) ↔
      P p.header ∧ (∀ b ∈ p.paragraphs, P b) ∧ ∀ is ∈ p.lists, ∀ i ∈ is, P i.sentences := by
  simp only [mem_blocks]
  constructor
  · intro h
    refine ⟨h _ (.inl rfl), fun b hb => h b (.inr (.inl hb)), fun is his i hi => ?_⟩
    exact h _ (.inr (.inr ⟨is, his, i, hi, rfl⟩))
  · rintro ⟨hheader, hparagraphs, hitems⟩ b (rfl | hb | ⟨is, his, i, hi, rfl⟩)
    exacts [hheader, hparagraphs b hb, hitems is his i hi]

theorem mem_sentences {x : Sentence} : x ∈ p.sentences ↔ ∃ b ∈ p.blocks, x ∈ b :=
  List.mem_flatten

theorem span?_of_block {b : List Sentence} (hb : b ∈ p.blocks) (h : Span.of? b = some s) :
    ∃ t, p.span? = some t ∧ t.first ≤ s.first ∧ s.last ≤ t.last :=
  Span.of?_mono h fun _ hx => mem_sentences.2 ⟨b, hb, hx⟩

end Passage

/-! ### Pre-order -/

namespace Section

theorem preorders_append (ss ts : List Section) :
    preorders (ss ++ ts) = preorders ss ++ preorders ts := by
  induction ss with
  | nil => rfl
  | cons s ss ih => rw [List.cons_append, preorders, preorders, ih, List.append_assoc]

theorem preorders_cons (s : Section) (ss : List Section) :
    preorders (s :: ss) = s :: preorders (s.subsections ++ ss) := by
  cases s
  rw [preorders, preorder, List.cons_append, preorders_append]

end Section

theorem Walk.toList_eq (w : Walk) : w.toList = Section.preorders w.pending := by
  induction w using Walk.toList.induct with
  | case1 w h =>
    rw [toList_of_next?_eq_none h, next?_eq_none_iff.1 h, Section.preorders]
  | case2 w s w' h ih =>
    obtain ⟨ss, hw, hw'⟩ := next?_eq_some_iff.1 h
    rw [toList_of_next? h, ih, hw, hw', Section.preorders_cons]

namespace Document
variable {d : Document}

theorem sections_eq : d.sections = Section.preorders d.topSections :=
  Walk.toList_eq _

theorem mem_passages {p : Passage} :
    p ∈ d.passages ↔ ∃ s ∈ Section.preorders d.topSections, s.own = p := by
  rw [passages, sections_eq, List.mem_map]

/-! ### Building -/

/-- The text of the passages runs down the lines. -/
structure RunsDown (ps : List Passage) : Prop where
  /-- Within a block no sentence starts above the one before. -/
  blocks : ∀ p ∈ ps, ∀ b ∈ p.blocks, b.Pairwise (·.line ≤ ·.line)
  /-- A passage ends above the start of every later one, passages without sentences left out. -/
  spans : (ps.filterMap Passage.span?).Pairwise (·.last < ·.first)

theorem checkBlock_eq_ok_iff {b : List Sentence} :
    checkBlock b = .ok () ↔ b.Pairwise (·.line ≤ ·.line) := by
  induction b using checkBlock.induct with
  | case1 s t ss h => simp [checkBlock, h]
  | case2 s t ss h ih =>
    rw [checkBlock, if_neg h, ih, List.pairwise_cons (a := s)]
    refine ⟨fun hp => ⟨fun x hx => ?_, hp⟩, (·.2)⟩
    rcases List.mem_cons.1 hx with rfl | hx
    · exact Nat.le_of_not_lt h
    · exact Nat.le_trans (Nat.le_of_not_lt h) (List.rel_of_pairwise_cons hp hx)
  | case3 b h =>
    match b with
    | [] | [_] => simp [checkBlock]
    | s :: t :: ss => exact absurd rfl (h s t ss)

theorem forM_checkBlock_eq_ok_iff {bs : List (List Sentence)} :
    bs.forM checkBlock = .ok () ↔ ∀ b ∈ bs, b.Pairwise (·.line ≤ ·.line) := by
  induction bs with
  | nil => simp [List.forM, pure, Except.pure]
  | cons b bs ih =>
    show (checkBlock b >>= fun _ => bs.forM checkBlock) = _ ↔ _
    rw [List.forall_mem_cons, ← ih, ← checkBlock_eq_ok_iff]
    cases checkBlock b <;> simp [bind, Except.bind]

theorem runsDown_nil : RunsDown [] := ⟨by simp, by simp⟩

theorem runsDown_cons {p : Passage} {ps : List Passage} :
    RunsDown (p :: ps) ↔ (∀ b ∈ p.blocks, b.Pairwise (·.line ≤ ·.line)) ∧
      (∀ s ∈ p.span?, ∀ t ∈ ps.filterMap Passage.span?, s.last < t.first) ∧ RunsDown ps := by
  have hspans : ((p :: ps).filterMap Passage.span?).Pairwise (·.last < ·.first) ↔
      (∀ s ∈ p.span?, ∀ t ∈ ps.filterMap Passage.span?, s.last < t.first) ∧
        (ps.filterMap Passage.span?).Pairwise (·.last < ·.first) := by
    cases h : p.span? with
    | none => simp [List.filterMap_cons_none h]
    | some s => rw [List.filterMap_cons_some h, List.pairwise_cons]; simp
  constructor
  · intro h
    obtain ⟨h1, h2⟩ := hspans.1 h.spans
    exact ⟨h.blocks p (by simp), h1, fun q hq => h.blocks q (by simp [hq]), h2⟩
  · rintro ⟨hp, hs, h⟩
    exact ⟨List.forall_mem_cons.2 ⟨hp, h.blocks⟩, hspans.2 ⟨hs, h.spans⟩⟩

/-- The check compares each passage with the last one before it that has sentences; that one ends
below all passages before it. -/
theorem checkPassages_eq_ok_iff {e? : Option LineNumber} {ps : List Passage} :
    checkPassages e? ps = .ok () ↔
      RunsDown ps ∧ ∀ e ∈ e?, ∀ s ∈ ps.filterMap Passage.span?, e < s.first := by
  induction ps generalizing e? with
  | nil => simp [checkPassages, runsDown_nil]
  | cons p ps ih =>
    unfold checkPassages
    rw [runsDown_cons, ← forM_checkBlock_eq_ok_iff]
    cases hb : p.blocks.forM checkBlock with
    | error => simp [bind, Except.bind]
    | ok =>
      dsimp only [bind, Except.bind]
      cases hs : p.span? with
      | none => simp [ih, List.filterMap_cons_none hs]
      | some s =>
        have hle : s.first ≤ s.last := Span.first_le_last hs
        rw [List.filterMap_cons_some hs]
        cases e? with
        | none => simp [ih, and_comm]
        | some e =>
          by_cases he : s.first ≤ e
          · simp [he]
          · simp only [he, if_false, ih, Option.mem_def, Option.some.injEq, forall_eq',
              List.forall_mem_cons, true_and]
            constructor
            · rintro ⟨h, hlast⟩
              have he' : e < s.first := Nat.lt_of_not_le he
              exact ⟨⟨hlast, h⟩, he', fun t ht =>
                Nat.lt_trans he' (Nat.lt_of_le_of_lt hle (hlast t ht))⟩
            · rintro ⟨⟨hlast, h⟩, -⟩
              exact ⟨h, hlast⟩

theorem build_eq_ok_iff {ss : List Section} :
    build ss = .ok d ↔ d = ⟨ss⟩ ∧ RunsDown ((Section.preorders ss).map (·.own)) := by
  have hc : checkPassages none (passages ⟨ss⟩) = .ok () ↔
      RunsDown ((Section.preorders ss).map (·.own)) := by
    rw [checkPassages_eq_ok_iff, passages, sections_eq]
    simp
  rw [build, ← hc]
  cases checkPassages none (passages ⟨ss⟩) <;>
    simp [bind, Except.bind, pure, Except.pure, eq_comm]

end Document

end ProseLint
