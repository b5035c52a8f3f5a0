import ProseLint.Proofs.Scope

/-!
# Which sections make a document

`build_outcome`: sections are accepted iff no block goes up and any two sections that own sentences
lie one below the other, and the error names the fault that is met first (`FirstFault`). The check
keeps only the last line of the section with sentences before, so it is one step (`checkPassage`)
repeated over the passages (`checkPassages_eq_foldlM`), and a run fails where its first failing step
does (`foldlM_eq_error_iff`). `exists_build_iff` and `build_eq_lineOrder_iff` say the same of the
header, the paragraphs and the items in place of blocks.
-/

namespace ProseLint

/-! ### Runs that may fail -/

section
variable {ε α β : Type} {f : β → α → Except ε β} {a b : β} {e : ε} {l l' : List α}

theorem foldlM_append_of_ok (h : l.foldlM f a = .ok b) : (l ++ l').foldlM f a = l'.foldlM f b := by
  rw [List.foldlM_append, h]
  rfl

/-- A run fails with the error of a step that all steps before it lead up to. -/
theorem foldlM_eq_error_iff : l.foldlM f a = .error e ↔
    ∃ above x below b, l = above ++ x :: below ∧ above.foldlM f a = .ok b ∧ f b x = .error e := by
  constructor
  · intro h
    induction l generalizing a with
    | nil => cases h
    | cons x l ih =>
      cases hx : f a x with
      | error e' =>
        rw [List.foldlM_cons, hx] at h
        obtain rfl : e' = e := Except.error.inj h
        exact ⟨[], x, l, a, rfl, rfl, hx⟩
      | ok c =>
        have hone : [x].foldlM f a = .ok c := by
          rw [List.foldlM_cons, hx]
          rfl
        have hrun : ([x] ++ l).foldlM f a = l.foldlM f c := foldlM_append_of_ok hone
        have hrest : l.foldlM f c = .error e := hrun.symm.trans h
        obtain ⟨above, y, below, b, rfl, hb, hy⟩ := ih hrest
        exact ⟨x :: above, y, below, b, rfl, (foldlM_append_of_ok hone).trans hb, hy⟩
  · rintro ⟨above, x, below, b, rfl, hb, hx⟩
    rw [foldlM_append_of_ok hb, List.foldlM_cons, hx]
    rfl

theorem forM_eq_foldlM (f : α → Except ε Unit) (l : List α) :
    l.forM f = l.foldlM (fun _ x => f x) () := by
  induction l with
  | nil => rfl
  | cons x l ih =>
    show (f x >>= fun _ => l.forM f) = _
    rw [ih, List.foldlM_cons]

end

namespace Passage
variable {p : Passage}

theorem exists_span? {n : LineNumber} (h : n ∈ p.lines) : ∃ w, p.span? = some w := by
  obtain ⟨x, hx, -⟩ := h
  cases hs : p.span? with
  | some w => exact ⟨w, rfl⟩
  | none =>
    rw [Span.of?_eq_none_iff.1 hs] at hx
    exact absurd hx List.not_mem_nil

/-- `b` is the header, a paragraph or an item, and `before` are those that come before it. -/
inductive Part (p : Passage) : List (List Sentence) → List Sentence → Prop where
  | header : p.Part [] p.header
  | paragraph {before after : List (List Sentence)} {b : List Sentence}
      (h : p.paragraphs = before ++ b :: after) : p.Part (p.header :: before) b
  | item {before after : List Item} {i : Item} (h : p.lists.flatten = before ++ i :: after) :
      p.Part (p.header :: p.paragraphs ++ before.map (·.sentences)) i.sentences

theorem part_iff {before : List (List Sentence)} {b : List Sentence} :
    p.Part before b ↔ ∃ after, p.blocks = before ++ b :: after := by
  constructor
  · intro h
    cases h with
    | header => exact ⟨_, rfl⟩
    | paragraph h => exact ⟨_, by rw [blocks, h, List.cons_append, List.append_assoc]; rfl⟩
    | @item _ after _ h =>
      refine ⟨after.map (·.sentences), ?_⟩
      rw [blocks, h, List.map_append, List.map_cons, ← List.append_assoc]
  · rintro ⟨after, h⟩
    rw [blocks] at h
    rcases List.append_eq_append_iff.1 h with ⟨items, rfl, hitems⟩ | ⟨rest, htext, hrest⟩
    · obtain ⟨is, is', his, rfl, his'⟩ := List.map_eq_append_iff.1 hitems
      obtain ⟨i, after', rfl, rfl, -⟩ := List.map_eq_cons_iff.1 his'
      exact .item his
    · cases rest with
      | nil =>
        -- the first item, with the header and all paragraphs before it
        obtain ⟨i, after', his, rfl, -⟩ := List.map_eq_cons_iff.1 hrest.symm
        have hitem : p.Part (p.header :: p.paragraphs ++ [].map Item.sentences) i.sentences :=
          .item his
        rw [List.append_nil] at htext
        rwa [List.map_nil, List.append_nil, htext] at hitem
      | cons c rest =>
        obtain rfl : b = c := (List.cons.inj hrest).1
        cases before with
        | nil =>
          rw [← (List.cons.inj htext).1]
          exact .header
        | cons d before =>
          rw [← (List.cons.inj htext).1]
          exact .paragraph (List.cons.inj htext).2

end Passage

namespace Document
variable {p : Passage} {ps : List Passage} {e : StructureError} {e? : Option LineNumber}

/-! ### Blocks -/

theorem checkBlock_eq_error_iff {b : List Sentence} : checkBlock b = .error e ↔
    ∃ above s t below, b = above ++ s :: t :: below ∧
      (above ++ [s]).Pairwise (·.line ≤ ·.line) ∧ t.line < s.line ∧ e = .lineOrder s.line t.line := by
  induction b using checkBlock.induct with
  | case1 s t ss h =>
    rw [checkBlock, if_pos h]
    constructor
    · intro he
      exact ⟨[], s, t, ss, rfl, List.pairwise_singleton .., h, (Except.error.inj he).symm⟩
    · rintro ⟨_ | ⟨u, us⟩, x, y, below, hb, hpair, hlt, rfl⟩
      · simp only [List.nil_append, List.cons.injEq] at hb
        obtain ⟨rfl, rfl, -⟩ := hb
        rfl
      · -- then `s` and `t` would be in order
        simp only [List.cons_append, List.cons.injEq] at hb
        obtain ⟨rfl, hb⟩ := hb
        have ht : t ∈ us ++ [x] := by
          cases us with
          | nil => simp [(List.cons.inj hb).1]
          | cons v vs => simp [(List.cons.inj hb).1]
        have hle : s.line ≤ t.line := List.rel_of_pairwise_cons hpair ht
        exact absurd h (Nat.not_lt.2 hle)
  | case2 s t ss h ih =>
    rw [checkBlock, if_neg h, ih]
    constructor
    · rintro ⟨above, x, y, below, hb, hpair, hlt, he⟩
      refine ⟨s :: above, x, y, below, by rw [hb, List.cons_append], ?_, hlt, he⟩
      refine List.pairwise_cons.2 ⟨fun z hz => ?_, hpair⟩
      have hst : s.line ≤ t.line := Nat.le_of_not_lt h
      cases above with
      | nil =>
        obtain rfl : t = x := (List.cons.inj hb).1
        rw [List.mem_singleton.1 hz]
        exact hst
      | cons u us =>
        obtain rfl : t = u := (List.cons.inj hb).1
        rcases List.mem_cons.1 hz with rfl | hz
        · exact hst
        · exact Nat.le_trans hst (List.rel_of_pairwise_cons hpair hz)
    · rintro ⟨_ | ⟨u, us⟩, x, y, below, hb, hpair, hlt, he⟩
      · simp only [List.nil_append, List.cons.injEq] at hb
        obtain ⟨rfl, rfl, -⟩ := hb
        exact absurd hlt h
      · exact ⟨us, x, y, below, (List.cons.inj hb).2, hpair.of_cons, hlt, he⟩
  | case3 b h =>
    have hshort : checkBlock b = .ok () ∧ b.length < 2 := by
      rcases b with _ | ⟨s, _ | ⟨t, ss⟩⟩
      · exact ⟨rfl, by simp⟩
      · exact ⟨rfl, by simp⟩
      · exact absurd rfl (h s t ss)
    constructor
    · intro he
      rw [hshort.1] at he
      cases he
    · rintro ⟨above, s, t, below, rfl, -⟩
      have hlength := hshort.2
      simp only [List.length_append, List.length_cons] at hlength
      omega

theorem forM_checkBlock_eq_error_iff {bs : List (List Sentence)} :
    bs.forM checkBlock = .error e ↔ ∃ above b below, bs = above ++ b :: below ∧
      (∀ c ∈ above, c.Pairwise (·.line ≤ ·.line)) ∧ checkBlock b = .error e := by
  rw [forM_eq_foldlM, foldlM_eq_error_iff]
  constructor
  · rintro ⟨above, b, below, ⟨⟩, rfl, habove, hb⟩
    rw [← forM_eq_foldlM, forM_checkBlock_eq_ok_iff] at habove
    exact ⟨above, b, below, rfl, habove, hb⟩
  · rintro ⟨above, b, below, rfl, habove, hb⟩
    rw [← forM_checkBlock_eq_ok_iff, forM_eq_foldlM] at habove
    exact ⟨above, b, below, (), rfl, habove, hb⟩

/-! ### Passages -/

/-- The check of one passage where the one before ended on `e?`; it gives the line that the next
one has to start below. -/
def checkPassage (e? : Option LineNumber) (p : Passage) :
    Except StructureError (Option LineNumber) := do
  p.blocks.forM checkBlock
  match p.span?, e? with
  | none, _ => return e?
  | some w, some n => if w.first ≤ n then .error (.overlap n w.first) else return some w.last
  | some w, none => return some w.last

theorem checkPassages_cons (e? : Option LineNumber) (p : Passage) (ps : List Passage) :
    checkPassages e? (p :: ps) = (checkPassage e? p).bind (checkPassages · ps) := by
  conv_lhs => unfold checkPassages
  unfold checkPassage
  cases p.blocks.forM checkBlock with
  | error => rfl
  | ok =>
    cases p.span? with
    | none => rfl
    | some w =>
      cases e? with
      | none => rfl
      | some n =>
        by_cases hn : w.first ≤ n <;> simp [bind, Except.bind, pure, Except.pure, hn]

theorem checkPassages_eq_foldlM (e? : Option LineNumber) (ps : List Passage) :
    checkPassages e? ps = (ps.foldlM checkPassage e?).map fun _ => () := by
  induction ps generalizing e? with
  | nil => rfl
  | cons p ps ih =>
    rw [checkPassages_cons, List.foldlM_cons]
    cases checkPassage e? p with
    | error => rfl
    | ok c => exact ih c

/-- The last line of the passages if they have sentences, and otherwise `e?`. -/
def lastLine? (e? : Option LineNumber) (ps : List Passage) : Option LineNumber :=
  ((ps.filterMap Passage.span?).getLast?.map (·.last)).or e?

theorem lastLine?_cons (e? : Option LineNumber) (p : Passage) (ps : List Passage) :
    lastLine? e? (p :: ps) = lastLine? ((p.span?.map (·.last)).or e?) ps := by
  have hcons : (p :: ps).filterMap Passage.span? =
      p.span?.toList ++ ps.filterMap Passage.span? := by
    cases hs : p.span? with
    | none => exact List.filterMap_cons_none hs
    | some w => exact List.filterMap_cons_some hs
  rw [lastLine?, lastLine?, hcons, List.getLast?_append]
  cases (ps.filterMap Passage.span?).getLast? <;> cases p.span? <;> rfl

theorem eq_of_checkPassage_eq_ok {e?' : Option LineNumber} (h : checkPassage e? p = .ok e?') :
    e?' = (p.span?.map (·.last)).or e? := by
  unfold checkPassage at h
  cases hb : p.blocks.forM checkBlock with
  | error =>
    rw [hb] at h
    cases h
  | ok =>
    rw [hb] at h
    cases hs : p.span? with
    | none =>
      rw [hs] at h
      exact (Except.ok.inj h).symm
    | some w =>
      rw [hs] at h
      cases e? with
      | none => exact (Except.ok.inj h).symm
      | some n =>
        by_cases hn : w.first ≤ n
        · simp [bind, Except.bind, hn] at h
        · simpa [bind, Except.bind, pure, Except.pure, hn, eq_comm] using h

theorem eq_of_foldlM_checkPassage_eq_ok {e?' : Option LineNumber}
    (h : ps.foldlM checkPassage e? = .ok e?') : e?' = lastLine? e? ps := by
  induction ps generalizing e? with
  | nil => exact (Except.ok.inj h).symm
  | cons p ps ih =>
    rw [List.foldlM_cons] at h
    cases hp : checkPassage e? p with
    | error => rw [hp] at h; cases h
    | ok c =>
      rw [hp] at h
      rw [ih h, lastLine?_cons, eq_of_checkPassage_eq_ok hp]

theorem foldlM_checkPassage_eq_ok_iff {e?' : Option LineNumber} :
    ps.foldlM checkPassage e? = .ok e?' ↔ checkPassages e? ps = .ok () ∧ e?' = lastLine? e? ps := by
  rw [checkPassages_eq_foldlM]
  constructor
  · intro h
    exact ⟨by rw [h]; rfl, eq_of_foldlM_checkPassage_eq_ok h⟩
  · rintro ⟨h, rfl⟩
    cases hr : ps.foldlM checkPassage e? with
    | error => rw [hr] at h; cases h
    | ok c => rw [eq_of_foldlM_checkPassage_eq_ok hr]

theorem checkPassage_eq_error_iff : checkPassage e? p = .error e ↔
    p.blocks.forM checkBlock = .error e ∨
      p.blocks.forM checkBlock = .ok () ∧
        ∃ w n, p.span? = some w ∧ e? = some n ∧ w.first ≤ n ∧ e = .overlap n w.first := by
  unfold checkPassage
  cases p.blocks.forM checkBlock with
  | error e' => simp [bind, Except.bind]
  | ok =>
    cases p.span? with
    | none => simp [bind, Except.bind, pure, Except.pure]
    | some w =>
      cases e? with
      | none => simp [bind, Except.bind, pure, Except.pure]
      | some n =>
        by_cases hn : w.first ≤ n <;>
          simp [bind, Except.bind, pure, Except.pure, hn, eq_comm]

theorem checkPassages_eq_error_iff : checkPassages e? ps = .error e ↔
    ∃ above p below, ps = above ++ p :: below ∧ checkPassages e? above = .ok () ∧
      checkPassage (lastLine? e? above) p = .error e := by
  have hmap : checkPassages e? ps = .error e ↔ ps.foldlM checkPassage e? = .error e := by
    rw [checkPassages_eq_foldlM]
    cases ps.foldlM checkPassage e? <;> simp [Except.map]
  rw [hmap, foldlM_eq_error_iff]
  constructor
  · rintro ⟨above, p, below, c, rfl, habove, hp⟩
    obtain ⟨hok, rfl⟩ := foldlM_checkPassage_eq_ok_iff.1 habove
    exact ⟨above, p, below, rfl, hok, hp⟩
  · rintro ⟨above, p, below, rfl, habove, hp⟩
    exact ⟨above, p, below, _, rfl, foldlM_checkPassage_eq_ok_iff.2 ⟨habove, rfl⟩, hp⟩

theorem lastLine?_none_eq_some_iff {n : LineNumber} : lastLine? none ps = some n ↔
    ∃ above q between, ps = above ++ q :: between ∧ IsGreatest q.lines n ∧
      ∀ r ∈ between, r.sentences = [] := by
  have hempty : ∀ r : Passage, r.span? = none ↔ r.sentences = [] := fun r => Span.of?_eq_none_iff
  rw [lastLine?, Option.or_none, List.getLast?_filterMap, Option.map_eq_some_iff]
  constructor
  · rintro ⟨w, hw, rfl⟩
    obtain ⟨between, q, above, hps, hq, hbetween⟩ := List.findSome?_eq_some_iff.1 hw
    refine ⟨above.reverse, q, between.reverse, ?_, (Passage.span?_eq_some_iff.1 hq).2, ?_⟩
    · rw [← List.reverse_reverse ps, hps]
      simp
    · intro r hr
      exact (hempty r).1 (hbetween r (List.mem_reverse.1 hr))
  · rintro ⟨above, q, between, rfl, hn, hbetween⟩
    obtain ⟨w, hw⟩ := Passage.exists_span? hn.1
    refine ⟨w, List.findSome?_eq_some_iff.2 ⟨between.reverse, q, above.reverse, ?_, hw, ?_⟩, ?_⟩
    · simp
    · intro r hr
      exact (hempty r).2 (hbetween r (List.mem_reverse.1 hr))
    · exact (Passage.span?_eq_some_iff.1 hw).2.unique hn

/-! ### Building -/

/-- The fault that is met first in the order of the passages, where the blocks of a passage are
looked at before its place below the passages above. -/
inductive FirstFault (ps : List Passage) : StructureError → Prop where
  /-- Two neighbours in the first block that goes up, of which the second is the first to do so. -/
  | lineOrder {above below : List Passage} {p : Passage} {bs bs' : List (List Sentence)}
      {ss ss' : List Sentence} {s t : Sentence} (passages : ps = above ++ p :: below)
      (runsDown : RunsDown above) (blocks : p.blocks = bs ++ (ss ++ s :: t :: ss') :: bs')
      (blocksBefore : ∀ b ∈ bs, b.Pairwise (·.line ≤ ·.line))
      (before : (ss ++ [s]).Pairwise (·.line ≤ ·.line)) (up : t.line < s.line) :
      FirstFault ps (.lineOrder s.line t.line)
  /-- A passage in order itself that starts on or above the end of the last one before it that has
  sentences. -/
  | overlap {above between below : List Passage} {q p : Passage} {hi lo : LineNumber}
      (passages : ps = (above ++ q :: between) ++ p :: below)
      (runsDown : RunsDown (above ++ q :: between)) (empty : ∀ r ∈ between, r.sentences = [])
      (blocks : ∀ b ∈ p.blocks, b.Pairwise (·.line ≤ ·.line)) (last : IsGreatest q.lines hi)
      (first : IsLeast p.lines lo) (notBelow : lo ≤ hi) : FirstFault ps (.overlap hi lo)

theorem checkPassages_none_eq_ok_iff : checkPassages none ps = .ok () ↔ RunsDown ps := by
  rw [checkPassages_eq_ok_iff]
  simp

theorem checkPassages_none_eq_error_iff : checkPassages none ps = .error e ↔ FirstFault ps e := by
  rw [checkPassages_eq_error_iff]
  constructor
  · rintro ⟨above, p, below, rfl, habove, hp⟩
    rw [checkPassages_none_eq_ok_iff] at habove
    rcases checkPassage_eq_error_iff.1 hp with hp | ⟨hblocks, w, n, hw, hn, hle, rfl⟩
    · obtain ⟨bs, b, bs', hbs, hbefore, hb⟩ := forM_checkBlock_eq_error_iff.1 hp
      obtain ⟨ss, s, t, ss', rfl, hss, hlt, rfl⟩ := checkBlock_eq_error_iff.1 hb
      exact .lineOrder rfl habove hbs hbefore hss hlt
    · obtain ⟨above, q, between, rfl, hlast, hempty⟩ := lastLine?_none_eq_some_iff.1 hn
      exact .overlap rfl habove hempty (forM_checkBlock_eq_ok_iff.1 hblocks) hlast
        (Passage.span?_eq_some_iff.1 hw).1 hle
  · intro h
    cases h with
    | lineOrder hps habove hbs hbefore hss hlt =>
      refine ⟨_, _, _, hps, checkPassages_none_eq_ok_iff.2 habove, ?_⟩
      refine checkPassage_eq_error_iff.2 (.inl (forM_checkBlock_eq_error_iff.2 ?_))
      exact ⟨_, _, _, hbs, hbefore, checkBlock_eq_error_iff.2 ⟨_, _, _, _, rfl, hss, hlt, rfl⟩⟩
    | @overlap _ _ _ q p hi lo hps habove hempty hblocks hlast hfirst hle =>
      refine ⟨_, _, _, hps, checkPassages_none_eq_ok_iff.2 habove, ?_⟩
      obtain ⟨w, hw⟩ := Passage.exists_span? hfirst.1
      obtain rfl : w.first = lo := (Passage.span?_eq_some_iff.1 hw).1.unique hfirst
      refine checkPassage_eq_error_iff.2 (.inr ⟨forM_checkBlock_eq_ok_iff.2 hblocks, w, hi, hw, ?_⟩)
      exact ⟨lastLine?_none_eq_some_iff.2 ⟨_, q, _, rfl, hlast, hempty⟩, hle, rfl⟩

theorem build_eq (ss : List Section) : build ss =
    (checkPassages none ((Section.preorders ss).map (·.own))).map fun _ => ⟨ss⟩ := by
  have hpassages : passages ⟨ss⟩ = (Section.preorders ss).map (·.own) := by
    rw [passages, sections_eq]
  rw [build, ← hpassages]
  cases checkPassages none (passages ⟨ss⟩) <;> rfl

theorem pairwise_spans_iff {ss : List Section} :
    ((ss.map (·.own)).filterMap Passage.span?).Pairwise (·.last < ·.first) ↔
      ss.Pairwise fun s t => ∀ hi lo, IsGreatest s.own.lines hi → IsLeast t.own.lines lo → hi < lo := by
  rw [List.filterMap_map, List.pairwise_filterMap]
  refine List.Pairwise.iff fun s t => ?_
  constructor
  · intro h hi lo hhi hlo
    obtain ⟨w, hw⟩ := Passage.exists_span? hhi.1
    obtain ⟨v, hv⟩ := Passage.exists_span? hlo.1
    have hlast : w.last = hi := (Passage.span?_eq_some_iff.1 hw).2.unique hhi
    have hfirst : v.first = lo := (Passage.span?_eq_some_iff.1 hv).1.unique hlo
    rw [← hlast, ← hfirst]
    exact h w hw v hv
  · intro h w hw v hv
    exact h w.last v.first (Passage.span?_eq_some_iff.1 hw).2 (Passage.span?_eq_some_iff.1 hv).1

theorem runsDown_own_iff {ss : List Section} :
    RunsDown (ss.map (·.own)) ↔
      (∀ s ∈ ss, ∀ b ∈ s.own.blocks, b.Pairwise (·.line ≤ ·.line)) ∧
      ss.Pairwise fun s t =>
        ∀ hi lo, IsGreatest s.own.lines hi → IsLeast t.own.lines lo → hi < lo := by
  rw [← pairwise_spans_iff]
  constructor
  · intro h
    exact ⟨fun s hs => h.blocks s.own (List.mem_map_of_mem hs), h.spans⟩
  · rintro ⟨hblocks, hspans⟩
    refine ⟨fun p hp => ?_, hspans⟩
    obtain ⟨s, hs, rfl⟩ := List.mem_map.1 hp
    exact hblocks s hs

theorem build_eq_error_iff {ss : List Section} :
    build ss = .error e ↔ FirstFault ((Section.preorders ss).map (·.own)) e := by
  rw [build_eq, ← checkPassages_none_eq_error_iff]
  cases checkPassages none ((Section.preorders ss).map (·.own)) <;> simp [Except.map]

/-- Sections make a document, which holds just them, iff no block goes up and of any two sections
with sentences the first one ends above the start of the second. Otherwise the error is the first
fault in pre-order. -/
theorem build_outcome (ss : List Section) :
    (∀ d, build ss = .ok d ↔ d = ⟨ss⟩ ∧
      (∀ s ∈ Section.preorders ss, ∀ b ∈ s.own.blocks, b.Pairwise (·.line ≤ ·.line)) ∧
      (Section.preorders ss).Pairwise fun s t =>
        ∀ hi lo, IsGreatest s.own.lines hi → IsLeast t.own.lines lo → hi < lo) ∧
    ∀ e, build ss = .error e ↔ FirstFault ((Section.preorders ss).map (·.own)) e := by
  refine ⟨fun d => ?_, fun e => build_eq_error_iff⟩
  rw [build_eq_ok_iff, runsDown_own_iff]

/-! ### Headers, paragraphs and items -/

/-- Sections make a document iff in each the sentences of the header, of every paragraph and of
every item go down the lines, and of any two sections with sentences the first one ends above the
start of the second. -/
theorem exists_build_iff (ss : List Section) :
    (∃ d, build ss = .ok d) ↔
      (∀ s ∈ Section.preorders ss, s.own.header.Pairwise (·.line ≤ ·.line) ∧
        (∀ b ∈ s.own.paragraphs, b.Pairwise (·.line ≤ ·.line)) ∧
        ∀ is ∈ s.own.lists, ∀ i ∈ is, i.sentences.Pairwise (·.line ≤ ·.line)) ∧
      (Section.preorders ss).Pairwise fun s t =>
        ∀ hi lo, IsGreatest s.own.lines hi → IsLeast t.own.lines lo → hi < lo := by
  simp only [build_eq_ok_iff, exists_eq_left, runsDown_own_iff, Passage.forall_mem_blocks]

/-- A fault in the order of the lines names the first two neighbours that go up in the first section
that has such, looked for in its header, then its paragraphs, then its items. -/
theorem build_eq_lineOrder_iff {ss : List Section} {m n : LineNumber} :
    build ss = .error (.lineOrder m n) ↔
      ∃ above s below, Section.preorders ss = above ++ s :: below ∧
        RunsDown (above.map (·.own)) ∧ ∃ before us x y vs, s.own.Part before (us ++ x :: y :: vs) ∧
          (∀ b ∈ before, b.Pairwise (·.line ≤ ·.line)) ∧ (us ++ [x]).Pairwise (·.line ≤ ·.line) ∧
          x.line = m ∧ y.line = n ∧ n < m := by
  rw [build_eq_error_iff]
  constructor
  · intro h
    cases h with
    | lineOrder hps habove hblocks hbefore hus hlt =>
      obtain ⟨above, rest, hss, rfl, hrest⟩ := List.map_eq_append_iff.1 hps
      obtain ⟨s, below, rfl, rfl, -⟩ := List.map_eq_cons_iff.1 hrest
      exact ⟨above, s, below, hss, habove, _, _, _, _, _, Passage.part_iff.2 ⟨_, hblocks⟩, hbefore,
        hus, rfl, rfl, hlt⟩
  · rintro ⟨above, s, below, hss, habove, before, us, x, y, vs, hpart, hbefore, hus, rfl, rfl, hlt⟩
    obtain ⟨after, hblocks⟩ := Passage.part_iff.1 hpart
    exact .lineOrder (by rw [hss, List.map_append, List.map_cons]) habove hblocks hbefore hus hlt

end Document

end ProseLint
