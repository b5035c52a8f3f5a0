import ProseLint.Outline
import ProseLint.Proofs.Document
import ProseLint.Proofs.Splitter

/-!
# The outline, stretch by stretch

A source is cut at its headings into stretches (`stretches`), and each passage is what its own
stretch is read into, whatever comes before and after (`passages_eq`). Reading never mixes the
lines of two blocks: every block of a passage is split from some of the stretch's lines, taken in
order (`Reads`). With lines numbered in order, the passages therefore run down the lines, and so
do the sections that they are nested into (`runsDown_sections`).
-/

namespace ProseLint

/-- A heading with its level, and the lines from it down to the next heading. The lines above the
first heading have none. -/
structure Stretch where
  heading? : Option (Nat × TextLine) := none
  body : List (Source.Line × Nat) := []
deriving DecidableEq, Repr

namespace Stretch

/-- The line of the heading, and 0 above the first heading. -/
def start (s : Stretch) : LineNumber :=
  s.heading?.elim 0 (·.2.1)

/-- The numbers of all lines, that of the heading included. -/
def lines (s : Stretch) : List LineNumber :=
  s.heading?.toList.map (·.2.1) ++ s.body.map (·.2)

/-- The stretches of the lines that follow on `s`. -/
def cut (s : Stretch) : List (Source.Line × Nat) → List Stretch
  | [] => [s]
  | (.heading level text, n) :: ls => s :: cut ⟨some (level, n, text), []⟩ ls
  | l :: ls => cut { s with body := s.body ++ [l] } ls

def opening (k : Splitter) (s : Stretch) : Passage :=
  match s.heading? with
  | none => { level := 0 }
  | some (level, l) => { level, header := k.split [l] }

def read (k : Splitter) (s : Stretch) : Outline :=
  s.body.foldl (Outline.readLine k) { current := s.opening k }

/-- The passage that the stretch is read into. -/
def passage (k : Splitter) (s : Stretch) : Passage :=
  ((s.read k).endBlock k).current

end Stretch

namespace Outline

def stretches (ls : List (Source.Line × Nat)) : List Stretch :=
  Stretch.cut {} ls

/-! ### Passages -/

section
variable (k : Splitter)

/-- The outline with `ps` for the passages that are complete. -/
def after (o : Outline) (ps : List Passage) : Outline :=
  { o with complete := ps }

def finish (o : Outline) : List Passage :=
  (o.endBlock k).complete ++ [(o.endBlock k).current]

theorem endBlock_after (o : Outline) (ps : List Passage) :
    (o.after ps).endBlock k = (o.endBlock k).after ps := by
  obtain ⟨qs, c, _ | _ | _⟩ := o <;> rfl

/-- Only headings touch the passages that are complete. -/
theorem readLine_after (o : Outline) (ps : List Passage) {x : Source.Line × Nat}
    (hx : ∀ level text n, x ≠ (.heading level text, n)) :
    (o.after ps).readLine k x = (o.readLine k x).after ps := by
  obtain ⟨qs, c, b⟩ := o
  match x with
  | (.heading level text, n) => exact absurd rfl (hx level text n)
  | (.item level text, n) => rcases b with _ | _ | _ <;> rfl
  | (.text text, n) => rcases b with _ | _ | _ <;> rfl
  | (.blank, _) | (.comment, _) | (.marker _, _) | (.code, _) => exact endBlock_after k _ ps

theorem readLine_heading (s : Stretch) (ps : List Passage) (level : Nat) (text : List Char)
    (n : Nat) : ((s.read k).after ps).readLine k (.heading level text, n) =
      (Stretch.read k ⟨some (level, n, text), []⟩).after (ps ++ [s.passage k]) := by
  rw [readLine, heading, endBlock_after]
  rfl

theorem read_append (s : Stretch) (x : Source.Line × Nat) :
    Stretch.read k { s with body := s.body ++ [x] } = (s.read k).readLine k x := by
  simp [Stretch.read, Stretch.opening, List.foldl_append]

/-- The run over the lines that follow on a stretch, from the outline of the stretch alone. -/
theorem finish_foldl_after (s : Stretch) (ps : List Passage) (ls : List (Source.Line × Nat)) :
    (ls.foldl (readLine k) ((s.read k).after ps)).finish k = ps ++ (s.cut ls).map (·.passage k) := by
  induction s, ls using Stretch.cut.induct generalizing ps with
  | case1 s =>
    rw [List.foldl_nil, finish, endBlock_after]
    rfl
  | case2 s level text n ls ih =>
    rw [List.foldl_cons, readLine_heading, ih, Stretch.cut, List.map_cons, List.append_assoc]
    rfl
  | case3 s x ls hx ih =>
    rw [List.foldl_cons, readLine_after k _ _ hx, ← read_append, ih, Stretch.cut]
    exact hx

theorem passages_eq (ls : List (Source.Line × Nat)) :
    passages k ls = (stretches ls).map (·.passage k) :=
  finish_foldl_after k {} [] ls

end

end Outline

/-! ### Lines of stretches -/

namespace Stretch
variable {s c : Stretch} {ls : List (Source.Line × Nat)}

theorem flatMap_lines_cut (s : Stretch) (ls : List (Source.Line × Nat)) :
    (s.cut ls).flatMap lines = s.lines ++ ls.map (·.2) := by
  induction s, ls using cut.induct with
  | case1 s => simp [cut]
  | case2 s level text n ls ih => rw [cut, List.flatMap_cons, ih]; simp [lines]
  | case3 s x ls hx ih =>
    rw [cut, ih]
    · simp [lines]
    · exact hx

/-- Every stretch but the first one starts with a heading. -/
theorem cut_eq_cons (s : Stretch) (ls : List (Source.Line × Nat)) :
    ∃ c cs, s.cut ls = c :: cs ∧ c.heading? = s.heading? ∧ ∀ c' ∈ cs, c'.heading?.isSome := by
  induction s, ls using cut.induct with
  | case1 s => exact ⟨s, [], rfl, rfl, by simp⟩
  | case2 s level text n ls ih =>
    obtain ⟨c, cs, hcut, hc, hcs⟩ := ih
    refine ⟨s, c :: cs, by rw [cut, hcut], rfl, List.forall_mem_cons.2 ⟨by rw [hc]; rfl, hcs⟩⟩
  | case3 s x ls hx ih =>
    obtain ⟨c, cs, hcut, hc, hcs⟩ := ih
    exact ⟨c, cs, by rw [cut, hcut]; exact hx, hc, hcs⟩

theorem exists_heading_of_mem {level n : Nat} {text : List Char}
    (h : (.heading level text, n) ∈ ls) (s : Stretch) :
    ∃ c ∈ s.cut ls, c.heading? = some (level, n, text) := by
  induction s, ls using cut.induct with
  | case1 s => exact absurd h List.not_mem_nil
  | case2 s level' text' n' ls ih =>
    rw [cut]
    rcases List.mem_cons.1 h with heq | h
    · obtain ⟨c, cs, hcut, hc, -⟩ := cut_eq_cons ⟨some (level', n', text'), []⟩ ls
      refine ⟨c, by simp [hcut], ?_⟩
      cases heq
      exact hc
    · obtain ⟨c, hc, hh⟩ := ih h
      exact ⟨c, List.mem_cons_of_mem _ hc, hh⟩
  | case3 s x ls hx ih =>
    rw [cut]
    · rcases List.mem_cons.1 h with heq | h
      · exact absurd heq.symm (hx level text n)
      · exact ih h
    · exact hx

theorem start_le (hs : s.lines.Pairwise (· < ·)) {n : LineNumber} (hn : n ∈ s.lines) :
    s.start ≤ n := by
  cases hh : s.heading? with
  | none => simp [start, hh]
  | some x =>
    simp only [lines, hh, Option.toList_some, List.map_cons, List.map_nil, List.cons_append,
      List.nil_append] at hs hn
    rcases List.mem_cons.1 hn with rfl | hn
    · simp [start, hh]
    · simpa [start, hh] using Nat.le_of_lt (List.rel_of_pairwise_cons hs hn)

theorem start_mem (h : s.heading?.isSome) : s.start ∈ s.lines := by
  obtain ⟨x, hx⟩ := Option.isSome_iff_exists.1 h
  simp [start, lines, hx]

/-- Stretches of rising lines, one below the other. -/
structure Stacked (cs : List Stretch) : Prop where
  rising : ∀ c ∈ cs, c.lines.Pairwise (· < ·)
  below : cs.Pairwise fun c c' => ∀ n ∈ c.lines, n < c'.start

end Stretch

theorem Outline.stacked_stretches {ls : List (Source.Line × Nat)} (h : ls.Pairwise (·.2 < ·.2)) :
    Stretch.Stacked (stretches ls) := by
  have hp : ((stretches ls).flatMap Stretch.lines).Pairwise (· < ·) := by
    rw [stretches, Stretch.flatMap_lines_cut]
    exact List.pairwise_map.2 h
  obtain ⟨hrising, hbelow⟩ := List.pairwise_flatMap.1 hp
  refine ⟨hrising, ?_⟩
  obtain ⟨c, cs, hcut, -, hcs⟩ := Stretch.cut_eq_cons {} ls
  rw [stretches, hcut] at hbelow ⊢
  obtain ⟨hc, hbelow⟩ := List.pairwise_cons.1 hbelow
  refine List.pairwise_cons.2 ⟨fun c' hc' n hn => ?_, hbelow.imp_of_mem fun _ hc' h n hn => ?_⟩
  · exact hc c' hc' n hn _ (Stretch.start_mem (hcs c' hc'))
  · exact h n hn _ (Stretch.start_mem (hcs _ hc'))

/-! ### Lines of passages -/

/-- The lines read for each block of sentences to come. -/
def OpenBlock.groups : OpenBlock → List (List TextLine)
  | .paragraph ls => [ls]
  | .list is i => (is ++ [i]).map (·.lines)

namespace Outline
variable {k : Splitter} {o : Outline} {ns : List LineNumber} {n : LineNumber}

def groups (o : Outline) : List (List TextLine) :=
  o.block?.elim [] OpenBlock.groups

/-- Ending the block splits each of its groups. -/
theorem mem_blocks_endBlock {b : List Sentence} (h : b ∈ (o.endBlock k).current.blocks) :
    b ∈ o.current.blocks ∨ ∃ g ∈ o.groups, b = k.split g := by
  rw [Passage.mem_blocks] at h ⊢
  obtain ⟨qs, c, _ | ls | ⟨is, i⟩⟩ := o
  · exact .inl h
  · rcases h with h | h | h
    · exact .inl (.inl h)
    · rcases List.mem_append.1 h with h | h
      · exact .inl (.inr (.inl h))
      · exact .inr ⟨ls, List.mem_singleton_self ls, List.mem_singleton.1 h⟩
    · exact .inl (.inr (.inr h))
  · rcases h with h | h | ⟨is', his', x, hx, rfl⟩
    · exact .inl (.inl h)
    · exact .inl (.inr (.inl h))
    · rcases List.mem_append.1 his' with his' | his'
      · exact .inl (.inr (.inr ⟨is', his', x, hx, rfl⟩))
      · rw [List.mem_singleton.1 his'] at hx
        obtain ⟨i', hi', rfl⟩ := List.mem_map.1 hx
        exact .inr ⟨i'.lines, List.mem_map_of_mem hi', rfl⟩

/-- Every block of the current passage is split from lines among `ns`, in their order, and so are
the blocks to come. -/
structure Reads (k : Splitter) (o : Outline) (ns : List LineNumber) : Prop where
  blocks : ∀ b ∈ o.current.blocks, ∃ g : List TextLine, b = k.split g ∧ (g.map (·.1)).Sublist ns
  groups : ∀ g ∈ o.groups, (g.map (·.1)).Sublist ns

namespace Reads

theorem mono (h : Reads k o ns) (n : LineNumber) : Reads k o (ns ++ [n]) :=
  ⟨fun b hb => let ⟨g, hg, hs⟩ := h.blocks b hb; ⟨g, hg, hs.trans (List.sublist_append_left ..)⟩,
   fun g hg => (h.groups g hg).trans (List.sublist_append_left ..)⟩

theorem endBlock (h : Reads k o ns) : Reads k (o.endBlock k) ns := by
  refine ⟨fun b hb => ?_, fun g hg => ?_⟩
  · rcases mem_blocks_endBlock hb with hb | ⟨g, hg, rfl⟩
    · exact h.blocks b hb
    · exact ⟨g, rfl, h.groups g hg⟩
  · obtain ⟨qs, c, _ | _ | _⟩ := o <;> exact absurd hg List.not_mem_nil

/-- A line starts a group or goes on with one. -/
theorem block (h : Reads k o ns) (t : List Char) {b : OpenBlock}
    (hb : ∀ g ∈ b.groups, g ∈ o.groups ∨ g = [(n, t)] ∨ ∃ g' ∈ o.groups, g = g' ++ [(n, t)]) :
    Reads k { o with block? := some b } (ns ++ [n]) := by
  refine ⟨(h.mono n).blocks, fun g hg => ?_⟩
  rcases hb g hg with hg | rfl | ⟨g', hg', rfl⟩
  · exact (h.mono n).groups g hg
  · exact List.sublist_append_right ns [n]
  · rw [List.map_append]
    exact (h.groups g' hg').append_right [n]

theorem text (h : Reads k o ns) (t : List Char) : Reads k (o.text (n, t)) (ns ++ [n]) := by
  obtain ⟨qs, c, _ | ls | ⟨is, i⟩⟩ := o
  · exact h.block t fun g hg => .inr (.inl (List.mem_singleton.1 hg))
  · exact h.block t fun g hg => .inr (.inr ⟨ls, List.mem_singleton_self ls, List.mem_singleton.1 hg⟩)
  · refine h.block t fun g hg => ?_
    have hgroups : Outline.groups ⟨qs, c, some (.list is i)⟩ = is.map (·.lines) ++ [i.lines] :=
      List.map_append
    rw [OpenBlock.groups, List.map_append] at hg
    rw [hgroups]
    rcases List.mem_append.1 hg with hg | hg
    · exact .inl (List.mem_append_left _ hg)
    · exact .inr (.inr ⟨i.lines, by simp, List.mem_singleton.1 hg⟩)

theorem item (h : Reads k o ns) (level : Nat) (t : List Char) :
    Reads k (o.item k level (n, t)) (ns ++ [n]) := by
  obtain ⟨qs, c, _ | ls | ⟨is, i⟩⟩ := o
  · exact h.block t fun g hg => .inr (.inl (List.mem_singleton.1 hg))
  · exact h.endBlock.block t fun g hg => .inr (.inl (List.mem_singleton.1 hg))
  · refine h.block t fun g hg => ?_
    rw [OpenBlock.groups, List.map_append] at hg
    rcases List.mem_append.1 hg with hg | hg
    · exact .inl hg
    · exact .inr (.inl (List.mem_singleton.1 hg))

theorem header (level : Nat) (g : List TextLine) (hg : (g.map (·.1)).Sublist ns)
    (ps : List Passage) :
    Reads k { complete := ps, current := { level, header := k.split g } } ns :=
  ⟨fun _ hb => ⟨g, List.mem_singleton.1 hb, hg⟩, fun _ hg => absurd hg List.not_mem_nil⟩

theorem readLine (h : Reads k o ns) (x : Source.Line × Nat) :
    Reads k (o.readLine k x) (ns ++ [x.2]) := by
  match x with
  | (.heading level t, n) => exact header level [(n, t)] (List.sublist_append_right ns [n]) _
  | (.item level t, n) => exact h.item level t
  | (.text t, n) => exact h.text t
  | (.blank, n) | (.comment, n) | (.marker _, n) | (.code, n) => exact h.endBlock.mono n

theorem foldl (h : Reads k o ns) (ls : List (Source.Line × Nat)) :
    Reads k (ls.foldl (Outline.readLine k) o) (ns ++ ls.map (·.2)) := by
  induction ls generalizing o ns with
  | nil => simpa using h
  | cons x ls ih => simpa using ih (h.readLine x)

end Reads

end Outline

namespace Stretch
variable {k : Splitter} {s : Stretch}

theorem reads_read (s : Stretch) : Outline.Reads k (s.read k) s.lines := by
  refine Outline.Reads.foldl ?_ s.body
  cases hh : s.heading? with
  | none => rw [opening, hh]; exact Outline.Reads.header 0 [] (List.nil_sublist _) []
  | some x => rw [opening, hh]; exact Outline.Reads.header x.1 [x.2] (List.Sublist.refl _) []

theorem exists_group_of_mem_blocks {b : List Sentence} (h : b ∈ (s.passage k).blocks) :
    ∃ g : List TextLine, b = k.split g ∧ (g.map (·.1)).Sublist s.lines :=
  (reads_read s).endBlock.blocks b h

theorem pairwise_of_mem_blocks (hs : s.lines.Pairwise (· < ·)) {b : List Sentence}
    (h : b ∈ (s.passage k).blocks) : b.Pairwise (·.line ≤ ·.line) := by
  obtain ⟨g, rfl, hg⟩ := exists_group_of_mem_blocks h
  exact Splitter.pairwise_split ((List.pairwise_map.1 (hs.sublist hg)).imp Nat.le_of_lt)

theorem line_mem {x : Sentence} (h : x ∈ (s.passage k).sentences) : x.line ∈ s.lines := by
  obtain ⟨b, hb, hx⟩ := Passage.mem_sentences.1 h
  obtain ⟨g, rfl, hg⟩ := exists_group_of_mem_blocks hb
  obtain ⟨l, hl, hn, -⟩ := Splitter.exists_line_of_mem_split hx
  exact hn ▸ hg.subset (List.mem_map_of_mem hl)

theorem span?_last_mem {w : Span} (h : (s.passage k).span? = some w) : w.last ∈ s.lines := by
  obtain ⟨x, hx, hl⟩ := Span.exists_last h
  exact hl ▸ line_mem hx

theorem span?_first_mem {w : Span} (h : (s.passage k).span? = some w) : w.first ∈ s.lines := by
  obtain ⟨x, hx, hl⟩ := Span.exists_first h
  exact hl ▸ line_mem hx

namespace Stacked
variable {cs cs' : List Stretch}

theorem sublist (h : Stacked cs) (hs : cs'.Sublist cs) : Stacked cs' :=
  ⟨fun c hc => h.rising c (hs.subset hc), h.below.sublist hs⟩

theorem runsDown (h : Stacked cs) : Document.RunsDown (cs.map (·.passage k)) := by
  refine ⟨fun p hp b hb => ?_, List.pairwise_filterMap.2 (List.pairwise_map.2 ?_)⟩
  · obtain ⟨c, hc, rfl⟩ := List.mem_map.1 hp
    exact pairwise_of_mem_blocks (h.rising c hc) hb
  · refine h.below.imp_of_mem fun {c c'} _ hc' hlt w hw w' hw' => ?_
    exact Nat.lt_of_lt_of_le (hlt _ (span?_last_mem hw))
      (start_le (h.rising c' hc') (span?_first_mem hw'))

end Stacked

/-- Text above the first heading counts only if there is a sentence in it. -/
def counts (k : Splitter) (s : Stretch) : Bool :=
  s.heading?.isSome || (s.passage k).span?.isSome

end Stretch

/-! ### Sections -/

namespace Outline
variable {k : Splitter}

theorem preorders_adopt (p : Passage) (ss : List Section) :
    Section.preorders (adopt p ss) =
      ⟨p, ss.takeWhile (p.level < ·.own.level)⟩ :: Section.preorders ss := by
  rw [adopt, Section.preorders_cons, List.takeWhile_append_dropWhile]

theorem preorders_nest (ps : List Passage) : (Section.preorders (nest ps)).map (·.own) = ps := by
  induction ps with
  | nil => rfl
  | cons p ps ih =>
    show (Section.preorders (adopt p (nest ps))).map (·.own) = _
    rw [preorders_adopt, List.map_cons, ih]

/-- The sections in pre-order own the passages of the stretches in the order of the source. -/
theorem preorders_sections (ls : List (Source.Line × Nat)) :
    (Section.preorders (sections k ls)).map (·.own) =
      ((stretches ls).filter (·.counts k)).map (·.passage k) := by
  obtain ⟨c, cs, hcut, hc, hcs⟩ := Stretch.cut_eq_cons {} ls
  have hkeep : cs.filter (·.counts k) = cs :=
    List.filter_eq_self.2 fun c' hc' => by rw [Stretch.counts, hcs c' hc', Bool.true_or]
  have hcount : c.counts k = (c.passage k).span?.isSome := by rw [Stretch.counts, hc]; rfl
  rw [sections, passages_eq, stretches, hcut, List.map_cons]
  show (Section.preorders (if (c.passage k).span?.isSome then
    ⟨c.passage k, []⟩ :: nest (cs.map (·.passage k)) else nest (cs.map (·.passage k)))).map _ = _
  rw [← hcount]
  by_cases h : c.counts k = true
  · rw [if_pos h, List.filter_cons_of_pos h, hkeep, Section.preorders_cons, List.map_cons,
      List.nil_append, preorders_nest]
    rfl
  · rw [if_neg h, List.filter_cons_of_neg h, hkeep, preorders_nest]

theorem runsDown_sections {ls : List (Source.Line × Nat)} (h : ls.Pairwise (·.2 < ·.2)) :
    Document.RunsDown ((Section.preorders (sections k ls)).map (·.own)) := by
  rw [preorders_sections]
  exact ((stacked_stretches h).sublist List.filter_sublist).runsDown

end Outline

end ProseLint
