import ProseLint.Proofs.Ingest
import ProseLint.Proofs.Line

/-!
# The blocks of a source

The lines with content are gathered into blocks (`Source.blocks`): a heading is one, an item begins
one, and text goes on with the block above it or begins one. The sentences of the sections are the
ones that these blocks are split into (`mem_sentences_sections`), whichever sections they end up
in. So sentences start on lines with content only (`exists_line_of_mem_sentences`), and on every
line with content that begins a block (`exists_sentence_of_begins`).
-/

namespace ProseLint
open Source (Line)

namespace Source

/-- Text below such a line goes on with its block. -/
def Line.goesOn : Line → Bool
  | item _ _ | text _ => true
  | _ => false

def textLine (x : Line × Nat) : TextLine :=
  (x.2, x.1.content)

/-- The blocks that are complete with the line, and the one that is open below it, where `g` is
the one above it. A block that is open without lines stands for none. -/
def readBlock (g : List TextLine) (x : Line × Nat) : List (List TextLine) × List TextLine :=
  match x.1 with
  | .heading _ _ => ([g, [textLine x]], [])
  | .item _ _ => ([g], [textLine x])
  | .text _ => ([], g ++ [textLine x])
  | .blank | .comment | .marker _ | .code => ([g], [])

/-- The blocks of the lines below the open block `g`, which is in front with what goes on with
it. -/
def blocks (g : List TextLine) : List (Line × Nat) → List (List TextLine)
  | [] => [g]
  | x :: ls => (readBlock g x).1 ++ blocks (readBlock g x).2 ls

/-- The block that is open below the lines. -/
def openBlock (g : List TextLine) (ls : List (Line × Nat)) : List TextLine :=
  ls.foldl (fun g x => (readBlock g x).2) g

variable {g g' : List TextLine} {l : TextLine} {x : Line × Nat} {pre ls : List (Line × Nat)}

theorem readBlock_of_goesOn (h : x.1.goesOn = false) (g : List TextLine) :
    (readBlock g x).2 = [] := by
  obtain ⟨y, n⟩ := x
  cases y <;> first | rfl | cases h

theorem mem_of_mem_readBlock (hl : l ∈ g')
    (hg' : g' ∈ (readBlock g x).1 ∨ g' = (readBlock g x).2) : l ∈ g ∨ l = textLine x := by
  have hcases : g' = g ∨ g' = [textLine x] ∨ g' = g ++ [textLine x] ∨ g' = [] := by
    obtain ⟨y, n⟩ := x
    cases y <;> simp [readBlock] at hg' <;> tauto
  rcases hcases with rfl | rfl | rfl | rfl
  · exact .inl hl
  · exact .inr (List.mem_singleton.1 hl)
  · exact (List.mem_append.1 hl).imp_right List.mem_singleton.1
  · exact absurd hl List.not_mem_nil

theorem mem_of_mem_openBlock (hl : l ∈ openBlock g pre) : l ∈ g ∨ ∃ x ∈ pre, l = textLine x := by
  induction pre generalizing g with
  | nil => exact .inl hl
  | cons x pre ih =>
    rcases ih hl with hl | ⟨y, hy, hl⟩
    · rcases mem_of_mem_readBlock hl (.inr rfl) with hl | hl
      · exact .inl hl
      · exact .inr ⟨x, List.mem_cons_self .., hl⟩
    · exact .inr ⟨y, List.mem_cons_of_mem _ hy, hl⟩

theorem mem_of_mem_blocks (hg' : g' ∈ blocks g ls) (hl : l ∈ g') :
    l ∈ g ∨ ∃ x ∈ ls, l = textLine x := by
  induction ls generalizing g with
  | nil => exact .inl (List.mem_singleton.1 hg' ▸ hl)
  | cons x ls ih =>
    rcases List.mem_append.1 hg' with hg' | hg'
    · rcases mem_of_mem_readBlock hl (.inl hg') with hl | hl
      · exact .inl hl
      · exact .inr ⟨x, List.mem_cons_self .., hl⟩
    · rcases ih hg' with hl | ⟨y, hy, hl⟩
      · rcases mem_of_mem_readBlock hl (.inr rfl) with hl | hl
        · exact .inl hl
        · exact .inr ⟨x, List.mem_cons_self .., hl⟩
      · exact .inr ⟨y, List.mem_cons_of_mem _ hy, hl⟩

/-- The open block goes on in the first of the blocks that follow. -/
theorem exists_append_mem_blocks (g : List TextLine) (ls : List (Line × Nat)) :
    ∃ b, g ++ b ∈ blocks g ls := by
  induction ls generalizing g with
  | nil => exact ⟨[], by simp [blocks]⟩
  | cons x ls ih =>
    obtain ⟨y, n⟩ := x
    cases y with
    | text t =>
      obtain ⟨b, hb⟩ := ih (g ++ [(n, t)])
      exact ⟨[(n, t)] ++ b, by rwa [← List.append_assoc]⟩
    | _ => exact ⟨[], by simp [blocks, readBlock]⟩

theorem blocks_suffix (g : List TextLine) (pre ls : List (Line × Nat)) :
    blocks (openBlock g pre) ls <:+ blocks g (pre ++ ls) := by
  induction pre generalizing g with
  | nil => exact List.suffix_rfl
  | cons x pre ih => exact (ih _).trans (List.suffix_append ..)

/-- A line with content stands in a block right below the lines that it goes on with: those of the
open block for text, and none for headings and items. -/
theorem exists_mem_blocks_of_content (hx : x.1.content ≠ []) (g : List TextLine)
    (pre post : List (Line × Nat)) :
    ∃ a b, a ++ textLine x :: b ∈ blocks g (pre ++ x :: post) ∧
      (a = [] ∨ a = openBlock g pre ∧ ∃ t, x.1 = .text t) := by
  have hsub := (blocks_suffix g pre (x :: post)).subset
  obtain ⟨y, n⟩ := x
  cases y with
  | heading level t => exact ⟨[], [], hsub (by simp [blocks, readBlock]), .inl rfl⟩
  | item level t =>
    obtain ⟨b, hb⟩ := exists_append_mem_blocks [(n, t)] post
    exact ⟨[], b, hsub (List.mem_append_right _ hb), .inl rfl⟩
  | text t =>
    obtain ⟨b, hb⟩ := exists_append_mem_blocks (openBlock g pre ++ [(n, t)]) post
    refine ⟨openBlock g pre, b, hsub (List.mem_append_right _ ?_), .inr ⟨rfl, t, rfl⟩⟩
    rwa [List.append_assoc] at hb
  | _ => exact absurd rfl hx

/-- The line has content, and it does not go on with the block of the line right above it. -/
def Begins (ls : List (Line × Nat)) (x : Line × Nat) : Prop :=
  x.1.content ≠ [] ∧ ∃ pre post, ls = pre ++ x :: post ∧
    ∀ t, x.1 = .text t → ∀ y ∈ pre.getLast?, y.1.goesOn = false

theorem openBlock_eq_nil (h : ∀ y ∈ pre.getLast?, y.1.goesOn = false) : openBlock [] pre = [] := by
  rcases List.eq_nil_or_concat pre with rfl | ⟨pre, y, rfl⟩
  · rfl
  · have hy : y.1.goesOn = false := h y (by simp)
    rw [openBlock, List.concat_eq_append, List.foldl_append]
    exact readBlock_of_goesOn hy _

end Source

/-! ### Reading blocks into an outline -/

theorem Passage.mem_sentences_iff {p : Passage} {s : Sentence} :
    s ∈ p.sentences ↔ s ∈ p.header ∨ (∃ b ∈ p.paragraphs, s ∈ b) ∨
      ∃ is ∈ p.lists, ∃ i ∈ is, s ∈ i.sentences := by
  rw [mem_sentences]
  -- a header and a paragraph are blocks themselves, so only the items are left
  simp only [mem_blocks, or_and_right, exists_or, exists_eq_left]
  refine or_congr_right (or_congr_right ?_)
  constructor
  · rintro ⟨b, ⟨is, his, i, hi, rfl⟩, hs⟩
    exact ⟨is, his, i, hi, hs⟩
  · rintro ⟨is, his, i, hi, hs⟩
    exact ⟨i.sentences, ⟨is, his, i, hi, rfl⟩, hs⟩

namespace Outline
variable {k : Splitter} {o : Outline} {s : Sentence} {ls : List (Line × Nat)}

/-- The lines of the paragraph or item that is being read. -/
def openLines (o : Outline) : List TextLine :=
  match o.block? with
  | none => []
  | some (.paragraph ls) => ls
  | some (.list _ i) => i.lines

/-- The items before the one that is being read. -/
def itemsBefore (o : Outline) : List OpenItem :=
  match o.block? with
  | some (.list is _) => is
  | _ => []

/-- The sentence is one of the outline, whatever is read on. -/
def Settled (k : Splitter) (o : Outline) (s : Sentence) : Prop :=
  (∃ p ∈ o.complete, s ∈ p.sentences) ∨ s ∈ o.current.sentences ∨
    ∃ i ∈ o.itemsBefore, s ∈ k.split i.lines

theorem mem_sentences_endBlock : s ∈ (o.endBlock k).current.sentences ↔
    s ∈ o.current.sentences ∨ (∃ i ∈ o.itemsBefore, s ∈ k.split i.lines) ∨
      s ∈ k.split o.openLines := by
  have hnil : s ∉ k.split [] := List.not_mem_nil
  obtain ⟨ps, p, _ | ls | ⟨is, i⟩⟩ := o
  · simp [endBlock, itemsBefore, openLines, hnil]
  · simp [endBlock, itemsBefore, openLines, Passage.mem_sentences_iff, or_comm, or_left_comm]
  · simp [endBlock, itemsBefore, openLines, Passage.mem_sentences_iff, OpenItem.close, or_assoc]

theorem endBlock_eq (k : Splitter) (o : Outline) :
    (o.endBlock k).complete = o.complete ∧ (o.endBlock k).block? = none := by
  obtain ⟨ps, p, _ | ls | ⟨is, i⟩⟩ := o <;> exact ⟨rfl, rfl⟩

theorem settled_endBlock :
    Settled k (o.endBlock k) s ↔ Settled k o s ∨ s ∈ k.split o.openLines := by
  obtain ⟨hcomplete, hblock⟩ := endBlock_eq k o
  have hitems : (o.endBlock k).itemsBefore = [] := by rw [itemsBefore, hblock]
  simp [Settled, hcomplete, hitems, mem_sentences_endBlock, or_assoc]

theorem openLines_endBlock (k : Splitter) (o : Outline) : (o.endBlock k).openLines = [] := by
  rw [openLines, (endBlock_eq k o).2]

/-- Reading a line settles the sentences of the blocks that it completes. -/
theorem settled_readLine (x : Line × Nat) : Settled k (o.readLine k x) s ↔
    Settled k o s ∨ ∃ g ∈ (Source.readBlock o.openLines x).1, s ∈ k.split g := by
  have hend : Settled k (o.endBlock k) s ↔ Settled k o s ∨ ∃ g ∈ [o.openLines], s ∈ k.split g := by
    rw [settled_endBlock]
    simp
  match x with
  | (.heading level t, n) =>
    have hheading : Settled k (o.heading k level (n, t)) s ↔
        Settled k (o.endBlock k) s ∨ s ∈ k.split [(n, t)] := by
      obtain ⟨hcomplete, hblock⟩ := endBlock_eq k o
      simp [Settled, heading, itemsBefore, hblock, hcomplete, Passage.mem_sentences_iff,
        or_and_right, exists_or, or_assoc]
    rw [readLine, hheading, settled_endBlock, or_assoc]
    simp [Source.readBlock, Source.textLine, Line.content]
  | (.item level t, n) =>
    obtain ⟨ps, p, _ | ls | ⟨is, i⟩⟩ := o
    · exact hend
    · exact hend
    · simp [readLine, item, Source.readBlock, Settled, itemsBefore, openLines, or_and_right,
        exists_or, or_assoc]
  | (.text t, n) =>
    have htext : Settled k (o.text (n, t)) s ↔ Settled k o s := by
      obtain ⟨ps, p, _ | ls | ⟨is, i⟩⟩ := o <;> rfl
    rw [readLine, htext]
    simp [Source.readBlock]
  | (.blank, _) | (.comment, _) | (.marker _, _) | (.code, _) => exact hend

theorem openLines_readLine (k : Splitter) (o : Outline) (x : Line × Nat) :
    (o.readLine k x).openLines = (Source.readBlock o.openLines x).2 := by
  match x with
  | (.heading level t, n) => rfl
  | (.item level t, n) => obtain ⟨ps, p, _ | ls | ⟨is, i⟩⟩ := o <;> rfl
  | (.text t, n) => obtain ⟨ps, p, _ | ls | ⟨is, i⟩⟩ := o <;> rfl
  | (.blank, _) | (.comment, _) | (.marker _, _) | (.code, _) => exact openLines_endBlock k o

theorem mem_finish_foldl : (∃ p ∈ (ls.foldl (readLine k) o).finish k, s ∈ p.sentences) ↔
    Settled k o s ∨ ∃ g ∈ Source.blocks o.openLines ls, s ∈ k.split g := by
  induction ls generalizing o with
  | nil =>
    obtain ⟨hcomplete, -⟩ := endBlock_eq k o
    simp [finish, Settled, Source.blocks, mem_sentences_endBlock, hcomplete, or_and_right,
      exists_or, or_assoc]
  | cons x ls ih =>
    -- what the line settles moves from the blocks that follow to the sentences that are settled
    rw [List.foldl_cons, ih, settled_readLine, openLines_readLine, or_assoc, Source.blocks]
    simp only [List.mem_append, or_and_right, exists_or]

theorem mem_passages_iff : (∃ p ∈ passages k ls, s ∈ p.sentences) ↔
    ∃ g ∈ Source.blocks [] ls, s ∈ k.split g := by
  have hnone : ¬ Settled k {} s := by simp [Settled, itemsBefore, Passage.mem_sentences_iff]
  have hrun : (∃ p ∈ passages k ls, s ∈ p.sentences) ↔
      Settled k {} s ∨ ∃ g ∈ Source.blocks [] ls, s ∈ k.split g := mem_finish_foldl
  rw [hrun, or_iff_right hnone]

theorem mem_sentences_sections : s ∈ Document.sentences ⟨sections k ls⟩ ↔
    ∃ g ∈ Source.blocks [] ls, s ∈ k.split g := by
  rw [← mem_passages_iff, passages_eq, Document.sentences, List.mem_flatMap, Document.passages,
    Document.sections_eq, preorders_sections]
  constructor
  · rintro ⟨p, hp, hs⟩
    obtain ⟨c, hc, rfl⟩ := List.mem_map.1 hp
    exact ⟨_, List.mem_map_of_mem (List.mem_filter.1 hc).1, hs⟩
  · rintro ⟨p, hp, hs⟩
    obtain ⟨c, hc, rfl⟩ := List.mem_map.1 hp
    -- only a stretch without sentences makes no section
    have hcounts : c.counts k = true := by
      cases hspan : (c.passage k).span? with
      | some w => rw [Stretch.counts, hspan, Option.isSome_some, Bool.or_true]
      | none =>
        rw [Span.of?_eq_none_iff.1 hspan] at hs
        exact absurd hs List.not_mem_nil
    exact ⟨_, List.mem_map_of_mem (List.mem_filter.2 ⟨hc, hcounts⟩), hs⟩

/-! ### Lines of sentences -/

theorem exists_line_of_mem_sentences (h : s ∈ Document.sentences ⟨sections k ls⟩) :
    ∃ x ∈ ls, x.2 = s.line ∧ Text.isBlankText x.1.content = false := by
  obtain ⟨g, hg, hs⟩ := mem_sentences_sections.1 h
  obtain ⟨l, hl, hline, hblank⟩ := Splitter.exists_line_of_mem_split hs
  rcases Source.mem_of_mem_blocks hg hl with hl | ⟨x, hx, rfl⟩
  · exact absurd hl List.not_mem_nil
  · exact ⟨x, hx, hline, hblank⟩

/-- A line that is not blank has a sentence starting on it if all lines are blank that it could go
on with. -/
theorem exists_sentence_of_content {x : Line × Nat} {pre post : List (Line × Nat)}
    (hx : Text.isBlankText x.1.content = false)
    (h : ∀ t, x.1 = .text t → ∀ l ∈ Source.openBlock [] pre, Text.isBlankText l.2 = true) :
    ∃ s ∈ Document.sentences ⟨sections k (pre ++ x :: post)⟩, s.line = x.2 := by
  have hne : x.1.content ≠ [] := fun hnil => by simp [hnil, Text.isBlankText] at hx
  obtain ⟨a, b, hmem, ha⟩ := Source.exists_mem_blocks_of_content hne [] pre post
  have hblank : ∀ l ∈ a, Text.isBlankText l.2 = true := by
    rcases ha with rfl | ⟨rfl, t, ht⟩
    · exact fun l hl => absurd hl List.not_mem_nil
    · exact h t ht
  have hfirst : ∃ s ∈ k.split (a ++ Source.textLine x :: b), s.line = x.2 :=
    Splitter.exists_mem_split_of_first hblank hx
  obtain ⟨s, hs, hline⟩ := hfirst
  exact ⟨s, mem_sentences_sections.2 ⟨_, hmem, hs⟩, hline⟩

theorem exists_sentence_of_begins {x : Line × Nat} (hx : Text.isBlankText x.1.content = false)
    (h : Source.Begins ls x) : ∃ s ∈ Document.sentences ⟨sections k ls⟩, s.line = x.2 := by
  obtain ⟨-, pre, post, rfl, hpre⟩ := h
  refine exists_sentence_of_content hx fun t ht l hl => ?_
  rw [Source.openBlock_eq_nil (hpre t ht)] at hl
  exact absurd hl List.not_mem_nil

theorem exists_sentence_of_first {x : Line × Nat} {pre post : List (Line × Nat)}
    (hx : Text.isBlankText x.1.content = false) (hpre : ∀ y ∈ pre, y.1.content = []) :
    ∃ s ∈ Document.sentences ⟨sections k (pre ++ x :: post)⟩, s.line = x.2 := by
  refine exists_sentence_of_content hx fun t _ l hl => ?_
  rcases Source.mem_of_mem_openBlock hl with hl | ⟨y, hy, rfl⟩
  · exact absurd hl List.not_mem_nil
  · show Text.isBlankText y.1.content = true
    rw [hpre y hy]
    rfl

end Outline

end ProseLint
