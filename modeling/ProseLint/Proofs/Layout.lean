import Mathlib.Data.List.Perm.Basic
import ProseLint.Proofs.Blocks
import ProseLint.Proofs.Skeleton

/-!
# The layout of a section

The lines of a stretch are cut into runs of text and items (`Source.runs`). A run begins with a
paragraph, if it begins with text, and ends in a list, if it has items. `Layout.of` gathers the
lines of a stretch that way, and `passage_eq` says that the section of the stretch is split from
just these lines, block by block. Gathering loses no line with content and repeats none
(`perm_lines`).
-/

namespace ProseLint
open Source (Line)

namespace Source

def Line.isText : Line → Bool
  | text _ => true
  | _ => false

/-- The stretches of consecutive lines of text and items; every other line is a break. -/
def runs (ls : List (Line × Nat)) : List (List (Line × Nat)) :=
  ls.splitOnP (!·.1.goesOn)

/-- The lines of text that the lines start with. -/
def leading (ls : List (Line × Nat)) : List TextLine :=
  (ls.takeWhile (·.1.isText)).map textLine

/-- The items among the lines, each with the lines of text right below it. -/
def items : List (Line × Nat) → List OpenItem
  | [] => []
  | (.item level text, n) :: ls => ⟨level, (n, text) :: leading ls⟩ :: items ls
  | _ :: ls => items ls

section
variable {ls : List (Line × Nat)} {level n : Nat} {t : List Char}

@[simp] theorem leading_nil : leading [] = [] := rfl

@[simp] theorem leading_text : leading ((.text t, n) :: ls) = (n, t) :: leading ls := rfl

@[simp] theorem leading_item : leading ((.item level t, n) :: ls) = [] := rfl

@[simp] theorem items_nil : items [] = [] := rfl

@[simp] theorem items_text : items ((.text t, n) :: ls) = items ls := rfl

@[simp] theorem items_item :
    items ((.item level t, n) :: ls) = ⟨level, (n, t) :: leading ls⟩ :: items ls := rfl

end

def aboveHeading (ls : List (Line × Nat)) : List (Line × Nat) :=
  ls.takeWhile (!·.1.isHeading)

end Source

/-- The lines that the blocks of a section are split from. -/
structure Layout where
  level : Nat
  header : List TextLine
  paragraphs : List (List TextLine)
  lists : List (List OpenItem)
deriving DecidableEq, Repr

namespace Layout

/-- The runs of the body make the blocks: text at the start of a run is a paragraph, and the items
of a run are a list. -/
def of (s : Stretch) : Layout where
  level := s.heading?.elim 0 (·.1)
  header := s.heading?.toList.map (·.2)
  paragraphs := ((Source.runs s.body).map Source.leading).filter (!·.isEmpty)
  lists := ((Source.runs s.body).map Source.items).filter (!·.isEmpty)

def passage (k : Splitter) (y : Layout) : Passage where
  level := y.level
  header := k.split y.header
  paragraphs := y.paragraphs.map k.split
  lists := y.lists.map fun is => is.map (·.close k)

def lines (y : Layout) : List TextLine :=
  y.header ++ y.paragraphs.flatten ++ y.lists.flatten.flatMap (·.lines)

end Layout

/-! ### Reading runs -/

namespace Outline
variable {k : Splitter} {r : List (Line × Nat)}

/-- The passage with the blocks of more runs. -/
def addRuns (k : Splitter) (p : Passage) (rs : List (List (Line × Nat))) : Passage :=
  { p with
    paragraphs := p.paragraphs ++ ((rs.map Source.leading).filter (!·.isEmpty)).map k.split
    lists := p.lists ++
      ((rs.map Source.items).filter (!·.isEmpty)).map fun is => is.map (·.close k) }

theorem addRuns_cons (p : Passage) (rs : List (List (Line × Nat))) :
    addRuns k (addRuns k p [r]) rs = addRuns k p (r :: rs) := by
  have hsplit : r :: rs = [r] ++ rs := rfl
  rw [hsplit, addRuns, addRuns, addRuns]
  simp only [List.map_append, List.filter_append, List.append_assoc]

/-- A run goes on with an open list: text with its last item, items as items of their own. -/
theorem endBlock_foldl_list (hr : ∀ x ∈ r, x.1.goesOn = true) (ps : List Passage) (p : Passage)
    (is : List OpenItem) (i : OpenItem) :
    (r.foldl (readLine k) ⟨ps, p, some (.list is i)⟩).endBlock k =
      ⟨ps, { p with lists := p.lists ++
        [(is ++ ⟨i.level, i.lines ++ Source.leading r⟩ :: Source.items r).map (·.close k)] },
        none⟩ := by
  induction r generalizing is i with
  | nil => simp [endBlock]
  | cons x r ih =>
    obtain ⟨hx, hrest⟩ := List.forall_mem_cons.1 hr
    obtain ⟨y, n⟩ := x
    cases y with
    | text t =>
      have hstep : readLine k ⟨ps, p, some (.list is i)⟩ (.text t, n) =
          ⟨ps, p, some (.list is (i.push (n, t)))⟩ := rfl
      rw [List.foldl_cons, hstep, ih hrest]
      simp [OpenItem.push]
    | item level t =>
      have hstep : readLine k ⟨ps, p, some (.list is i)⟩ (.item level t, n) =
          ⟨ps, p, some (.list (is ++ [i]) ⟨level, [(n, t)]⟩)⟩ := rfl
      rw [List.foldl_cons, hstep, ih hrest]
      simp
    | _ => cases hx

/-- A run goes on with an open paragraph, up to its first item. -/
theorem endBlock_foldl_paragraph (hr : ∀ x ∈ r, x.1.goesOn = true) (ps : List Passage)
    (p : Passage) (ls : List TextLine) :
    (r.foldl (readLine k) ⟨ps, p, some (.paragraph ls)⟩).endBlock k =
      ⟨ps, { addRuns k p [r] with
        paragraphs := p.paragraphs ++ [k.split (ls ++ Source.leading r)] }, none⟩ := by
  induction r generalizing ls with
  | nil => simp [endBlock, addRuns]
  | cons x r ih =>
    obtain ⟨hx, hrest⟩ := List.forall_mem_cons.1 hr
    obtain ⟨y, n⟩ := x
    cases y with
    | text t =>
      have hstep : readLine k ⟨ps, p, some (.paragraph ls)⟩ (.text t, n) =
          ⟨ps, p, some (.paragraph (ls ++ [(n, t)]))⟩ := rfl
      rw [List.foldl_cons, hstep, ih hrest]
      simp [addRuns]
    | item level t =>
      have hstep : readLine k ⟨ps, p, some (.paragraph ls)⟩ (.item level t, n) =
          ⟨ps, { p with paragraphs := p.paragraphs ++ [k.split ls] },
            some (.list [] ⟨level, [(n, t)]⟩)⟩ := rfl
      rw [List.foldl_cons, hstep, endBlock_foldl_list hrest]
      simp [addRuns]
    | _ => cases hx

theorem endBlock_foldl_run (hr : ∀ x ∈ r, x.1.goesOn = true) (ps : List Passage) (p : Passage) :
    (r.foldl (readLine k) ⟨ps, p, none⟩).endBlock k = ⟨ps, addRuns k p [r], none⟩ := by
  cases r with
  | nil => simp [endBlock, addRuns]
  | cons x r =>
    obtain ⟨hx, hrest⟩ := List.forall_mem_cons.1 hr
    obtain ⟨y, n⟩ := x
    cases y with
    | text t =>
      have hstep : readLine k ⟨ps, p, none⟩ (.text t, n) = ⟨ps, p, some (.paragraph [(n, t)])⟩ := rfl
      rw [List.foldl_cons, hstep, endBlock_foldl_paragraph hrest]
      simp [addRuns]
    | item level t =>
      have hstep : readLine k ⟨ps, p, none⟩ (.item level t, n) =
          ⟨ps, p, some (.list [] ⟨level, [(n, t)]⟩)⟩ := rfl
      rw [List.foldl_cons, hstep, endBlock_foldl_list hrest]
      simp [addRuns]
    | _ => cases hx

/-- A line that neither goes on with a run nor is a heading only ends the block above it. -/
theorem readLine_of_break {x : Line × Nat} (hgoes : x.1.goesOn = false)
    (hx : x.1.isHeading = false) (o : Outline) : o.readLine k x = o.endBlock k := by
  obtain ⟨y, n⟩ := x
  cases y with
  | heading level t => cases hx
  | item level t => cases hgoes
  | text t => cases hgoes
  | _ => rfl

/-- Reading goes run by run: the lines of the open block are a run `r` that is not yet complete. -/
theorem endBlock_foldl_body {body : List (Line × Nat)} (hr : ∀ x ∈ r, x.1.goesOn = true)
    (hbody : ∀ x ∈ body, x.1.isHeading = false) (ps : List Passage) (p : Passage) :
    (body.foldl (readLine k) (r.foldl (readLine k) ⟨ps, p, none⟩)).endBlock k =
      ⟨ps, addRuns k p (Source.runs (r ++ body)), none⟩ := by
  induction body generalizing r p with
  | nil =>
    have hruns : Source.runs (r ++ []) = [r] := by
      rw [List.append_nil]
      exact List.splitOnP_eq_singleton fun x hx => by rw [hr x hx]; rfl
    rw [hruns]
    exact endBlock_foldl_run hr ps p
  | cons x body ih =>
    obtain ⟨hx, hrest⟩ := List.forall_mem_cons.1 hbody
    rw [List.foldl_cons]
    cases hgoes : x.1.goesOn with
    | true =>
      have hr' : ∀ y ∈ r ++ [x], y.1.goesOn = true := by
        intro y hy
        rcases List.mem_append.1 hy with hy | hy
        · exact hr y hy
        · rw [List.mem_singleton.1 hy, hgoes]
      have hstep : readLine k (r.foldl (readLine k) ⟨ps, p, none⟩) x =
          (r ++ [x]).foldl (readLine k) ⟨ps, p, none⟩ := by simp
      rw [hstep, ih hr' hrest, List.append_assoc]
      rfl
    | false =>
      -- the line completes the run, and the next one starts without lines
      have hruns : Source.runs (r ++ x :: body) = r :: Source.runs body :=
        List.splitOnP_append_cons_of_forall_mem (fun y hy => by rw [hr y hy]; rfl) x
          (by rw [hgoes]; rfl) body
      rw [readLine_of_break hgoes hx, endBlock_foldl_run hr, hruns,
        ← addRuns_cons p (Source.runs body)]
      exact ih (r := []) (fun y hy => absurd hy List.not_mem_nil) hrest (addRuns k p [r])

end Outline

theorem Stretch.passage_eq {k : Splitter} {s : Stretch}
    (hs : ∀ x ∈ s.body, x.1.isHeading = false) : s.passage k = (Layout.of s).passage k := by
  have hread : (s.read k).endBlock k =
      ⟨[], Outline.addRuns k (s.opening k) (Source.runs s.body), none⟩ :=
    Outline.endBlock_foldl_body (r := []) (fun y hy => absurd hy List.not_mem_nil) hs [] _
  have hsplit : k.split [] = [] := rfl
  rw [passage, hread]
  cases hh : s.heading? with
  | none => simp [opening, hh, Outline.addRuns, Layout.passage, Layout.of, hsplit]
  | some h => simp [opening, hh, Outline.addRuns, Layout.passage, Layout.of]

/-- Text goes on with the item above it, but not across a break. -/
example : Layout.of { body := [(.text ['a'], 1), (.item 0 ['b'], 2), (.text ['c'], 3), (.blank, 4),
      (.text ['d'], 5)] } =
    { level := 0, header := [], paragraphs := [[(1, ['a'])], [(5, ['d'])]],
      lists := [[⟨0, [(2, ['b']), (3, ['c'])]⟩]] } := by
  decide

/-! ### Stretches in closed form -/

namespace Stretch
variable {s : Stretch} {ls : List (Line × Nat)}

/-- The stretch of the heading that the lines start with. -/
def headed? : List (Line × Nat) → Option Stretch
  | (.heading level text, n) :: ls => some ⟨some (level, n, text), Source.aboveHeading ls⟩
  | _ => none

theorem headed?_cons_of_not {x : Line × Nat} (hx : x.1.isHeading = false) :
    headed? (x :: ls) = none := by
  obtain ⟨y, n⟩ := x
  cases y <;> first | rfl | cases hx

theorem cut_eq (s : Stretch) (ls : List (Line × Nat)) : s.cut ls =
    { s with body := s.body ++ Source.aboveHeading ls } :: ls.tails.filterMap headed? := by
  induction s, ls using cut.induct with
  | case1 s => simp [cut, Source.aboveHeading, headed?]
  | case2 s level text n ls ih =>
    have habove : Source.aboveHeading ((.heading level text, n) :: ls) = [] := rfl
    rw [cut, ih, habove, List.append_nil, List.tails, List.filterMap_cons_some (by rfl)]
    rfl
  | case3 s x ls hx ih =>
    have hnot : x.1.isHeading = false := by
      rw [Bool.eq_false_iff]
      intro hh
      obtain ⟨level, text, hline⟩ := Line.isHeading_iff.1 hh
      exact hx level text x.2 (Prod.ext hline rfl)
    have habove : Source.aboveHeading (x :: ls) = x :: Source.aboveHeading ls := by
      simp [Source.aboveHeading, hnot]
    rw [cut, ih, habove, List.tails, List.filterMap_cons_none (headed?_cons_of_not hnot),
      List.append_assoc]
    · rfl
    · exact hx

theorem isHeading_eq_false_of_mem {x : Line × Nat} (hx : x ∈ Source.aboveHeading ls) :
    x.1.isHeading = false := by
  have := List.mem_takeWhile_imp hx
  simpa using this

theorem exists_of_mem_headed (hs : s ∈ ls.tails.filterMap headed?) :
    ∃ h ls', s = ⟨some h, Source.aboveHeading ls'⟩ := by
  obtain ⟨l, -, hl⟩ := List.mem_filterMap.1 hs
  unfold headed? at hl
  split at hl <;> cases hl
  exact ⟨_, _, rfl⟩

end Stretch

/-! ### No line is lost -/

namespace Source
variable {ls r : List (Line × Nat)} {x : Line × Nat}

/-- The lines of the blocks that a run makes. -/
def blockLines (r : List (Line × Nat)) : List TextLine :=
  leading r ++ (items r).flatMap (·.lines)

theorem blockLines_cons (hx : x.1.goesOn = true) :
    blockLines (x :: r) = textLine x :: blockLines r := by
  obtain ⟨y, n⟩ := x
  cases y with
  | text t => rfl
  | item level t => rfl
  | _ => cases hx

theorem flatMap_blockLines_runs (ls : List (Line × Nat)) :
    (runs ls).flatMap blockLines = (ls.filter (·.1.goesOn)).map textLine := by
  induction ls with
  | nil => rfl
  | cons x ls ih =>
    rw [runs, List.splitOnP_cons_eq_if_modifyHead]
    cases hx : x.1.goesOn with
    | false =>
      rw [if_pos (by rfl), List.filter_cons_of_neg (by simp [hx]), ← ih]
      rfl
    | true =>
      obtain ⟨r, rs, hruns⟩ : ∃ r rs, ls.splitOnP (!·.1.goesOn) = r :: rs :=
        List.exists_cons_of_ne_nil (List.splitOnP_ne_nil _ _)
      have hih : (r :: rs).flatMap blockLines = (ls.filter (·.1.goesOn)).map textLine :=
        hruns ▸ ih
      rw [if_neg (by decide), List.filter_cons_of_pos (by exact hx), List.map_cons, ← hih, hruns]
      show blockLines (x :: r) ++ rs.flatMap blockLines = _
      rw [blockLines_cons hx]
      rfl

end Source

namespace Stretch
variable {s : Stretch} {ls : List (Line × Nat)}

/-- The lines with content, that of the heading included. -/
def content (s : Stretch) : List TextLine :=
  s.heading?.toList.map (·.2) ++ (s.body.filter (·.1.goesOn)).map Source.textLine

theorem perm_lines (s : Stretch) : (Layout.of s).lines.Perm s.content := by
  have hparagraphs : (Layout.of s).paragraphs.flatten =
      (Source.runs s.body).flatMap Source.leading := by
    rw [Layout.of, List.flatten_filter_not_isEmpty, List.flatMap_def]
  have hlists : (Layout.of s).lists.flatten.flatMap (·.lines) =
      (Source.runs s.body).flatMap fun r => (Source.items r).flatMap (·.lines) := by
    rw [Layout.of, List.flatten_filter_not_isEmpty, ← List.flatMap_def, List.flatMap_assoc]
  rw [Layout.lines, hparagraphs, hlists, content, ← Source.flatMap_blockLines_runs,
    List.append_assoc]
  exact (List.flatMap_append_perm _ _ _).append_left _

theorem flatMap_content_cut (s : Stretch) (ls : List (Line × Nat)) :
    (s.cut ls).flatMap content =
      s.content ++ (ls.filter (·.1.isContent)).map Source.textLine := by
  induction s, ls using cut.induct with
  | case1 s => simp [cut]
  | case2 s level text n ls ih =>
    rw [cut, List.flatMap_cons, ih, List.filter_cons_of_pos (by rfl)]
    rfl
  | case3 s x ls hx ih =>
    have hkind : x.1.isContent = x.1.goesOn := by
      obtain ⟨y, n⟩ := x
      cases y with
      | heading level t => exact absurd rfl (hx level t n)
      | _ => rfl
    rw [cut, ih]
    · cases hgoes : x.1.goesOn <;> simp [content, hkind, hgoes]
    · exact hx

end Stretch

namespace Outline
variable {k : Splitter} {ls : List (Line × Nat)} {c : Stretch} {cs : List Stretch}

theorem perm_stretches (ls : List (Line × Nat)) :
    ((stretches ls).flatMap fun s => (Layout.of s).lines).Perm
      ((ls.filter (·.1.isContent)).map Source.textLine) := by
  have hcontent : (stretches ls).flatMap Stretch.content =
      (ls.filter (·.1.isContent)).map Source.textLine := Stretch.flatMap_content_cut {} ls
  rw [← hcontent]
  exact List.Perm.flatMap_left _ fun s _ => s.perm_lines

/-- Every stretch makes a section, but for one without a sentence above the first heading. -/
theorem passages_sections (h : stretches ls = c :: cs) (hc : c.heading? = none)
    (hcs : ∀ c' ∈ cs, c'.heading?.isSome) :
    Document.passages ⟨sections k ls⟩ =
      (if (c.passage k).sentences = [] then [] else [c.passage k]) ++ cs.map (·.passage k) := by
  have hkeep : cs.filter (·.counts k) = cs :=
    List.filter_eq_self.2 fun c' hc' => by rw [Stretch.counts, hcs c' hc', Bool.true_or]
  have hcounts : c.counts k = (c.passage k).span?.isSome := by
    rw [Stretch.counts, hc]
    rfl
  have hspan : (c.passage k).span?.isSome = true ↔ (c.passage k).sentences ≠ [] := by
    rw [Option.isSome_iff_ne_none, Ne, Passage.span?, Span.of?_eq_none_iff]
  rw [Document.passages, Document.sections_eq, preorders_sections, h]
  by_cases hnil : (c.passage k).sentences = []
  · have hnot : ¬ c.counts k = true := by
      rw [hcounts, hspan]
      exact fun hne => hne hnil
    rw [if_pos hnil, List.filter_cons_of_neg hnot, hkeep, List.nil_append]
  · have hpos : c.counts k = true := hcounts.trans (hspan.2 hnil)
    rw [if_neg hnil, List.filter_cons_of_pos hpos, hkeep]
    rfl

end Outline

/-! ### Ingested sections -/

/-- A source is laid out section by section, one section for each heading and one for the lines
above the first heading if a sentence is in them. A section is split from the blocks of the lines
between its heading and the next one: the text that a run of these lines starts with is a
paragraph, and the items of a run are a list, where an item has the text below it up to the next
one. The blocks hold all lines with content, each once. -/
theorem ingest_layout (t : SymbolTable) (source : String) :
    let k := Splitter.of t
    let ls := Source.numberedLines source
    let above : Stretch := { body := Source.aboveHeading ls }
    let below := ls.tails.filterMap Stretch.headed?
    ∃ i, ingest t source = .ok i ∧
      i.document.passages =
        (if ((Layout.of above).passage k).sentences = [] then []
          else [(Layout.of above).passage k]) ++
        below.map (fun s => (Layout.of s).passage k) ∧
      ((above :: below).flatMap fun s => (Layout.of s).lines).Perm
        ((ls.filter (·.1.isContent)).map Source.textLine) := by
  intro k ls above below
  have hstretches : Outline.stretches ls = above :: below := Stretch.cut_eq {} ls
  have habove : above.passage k = (Layout.of above).passage k :=
    Stretch.passage_eq fun x hx => Stretch.isHeading_eq_false_of_mem hx
  have hheaded : ∀ s ∈ below, s.heading?.isSome := by
    intro s hs
    obtain ⟨h, ls', rfl⟩ := Stretch.exists_of_mem_headed hs
    rfl
  have hbelow : ∀ s ∈ below, s.passage k = (Layout.of s).passage k := by
    intro s hs
    obtain ⟨h, ls', rfl⟩ := Stretch.exists_of_mem_headed hs
    exact Stretch.passage_eq fun x hx => Stretch.isHeading_eq_false_of_mem hx
  refine ⟨_, ingest_eq t source, ?_, ?_⟩
  · rw [← habove, ← List.map_congr_left hbelow]
    exact Outline.passages_sections hstretches rfl hheaded
  · rw [← hstretches]
    exact Outline.perm_stretches ls

end ProseLint
