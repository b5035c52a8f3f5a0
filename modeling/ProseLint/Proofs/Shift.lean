import Mathlib.Algebra.Order.Group.Nat
import ProseLint.Proofs.Coverage
import ProseLint.Proofs.Lines
import ProseLint.Proofs.Skeleton

/-!
# Moving lines down

No part of ingestion looks at a line number but to compare it with another one, so moving all lines
down by `n` moves what is read from them down by `n` and changes nothing else: the sentences that
text is split into (`split_shift`), the sections (`sections_shift`), and the directives and warnings
(`ofLines_shift`). A directive triggers on the moved lines where it triggered before
(`triggersIn_shift`). Empty lines in front of a source move it so (`ingest_shift`).
-/

namespace ProseLint
open Source (Line)

def TextLine.shift (n : Nat) (l : TextLine) : TextLine :=
  (l.1 + n, l.2)

def Sentence.shift (n : Nat) (s : Sentence) : Sentence :=
  { s with line := s.line + n }

def Item.shift (n : Nat) (i : Item) : Item :=
  { i with sentences := i.sentences.map (·.shift n) }

def Passage.shift (n : Nat) (p : Passage) : Passage where
  level := p.level
  header := p.header.map (·.shift n)
  paragraphs := p.paragraphs.map (·.map (·.shift n))
  lists := p.lists.map (·.map (·.shift n))

mutual

/-- The section with all below it, further down by `n`. -/
def Section.shift (n : Nat) : Section → Section
  | ⟨p, subs⟩ => ⟨p.shift n, Section.shiftAll n subs⟩

def Section.shiftAll (n : Nat) : List Section → List Section
  | [] => []
  | s :: ss => s.shift n :: Section.shiftAll n ss

end

def Document.shift (n : Nat) (d : Document) : Document :=
  ⟨d.topSections.map (·.shift n)⟩

def Span.shift (n : Nat) (s : Span) : Span :=
  ⟨s.first + n, s.last + n⟩

def Directive.shift (n : Nat) (d : Directive) : Directive :=
  { d with anchor := d.anchor + n, bound? := d.bound?.map (· + n) }

def Warning.shift (n : Nat) : Warning → Warning
  | emptyMarker m => emptyMarker (m + n)
  | unknownKind m e => unknownKind (m + n) e
  | noContent m => noContent (m + n)
  | invalid m e => invalid (m + n) e

def Diagnostic.shift (n : Nat) (g : Diagnostic) : Diagnostic :=
  { g with line := g.line + n }

def Ingested.shift (n : Nat) (i : Ingested) : Ingested where
  document := i.document.shift n
  directives := i.directives.map (·.shift n)
  warnings := i.warnings.map (·.shift n)

/-! ### Sentences -/

namespace Splitter

def Opened.shift (n : Nat) (o : Opened) : Opened :=
  { o with line := o.line + n }

def State.shift (n : Nat) (s : State) : State :=
  ⟨s.sentences.map (·.shift n), s.opened?.map (·.shift n)⟩

variable (k : Splitter) (n : Nat)

theorem readChar_shift (m : LineNumber) (s : State) (c : Char) :
    k.readChar (m + n) (s.shift n) c = (k.readChar m s c).shift n := by
  obtain ⟨ss, _ | o⟩ := s
  · cases hb : Text.isBlank c <;> by_cases ht : c ∈ k.terminators <;>
      simp [readChar, State.shift, Opened.shift, Opened.close, Sentence.shift, hb, ht]
  · by_cases ht : c ∈ k.terminators <;>
      simp [readChar, State.shift, Opened.shift, Opened.close, Sentence.shift, ht]

theorem foldl_readChar_shift (m : LineNumber) (s : State) (cs : List Char) :
    cs.foldl (k.readChar (m + n)) (s.shift n) = (cs.foldl (k.readChar m) s).shift n := by
  induction cs generalizing s with
  | nil => rfl
  | cons c cs ih => rw [List.foldl_cons, readChar_shift, ih, List.foldl_cons]

theorem join_shift (s : State) (cs : List Char) :
    k.join (s.shift n) cs = (k.join s cs).shift n := by
  obtain ⟨ss, _ | o⟩ := s <;> cases cs <;> rfl

theorem readLine_shift (s : State) (l : TextLine) :
    k.readLine (s.shift n) (l.shift n) = (k.readLine s l).shift n := by
  rw [readLine, readLine, ← foldl_readChar_shift, ← join_shift]
  rfl

theorem foldl_readLine_shift (s : State) (ls : List TextLine) :
    (ls.map (·.shift n)).foldl k.readLine (s.shift n) = (ls.foldl k.readLine s).shift n := by
  induction ls generalizing s with
  | nil => rfl
  | cons l ls ih => rw [List.map_cons, List.foldl_cons, readLine_shift, ih, List.foldl_cons]

theorem split_shift (ls : List TextLine) :
    k.split (ls.map (·.shift n)) = (k.split ls).map (·.shift n) := by
  have hrun : (ls.map (·.shift n)).foldl k.readLine {} = (ls.foldl k.readLine {}).shift n :=
    foldl_readLine_shift k n {} ls
  rw [split, split, hrun]
  cases h : (ls.foldl k.readLine {}).opened? <;>
    simp [State.finish, State.shift, h, Opened.close, Opened.shift, Sentence.shift]

end Splitter

/-! ### Passages -/

def OpenItem.shift (n : Nat) (i : OpenItem) : OpenItem :=
  { i with lines := i.lines.map (·.shift n) }

def OpenBlock.shift (n : Nat) : OpenBlock → OpenBlock
  | paragraph ls => paragraph (ls.map (·.shift n))
  | list is i => list (is.map (·.shift n)) (i.shift n)

namespace Outline

def shift (n : Nat) (o : Outline) : Outline where
  complete := o.complete.map (·.shift n)
  current := o.current.shift n
  block? := o.block?.map (·.shift n)

variable (k : Splitter) (n : Nat)

theorem close_shift (i : OpenItem) : (i.shift n).close k = (i.close k).shift n := by
  rw [OpenItem.close, OpenItem.shift, Splitter.split_shift]
  rfl

theorem endBlock_shift (o : Outline) : (o.shift n).endBlock k = (o.endBlock k).shift n := by
  obtain ⟨ps, p, _ | ls | ⟨is, i⟩⟩ := o
  · rfl
  · simp [endBlock, shift, OpenBlock.shift, Passage.shift, Splitter.split_shift]
  · simp [endBlock, shift, OpenBlock.shift, Passage.shift, close_shift, Function.comp_def]

theorem text_shift (o : Outline) (l : TextLine) :
    (o.shift n).text (l.shift n) = (o.text l).shift n := by
  obtain ⟨ps, p, _ | ls | ⟨is, i⟩⟩ := o <;>
    simp [text, shift, OpenBlock.shift, OpenItem.push, OpenItem.shift]

theorem item_shift (o : Outline) (level : Nat) (l : TextLine) :
    (o.shift n).item k level (l.shift n) = (o.item k level l).shift n := by
  have hend := endBlock_shift k n o
  obtain ⟨ps, p, _ | ls | ⟨is, i⟩⟩ := o
  · simp [item, shift, OpenBlock.shift, endBlock, OpenItem.shift]
  · simp [item, shift, OpenBlock.shift, endBlock, OpenItem.shift, Passage.shift,
      Splitter.split_shift]
  · simp [item, shift, OpenBlock.shift, OpenItem.shift]

theorem heading_shift (o : Outline) (level : Nat) (l : TextLine) :
    (o.shift n).heading k level (l.shift n) = (o.heading k level l).shift n := by
  have hheader : k.split [l.shift n] = (k.split [l]).map (·.shift n) := Splitter.split_shift k n [l]
  rw [heading, heading, endBlock_shift, hheader]
  simp [shift, Passage.shift]

theorem readLine_shift (o : Outline) (x : Line × Nat) :
    (o.shift n).readLine k (x.1, x.2 + n) = (o.readLine k x).shift n := by
  match x with
  | (.heading level t, m) => exact heading_shift k n o level (m, t)
  | (.item level t, m) => exact item_shift k n o level (m, t)
  | (.text t, m) => exact text_shift n o (m, t)
  | (.blank, _) | (.comment, _) | (.marker _, _) | (.code, _) => exact endBlock_shift k n o

theorem foldl_readLine_shift (o : Outline) (ls : List (Line × Nat)) :
    (Source.shift n ls).foldl (readLine k) (o.shift n) = (ls.foldl (readLine k) o).shift n := by
  induction ls generalizing o with
  | nil => rfl
  | cons x ls ih =>
    have hstep := readLine_shift k n o x
    rw [Source.shift, List.map_cons, List.foldl_cons, hstep, List.foldl_cons]
    exact ih _

theorem passages_shift (ls : List (Line × Nat)) :
    passages k (Source.shift n ls) = (passages k ls).map (·.shift n) := by
  have hrun : (Source.shift n ls).foldl (readLine k) {} = (ls.foldl (readLine k) {}).shift n :=
    foldl_readLine_shift k n {} ls
  rw [passages, hrun, endBlock_shift]
  simp [passages, shift]

end Outline

/-! ### Sections -/

namespace Span
variable (n : Nat)

theorem ofLines?_shift (ms : List LineNumber) :
    ofLines? (ms.map (· + n)) = (ofLines? ms).map (·.shift n) := by
  cases ms with
  | nil => rfl
  | cons m ms =>
    have hextend : ∀ (s : Span) (m : LineNumber), (s.shift n).extend (m + n) = (s.extend m).shift n :=
      fun s m => by simp [extend, shift, Nat.add_min_add_right, Nat.add_max_add_right]
    have hrun : ∀ s : Span, (ms.map (· + n)).foldl extend (s.shift n) = (ms.foldl extend s).shift n := by
      induction ms with
      | nil => exact fun s => rfl
      | cons m ms ih => exact fun s => by rw [List.map_cons, List.foldl_cons, hextend, ih]; rfl
    exact congrArg some (hrun ⟨m, m⟩)

theorem of?_shift (ss : List Sentence) :
    of? (ss.map (·.shift n)) = (of? ss).map (·.shift n) := by
  rw [of?, of?, ← ofLines?_shift, List.map_map, List.map_map]
  rfl

theorem contains_shift (s : Span) (m : LineNumber) :
    (s.shift n).contains (m + n) = s.contains m := by
  simp [contains, shift]

end Span

namespace Passage
variable (n : Nat)

@[simp] theorem level_shift (p : Passage) : (p.shift n).level = p.level := rfl

theorem sentences_shift (p : Passage) : (p.shift n).sentences = p.sentences.map (·.shift n) := by
  simp [sentences, blocks, shift, List.map_flatten, Item.shift, Function.comp_def]

theorem span?_shift (p : Passage) : (p.shift n).span? = p.span?.map (·.shift n) := by
  rw [span?, sentences_shift, Span.of?_shift, span?]

end Passage

namespace Section
variable (n : Nat)

@[simp] theorem own_shift (s : Section) : (s.shift n).own = s.own.shift n := by
  cases s
  rfl

theorem shiftAll_eq (ss : List Section) : shiftAll n ss = ss.map (·.shift n) := by
  induction ss with
  | nil => rfl
  | cons s ss ih => rw [shiftAll, ih, List.map_cons]

mutual

theorem preorder_shift : ∀ s : Section, (s.shift n).preorder = s.preorder.map (·.shift n)
  | ⟨p, subs⟩ => by
    rw [shift, preorder, preorder, preorders_shiftAll subs, List.map_cons, shift]

theorem preorders_shiftAll : ∀ ss : List Section,
    preorders (shiftAll n ss) = (preorders ss).map (·.shift n)
  | [] => rfl
  | s :: ss => by
    rw [shiftAll, preorders, preorders, preorder_shift s, preorders_shiftAll ss, List.map_append]

end

end Section

theorem Document.passages_shift (n : Nat) (d : Document) :
    (d.shift n).passages = d.passages.map (·.shift n) := by
  rw [passages, passages, sections_eq, sections_eq, shift, ← Section.shiftAll_eq,
    Section.preorders_shiftAll, List.map_map, List.map_map]
  exact List.map_congr_left fun s _ => Section.own_shift n s

namespace Outline
variable (k : Splitter) (n : Nat)

theorem adopt_shift (p : Passage) (ss : List Section) :
    adopt (p.shift n) (ss.map (·.shift n)) = (adopt p ss).map (·.shift n) := by
  rw [adopt, adopt, List.takeWhile_map, List.dropWhile_map, List.map_cons, Section.shift,
    Section.shiftAll_eq]
  simp [Function.comp_def]

theorem nest_shift (ps : List Passage) :
    nest (ps.map (·.shift n)) = (nest ps).map (·.shift n) := by
  induction ps with
  | nil => rfl
  | cons p ps ih =>
    show adopt (p.shift n) (nest (ps.map (·.shift n))) = _
    rw [ih, adopt_shift]
    rfl

theorem preamble_shift (p : Passage) :
    preamble (p.shift n) = (preamble p).map (·.shift n) := by
  rw [preamble, preamble, Passage.span?_shift]
  cases p.span? <;> rfl

theorem sections_shift (ls : List (Line × Nat)) :
    sections k (Source.shift n ls) = (sections k ls).map (·.shift n) := by
  cases h : passages k ls with
  | nil =>
    have hnil : passages k (Source.shift n ls) = [] := by rw [passages_shift, h, List.map_nil]
    rw [sections, sections, hnil, h]
    rfl
  | cons p ps =>
    have hcons : passages k (Source.shift n ls) = p.shift n :: ps.map (·.shift n) := by
      rw [passages_shift, h, List.map_cons]
    rw [sections_eq_append hcons, sections_eq_append h, preamble_shift, nest_shift,
      List.map_append]

end Outline

/-! ### Markers -/

namespace Source
variable (n : Nat) {p : Line → Bool} {m : LineNumber} {ls : List (Line × Nat)}

theorem pairwise_shift (h : ls.Pairwise (·.2 < ·.2)) : (shift n ls).Pairwise (·.2 < ·.2) :=
  List.pairwise_map.2 (h.imp fun hlt => Nat.add_lt_add_right hlt n)

theorem firstBelow?_shift (p : Line → Bool) (m : LineNumber) (ls : List (Line × Nat)) :
    firstBelow? p (m + n) (shift n ls) = (firstBelow? p m ls).map (· + n) := by
  have hmin : ∀ ms : List Nat, (ms.map (· + n)).min? = ms.min?.map (· + n) := by
    intro ms
    cases ms with
    | nil => rfl
    | cons a ms =>
      rw [List.map_cons, List.min?_cons', List.min?_cons', Option.map_some, List.foldl_map]
      exact congrArg some (List.foldl_hom (· + n) fun a b => Nat.add_min_add_right a b n)
  rw [firstBelow?, firstBelow?, ← hmin, shift, List.filter_map, List.map_map, List.map_map]
  simp [Function.comp_def]

end Source

namespace Marker

def shiftOutcome (n : Nat) : Except Warning Directive → Except Warning Directive
  | .error w => .error (w.shift n)
  | .ok d => .ok (d.shift n)

variable (n : Nat)

theorem outcome_shift (ls : List (Line × Nat)) (m : LineNumber) (text : List Char) :
    outcome (Source.shift n ls) (m + n) text = shiftOutcome n (outcome ls m text) := by
  rw [outcome, outcome]
  split
  · rfl
  · split
    · rw [Source.firstBelow?_shift]
      cases Source.firstBelow? Line.isContent m ls with
      | none => rfl
      | some j =>
        simp only [Option.map_some, Source.firstBelow?_shift]
        rfl
    · rfl

theorem found_shift (ls : List (Line × Nat)) :
    found (Source.shift n ls) = (found ls).map (Prod.map (· + n) id) := by
  rw [found, found, Source.shift, List.filterMap_map, List.map_filterMap]
  refine List.filterMap_congr fun x _ => ?_
  obtain ⟨y, m⟩ := x
  cases y <;> rfl

theorem outcomes_shift (ls : List (Line × Nat)) :
    outcomes (Source.shift n ls) = (outcomes ls).map (shiftOutcome n) := by
  rw [outcomes, outcomes, found_shift, List.map_map, List.map_map]
  exact List.map_congr_left fun m _ => outcome_shift n ls m.1 m.2

end Marker

namespace Ledger
variable (n : Nat)

theorem kept_shift (rs : List (Except Warning Directive)) :
    kept (rs.map (Marker.shiftOutcome n)) = (kept rs).map (·.shift n) := by
  rw [kept, kept, List.filterMap_map, List.map_filterMap]
  refine List.filterMap_congr fun r _ => ?_
  cases r <;> rfl

theorem lost_shift (rs : List (Except Warning Directive)) :
    lost (rs.map (Marker.shiftOutcome n)) = (lost rs).map (·.shift n) := by
  rw [lost, lost, List.filterMap_map, List.map_filterMap]
  refine List.filterMap_congr fun r _ => ?_
  cases r <;> rfl

theorem report_shift (rs : List (Except Warning Directive)) :
    report (rs.map (Marker.shiftOutcome n)) = (report rs).map (·.shift n) := by
  have hkind : ∀ w : Warning, (w.shift n).isNoContent = w.isNoContent := by
    intro w
    cases w <;> rfl
  rw [report, report, lost_shift, List.filter_map, List.filter_map, List.map_append]
  simp [Function.comp_def, hkind]

theorem ofLines_shift {ls : List (Line × Nat)} (h : ls.Pairwise (·.2 < ·.2)) :
    ofLines (Source.shift n ls) =
      ((ofLines ls).1.map (·.shift n), (ofLines ls).2.map (·.shift n)) := by
  -- the books of the reader need not be moved: what comes of them depends on the outcomes only
  rw [ofLines_eq h, ofLines_eq (Source.pairwise_shift n h), Marker.outcomes_shift, kept_shift,
    report_shift]

end Ledger

/-! ### Suppression -/

theorem Scope.shares_shift (n : Nat) (doc : Document) (a l : LineNumber) :
    (of (doc.shift n)).shares (a + n) (l + n) = (of doc).shares a l := by
  rw [Bool.eq_iff_iff, shares_of_iff, shares_of_iff, Document.passages_shift,
    Nat.add_le_add_iff_right]
  refine and_congr_right fun _ => ?_
  constructor
  · rintro ⟨q, hq, v, hv, ha, hl⟩
    obtain ⟨p, hp, rfl⟩ := List.mem_map.1 hq
    rw [Passage.span?_shift] at hv
    obtain ⟨w, hw, rfl⟩ := Option.map_eq_some_iff.1 hv
    rw [Span.contains_shift] at ha hl
    exact ⟨p, hp, w, hw, ha, hl⟩
  · rintro ⟨p, hp, w, hw, ha, hl⟩
    refine ⟨p.shift n, List.mem_map_of_mem hp, w.shift n, ?_, ?_, ?_⟩
    · rw [Passage.span?_shift, hw]
      rfl
    · rw [Span.contains_shift, ha]
    · rw [Span.contains_shift, hl]

namespace Directive
variable (n : Nat) (d : Directive)

theorem inWindow_shift (l : LineNumber) : (d.shift n).inWindow (l + n) = d.inWindow l := by
  rw [inWindow, inWindow, shift]
  cases d.bound? <;> simp

theorem triggersIn_shift (doc : Document) (l : LineNumber) (v : String) :
    (d.shift n).triggersIn (Scope.of (doc.shift n)) (l + n) v =
      d.triggersIn (Scope.of doc) l v := by
  rw [triggersIn, triggersIn, inWindow_shift, ← Scope.shares_shift n doc]
  rfl

end Directive

theorem Suppressor.suppresses_shift (n : Nat) (doc : Document) (ds : List Directive)
    (sentinel : String) (g : Diagnostic) :
    suppresses { of (doc.shift n) (ds.map (·.shift n)) with sentinel } (g.shift n) =
      suppresses { of doc ds with sentinel } g := by
  rw [suppresses, suppresses, of, of, List.any_map]
  exact congrArg ds.any (funext fun d => Directive.triggersIn_shift n d doc g.line _)

/-! ### Empty lines in front -/

theorem Outline.sections_append_of_blank (k : Splitter) {bs : List (Line × Nat)}
    (h : ∀ x ∈ bs, x.1 = .blank) (ls : List (Line × Nat)) :
    sections k (bs ++ ls) = sections k ls := by
  have hbs : bs.foldl (readLine k) {} = {} := Source.foldl_of_blank (fun n => rfl) h
  rw [sections, sections, passages, passages, List.foldl_append, hbs]

theorem Ledger.ofLines_append_of_blank {bs : List (Line × Nat)} (h : ∀ x ∈ bs, x.1 = .blank)
    (ls : List (Line × Nat)) : ofLines (bs ++ ls) = ofLines ls := by
  have hbs : bs.foldl readLine {} = {} := Source.foldl_of_blank (fun n => rfl) h
  rw [ofLines, ofLines, List.foldl_append, hbs]

/-- Empty lines in front of a source move what is ingested down by their number and change nothing
else, and they do not change which diagnostics are suppressed by the directives of the source. -/
theorem ingest_shift (t : SymbolTable) {e : String} {k : Nat}
    (he : Source.lines e.toList = List.replicate k []) (s : String) :
    ∃ i, ingest t s = .ok i ∧ ingest t (e ++ s) = .ok (i.shift k) ∧
      ∀ sentinel (g : Diagnostic),
        Suppressor.suppresses
            { Suppressor.of (i.shift k).document (i.shift k).directives with sentinel }
            (g.shift k) =
          Suppressor.suppresses { Suppressor.of i.document i.directives with sentinel } g := by
  have hend : Source.EndsLine e.toList :=
    Source.EndsLine.of_empty fun l hl => List.eq_of_mem_replicate (he ▸ hl)
  have hblank : ∀ x ∈ Source.numberedLines e, x.1 = .blank :=
    fun x hx => Source.eq_blank_of_mem_numberedLines he hx
  have hlines : Source.numberedLines (e ++ s) =
      Source.numberedLines e ++ Source.shift k (Source.numberedLines s) := by
    have happend := Source.numberedLines_append_of_closed hend (Source.openFence?_of_empty he) s
    rwa [Source.lineCount_of_empty he] at happend
  have hsections : Outline.sections (Splitter.of t) (Source.numberedLines (e ++ s)) =
      (Outline.sections (Splitter.of t) (Source.numberedLines s)).map (·.shift k) := by
    rw [hlines, Outline.sections_append_of_blank _ hblank, Outline.sections_shift]
  have hledger : Ledger.ofLines (Source.numberedLines (e ++ s)) =
      ((Ledger.ofLines (Source.numberedLines s)).1.map (·.shift k),
        (Ledger.ofLines (Source.numberedLines s)).2.map (·.shift k)) := by
    rw [hlines, Ledger.ofLines_append_of_blank hblank,
      Ledger.ofLines_shift k (Source.pairwise_numberedLines s)]
  refine ⟨.ofSource t s, ingest_eq t s, ?_, fun sentinel g => ?_⟩
  · rw [ingest_eq]
    simp only [Ingested.ofSource, Ingested.shift, Document.shift, hsections, hledger]
  · exact Suppressor.suppresses_shift k _ _ sentinel g

theorem ingest_shift_two_lines :
    let s := "# T\n<!-- @suppress -->\nO.\n# U\n<!-- @ -->\n"
    let g : Diagnostic := ⟨"Spelling", 5, "x", none, none⟩
    ∃ i, ingest (SymbolTable.builtin .english) ("\n\r\n" ++ s) = .ok i ∧
      i.document.sentences.map (·.line) = [3, 5, 6] ∧
      i.directives = [⟨.suppress, 5, some 6, []⟩] ∧ i.warnings = [.emptyMarker 7] ∧
      (Suppressor.of i.document i.directives).suppresses g = true := by
  intro s g
  have he : Source.lines "\n\r\n".toList = List.replicate 2 [] := by decide +kernel
  obtain ⟨i, h, hshift, hsuppresses⟩ := ingest_shift (SymbolTable.builtin .english) he s
  obtain rfl := Except.ok.inj ((ingest_eq _ s).symm.trans h)
  refine ⟨_, hshift, by decide +kernel, by decide +kernel, by decide +kernel, ?_⟩
  refine (hsuppresses Diagnostic.scriptValidator ⟨"Spelling", 3, "x", none, none⟩).trans ?_
  decide +kernel

end ProseLint
