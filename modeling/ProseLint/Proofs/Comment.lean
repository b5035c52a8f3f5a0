import Mathlib.Data.List.Nodup
import ProseLint.Proofs.Blocks
import ProseLint.Proofs.Contribution
import ProseLint.Proofs.Grammar
import ProseLint.Proofs.Pieces

/-!
# Lines with more than one comment

A line is taken for a comment by the marks at its two ends, whatever stands between them. So it is
one comment, or it runs on behind the end of its first comment (`Overruns`), and then all of the
line is taken for that comment: a marker gets what follows it as words, and else it is lost.
-/

namespace ProseLint

theorem exists_first_infix {α : Type} {mark s : List α} (hne : mark ≠ []) (h : mark <:+: s) :
    ∃ first beyond, s = first ++ mark ++ beyond ∧ ¬ mark <:+: first := by
  have hnil : ¬ mark <:+: [] := fun h => hne (List.infix_nil.1 h)
  induction s with
  | nil => exact absurd h hnil
  | cons c s ih =>
    by_cases hc : mark <+: c :: s
    · obtain ⟨beyond, hbeyond⟩ := hc
      exact ⟨[], beyond, hbeyond.symm, hnil⟩
    · obtain ⟨first, beyond, rfl, hfirst⟩ := ih ((List.infix_cons_iff.1 h).resolve_left hc)
      refine ⟨c :: first, beyond, rfl, fun hmark => ?_⟩
      -- a mark at the start of `c :: first` would be one at the start of the whole text
      rcases List.infix_cons_iff.1 hmark with hmark | hmark
      · exact hc (hmark.trans (by rw [List.append_assoc]; exact List.prefix_append _ _))
      · exact hfirst hmark

namespace Source.Line
variable {line body body' first beyond s : List Char}

/-- The line is a single comment, with only spaces and tabs around it. -/
def OneComment (line : List Char) : Prop :=
  ∃ body, Encloses line body ∧ ¬ commentEnd <:+: body

/-- A comment with the body `first` ends within the line, which goes on with `beyond` and a further
mark that ends comments. -/
def Overruns (line first beyond : List Char) : Prop :=
  Encloses line (first ++ commentEnd ++ beyond) ∧ ¬ commentEnd <:+: first

theorem Encloses.body_eq (h : Encloses line body) (h' : Encloses line body') : body = body' :=
  Option.some.inj ((commentBody?_eq_some_iff.2 h).symm.trans (commentBody?_eq_some_iff.2 h'))

theorem Overruns.not_oneComment (h : Overruns line first beyond) : ¬ OneComment line := by
  rintro ⟨body, hbody, hnot⟩
  rw [hbody.body_eq h.1] at hnot
  exact hnot ⟨first, beyond, rfl⟩

theorem isComment_ofComment (body : List Char) : (ofComment body).isComment = true := by
  unfold ofComment
  split <;> rfl

theorem isComment_read_iff :
    (read none line).1.isComment = true ↔ ∃ body, Encloses line body := by
  constructor
  · intro h
    have hreading := reading_read line
    generalize read none line = x at h hreading
    cases hreading with
    | marker hbody => exact ⟨_, hbody⟩
    | comment hbody => exact ⟨_, hbody⟩
    | _ => cases h
  · rintro ⟨body, h⟩
    rw [read_of_encloses h]
    exact isComment_ofComment body

theorem exists_encloses_iff_or : (∃ body, Encloses line body) ↔
    OneComment line ∨ ∃ first beyond, Overruns line first beyond := by
  constructor
  · rintro ⟨body, h⟩
    by_cases hend : commentEnd <:+: body
    · obtain ⟨first, beyond, rfl, hfirst⟩ := exists_first_infix (List.cons_ne_nil _ _) hend
      exact .inr ⟨first, beyond, h, hfirst⟩
    · exact .inl ⟨body, h, hend⟩
  · rintro (⟨body, h, -⟩ | ⟨first, beyond, h, -⟩) <;> exact ⟨_, h⟩

/-! ### What is made of the comment -/

theorem trimStart_append_commentEnd (first beyond : List Char) :
    Text.trimStart (first ++ commentEnd ++ beyond) =
      Text.trimStart first ++ commentEnd ++ beyond := by
  cases hfirst : Text.isBlankText first with
  | true =>
    rw [List.append_assoc, Text.trimStart_append_of_isBlankText hfirst,
      Text.trimStart_eq_nil_iff.2 hfirst]
    rfl
  | false => rw [List.append_assoc, Text.trimStart_append_of_not hfirst, ← List.append_assoc]

theorem Overruns.read_of_marker (h : Overruns line first beyond)
    (hs : Text.trimStart first = '@' :: s) :
    (read none line).1 = marker (Text.trim (s ++ commentEnd ++ beyond)) := by
  rw [read_of_encloses h.1]
  refine ofComment_of_trimStart ?_
  rw [trimStart_append_commentEnd, hs]
  rfl

theorem Overruns.read_of_comment (h : Overruns line first beyond)
    (hs : ∀ s, Text.trimStart first ≠ '@' :: s) : (read none line).1 = comment := by
  rw [read_of_encloses h.1]
  refine ofComment_of_trimStart_ne fun s hmark => ?_
  rw [trimStart_append_commentEnd, List.append_assoc] at hmark
  cases hfirst : Text.trimStart first with
  | nil =>
    rw [hfirst] at hmark
    cases hmark
  | cons c r =>
    rw [hfirst] at hmark
    exact hs r (by rw [hfirst, (List.cons.inj hmark).1])

end Source.Line

/-! ### The document -/

open Source (Line)

theorem Source.eq_of_mem_numberedLines {source : String} {x y : Line × Nat}
    (hx : x ∈ numberedLines source) (hy : y ∈ numberedLines source) (h : x.2 = y.2) : x = y := by
  have hnodup : ((numberedLines source).map (·.2)).Nodup :=
    (List.pairwise_map.2 (pairwise_numberedLines source)).imp Nat.ne_of_lt
  exact List.inj_on_of_nodup_map hnodup hx hy h

theorem Outline.line_ne_of_isComment {k : Splitter} {source : String} {x : Line} {n : Nat}
    (hx : (x, n) ∈ Source.numberedLines source) (hc : x.isComment = true) :
    ∀ s ∈ Document.sentences ⟨sections k (Source.numberedLines source)⟩, s.line ≠ n := by
  rintro s hs rfl
  obtain ⟨y, hy, hline, hblank⟩ := exists_line_of_mem_sentences hs
  obtain rfl : y = (x, s.line) := Source.eq_of_mem_numberedLines hy hx hline
  cases x <;> cases hc <;> cases hblank

/-- Outside of fences the lines taken for comments and markers are single comments, and lines that
run on behind the end of their first comment. No sentence starts on such a line, and a marker has
what follows its comment among its words. -/
theorem ingest_comment_line (t : SymbolTable) {source : String} {above below : List (List Char)}
    {line : List Char} (hlines : Source.lines source.toList = above ++ line :: below)
    (hfence : Line.fenceBelow none above = none) :
    let x := (Line.read none line).1
    ∃ i, ingest t source = .ok i ∧ (x, above.length + 1) ∈ Source.numberedLines source ∧
      (x.isComment = true ↔
        Line.OneComment line ∨ ∃ first beyond, Line.Overruns line first beyond) ∧
      (x.isComment = true → ∀ s ∈ i.document.sentences, s.line ≠ above.length + 1) ∧
      ∀ first beyond, Line.Overruns line first beyond → ¬ Line.OneComment line ∧
        (∀ s, Text.trimStart first = '@' :: s →
          x = .marker (Text.trim (s ++ Line.commentEnd ++ beyond))) ∧
        ((∀ s, Text.trimStart first ≠ '@' :: s) → x = .comment) := by
  intro x
  have hx : (x, above.length + 1) ∈ Source.numberedLines source := by
    have := Source.read_mem_numberedLines hlines
    rwa [hfence] at this
  refine ⟨_, ingest_eq t source, hx, ?_, Outline.line_ne_of_isComment hx, ?_⟩
  · exact Line.isComment_read_iff.trans Line.exists_encloses_iff_or
  · exact fun first beyond h =>
      ⟨h.not_oneComment, fun s hs => h.read_of_marker hs, h.read_of_comment⟩

/-- A marker with text behind its comment, and the words that it gets. -/
theorem ingest_comment_line_of_marker :
    let t := SymbolTable.builtin .english
    let line := "  <!-- @suppress a --> text <!-- b -->".toList
    let source := "# T\n  <!-- @suppress a --> text <!-- b -->\nBelow.\n"
    let text := "suppress a --> text <!-- b".toList
    Source.lines source.toList = ["# T".toList] ++ line :: ["Below.".toList] ∧
      Line.fenceBelow none ["# T".toList] = none ∧ (Line.read none line).1 = .marker text ∧
      ¬ Line.OneComment line ∧
      Marker.words text = ["suppress", "a", "-->", "text", "<!--", "b"] ∧
      ∃ i, ingest t source = .ok i ∧ ∀ s ∈ i.document.sentences, s.line ≠ 2 := by
  intro t line source text
  have hlines : Source.lines source.toList = ["# T".toList] ++ line :: ["Below.".toList] := by
    decide +kernel
  have hfence : Line.fenceBelow none ["# T".toList] = none := by decide +kernel
  have hover : Line.Overruns line " @suppress a ".toList " text <!-- b ".toList :=
    ⟨⟨_, [], Line.isIndent_of_mem_replicate 2, by simp, rfl⟩, by decide +kernel⟩
  obtain ⟨i, hi, -, -, hlost, hread⟩ := ingest_comment_line t hlines hfence
  obtain ⟨hnot, hmarker, -⟩ := hread _ _ hover
  have htext := hmarker "suppress a ".toList (by decide +kernel)
  exact ⟨hlines, hfence, htext.trans (by decide +kernel), hnot, by decide +kernel, i, hi,
    hlost (by rw [htext]; rfl)⟩

/-- Text between two comments on one line is in no sentence. -/
theorem ingest_drops_text_between_comments :
    let line := "<!-- a --> text <!-- b -->".toList
    (Line.read none line).1.isComment = true ∧ ¬ Line.OneComment line ∧
      ∃ i, ingest (SymbolTable.builtin .japanese) "<!-- a --> text <!-- b -->\n" = .ok i ∧
        i.document.sentences = [] := by
  intro line
  have hover : Line.Overruns line " a ".toList " text <!-- b ".toList :=
    ⟨⟨[], [], by simp, by simp, rfl⟩, by decide +kernel⟩
  exact ⟨by decide +kernel, hover.not_oneComment, _, ingest_eq _ _, by decide +kernel⟩

end ProseLint
