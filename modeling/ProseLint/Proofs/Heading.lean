import ProseLint.Proofs.Grammar
import ProseLint.Proofs.Pieces
import ProseLint.Proofs.Skeleton

/-!
# The text of a heading

Splitting text into sentences keeps all its characters that are not blank, whatever the terminators
are (`filter_split`), so a header has what `headingText` leaves of the line. That function drops the
hashes at the end without regard to what stands in front of them: a text that ends in a hash loses
all its last hashes, and every other text is kept whole.
-/

namespace ProseLint

namespace Text
variable {p : Char → Bool} {s : List Char}

theorem filter_trimEnd (s : List Char) :
    (trimEnd s).filter (!isBlank ·) = s.filter (!isBlank ·) := by
  rw [trimEnd, dropEndWhile, List.filter_reverse, filter_dropWhile_isBlank, List.filter_reverse,
    List.reverse_reverse]

theorem dropEndWhile_eq_self_iff : dropEndWhile p s = s ↔ ∀ c ∈ s.getLast?, p c = false := by
  refine (List.rdropWhile_eq_self_iff (p := p)).trans ?_
  rcases List.eq_nil_or_concat s with rfl | ⟨t, c, rfl⟩ <;> simp

/-- If the characters dropped at the end are not blank, then those that are not blank stay the same
only if none is dropped. -/
theorem filter_dropEndWhile_eq_iff (hp : ∀ c, p c = true → isBlank c = false) :
    (dropEndWhile p s).filter (!isBlank ·) = s.filter (!isBlank ·) ↔
      ∀ c ∈ s.getLast?, p c = false := by
  rw [← dropEndWhile_eq_self_iff]
  constructor
  · intro h
    obtain ⟨v, hv, hs⟩ := exists_dropEndWhile_append p s
    have hkeep : v.filter (!isBlank ·) = v :=
      List.filter_eq_self.2 fun c hc => by simp [hp c (hv c hc)]
    have happend : s.filter (!isBlank ·) = (dropEndWhile p s).filter (!isBlank ·) ++ v := by
      conv_lhs => rw [hs]
      rw [List.filter_append, hkeep]
    obtain rfl : v = [] := List.append_right_eq_self.1 (happend.symm.trans h.symm)
    exact (hs.trans (List.append_nil _)).symm
  · intro h
    rw [h]

end Text

/-! ### What sentences keep of a text -/

namespace Splitter
variable (k : Splitter)

/-- The characters read so far that are not blank. -/
def State.kept (s : State) : List Char :=
  (s.finish.flatMap (·.content.toList)).filter (!Text.isBlank ·)

theorem State.kept_eq (s : State) : s.kept =
    (s.sentences.flatMap (·.content.toList) ++ s.opened?.elim [] (·.read.reverse)).filter
      (!Text.isBlank ·) := by
  rw [kept, finish]
  cases s.opened? <;> simp [Opened.close, Text.filter_trimEnd]

theorem kept_readChar (n : LineNumber) (s : State) (c : Char) :
    (k.readChar n s c).kept = s.kept ++ [c].filter (!Text.isBlank ·) := by
  rw [State.kept_eq, State.kept_eq, ← List.filter_append]
  unfold readChar
  cases hs : s.opened? with
  | none =>
    cases hc : Text.isBlank c with
    | true => simp [hs, hc]
    | false =>
      by_cases ht : c ∈ k.terminators
      · simp [ht, Opened.close, hc, Text.filter_trimEnd]
      · simp [ht]
  | some o =>
    by_cases ht : c ∈ k.terminators
    · simp [ht, Opened.close, Text.filter_trimEnd]
    · simp [ht]

theorem kept_foldl_readChar (n : LineNumber) (s : State) (cs : List Char) :
    (cs.foldl (k.readChar n) s).kept = s.kept ++ cs.filter (!Text.isBlank ·) := by
  induction cs generalizing s with
  | nil => exact (List.append_nil _).symm
  | cons c cs ih =>
    rw [List.foldl_cons, ih, kept_readChar, List.append_assoc, ← List.filter_append,
      List.singleton_append]

variable {k}

theorem kept_join (hj : Text.isBlankText k.joiner = true) (s : State) (cs : List Char) :
    (k.join s cs).kept = s.kept := by
  have hjoiner : k.joiner.filter (!Text.isBlank ·) = [] := Text.filter_eq_nil_of_isBlankText hj
  unfold join
  split
  · rfl
  · cases hs : s.opened? <;> simp [State.kept_eq, hs, hjoiner]

theorem kept_foldl_readLine (hj : Text.isBlankText k.joiner = true) (s : State)
    (ls : List (LineNumber × List Char)) :
    (ls.foldl k.readLine s).kept = s.kept ++ (ls.flatMap (·.2)).filter (!Text.isBlank ·) := by
  induction ls generalizing s with
  | nil => exact (List.append_nil _).symm
  | cons l ls ih =>
    rw [List.foldl_cons, ih, readLine, kept_foldl_readChar, kept_join hj, List.append_assoc,
      ← List.filter_append, List.flatMap_cons]

/-- Splitting keeps the characters that are not blank in their order, also where a terminator is
missing or blank. -/
theorem filter_split (hj : Text.isBlankText k.joiner = true) (ls : List (LineNumber × List Char)) :
    ((k.split ls).flatMap (·.content.toList)).filter (!Text.isBlank ·) =
      (ls.flatMap (·.2)).filter (!Text.isBlank ·) :=
  kept_foldl_readLine hj {} ls

end Splitter

/-! ### The header of a heading -/

open Source (Line)

theorem Outline.exists_section_of_heading {k : Splitter} {ls : List (Line × Nat)} {level n : Nat}
    {text : List Char} (h : (.heading level text, n) ∈ ls) :
    ∃ s ∈ Document.sections ⟨sections k ls⟩, s.own.title = (level, k.split [(n, text)]) := by
  obtain ⟨p, ps, hpassages⟩ : ∃ p ps, passages k ls = p :: ps := by
    refine List.exists_cons_of_ne_nil fun hnil => ?_
    have htitles := titles_passages k ls
    rw [hnil] at htitles
    cases htitles
  have htitles : ps.map (·.title) =
      (Source.headings ls).map fun h => (h.1, k.split [h.2]) := by
    have htitles := titles_passages k ls
    rw [hpassages] at htitles
    exact (List.cons.inj htitles).2
  have hmem : (level, k.split [(n, text)]) ∈ ps.map (·.title) := by
    rw [htitles]
    exact List.mem_map_of_mem (a := (level, n, text)) (List.mem_filterMap.2 ⟨_, h, rfl⟩)
  obtain ⟨q, hq, htitle⟩ := List.mem_map.1 hmem
  rw [← preorders_nest ps] at hq
  obtain ⟨s, hs, rfl⟩ := List.mem_map.1 hq
  refine ⟨s, ?_, htitle⟩
  rw [Document.sections_eq, sections_eq_append hpassages, preorders_preamble_append]
  exact List.mem_append_right _ hs

theorem Source.Line.read_heading {level : Nat} {text : List Char} (hpos : 1 ≤ level)
    (hsix : level ≤ 6) (htext : Text.trim text = text) :
    Line.read none (List.replicate level '#' ++ ' ' :: text) =
      (.heading level (Text.trimEnd (Text.dropEndWhile (· == '#') text)), none) := by
  have hheads : Line.Heads (List.replicate level '#' ++ ' ' :: text) level (' ' :: text) :=
    ⟨hpos, hsix, by simp [Text.isIndent], 0, Nat.zero_le 3, rfl⟩
  have hbare : Text.Bare Text.isIndent text :=
    (Text.bare_of_trim_eq_self htext).mono fun _ => Text.isIndent_eq_false
  have hstrip : Line.stripIndent (' ' :: text) = text :=
    Text.dropEnds_eq_iff.2 ⟨hbare, [' '], [], by simp [Text.isIndent], by simp, by simp⟩
  have hread := (Line.Reading.heading hheads).read_eq
  rwa [Line.headingText, hstrip] at hread

/-- A heading outside of fences, its text trimmed: the header of its section has the characters of
the text that are not blank, in order, but without the hashes at the end of the text. So it has all
of them just if the text does not end in a hash, be there a blank before its last hashes or not. -/
theorem ingest_heading_text (t : SymbolTable) {source : String} {above below : List (List Char)}
    {level : Nat} {text : List Char}
    (hlines : Source.lines source.toList =
      above ++ (List.replicate level '#' ++ ' ' :: text) :: below)
    (hfence : Line.fenceBelow none above = none) (hpos : 1 ≤ level) (hsix : level ≤ 6)
    (htext : Text.trim text = text) :
    let n := above.length + 1
    let kept := Text.dropEndWhile (· == '#') text
    ∃ i, ingest t source = .ok i ∧
      (.heading level (Text.trimEnd kept), n) ∈ Source.numberedLines source ∧
      ∃ s ∈ i.document.sections, s.own.level = level ∧ (∀ x ∈ s.own.header, x.line = n) ∧
        let header := (s.own.header.flatMap (·.content.toList)).filter (!Text.isBlank ·)
        header = kept.filter (!Text.isBlank ·) ∧
          (header = text.filter (!Text.isBlank ·) ↔ text.getLast? ≠ some '#') := by
  intro n kept
  have hx : (.heading level (Text.trimEnd kept), n) ∈ Source.numberedLines source := by
    have := Source.read_mem_numberedLines hlines
    rwa [hfence, Line.read_heading hpos hsix htext] at this
  obtain ⟨s, hs, htitle⟩ := Outline.exists_section_of_heading (k := Splitter.of t) hx
  obtain ⟨hlevel, hheader⟩ := Prod.mk.inj htitle
  have hkept : (s.own.header.flatMap (·.content.toList)).filter (!Text.isBlank ·) =
      kept.filter (!Text.isBlank ·) := by
    rw [hheader, Splitter.filter_split (Splitter.isBlankText_joinerOf t.locale), List.flatMap_cons,
      List.flatMap_nil, List.append_nil, Text.filter_trimEnd]
  refine ⟨_, ingest_eq t source, hx, s, hs, hlevel, fun x hxs => ?_, hkept, ?_⟩
  · rw [hheader] at hxs
    obtain ⟨l, hl, hline, -⟩ := Splitter.exists_line_of_mem_split hxs
    rw [← hline, List.mem_singleton.1 hl]
  · simp only [hkept]
    refine (Text.filter_dropEndWhile_eq_iff fun c hc => ?_).trans ?_
    · rw [beq_iff_eq.1 hc]
      decide
    · cases text.getLast? <;> simp

/-- Two sentences on the second line of a source, with closing hashes apart from them. -/
theorem ingest_heading_text_two_sentences :
    let source := "Above.\n### Issue #1. Tags ##\nBelow.\n"
    let text := "Issue #1. Tags ##".toList
    Source.lines source.toList = ["Above.".toList] ++
        (List.replicate 3 '#' ++ ' ' :: text) :: ["Below.".toList] ∧
      Line.fenceBelow none ["Above.".toList] = none ∧ Text.trim text = text ∧
      ∃ i, ingest (SymbolTable.builtin .english) source = .ok i ∧ ∃ s ∈ i.document.sections,
        s.own.level = 3 ∧ (∀ x ∈ s.own.header, x.line = 2) ∧
        (s.own.header.flatMap (·.content.toList)).filter (!Text.isBlank ·) =
          "Issue#1.Tags".toList := by
  intro source text
  have hlines : Source.lines source.toList = ["Above.".toList] ++
      (List.replicate 3 '#' ++ ' ' :: text) :: ["Below.".toList] := by decide +kernel
  have hfence : Line.fenceBelow none ["Above.".toList] = none := by decide +kernel
  have htext : Text.trim text = text := by decide +kernel
  obtain ⟨i, hi, -, s, hs, hlevel, hline, hkept, -⟩ := ingest_heading_text
    (SymbolTable.builtin .english) hlines hfence (by decide) (by decide) htext
  exact ⟨hlines, hfence, htext, i, hi, s, hs, hlevel, hline, hkept.trans (by decide +kernel)⟩

/-- The hash of the text goes, though no blank stands in front of it. -/
theorem ingest_drops_hash_of_text :
    let text := "C#".toList
    Text.trim text = text ∧ (Text.dropEndWhile (· == '#') text).getLast? = some 'C' ∧
      ∃ i, ingest (SymbolTable.builtin .english) "# C#\n" = .ok i ∧
        i.document.sections.map (·.own.title) = [(1, [⟨"C", 1⟩])] := by
  intro text
  exact ⟨by decide +kernel, by decide +kernel, _, ingest_eq _ _, by decide +kernel⟩

end ProseLint
