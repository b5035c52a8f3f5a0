import ProseLint.Proofs.Grammar
import ProseLint.Proofs.Ledger
import ProseLint.SymbolTable.Builtin

/-!
# Markers as they are written

A marker is written as a comment with its kind and its tokens. The words that are read off such a
line are the kind and the words of the tokens (`Marker.words_body`), since a separator stands in
front of every token and the kind holds none. Nothing is asked of a token but that it has no
separator of its own: it may look like the marks of a comment or like another marker.
-/

namespace ProseLint

/-! ### Words -/

namespace Text
variable {sep : Char → Bool} {s u w : List Char}

theorem words_append_of_sep (hu : ∀ c ∈ u, sep c = true) (s : List Char) :
    words sep (u ++ s) = words sep s := by
  induction u with
  | nil => rfl
  | cons c u ih =>
    obtain ⟨hc, hu⟩ := List.forall_mem_cons.1 hu
    rw [List.cons_append, words, if_pos hc, ih hu]

theorem words_of_sep (hu : ∀ c ∈ u, sep c = true) : words sep u = [] := by
  have h := words_append_of_sep hu []
  rwa [List.append_nil] at h

theorem words_append_sep (s : List Char) (hu : ∀ c ∈ u, sep c = true) :
    words sep (s ++ u) = words sep s := by
  induction s with
  | nil => exact words_of_sep hu
  | cons c s ih =>
    have hhead : (s ++ u).head?.all sep = s.head?.all sep := by
      cases s with
      | nil => cases u <;> simp_all
      | cons d s => rfl
    rw [List.cons_append, words, words, ih, hhead]

theorem words_word_append (hne : w ≠ []) (hw : ∀ c ∈ w, sep c = false)
    (hs : s.head?.all sep = true) : words sep (w ++ s) = w :: words sep s := by
  induction w with
  | nil => exact absurd rfl hne
  | cons c w ih =>
    obtain ⟨hc, hw⟩ := List.forall_mem_cons.1 hw
    rw [List.cons_append, words, if_neg (by simp [hc])]
    cases w with
    | nil => rw [List.nil_append, if_pos hs]
    | cons d w =>
      have hd : sep d = false := hw d (List.mem_cons_self ..)
      rw [ih (List.cons_ne_nil d w) hw, List.cons_append, if_neg (by simp [hd])]
      rfl

theorem words_trim (hsep : ∀ c, isBlank c = true → sep c = true) (s : List Char) :
    words sep (trim s) = words sep s := by
  obtain ⟨-, u, v, hu, hv, hs⟩ := trim_eq_iff.1 (rfl : trim s = _)
  conv_rhs => rw [hs]
  rw [words_append_of_sep fun c hc => hsep c (hu c hc),
    words_append_sep _ fun c hc => hsep c (hv c hc)]

end Text

/-! ### Lines with their ends -/

theorem Source.lines_line_append {l e s : List Char} (he : e = ['\n'] ∨ e = ['\r', '\n'])
    (hl : '\n' ∉ l) (hlast : l.getLast? ≠ some '\r') : lines (l ++ (e ++ s)) = l :: lines s := by
  induction l with
  | nil => rcases he with rfl | rfl <;> rw [List.nil_append] <;> simp [lines]
  | cons c l ih =>
    obtain ⟨hc, hl⟩ : '\n' ≠ c ∧ '\n' ∉ l := by simpa using hl
    have hrest : l.getLast? ≠ some '\r' := by
      intro h
      obtain ⟨d, r, rfl⟩ := List.exists_cons_of_ne_nil fun (hnil : l = []) => by simp [hnil] at h
      exact hlast h
    -- a carriage return right before the line feed would be the last character of the line
    refine lines_cons (fun u hu h => ?_) hc.symm (ih hl hrest)
    cases l with
    | nil =>
      rcases he with rfl | rfl
      · exact hlast (by rw [hu]; rfl)
      · cases h
    | cons d l => exact hl ((List.cons.inj h).1 ▸ List.mem_cons_self ..)

namespace Marker

/-! ### Words of a marker -/

theorem isSeparator_of_isBlank {c : Char} (h : Text.isBlank c = true) : isSeparator c = true := by
  rw [isSeparator, h, Bool.true_or]

theorem toLower_of_isSeparator {c : Char} (h : isSeparator c = true) : c.toLower = c := by
  have hcapital : ¬ (c.val ≥ 'A'.val ∧ c.val ≤ 'Z'.val) := by
    intro hc
    have hclass : Text.Class.has [('A'.toNat, 'Z'.toNat)] c = true := by
      simp only [Text.Class.has, List.any_cons, List.any_nil, Bool.or_false, Bool.and_eq_true,
        decide_eq_true_eq]
      exact hc
    -- the ranges of the capital letters and those of the blanks lie apart
    have hblank : Text.blanks.has c = false := Text.Class.Apart.has_eq_false (by decide) hclass
    rw [isSeparator, Text.isBlank, hblank, Bool.false_or, beq_iff_eq] at h
    rw [h] at hc
    revert hc
    decide
  exact dif_neg hcapital

/-- Spaces, tabs and commas. -/
def IsGap (s : List Char) : Prop :=
  ∀ c ∈ s, c ∈ [' ', '\t', ',']

def IsWord (s : List Char) : Prop :=
  s ≠ [] ∧ ∀ c ∈ s, isSeparator c = false

section
variable {s : List Char}

instance : Decidable (IsGap s) :=
  List.decidableBAll _ s

instance : Decidable (IsWord s) :=
  have := List.decidableBAll (isSeparator · = false) s
  instDecidableAnd

theorem IsGap.isSeparator (h : IsGap s) : ∀ c ∈ s, isSeparator c = true := by
  intro c hc
  have hgap := h c hc
  simp only [List.mem_cons, List.not_mem_nil, or_false] at hgap
  rcases hgap with rfl | rfl | rfl <;> decide +kernel

theorem IsGap.newLine_not_mem (h : IsGap s) : '\n' ∉ s :=
  fun hs => absurd (h _ hs) (by decide)

theorem IsWord.newLine_not_mem (h : IsWord s) : '\n' ∉ s :=
  fun hs => absurd (h.2 _ hs) (by decide +kernel)

theorem isWord_of_sameAscii
    (h : Text.sameAscii Kind.suppress.word (String.ofList s) = true) : IsWord s := by
  have hfold : s.map Char.toLower = "suppress".toList := by
    have hfold := beq_iff_eq.1 h
    rw [Text.foldAscii, Text.foldAscii, String.toList_ofList] at hfold
    exact hfold.symm.trans (by decide +kernel)
  have hword : IsWord "suppress".toList := by decide +kernel
  refine ⟨fun hnil => ?_, fun c hc => Bool.eq_false_iff.2 fun hsep => ?_⟩
  · rw [hnil] at hfold
    cases hfold
  · have hlow := hword.2 _ (hfold ▸ List.mem_map_of_mem hc)
    rw [toLower_of_isSeparator hsep, hsep] at hlow
    cases hlow

end

/-- A word of a marker, and what separates it from the word in front of it. -/
structure Token where
  gap : List Char
  word : List Char
  gap_ne : gap ≠ []
  isGap : IsGap gap
  isWord : IsWord word

namespace Token

def text (x : Token) : List Char :=
  x.gap ++ x.word

def parameter (x : Token) : String :=
  Text.lowercase (String.ofList x.word)

theorem head?_text_append (x : Token) (s : List Char) :
    (x.text ++ s).head?.all Marker.isSeparator = true := by
  obtain ⟨c, r, hgap⟩ := List.exists_cons_of_ne_nil x.gap_ne
  rw [text, hgap]
  exact x.isGap.isSeparator c (hgap ▸ List.mem_cons_self ..)

theorem head?_flatMap (xs : List Token) {s : List Char}
    (hs : s.head?.all Marker.isSeparator = true) :
    (xs.flatMap text ++ s).head?.all Marker.isSeparator = true := by
  cases xs with
  | nil => exact hs
  | cons x xs =>
    rw [List.flatMap_cons, List.append_assoc]
    exact x.head?_text_append _

theorem words_flatMap (xs : List Token) {s : List Char}
    (hs : s.head?.all Marker.isSeparator = true) :
    Text.words Marker.isSeparator (xs.flatMap text ++ s) =
      xs.map word ++ Text.words Marker.isSeparator s := by
  induction xs with
  | nil => rfl
  | cons x xs ih =>
    rw [List.flatMap_cons, text, List.append_assoc, List.append_assoc,
      Text.words_append_of_sep x.isGap.isSeparator,
      Text.words_word_append x.isWord.1 x.isWord.2 (head?_flatMap xs hs), ih, List.map_cons,
      List.cons_append]

end Token

/-! ### The line of a marker -/

/-- The text of the marker up to the end of the comment. -/
def body (kind : List Char) (xs : List Token) (rest : List Char) : List Char :=
  kind ++ (xs.flatMap Token.text ++ (rest ++ [' ']))

/-- The marker with its kind, its tokens, and separators after the last of them:
`<!-- @SUPPRESS a, b -->`. -/
def write (kind : List Char) (xs : List Token) (rest : List Char) : List Char :=
  Source.Line.commentStart ++ (' ' :: '@' :: body kind xs rest) ++ Source.Line.commentEnd

variable {kind rest : List Char} {xs : List Token}

theorem getLast?_write (kind : List Char) (xs : List Token) (rest : List Char) :
    (write kind xs rest).getLast? = some '>' := by
  rw [write, List.getLast?_append]
  rfl

theorem newLine_not_mem_write (hkind : IsWord kind) (hrest : IsGap rest) :
    '\n' ∉ write kind xs rest := by
  have htokens : '\n' ∉ xs.flatMap Token.text := by
    simp only [List.mem_flatMap, Token.text, List.mem_append, not_exists, not_and, not_or]
    exact fun x _ => ⟨x.isGap.newLine_not_mem, x.isWord.newLine_not_mem⟩
  simp only [write, body, List.mem_append, List.mem_cons, not_or]
  exact ⟨⟨by decide, by decide, by decide, hkind.newLine_not_mem, htokens,
    hrest.newLine_not_mem, by decide⟩, by decide⟩

theorem read_write (kind : List Char) (xs : List Token) (rest : List Char) :
    Source.Line.read none (write kind xs rest) =
      (.marker (Text.trim (body kind xs rest)), none) := by
  have hencloses : Source.Line.Encloses (write kind xs rest) (' ' :: '@' :: body kind xs rest) :=
    ⟨[], [], by simp, by simp, (List.append_nil _).symm⟩
  have hstart : Text.trimStart (' ' :: '@' :: body kind xs rest) = '@' :: body kind xs rest := rfl
  rw [Source.Line.read_of_encloses hencloses, Source.Line.ofComment_of_trimStart hstart]

/-- The words of the marker are its kind and the words of its tokens. -/
theorem words_body (hkind : IsWord kind) (hrest : IsGap rest) (xs : List Token) :
    words (Text.trim (body kind xs rest)) =
      String.ofList kind :: xs.map fun x => String.ofList x.word := by
  have hend : ∀ c ∈ rest ++ [' '], isSeparator c = true := by
    intro c hc
    rcases List.mem_append.1 hc with hc | hc
    · exact hrest.isSeparator c hc
    · rw [List.mem_singleton.1 hc]
      decide +kernel
  have hhead : (rest ++ [' ']).head?.all isSeparator = true := by
    rw [Option.all_eq_true]
    exact fun c hc => hend c (List.mem_of_head? hc)
  rw [words, Text.words_trim fun c => isSeparator_of_isBlank, body,
    Text.words_word_append hkind.1 hkind.2 (Token.head?_flatMap xs hhead),
    Token.words_flatMap xs hhead, Text.words_of_sep hend, List.append_nil, List.map_cons,
    List.map_map]
  rfl

theorem outcome_of_words {ls : List (Source.Line × Nat)} {n j : LineNumber} {text : List Char}
    {w : String} {ws : List String} (h : words text = w :: ws)
    (hw : Text.sameAscii Kind.suppress.word w = true)
    (hj : Source.firstBelow? Source.Line.isContent n ls = some j) :
    outcome ls n text = .ok
      ⟨.suppress, j, Source.firstBelow? Source.Line.isHeading j ls,
        (ws.map Text.lowercase).eraseDups⟩ := by
  rw [words, Text.words_eq_filter_splitOnP] at h
  rw [outcome, h]
  simp only [hw, hj, if_true]

end Marker

/-- A marker above one line of content: its directive is anchored there and not bounded. -/
theorem Ledger.ofLines_marker_content {x : Source.Line} {text : List Char} {w : String}
    {ws : List String} (h : Marker.words text = w :: ws)
    (hw : Text.sameAscii Kind.suppress.word w = true) (hx : x.isContent = true) :
    ofLines [(.marker text, 1), (x, 2)] =
      ([⟨.suppress, 2, none, (ws.map Text.lowercase).eraseDups⟩], []) := by
  let ls := [(Source.Line.marker text, 1), (x, 2)]
  have hrising : ls.Pairwise (·.2 < ·.2) := by simp [ls]
  have hfound : Marker.found ls = [(1, text)] := by
    cases x <;> first | rfl | cases hx
  have hanchor : Source.firstBelow? Source.Line.isContent 1 ls = some 2 := by
    rw [Source.firstBelow?_cons_of_false rfl]
    exact Source.firstBelow?_cons_of_lt hrising.of_cons (Nat.lt_succ_self 1) hx
  have hbound : Source.firstBelow? Source.Line.isHeading 2 ls = none := by
    rw [Source.firstBelow?_cons_of_le (Nat.le_succ 1),
      Source.firstBelow?_cons_of_le (Nat.le_refl 2)]
    rfl
  have houtcomes : Marker.outcomes ls =
      [.ok ⟨.suppress, 2, none, (ws.map Text.lowercase).eraseDups⟩] := by
    rw [Marker.outcomes, hfound, List.map_singleton, Marker.outcome_of_words h hw hanchor, hbound]
  rw [ofLines_eq hrising, houtcomes]
  rfl

/-- A marker with the kind `SUPPRESS` in letters of any case, written above one line of content, is
read back as one directive on that line. It has no bound, and its parameters are the words of the
tokens in lowercase, each where it occurs first. -/
theorem ingest_written_marker (t : SymbolTable) {kind rest e content line : List Char}
    (xs : List Marker.Token) (hkind : Text.sameAscii Kind.suppress.word (String.ofList kind) = true)
    (hrest : Marker.IsGap rest) (he : e = ['\n'] ∨ e = ['\r', '\n'])
    (hcontent : Source.lines content = [line])
    (hline : (Source.Line.read none line).1.isContent = true) :
    ∃ i, ingest t (String.ofList (Marker.write kind xs rest ++ (e ++ content))) = .ok i ∧
      i.warnings = [] ∧
      i.directives = [⟨.suppress, 2, none, (xs.map Marker.Token.parameter).eraseDups⟩] := by
  have hword := Marker.isWord_of_sameAscii hkind
  generalize hsource : String.ofList (Marker.write kind xs rest ++ (e ++ content)) = source
  have hlines : Source.lines source.toList = [Marker.write kind xs rest, line] := by
    rw [← hsource, String.toList_ofList, Source.lines_line_append he
      (Marker.newLine_not_mem_write hword hrest) (by rw [Marker.getLast?_write]; decide), hcontent]
  have hnumbered : Source.numberedLines source =
      [(.marker (Text.trim (Marker.body kind xs rest)), 1),
        ((Source.Line.read none line).1, 2)] := by
    rw [Source.numberedLines, hlines, Source.Line.readAll, Marker.read_write]
    rfl
  have hledger := Ledger.ofLines_marker_content (Marker.words_body hword hrest xs) hkind hline
  rw [← hnumbered, List.map_map] at hledger
  refine ⟨_, ingest_eq t source, ?_, ?_⟩
  · rw [Ingested.ofSource, hledger]
  · rw [Ingested.ofSource, hledger]
    rfl

/-- Tokens that look like the marks of a comment and like a marker, one of them twice but for the
case of a letter. -/
theorem ingest_written_marker_of_marks :
    let kind := "sUppress".toList
    let xs : List Marker.Token := [
      ⟨[' '], "-->".toList, by decide, by decide, by decide +kernel⟩,
      ⟨[',', '\t'], "<!--@X#".toList, by decide, by decide, by decide +kernel⟩,
      ⟨[','], "<!--@x#".toList, by decide, by decide, by decide +kernel⟩]
    let content := "- Item.\r\n".toList
    let source := "<!-- @sUppress -->,\t<!--@X#,<!--@x#, -->\n- Item.\r\n"
    Text.sameAscii Kind.suppress.word (String.ofList kind) = true ∧ Marker.IsGap [','] ∧
      Source.lines content = ["- Item.".toList] ∧
      (Source.Line.read none "- Item.".toList).1.isContent = true ∧
      String.ofList (Marker.write kind xs [','] ++ (['\n'] ++ content)) = source ∧
      ∃ i, ingest (SymbolTable.builtin .japanese) source = .ok i ∧ i.warnings = [] ∧
        i.directives = [⟨.suppress, 2, none, ["-->", "<!--@x#"]⟩] := by
  intro kind xs content source
  have hkind : Text.sameAscii Kind.suppress.word (String.ofList kind) = true := by decide +kernel
  have hrest : Marker.IsGap [','] := by decide
  have hcontent : Source.lines content = ["- Item.".toList] := by decide +kernel
  have hline : (Source.Line.read none "- Item.".toList).1.isContent = true := by decide +kernel
  have hsource : String.ofList (Marker.write kind xs [','] ++ (['\n'] ++ content)) = source := by
    decide +kernel
  obtain ⟨i, hi, hwarnings, hdirectives⟩ := ingest_written_marker
    (SymbolTable.builtin .japanese) xs hkind hrest (.inl rfl) hcontent hline
  rw [hsource] at hi
  exact ⟨hkind, hrest, hcontent, hline, hsource, i, hi, hwarnings,
    hdirectives.trans (by decide +kernel)⟩

end ProseLint
