import Mathlib.Data.List.SplitBy
import ProseLint.Proofs.Line
import ProseLint.Proofs.Splitter
import ProseLint.SymbolTable.Builtin

/-!
# Sentences as pieces of the joined text

What a splitter does line by line can be said of the text as a whole: the lines are joined, the
joined text is cut after every terminator, and each piece that is not blank is a sentence once it
is trimmed (`split_eq_filterMap_pieces`). The invariant is `State.reading`: a state is what the
characters since the last terminator leave to be read on. It needs terminators that are not blank,
since a blank one is passed over between sentences, and a blank joiner, since the joiner is left
out there.
-/

namespace ProseLint

namespace Text
variable {s t : List Char}

theorem trimStart_append_of_isBlankText (h : isBlankText s = true) :
    trimStart (s ++ t) = trimStart t :=
  List.dropWhile_append_of_pos (List.all_eq_true.1 h)

theorem trimStart_append_of_not (h : isBlankText s = false) :
    trimStart (s ++ t) = trimStart s ++ t := by
  have hne : (s.dropWhile isBlank).isEmpty = false := by
    rw [← Bool.not_eq_true, List.isEmpty_iff]
    intro hnil
    rw [trimStart_eq_nil_iff.1 hnil] at h
    cases h
  rw [trimStart, List.dropWhile_append, hne]
  rfl

theorem filter_eq_nil_of_isBlankText (h : isBlankText s = true) :
    s.filter (!isBlank ·) = [] := by
  rw [List.filter_eq_nil_iff]
  intro c hc
  simp [List.all_eq_true.1 h c hc]

theorem filter_dropWhile_isBlank (s : List Char) :
    (s.dropWhile isBlank).filter (!isBlank ·) = s.filter (!isBlank ·) := by
  have hnone : (s.takeWhile isBlank).filter (!isBlank ·) = [] :=
    filter_eq_nil_of_isBlankText (List.all_eq_true.2 fun c hc => List.mem_takeWhile_imp hc)
  conv_rhs => rw [← List.takeWhile_append_dropWhile (p := isBlank) (l := s)]
  rw [List.filter_append, hnone, List.nil_append]

/-- Trimming takes nothing but blanks. -/
theorem filter_trim (s : List Char) : (trim s).filter (!isBlank ·) = s.filter (!isBlank ·) := by
  rw [trim, trimEnd, dropEndWhile, List.filter_reverse, filter_dropWhile_isBlank,
    List.filter_reverse, List.reverse_reverse, trimStart, filter_dropWhile_isBlank]

theorem trim_trim (s : List Char) : trim (trim s) = trim s := by
  have hstart : trimStart (trim s) = trim s := by
    cases h : trim s with
    | nil => rfl
    | cons c r =>
      have hprefix : trim s <+: trimStart s := List.rdropWhile_prefix isBlank (trimStart s)
      obtain ⟨u, hu⟩ : c :: r <+: s.dropWhile isBlank := h ▸ hprefix
      have hc := List.head_dropWhile_not (l := s) isBlank (by rw [← hu]; exact List.cons_ne_nil _ _)
      simp only [← hu, List.cons_append, List.head_cons] at hc
      exact List.dropWhile_cons_of_neg (by simp [hc])
  rw [trim, hstart, trim, trimEnd_eq_rdropWhile, trimEnd_eq_rdropWhile, List.rdropWhile_idempotent]

end Text

/-- A character with the line that it stands on. -/
abbrev PlacedChar := LineNumber × Char

namespace Splitter
variable (k : Splitter)

/-- The characters of consecutive lines. The joiner stands between lines that hold text, and on no
line itself. -/
def joined (ls : List (LineNumber × List Char)) : List PlacedChar :=
  List.intercalate (k.joiner.map (0, ·))
    ((ls.filter (!·.2.isEmpty)).map fun l => l.2.map (l.1, ·))

/-- Cuts after every terminator. -/
def cut (xs : List PlacedChar) : List (List PlacedChar) :=
  xs.splitBy fun x _ => !k.terminators.contains x.2

/-- The sentence of a piece: its trimmed text, on the line of the first character that is not
blank. A blank piece has none. -/
def sentence? (p : List PlacedChar) : Option Sentence :=
  (p.find? (!Text.isBlank ·.2)).map fun x => ⟨String.ofList (Text.trim (p.map (·.2))), x.1⟩

/-! ### Reading a piece -/

def feed (s : State) (x : PlacedChar) : State :=
  k.readChar x.1 s x.2

/-- The state after the sentences `ss` and the characters `p` of a piece that is not complete. -/
def State.reading (ss : List Sentence) (p : List PlacedChar) : State where
  sentences := ss
  opened? := (p.find? (!Text.isBlank ·.2)).map fun x =>
    ⟨x.1, (Text.trimStart (p.map (·.2))).reverse⟩

section
variable {k} {ss : List Sentence} {p xs : List PlacedChar} {x : PlacedChar}

theorem isBlankText_of_find?_eq_none (h : p.find? (!Text.isBlank ·.2) = none) :
    Text.isBlankText (p.map (·.2)) = true := by
  rw [List.find?_eq_none] at h
  simpa [Text.isBlankText] using h

theorem isBlankText_of_find?_eq_some (h : p.find? (!Text.isBlank ·.2) = some x) :
    Text.isBlankText (p.map (·.2)) = false := by
  have hx : Text.isBlank x.2 = false := by simpa using List.find?_some h
  rw [Text.isBlankText, List.all_eq_false]
  exact ⟨x.2, List.mem_map_of_mem (List.mem_of_find?_eq_some h), by simp [hx]⟩

theorem feed_reading (hx : x.2 ∉ k.terminators) :
    k.feed (.reading ss p) x = .reading ss (p ++ [x]) := by
  cases hp : p.find? (!Text.isBlank ·.2) with
  | none =>
    have hblank := isBlankText_of_find?_eq_none hp
    cases hb : Text.isBlank x.2 with
    | true => simp [feed, readChar, State.reading, hp, hb]
    | false =>
      have hstart : Text.trimStart [x.2] = [x.2] := List.dropWhile_cons_of_neg (by simp [hb])
      simp [feed, readChar, State.reading, hp, hb, hx, Text.trimStart_append_of_isBlankText hblank,
        hstart]
  | some y =>
    have hnot := isBlankText_of_find?_eq_some hp
    simp [feed, readChar, State.reading, hp, hx, Text.trimStart_append_of_not hnot]

theorem feed_reading_of_mem (hx : x.2 ∈ k.terminators) (hb : Text.isBlank x.2 = false) :
    k.feed (.reading ss p) x = .reading (ss ++ (sentence? (p ++ [x])).toList) [] := by
  cases hp : p.find? (!Text.isBlank ·.2) with
  | none =>
    have hblank := isBlankText_of_find?_eq_none hp
    have hstart : Text.trimStart [x.2] = [x.2] := List.dropWhile_cons_of_neg (by simp [hb])
    simp [feed, readChar, State.reading, hp, hb, hx, sentence?, Opened.close, Text.trim,
      Text.trimStart_append_of_isBlankText hblank, hstart]
  | some y =>
    have hnot := isBlankText_of_find?_eq_some hp
    simp [feed, readChar, State.reading, hp, hx, sentence?, Opened.close, Text.trim,
      Text.trimStart_append_of_not hnot]

theorem finish_reading : (State.reading ss p).finish = ss ++ (sentence? p).toList := by
  cases hp : p.find? (!Text.isBlank ·.2) with
  | none => simp [State.finish, State.reading, hp, sentence?]
  | some y => simp [State.finish, State.reading, hp, sentence?, Opened.close, Text.trim]

/-! ### Reading piece by piece -/

theorem cut_of_forall_not_mem (hp : ∀ y ∈ p, y.2 ∉ k.terminators) (hne : p ≠ []) :
    k.cut p = [p] := by
  have hpair : p.Pairwise fun y _ => (!k.terminators.contains y.2) = true :=
    List.pairwise_of_forall_mem_list fun y hy _ _ => by simp [hp y hy]
  exact List.splitBy_of_isChain hne hpair.isChain

theorem cut_append_cons (hp : ∀ y ∈ p, y.2 ∉ k.terminators) (hx : x.2 ∈ k.terminators)
    (xs : List PlacedChar) : k.cut (p ++ x :: xs) = (p ++ [x]) :: k.cut xs := by
  have hpair : (p ++ [x]).Pairwise fun y _ => (!k.terminators.contains y.2) = true := by
    refine List.pairwise_append.2
      ⟨?_, List.pairwise_singleton _ x, fun y hy _ _ => by simp [hp y hy]⟩
    exact List.pairwise_of_forall_mem_list fun y hy _ _ => by simp [hp y hy]
  have hends : ∀ y ∈ (p ++ [x]).getLast?, ∀ z ∈ xs.head?,
      (!k.terminators.contains y.2) = false := by
    intro y hy z _
    obtain rfl : x = y := by simpa using hy
    simp [hx]
  rw [List.append_cons, cut, List.splitBy_append hends,
    List.splitBy_of_isChain (by simp) hpair.isChain]
  rfl

/-- The characters go on with a piece `p` in which no terminator has been read yet. -/
theorem finish_foldl_feed (hk : ∀ c ∈ k.terminators, Text.isBlank c = false)
    (hp : ∀ y ∈ p, y.2 ∉ k.terminators) (ss : List Sentence) (xs : List PlacedChar) :
    (xs.foldl k.feed (.reading ss p)).finish = ss ++ (k.cut (p ++ xs)).filterMap sentence? := by
  induction xs generalizing ss p with
  | nil =>
    rw [List.foldl_nil, finish_reading, List.append_nil]
    cases p with
    | nil => rfl
    | cons y p =>
      rw [cut_of_forall_not_mem hp (List.cons_ne_nil y p)]
      cases h : sentence? (y :: p) <;> simp [h]
  | cons x xs ih =>
    rw [List.foldl_cons]
    by_cases hx : x.2 ∈ k.terminators
    · rw [feed_reading_of_mem hx (hk _ hx), ih (p := []) (by simp), List.nil_append,
        cut_append_cons hp hx]
      cases h : sentence? (p ++ [x]) <;> simp [h]
    · have hp' : ∀ y ∈ p ++ [x], y.2 ∉ k.terminators := by
        intro y hy
        rcases List.mem_append.1 hy with hy | hy
        · exact hp y hy
        · rwa [List.mem_singleton.1 hy]
      rw [feed_reading hx, ih hp', List.append_assoc]
      rfl

/-! ### Joining lines -/

/-- The joiner is kept or passed over as characters of a line are, whatever line it is put on. -/
theorem join_eq_foldl (hk : ∀ c ∈ k.terminators, Text.isBlank c = false)
    (hj : Text.isBlankText k.joiner = true) (s : State) {text : List Char} (ht : text ≠ []) :
    k.join s text = (k.joiner.map (0, ·)).foldl k.feed s := by
  have hopen : ∀ (cs : List Char), Text.isBlankText cs = true → ∀ (o : Opened) (ss : List Sentence),
      cs.foldl (k.readChar 0) ⟨ss, some o⟩ = ⟨ss, some ⟨o.line, cs.reverse ++ o.read⟩⟩ := by
    intro cs
    induction cs with
    | nil => intro _ o ss; rfl
    | cons c cs ih =>
      intro hcs o ss
      obtain ⟨hc, hcs⟩ := Bool.and_eq_true_iff.1 hcs
      have hnot : c ∉ k.terminators := by
        intro hmem
        rw [hk c hmem] at hc
        cases hc
      have hstep : k.readChar 0 ⟨ss, some o⟩ c = ⟨ss, some ⟨o.line, c :: o.read⟩⟩ := by
        simp [readChar, hnot]
      rw [List.foldl_cons, hstep, ih hcs, List.reverse_cons, List.append_assoc]
      rfl
  obtain ⟨ss, o?⟩ := s
  rw [List.foldl_map]
  show _ = k.joiner.foldl (k.readChar 0) _
  cases o? with
  | none => rw [join_of_closed k rfl, foldl_readChar_of_isBlankText k rfl hj]
  | some o =>
    rw [hopen _ hj, join, if_neg (by simpa using ht)]
    rfl

theorem readLine_eq_foldl (hk : ∀ c ∈ k.terminators, Text.isBlank c = false)
    (hj : Text.isBlankText k.joiner = true) (s : State) {l : LineNumber × List Char}
    (hl : l.2 ≠ []) :
    k.readLine s l = (k.joiner.map (0, ·) ++ l.2.map (l.1, ·)).foldl k.feed s := by
  rw [readLine, join_eq_foldl hk hj s hl, List.foldl_append, List.foldl_map (f := (l.1, ·))]
  rfl

theorem foldl_readLine_eq_foldl (hk : ∀ c ∈ k.terminators, Text.isBlank c = false)
    (hj : Text.isBlankText k.joiner = true) (s : State) (ls : List (LineNumber × List Char)) :
    ls.foldl k.readLine s = (((ls.filter (!·.2.isEmpty)).map fun l => l.2.map (l.1, ·)).flatMap
      (k.joiner.map (0, ·) ++ ·)).foldl k.feed s := by
  induction ls generalizing s with
  | nil => rfl
  | cons l ls ih =>
    rw [List.foldl_cons, ih]
    by_cases hl : l.2 = []
    · have hskip : k.readLine s l = s := by simp [readLine, join, hl]
      rw [hskip, List.filter_cons_of_neg (by simp [hl])]
    · rw [readLine_eq_foldl hk hj s hl, List.filter_cons_of_pos (by simpa using hl), List.map_cons,
        List.flatMap_cons, ← List.foldl_append]

theorem append_intercalate {α : Type} (sep : List α) {ts : List (List α)} (h : ts ≠ []) :
    sep ++ List.intercalate sep ts = ts.flatMap (sep ++ ·) := by
  induction ts with
  | nil => exact absurd rfl h
  | cons t ts ih =>
    cases ts with
    | nil => simp
    | cons u ts =>
      rw [List.intercalate_cons_of_ne_nil (List.cons_ne_nil u ts), List.flatMap_cons,
        ← ih (List.cons_ne_nil u ts)]
      simp

theorem foldl_feed_joined (hk : ∀ c ∈ k.terminators, Text.isBlank c = false)
    (hj : Text.isBlankText k.joiner = true) (ls : List (LineNumber × List Char)) :
    ls.foldl k.readLine {} = (k.joined ls).foldl k.feed {} := by
  rw [foldl_readLine_eq_foldl hk hj]
  by_cases h : (ls.filter (!·.2.isEmpty)).map (fun l => l.2.map (l.1, ·)) = []
  · rw [joined, h]
    rfl
  · -- the joiner above the first line is passed over
    have hskip : (k.joiner.map (0, ·)).foldl k.feed {} = {} := by
      rw [List.foldl_map]
      exact foldl_readChar_of_isBlankText k rfl hj 0
    rw [← append_intercalate _ h, List.foldl_append, hskip]
    rfl

/-- The sentences of consecutive lines are what is left of the pieces of their joined text. -/
theorem split_eq_filterMap_pieces (hk : ∀ c ∈ k.terminators, Text.isBlank c = false)
    (hj : Text.isBlankText k.joiner = true) (ls : List (LineNumber × List Char)) :
    k.split ls = (k.cut (k.joined ls)).filterMap sentence? := by
  rw [split, foldl_feed_joined hk hj]
  exact finish_foldl_feed (p := []) hk nofun [] _

/-! ### What the pieces hold -/

theorem filter_content_sentence? (p : List PlacedChar) :
    ((sentence? p).toList.flatMap (·.content.toList)).filter (!Text.isBlank ·) =
      (p.map (·.2)).filter (!Text.isBlank ·) := by
  cases hp : p.find? (!Text.isBlank ·.2) with
  | none =>
    rw [Text.filter_eq_nil_of_isBlankText (isBlankText_of_find?_eq_none hp), sentence?, hp]
    rfl
  | some y =>
    have hcontent : (sentence? p).toList.flatMap (·.content.toList) =
        Text.trim (p.map (·.2)) := by simp [sentence?, hp]
    rw [hcontent, Text.filter_trim]

theorem filter_map_joined (hj : Text.isBlankText k.joiner = true)
    (ls : List (LineNumber × List Char)) :
    ((k.joined ls).map (·.2)).filter (!Text.isBlank ·) =
      (ls.flatMap (·.2)).filter (!Text.isBlank ·) := by
  have hjoiner :
      ((k.joiner.map ((0 : LineNumber), ·)).map (·.2)).filter (!Text.isBlank ·) = [] := by
    rw [List.map_map]
    exact (congrArg _ (List.map_id k.joiner)).trans (Text.filter_eq_nil_of_isBlankText hj)
  have hlines : ((((ls.filter (!·.2.isEmpty)).map fun l => l.2.map (l.1, ·)).flatMap
      (k.joiner.map (0, ·) ++ ·)).map (·.2)).filter (!Text.isBlank ·) =
        (ls.flatMap (·.2)).filter (!Text.isBlank ·) := by
    induction ls with
    | nil => rfl
    | cons l ls ih =>
      by_cases hl : l.2 = []
      · rw [List.filter_cons_of_neg (by simp [hl]), ih, List.flatMap_cons, hl, List.nil_append]
      · have hself : (l.2.map (l.1, ·)).map (·.2) = l.2 := by
          rw [List.map_map]
          exact List.map_id l.2
        rw [List.filter_cons_of_pos (by simpa using hl), List.map_cons, List.flatMap_cons,
          List.map_append, List.filter_append, ih, List.map_append, List.filter_append, hjoiner,
          hself, List.flatMap_cons, List.filter_append, List.nil_append]
  rw [← hlines]
  by_cases h : (ls.filter (!·.2.isEmpty)).map (fun l => l.2.map (l.1, ·)) = []
  · rw [joined, h]
    rfl
  · rw [← append_intercalate _ h, List.map_append, List.filter_append, hjoiner]
    rfl

theorem filter_flatMap_content (ps : List (List PlacedChar)) :
    ((ps.filterMap sentence?).flatMap (·.content.toList)).filter (!Text.isBlank ·) =
      (ps.flatten.map (·.2)).filter (!Text.isBlank ·) := by
  induction ps with
  | nil => rfl
  | cons p ps ih =>
    rw [List.flatten_cons, List.map_append, List.filter_append, ← ih, ← filter_content_sentence?]
    cases h : sentence? p <;> simp [h]

theorem trimmed_of_mem_filterMap {x : Sentence} {ps : List (List PlacedChar)}
    (hx : x ∈ ps.filterMap sentence?) :
    x.content ≠ "" ∧ Text.trim x.content.toList = x.content.toList := by
  obtain ⟨p, -, hp⟩ := List.mem_filterMap.1 hx
  obtain ⟨y, hy, rfl⟩ := Option.map_eq_some_iff.1 hp
  refine ⟨fun hnil => ?_, by simp [Text.trim_trim]⟩
  have htrim : Text.trim (p.map (·.2)) = [] := by simpa using hnil
  have hnot := isBlankText_of_find?_eq_some hy
  rw [Text.isBlankText_of_trim_eq_nil htrim] at hnot
  cases hnot

end

end Splitter

/-! ### The splitter of a table -/

theorem Splitter.mem_terminators_of {t : SymbolTable} {c : Char} :
    c ∈ (of t).terminators ↔
      ∃ s ∈ [Symbol.fullStop, .questionMark, .exclamationMark], ∃ g ∈ t.glyph? s, g.value = c := by
  simp [of, List.mem_filterMap]

theorem Splitter.isBlankText_joinerOf (l : Locale) : Text.isBlankText (joinerOf l) = true := by
  cases l <;> decide

/-- Where no terminator is blank, the sentences of consecutive lines are the pieces of the joined
text between terminators, trimmed, each on the line where its text begins. So they hold all
characters that are not blank, each once and in order. -/
theorem Splitter.split_of_table (t : SymbolTable)
    (h : ∀ s ∈ [Symbol.fullStop, .questionMark, .exclamationMark], ∀ g ∈ t.glyph? s,
      Text.isBlank g.value = false) (ls : List (LineNumber × List Char)) :
    let k := of t
    k.split ls = (k.cut (k.joined ls)).filterMap sentence? ∧
      ((k.split ls).flatMap (·.content.toList)).filter (!Text.isBlank ·) =
        (ls.flatMap (·.2)).filter (!Text.isBlank ·) ∧
      (∀ x ∈ k.split ls, x.content ≠ "" ∧ Text.trim x.content.toList = x.content.toList) ∧
      (ls.Pairwise (·.1 ≤ ·.1) → (k.split ls).Pairwise (·.line ≤ ·.line)) := by
  intro k
  have hk : ∀ c ∈ k.terminators, Text.isBlank c = false := by
    intro c hc
    obtain ⟨s, hs, g, hg, rfl⟩ := mem_terminators_of.1 hc
    exact h s hs g hg
  have hj : Text.isBlankText k.joiner = true := isBlankText_joinerOf t.locale
  have hsplit : k.split ls = (k.cut (k.joined ls)).filterMap sentence? :=
    split_eq_filterMap_pieces hk hj ls
  refine ⟨hsplit, ?_, fun x hx => ?_, pairwise_split⟩
  · rw [hsplit, filter_flatMap_content, cut, List.flatten_splitBy, filter_map_joined hj]
  · rw [hsplit] at hx
    exact trimmed_of_mem_filterMap hx

/-- A run of terminators, a sentence over three lines one of which is empty, and text without an
end. -/
theorem Splitter.split_of_english :
    let t := SymbolTable.builtin .english
    let ls := [(3, " One.. two".toList), (4, []), (6, " 	".toList), (7, "is it? ".toList),
      (9, "Three".toList)]
    (∀ s ∈ [Symbol.fullStop, .questionMark, .exclamationMark], ∀ g ∈ t.glyph? s,
      Text.isBlank g.value = false) ∧
    (of t).split ls = ((of t).cut ((of t).joined ls)).filterMap sentence? ∧
    (of t).split ls = [⟨"One.", 3⟩, ⟨".", 3⟩, ⟨"two  	 is it?", 3⟩, ⟨"Three", 9⟩] := by
  intro t ls
  have ht : ∀ s ∈ [Symbol.fullStop, .questionMark, .exclamationMark], ∀ g ∈ t.glyph? s,
      Text.isBlank g.value = false := by decide
  exact ⟨ht, (split_of_table t ht ls).1, by decide +kernel⟩

end ProseLint
