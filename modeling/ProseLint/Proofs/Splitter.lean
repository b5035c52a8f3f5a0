import ProseLint.Sentence.Splitter

/-!
# Lines of split sentences

Reading a character either opens no sentence or opens one on the line that is read
(`lines_readChar`), and blank characters open none. So the sentences of consecutive lines start on
some of those that are not blank (`exists_line_of_mem_split`), one of them on the first such line
(`exists_mem_split_of_first`), and in the order of the lines (`pairwise_split`). All this holds for
any terminators and any joiner.
-/

namespace ProseLint.Splitter
variable (k : Splitter)

/-- The lines that the sentences start on, the one being read included. -/
def State.lines (s : State) : List LineNumber :=
  s.finish.map (·.line)

theorem State.lines_eq (s : State) :
    s.lines = s.sentences.map (·.line) ++ (s.opened?.map (·.line)).toList := by
  cases h : s.opened? <;> simp [lines, finish, h, Opened.close]

theorem lines_readChar (n : LineNumber) (s : State) (c : Char) :
    (k.readChar n s c).lines = s.lines ∨ (k.readChar n s c).lines = s.lines ++ [n] := by
  unfold readChar
  split
  · exact .inl rfl
  · cases h : s.opened? with
    | none => right; by_cases ht : c ∈ k.terminators <;> simp [State.lines_eq, h, ht, Opened.close]
    | some o => left; by_cases ht : c ∈ k.terminators <;> simp [State.lines_eq, h, ht, Opened.close]

theorem lines_join (s : State) (cs : List Char) : (k.join s cs).lines = s.lines := by
  unfold join
  split
  · rfl
  · cases h : s.opened? <;> simp [State.lines_eq, h]

theorem lines_foldl_readChar (n : LineNumber) (s : State) (cs : List Char) :
    ∃ m, (cs.foldl (k.readChar n) s).lines = s.lines ++ List.replicate m n := by
  induction cs generalizing s with
  | nil => exact ⟨0, by simp⟩
  | cons c cs ih =>
    obtain ⟨m, hm⟩ := ih (k.readChar n s c)
    rw [List.foldl_cons, hm]
    rcases lines_readChar k n s c with h | h
    · exact ⟨m, by rw [h]⟩
    · exact ⟨m + 1, by rw [h, List.append_assoc]; rfl⟩

/-! ### Blank text -/

theorem readChar_of_isBlank {s : State} {c : Char} (hs : s.opened? = none)
    (hc : Text.isBlank c = true) (n : LineNumber) : k.readChar n s c = s := by
  simp [readChar, hs, hc]

theorem lines_readChar_of_isBlank {c : Char} (hc : Text.isBlank c = true) (n : LineNumber)
    (s : State) : (k.readChar n s c).lines = s.lines := by
  cases h : s.opened? with
  | none => rw [readChar_of_isBlank k h hc]
  | some o =>
    by_cases ht : c ∈ k.terminators <;> simp [readChar, State.lines_eq, h, ht, Opened.close]

theorem lines_readChar_of_not {s : State} {c : Char} (hs : s.opened? = none)
    (hc : Text.isBlank c = false) (n : LineNumber) : (k.readChar n s c).lines = s.lines ++ [n] := by
  by_cases ht : c ∈ k.terminators <;> simp [readChar, State.lines_eq, hs, hc, ht, Opened.close]

theorem join_of_closed {s : State} (hs : s.opened? = none) (cs : List Char) : k.join s cs = s := by
  unfold join
  split
  · rfl
  · rw [hs, Option.map_none, ← hs]

theorem foldl_readChar_of_isBlankText {s : State} (hs : s.opened? = none) {cs : List Char}
    (hcs : Text.isBlankText cs = true) (n : LineNumber) : cs.foldl (k.readChar n) s = s := by
  induction cs with
  | nil => rfl
  | cons c cs ih =>
    obtain ⟨hc, hcs⟩ := Bool.and_eq_true_iff.1 hcs
    rw [List.foldl_cons, readChar_of_isBlank k hs hc, ih hcs]

theorem lines_foldl_readChar_of_isBlankText {cs : List Char} (hcs : Text.isBlankText cs = true)
    (n : LineNumber) (s : State) : (cs.foldl (k.readChar n) s).lines = s.lines := by
  induction cs generalizing s with
  | nil => rfl
  | cons c cs ih =>
    obtain ⟨hc, hcs⟩ := Bool.and_eq_true_iff.1 hcs
    rw [List.foldl_cons, ih hcs, lines_readChar_of_isBlank k hc]

/-- Text that is not blank opens a sentence on its line, unless one is open already. -/
theorem mem_lines_foldl_readChar {s : State} (hs : s.opened? = none) {cs : List Char}
    (hcs : Text.isBlankText cs = false) (n : LineNumber) :
    n ∈ (cs.foldl (k.readChar n) s).lines := by
  induction cs with
  | nil => cases hcs
  | cons c cs ih =>
    rw [List.foldl_cons]
    cases hc : Text.isBlank c with
    | true =>
      rw [readChar_of_isBlank k hs hc]
      exact ih (by simpa [Text.isBlankText, hc] using hcs)
    | false =>
      obtain ⟨m, hm⟩ := lines_foldl_readChar k n (k.readChar n s c) cs
      rw [hm, lines_readChar_of_not k hs hc]
      simp

/-! ### Consecutive lines -/

theorem lines_readLine (s : State) (l : LineNumber × List Char) :
    ∃ m, (k.readLine s l).lines = s.lines ++ List.replicate m l.1 ∧
      (Text.isBlankText l.2 = true → m = 0) := by
  cases hl : Text.isBlankText l.2 with
  | true =>
    refine ⟨0, ?_, fun _ => rfl⟩
    rw [readLine, lines_foldl_readChar_of_isBlankText k hl, lines_join, List.replicate_zero,
      List.append_nil]
  | false =>
    obtain ⟨m, hm⟩ := lines_foldl_readChar k l.1 (k.join s l.2) l.2
    exact ⟨m, by rw [readLine, hm, lines_join], fun h => absurd h Bool.false_ne_true⟩

/-- What consecutive lines add: the numbers of some that are not blank, in their order. -/
theorem lines_foldl_readLine (s : State) (ls : List (LineNumber × List Char)) :
    ∃ ns, (ls.foldl k.readLine s).lines = s.lines ++ ns ∧
      (∀ n ∈ ns, ∃ l ∈ ls, l.1 = n ∧ Text.isBlankText l.2 = false) ∧
      (ls.Pairwise (·.1 ≤ ·.1) → ns.Pairwise (· ≤ ·)) := by
  induction ls generalizing s with
  | nil => exact ⟨[], by simp⟩
  | cons l ls ih =>
    obtain ⟨ns, hns, hmem, hle⟩ := ih (k.readLine s l)
    obtain ⟨m, hm, hblank⟩ := lines_readLine k s l
    refine ⟨List.replicate m l.1 ++ ns, ?_, fun n hn => ?_, fun hp => ?_⟩
    · rw [List.foldl_cons, hns, hm, List.append_assoc]
    · rcases List.mem_append.1 hn with hn | hn
      · obtain ⟨hm0, hn⟩ := List.mem_replicate.1 hn
        exact ⟨l, by simp, hn.symm, Bool.eq_false_iff.2 fun hl => hm0 (hblank hl)⟩
      · obtain ⟨l', hl', hn⟩ := hmem n hn
        exact ⟨l', by simp [hl'], hn⟩
    · obtain ⟨hl, hls⟩ := List.pairwise_cons.1 hp
      refine List.pairwise_append.2 ⟨List.pairwise_replicate.2 (.inr (Nat.le_refl _)), hle hls, ?_⟩
      intro a ha b hb
      obtain ⟨l', hl', rfl, -⟩ := hmem b hb
      exact List.eq_of_mem_replicate ha ▸ hl l' hl'

variable {k} {ls : List (LineNumber × List Char)}

theorem exists_line_of_mem_split {x : Sentence} (h : x ∈ k.split ls) :
    ∃ l ∈ ls, l.1 = x.line ∧ Text.isBlankText l.2 = false := by
  obtain ⟨ns, hns, hmem, -⟩ := lines_foldl_readLine k {} ls
  have hx : x.line ∈ (ls.foldl k.readLine {}).lines := List.mem_map_of_mem h
  rw [hns] at hx
  exact hmem _ hx

/-- The first line that is not blank has a sentence starting on it. -/
theorem exists_mem_split_of_first {pre post : List (LineNumber × List Char)}
    {l : LineNumber × List Char} (hpre : ∀ l' ∈ pre, Text.isBlankText l'.2 = true)
    (hl : Text.isBlankText l.2 = false) : ∃ x ∈ k.split (pre ++ l :: post), x.line = l.1 := by
  have hskip : pre.foldl k.readLine {} = {} := by
    induction pre with
    | nil => rfl
    | cons l' pre ih =>
      obtain ⟨hl', hpre⟩ := List.forall_mem_cons.1 hpre
      have hline : k.readLine {} l' = {} := by
        rw [readLine, join_of_closed k rfl, foldl_readChar_of_isBlankText k rfl hl']
      rw [List.foldl_cons, hline, ih hpre]
  have hopen : l.1 ∈ (k.readLine {} l).lines := by
    rw [readLine, join_of_closed k rfl]
    exact mem_lines_foldl_readChar k rfl hl l.1
  obtain ⟨ns, hns, -⟩ := lines_foldl_readLine k (k.readLine {} l) post
  have hmem : l.1 ∈ ((pre ++ l :: post).foldl k.readLine {}).lines := by
    rw [List.foldl_append, hskip, List.foldl_cons, hns]
    exact List.mem_append_left _ hopen
  exact List.mem_map.1 hmem

theorem pairwise_split (h : ls.Pairwise (·.1 ≤ ·.1)) : (k.split ls).Pairwise (·.line ≤ ·.line) := by
  obtain ⟨ns, hns, -, hle⟩ := lines_foldl_readLine k {} ls
  have heq : (k.split ls).map (·.line) = ns := hns
  exact List.pairwise_map.1 (heq ▸ hle h)

end ProseLint.Splitter
