import Mathlib.Tactic.SplitIfs
import ProseLint.Toml.Quoted

/-!
# A string is read back from its quotes

`read?_write`: whatever form a string is written in, it is read back, as long as the line ends after
it. In the basic forms every character is either itself or an escape that gives it back
(`escape_cases`). In the blocks no three quotes stand together before the delimiter, and the one or
two that may stand right before it are read as part of the string.
-/

namespace ProseLint.Toml.Quoted

/-! ### Escapes -/

-- The letter of a short escape gives its control, and cannot be taken for anything else.
theorem of_mem_shortEscapes :
    ∀ p ∈ shortEscapes, shortEscapes.find? (·.1 == p.1) = some p ∧ p.1 ≠ 'x' ∧ p.1 ≠ 'u' ∧
      p.1 ≠ 'U' ∧ isBlank p.1 = false ∧ p.1 ≠ '\n' ∧ p.1 ≠ '\r' := by
  decide

theorem scalar?_control :
    ∀ n < 128, scalar? ['0', '0', (Text.hexDigit (n / 16)).toUpper,
      (Text.hexDigit (n % 16)).toUpper] = some (Char.ofNat n) := by
  decide

theorem toNat_lt_of_isControl {c : Char} (h : isControl c = true) : c.toNat < 128 := by
  simp only [isControl, Bool.or_eq_true, Bool.and_eq_true, decide_eq_true_eq, beq_iff_eq] at h
  rcases h with ⟨h, -⟩ | rfl
  · omega
  · decide

/-- A character is written as it is, or as an escape that gives it back and does not look like the
end of a line. -/
theorem escape_cases (c : Char) :
    (escape c = [c] ∧ c ≠ '\x22' ∧ c ≠ '\\' ∧ isControl c = false) ∨
    ∃ e t, escape c = '\\' :: e :: t ∧ isBlank e = false ∧ e ≠ '\n' ∧ e ≠ '\r' ∧
      ∀ s, readEscape? (e :: (t ++ s)) = some (c, s) := by
  fun_cases escape c with
  | case1 e c' hf =>
    obtain ⟨hfind, hx, hu, hU, hb, hn, hr⟩ := of_mem_shortEscapes _ (List.mem_of_find?_eq_some hf)
    obtain rfl : c' = c := by
      have h := List.find?_some hf
      simp only [Bool.and_eq_true, beq_iff_eq] at h
      exact h.1
    refine .inr ⟨e, [], rfl, hb, hn, hr, fun s => ?_⟩
    rw [List.nil_append, readEscape?.eq_4 _ _ (fun _ _ _ h => (hx h).elim)
      (fun _ _ _ _ _ h => (hu h).elim) (fun _ _ _ _ _ _ _ _ _ h => (hU h).elim), hfind]
    rfl
  | case2 hf hc =>
    refine .inr ⟨'u', _, rfl, by decide, by decide, by decide, fun s => ?_⟩
    have hscalar := scalar?_control _ (toNat_lt_of_isControl hc)
    rw [Char.ofNat_toNat] at hscalar
    simp only [List.cons_append, List.nil_append, readEscape?, hscalar, Option.map_some]
  | case3 hf hc =>
    have hne : c ≠ '\x22' ∧ c ≠ '\\' := by
      constructor <;> rintro rfl <;> revert hf <;> decide
    exact .inl ⟨rfl, hne.1, hne.2, by simpa using hc⟩

theorem exists_escape_eq_cons (c : Char) :
    ∃ h t, escape c = h :: t ∧ h ≠ '\x22' ∧ isControl h = false := by
  rcases escape_cases c with ⟨he, hq, -, hc⟩ | ⟨e, t, he, -⟩
  · exact ⟨c, [], he, hq, hc⟩
  · exact ⟨'\\', e :: t, he, by decide, by decide⟩

/-! ### Strings on one line -/

theorem readBasic?_escape (c : Char) (s : List Char) :
    readBasic? (escape c ++ s) = (readBasic? s).map fun (cs, r) => (c :: cs, r) := by
  rcases escape_cases c with ⟨he, hq, hb, hc⟩ | ⟨e, t, he, -, -, -, hread⟩
  · rw [he, List.singleton_append, readBasic?.eq_4 _ _ hq hb, hc]
    rfl
  · rw [he, List.cons_append, List.cons_append, readBasic?.eq_3]
    split
    next h => rw [hread] at h; contradiction
    next h =>
      rw [hread] at h
      cases h
      rfl

theorem readBasic?_flatMap_escape (s r : List Char) :
    readBasic? (s.flatMap escape ++ '\x22' :: r) = some (s, r) := by
  induction s with
  | nil => exact readBasic?.eq_2 r
  | cons c s ih =>
    rw [List.flatMap_cons, List.append_assoc, readBasic?_escape, ih]
    rfl

theorem readLiteral?_append {s : List Char} (hq : '\x27' ∉ s)
    (hc : ∀ c ∈ s, isControl c = false) (r : List Char) :
    readLiteral? (s ++ '\x27' :: r) = some (s, r) := by
  induction s with
  | nil => rfl
  | cons c s ih =>
    obtain ⟨hne, hq⟩ := not_or.1 fun h => hq (List.mem_cons.2 h)
    obtain ⟨hcontrol, hc⟩ := List.forall_mem_cons.1 hc
    rw [List.cons_append, readLiteral?.eq_3 _ _ (Ne.symm hne), hcontrol, ih hq hc]
    rfl

/-! ### Blocks -/

theorem closingQuotes_newline {q : Char} (hq : q ≠ '\n') (r : List Char) :
    closingQuotes q ('\n' :: r) = ([], '\n' :: r) := by
  have hne : ('\n' == q) = false := beq_false_of_ne (Ne.symm hq)
  cases r <;> simp [closingQuotes, hne]

section
variable {c : Char} {s : List Char}

theorem readBasicBlock?_char (hb : c ≠ '\\') (hr : c ≠ '\r') (hc : isControl c = true → c = '\n')
    (hq : c = '\x22' → ∀ t, s ≠ '\x22' :: '\x22' :: t) :
    readBasicBlock? (c :: s) = (readBasicBlock? s).map fun (cs, r) => (c :: cs, r) := by
  rw [readBasicBlock?.eq_5 _ _ (fun t h ht => hq h t ht) hb (fun _ h => (hr h).elim), if_neg]
  simpa using hc

theorem readLiteralBlock?_char (hr : c ≠ '\r') (hc : isControl c = true → c = '\n')
    (hq : c = '\x27' → ∀ t, s ≠ '\x27' :: '\x27' :: t) :
    readLiteralBlock? (c :: s) = (readLiteralBlock? s).map fun (cs, r) => (c :: cs, r) := by
  rw [readLiteralBlock?.eq_4 _ _ (fun t h ht => hq h t ht) (fun _ h => (hr h).elim), if_neg]
  simpa using hc

end

theorem readBasicBlock?_escape (c : Char) (s : List Char) :
    readBasicBlock? (escape c ++ s) = (readBasicBlock? s).map fun (cs, r) => (c :: cs, r) := by
  rcases escape_cases c with ⟨he, hq, hb, hc⟩ | ⟨e, t, he, hblank, hn, hr, hread⟩
  · have hr : c ≠ '\r' := by rintro rfl; contradiction
    rw [he, List.singleton_append]
    exact readBasicBlock?_char hb hr (by simp [hc]) fun h => (hq h).elim
  · have hcontinuation : continuation? (e :: (t ++ s)) = none := by
      rw [continuation?, List.dropWhile_cons_of_neg (by simp [hblank]), dropLineEnd?.eq_3]
      · rfl
      · exact fun _ h => hn (List.cons.inj h).1
      · exact fun _ h => hr (List.cons.inj h).1
    rw [he, List.cons_append, List.cons_append, readBasicBlock?.eq_3]
    split
    next h => rw [hcontinuation] at h; contradiction
    next =>
      split
      next h => rw [hread] at h; contradiction
      next h =>
        rw [hread] at h
        cases h
        rfl

theorem exists_escapeBlock_eq_cons (n : Nat) (c : Char) (s : List Char) :
    ∃ h t, escapeBlock n (c :: s) = h :: t ∧ (h = '\x22' → c = '\x22' ∧ n < 2) ∧
      (isControl h = true → c = '\n') := by
  rw [escapeBlock]
  split
  next h =>
    obtain ⟨rfl, hn⟩ : c = '\x22' ∧ n < 2 := by simpa using h
    exact ⟨_, _, rfl, fun _ => ⟨rfl, hn⟩, by decide⟩
  next =>
    split
    next h =>
      obtain rfl : c = '\n' := by simpa using h
      exact ⟨_, _, rfl, nofun, fun _ => rfl⟩
    next =>
      obtain ⟨h, t, he, hq, hc⟩ := exists_escape_eq_cons c
      rw [he]
      exact ⟨h, _, rfl, fun h => (hq h).elim, by simp [hc]⟩

/-- Where a block starts with two quotes after another one, they belong to its delimiter. -/
theorem eq_of_escapeBlock_append_eq {n : Nat} {s r t : List Char} (hn : 0 < n)
    (h : escapeBlock n s ++ (List.replicate 3 '\x22' ++ r) = '\x22' :: '\x22' :: t) :
    s = [] ∨ s = ['\x22'] ∧ n = 1 := by
  cases s with
  | nil => exact .inl rfl
  | cons c s =>
    obtain ⟨a, u, hu, ha, -⟩ := exists_escapeBlock_eq_cons n c s
    rw [hu] at h
    obtain ⟨rfl, hlt⟩ := ha (List.cons.inj h).1
    have hrest : escapeBlock (n + 1) s = u := by
      rw [escapeBlock, if_pos (by simp [hlt])] at hu
      exact (List.cons.inj hu).2
    cases s with
    | nil => exact .inr ⟨rfl, by omega⟩
    | cons c s =>
      obtain ⟨a, v, hv, ha, -⟩ := exists_escapeBlock_eq_cons (n + 1) c s
      rw [← hrest, hv] at h
      have := (ha (List.cons.inj (List.cons.inj h).2).1).2
      omega

theorem readBasicBlock?_escapeBlock (n : Nat) (s r : List Char) :
    readBasicBlock? (escapeBlock n s ++ (List.replicate 3 '\x22' ++ '\n' :: r)) =
      some (s, '\n' :: r) := by
  fun_induction escapeBlock n s with
  | case1 n =>
    exact (readBasicBlock?.eq_2 _).trans (congrArg some (closingQuotes_newline (by decide) r))
  | case2 n c s h ih =>
    obtain ⟨rfl, hn⟩ : c = '\x22' ∧ n < 2 := by simpa using h
    by_cases hend : s = [] ∨ s = ['\x22'] ∧ n + 1 = 1
    · -- The delimiter starts with this quote, and as many quotes stand after it.
      rcases hend with rfl | ⟨rfl, hn⟩
      · exact readBasicBlock?.eq_2 _
      · obtain rfl : n = 0 := by omega
        exact readBasicBlock?.eq_2 _
    · have hq : ∀ t, escapeBlock (n + 1) s ++ (List.replicate 3 '\x22' ++ '\n' :: r) ≠
          '\x22' :: '\x22' :: t :=
        fun t ht => hend (eq_of_escapeBlock_append_eq (Nat.succ_pos n) ht)
      rw [List.cons_append, readBasicBlock?_char (by decide) (by decide) (by decide) fun _ => hq,
        ih]
      rfl
  | case3 n c s _ h ih =>
    obtain rfl : c = '\n' := by simpa using h
    rw [List.cons_append, readBasicBlock?_char (by decide) (by decide) (fun _ => rfl)
      (fun h => absurd h (by decide)), ih]
    rfl
  | case4 n c s _ _ ih =>
    rw [List.append_assoc, readBasicBlock?_escape, ih]
    rfl

theorem le_longestRun (q : Char) (n : Nat) (s : List Char) : n ≤ longestRun q n s := by
  induction s generalizing n with
  | nil => exact Nat.le_refl n
  | cons c s ih =>
    rw [longestRun]
    split
    · exact Nat.le_of_succ_le (ih (n + 1))
    · exact Nat.le_max_left n _

theorem not_mem_of_longestRun {q : Char} {s : List Char} (h : longestRun q 0 s = 0) : q ∉ s := by
  induction s with
  | nil => exact List.not_mem_nil
  | cons c s ih =>
    rw [longestRun] at h
    split at h
    · have := le_longestRun q (0 + 1) s
      omega
    next hc =>
      have hs := ih (Nat.max_eq_zero_iff.1 h).2
      have hne : q ≠ c := fun h => hc (beq_iff_eq.2 h.symm)
      exact fun hm => (List.mem_cons.1 hm).elim hne hs

/-- The same for a literal block. Its own quotes are at most two. -/
theorem eq_of_append_eq {q : Char} {n : Nat} {s r t : List Char} (hn : 0 < n)
    (hq : longestRun q n s ≤ 2) (h : s ++ (List.replicate 3 q ++ r) = q :: q :: t) :
    s = [] ∨ s = [q] := by
  match s with
  | [] => exact .inl rfl
  | [a] => exact .inr (congrArg (· :: []) (List.cons.inj h).1)
  | a :: b :: s =>
    obtain rfl : a = q := (List.cons.inj h).1
    obtain rfl : b = a := (List.cons.inj (List.cons.inj h).2).1
    have hrun := le_longestRun b (n + 1 + 1) s
    simp only [longestRun, beq_self_eq_true, if_true] at hq
    omega

theorem readLiteralBlock?_append {n : Nat} {s : List Char} (hq : longestRun '\x27' n s ≤ 2)
    (hc : ∀ c ∈ s, isControl c = true → c = '\n') (r : List Char) :
    readLiteralBlock? (s ++ (List.replicate 3 '\x27' ++ '\n' :: r)) = some (s, '\n' :: r) := by
  induction s generalizing n with
  | nil =>
    exact (readLiteralBlock?.eq_2 _).trans (congrArg some (closingQuotes_newline (by decide) r))
  | cons c s ih =>
    obtain ⟨hcontrol, hcs⟩ := List.forall_mem_cons.1 hc
    have hr : c ≠ '\r' := by rintro rfl; exact absurd (hcontrol (by decide)) (by decide)
    rw [longestRun] at hq
    split at hq
    next h =>
      obtain rfl : c = '\x27' := by simpa using h
      by_cases hend : s = [] ∨ s = ['\x27']
      · rcases hend with rfl | rfl <;> rfl
      · rw [List.cons_append, readLiteralBlock?_char hr hcontrol fun _ t ht =>
          hend (eq_of_append_eq (Nat.succ_pos n) hq ht), ih hq hcs]
        rfl
    next h =>
      have hne : c ≠ '\x27' := by simpa using h
      rw [List.cons_append, readLiteralBlock?_char hr hcontrol fun h => (hne h).elim,
        ih (Nat.max_le.1 hq).2 hcs]
      rfl

theorem dropFirstLineEnd_firstLineEnd {s t : List Char}
    (h : '\n' ∉ s → ∀ c ∈ t.head?, isControl c = false) :
    dropFirstLineEnd (firstLineEnd s ++ t) = t := by
  rw [firstLineEnd]
  split
  · rfl
  next hs =>
    have hhead := h (by simpa using hs)
    rw [List.nil_append, dropFirstLineEnd, dropLineEnd?.eq_3]
    · rfl
    · rintro u rfl
      exact absurd (hhead _ rfl) (by decide)
    · rintro u rfl
      exact absurd (hhead _ rfl) (by decide)

/-! ### Strings in any form -/

section
variable {s : List Char}

theorem eq_newline_of_isControl (h : (s.any fun c => isControl c && c != '\n') = false) :
    ∀ c ∈ s, isControl c = true → c = '\n' := by
  simpa using h

theorem of_eq_literal (h : Form.of s = .literal) :
    (∀ c ∈ s, isControl c = false) ∧ '\x27' ∉ s := by
  unfold Form.of at h
  extract_lets controls lineEnds backslashes quotes apostrophes at h
  split_ifs at h with _ hl
  simp only [Bool.and_eq_true, Bool.not_eq_true', beq_iff_eq] at hl
  obtain ⟨⟨hcontrols, hlines⟩, hrun⟩ := hl
  refine ⟨fun c hc => ?_, not_mem_of_longestRun hrun⟩
  cases hcontrol : isControl c with
  | false => rfl
  | true =>
    obtain rfl := eq_newline_of_isControl hcontrols c hc hcontrol
    exact absurd (List.contains_iff_mem.2 hc) (Bool.eq_false_iff.1 hlines)

theorem of_eq_literalBlock (h : Form.of s = .literalBlock) :
    (∀ c ∈ s, isControl c = true → c = '\n') ∧ longestRun '\x27' 0 s ≤ 2 := by
  unfold Form.of at h
  extract_lets controls lineEnds backslashes quotes apostrophes at h
  split_ifs at h with _ _ _ hl
  simp only [Bool.and_eq_true, Bool.not_eq_true', decide_eq_true_eq] at hl
  exact ⟨eq_newline_of_isControl hl.1, hl.2⟩

end

/-- Between single delimiters a string does not start with another one, so no block starts there. -/
theorem line_ne_block {s : List Char} {q d : Char} (h : s.head? ≠ some q) (hd : d ≠ '\n')
    (r t : List Char) : q :: (s ++ q :: '\n' :: r) ≠ d :: d :: d :: t := by
  intro heq
  obtain ⟨rfl, heq⟩ := List.cons.inj heq
  cases s with
  | nil => exact hd (List.cons.inj (List.cons.inj heq).2).1.symm
  | cons a s => exact h (congrArg some (List.cons.inj heq).1)

theorem read?_line {s : List Char} {q : Char} (h : s.head? ≠ some q) (r : List Char) :
    read? (q :: (s ++ q :: '\n' :: r)) = readLine? (q :: (s ++ q :: '\n' :: r)) :=
  read?.eq_3 _ (line_ne_block h (by decide) r) (line_ne_block h (by decide) r)

theorem read?_basic (s r : List Char) :
    read? ('\x22' :: (s.flatMap escape ++ '\x22' :: '\n' :: r)) = some (s, '\n' :: r) := by
  have hhead : (s.flatMap escape).head? ≠ some '\x22' := by
    cases s with
    | nil => exact nofun
    | cons c s =>
      obtain ⟨h, t, he, hq, -⟩ := exists_escape_eq_cons c
      rw [List.flatMap_cons, he]
      exact fun h => hq (Option.some.inj h)
  exact (read?_line hhead r).trans (readBasic?_flatMap_escape s _)

theorem read?_literal {s : List Char} (hq : '\x27' ∉ s) (hc : ∀ c ∈ s, isControl c = false)
    (r : List Char) : read? ('\x27' :: (s ++ '\x27' :: '\n' :: r)) = some (s, '\n' :: r) := by
  have hhead : s.head? ≠ some '\x27' := fun h => hq (List.mem_of_head? h)
  exact (read?_line hhead r).trans (readLiteral?_append hq hc _)

theorem read?_basicBlock (s r : List Char) :
    read? (List.replicate 3 '\x22' ++ (firstLineEnd s ++ (escapeBlock 0 s ++
      (List.replicate 3 '\x22' ++ '\n' :: r)))) = some (s, '\n' :: r) := by
  have hhead : '\n' ∉ s → ∀ c ∈ (escapeBlock 0 s ++
      (List.replicate 3 '\x22' ++ '\n' :: r)).head?, isControl c = false := by
    cases s with
    | nil => exact fun _ c hc => Option.some.inj hc ▸ rfl
    | cons c s =>
      obtain ⟨h, t, hblock, -, hc⟩ := exists_escapeBlock_eq_cons 0 c s
      rw [hblock]
      rintro hn _ ⟨⟩
      exact Bool.eq_false_iff.2 fun hcontrol => hn (hc hcontrol ▸ List.mem_cons_self)
  exact (congrArg readBasicBlock? (dropFirstLineEnd_firstLineEnd hhead)).trans
    (readBasicBlock?_escapeBlock 0 s r)

theorem read?_literalBlock {s : List Char} (hq : longestRun '\x27' 0 s ≤ 2)
    (hc : ∀ c ∈ s, isControl c = true → c = '\n') (r : List Char) :
    read? (List.replicate 3 '\x27' ++ (firstLineEnd s ++ (s ++
      (List.replicate 3 '\x27' ++ '\n' :: r)))) = some (s, '\n' :: r) := by
  have hhead : '\n' ∉ s → ∀ c ∈ (s ++ (List.replicate 3 '\x27' ++ '\n' :: r)).head?,
      isControl c = false := by
    cases s with
    | nil => exact fun _ c hc => Option.some.inj hc ▸ rfl
    | cons c s =>
      rintro hn _ ⟨⟩
      exact Bool.eq_false_iff.2 fun hcontrol =>
        hn (hc c List.mem_cons_self hcontrol ▸ List.mem_cons_self)
  exact (congrArg readLiteralBlock? (dropFirstLineEnd_firstLineEnd hhead)).trans
    (readLiteralBlock?_append hq hc r)

theorem exists_write_eq_cons (s : List Char) :
    ∃ q t, write s = q :: t ∧ (q = '\x22' ∨ q = '\x27') := by
  unfold write
  split
  · exact ⟨_, _, rfl, .inl rfl⟩
  · exact ⟨_, _, rfl, .inr rfl⟩
  · exact ⟨_, _, rfl, .inl rfl⟩
  · exact ⟨_, _, rfl, .inr rfl⟩

/-- A string is read back up to the end of the line after it. -/
theorem read?_write (s r : List Char) : read? (write s ++ '\n' :: r) = some (s, '\n' :: r) := by
  unfold write
  split
  next =>
    simpa only [List.cons_append, List.append_assoc, List.nil_append] using read?_basic s r
  next h =>
    obtain ⟨hc, hq⟩ := of_eq_literal h
    simpa only [List.cons_append, List.append_assoc, List.nil_append] using read?_literal hq hc r
  next => simpa only [List.append_assoc] using read?_basicBlock s r
  next h =>
    obtain ⟨hc, hq⟩ := of_eq_literalBlock h
    simpa only [List.append_assoc] using read?_literalBlock hq hc r

end ProseLint.Toml.Quoted
