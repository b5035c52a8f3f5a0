import ProseLint.Json.Quoted

/-!
# A text is read back from its quotes

Every character is written as one piece: itself, a backslash with a letter, or the number of a
16-bit word. Only controls are written as words, so no surrogate is among them.
-/

namespace ProseLint.Json.Quoted

/-- The piece that a written character is read as. -/
def piece (c : Char) : Piece :=
  if isControl c && (shortEscapes.find? (·.2 == c)).isNone then .word c.toNat else .char c

theorem hexNumber?_control :
    ∀ n < 32, Text.hexNumber? ['0', '0', Text.hexDigit (n / 16), Text.hexDigit (n % 16)] = some n := by
  decide

-- The letter of a short escape stands for its control, and `u` is none of these letters.
theorem escaped?_of_mem_shortEscapes :
    ∀ p ∈ shortEscapes, escaped? p.1 = some p.2 ∧ p.1 ≠ 'u' := by
  decide

theorem readPieces_escape {e c : Char} (he : escaped? e = some c) (hu : e ≠ 'u') (s : List Char) :
    readPieces ('\\' :: e :: s) = (readPieces s).map fun (ps, r) => (.char c :: ps, r) := by
  rw [readPieces.eq_4 _ _ fun _ _ _ _ _ h _ => hu h, he]
  cases readPieces s <;> rfl

theorem readPieces_word {a b c d : Char} {n : Nat} (hn : Text.hexNumber? [a, b, c, d] = some n)
    (s : List Char) :
    readPieces ('\\' :: 'u' :: a :: b :: c :: d :: s) =
      (readPieces s).map fun (ps, r) => (.word n :: ps, r) := by
  rw [readPieces, hn]
  cases readPieces s <;> rfl

theorem readPieces_char {c : Char} (hq : c ≠ '\x22') (hb : c ≠ '\\') (hc : isControl c = false)
    (s : List Char) :
    readPieces (c :: s) = (readPieces s).map fun (ps, r) => (.char c :: ps, r) := by
  rw [readPieces.eq_5 _ _ hq (fun _ _ _ _ _ h _ => hb h) (fun _ _ h _ => hb h), hc]
  cases readPieces s <;> rfl

theorem readPieces_escapeChar (c : Char) (s : List Char) :
    readPieces (escapeChar c ++ s) = (readPieces s).map fun (ps, r) => (piece c :: ps, r) := by
  fun_cases escapeChar c with
  | case1 h =>
    rcases (by simpa using h : c = '\x22' ∨ c = '\\') with rfl | rfl
    · exact readPieces_escape (by decide) (by decide) s
    · exact readPieces_escape (by decide) (by decide) s
  | case2 h e c' hf =>
    obtain ⟨he, hu⟩ := escaped?_of_mem_shortEscapes _ (List.mem_of_find?_eq_some hf)
    obtain rfl : c' = c := by simpa using List.find?_some hf
    have hp : piece c' = .char c' := by simp [piece, hf]
    rw [hp]
    exact readPieces_escape he hu s
  | case3 h hf hc =>
    have hp : piece c = .word c.toNat := by simp [piece, hf, hc]
    rw [hp]
    exact readPieces_word (hexNumber?_control _ (by simpa [isControl] using hc)) s
  | case4 h hf hc =>
    have hp : piece c = .char c := by simp [piece, hc]
    obtain ⟨hq, hb⟩ : c ≠ '\x22' ∧ c ≠ '\\' := by simpa using h
    rw [hp]
    exact readPieces_char hq hb (by simpa using hc) s

theorem readPieces_flatMap_escapeChar (s rest : List Char) :
    readPieces (s.flatMap escapeChar ++ '\x22' :: rest) = some (s.map piece, rest) := by
  induction s with
  | nil => rw [List.flatMap_nil, List.nil_append, readPieces, List.map_nil]
  | cons c s ih =>
    rw [List.flatMap_cons, List.append_assoc, readPieces_escapeChar, ih]
    rfl

theorem characters?_piece (c : Char) (ps : List Piece) :
    characters? (piece c :: ps) = (characters? ps).map (c :: ·) := by
  unfold piece
  split
  next h =>
    have hc : c.toNat < 32 := by
      simp only [isControl, Bool.and_eq_true, decide_eq_true_eq] at h
      exact h.1
    have hh : isHighSurrogate c.toNat = false := by simp [isHighSurrogate]; omega
    have hl : isLowSurrogate c.toNat = false := by simp [isLowSurrogate]; omega
    rw [characters?.eq_def]
    simp only [hh, hl, Char.ofNat_toNat, Bool.false_eq_true, ↓reduceIte]
  next => rfl

theorem characters?_map_piece (s : List Char) : characters? (s.map piece) = some s := by
  induction s with
  | nil => rfl
  | cons c s ih => rw [List.map_cons, characters?_piece, ih]; rfl

end ProseLint.Json.Quoted
