import ProseLint.Proofs.Line

/-!
# Trimming and character classes

`Bare p s`: neither end of `s` has the property `p`. A text is trimmed to `s` iff `s` is bare and
only characters with the property stand around it (`dropEnds_eq_iff`), for blanks as for spaces and
tabs. Two classes whose ranges lie apart share no character (`Class.Apart.has_eq_false`).
-/

namespace ProseLint.Text

/-- No character with the property stands at either end. -/
structure Bare (p : Char → Bool) (s : List Char) : Prop where
  head : ∀ c ∈ s.head?, p c = false
  last : ∀ c ∈ s.getLast?, p c = false

/-! ### Both ends -/

section
variable {p q : Char → Bool} {s l u v : List Char}

namespace Bare

theorem reverse (h : Bare p s) : Bare p s.reverse :=
  ⟨by simpa using h.last, by simpa using h.head⟩

theorem mono (h : Bare p s) (hq : ∀ c, p c = false → q c = false) : Bare q s :=
  ⟨fun c hc => hq c (h.head c hc), fun c hc => hq c (h.last c hc)⟩

theorem dropWhile_append (h : Bare p s) (hne : s ≠ []) (v : List Char) :
    (s ++ v).dropWhile p = s ++ v := by
  obtain ⟨c, s, rfl⟩ := List.exists_cons_of_ne_nil hne
  exact List.dropWhile_cons_of_neg (by simp [h.head c rfl])

theorem dropEnds (h : Bare p s) (hu : ∀ c ∈ u, p c = true) (hv : ∀ c ∈ v, p c = true) :
    dropEndWhile p ((u ++ (s ++ v)).dropWhile p) = s := by
  have hv' : ∀ c ∈ v.reverse, p c = true := by simpa using hv
  rw [List.dropWhile_append_of_pos hu]
  by_cases hne : s = []
  · rw [hne, List.nil_append, List.dropWhile_eq_nil_iff.2 hv]
    rfl
  · have hrev : s.reverse.dropWhile p = s.reverse := by
      simpa using h.reverse.dropWhile_append (by simpa using hne) []
    rw [h.dropWhile_append hne, dropEndWhile, List.reverse_append,
      List.dropWhile_append_of_pos hv', hrev, List.reverse_reverse]

end Bare

theorem bare_dropEnds (p : Char → Bool) (l : List Char) :
    Bare p (dropEndWhile p (l.dropWhile p)) := by
  constructor
  · intro c hc
    obtain ⟨v, hv⟩ : dropEndWhile p (l.dropWhile p) <+: l.dropWhile p :=
      List.rdropWhile_prefix p (l.dropWhile p)
    have hnot := List.head?_dropWhile_not p l
    rw [← hv, List.head?_append, hc] at hnot
    simpa using hnot
  · intro c hc
    rw [dropEndWhile, List.getLast?_reverse] at hc
    have hnot := List.head?_dropWhile_not p (l.dropWhile p).reverse
    rw [hc] at hnot
    simpa using hnot

theorem dropEndWhile_cons {c : Char} (hc : p c = false) (s : List Char) :
    dropEndWhile p (c :: s) = c :: dropEndWhile p s := by
  rw [dropEndWhile, List.reverse_cons, List.dropWhile_append,
    List.dropWhile_cons_of_neg (by simp [hc])]
  split
  next h =>
    rw [dropEndWhile, List.isEmpty_iff.1 h]
    rfl
  · rw [List.reverse_append, List.reverse_singleton, List.singleton_append, dropEndWhile]

theorem exists_dropEndWhile_append (p : Char → Bool) (s : List Char) :
    ∃ v, (∀ c ∈ v, p c = true) ∧ s = dropEndWhile p s ++ v := by
  refine ⟨(s.reverse.takeWhile p).reverse, fun c hc => ?_, ?_⟩
  · exact List.mem_takeWhile_imp (List.mem_reverse.1 hc)
  · rw [dropEndWhile, ← List.reverse_append, List.takeWhile_append_dropWhile, List.reverse_reverse]

theorem dropEnds_eq_iff : dropEndWhile p (l.dropWhile p) = s ↔ Bare p s ∧
    ∃ u v, (∀ c ∈ u, p c = true) ∧ (∀ c ∈ v, p c = true) ∧ l = u ++ (s ++ v) := by
  constructor
  · rintro rfl
    obtain ⟨v, hv, hend⟩ := exists_dropEndWhile_append p (l.dropWhile p)
    refine ⟨bare_dropEnds p l, l.takeWhile p, v, fun c hc => List.mem_takeWhile_imp hc, hv, ?_⟩
    rw [← hend, List.takeWhile_append_dropWhile]
  · rintro ⟨h, u, v, hu, hv, rfl⟩
    exact h.dropEnds hu hv

theorem trim_eq_iff : trim l = s ↔ Bare isBlank s ∧
    ∃ u v, (∀ c ∈ u, isBlank c = true) ∧ (∀ c ∈ v, isBlank c = true) ∧ l = u ++ (s ++ v) :=
  dropEnds_eq_iff

theorem bare_of_trim_eq_self (h : trim s = s) : Bare isBlank s :=
  (trim_eq_iff.1 h).1

theorem trim_trimEnd (s : List Char) : trim (trimEnd s) = trim s := by
  obtain ⟨hbare, u, v, hu, hv, hs⟩ := trim_eq_iff.1 (rfl : trim (trimEnd s) = _)
  obtain ⟨w, hw, hend⟩ := exists_dropEndWhile_append isBlank s
  refine (trim_eq_iff.2 ⟨hbare, u, v ++ w, hu, fun c hc => ?_, ?_⟩).symm
  · exact (List.mem_append.1 hc).elim (hv c) (hw c)
  · exact hend.trans ((congrArg (· ++ w) hs).trans (by simp only [List.append_assoc]))

theorem isBlank_of_isIndent {c : Char} (h : isIndent c = true) : isBlank c = true := by
  simp only [isIndent, Bool.or_eq_true, beq_iff_eq] at h
  rcases h with rfl | rfl <;> rfl

theorem isIndent_eq_false {c : Char} (h : isBlank c = false) : isIndent c = false :=
  Bool.eq_false_iff.2 fun hc => Bool.false_ne_true (h.symm.trans (isBlank_of_isIndent hc))

end

/-! ### Classes -/

namespace Class
variable {k k' : Class} {c : Char}

/-- No range of one class meets a range of the other. -/
def Apart (k k' : Class) : Prop :=
  ∀ r ∈ k, ∀ r' ∈ k', r.2 < r'.1 ∨ r'.2 < r.1

instance : Decidable (Apart k k') :=
  inferInstanceAs (Decidable (∀ r ∈ k, ∀ r' ∈ k', r.2 < r'.1 ∨ r'.2 < r.1))

theorem Apart.has_eq_false (h : Apart k k') (hc : k.has c = true) : k'.has c = false := by
  obtain ⟨r, hr, hrc⟩ := List.any_eq_true.1 hc
  refine List.any_eq_false.2 fun r' hr' hc' => ?_
  simp only [Bool.and_eq_true, decide_eq_true_eq] at hrc hc'
  have := h r hr r' hr'
  omega

end Class

theorem isBlank_of_isDecimalDigit {c : Char} (h : isDecimalDigit c = true) : isBlank c = false :=
  Class.Apart.has_eq_false (by decide +kernel) h

end ProseLint.Text
