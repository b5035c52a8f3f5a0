import ProseLint.Proofs.Line

/-!
# The lines of two texts

A text that ends with its last line keeps its lines when another text follows it, and the lines of
that one are numbered on from there. They play the parts that they play on their own, unless a
fence is open above them (`numberedLines_append`).
-/

namespace ProseLint

namespace Source
variable {s : List Char} {c : Char} {l : List Char} {ls : List (List Char)}

/-! ### Line ends -/

/-- The text is empty, or its last line ends in a line feed. -/
def EndsLine (s : List Char) : Prop :=
  s = [] ∨ ∃ p, s = p ++ ['\n']

theorem EndsLine.tail (h : EndsLine (c :: s)) : EndsLine s := by
  rcases h with h | ⟨_ | ⟨a, p⟩, h⟩
  · cases h
  · exact .inl (List.cons.inj h).2
  · exact .inr ⟨p, (List.cons.inj h).2⟩

theorem EndsLine.ne_nil (h : EndsLine (c :: s)) (hc : c ≠ '\n') : s ≠ [] := by
  rintro rfl
  rcases h with h | ⟨_ | ⟨a, p⟩, h⟩
  · cases h
  · exact hc (List.cons.inj h).1
  · exact List.append_ne_nil_of_right_ne_nil p (List.cons_ne_nil '\n' []) (List.cons.inj h).2.symm

theorem lines_cons (hr : ∀ u, c = '\r' → s = '\n' :: u → False) (hn : c ≠ '\n')
    (h : lines s = l :: ls) : lines (c :: s) = (c :: l) :: ls := by
  rw [lines, h]
  · exact hr
  · exact hn

theorem lines_ne_nil (h : s ≠ []) : lines s ≠ [] := by
  unfold lines
  split
  · exact absurd rfl h
  · exact nofun
  · exact nofun
  · split <;> exact nofun

theorem lines_append (h : EndsLine s) (t : List Char) : lines (s ++ t) = lines s ++ lines t := by
  induction s using lines.induct with
  | case1 => rfl
  | case2 s ih => simp [lines, ih h.tail.tail]
  | case3 s ih => simp [lines, ih h.tail]
  | case4 c s hr hn hs ih => exact absurd hs (lines_ne_nil (h.ne_nil hn))
  | case5 c s hr hn l ls hs ih =>
    have happend : lines (s ++ t) = l :: (ls ++ lines t) := by rw [ih h.tail, hs, List.cons_append]
    -- the character after `c` is in `s`, so a line feed that `t` starts with is not right after `c`
    have hr' : ∀ u, c = '\r' → s ++ t = '\n' :: u → False := by
      intro u hc hu
      obtain ⟨a, v, rfl⟩ := List.exists_cons_of_ne_nil (h.ne_nil hn)
      exact hr v hc (congrArg (· :: v) (List.cons.inj hu).1)
    rw [List.cons_append, lines_cons hr' hn happend, lines_cons hr hn hs, List.cons_append]

/-- Text whose lines are all empty consists of line ends. -/
theorem EndsLine.of_empty (h : ∀ l ∈ lines s, l = []) : EndsLine s := by
  induction s using lines.induct with
  | case1 => exact .inl rfl
  | case2 s ih =>
    rw [lines] at h
    rcases ih (List.forall_mem_cons.1 h).2 with rfl | ⟨p, rfl⟩
    · exact .inr ⟨['\r'], rfl⟩
    · exact .inr ⟨'\r' :: '\n' :: p, rfl⟩
  | case3 s ih =>
    rw [lines] at h
    rcases ih (List.forall_mem_cons.1 h).2 with rfl | ⟨p, rfl⟩
    · exact .inr ⟨[], rfl⟩
    · exact .inr ⟨'\n' :: p, rfl⟩
  | case4 c s hr hn hs ih =>
    rw [lines, hs] at h
    · exact absurd (h [c] (List.mem_singleton_self _)) (List.cons_ne_nil c [])
    · exact hr
    · exact hn
  | case5 c s hr hn l ls hs ih =>
    rw [lines_cons hr hn hs] at h
    exact absurd (h (c :: l) (List.mem_cons_self ..)) (List.cons_ne_nil c l)

/-! ### Numbered lines -/

namespace Line

/-- The fence that is open below the lines. -/
def fenceBelow (open? : Option Fence) (ls : List (List Char)) : Option Fence :=
  ls.foldl (fun f l => (read f l).2) open?

theorem readAll_append (open? : Option Fence) (ls ls' : List (List Char)) :
    readAll open? (ls ++ ls') = readAll open? ls ++ readAll (fenceBelow open? ls) ls' := by
  induction ls generalizing open? with
  | nil => rfl
  | cons l ls ih =>
    rw [List.cons_append, readAll, ih, readAll, List.cons_append]
    rfl

theorem length_readAll (open? : Option Fence) (ls : List (List Char)) :
    (readAll open? ls).length = ls.length := by
  induction ls generalizing open? with
  | nil => rfl
  | cons l ls ih => rw [readAll, List.length_cons, ih, List.length_cons]

end Line

theorem read_mem_numberedLines {source : String} {above below : List (List Char)}
    (h : lines source.toList = above ++ l :: below) :
    ((Line.read (Line.fenceBelow none above) l).1, above.length + 1) ∈ numberedLines source := by
  rw [numberedLines, h, Line.readAll_append, List.zipIdx_append, Line.length_readAll,
    Nat.add_comm above.length 1]
  exact List.mem_append_right _ (List.mem_cons_self ..)

/-- The fence that is open at the end of the source. -/
def openFence? (source : String) : Option Fence :=
  Line.fenceBelow none (lines source.toList)

def lineCount (source : String) : Nat :=
  (lines source.toList).length

def shift (n : Nat) (ls : List (Line × Nat)) : List (Line × Nat) :=
  ls.map fun x => (x.1, x.2 + n)

theorem shift_zipIdx (n i : Nat) (ls : List Line) :
    shift n (ls.zipIdx i) = ls.zipIdx (i + n) := by
  rw [Nat.add_comm, ← List.map_snd_add_zipIdx_eq_zipIdx]
  rfl

variable {s t : String}

theorem numberedLines_append (h : EndsLine s.toList) (t : String) :
    numberedLines (s ++ t) = numberedLines s ++
      shift (lineCount s) ((Line.readAll (openFence? s) (lines t.toList)).zipIdx 1) := by
  rw [numberedLines, String.toList_append, lines_append h, Line.readAll_append,
    List.zipIdx_append, Line.length_readAll, shift_zipIdx]
  rfl

theorem numberedLines_append_of_closed (h : EndsLine s.toList) (hfence : openFence? s = none)
    (t : String) :
    numberedLines (s ++ t) = numberedLines s ++ shift (lineCount s) (numberedLines t) := by
  rw [numberedLines_append h, hfence]
  rfl

/-! ### Empty lines -/

theorem Line.readAll_empty (k : Nat) :
    readAll none (List.replicate k []) = List.replicate k .blank ∧
      fenceBelow none (List.replicate k []) = none := by
  induction k with
  | zero => exact ⟨rfl, rfl⟩
  | succ k ih => exact ⟨congrArg (Line.blank :: ·) ih.1, ih.2⟩

section
variable {k : Nat} (h : lines s.toList = List.replicate k [])
include h

theorem lineCount_of_empty : lineCount s = k := by
  rw [lineCount, h, List.length_replicate]

theorem openFence?_of_empty : openFence? s = none := by
  rw [openFence?, h]
  exact (Line.readAll_empty k).2

theorem eq_blank_of_mem_numberedLines {x : Line × Nat} (hx : x ∈ numberedLines s) :
    x.1 = .blank := by
  have hmem := mem_readAll_of_mem_numberedLines hx
  rw [h, (Line.readAll_empty k).1] at hmem
  exact List.eq_of_mem_replicate hmem

end

/-- Blank lines leave a state that none of them changes. -/
theorem foldl_of_blank {α : Type} {f : α → Line × Nat → α} {a : α} (hf : ∀ n, f a (.blank, n) = a)
    {ls : List (Line × Nat)} (h : ∀ x ∈ ls, x.1 = .blank) : ls.foldl f a = a := by
  induction ls with
  | nil => rfl
  | cons x ls ih =>
    obtain ⟨hx, hls⟩ := List.forall_mem_cons.1 h
    have hstep : f a x = a := by
      have := hf x.2
      rwa [← hx] at this
    rw [List.foldl_cons, hstep, ih hls]

end Source

end ProseLint
