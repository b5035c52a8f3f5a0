import Mathlib.Data.List.DropRight
import ProseLint.Source.Line

/-!
# The text that lines give to the document

Headings, items and text have content (`Line.content`). In the lines of a source it has no blanks
at its end, so where there is any it holds a character that is not blank
(`isBlankText_content`); lines of text always have some. Headings have a level of at least 1
(`level_pos_of_mem_numberedLines`).
-/

namespace ProseLint

namespace Text
variable {s : List Char}

theorem trimEnd_eq_rdropWhile (s : List Char) : trimEnd s = s.rdropWhile isBlank :=
  rfl

theorem trimEnd_eq_nil_iff : trimEnd s = [] ↔ isBlankText s = true := by
  rw [trimEnd_eq_rdropWhile, List.rdropWhile_eq_nil_iff, isBlankText, List.all_eq_true]

theorem trimEnd_eq_nil_of_isBlankText (h : isBlankText (trimEnd s) = true) : trimEnd s = [] := by
  have hnil : trimEnd (trimEnd s) = [] := trimEnd_eq_nil_iff.2 h
  rwa [trimEnd_eq_rdropWhile, trimEnd_eq_rdropWhile, List.rdropWhile_idempotent] at hnil

theorem trimStart_eq_nil_iff : trimStart s = [] ↔ isBlankText s = true := by
  rw [trimStart, List.dropWhile_eq_nil_iff, isBlankText, List.all_eq_true]

theorem isBlankText_of_trim_eq_nil (h : trim s = []) : isBlankText s = true := by
  have hstart : isBlankText (trimStart s) = true := trimEnd_eq_nil_iff.1 h
  have hnil : trimStart (trimStart s) = [] := trimStart_eq_nil_iff.2 hstart
  rw [trimStart, trimStart, List.dropWhile_idempotent] at hnil
  exact trimStart_eq_nil_iff.1 hnil

theorem trim_eq_nil_iff : trim s = [] ↔ isBlankText s = true := by
  refine ⟨isBlankText_of_trim_eq_nil, fun h => ?_⟩
  rw [trim, trimStart_eq_nil_iff.2 h]
  rfl

end Text

namespace Source.Line

/-- The text of the document that the line has. -/
def content : Line → List Char
  | heading _ t | item _ t | text t => t
  | _ => []

/-- What can be said of every line that is read: its content has no blanks at the end, and a line
of text has content. -/
structure Trimmed (l : Line) : Prop where
  content : ∃ s, l.content = Text.trimEnd s
  text : ∀ t, l = .text t → t ≠ []

namespace Trimmed
variable {l : Line} {line : List Char}

theorem of_content_eq_nil (h : l.content = []) (ht : ∀ t, l ≠ .text t) : l.Trimmed :=
  ⟨⟨[], h⟩, fun t heq => absurd heq (ht t)⟩

theorem ofComment (body : List Char) : (ofComment body).Trimmed := by
  unfold Line.ofComment
  split <;> exact of_content_eq_nil rfl nofun

theorem heading (h : heading? line = some l) : l.Trimmed := by
  unfold heading? at h
  dsimp only at h
  split at h
  · cases h
  · split at h <;> cases h
    exact ⟨⟨_, rfl⟩, nofun⟩

theorem item (h : item? line = some l) : l.Trimmed := by
  unfold item? at h
  split at h
  · split at h <;> cases h
    exact ⟨⟨_, rfl⟩, nofun⟩
  · cases h

theorem classify (line : List Char) : (classify line).Trimmed := by
  unfold Line.classify
  cases hblank : Text.isBlankText line with
  | true => exact of_content_eq_nil rfl nofun
  | false =>
    rw [if_neg Bool.false_ne_true]
    cases commentBody? line with
    | some body => exact ofComment body
    | none =>
      cases hh : heading? line with
      | some l => exact heading hh
      | none =>
        cases hi : item? line with
        | some l => exact item hi
        | none =>
          refine ⟨⟨_, rfl⟩, fun t ht hnil => ?_⟩
          obtain rfl : Text.trim line = t := Line.text.inj ht
          exact Bool.false_ne_true (hblank.symm.trans (Text.isBlankText_of_trim_eq_nil hnil))

theorem read (open? : Option Fence) (line : List Char) : (read open? line).1.Trimmed := by
  unfold Line.read
  split
  · exact of_content_eq_nil rfl nofun
  · split
    · exact of_content_eq_nil rfl nofun
    · exact classify line

theorem of_mem_readAll {open? : Option Fence} {ls : List (List Char)} (h : l ∈ readAll open? ls) :
    l.Trimmed := by
  induction ls generalizing open? with
  | nil => exact absurd h List.not_mem_nil
  | cons line ls ih =>
    rcases List.mem_cons.1 h with rfl | h
    · exact read open? line
    · exact ih h

theorem isBlankText_content (h : l.Trimmed) (hne : l.content ≠ []) :
    Text.isBlankText l.content = false := by
  obtain ⟨s, hs⟩ := h.content
  refine Bool.eq_false_iff.2 fun hblank => hne ?_
  rw [hs] at hblank ⊢
  exact Text.trimEnd_eq_nil_of_isBlankText hblank

end Trimmed

/-! ### Levels of headings -/

section
variable {line text : List Char} {level : Nat}

theorem ofComment_ne_heading (body : List Char) : ofComment body ≠ heading level text := by
  unfold ofComment
  split <;> exact nofun

theorem item?_ne_heading : item? line ≠ some (heading level text) := by
  unfold item?
  split
  · split <;> exact nofun
  · exact nofun

theorem heading?_of_classify (h : classify line = heading level text) :
    heading? line = some (heading level text) := by
  unfold classify at h
  split at h
  · cases h
  · split at h
    · exact absurd h (ofComment_ne_heading _)
    · cases hh : heading? line with
      | some l => rw [← h, hh, Option.getD_some]
      | none =>
        rw [hh, Option.getD_none] at h
        cases hi : item? line with
        | some l =>
          rw [hi, Option.getD_some] at h
          exact absurd (h ▸ hi) item?_ne_heading
        | none =>
          rw [hi, Option.getD_none] at h
          cases h

theorem level_pos_of_heading? (h : heading? line = some (heading level text)) : 0 < level := by
  unfold heading? at h
  dsimp only at h
  split at h
  · cases h
  next hnot =>
    split at h <;> cases h
    simp only [Bool.or_eq_true, beq_iff_eq, not_or] at hnot
    exact Nat.pos_of_ne_zero hnot.1.2

theorem level_pos_of_mem_readAll {open? : Option Fence} {ls : List (List Char)}
    (h : heading level text ∈ readAll open? ls) : 0 < level := by
  induction ls generalizing open? with
  | nil => exact absurd h List.not_mem_nil
  | cons line ls ih =>
    rcases List.mem_cons.1 h with heq | h
    · unfold read at heq
      split at heq
      · cases heq
      · split at heq
        · cases heq
        · exact level_pos_of_heading? (heading?_of_classify heq.symm)
    · exact ih h

end

end Source.Line

namespace Source
variable {source : String} {x : Line × Nat}

theorem mem_readAll_of_mem_numberedLines (h : x ∈ numberedLines source) :
    x.1 ∈ Line.readAll none (lines source.toList) := by
  have hmem : x.1 ∈ (numberedLines source).map Prod.fst := List.mem_map_of_mem h
  rwa [numberedLines, List.zipIdx_map_fst] at hmem

theorem trimmed_of_mem_numberedLines (h : x ∈ numberedLines source) : x.1.Trimmed :=
  Line.Trimmed.of_mem_readAll (mem_readAll_of_mem_numberedLines h)

theorem level_pos_of_mem_numberedLines {level n : Nat} {text : List Char}
    (h : (Line.heading level text, n) ∈ numberedLines source) : 0 < level :=
  Line.level_pos_of_mem_readAll (mem_readAll_of_mem_numberedLines h)

end Source

end ProseLint
