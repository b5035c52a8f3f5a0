import Mathlib.Data.List.Basic
import ProseLint.Ledger
import ProseLint.Proofs.Directive

/-!
# What comes of a marker

`Marker.outcome` reads off the lines of a source what a marker comes to: it is anchored on the
least line of content below it, and bounded by the least heading below that. The ledger takes two
steps for this, when it meets the marker (`read`) and when it meets the content (`settle`);
`outcome_eq` says that the two steps come to the same. Lines above a marker do not change what it
comes to (`outcomes_cons`).
-/

namespace ProseLint

namespace Text
variable {sep : Char → Bool} {s w : List Char}

theorem words_eq_filter_splitOnP (sep : Char → Bool) (s : List Char) :
    words sep s = (s.splitOnP sep).filter (!·.isEmpty) := by
  induction s with
  | nil => rfl
  | cons c s ih =>
    rw [words, ih, List.splitOnP_cons_eq_if_modifyHead]
    by_cases hc : sep c = true
    · simp [hc]
    rw [if_neg hc, if_neg hc]
    cases s with
    | nil => rfl
    | cons d s =>
      rw [List.splitOnP_cons_eq_if_modifyHead]
      by_cases hd : sep d = true
      · simp [hd]
      · obtain ⟨w, ws, hw⟩ := List.exists_cons_of_ne_nil (List.splitOnP_ne_nil sep s)
        simp [hd, hw, consWord]

theorem words_spec (h : w ∈ words sep s) : w ≠ [] ∧ ∀ c ∈ w, sep c = false := by
  induction s generalizing w with
  | nil => exact absurd h List.not_mem_nil
  | cons c s ih =>
    rw [words] at h
    split at h
    · exact ih h
    next hc =>
      have hc : sep c = false := by simpa using hc
      split at h
      · rcases List.mem_cons.1 h with rfl | h
        · simpa using hc
        · exact ih h
      · cases hws : words sep s with
        | nil =>
          rw [hws] at h
          rw [List.mem_singleton.1 h]
          simpa using hc
        | cons v vs =>
          rw [hws] at h
          rcases List.mem_cons.1 h with rfl | h
          · have hv := (ih (hws ▸ List.mem_cons_self ..)).2
            exact ⟨by simp, List.forall_mem_cons.2 ⟨hc, hv⟩⟩
          · exact ih (hws ▸ List.mem_cons_of_mem _ h)

end Text

/-! ### The line below -/

namespace Source

namespace Line

def isHeading : Line → Bool
  | heading _ _ => true
  | _ => false

/-- The line has text of the document. -/
def isContent : Line → Bool
  | heading _ _ | item _ _ | text _ => true
  | _ => false

end Line

/-- The least number greater than `n` of a line that has the property `p`. -/
def firstBelow? (p : Line → Bool) (n : LineNumber) (ls : List (Line × Nat)) : Option LineNumber :=
  ((ls.filter fun x => n < x.2 && p x.1).map (·.2)).min?

variable {p : Line → Bool} {n m : LineNumber} {x : Line × Nat} {ls : List (Line × Nat)}

theorem exists_of_firstBelow? (h : firstBelow? p n ls = some m) :
    ∃ x ∈ ls, p x.1 = true ∧ n < x.2 ∧ x.2 = m := by
  obtain ⟨x, hx, rfl⟩ := List.mem_map.1 (List.min?_mem h)
  obtain ⟨hmem, hx⟩ := List.mem_filter.1 hx
  obtain ⟨hn, hp⟩ := Bool.and_eq_true_iff.1 hx
  exact ⟨x, hmem, hp, of_decide_eq_true hn, rfl⟩

theorem firstBelow?_lt (h : firstBelow? p n ls = some m) : n < m := by
  obtain ⟨x, -, -, hlt, rfl⟩ := exists_of_firstBelow? h
  exact hlt

theorem firstBelow?_cons_of_not (h : ¬ (n < x.2 ∧ p x.1 = true)) :
    firstBelow? p n (x :: ls) = firstBelow? p n ls := by
  rw [firstBelow?, List.filter_cons_of_neg (by simpa using h), firstBelow?]

theorem firstBelow?_cons_of_false (h : p x.1 = false) :
    firstBelow? p n (x :: ls) = firstBelow? p n ls :=
  firstBelow?_cons_of_not fun hx => Bool.false_ne_true (h.symm.trans hx.2)

theorem firstBelow?_cons_of_le (h : x.2 ≤ n) : firstBelow? p n (x :: ls) = firstBelow? p n ls :=
  firstBelow?_cons_of_not fun hx => Nat.not_lt.2 h hx.1

theorem firstBelow?_cons_of_lt (hls : (x :: ls).Pairwise (·.2 < ·.2)) (hn : n < x.2)
    (hp : p x.1 = true) : firstBelow? p n (x :: ls) = some x.2 := by
  rw [firstBelow?, List.filter_cons_of_pos (by simp [hn, hp]), List.map_cons,
    List.min?_eq_some_iff]
  refine ⟨List.mem_cons_self .., fun m hm => ?_⟩
  rcases List.mem_cons.1 hm with rfl | hm
  · exact Nat.le_refl _
  · obtain ⟨y, hy, rfl⟩ := List.mem_map.1 hm
    exact Nat.le_of_lt (List.rel_of_pairwise_cons hls (List.mem_filter.1 hy).1)

end Source

/-! ### The outcome of a marker -/

/-- The warning is given at the end of the source, not at the marker. -/
def Warning.isNoContent : Warning → Bool
  | noContent _ => true
  | _ => false

namespace Marker
open Source (firstBelow?)
open Source.Line (isContent isHeading)

/-- What comes of the marker with this text on the line `n`. -/
def outcome (ls : List (Source.Line × Nat)) (n : LineNumber) (text : List Char) :
    Except Warning Directive :=
  match ((text.splitOnP isSeparator).filter (!·.isEmpty)).map String.ofList with
  | [] => .error (.emptyMarker n)
  | w :: ws =>
    if Text.sameAscii Kind.suppress.word w then
      match firstBelow? isContent n ls with
      | none => .error (.noContent n)
      | some j => .ok ⟨.suppress, j, firstBelow? isHeading j ls, (ws.map Text.lowercase).eraseDups⟩
    else .error (.unknownKind n ⟨w⟩)

/-- The markers among the lines, with their lines. -/
def found (ls : List (Source.Line × Nat)) : List (LineNumber × List Char) :=
  ls.filterMap fun
    | (.marker s, n) => some (n, s)
    | _ => none

def outcomes (ls : List (Source.Line × Nat)) : List (Except Warning Directive) :=
  (found ls).map fun m => outcome ls m.1 m.2

/-- What comes of a marker that waits for content. -/
def settle (m : Marker) (ls : List (Source.Line × Nat)) : Except Warning Directive :=
  match firstBelow? isContent m.line ls with
  | none => .error (.noContent m.line)
  | some j => .ok ((m.anchorAt j).directive (firstBelow? isHeading j ls))

variable {n : LineNumber} {text : List Char} {ls : List (Source.Line × Nat)}

theorem parameter?_of_mem_words {w : String} (h : w ∈ words text) :
    Draft.parameter? w = some (Text.lowercase w) := by
  obtain ⟨w, hw, rfl⟩ := List.mem_map.1 h
  obtain ⟨hne, hsep⟩ := Text.words_spec hw
  have htrim : Text.trim w = w := Text.trim_eq_self fun c hc => by
    have hc : (Text.isBlank c || c == ',') = false := hsep c hc
    exact (Bool.or_eq_false_iff.1 hc).1
  simp [Draft.parameter?, htrim, hne, Text.lowercase]

theorem directive_anchorAt (m : Marker) (j : LineNumber) (bound? : Option LineNumber) :
    (m.anchorAt j).directive bound? =
      ⟨m.kind, j, bound?, (m.parameters.filterMap Draft.parameter?).eraseDups⟩ := by
  obtain ⟨hk, ha⟩ := Draft.addAll_kind_anchor { kind := m.kind, anchor := j : Draft } m.parameters
  rw [Draft.directive, anchorAt, Draft.parameters_addAll rfl, hk, ha]

theorem outcome_eq (ls : List (Source.Line × Nat)) (n : LineNumber) (text : List Char) :
    outcome ls n text = (read n text).bind (·.settle ls) := by
  have hwords : ((text.splitOnP isSeparator).filter (!·.isEmpty)).map String.ofList = words text := by
    rw [words, Text.words_eq_filter_splitOnP]
  rw [outcome, read, hwords]
  cases hw : words text with
  | nil => rfl
  | cons w ws =>
    have hps : ws.filterMap Draft.parameter? = ws.map Text.lowercase :=
      List.filterMap_eq_map_iff_forall_eq_some.2 fun v hv =>
        parameter?_of_mem_words (hw ▸ List.mem_cons_of_mem _ hv)
    dsimp only [Kind.read]
    by_cases hk : Text.sameAscii Kind.suppress.word w = true
    · rw [if_pos hk, if_pos hk]
      show _ = settle ⟨n, .suppress, ws⟩ ls
      rw [settle]
      cases firstBelow? isContent n ls with
      | none => rfl
      | some j => simp only [directive_anchorAt, hps]
    · rw [if_neg hk, if_neg hk]
      rfl

example : outcome [(.marker [], 1), (.text [], 2), (.heading 1 [], 4)] 1 "suppress a, B,b".toList =
    .ok ⟨.suppress, 2, some 4, ["a", "b"]⟩ := by rfl

theorem read_or_settle_of_mem_outcomes {r : Except Warning Directive} (h : r ∈ outcomes ls) :
    (∃ n text w, read n text = .error w ∧ r = .error w) ∨ ∃ m : Marker, r = m.settle ls := by
  obtain ⟨⟨n, text⟩, -, rfl⟩ := List.mem_map.1 h
  rw [outcome_eq]
  cases hr : read n text with
  | error w => exact .inl ⟨n, text, w, hr, rfl⟩
  | ok m => exact .inr ⟨m, rfl⟩

/-! ### Reading on below a marker -/

variable {m : Marker} {x : Source.Line × Nat}

theorem read_line (h : read n text = .ok m) : m.line = n := by
  unfold read at h
  split at h
  · cases h
  · split at h <;> cases h
    rfl

theorem read_error {w : Warning} (h : read n text = .error w) :
    w.isNoContent = false ∧ ∀ k e, w ≠ .invalid k e := by
  unfold read at h
  split at h
  · cases h
    exact ⟨rfl, fun _ _ => nofun⟩
  · split at h <;> cases h
    exact ⟨rfl, fun _ _ => nofun⟩

theorem settle_error {w : Warning} (h : m.settle ls = .error w) : w = .noContent m.line := by
  unfold settle at h
  split at h <;> cases h
  rfl

@[simp] theorem settle_nil (m : Marker) : m.settle [] = .error (.noContent m.line) := rfl

theorem anchorAt_anchor (m : Marker) (n : LineNumber) : (m.anchorAt n).anchor = n :=
  (Draft.addAll_kind_anchor _ m.parameters).2

theorem settle_cons_of_le (h : x.2 ≤ m.line) : m.settle (x :: ls) = m.settle ls := by
  rw [settle, settle, Source.firstBelow?_cons_of_le h]
  cases hj : firstBelow? isContent m.line ls with
  | none => rfl
  | some j =>
    have hx : x.2 ≤ j := Nat.le_trans h (Nat.le_of_lt (Source.firstBelow?_lt hj))
    simp only [Source.firstBelow?_cons_of_le hx]

theorem settle_cons_of_not (h : x.1.isContent = false) : m.settle (x :: ls) = m.settle ls := by
  have hh : x.1.isHeading = false := by
    revert h
    cases x.1 <;> simp [isContent, isHeading]
  simp only [settle, Source.firstBelow?_cons_of_false h, Source.firstBelow?_cons_of_false hh]

theorem settle_cons_of_lt (hls : (x :: ls).Pairwise (·.2 < ·.2)) (hm : m.line < x.2)
    (hx : x.1.isContent = true) :
    m.settle (x :: ls) = .ok ((m.anchorAt x.2).directive (firstBelow? isHeading x.2 ls)) := by
  rw [settle, Source.firstBelow?_cons_of_lt hls hm hx]
  simp only [Source.firstBelow?_cons_of_le (Nat.le_refl x.2)]

theorem outcome_cons_of_le (h : x.2 ≤ n) : outcome (x :: ls) n text = outcome ls n text := by
  rw [outcome_eq, outcome_eq]
  cases hr : read n text with
  | error w => rfl
  | ok m => exact settle_cons_of_le (by rw [read_line hr]; exact h)

theorem mem_found : (n, text) ∈ found ls ↔ (.marker text, n) ∈ ls := by
  rw [found, List.mem_filterMap]
  refine ⟨fun ⟨y, hy, h⟩ => ?_, fun h => ⟨_, h, rfl⟩⟩
  split at h <;> cases h
  exact hy

theorem outcomes_cons (hls : (x :: ls).Pairwise (·.2 < ·.2)) :
    outcomes (x :: ls) = (found [x]).map (fun m => outcome ls m.1 m.2) ++ outcomes ls := by
  have hfound : found ([x] ++ ls) = found [x] ++ found ls := List.filterMap_append
  rw [outcomes, ← List.singleton_append, hfound, List.map_append, outcomes]
  congr 1 <;> refine List.map_congr_left fun m hm => outcome_cons_of_le ?_
  · exact Nat.le_of_eq (congrArg Prod.snd (List.mem_singleton.1 (mem_found.1 hm))).symm
  · exact Nat.le_of_lt (List.rel_of_pairwise_cons hls (mem_found.1 hm))

end Marker

end ProseLint
