import Mathlib.Data.List.Induction
import ProseLint.Directive

/-!
# Drafts and what they are completed to

Adding tokens to a new draft leaves the lowercase forms of those that are not blank, each where it
first occurs (`parameters_addAll`). Completing a draft only sets the bound (`unbounded_eq`,
`bounded_eq`): no kind needs parameters yet, so the one fault left is a bound above the anchor.
-/

namespace ProseLint

namespace Text
variable {p : Char → Bool} {s : List Char}

theorem dropWhile_eq_self (h : ∀ c ∈ s, p c = false) : s.dropWhile p = s := by
  cases s with
  | nil => rfl
  | cons c s => rw [List.dropWhile_cons_of_neg (by simp [h c])]

theorem dropEndWhile_eq_self (h : ∀ c ∈ s, p c = false) : dropEndWhile p s = s := by
  rw [dropEndWhile, dropWhile_eq_self (by simpa using h), List.reverse_reverse]

theorem trim_eq_self (h : ∀ c ∈ s, isBlank c = false) : trim s = s := by
  rw [trim, trimStart, dropWhile_eq_self h, trimEnd, dropEndWhile_eq_self h]

end Text

namespace Draft
variable {d : Draft}

/-- The form that a token is kept in as a parameter; a blank token is not kept. -/
def parameter? (token : String) : Option String :=
  let t := Text.trim token.toList
  if t.isEmpty then none else some (String.ofList (Text.lower t))

theorem add_of_none {token : String} (h : parameter? token = none) : d.add token = d := by
  have ht : (Text.trim token.toList).isEmpty = true := by simpa [parameter?] using h
  simp [add, ht]

theorem parameters_add_of_some {token p : String} (h : parameter? token = some p) :
    (d.add token).parameters =
      if d.parameters.contains p then d.parameters else d.parameters ++ [p] := by
  obtain ⟨ht, rfl⟩ : ¬ (Text.trim token.toList).isEmpty = true ∧
      String.ofList (Text.lower (Text.trim token.toList)) = p := by simpa [parameter?] using h
  rw [add]
  simp only [ht, Bool.false_or]
  split <;> rfl

theorem add_kind_anchor (d : Draft) (token : String) :
    (d.add token).kind = d.kind ∧ (d.add token).anchor = d.anchor := by
  unfold add
  dsimp only
  split <;> exact ⟨rfl, rfl⟩

theorem addAll_kind_anchor (d : Draft) (tokens : List String) :
    (d.addAll tokens).kind = d.kind ∧ (d.addAll tokens).anchor = d.anchor := by
  induction tokens generalizing d with
  | nil => exact ⟨rfl, rfl⟩
  | cons t ts ih =>
    obtain ⟨hk, ha⟩ := ih (d.add t)
    obtain ⟨hk', ha'⟩ := add_kind_anchor d t
    exact ⟨hk.trans hk', ha.trans ha'⟩

theorem eraseDups_concat (ps : List String) (p : String) :
    (ps ++ [p]).eraseDups =
      if ps.eraseDups.contains p then ps.eraseDups else ps.eraseDups ++ [p] := by
  rw [List.eraseDups_append]
  by_cases h : p ∈ ps <;> simp [h, List.removeAll, List.eraseDups_cons]

/-- Parameters are lowercase tokens, each in the place where it occurs first. -/
theorem parameters_addAll (h : d.parameters = []) (tokens : List String) :
    (d.addAll tokens).parameters = (tokens.filterMap parameter?).eraseDups := by
  induction tokens using List.reverseRecOn with
  | nil => exact h
  | append_singleton ts t ih =>
    rw [show d.addAll (ts ++ [t]) = (d.addAll ts).add t by simp [addAll], List.filterMap_append]
    cases ht : parameter? t with
    | none => rw [add_of_none ht, ih]; simp [ht]
    | some p => rw [parameters_add_of_some ht, ih]; simp only [List.filterMap_cons, ht,
        List.filterMap_nil, eraseDups_concat]

def directive (d : Draft) (bound? : Option LineNumber) : Directive :=
  ⟨d.kind, d.anchor, bound?, d.parameters⟩

theorem complete_eq (d : Draft) (bound? : Option LineNumber) :
    d.complete bound? = .ok (d.directive bound?) := by
  have h : d.kind.needsParameters = false := by cases d.kind; rfl
  rw [complete, h]
  rfl

theorem unbounded_eq (d : Draft) : d.unbounded = .ok (d.directive none) :=
  complete_eq d none

theorem bounded_eq {bound : LineNumber} (h : d.anchor ≤ bound) :
    d.bounded bound = .ok (d.directive (some bound)) := by
  rw [bounded, if_pos h, complete_eq]

end Draft

end ProseLint
