import Mathlib.Data.List.Nodup
import ProseLint.Proofs.Directive
import ProseLint.Proofs.Trim

/-!
# The validators that a directive admits

A directive admits a validator iff the lowercase of a token is the lowercase of the validator, or
there are none but blank tokens (`admits_iff`). So only the set of the tokens counts. The lowercase
of a text does not change with the case of its ASCII letters, final sigmas included
(`lowercase_congr`): the letters of both cases are cased, and none of them is looked through.
-/

namespace ProseLint

/-! ### The case of ASCII letters -/

namespace Text

/-- A function that takes each capital to what it takes the small letter to does not see the
case. -/
theorem apply_toLower {α : Type} {f : Char → α}
    (h : ∀ i < 26, f (Char.ofNat (65 + i)).toLower = f (Char.ofNat (65 + i))) (c : Char) :
    f c.toLower = f c := by
  by_cases hc : 65 ≤ c.toNat ∧ c.toNat ≤ 90
  · have hletter := h (c.toNat - 65) (by omega)
    rwa [Nat.add_sub_cancel' hc.1, Char.ofNat_toNat] at hletter
  · have hsame : c.toLower = c := dif_neg hc
    rw [hsame]

@[simp] theorem lowerChar_toLower (c : Char) : lowerChar c.toLower = lowerChar c :=
  apply_toLower (by decide +kernel) c

@[simp] theorem isCased_toLower (c : Char) : isCased c.toLower = isCased c :=
  apply_toLower (by decide +kernel) c

def asciiLetters : Class := [(0x41, 0x5A), (0x61, 0x7A)]

theorem isCaseIgnorable_of_mem_asciiLetters {c : Char} (h : asciiLetters.has c = true) :
    isCaseIgnorable c = false :=
  Class.Apart.has_eq_false (by decide +kernel) h

@[simp] theorem isCaseIgnorable_toLower (c : Char) :
    isCaseIgnorable c.toLower = isCaseIgnorable c := by
  have hletters : ∀ i < 26, asciiLetters.has (Char.ofNat (65 + i)).toLower = true ∧
      asciiLetters.has (Char.ofNat (65 + i)) = true := by decide +kernel
  refine apply_toLower (fun i hi => ?_) c
  rw [isCaseIgnorable_of_mem_asciiLetters (hletters i hi).1,
    isCaseIgnorable_of_mem_asciiLetters (hletters i hi).2]

@[simp] theorem toLower_eq_sigma_iff (c : Char) : c.toLower = 'Σ' ↔ c = 'Σ' :=
  decide_eq_decide.1 (apply_toLower (f := fun c => decide (c = 'Σ')) (by decide +kernel) c)

@[simp] theorem nextIsCased_map_toLower (s : List Char) :
    nextIsCased (s.map Char.toLower) = nextIsCased s := by
  have hignorable : isCaseIgnorable ∘ Char.toLower = isCaseIgnorable :=
    funext isCaseIgnorable_toLower
  rw [nextIsCased, List.dropWhile_map, hignorable, List.head?_map, Option.any_map]
  simp only [isCased_toLower, nextIsCased]

theorem lowerFrom_map_toLower (before s : List Char) :
    lowerFrom (before.map Char.toLower) (s.map Char.toLower) = lowerFrom before s := by
  induction s generalizing before with
  | nil => rfl
  | cons c s ih =>
    have hrest := ih (c :: before)
    rw [List.map_cons] at hrest
    simp only [List.map_cons, lowerFrom, hrest, lowerSigma, toLower_eq_sigma_iff, lowerChar_toLower,
      nextIsCased_map_toLower]

theorem lowercase_congr {v w : String} (h : sameAscii v w = true) : lowercase v = lowercase w := by
  have hfold : v.toList.map Char.toLower = w.toList.map Char.toLower := beq_iff_eq.1 h
  have hv := lowerFrom_map_toLower [] v.toList
  have hw := lowerFrom_map_toLower [] w.toList
  rw [hfold] at hv
  rw [lowercase, lowercase, lower, lower, ← hv, hw]

end Text

/-! ### Tokens -/

namespace Draft

/-- The token is nothing but white space. -/
def IsBlank (token : String) : Prop :=
  Text.isBlankText token.toList = true

instance (token : String) : Decidable (IsBlank token) :=
  inferInstanceAs (Decidable (_ = true))

/-- The token in lowercase without the white space around it. -/
def folded (token : String) : String :=
  Text.lowercase (String.ofList (Text.trim token.toList))

/-- A directive that the draft can be completed to, with or without a bound. -/
inductive Completes (draft : Draft) : Directive → Prop where
  | unbounded {d : Directive} (h : draft.unbounded = .ok d) : Completes draft d
  | bounded {d : Directive} {bound : LineNumber} (h : draft.bounded bound = .ok d) :
    Completes draft d

variable {draft : Draft} {d : Directive} {token p v : String} {tokens : List String}

theorem parameter?_of_isBlank (h : IsBlank token) : parameter? token = none := by
  have htrim : Text.trim token.toList = [] := Text.trim_eq_nil_iff.2 h
  simp [parameter?, htrim]

theorem parameter?_of_not_isBlank (h : ¬ IsBlank token) :
    parameter? token = some (folded token) := by
  have htrim : Text.trim token.toList ≠ [] := fun hnil => h (Text.trim_eq_nil_iff.1 hnil)
  simp [parameter?, htrim, folded, Text.lowercase]

theorem filterMap_parameter? (tokens : List String) :
    tokens.filterMap parameter? = (tokens.filter (¬ IsBlank ·)).map folded := by
  induction tokens with
  | nil => rfl
  | cons t ts ih =>
    by_cases ht : IsBlank t
    · rw [List.filterMap_cons_none (parameter?_of_isBlank ht), ih,
        List.filter_cons_of_neg (by simpa using ht)]
    · rw [List.filterMap_cons_some (parameter?_of_not_isBlank ht), ih,
        List.filter_cons_of_pos (by simpa using ht), List.map_cons]

theorem nodup_eraseDups (ps : List String) : ps.eraseDups.Nodup := by
  induction ps using List.reverseRecOn with
  | nil => exact List.nodup_nil
  | append_singleton ps p ih =>
    rw [eraseDups_concat]
    split
    · exact ih
    next hp =>
      rw [← List.concat_eq_append]
      exact ih.concat (by simpa using hp)

/-! ### Completed drafts -/

theorem bounded_eq_ok_iff {bound : LineNumber} :
    draft.bounded bound = .ok d ↔ draft.anchor ≤ bound ∧ draft.directive (some bound) = d := by
  by_cases hle : draft.anchor ≤ bound
  · rw [bounded_eq hle, Except.ok.injEq]
    exact (and_iff_right hle).symm
  · rw [bounded, if_neg hle]
    simp [hle]

theorem Completes.parameters_eq (h : draft.Completes d) : d.parameters = draft.parameters := by
  cases h with
  | unbounded h =>
    rw [unbounded_eq] at h
    obtain rfl := Except.ok.inj h
    rfl
  | bounded h =>
    obtain ⟨-, rfl⟩ := bounded_eq_ok_iff.1 h
    rfl

theorem parameters_of_completes (hnew : draft.parameters = [])
    (h : (draft.addAll tokens).Completes d) :
    d.parameters = ((tokens.filter (¬ IsBlank ·)).map folded).eraseDups := by
  rw [h.parameters_eq, parameters_addAll hnew, filterMap_parameter?]

theorem admits_iff (h : d.parameters = ((tokens.filter (¬ IsBlank ·)).map folded).eraseDups) :
    d.admits v = true ↔
      (∀ t ∈ tokens, IsBlank t) ∨ ∃ t ∈ tokens, ¬ IsBlank t ∧ folded t = Text.lowercase v := by
  have hmem : ∀ p, p ∈ d.parameters ↔ ∃ t ∈ tokens, ¬ IsBlank t ∧ folded t = p := by
    intro p
    simp [h, List.mem_eraseDups, and_assoc]
  have hempty : d.parameters = [] ↔ ∀ t ∈ tokens, IsBlank t := by
    constructor
    · intro hnil t ht
      by_contra hblank
      have hfolded : folded t ∈ d.parameters := (hmem _).2 ⟨t, ht, hblank, rfl⟩
      rw [hnil] at hfolded
      cases hfolded
    · intro hall
      refine List.eq_nil_iff_forall_not_mem.2 fun p hp => ?_
      obtain ⟨t, ht, hblank, -⟩ := (hmem p).1 hp
      exact hblank (hall t ht)
  rw [Directive.admits, Bool.or_eq_true, List.isEmpty_iff, hempty, List.contains_iff_mem, hmem]

/-- A draft is completed without a bound, or with one that is not above its anchor, whatever its
tokens are. The directive admits a validator iff the tokens are all blank or one of those that are
not has the same lowercase; the order of the tokens and how often each is added do not count, and
neither does the case of the ASCII letters of the validator. -/
theorem completed_admits (kind : Kind) (marker : LineNumber) (tokens : List String) :
    let draft := (start kind marker).addAll tokens
    (∃ d, draft.unbounded = .ok d) ∧
    (∀ bound, (∃ d, draft.bounded bound = .ok d) ↔ marker.below ≤ bound) ∧
    ∀ d, draft.Completes d →
      d.parameters.Nodup ∧
      d.parameters = ((tokens.filter (¬ IsBlank ·)).map folded).eraseDups ∧
      (∀ v, d.admits v = true ↔
        (∀ t ∈ tokens, IsBlank t) ∨ ∃ t ∈ tokens, ¬ IsBlank t ∧ folded t = Text.lowercase v) ∧
      (∀ kind' marker' tokens' d', (∀ t, t ∈ tokens' ↔ t ∈ tokens) →
        ((start kind' marker').addAll tokens').Completes d' → ∀ v, d'.admits v = d.admits v) ∧
      ∀ v w, Text.sameAscii v w = true → d.admits v = d.admits w := by
  intro draft
  have hanchor : draft.anchor = marker.below := (addAll_kind_anchor _ tokens).2
  refine ⟨⟨_, unbounded_eq draft⟩, fun bound => ?_, fun d hd => ?_⟩
  · simp only [bounded_eq_ok_iff, hanchor, exists_and_left, exists_eq', and_true]
  have hparameters := parameters_of_completes rfl hd
  refine ⟨?_, hparameters, fun v => admits_iff hparameters, ?_, fun v w h => ?_⟩
  · rw [hparameters]
    exact nodup_eraseDups _
  · intro kind' marker' tokens' d' htokens hd' v
    have hparameters' := parameters_of_completes rfl hd'
    rw [Bool.eq_iff_iff, admits_iff hparameters, admits_iff hparameters']
    simp only [htokens]
  · rw [Directive.admits, Directive.admits, Text.lowercase_congr h]

/-- Tokens that differ in case and in blanks around them, a sigma at the end of a word, and a blank
token. -/
theorem completed_admits_final_sigma :
    let tokens := [" ΑΣ", "\u3000", "Tone", "TONE\t", "ας"]
    let d : Directive := ⟨.suppress, 2, some 2, ["ας", "tone"]⟩
    ((start .suppress 1).addAll tokens).bounded 2 = .ok d ∧ d.parameters.Nodup ∧
      d.admits "Ας" = true ∧ d.admits "tONE" = d.admits "Tone" ∧
      d.admits "To" = false ∧
      ∀ v, ((start .suppress 7).addAll tokens.reverse).unbounded.toOption.map (·.admits v) =
        some (d.admits v) := by
  intro tokens d
  have hcomplete : ((start .suppress 1).addAll tokens).bounded 2 = .ok d := by decide +kernel
  obtain ⟨-, -, hd⟩ := completed_admits .suppress 1 tokens
  obtain ⟨hnodup, -, hadmits, hsame, hcase⟩ := hd d (.bounded hcomplete)
  refine ⟨hcomplete, hnodup, ?_, hcase _ _ (by decide +kernel), by decide +kernel, fun v => ?_⟩
  · exact (hadmits _).2 (.inr ⟨"ας", by decide, by decide +kernel, by decide +kernel⟩)
  · rw [unbounded_eq]
    exact congrArg some (hsame _ _ _ _ (fun t => List.mem_reverse) (.unbounded (unbounded_eq _)) v)

/-- A blank token does not let the directive apply to the validator without a name, though both are
the same in lowercase and without white space around them. -/
theorem completed_admits_no_blank_token :
    let tokens := ["a", " "]
    let d : Directive := ⟨.suppress, 2, none, ["a"]⟩
    ((start .suppress 1).addAll tokens).unbounded = .ok d ∧
      ¬ (d.admits "" = true ↔
        (∀ t ∈ tokens, IsBlank t) ∨ ∃ t ∈ tokens, folded t = Text.lowercase "") := by
  decide +kernel

end Draft

end ProseLint
