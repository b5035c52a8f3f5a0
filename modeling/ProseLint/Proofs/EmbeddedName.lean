import Mathlib.Data.List.TakeWhile
import ProseLint.Diagnostic

/-!
# The validator that a message names

A message names a validator iff its first token is `[name.ext]` (`Names`), where the extension is
what stands behind the last full stop: the name may hold full stops and brackets of its own
(`embeddedName?_eq_some_iff`). Each of the three steps of reading a name is an iff of its own.
-/

namespace ProseLint.Diagnostic

/-- Behind blanks, `token` stands at the start of `s`, with the end of `s` or a blank behind it. -/
def FirstToken (s token : List Char) : Prop :=
  ∃ u r, s = u ++ (token ++ r) ∧ (∀ c ∈ u, Text.isBlank c = true) ∧
    (∀ c ∈ token, Text.isBlank c = false) ∧ ∀ c ∈ r.head?, Text.isBlank c = true

/-- Something is there and none of it is blank. -/
def IsToken (s : String) : Prop :=
  s.toList ≠ [] ∧ ∀ c ∈ s.toList, Text.isBlank c = false

instance (s : String) : Decidable (IsToken s) :=
  have := List.decidableBAll (Text.isBlank · = false) s.toList
  instDecidableAnd

/-- The first token of the message is the name in brackets with an extension behind it. -/
def Names (message name : String) : Prop :=
  ∃ ext, FirstToken message.toList ('[' :: (name.toList ++ '.' :: (ext ++ [']']))) ∧
    name.toList ≠ [] ∧ ext ≠ [] ∧ '.' ∉ ext

variable {s t ext name : List Char}

theorem firstToken_eq_iff (ht : t ≠ []) : firstToken s = t ↔ FirstToken s t := by
  constructor
  · rintro rfl
    refine ⟨s.takeWhile Text.isBlank, (s.dropWhile Text.isBlank).dropWhile (!Text.isBlank ·),
      ?_, fun c hc => List.mem_takeWhile_imp hc, fun c hc => ?_, fun c hc => ?_⟩
    · rw [firstToken, List.takeWhile_append_dropWhile, List.takeWhile_append_dropWhile]
    · simpa using List.mem_takeWhile_imp hc
    · have hnot := List.head?_dropWhile_not (!Text.isBlank ·) (s.dropWhile Text.isBlank)
      rw [Option.mem_def.1 hc] at hnot
      simpa using hnot
  · rintro ⟨u, r, rfl, hu, hblank, hr⟩
    obtain ⟨c, t, rfl⟩ := List.exists_cons_of_ne_nil ht
    have hstart : ((c :: t) ++ r).dropWhile Text.isBlank = (c :: t) ++ r :=
      List.dropWhile_cons_of_neg (by simp [hblank c (List.mem_cons_self ..)])
    have hend : r.takeWhile (!Text.isBlank ·) = [] := by
      cases r with
      | nil => rfl
      | cons d r => exact List.takeWhile_cons_of_neg (by simp [hr d rfl])
    rw [firstToken, List.dropWhile_append_of_pos hu, hstart,
      List.takeWhile_append_of_pos (by simpa using hblank), hend, List.append_nil]

theorem unbracket?_eq_some_iff : unbracket? s = some t ↔ s = '[' :: (t ++ [']']) := by
  constructor
  · intro h
    unfold unbracket? at h
    split at h
    next s =>
      split at h
      next r hr =>
        obtain rfl : r.reverse = t := Option.some.inj h
        rw [List.reverse_eq_iff.1 hr, List.reverse_cons]
      next => cases h
    next => cases h
  · rintro rfl
    simp [unbracket?]

theorem splitLastStop?_eq_some_iff :
    splitLastStop? s = some (name, ext) ↔ s = name ++ '.' :: ext ∧ '.' ∉ ext := by
  constructor
  · intro h
    have hwhole : s.reverse.takeWhile (· != '.') ++ s.reverse.dropWhile (· != '.') = s.reverse :=
      List.takeWhile_append_dropWhile
    unfold splitLastStop? at h
    cases hrest : s.reverse.dropWhile (· != '.') with
    | nil => simp [hrest] at h
    | cons c r =>
      have hstop := List.head?_dropWhile_not (· != '.') s.reverse
      rw [hrest] at h hwhole hstop
      obtain rfl : c = '.' := by simpa using hstop
      simp only [Option.some.injEq, Prod.mk.injEq] at h
      obtain ⟨rfl, rfl⟩ := h
      refine ⟨?_, fun hmem => ?_⟩
      · simpa using (congrArg List.reverse hwhole).symm
      · simpa using List.mem_takeWhile_imp (List.mem_reverse.1 hmem)
  · rintro ⟨rfl, hext⟩
    have hpos : ∀ c ∈ ext.reverse, (c != '.') = true := by
      intro c hc
      exact bne_iff_ne.2 fun heq => hext (heq ▸ List.mem_reverse.1 hc)
    have hrev : (name ++ '.' :: ext).reverse = ext.reverse ++ '.' :: name.reverse := by simp
    rw [splitLastStop?, hrev, List.dropWhile_append_of_pos hpos, List.takeWhile_append_of_pos hpos,
      List.dropWhile_cons_of_neg (by simp), List.takeWhile_cons_of_neg (by simp)]
    simp

theorem embeddedName?_eq_some_iff {message name : String} :
    embeddedName? message = some name ↔ Names message name := by
  simp only [embeddedName?, Option.bind_eq_bind, Option.bind_eq_some_iff, unbracket?_eq_some_iff]
  constructor
  · rintro ⟨inner, hinner, ⟨n, ext⟩, hsplit, hname⟩
    obtain ⟨rfl, hext⟩ := splitLastStop?_eq_some_iff.1 hsplit
    obtain ⟨hne, rfl⟩ : ¬ (n = [] ∨ ext = []) ∧ String.ofList n = name := by simpa using hname
    rw [not_or] at hne
    rw [List.append_assoc, List.cons_append] at hinner
    refine ⟨ext, (firstToken_eq_iff (List.cons_ne_nil _ _)).1 ?_, ?_, hne.2, hext⟩
    · rw [String.toList_ofList, hinner]
    · rw [String.toList_ofList]
      exact hne.1
  · rintro ⟨ext, hfirst, hname, hne, hext⟩
    refine ⟨name.toList ++ '.' :: ext, ?_, (name.toList, ext),
      splitLastStop?_eq_some_iff.2 ⟨rfl, hext⟩, ?_⟩
    · rw [(firstToken_eq_iff (List.cons_ne_nil _ _)).2 hfirst, List.append_assoc, List.cons_append]
    · simp [hname, hne]

theorem Names.of_written {lead name ext rest : String} (hlead : Text.isBlankText lead.toList = true)
    (hname : IsToken name) (hext : IsToken ext) (hstop : '.' ∉ ext.toList)
    (hrest : rest.toList.head?.all Text.isBlank = true) :
    Names (lead ++ "[" ++ name ++ "." ++ ext ++ "]" ++ rest) name := by
  refine ⟨ext.toList, ⟨lead.toList, rest.toList, by simp, List.all_eq_true.1 hlead,
    fun c hc => ?_, (Option.all_eq_true _ _).1 hrest⟩, hname.1, hext.1, hstop⟩
  simp only [List.mem_cons, List.mem_append, List.not_mem_nil, or_false] at hc
  rcases hc with rfl | hc | rfl | hc | rfl
  · decide
  · exact hname.2 c hc
  · decide
  · exact hext.2 c hc
  · decide

/-- A message names at most one validator, and reading it finds just that one. The sentinel stands
for the validator that is given or else named by the message, if there is one, and any other
validator stands for itself. -/
theorem effectiveValidator_named :
    (∀ message name, embeddedName? message = some name ↔ Names message name) ∧
    (∀ message name name', Names message name → Names message name' → name = name') ∧
    ∀ (d : Diagnostic) (sentinel : String),
      (d.validator ≠ sentinel → d.effectiveValidator sentinel = d.validator) ∧
      (d.validator = sentinel → ∀ sub, d.subValidator? = some sub →
        d.effectiveValidator sentinel = sub) ∧
      (d.validator = sentinel → d.subValidator? = none →
        (∀ lead name ext rest : String, Text.isBlankText lead.toList = true → IsToken name →
          IsToken ext → '.' ∉ ext.toList → rest.toList.head?.all Text.isBlank = true →
          d.message = lead ++ "[" ++ name ++ "." ++ ext ++ "]" ++ rest →
            d.effectiveValidator sentinel = name) ∧
        ((∀ name, ¬ Names d.message name) → d.effectiveValidator sentinel = sentinel)) := by
  refine ⟨fun message name => embeddedName?_eq_some_iff, ?_, fun d sentinel => ⟨?_, ?_, ?_⟩⟩
  · intro message name name' h h'
    have hread : embeddedName? message = some name := embeddedName?_eq_some_iff.2 h
    have hread' : embeddedName? message = some name' := embeddedName?_eq_some_iff.2 h'
    exact Option.some.inj (hread.symm.trans hread')
  · exact fun hd => if_pos hd
  · intro hd sub hsub
    simp [effectiveValidator, hd, hsub]
  · intro hd hsub
    have hmessage : d.effectiveValidator sentinel = (embeddedName? d.message).getD sentinel := by
      simp [effectiveValidator, hd, hsub]
    refine ⟨fun lead name ext rest hlead hname hext hstop hrest hwritten => ?_, fun hno => ?_⟩
    · have hnames := Names.of_written hlead hname hext hstop hrest
      rw [← hwritten] at hnames
      rw [hmessage, embeddedName?_eq_some_iff.2 hnames, Option.getD_some]
    · have hnone : embeddedName? d.message = none :=
        Option.eq_none_iff_forall_ne_some.2 fun name h => hno name (embeddedName?_eq_some_iff.1 h)
      rw [hmessage, hnone, Option.getD_none]

/-- A name with a full stop and brackets of its own, blanks other than spaces around the token, and
a message that has its name behind a word. -/
theorem effectiveValidator_named_brackets :
    let d : Diagnostic := ⟨"Lua", 3, "\t\u3000[a.[b].lua]\u2003too long", none, none⟩
    let late : Diagnostic := { d with message := "Found [a.lua]" }
    Names d.message "a.[b]" ∧ (∀ name, Names d.message name → name = "a.[b]") ∧
      d.effectiveValidator "Lua" = "a.[b]" ∧
      d.effectiveValidator "JavaScript" = "Lua" ∧
      { d with subValidator? := some "" }.effectiveValidator "Lua" = "" ∧
      late.effectiveValidator "Lua" = "Lua" := by
  intro d late
  obtain ⟨hread, hunique, heffective⟩ := effectiveValidator_named
  have hnames : Names d.message "a.[b]" := (hread _ _).1 (by decide +kernel)
  refine ⟨hnames, fun name h => hunique _ _ _ h hnames, ?_, ?_, ?_, ?_⟩
  · exact ((heffective d "Lua").2.2 rfl rfl).1 "\t\u3000" "a.[b]" "lua" "\u2003too long"
      (by decide +kernel) (by decide +kernel) (by decide +kernel) (by decide +kernel)
      (by decide +kernel) (by decide +kernel)
  · exact (heffective d "JavaScript").1 (by decide)
  · exact (heffective { d with subValidator? := some "" } "Lua").2.1 rfl "" rfl
  · refine ((heffective late "Lua").2.2 rfl rfl).2 fun name h => ?_
    have hnone : embeddedName? late.message = none := by decide +kernel
    rw [(hread _ _).2 h] at hnone
    cases hnone

end ProseLint.Diagnostic
