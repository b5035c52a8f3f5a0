import ProseLint.Diagnostic.Stored
import ProseLint.Proofs.Json.Value

/-!
# Stored diagnostics are read back

What is stored of a diagnostic is enough to tell it from every other one, as long as its line
numbers can be written down.
-/

namespace ProseLint

open Json

/-! ### Options -/

theorem guard_of {p : Prop} [Decidable p] (h : p) : (guard p : Option Unit) = some () :=
  if_pos h

section
variable {α β : Type} {f : α → Option β}

theorem mapM_map_eq_some {g : β → α} {bs : List β} (h : ∀ b ∈ bs, f (g b) = some b) :
    (bs.map g).mapM f = some bs := by
  induction bs with
  | nil => rfl
  | cons b bs ih =>
    obtain ⟨hb, hbs⟩ := List.forall_mem_cons.1 h
    rw [List.map_cons, List.mapM_cons, hb, ih hbs]
    rfl

theorem exists_of_mem_mapM {as : List α} {bs : List β} (h : as.mapM f = some bs) {b : β}
    (hb : b ∈ bs) : ∃ a ∈ as, f a = some b := by
  induction as generalizing bs with
  | nil =>
    obtain rfl : [] = bs := Option.some.inj h
    cases hb
  | cons a as ih =>
    simp only [List.mapM_cons, Option.bind_eq_bind, Option.bind_eq_some_iff, Option.pure_def,
      Option.some.injEq] at h
    obtain ⟨b', ha, bs', has, rfl⟩ := h
    rcases List.mem_cons.1 hb with rfl | hb
    · exact ⟨a, List.mem_cons_self, ha⟩
    · obtain ⟨a', hmem, ha'⟩ := ih has hb
      exact ⟨a', List.mem_cons_of_mem a hmem, ha'⟩

end

/-! ### Parts of a diagnostic -/

theorem Json.line?_natural {n : Nat} (h : n ≤ LineNumber.last) : (natural n).line? = some n :=
  if_pos h

theorem Json.le_last_of_line? {j : Json} {n : LineNumber} (h : j.line? = some n) :
    n ≤ LineNumber.last := by
  unfold Json.line? at h
  split at h
  next m =>
    split at h
    next hm => exact Option.some.inj h ▸ hm
    next => contradiction
  next => contradiction

theorem Json.optional?_map {α : Type} {f : Json → Option α} {g : α → Json} {o : Option α}
    (h : ∀ x ∈ o, g x ≠ null ∧ f (g x) = some x) : optional? f (o.map g) = some o := by
  cases o with
  | none => rfl
  | some x =>
    obtain ⟨hnull, hx⟩ := h x rfl
    rw [Option.map_some, optional?.eq_3 _ _ hnull, hx]
    rfl

theorem Json.exists_of_optional? {α : Type} {f : Json → Option α} {j? : Option Json} {x : α}
    (h : optional? f j? = some (some x)) : ∃ j, f j = some x := by
  unfold optional? at h
  split at h
  · cases h
  · cases h
  next j _ =>
    obtain ⟨y, hy, hyx⟩ := Option.map_eq_some_iff.1 h
    exact ⟨j, hy.trans hyx⟩

namespace Sentence

/-- The line number can be written down and is that of a line. -/
def Fits (s : Sentence) : Prop :=
  0 < s.line ∧ s.line ≤ LineNumber.last

instance (s : Sentence) : Decidable s.Fits :=
  inferInstanceAs (Decidable (_ ∧ _))

theorem ofJson?_toJson {s : Sentence} (h : s.Fits) : ofJson? s.toJson = some s := by
  have hpos : s.line ≠ 0 := Nat.ne_of_gt h.1
  rw [toJson, ofJson?, guard_of (by rfl)]
  simp [required?, member?, ofParts?, line?_natural h.2, string?, hpos]

theorem fits_of_ofParts? {content line : Json} {s : Sentence}
    (h : ofParts? content line = some s) : s.Fits := by
  simp only [ofParts?, Option.bind_eq_bind, Option.bind_eq_some_iff] at h
  obtain ⟨n, hn, h⟩ := h
  split at h
  · contradiction
  next hpos =>
    obtain ⟨c, -, hs⟩ := Option.bind_eq_some_iff.1 h
    obtain rfl : Sentence.mk c n = s := Option.some.inj hs
    exact ⟨Nat.pos_of_ne_zero hpos, le_last_of_line? hn⟩

theorem fits_of_ofJson? {j : Json} {s : Sentence} (h : ofJson? j = some s) : s.Fits := by
  unfold ofJson? at h
  split at h
  · exact fits_of_ofParts? h
  · obtain ⟨-, -, h⟩ := Option.bind_eq_some_iff.1 h
    simp only [Option.bind_eq_bind, Option.bind_eq_some_iff] at h
    obtain ⟨content, -, line, -, h⟩ := h
    exact fits_of_ofParts? h
  · contradiction

end Sentence

namespace Diagnostic

/-- The line numbers can be written down. Only the diagnostic itself may belong to no line. -/
structure Fits (d : Diagnostic) : Prop where
  line_le : d.line ≤ LineNumber.last
  sentence : ∀ s ∈ d.sentence?, s.Fits

instance (d : Diagnostic) : Decidable d.Fits :=
  decidable_of_iff (d.line ≤ LineNumber.last ∧ ∀ s ∈ d.sentence?, s.Fits)
    ⟨fun h => ⟨h.1, h.2⟩, fun h => ⟨h.line_le, h.sentence⟩⟩

/-- The order of the members does not matter. -/
theorem ofJson?_object {d : Diagnostic} (h : d.Fits) {ms : List (Option String × Json)}
    (hnamed : named ms = true)
    (hvalidator : required? ms "validator" = some (text (some d.validator)))
    (hline : required? ms "line" = some (natural d.line))
    (hmessage : required? ms "message" = some (text (some d.message)))
    (hsub : member? ms "sub_validator" = some (d.subValidator?.map fun s => text (some s)))
    (hsentence : member? ms "sentence" = some (d.sentence?.map Sentence.toJson)) :
    ofJson? (object ms) = some d := by
  have hnumber : (natural d.line).line? = some d.line := line?_natural h.line_le
  have hname : optional? string? (d.subValidator?.map fun s => text (some s)) =
      some d.subValidator? :=
    optional?_map fun s _ => ⟨nofun, rfl⟩
  have hread : optional? Sentence.ofJson? (d.sentence?.map Sentence.toJson) = some d.sentence? :=
    optional?_map fun s hs => ⟨nofun, Sentence.ofJson?_toJson (h.sentence s hs)⟩
  rw [ofJson?, guard_of hnamed, hvalidator, hline, hmessage, hsub, hsentence]
  simp [ofParts?, string?, hnumber, hname, hread]

theorem ofJson?_toJson {d : Diagnostic} (h : d.Fits) : ofJson? d.toJson = some d := by
  obtain ⟨validator, line, message, sub, sentence⟩ := d
  cases sub <;> cases sentence <;> exact ofJson?_object h rfl rfl rfl rfl rfl rfl

theorem fits_of_ofParts? {v l m : Json} {sub s : Option Json} {d : Diagnostic}
    (h : ofParts? v l m sub s = some d) : d.Fits := by
  simp only [ofParts?, Option.bind_eq_bind, Option.bind_eq_some_iff] at h
  obtain ⟨_, -, n, hn, _, -, _, -, o, ho, hd⟩ := h
  obtain rfl := Option.some.inj hd
  refine ⟨le_last_of_line? hn, ?_⟩
  rintro s rfl
  obtain ⟨j, hj⟩ := exists_of_optional? ho
  exact Sentence.fits_of_ofJson? hj

theorem fits_of_ofJson? {j : Json} {d : Diagnostic} (h : ofJson? j = some d) : d.Fits := by
  unfold ofJson? at h
  split at h
  · exact fits_of_ofParts? h
  · exact fits_of_ofParts? h
  · exact fits_of_ofParts? h
  · obtain ⟨-, -, h⟩ := Option.bind_eq_some_iff.1 h
    simp only [Option.bind_eq_bind, Option.bind_eq_some_iff] at h
    obtain ⟨v, -, l, -, m, -, sub, -, s, -, h⟩ := h
    exact fits_of_ofParts? h
  · contradiction

theorem text_none_not_mem_toJson (d : Diagnostic) : .text none ∉ d.toJson.tokens := by
  obtain ⟨validator, line, message, sub, sentence⟩ := d
  cases sub <;> cases sentence <;> simp [toJson, Sentence.toJson, tokens, moreMembers]

/-! ### Lists of diagnostics -/

theorem readAll?_writeAll_of_fits {ds : List Diagnostic} (h : ∀ d ∈ ds, d.Fits) :
    readAll? (writeAll ds) = some ds := by
  have hwhole : .text none ∉ (array (ds.map toJson)).tokens := by
    refine text_none_not_mem_array fun j hj => ?_
    obtain ⟨d, -, rfl⟩ := List.mem_map.1 hj
    exact text_none_not_mem_toJson d
  have hread : (ds.map toJson).mapM ofJson? = some ds :=
    mapM_map_eq_some fun d hd => ofJson?_toJson (h d hd)
  rw [readAll?, writeAll, read?_compact hwhole]
  exact hread

theorem fits_of_readAll? {s : String} {ds : List Diagnostic} (h : readAll? s = some ds) :
    ∀ d ∈ ds, d.Fits := by
  simp only [readAll?, Option.bind_eq_bind, Option.bind_eq_some_iff] at h
  obtain ⟨j, -, h⟩ := h
  split at h
  next js =>
    intro d hd
    obtain ⟨j, -, hj⟩ := exists_of_mem_mapM h hd
    exact fits_of_ofJson? hj
  next => contradiction

/-- Diagnostics are read back from what is stored of them. So a list that was read is stored in a
text that gives the same list, and from there in the same text again. -/
theorem readAll?_writeAll :
    (∀ ds : List Diagnostic, (∀ d ∈ ds, d.Fits) → readAll? (writeAll ds) = some ds) ∧
    ∀ s ds, readAll? s = some ds →
      readAll? (writeAll ds) = some ds ∧
        (readAll? (writeAll ds)).map writeAll = some (writeAll ds) := by
  refine ⟨fun ds h => readAll?_writeAll_of_fits h, fun s ds h => ?_⟩
  have hread := readAll?_writeAll_of_fits (fits_of_readAll? h)
  exact ⟨hread, by rw [hread, Option.map_some]⟩

/-- Escapes, a surrogate pair, both ends of the line numbers, and parts that are absent or null. -/
theorem readAll?_writeAll_escapes :
    let ds : List Diagnostic :=
      [⟨"a\x22b\\", 0, "\x01\t é 𝔸\n", none, none⟩,
        ⟨"JavaScript", LineNumber.last, "", some "", some ⟨"\x1f\x7f", 7⟩⟩]
    let s := " [ [\x22a\x22, 3, \x22\\ud835\\udd38\x22, null] ] "
    let es : List Diagnostic := [⟨"a", 3, "𝔸", none, none⟩]
    (∀ d ∈ ds, d.Fits) ∧ readAll? (writeAll ds) = some ds ∧
      readAll? s = some es ∧ readAll? (writeAll es) = some es := by
  intro ds s es
  have hfits : ∀ d ∈ ds, d.Fits := by decide
  have hread : readAll? s = some es := by decide +kernel
  exact ⟨hfits, readAll?_writeAll.1 ds hfits, hread, (readAll?_writeAll.2 s es hread).1⟩

end Diagnostic

end ProseLint
