import ProseLint.Proofs.Faults
import ProseLint.Settings

/-!
# Overrides over the table of a locale

An override merges with the glyph that the locale has for its symbol, part by part
(`Override.apply_eq_some_iff`). The overrides are applied in a run that reads the glyphs from the
table that it changes, but each symbol comes once, so the glyph that is read is still that of the
locale (`applied_of_foldlM`), and a run that fails does so at the first symbol without a value
(`symbolTable_error`).
-/

namespace ProseLint

namespace Symbol

theorem pairwise_all : all.Pairwise (·.ctorIdx < ·.ctorIdx) := by
  decide +kernel

theorem ctorIdx_injective {s x : Symbol} (h : s.ctorIdx = x.ctorIdx) : s = x := by
  have hall : ∀ s ∈ all, all[s.ctorIdx]? = some s := by decide +kernel
  have hs := hall s s.mem_all
  rw [h, hall x x.mem_all] at hs
  exact (Option.some.inj hs).symm

end Symbol

/-! ### One override -/

namespace Override

/-- A part of a glyph is what the override sets, else what the locale has, else the default. -/
inductive Takes {α : Type} (set? locale? default? : Option α) (a : α) : Prop where
  | set (h : set? = some a) : Takes set? locale? default? a
  | locale (hset : set? = none) (h : locale? = some a) : Takes set? locale? default? a
  | default (hset : set? = none) (hlocale : locale? = none) (h : default? = some a) :
    Takes set? locale? default? a

theorem takes_iff {α : Type} {set? locale? default? : Option α} {a : α} :
    Takes set? locale? default? a ↔ (set?.or locale?).or default? = some a := by
  constructor
  · rintro (rfl | ⟨rfl, rfl⟩ | ⟨rfl, rfl, rfl⟩) <;> simp
  · intro h
    cases hset : set? with
    | some b => exact .set (by simpa [hset] using h)
    | none =>
      cases hlocale : locale? with
      | some b => exact .locale rfl (by simpa [hset, hlocale] using h)
      | none => exact .default rfl rfl (by simpa [hset, hlocale] using h)

/-- What an override makes of the glyph that the locale has, if it has one. There is no default for
the value. -/
structure Merges (o : Override) (base? : Option Glyph) (g : Glyph) : Prop where
  value : Takes o.value? (base?.map (·.value)) none g.value
  flagged : Takes o.flagged? (base?.map (·.flagged)) (some []) g.flagged
  spaceBefore : Takes o.spaceBefore? (base?.map (·.spaceBefore)) (some false) g.spaceBefore
  spaceAfter : Takes o.spaceAfter? (base?.map (·.spaceAfter)) (some false) g.spaceAfter

variable {o : Override} {base? : Option Glyph} {g : Glyph}

theorem takes_some_iff {α : Type} {set? locale? : Option α} {d a : α} :
    Takes set? locale? (some d) a ↔ (set?.or locale?).getD d = a := by
  rw [takes_iff, Option.or_some, Option.some.injEq]

theorem apply_eq_some_iff : o.apply base? = some g ↔ o.Merges base? g := by
  simp only [apply, Option.bind_eq_bind, Option.bind_eq_some_iff, Option.pure_def,
    Option.some.injEq]
  constructor
  · rintro ⟨v, hv, rfl⟩
    exact ⟨takes_iff.2 (by rw [hv]; rfl), takes_some_iff.2 rfl, takes_some_iff.2 rfl,
      takes_some_iff.2 rfl⟩
  · rintro ⟨hvalue, hflagged, hbefore, hafter⟩
    refine ⟨g.value, by simpa using takes_iff.1 hvalue, ?_⟩
    rw [takes_some_iff.1 hflagged, takes_some_iff.1 hbefore, takes_some_iff.1 hafter]

theorem apply_eq_none_iff : o.apply base? = none ↔ o.value? = none ∧ base? = none := by
  cases hv : o.value? <;> cases base? <;> simp [apply, hv]

end Override

/-! ### A run of overrides -/

namespace Settings

/-- `t'` is `t` with each symbol in `es` changed as its override says. -/
structure Applied (t : SymbolTable) (es : List (Symbol × Override)) (t' : SymbolTable) : Prop where
  locale : t'.locale = t.locale
  glyph : ∀ s o, (s, o) ∈ es → ∃ g, t'.glyph? s = some g ∧ o.Merges (t.glyph? s) g
  other : ∀ s, s ∉ es.map Prod.fst → t'.glyph? s = t.glyph? s

variable {t t' t'' : SymbolTable} {s : Symbol} {o : Override} {es : List (Symbol × Override)}
  {e : IncompleteSymbol} {c : Settings}

theorem applyOverride_eq_ok_iff : applyOverride t s o = .ok t' ↔
    ∃ g, o.Merges (t.glyph? s) g ∧ t' = t.register s g := by
  simp only [← Override.apply_eq_some_iff, applyOverride]
  cases o.apply (t.glyph? s) <;> simp [eq_comm]

theorem applyOverride_eq_error_iff : applyOverride t s o = .error e ↔
    (o.value? = none ∧ t.glyph? s = none) ∧ e = ⟨t.locale, s⟩ := by
  rw [← Override.apply_eq_none_iff, applyOverride]
  cases o.apply (t.glyph? s) <;> simp [eq_comm]

theorem Applied.nil (t : SymbolTable) : Applied t [] t :=
  ⟨rfl, fun _ _ => nofun, fun _ _ => rfl⟩

/-- The symbol is read before the overrides below change the table, and not changed by them. -/
theorem Applied.cons (hs : s ∉ es.map Prod.fst) (h : applyOverride t s o = .ok t')
    (hes : Applied t' es t'') : Applied t ((s, o) :: es) t'' := by
  obtain ⟨g, hg, rfl⟩ := applyOverride_eq_ok_iff.1 h
  have hkept : ∀ x, x ≠ s → (t.register s g).glyph? x = t.glyph? x :=
    fun x hx => t.glyph?_register_of_ne g hx
  refine ⟨hes.locale, fun x p hxp => ?_, fun x hx => ?_⟩
  · rcases List.mem_cons.1 hxp with heq | hxp
    · obtain ⟨rfl, rfl⟩ := Prod.mk.inj heq
      exact ⟨g, by rw [hes.other x hs, SymbolTable.glyph?_register_self], hg⟩
    · have hne : x ≠ s := fun heq => hs (heq ▸ List.mem_map_of_mem hxp)
      rw [← hkept x hne]
      exact hes.glyph x p hxp
  · rw [List.map_cons, List.mem_cons, not_or] at hx
    rw [hes.other x hx.2, hkept x hx.1]

theorem applied_of_foldlM (hes : (es.map Prod.fst).Nodup)
    (h : es.foldlM (fun t e => applyOverride t e.1 e.2) t = .ok t') : Applied t es t' := by
  induction es generalizing t with
  | nil =>
    obtain rfl : t = t' := Except.ok.inj h
    exact .nil t
  | cons e es ih =>
    obtain ⟨he, hes⟩ := List.nodup_cons.1 hes
    rw [List.foldlM_cons] at h
    cases ht : applyOverride t e.1 e.2 with
    | error => rw [ht] at h; cases h
    | ok t₁ =>
      rw [ht] at h
      exact .cons he ht (ih hes h)

theorem foldlM_applyOverride_error (hes : (es.map Prod.fst).Nodup)
    (h : es.foldlM (fun t e => applyOverride t e.1 e.2) t = .error e) :
    ∃ above s o below t', es = above ++ (s, o) :: below ∧ Applied t above t' ∧
      (o.value? = none ∧ t.glyph? s = none) ∧ e = ⟨t.locale, s⟩ := by
  obtain ⟨above, ⟨s, o⟩, below, t', rfl, habove, he⟩ := foldlM_eq_error_iff.1 h
  rw [List.map_append, List.map_cons] at hes
  obtain ⟨hnodup, -, hdistinct⟩ := List.nodup_append.1 hes
  have happlied := applied_of_foldlM hnodup habove
  have hs : s ∉ above.map Prod.fst := fun hs => hdistinct s hs s (List.mem_cons_self ..) rfl
  rw [applyOverride_eq_error_iff, happlied.other s hs, happlied.locale] at he
  exact ⟨above, s, o, below, t', rfl, happlied, he⟩

/-! ### The overrides of settings -/

theorem mem_overrides : (s, o) ∈ c.overrides ↔ c.override? s = some o := by
  rw [overrides, List.mem_filterMap]
  constructor
  · rintro ⟨x, -, hx⟩
    obtain ⟨p, hp, heq⟩ := Option.map_eq_some_iff.1 hx
    obtain ⟨rfl, rfl⟩ := Prod.mk.inj heq
    exact hp
  · intro h
    exact ⟨s, s.mem_all, by rw [h]; rfl⟩

theorem pairwise_overrides (c : Settings) :
    c.overrides.Pairwise fun e f => e.1.ctorIdx < f.1.ctorIdx := by
  refine Symbol.pairwise_all.filterMap _ fun s x hlt e he f hf => ?_
  obtain ⟨_, -, rfl⟩ := Option.map_eq_some_iff.1 he
  obtain ⟨_, -, rfl⟩ := Option.map_eq_some_iff.1 hf
  exact hlt

theorem nodup_overrides (c : Settings) : (c.overrides.map Prod.fst).Nodup := by
  refine List.pairwise_map.2 (c.pairwise_overrides.imp fun hlt heq => ?_)
  exact Nat.lt_irrefl _ (heq ▸ hlt)

theorem not_mem_overrides (h : c.override? s = none) : s ∉ c.overrides.map Prod.fst := by
  intro hs
  obtain ⟨⟨x, o⟩, hmem, rfl⟩ := List.mem_map.1 hs
  rw [mem_overrides.1 hmem] at h
  cases h

theorem locale_builtin (l : Locale) : (SymbolTable.builtin l).locale = l := by
  cases l <;> rfl

/-- The override of the symbol has no value, and the locale leaves the symbol undefined. -/
def Incomplete (c : Settings) (s : Symbol) : Prop :=
  ∃ o ∈ c.override? s, o.value? = none ∧ (SymbolTable.builtin c.locale).glyph? s = none

instance (c : Settings) (s : Symbol) : Decidable (c.Incomplete s) :=
  inferInstanceAs (Decidable (∃ o ∈ c.override? s, _))

theorem applied_symbolTable (h : c.symbolTable = .ok t) :
    Applied (SymbolTable.builtin c.locale) c.overrides t :=
  applied_of_foldlM c.nodup_overrides h

theorem not_incomplete_of_applied {above : List (Symbol × Override)}
    (h : Applied (SymbolTable.builtin c.locale) above t) (ho : (s, o) ∈ above) :
    ¬ (o.value? = none ∧ (SymbolTable.builtin c.locale).glyph? s = none) := by
  intro hnone
  obtain ⟨g, -, hg⟩ := h.glyph s o ho
  rw [← Override.apply_eq_none_iff, Override.apply_eq_some_iff.2 hg] at hnone
  cases hnone

theorem symbolTable_error (h : c.symbolTable = .error e) : e.locale = c.locale ∧
    c.Incomplete e.symbol ∧ ∀ s, c.Incomplete s → e.symbol.ctorIdx ≤ s.ctorIdx := by
  obtain ⟨above, s, o, below, t', hes, happlied, hnone, rfl⟩ :=
    foldlM_applyOverride_error c.nodup_overrides h
  have hs : (s, o) ∈ c.overrides := by rw [hes]; simp
  refine ⟨locale_builtin c.locale, ⟨o, mem_overrides.1 hs, hnone⟩, fun x hx => ?_⟩
  obtain ⟨p, hp, hincomplete⟩ := hx
  have hmem : (x, p) ∈ above ++ (s, o) :: below := hes ▸ mem_overrides.2 hp
  have hpairwise := c.pairwise_overrides
  rw [hes] at hpairwise
  rcases List.mem_append.1 hmem with habove | hbelow
  · exact absurd hincomplete (not_incomplete_of_applied happlied habove)
  · rcases List.mem_cons.1 hbelow with heq | hbelow
    · exact Nat.le_of_eq (congrArg (fun e => Symbol.ctorIdx e.1) heq.symm)
    · exact Nat.le_of_lt (List.rel_of_pairwise_cons (List.pairwise_append.1 hpairwise).2.1 hbelow)

theorem exists_symbolTable_iff : (∃ t, c.symbolTable = .ok t) ↔ ∀ s, ¬ c.Incomplete s := by
  constructor
  · rintro ⟨t, ht⟩ s ⟨o, ho, hnone⟩
    exact not_incomplete_of_applied (applied_symbolTable ht) (mem_overrides.2 ho) hnone
  · intro h
    cases ht : c.symbolTable with
    | ok t => exact ⟨t, rfl⟩
    | error e => exact absurd (symbolTable_error ht).2.1 (h e.symbol)

theorem symbolTable_eq_error_iff : c.symbolTable = .error e ↔ e.locale = c.locale ∧
    c.Incomplete e.symbol ∧ ∀ s, c.Incomplete s → e.symbol.ctorIdx ≤ s.ctorIdx := by
  refine ⟨symbolTable_error, fun ⟨hlocale, hsymbol, hleast⟩ => ?_⟩
  cases ht : c.symbolTable with
  | ok t => exact absurd hsymbol (exists_symbolTable_iff.1 ⟨t, ht⟩ e.symbol)
  | error e' =>
    obtain ⟨hlocale', hsymbol', hleast'⟩ := symbolTable_error ht
    have hidx := Nat.le_antisymm (hleast' _ hsymbol) (hleast _ hsymbol')
    obtain ⟨l, x⟩ := e
    obtain ⟨l', x'⟩ := e'
    obtain rfl : l' = l := hlocale'.trans hlocale.symm
    obtain rfl : x' = x := Symbol.ctorIdx_injective hidx
    rfl

theorem exists_glyph_of_override (ht : c.symbolTable = .ok t) (ho : c.override? s = some o) :
    ∃ g, t.glyph? s = some g ∧ o.Merges ((SymbolTable.builtin c.locale).glyph? s) g :=
  (applied_symbolTable ht).glyph s o (mem_overrides.2 ho)

theorem glyph?_of_no_override (ht : c.symbolTable = .ok t) (ho : c.override? s = none) :
    t.glyph? s = (SymbolTable.builtin c.locale).glyph? s :=
  (applied_symbolTable ht).other s (not_mem_overrides ho)

/-- A symbol is written as its own override and its own entry in the table of the locale say. -/
theorem glyph?_congr {c' : Settings} (ht : c.symbolTable = .ok t) (ht' : c'.symbolTable = .ok t')
    (hlocale : c'.locale = c.locale) (ho : c'.override? s = c.override? s) :
    t'.glyph? s = t.glyph? s := by
  cases h : c.override? s with
  | none => rw [glyph?_of_no_override ht h, glyph?_of_no_override ht' (ho.trans h), hlocale]
  | some o =>
    obtain ⟨g, hg, hmerges⟩ := exists_glyph_of_override ht h
    obtain ⟨g', hg', hmerges'⟩ := exists_glyph_of_override ht' (ho.trans h)
    rw [hlocale, ← Override.apply_eq_some_iff, Override.apply_eq_some_iff.2 hmerges] at hmerges'
    rw [hg, hg', hmerges']

/-- The table of settings is that of their locale with the overrides merged in, and there is none
iff an override for a symbol that the locale leaves undefined has no value; the first such symbol is
the one that is named. No override counts for another symbol, and no other locale counts. -/
theorem symbolTable_merges (c : Settings) :
    let base := SymbolTable.builtin c.locale
    ((∃ t, c.symbolTable = .ok t) ↔
      ∀ s o, c.override? s = some o → base.defines s = true ∨ o.value? ≠ none) ∧
    (∀ e, c.symbolTable = .error e ↔ e.locale = c.locale ∧ c.Incomplete e.symbol ∧
      ∀ s, c.Incomplete s → e.symbol.ctorIdx ≤ s.ctorIdx) ∧
    ∀ t, c.symbolTable = .ok t →
      t.locale = c.locale ∧
      (∀ s, t.defines s = true ↔ base.defines s = true ∨ c.override? s ≠ none) ∧
      (∀ s, c.override? s = none → t.glyph? s = base.glyph? s) ∧
      (∀ s o, c.override? s = some o → ∃ g, t.glyph? s = some g ∧ o.Merges (base.glyph? s) g) ∧
      ∀ (c' : Settings) (t' : SymbolTable), c'.locale = c.locale → c'.symbolTable = .ok t' →
        ∀ s, c'.override? s = c.override? s → t'.glyph? s = t.glyph? s := by
  intro base
  refine ⟨?_, fun e => symbolTable_eq_error_iff, fun t ht => ⟨?_, fun s => ?_, ?_, ?_, ?_⟩⟩
  · rw [exists_symbolTable_iff]
    refine forall_congr' fun s => ?_
    have hdefines : base.defines s = true ↔ base.glyph? s ≠ none := by
      rw [SymbolTable.defines, Option.isSome_iff_ne_none]
    rw [Incomplete, not_exists]
    refine forall_congr' fun o => ?_
    rw [hdefines]
    tauto
  · exact (applied_symbolTable ht).locale.trans (locale_builtin c.locale)
  · cases ho : c.override? s with
    | none => simp [SymbolTable.defines, glyph?_of_no_override ht ho, base]
    | some o =>
      obtain ⟨g, hg, -⟩ := exists_glyph_of_override ht ho
      simp [SymbolTable.defines, hg]
  · exact fun s => glyph?_of_no_override ht
  · exact fun s o => exists_glyph_of_override ht
  · exact fun c' t' hlocale ht' s ho => glyph?_congr ht ht' hlocale ho

/-- An override of one part, one that defines a digit, and two that lack a value, of which the
greater symbol is overridden first. -/
theorem symbolTable_merges_digits :
    let c : Settings := (Settings.setOverride {} .comma { value? := some '，' }).setOverride
      .digitZero { value? := some '0' }
    let c' : Settings := (c.setOverride .digitNine { spaceAfter? := some true }).setOverride
      .digitOne { flagged? := some ['l'] }
    (∃ t, c.symbolTable = .ok t ∧
      t.glyph? .comma = some { value := '，', flagged := ['、', '，'], spaceAfter := true } ∧
      t.glyph? .digitZero = some { value := '0' } ∧ t.defines .digitOne = false ∧
      t.glyph? .colon = SymbolTable.english .colon) ∧
    c'.symbolTable = .error ⟨.english, .digitOne⟩ := by
  intro c c'
  obtain ⟨hok, -, hmerges⟩ := symbolTable_merges c
  obtain ⟨t, ht⟩ : ∃ t, c.symbolTable = .ok t := by
    have hall : ∀ s ∈ Symbol.all, ∀ o ∈ c.override? s,
        (SymbolTable.builtin .english).defines s = true ∨ o.value? ≠ none := by decide +kernel
    exact hok.2 fun s o ho => hall s s.mem_all o ho
  obtain ⟨-, hdefines, hkept, hmerged, -⟩ := hmerges t ht
  refine ⟨⟨t, ht, ?_, ?_, ?_, hkept .colon rfl⟩, ?_⟩
  · obtain ⟨g, hg, h⟩ := hmerged .comma _ rfl
    rw [hg, ← Override.apply_eq_some_iff.2 h]
    rfl
  · obtain ⟨g, hg, h⟩ := hmerged .digitZero _ rfl
    rw [hg, ← Override.apply_eq_some_iff.2 h]
    rfl
  · rw [Bool.eq_false_iff, Ne, hdefines]
    decide
  · have hleast : ∀ s ∈ Symbol.all, c'.Incomplete s → Symbol.digitOne.ctorIdx ≤ s.ctorIdx := by
      decide +kernel
    exact ((symbolTable_merges c').2.1 _).2
      ⟨rfl, by decide +kernel, fun s => hleast s s.mem_all⟩

/-! ### Glyphs that flag themselves -/

theorem flags_value_builtin {l : Locale} {g : Glyph}
    (h : (SymbolTable.builtin l).glyph? s = some g) : g.flags g.value = false := by
  have hall : ∀ l ∈ Locale.all, ∀ s ∈ Symbol.all, ∀ g ∈ (SymbolTable.builtin l).glyph? s,
      g.flags g.value = false := by decide +kernel
  exact hall l (by cases l <;> decide) s s.mem_all g h

/-- The character that the symbol of an override comes to be written with. -/
def accepted? (c : Settings) (s : Symbol) (o : Override) : Option Char :=
  o.value?.or (((SymbolTable.builtin c.locale).glyph? s).map (·.value))

/-- No override lists the character that its symbol comes to be written with among those that it
flags. -/
def FlagsOthers (c : Settings) : Prop :=
  ∀ s, ∀ o ∈ c.override? s, ∀ cs ∈ o.flagged?, ∀ v ∈ c.accepted? s o, v ∉ cs

theorem flagsOthers_default : FlagsOthers {} :=
  fun _ _ => nofun

theorem FlagsOthers.setOverride (hc : c.FlagsOthers)
    (h : ∀ cs ∈ o.flagged?, ∀ v ∈ c.accepted? s o, v ∉ cs) : (c.setOverride s o).FlagsOthers := by
  intro x p hp
  by_cases hx : x = s
  · subst hx
    rw [override?_setOverride_self] at hp
    obtain rfl := Option.some.inj hp
    exact h
  · rw [override?_setOverride_of_ne c o hx] at hp
    exact hc x p hp

/-- With overrides that flag no character that they accept, a glyph flags its own value iff its
override sets the value to a character that the locale flags and leaves the flagged ones as they
are. -/
theorem symbolTable_flags_value_iff (hc : c.FlagsOthers) (ht : c.symbolTable = .ok t) (s : Symbol)
    (g : Glyph) (hg : t.glyph? s = some g) :
    g.flags g.value = true ↔ ∃ o v b, c.override? s = some o ∧ o.value? = some v ∧
      o.flagged? = none ∧ (SymbolTable.builtin c.locale).glyph? s = some b ∧ b.flags v = true := by
  cases ho : c.override? s with
  | none =>
    rw [glyph?_of_no_override ht ho] at hg
    simp [flags_value_builtin hg]
  | some o =>
    obtain ⟨g', hg', hmerges⟩ := exists_glyph_of_override ht ho
    obtain rfl : g' = g := Option.some.inj (hg'.symm.trans hg)
    cases hmerges.flagged with
    | set hset =>
      have hvalue := Override.takes_iff.1 hmerges.value
      rw [Option.or_none] at hvalue
      have hnot : g'.value ∉ g'.flagged := hc s o ho _ hset _ hvalue
      simp [Glyph.flags, hnot, hset]
    | locale hset hlocale =>
      obtain ⟨b, hb, hflagged⟩ := Option.map_eq_some_iff.1 hlocale
      have hflags : ∀ v, g'.flags v = b.flags v := fun v => by
        rw [Glyph.flags, Glyph.flags, hflagged]
      cases hmerges.value with
      | set hvalue => simp [hflags, hset, hvalue, hb]
      | locale hvalue hlocale =>
        rw [hb, Option.map_some, Option.some.injEq] at hlocale
        simp [hflags, ← hlocale, flags_value_builtin hb, hvalue]
      | default _ _ h => cases h
    | default hset hlocale h =>
      have hnone : (SymbolTable.builtin c.locale).glyph? s = none :=
        Option.map_eq_none_iff.1 hlocale
      have hempty : g'.flagged = [] := (Option.some.inj h).symm
      simp [Glyph.flags, hempty, hnone]

/-- The same value with and without other flagged characters. -/
theorem symbolTable_flags_value_iff_of_full_width :
    let c : Settings := (Settings.setOverride {} .colon { value? := some '：' }).setOverride
      .semicolon { value? := some '；', flagged? := some [';'] }
    c.FlagsOthers ∧ ∃ t colon semicolon, c.symbolTable = .ok t ∧
      t.glyph? .colon = some colon ∧ colon.flags colon.value = true ∧
      t.glyph? .semicolon = some semicolon ∧ semicolon.flags semicolon.value = false := by
  intro c
  have hc : c.FlagsOthers := by
    refine (flagsOthers_default.setOverride (by rintro _ ⟨⟩)).setOverride ?_
    rintro _ ⟨⟩ _ ⟨⟩
    decide
  obtain ⟨t, ht⟩ : ∃ t, c.symbolTable = .ok t := by
    have hall : ∀ s ∈ Symbol.all, ¬ c.Incomplete s := by decide +kernel
    exact exists_symbolTable_iff.2 fun s => hall s s.mem_all
  obtain ⟨colon, hcolon, -⟩ := exists_glyph_of_override (s := .colon) ht rfl
  obtain ⟨semicolon, hsemicolon, -⟩ := exists_glyph_of_override (s := .semicolon) ht rfl
  refine ⟨hc, t, colon, semicolon, ht, hcolon, ?_, hsemicolon, ?_⟩
  · exact (symbolTable_flags_value_iff hc ht .colon colon hcolon).2
      ⟨_, '：', _, rfl, rfl, rfl, rfl, by decide⟩
  · rw [Bool.eq_false_iff, Ne, symbolTable_flags_value_iff hc ht .semicolon semicolon hsemicolon]
    rintro ⟨o, v, b, ho, -, hflagged, -⟩
    obtain rfl := Option.some.inj ho
    cases hflagged

/-- An override that sets nothing but the value, to a character that the locale flags. -/
theorem symbolTable_flags_own_comma :
    let c : Settings := Settings.setOverride {} .comma { value? := some '、' }
    c.FlagsOthers ∧ ∃ t g, c.symbolTable = .ok t ∧ t.glyph? .comma = some g ∧
      g.flags g.value = true := by
  intro c
  have hglyph : c.symbolTable.toOption.bind (·.glyph? .comma) =
      some { value := '、', flagged := ['、', '，'], spaceAfter := true } := by decide +kernel
  obtain ⟨t, ht, hg⟩ := Option.bind_eq_some_iff.1 hglyph
  cases htable : c.symbolTable with
  | error e => rw [htable] at ht; cases ht
  | ok t' =>
    rw [htable] at ht
    obtain rfl : t' = t := Option.some.inj ht
    exact ⟨flagsOthers_default.setOverride (by rintro _ ⟨⟩), t', _, rfl, hg, rfl⟩

end Settings

end ProseLint
