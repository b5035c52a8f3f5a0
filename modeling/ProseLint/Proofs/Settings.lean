import Mathlib.Data.List.Nodup
import ProseLint.Proofs.Diagnostic
import ProseLint.Proofs.Toml.Table
import ProseLint.Settings.Stored

/-!
# Stored settings are read back

What is written of settings are three entries and a table for each override (`says_write`), and
these are all that settings are read from.
-/

namespace ProseLint

open Toml

/-! ### Names -/

namespace Symbol

theorem nodup_all : all.Nodup := by
  decide +kernel

theorem filter_all (s : Symbol) : all.filter (· = s) = [s] := by
  rw [List.filter_eq, List.count_eq_one_of_mem nodup_all s.mem_all, List.replicate_one]

theorem isBare_name (s : Symbol) : IsBare s.name := by
  have h : ∀ s ∈ all, IsBare s.name := by decide +kernel
  exact h s s.mem_all

theorem toOption_read_name (s : Symbol) : (read s.name).toOption = some s := by
  have h : ∀ s ∈ all, (read s.name).toOption = some s := by decide +kernel
  exact h s s.mem_all

theorem name_injective {s x : Symbol} (h : s.name = x.name) : s = x := by
  have hs := s.toOption_read_name
  rw [h, x.toOption_read_name] at hs
  exact (Option.some.inj hs).symm

end Symbol

theorem Locale.ofToml?_code (l : Locale) : Locale.ofToml? (.string l.code.toList) = some l := by
  cases l <;> decide

/-! ### Overrides -/

namespace Override

/-- The entries for what an override sets. -/
def entries (o : Override) : List (String × Toml) :=
  (o.value?.map fun c => ("value", .string [c])).toList ++
    (o.flagged?.map fun cs => ("invalid_chars", .string cs)).toList ++
    (o.spaceBefore?.map fun b => ("before_space", .scalar (.bool b))).toList ++
    (o.spaceAfter?.map fun b => ("after_space", .scalar (.bool b))).toList

theorem nodup_entries (o : Override) : (o.entries.map Prod.fst).Nodup := by
  obtain ⟨value, flagged, before, after⟩ := o
  cases value <;> cases flagged <;> cases before <;> cases after <;> simp [entries]

theorem ofToml?_entries (o : Override) : ofToml? (.table o.entries) = some o := by
  obtain ⟨value, flagged, before, after⟩ := o
  cases value <;> cases flagged <;> cases before <;> cases after <;> rfl

end Override

namespace KeyedOverride

/-- An override under the name of its symbol. -/
def named (e : Symbol × Override) : KeyedOverride :=
  ⟨e.1.name, e.1, e.2⟩

theorem readAll?_named (es : List (Symbol × Override)) :
    readAll? (es.map fun e => (e.1.name, .table e.2.entries)) = some (es.map named) := by
  have hread : ∀ k ∈ es.map named, ofEntry? (k.key, .table k.override.entries) = some k := by
    intro k hk
    obtain ⟨e, -, rfl⟩ := List.mem_map.1 hk
    unfold ofEntry? named
    rw [e.1.toOption_read_name, Override.ofToml?_entries]
    rfl
  have hentries := mapM_map_eq_some hread
  rwa [List.map_map] at hentries

end KeyedOverride

namespace Settings

theorem filter_overrides (c : Settings) (s : Symbol) :
    c.overrides.filter (·.1 = s) = ((c.override? s).map (s, ·)).toList := by
  have hpoint : ∀ x, Option.filter (fun e : Symbol × Override => decide (e.1 = s))
      ((c.override? x).map (x, ·)) =
        if decide (x = s) then (c.override? x).map (x, ·) else none := by
    intro x
    cases c.override? x with
    | none => simp
    | some o => by_cases hx : x = s <;> simp [hx]
  rw [overrides, List.filter_filterMap, funext hpoint, ← List.filterMap_filter, s.filter_all]
  cases h : c.override? s <;> simp [h]

theorem select?_overrides (c : Settings) (s : Symbol) :
    KeyedOverride.select? (c.overrides.map KeyedOverride.named) s = c.override? s := by
  have hfilter : (c.overrides.map KeyedOverride.named).filter (·.symbol = s) =
      (c.overrides.filter (·.1 = s)).map KeyedOverride.named := List.filter_map
  rw [KeyedOverride.select?, hfilter, filter_overrides]
  cases c.override? s with
  | none => simp
  | some o => simp [KeyedOverride.named]

theorem nodup_names (c : Settings) : (c.overrides.map (·.1.name)).Nodup := by
  rw [overrides, List.map_filterMap]
  refine Symbol.nodup_all.filterMap fun s x name hs hx => Symbol.name_injective ?_
  simp only [Option.map_map, Option.mem_def, Option.map_eq_some_iff] at hs hx
  obtain ⟨o, -, rfl⟩ := hs
  obtain ⟨o', -, hname⟩ := hx
  exact hname.symm

/-! ### Entries -/

/-- The entries for all but the overrides. -/
def entries (c : Settings) : List (String × Toml) :=
  [("_version", .string version.toList), ("locale", .string c.locale.code.toList),
    ("script_validator", .string c.scriptValidator.toList)]

/-- The tables of the overrides under their names. -/
def tables (c : Settings) : List (String × List (String × Toml)) :=
  c.overrides.map fun e => (e.1.name, e.2.entries)

theorem ofEntries?_entries (c : Settings) :
    ofEntries? (c.entries ++ tableEntry "symbols" c.tables) = some c := by
  have hversion : (c.entries ++ tableEntry "symbols" c.tables).lookup "_version" =
      some (.string version.toList) := rfl
  have hlocale : (c.entries ++ tableEntry "symbols" c.tables).lookup "locale" =
      some (.string c.locale.code.toList) := rfl
  have hvalidator : (c.entries ++ tableEntry "symbols" c.tables).lookup "script_validator" =
      some (.string c.scriptValidator.toList) := rfl
  have hsymbols : ∃ es, optional? entries?
      ((c.entries ++ tableEntry "symbols" c.tables).lookup "symbols") = some es ∧
        es.getD [] = c.overrides.map fun e => (e.1.name, .table e.2.entries) := by
    have htail : (c.entries ++ tableEntry "symbols" c.tables).lookup "symbols" =
        (tableEntry "symbols" c.tables).lookup "symbols" := rfl
    rw [htail, tableEntry, tables]
    cases c.overrides with
    | nil => exact ⟨none, rfl, rfl⟩
    | cons e es => exact ⟨some _, rfl, by simp⟩
  obtain ⟨es, hes, hoverrides⟩ := hsymbols
  rw [ofEntries?, guard_of (by rw [hversion]; rfl), hlocale, hvalidator, hes]
  simp only [Option.bind_eq_bind, Option.bind_some, optional?, Locale.ofToml?_code, string?,
    hoverrides, KeyedOverride.readAll?_named, Option.map_some, Option.getD_some,
    String.ofList_toList, funext (select?_overrides c)]
  rfl

end Settings

/-! ### Writing -/

namespace Toml.Says
variable {r : List Char} {xs : List Statement}

open Settings

theorem cons_stringLine {key : String} (h : Says r xs) (hkey : IsBare key) (s : List Char) :
    Says (stringLine key s ++ r) (entryStatements [(key, .string s)] ++ xs) := by
  have hline := h.cons_entry hkey (writes_string s)
  rw [stringLine, entryLine, List.append_assoc _ _ r]
  exact hline

theorem cons_boolLine {key : String} (h : Says r xs) (hkey : IsBare key) (b : Bool) :
    Says (boolLine key b ++ r) (entryStatements [(key, .scalar (.bool b))] ++ xs) := by
  have hline := h.cons_entry hkey (writes_bool b)
  rw [boolLine, entryLine, List.append_assoc _ _ r]
  exact hline

theorem cons_optionalLine {α : Type} {line : α → List Char} {entry : α → String × Toml}
    (h : Says r xs) (hline : ∀ a, Says (line a ++ r) (entryStatements [entry a] ++ xs))
    (o : Option α) :
    Says (optionalLine line o ++ r) (entryStatements (o.map entry).toList ++ xs) := by
  cases o with
  | none => exact h
  | some a => exact hline a

theorem cons_override (h : Says r xs) (s : Symbol) (o : Override) :
    Says (overrideLines s o ++ r)
      (.header ["symbols", s.name] :: (entryStatements o.entries ++ xs)) := by
  have hafter := h.cons_optionalLine
    (h.cons_boolLine (by decide +kernel : IsBare "after_space")) o.spaceAfter?
  have hbefore := hafter.cons_optionalLine
    (hafter.cons_boolLine (by decide +kernel : IsBare "before_space")) o.spaceBefore?
  have hflagged := hbefore.cons_optionalLine
    (hbefore.cons_stringLine (by decide +kernel : IsBare "invalid_chars")) o.flagged?
  have hvalue := hflagged.cons_optionalLine
    (fun c => hflagged.cons_stringLine (by decide +kernel : IsBare "value") [c]) o.value?
  have hheader := (hvalue.cons_header (by decide +kernel : IsBare "symbols")
    s.isBare_name).cons_newline
  have hopen : "\n[symbols.".toList = '\n' :: '[' :: ("symbols".toList ++ ['.']) := rfl
  have hclose : "]\n".toList = [']', '\n'] := rfl
  unfold overrideLines Override.entries
  rw [hopen, hclose]
  simpa only [entryStatements, List.map_append, List.append_assoc, List.cons_append,
    List.nil_append] using hheader

theorem cons_overrides (es : List (Symbol × Override)) :
    Says (es.flatMap fun (s, o) => overrideLines s o)
      (tableStatements "symbols" (es.map fun e => (e.1.name, e.2.entries))) := by
  induction es with
  | nil => exact says_nil
  | cons e es ih => exact ih.cons_override e.1 e.2

end Toml.Says

namespace Settings

theorem says_write (c : Settings) :
    Says c.write.toList (entryStatements c.entries ++ tableStatements "symbols" c.tables) := by
  have hoverrides := Says.cons_overrides c.overrides
  have hvalidator := hoverrides.cons_stringLine
    (by decide +kernel : IsBare "script_validator") c.scriptValidator.toList
  have hlocale := hvalidator.cons_stringLine (by decide +kernel : IsBare "locale")
    c.locale.code.toList
  have hversion := hlocale.cons_stringLine (by decide +kernel : IsBare "_version")
    version.toList
  rw [write, String.toList_ofList]
  simp only [List.append_assoc]
  exact hversion

theorem read?_write (c : Settings) : read? c.write = some c := by
  have hmark : dropByteOrderMark c.write.toList = c.write.toList := by
    rw [write, String.toList_ofList]
    rfl
  have hdistinct : ["_version", "locale", "script_validator", "symbols"].Nodup := by decide +kernel
  have htext : Toml.read? c.write = some (c.entries ++ tableEntry "symbols" c.tables) := by
    refine read?_eq_some c.says_write hmark hdistinct ?_ ?_
    · rw [tables, List.map_map]
      exact c.nodup_names
    · intro t ht
      obtain ⟨e, -, rfl⟩ := List.mem_map.1 ht
      exact e.2.nodup_entries
  rw [read?, htext]
  exact c.ofEntries?_entries

end Settings

theorem decodeText_toUTF8 (s : String) : decodeText s.toUTF8 = .ok s := by
  have h : String.fromUTF8? s.toUTF8 = some s := dif_pos s.isValidUTF8
  rw [decodeText, h]

theorem Settings.load_ok {text : String} {c : Settings} (h : read? text = some c) :
    load (.ok text) = .ok c := by
  simp only [load, Except.mapError, bind, Except.bind, h]
  rfl

/-- Saving settings loses nothing: from the file that is written the same settings are loaded, and
they give the same table of symbols or the same reason why there is none. -/
theorem Settings.load_write (c : Settings) :
    load (decodeText c.write.toUTF8) = .ok c ∧
      (load (decodeText c.write.toUTF8)).map symbolTable = .ok c.symbolTable := by
  have hload : load (decodeText c.write.toUTF8) = .ok c := by
    rw [decodeText_toUTF8]
    exact load_ok c.read?_write
  refine ⟨hload, ?_⟩
  rw [hload]
  rfl

end ProseLint
