import ProseLint.Command
import ProseLint.Proofs.Diagnostic
import ProseLint.Proofs.Ingest
import ProseLint.Proofs.Json.Indented
import ProseLint.Proofs.Settings
import ProseLint.Proofs.Suppression

/-!
# What the filter prints can be filtered again

The JSON that the filter prints gives back the retained diagnostics, and a second run over them
retains them all. Their members stand in another order there than where diagnostics are stored,
which does not matter to reading.
-/

namespace ProseLint

open Json

namespace Diagnostic
variable {d : Diagnostic} {ds : List Diagnostic}

theorem ofJson?_toSortedJson (h : d.Fits) : ofJson? d.toSortedJson = some d := by
  obtain ⟨validator, line, message, sub, sentence⟩ := d
  cases sub <;> cases sentence <;> exact ofJson?_object h rfl rfl rfl rfl rfl rfl

theorem text_none_not_mem_toSortedJson (d : Diagnostic) : .text none ∉ d.toSortedJson.tokens := by
  obtain ⟨validator, line, message, sub, sentence⟩ := d
  cases sub <;> cases sentence <;> simp [toSortedJson, Sentence.toJson, tokens, moreMembers]

theorem readAll?_pretty (h : ∀ d ∈ ds, d.Fits) :
    readAll? ((Command.Report.diagnosticsJson ds).pretty ++ "\n") = some ds := by
  have hwhole : .text none ∉ (Command.Report.diagnosticsJson ds).tokens :=
    text_none_not_mem_array (List.forall_mem_map.2 fun d _ => text_none_not_mem_toSortedJson d)
  have hread : (ds.map toSortedJson).mapM ofJson? = some ds :=
    mapM_map_eq_some fun d hd => ofJson?_toSortedJson (h d hd)
  rw [readAll?, read?_pretty hwhole]
  exact hread

end Diagnostic

namespace Command
variable {files files' : Files} {settings document diagnostics : String} {c : Settings}
  {t : SymbolTable} {i : Ingested} {gs : List Diagnostic}

/-! ### The steps of a request -/

theorem loadSettings_eq_ok {text : String} (hfile : files settings = .ok text)
    (h : Settings.read? text = some c) : loadSettings files settings = .ok c := by
  rw [loadSettings, hfile]
  show (Settings.load (.ok text)).mapError _ = _
  rw [Settings.load_ok h]
  rfl

theorem ingestFile_eq_ok {source : String} (t : SymbolTable) (hfile : files document = .ok source) :
    ingestFile t files document = .ok (.ofSource t source) := by
  rw [ingestFile, hfile]
  show (ingest t source).mapError _ = _
  rw [ingest_eq]
  rfl

theorem loadSettings_congr (h : files' settings = files settings) :
    loadSettings files' settings = loadSettings files settings := by
  rw [loadSettings, loadSettings, h]

theorem ingestFile_congr (t : SymbolTable) (h : files' document = files document) :
    ingestFile t files' document = ingestFile t files document := by
  rw [ingestFile, ingestFile, h]

theorem readDiagnostics_eq_ok_iff :
    readDiagnostics files diagnostics = .ok gs ↔
      ∃ text, files diagnostics = .ok text ∧ Diagnostic.readAll? text = some gs := by
  cases hfile : files diagnostics with
  | error e => simp [readDiagnostics, hfile, Except.mapError, bind, Except.bind]
  | ok text =>
    cases hread : Diagnostic.readAll? text with
    | none => simp [readDiagnostics, hfile, hread, Except.mapError, bind, Except.bind]
    | some gs' =>
      simp [readDiagnostics, hfile, hread, Except.mapError, bind, Except.bind, pure, Except.pure]

/-- When everything that a filter needs can be read, its response is that of its report. -/
theorem respond_filter (hsettings : loadSettings files settings = .ok c)
    (htable : c.symbolTable = .ok t) (hdocument : ingestFile t files document = .ok i)
    (hdiagnostics : readDiagnostics files diagnostics = .ok gs) (color : Bool) (format : Format)
    (showSuppressed : Bool) :
    (Arguments.request ⟨settings, .filter document diagnostics format showSuppressed⟩).respond
        color files =
      Response.of
        (.ok (Report.filter color format showSuppressed document (partition c i gs))) := by
  have hsymbols : symbolTable c = .ok t := by rw [symbolTable, htable]; rfl
  have hingested : ingestDocument files t document = .ok i := by
    rw [ingestDocument, hdocument]; rfl
  rw [Arguments.respond, Request.run, hsettings]
  simp only [Action.run, hsymbols, hingested, hdiagnostics, bind, Except.bind, pure, Except.pure]

/-! ### The retained diagnostics -/

theorem partition_retained (c : Settings) (i : Ingested) (gs : List Diagnostic) :
    (partition c i gs).retained = gs.filter fun g => !i.directives.any fun d =>
      d.triggersAt i.document g.line (g.effectiveValidator c.scriptValidator) := by
  rw [partition, Suppressor.partition_eq]
  rfl

theorem of_filter_json (color : Bool) (document : String) (p : Partition) :
    Response.of (.ok (Report.filter color .json false document p)) =
      { status := if p.retained = [] then 0 else 1
        output := (Report.diagnosticsJson p.retained).pretty ++ "\n" } := by
  have hline : Report.filterJson false p = (Report.diagnosticsJson p.retained).pretty ++ "\n" :=
    String.empty_append
  obtain ⟨retained, suppressed⟩ := p
  cases retained <;> simp [Response.of, Report.filter, hline]

/-- A filter to JSON prints the diagnostics on which no directive of the document triggers, in
their order, so that they can be read back, and its status says whether there are any. A run over
its own output responds in the same way. -/
theorem respond_filter_json {args : List String}
    (hargs : Arguments.read args =
      .request ⟨settings, .filter document diagnostics .json false⟩)
    (hsettings : loadSettings files settings = .ok c) (htable : c.symbolTable = .ok t)
    (hdocument : ingestFile t files document = .ok i)
    (hdiagnostics : readDiagnostics files diagnostics = .ok gs) (color : Bool) :
    let r := (Arguments.read args).respond color files
    let retained := gs.filter fun g => !i.directives.any fun d =>
      d.triggersAt i.document g.line (g.effectiveValidator c.scriptValidator)
    r.failure? = none ∧ Diagnostic.readAll? r.output = some retained ∧
      r.status = (if retained = [] then 0 else 1) ∧
      ∀ args' color' files' diagnostics',
        Arguments.read args' =
          .request ⟨settings, .filter document diagnostics' .json false⟩ →
        files' settings = files settings → files' document = files document →
        files' diagnostics' = .ok r.output →
        (Arguments.read args').respond color' files' = r := by
  intro r retained
  have hr : r =
      { status := if retained = [] then 0 else 1
        output := (Report.diagnosticsJson retained).pretty ++ "\n" } := by
    show (Arguments.read args).respond color files = _
    rw [hargs, respond_filter hsettings htable hdocument hdiagnostics, of_filter_json,
      partition_retained]
  have houtput : Diagnostic.readAll? r.output = some retained := by
    obtain ⟨text, -, hread⟩ := readDiagnostics_eq_ok_iff.1 hdiagnostics
    rw [hr]
    exact Diagnostic.readAll?_pretty fun g hg =>
      Diagnostic.fits_of_readAll? hread g (List.mem_filter.1 hg).1
  refine ⟨by rw [hr], houtput, by rw [hr], ?_⟩
  intro args' color' files' diagnostics' hargs' hsettings' hdocument' hdiagnostics'
  -- The second run reads what the first one retained, and retains all of it.
  have hagain : (partition c i retained).retained = retained := by
    rw [partition_retained, List.filter_filter]
    simp only [Bool.and_self]
    rfl
  rw [hargs', respond_filter ((loadSettings_congr hsettings').trans hsettings) htable
    ((ingestFile_congr t hdocument').trans hdocument)
    (readDiagnostics_eq_ok_iff.2 ⟨_, hdiagnostics', houtput⟩), of_filter_json, hagain, hr]

theorem respond_filter_json_scripts :
    let c : Settings := { scriptValidator := "Lua" }
    let gs : List Diagnostic := [⟨"Lua", 4, "[Style.lua] long", none, none⟩,
      ⟨"Lua", 4, "[Spelling.lua] teh", none, some ⟨"Teh.", 4⟩⟩,
      ⟨"Style", 3, "a\x22b", some "x", none⟩]
    let retained : List Diagnostic := [⟨"Lua", 4, "[Style.lua] long", none, none⟩,
      ⟨"Style", 3, "a\x22b", some "x", none⟩]
    let files : Files := fun path => match path with
      | "p.toml" => .ok c.write
      | "a.md" => .ok "# T\n\n<!-- @suppress spelling -->\nTeh.\n"
      | "d.json" => .ok (Diagnostic.writeAll gs)
      | _ => .error .missing
    let args := ["filter", "a.md", "-c", "p.toml", "-d", "d.json", "--output", "json"]
    let args' := ["-c", "p.toml", "filter", "-d", "r.json", "--output=json", "a.md"]
    ∃ r, (Arguments.read args).respond false files = r ∧
      Diagnostic.readAll? r.output = some retained ∧ r.status = 1 ∧
      (Arguments.read args').respond true
        (fun path => if path = "r.json" then .ok r.output else files path) = r := by
  intro c gs retained files args args'
  let i := Ingested.ofSource (.builtin .english) "# T\n\n<!-- @suppress spelling -->\nTeh.\n"
  have hargs : Arguments.read args = .request ⟨"p.toml", .filter "a.md" "d.json" .json false⟩ := by
    decide +kernel
  have hargs' :
      Arguments.read args' = .request ⟨"p.toml", .filter "a.md" "r.json" .json false⟩ := by
    decide +kernel
  have hsettings : loadSettings files "p.toml" = .ok c := loadSettings_eq_ok rfl c.read?_write
  have htable : c.symbolTable = .ok (.builtin .english) := rfl
  have hdocument : ingestFile (.builtin .english) files "a.md" = .ok i := ingestFile_eq_ok _ rfl
  have hfits : ∀ g ∈ gs, g.Fits := by decide
  have hdiagnostics : readDiagnostics files "d.json" = .ok gs :=
    readDiagnostics_eq_ok_iff.2 ⟨_, rfl, Diagnostic.readAll?_writeAll_of_fits hfits⟩
  have hretained : (gs.filter fun g => !i.directives.any fun d =>
      d.triggersAt i.document g.line (g.effectiveValidator c.scriptValidator)) = retained := by
    decide +kernel
  obtain ⟨-, hread, hstatus, hagain⟩ :=
    respond_filter_json hargs hsettings htable hdocument hdiagnostics false
  rw [hretained] at hread hstatus
  exact ⟨_, rfl, hread, hstatus, hagain args' true _ "r.json" hargs' rfl rfl (if_pos rfl)⟩

end Command

end ProseLint
