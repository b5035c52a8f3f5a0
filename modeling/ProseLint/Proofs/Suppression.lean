import ProseLint.Suppression

/-!
# Suppressing a batch of diagnostics

Partitioning diagnostics is filtering them by whether some directive triggers on each, with or
without directives (`partition_eq`). What a suppressor hides is the union of what its directives
hide (`suppresses_append`), so filtering by two lists of directives is filtering by the one and
then by the other, and neither the order of the directives nor repeating them matters.
-/

namespace ProseLint

namespace Suppressor
variable {s : Suppressor} {ds es : List Directive} {g : Diagnostic}

/-- The suppressor with other directives for the same document and sentinel. -/
def withDirectives (s : Suppressor) (ds : List Directive) : Suppressor :=
  { s with directives := ds }

theorem suppresses_of_isEmpty (h : s.directives.isEmpty = true) : s.suppresses g = false := by
  rw [suppresses, List.isEmpty_iff.1 h]
  rfl

/-- The short cut for a suppressor without directives gives what the long way gives. -/
theorem partition_eq (s : Suppressor) (gs : List Diagnostic) :
    s.partition gs = ⟨gs.filter (!s.suppresses ·), gs.filter s.suppresses⟩ := by
  rw [partition]
  split
  next h =>
    have hkept : gs.filter (!s.suppresses ·) = gs :=
      List.filter_eq_self.2 fun g _ => by rw [suppresses_of_isEmpty h, Bool.not_false]
    have hnone : gs.filter s.suppresses = [] :=
      List.filter_eq_nil_iff.2 fun g _ => by rw [suppresses_of_isEmpty h]; exact Bool.false_ne_true
    rw [hkept, hnone]
  next => rw [List.partition_eq_filter_filter]; rfl

theorem filter_eq (s : Suppressor) (gs : List Diagnostic) :
    s.filter gs = gs.filter (!s.suppresses ·) := by
  rw [filter, partition_eq]

theorem suppresses_append :
    (s.withDirectives (ds ++ es)).suppresses g =
      ((s.withDirectives ds).suppresses g || (s.withDirectives es).suppresses g) :=
  List.any_append

theorem suppresses_congr (h : ∀ d, d ∈ ds ↔ d ∈ es) :
    (s.withDirectives ds).suppresses g = (s.withDirectives es).suppresses g := by
  rw [Bool.eq_iff_iff, suppresses, suppresses, List.any_eq_true, List.any_eq_true]
  exact exists_congr fun d => and_congr_left fun _ => h d

theorem filter_append (s : Suppressor) (ds es : List Directive) (gs : List Diagnostic) :
    (s.withDirectives (ds ++ es)).filter gs =
      (s.withDirectives es).filter ((s.withDirectives ds).filter gs) := by
  rw [filter_eq, filter_eq, filter_eq, List.filter_filter]
  refine List.filter_congr fun g _ => ?_
  rw [suppresses_append, Bool.not_or, Bool.and_comm]

theorem filter_congr (h : ∀ d, d ∈ ds ↔ d ∈ es) (gs : List Diagnostic) :
    (s.withDirectives ds).filter gs = (s.withDirectives es).filter gs := by
  rw [filter_eq, filter_eq]
  exact List.filter_congr fun g _ => by rw [suppresses_congr h]

/-- Filtering twice is filtering once by the directives repeated. -/
theorem filter_filter (s : Suppressor) (gs : List Diagnostic) :
    s.filter (s.filter gs) = s.filter gs := by
  have htwice : (s.withDirectives (s.directives ++ s.directives)).filter gs =
      s.filter (s.filter gs) := filter_append s s.directives s.directives gs
  have honce : (s.withDirectives (s.directives ++ s.directives)).filter gs = s.filter gs :=
    filter_congr (fun d => by rw [List.mem_append, or_self]) gs
  exact htwice.symm.trans honce

end Suppressor

/-- A suppressor divides diagnostics by whether some directive triggers on them, which with the
usual sentinel is what a directive does on its own. Filtering composes over lists of directives,
of which only the members count. -/
theorem suppressor_partition (doc : Document) (ds es : List Directive) (sentinel : String)
    (gs : List Diagnostic) :
    let s : Suppressor := { Suppressor.of doc ds with sentinel }
    let hidden (g : Diagnostic) : Bool :=
      ds.any fun d => d.triggersAt doc g.line (g.effectiveValidator sentinel)
    s.partition gs = ⟨gs.filter (!hidden ·), gs.filter hidden⟩ ∧
    s.filter gs = gs.filter (!hidden ·) ∧
    (∀ g, (Suppressor.of doc ds).suppresses g = ds.any (·.triggers doc g)) ∧
    filterDiagnostics doc ds gs = gs.filter (fun g => !ds.any (·.triggers doc g)) ∧
    (s.withDirectives (ds ++ es)).filter gs = (s.withDirectives es).filter (s.filter gs) ∧
    s.filter (s.filter gs) = s.filter gs ∧
    ((∀ d, d ∈ es ↔ d ∈ ds) → (s.withDirectives es).filter gs = s.filter gs) := by
  intro s hidden
  have hpartition : s.partition gs = ⟨gs.filter (!hidden ·), gs.filter hidden⟩ :=
    Suppressor.partition_eq s gs
  have hfilter : s.filter gs = gs.filter (!hidden ·) := Suppressor.filter_eq s gs
  have husual : ∀ g, (Suppressor.of doc ds).suppresses g = ds.any (·.triggers doc g) :=
    fun g => rfl
  have hdiagnostics : filterDiagnostics doc ds gs = gs.filter fun g => !ds.any (·.triggers doc g) :=
    Suppressor.filter_eq _ gs
  refine ⟨hpartition, hfilter, husual, hdiagnostics, ?_, ?_, fun h => ?_⟩
  · exact Suppressor.filter_append s ds es gs
  · exact Suppressor.filter_filter s gs
  · exact Suppressor.filter_congr h gs

theorem suppressor_reversed_and_repeated :
    let doc : Document :=
      ⟨[⟨{ level := 1, header := [⟨"T", 1⟩], paragraphs := [[⟨"A.", 2⟩, ⟨"B.", 5⟩]] },
        [⟨{ level := 2, header := [⟨"S", 6⟩] }, []⟩]⟩]⟩
    let d : Directive := ⟨.suppress, 2, none, ["spelling"]⟩
    let e : Directive := ⟨.suppress, 4, none, []⟩
    let gs : List Diagnostic := [⟨"Style", 2, "", none, none⟩, ⟨"Spelling", 3, "", none, none⟩,
      ⟨"Style", 5, "", none, none⟩, ⟨"Spelling", 6, "", none, none⟩]
    ((Suppressor.of doc [d, e]).withDirectives [e, d, e]).filter gs =
        (Suppressor.of doc [d, e]).filter gs ∧
      (Suppressor.of doc [d, e]).filter gs =
        [⟨"Style", 2, "", none, none⟩, ⟨"Spelling", 6, "", none, none⟩] := by
  intro doc d e gs
  obtain ⟨-, -, -, -, -, -, hcongr⟩ :=
    suppressor_partition doc [d, e] [e, d, e] Diagnostic.scriptValidator gs
  refine ⟨hcongr fun x => ?_, by decide +kernel⟩
  simp only [List.mem_cons, List.not_mem_nil, or_false]
  exact ⟨fun h => by rcases h with h | h | h <;> simp [h], fun h => h.symm.imp_right .inl⟩

end ProseLint
