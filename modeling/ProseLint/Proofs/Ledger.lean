import ProseLint.Proofs.Ingest
import ProseLint.Proofs.Marker

/-!
# The ledger in closed form

A ledger and the lines still to be read decide what the ledger is finished with (`close`), and
reading a line does not change it (`close_readLine`). Its queues lie `Behind` the lines to come:
markers and anchors are above them. At the start nothing is in the queues, which leaves the
outcomes of the markers of the source (`ofLines_eq`).
-/

namespace ProseLint
open Source (firstBelow?)
open Source.Line (isContent isHeading)

namespace Ledger
variable {l : Ledger} {x : Source.Line × Nat} {ls : List (Source.Line × Nat)}

/-- The directives among the outcomes. -/
def kept (rs : List (Except Warning Directive)) : List Directive :=
  rs.filterMap Except.toOption

/-- The warnings among the outcomes. -/
def lost (rs : List (Except Warning Directive)) : List Warning :=
  rs.filterMap fun
    | .error w => some w
    | .ok _ => none

/-- The warnings in the order in which they are given. -/
def report (rs : List (Except Warning Directive)) : List Warning :=
  (lost rs).filter (!·.isNoContent) ++ (lost rs).filter (·.isNoContent)

/-- What will come of the markers that wait and of those to come. -/
def pending (l : Ledger) (ls : List (Source.Line × Nat)) : List (Except Warning Directive) :=
  l.waiting.map (·.settle ls) ++ Marker.outcomes ls

/-- What the ledger is finished with after the lines. -/
def close (l : Ledger) (ls : List (Source.Line × Nat)) : List Directive × List Warning :=
  -- entered, then anchored, then waiting or to come: the order of their markers
  (l.directives ++
    l.anchored.map (fun a => a.draft.directive (firstBelow? isHeading a.draft.anchor ls)) ++
    kept (l.pending ls),
   l.warnings ++ report (l.pending ls))

/-- The lines are numbered in order, and what is in the queues is above them. -/
structure Behind (l : Ledger) (ls : List (Source.Line × Nat)) : Prop where
  rising : ls.Pairwise (·.2 < ·.2)
  waiting : ∀ m ∈ l.waiting, ∀ x ∈ ls, m.line < x.2
  anchored : ∀ a ∈ l.anchored, ∀ x ∈ ls, a.draft.anchor < x.2

/-! ### Outcomes -/

section
variable {rs rs' : List (Except Warning Directive)}

@[simp] theorem kept_append : kept (rs ++ rs') = kept rs ++ kept rs' :=
  List.filterMap_append

@[simp] theorem lost_append : lost (rs ++ rs') = lost rs ++ lost rs' :=
  List.filterMap_append

section
variable {α : Type} (as : List α)

@[simp] theorem kept_map_ok (f : α → Directive) : kept (as.map fun a => .ok (f a)) = as.map f := by
  simp [kept, Function.comp_def, Except.toOption]

@[simp] theorem lost_map_ok (f : α → Directive) : lost (as.map fun a => .ok (f a)) = [] := by
  simp [lost]

@[simp] theorem kept_map_error (f : α → Warning) : kept (as.map fun a => .error (f a)) = [] := by
  simp [kept, Function.comp_def, Except.toOption]

@[simp] theorem lost_map_error (f : α → Warning) :
    lost (as.map fun a => .error (f a)) = as.map f := by
  simp [lost]

end

theorem mem_lost {w : Warning} : w ∈ lost rs ↔ .error w ∈ rs := by
  rw [lost, List.mem_filterMap]
  refine ⟨fun ⟨r, hr, h⟩ => ?_, fun h => ⟨_, h, rfl⟩⟩
  cases r <;> cases h
  exact hr

theorem mem_kept {d : Directive} : d ∈ kept rs ↔ .ok d ∈ rs := by
  rw [kept, List.mem_filterMap]
  refine ⟨fun ⟨r, hr, h⟩ => ?_, fun h => ⟨_, h, rfl⟩⟩
  cases r <;> cases h
  exact hr

theorem length_kept_add_lost : (kept rs).length + (lost rs).length = rs.length := by
  induction rs with
  | nil => rfl
  | cons r rs ih =>
    cases r with
    | ok d =>
      show (kept rs).length + 1 + (lost rs).length = rs.length + 1
      omega
    | error w =>
      show (kept rs).length + ((lost rs).length + 1) = rs.length + 1
      omega

theorem length_report : (report rs).length = (lost rs).length := by
  have h := List.length_eq_length_filter_add (l := lost rs) (·.isNoContent)
  rw [report, List.length_append]
  omega

theorem mem_report {w : Warning} : w ∈ report rs ↔ w ∈ lost rs := by
  cases hw : w.isNoContent <;> simp [report, hw]

end

theorem filter_lost_settle (ms : List Marker) (ls : List (Source.Line × Nat)) :
    (lost (ms.map (·.settle ls))).filter (!·.isNoContent) = [] := by
  refine List.filter_eq_nil_iff.2 fun w hw => ?_
  obtain ⟨m, -, hm⟩ := List.mem_map.1 (mem_lost.1 hw)
  rw [Marker.settle_error hm]
  simp [Warning.isNoContent]

/-! ### Steps -/

theorem foldl_enter {f : Anchored → Except DirectiveError Directive} {g : Anchored → Directive}
    {as : List Anchored} (h : ∀ a ∈ as, f a = .ok (g a)) (l : Ledger) :
    as.foldl (fun l a => l.enter a.marker (f a)) l =
      { l with directives := l.directives ++ as.map g } := by
  induction as generalizing l with
  | nil => simp
  | cons a as ih =>
    obtain ⟨ha, has⟩ := List.forall_mem_cons.1 h
    rw [List.foldl_cons, ha, ih has]
    simp [enter]

/-- A heading below the queues bounds all that is anchored, and anchors all that waits. -/
theorem heading_eq {n : LineNumber} (h : ∀ a ∈ l.anchored, a.draft.anchor < n) :
    l.heading n =
      { waiting := []
        anchored := l.waiting.map fun m => ⟨m.line, m.anchorAt n⟩
        directives := l.directives ++ l.anchored.map fun a => a.draft.directive (some n)
        warnings := l.warnings } := by
  have habove : (l.content n).anchored.filter (·.draft.anchor < n) = l.anchored := by
    rw [content, List.filter_append, List.filter_eq_self.2 (by simpa using h),
      List.filter_eq_nil_iff.2 (by simp [Marker.anchorAt_anchor]), List.append_nil]
  have hhere : (l.content n).anchored.filter (not ∘ fun a => decide (a.draft.anchor < n)) =
      l.waiting.map fun m => ⟨m.line, m.anchorAt n⟩ := by
    rw [content, List.filter_append, List.filter_eq_nil_iff.2 (by simpa using h),
      List.filter_eq_self.2 (by simp [Marker.anchorAt_anchor]), List.nil_append]
  rw [heading]
  simp only [List.partition_eq_filter_filter, habove, hhere]
  rw [foldl_enter fun a ha => Draft.bounded_eq (Nat.le_of_lt (h a ha))]
  rfl

theorem pending_cons_of_not (h : Behind l (x :: ls)) (hx : x.1.isContent = false) :
    l.pending (x :: ls) = l.waiting.map (·.settle ls) ++
      ((Marker.found [x]).map fun m => Marker.outcome ls m.1 m.2) ++ Marker.outcomes ls := by
  rw [pending, Marker.outcomes_cons h.rising, List.append_assoc]
  simp only [Marker.settle_cons_of_not hx]

theorem pending_cons_of_content (h : Behind l (x :: ls)) (hx : x.1.isContent = true) :
    l.pending (x :: ls) = (l.waiting.map fun m =>
      .ok ((m.anchorAt x.2).directive (firstBelow? isHeading x.2 ls))) ++ Marker.outcomes ls := by
  have hfound : Marker.found [x] = [] := by
    obtain ⟨y, n⟩ := x
    cases y <;> first | rfl | cases hx
  rw [pending, Marker.outcomes_cons h.rising, hfound, List.map_nil, List.nil_append]
  congr 1
  exact List.map_congr_left fun m hm =>
    Marker.settle_cons_of_lt h.rising (h.waiting m hm x (List.mem_cons_self ..)) hx

theorem map_directive_cons (h : x.1.isHeading = false) (as : List Anchored) :
    as.map (fun a => a.draft.directive (firstBelow? isHeading a.draft.anchor (x :: ls))) =
      as.map fun a => a.draft.directive (firstBelow? isHeading a.draft.anchor ls) := by
  simp only [Source.firstBelow?_cons_of_false h]

theorem map_directive_anchorAt (ms : List Marker) (n : LineNumber) :
    (ms.map fun m => (⟨m.line, m.anchorAt n⟩ : Anchored)).map
        (fun a => a.draft.directive (firstBelow? isHeading a.draft.anchor ls)) =
      ms.map fun m => (m.anchorAt n).directive (firstBelow? isHeading n ls) := by
  rw [List.map_map]
  exact List.map_congr_left fun m _ => by simp [Marker.anchorAt_anchor]

theorem close_heading {level n : Nat} {text : List Char}
    (h : Behind l ((.heading level text, n) :: ls)) :
    (l.heading n).close ls = l.close ((.heading level text, n) :: ls) := by
  have hn : ∀ a ∈ l.anchored, a.draft.anchor < n :=
    fun a ha => h.anchored a ha _ (List.mem_cons_self ..)
  have hbound : l.anchored.map (fun a => a.draft.directive
      (firstBelow? isHeading a.draft.anchor ((.heading level text, n) :: ls))) =
        l.anchored.map fun a => a.draft.directive (some n) :=
    List.map_congr_left fun a ha => by
      rw [Source.firstBelow?_cons_of_lt h.rising (hn a ha) rfl]
  rw [heading_eq hn, close, close, pending_cons_of_content h rfl, hbound]
  simp only [map_directive_anchorAt]
  simp [pending, report, List.append_assoc]

theorem close_content (h : Behind l (x :: ls)) (hx : x.1.isContent = true)
    (hh : x.1.isHeading = false) : (l.content x.2).close ls = l.close (x :: ls) := by
  rw [close, close, pending_cons_of_content h hx, map_directive_cons hh]
  simp only [content, List.map_append, map_directive_anchorAt]
  simp [pending, report, List.append_assoc]

theorem close_marker {n : Nat} {text : List Char} (h : Behind l ((.marker text, n) :: ls)) :
    (l.marker n text).close ls = l.close ((.marker text, n) :: ls) := by
  have hfound : Marker.found [(.marker text, n)] = [(n, text)] := rfl
  rw [close, close, pending_cons_of_not h rfl, map_directive_cons rfl, hfound, marker,
    List.map_singleton, Marker.outcome_eq]
  cases hr : Marker.read n text with
  | ok m =>
    show (l.directives ++ _ ++ kept ((l.waiting ++ [m]).map _ ++ _), l.warnings ++ report _) = _
    simp [pending, Except.bind]
  | error w =>
    -- what waits warns at the end of the source only, so `w` stands before all of `report`
    have hw : w.isNoContent = false := (Marker.read_error hr).1
    have hkept : kept (.error w :: Marker.outcomes ls) = kept (Marker.outcomes ls) := rfl
    have hlost : lost (.error w :: Marker.outcomes ls) = w :: lost (Marker.outcomes ls) := rfl
    simp [pending, Except.bind, report, filter_lost_settle, hkept, hlost, hw]

theorem close_readLine (h : Behind l (x :: ls)) : (l.readLine x).close ls = l.close (x :: ls) := by
  match x with
  | (.heading level text, n) => exact close_heading h
  | (.item level text, n) => exact close_content h rfl rfl
  | (.text text, n) => exact close_content h rfl rfl
  | (.marker text, n) => exact close_marker h
  | (.blank, n) | (.comment, n) | (.code, n) =>
    rw [close, close, pending_cons_of_not h rfl, map_directive_cons rfl]
    simp [pending, readLine, Marker.found]

/-! ### Runs -/

namespace Behind

theorem tail (h : Behind l (x :: ls)) : Behind l ls :=
  ⟨h.rising.of_cons, fun m hm y hy => h.waiting m hm y (List.mem_cons_of_mem _ hy),
   fun a ha y hy => h.anchored a ha y (List.mem_cons_of_mem _ hy)⟩

theorem content (h : Behind l (x :: ls)) : Behind (l.content x.2) ls := by
  refine ⟨h.rising.of_cons, fun m hm => absurd hm List.not_mem_nil, fun a ha y hy => ?_⟩
  rcases List.mem_append.1 ha with ha | ha
  · exact h.tail.anchored a ha y hy
  · obtain ⟨m, -, rfl⟩ := List.mem_map.1 ha
    rw [Marker.anchorAt_anchor]
    exact List.rel_of_pairwise_cons h.rising hy

theorem heading (h : Behind l (x :: ls)) : Behind (l.heading x.2) ls := by
  rw [heading_eq fun a ha => h.anchored a ha x (List.mem_cons_self ..)]
  refine ⟨h.rising.of_cons, fun m hm => absurd hm List.not_mem_nil, fun a ha => ?_⟩
  exact h.content.anchored a (List.mem_append_right _ ha)

theorem marker (h : Behind l (x :: ls)) (text : List Char) : Behind (l.marker x.2 text) ls := by
  rw [Ledger.marker]
  cases hr : Marker.read x.2 text with
  | error w => exact ⟨h.tail.rising, h.tail.waiting, h.tail.anchored⟩
  | ok m =>
    refine ⟨h.tail.rising, fun m' hm y hy => ?_, h.tail.anchored⟩
    rcases List.mem_append.1 hm with hm | hm
    · exact h.tail.waiting m' hm y hy
    · rw [List.mem_singleton.1 hm, Marker.read_line hr]
      exact List.rel_of_pairwise_cons h.rising hy

theorem readLine (h : Behind l (x :: ls)) : Behind (l.readLine x) ls := by
  match x with
  | (.heading _ _, n) => exact h.heading
  | (.item _ _, n) | (.text _, n) => exact h.content
  | (.marker text, n) => exact h.marker text
  | (.blank, n) | (.comment, n) | (.code, n) => exact h.tail

end Behind

theorem finish_eq_append (l : Ledger) : l.finish =
    (l.directives ++ l.anchored.map (·.draft.directive none),
      l.warnings ++ l.waiting.map (.noContent ·.line)) := by
  rw [finish, foldl_enter fun a _ => Draft.unbounded_eq a.draft]

theorem finish_eq (l : Ledger) : l.finish = l.close [] := by
  have hwaiting : l.pending [] = l.waiting.map fun m => .error (.noContent m.line) := by
    rw [pending, Marker.outcomes]
    simp [Marker.found]
  have hearly : (l.waiting.map fun m => Warning.noContent m.line).filter (!·.isNoContent) = [] := by
    simp [Warning.isNoContent]
  have hlate : (l.waiting.map fun m => Warning.noContent m.line).filter (·.isNoContent) =
      l.waiting.map fun m => .noContent m.line :=
    List.filter_eq_self.2 (by simp [Warning.isNoContent])
  rw [finish_eq_append, close, hwaiting, report, kept_map_error, lost_map_error, hearly, hlate]
  simp [Source.firstBelow?]

theorem finish_foldl_readLine (h : Behind l ls) : (ls.foldl readLine l).finish = l.close ls := by
  induction ls generalizing l with
  | nil => exact finish_eq l
  | cons x ls ih => rw [List.foldl_cons, ih h.readLine, close_readLine h]

theorem behind_nil (h : ls.Pairwise (·.2 < ·.2)) : Behind {} ls :=
  ⟨h, fun _ hm => absurd hm List.not_mem_nil, fun _ ha => absurd ha List.not_mem_nil⟩

theorem ofLines_eq (h : ls.Pairwise (·.2 < ·.2)) :
    ofLines ls = (kept (Marker.outcomes ls), report (Marker.outcomes ls)) := by
  rw [ofLines, finish_foldl_readLine (behind_nil h), close]
  rfl

end Ledger

theorem Marker.ne_invalid_of_mem_outcomes {w : Warning} {ls : List (Source.Line × Nat)}
    (h : .error w ∈ outcomes ls) (n : LineNumber) (e : DirectiveError) : w ≠ .invalid n e := by
  rcases read_or_settle_of_mem_outcomes h with ⟨k, text, w', hr, hw⟩ | ⟨m, hm⟩
  · cases hw
    exact (read_error hr).2 n e
  · rw [settle_error hm.symm]
    exact nofun

/-- Every source is ingested, and each of its markers comes to its outcome: the directives stand in
the order of their markers, the warnings given at a marker before those given at the end. No
marker is lost, and no directive is refused its bound. -/
theorem ingest_outcomes (t : SymbolTable) (source : String) :
    ∃ i, ingest t source = .ok i ∧
      i.directives = Ledger.kept (Marker.outcomes (Source.numberedLines source)) ∧
      i.warnings =
        (Ledger.lost (Marker.outcomes (Source.numberedLines source))).filter (!·.isNoContent) ++
          (Ledger.lost (Marker.outcomes (Source.numberedLines source))).filter (·.isNoContent) ∧
      i.directives.length + i.warnings.length =
        (Marker.found (Source.numberedLines source)).length ∧
      ∀ w ∈ i.warnings, ∀ n e, w ≠ .invalid n e := by
  have hls := Ledger.ofLines_eq (Source.pairwise_numberedLines source)
  have hdirectives : (Ingested.ofSource t source).directives =
      Ledger.kept (Marker.outcomes (Source.numberedLines source)) := by
    rw [Ingested.ofSource, hls]
  have hwarnings : (Ingested.ofSource t source).warnings =
      Ledger.report (Marker.outcomes (Source.numberedLines source)) := by
    rw [Ingested.ofSource, hls]
  refine ⟨_, ingest_eq t source, hdirectives, hwarnings, ?_, fun w hw n e => ?_⟩
  · rw [hdirectives, hwarnings, Ledger.length_report, Ledger.length_kept_add_lost,
      Marker.outcomes, List.length_map]
  · rw [hwarnings, Ledger.mem_report, Ledger.mem_lost] at hw
    exact Marker.ne_invalid_of_mem_outcomes hw n e

end ProseLint
