import ProseLint.Proofs.Ledger
import ProseLint.Proofs.Lines
import ProseLint.SymbolTable.Builtin

/-!
# What one comment contributes

A comment or marker ends a block as an empty line does, so the document is the same if the line is
made empty (`Emptied.sections_eq`). The books of the ledger do not know comments. A marker has one
outcome, and the outcomes of all other markers depend on the lines of content only
(`outcomes_append_marker`), so without the marker its outcome is missing and nothing else changes
(`ingest_emptied`).
-/

namespace ProseLint
open Source (Line firstBelow?)

/-! ### Lines -/

namespace Source
variable {s s' : String} {n : Nat}

/-- The line `n` of `s` is empty in `s'`. The last line may be gone instead: an empty line that no
line feed ends is no line. -/
def Emptied (n : Nat) (s s' : String) : Prop :=
  lines s'.toList = (lines s.toList).set (n - 1) [] ∨
    n = lineCount s ∧ lines s'.toList = (lines s.toList).dropLast

namespace Line

def isComment : Line → Bool
  | comment | marker _ => true
  | _ => false

theorem fence_of_isComment {open? : Option Fence} {line : List Char}
    (h : (read open? line).1.isComment = true) : open? = none ∧ (read open? line).2 = none := by
  cases open? with
  | some f => cases h
  | none =>
    rw [read] at h ⊢
    split at h
    · cases h
    · simp

end Line

theorem exists_read_of_mem_zipIdx {open? : Option Fence} {ls : List (List Char)} {k : Nat}
    {x : Line × Nat} (h : x ∈ (Line.readAll open? ls).zipIdx k) :
    ∃ above line below, ls = above ++ line :: below ∧
      x = ((Line.read (Line.fenceBelow open? above) line).1, k + above.length) := by
  induction ls generalizing open? k with
  | nil => exact absurd h List.not_mem_nil
  | cons l ls ih =>
    rw [Line.readAll, List.zipIdx_cons] at h
    rcases List.mem_cons.1 h with rfl | h
    · exact ⟨[], l, ls, rfl, rfl⟩
    · obtain ⟨above, line, below, rfl, rfl⟩ := ih h
      refine ⟨l :: above, line, below, rfl, ?_⟩
      rw [List.length_cons, Nat.add_right_comm, Nat.add_assoc]
      rfl

theorem Emptied.numberedLines_eq {x : Line} (he : Emptied n s s') (hx : (x, n) ∈ numberedLines s)
    (hc : x.isComment = true) :
    ∃ above below, numberedLines s = above ++ (x, n) :: below ∧
      (numberedLines s' = above ++ (.blank, n) :: below ∨ below = [] ∧ numberedLines s' = above) := by
  obtain ⟨above, line, below, hlines, heq⟩ := exists_read_of_mem_zipIdx hx
  obtain ⟨rfl, rfl⟩ := Prod.mk.inj heq
  obtain ⟨hnone, hclosed⟩ := Line.fence_of_isComment hc
  rw [hnone] at hclosed ⊢
  have hread : ∀ l, (Line.read none l).2 = none →
      (Line.readAll none (above ++ l :: below)).zipIdx 1 =
        (Line.readAll none above).zipIdx 1 ++ ((Line.read none l).1, 1 + above.length) ::
          (Line.readAll none below).zipIdx (1 + above.length + 1) := by
    intro l hl
    rw [Line.readAll_append, hnone, Line.readAll, hl, List.zipIdx_append, Line.length_readAll,
      List.zipIdx_cons]
  refine ⟨_, _, by rw [numberedLines, hlines, hread line hclosed], ?_⟩
  rcases he with he | ⟨hlast, he⟩
  · left
    have hset : (above ++ line :: below).set (1 + above.length - 1) [] = above ++ [] :: below := by
      simp
    rw [numberedLines, he, hlines, hset, hread [] rfl]
    rfl
  · right
    obtain rfl : below = [] := by
      rw [lineCount, hlines, List.length_append, List.length_cons] at hlast
      exact List.eq_nil_of_length_eq_zero (by omega)
    refine ⟨rfl, ?_⟩
    rw [numberedLines, he, hlines, List.dropLast_concat]

theorem firstBelow?_append_cons {p : Line → Bool} {x : Line × Nat} (hx : p x.1 = false)
    (m : LineNumber) (above below : List (Line × Nat)) :
    firstBelow? p m (above ++ x :: below) = firstBelow? p m (above ++ below) := by
  have hfilter : (x :: below).filter (fun y => m < y.2 && p y.1) =
      below.filter (fun y => m < y.2 && p y.1) := List.filter_cons_of_neg (by simp [hx])
  rw [firstBelow?, firstBelow?, List.filter_append, hfilter, List.filter_append]

end Source

/-! ### The document -/

namespace Outline
variable {k : Splitter} {x : Line} {n : Nat}

theorem readLine_of_isComment (hx : x.isComment = true) (o : Outline) :
    o.readLine k (x, n) = o.endBlock k := by
  cases x <;> first | rfl | cases hx

theorem endBlock_endBlock (o : Outline) : (o.endBlock k).endBlock k = o.endBlock k := by
  obtain ⟨ps, p, _ | ls | ⟨is, i⟩⟩ := o <;> rfl

end Outline

theorem Source.Emptied.sections_eq {s s' : String} {x : Line} {n : Nat} (he : Emptied n s s')
    (hx : (x, n) ∈ numberedLines s) (hc : x.isComment = true) (k : Splitter) :
    Outline.sections k (numberedLines s') = Outline.sections k (numberedLines s) := by
  obtain ⟨above, below, hs, hs' | ⟨rfl, hs'⟩⟩ := he.numberedLines_eq hx hc
  · have hpassages : Outline.passages k (numberedLines s') =
        Outline.passages k (numberedLines s) := by
      rw [hs, hs', Outline.passages, Outline.passages, List.foldl_append, List.foldl_append,
        List.foldl_cons, List.foldl_cons, Outline.readLine_of_isComment hc]
      rfl
    rw [Outline.sections, Outline.sections, hpassages]
  · have hpassages : Outline.passages k (numberedLines s') =
        Outline.passages k (numberedLines s) := by
      rw [hs, hs', Outline.passages, Outline.passages, List.foldl_append, List.foldl_cons,
        Outline.readLine_of_isComment hc, List.foldl_nil, Outline.endBlock_endBlock]
    rw [Outline.sections, Outline.sections, hpassages]

/-! ### Directives and warnings -/

namespace Marker
variable {above below ls : List (Line × Nat)} {n : LineNumber} {text : List Char}

/-- What comes of the markers on the lines with the property `p`. -/
def outcomesOn (p : LineNumber → Bool) (ls : List (Line × Nat)) : List (Except Warning Directive) :=
  ((found ls).filter (p ·.1)).map fun m => outcome ls m.1 m.2

theorem outcome_append_cons {x : Line × Nat} (hx : x.1.isContent = false)
    (above below : List (Line × Nat)) (n : LineNumber) (text : List Char) :
    outcome (above ++ x :: below) n text = outcome (above ++ below) n text := by
  have hh : x.1.isHeading = false := by
    obtain ⟨y, m⟩ := x
    cases y <;> first | rfl | cases hx
  simp only [outcome, Source.firstBelow?_append_cons hx, Source.firstBelow?_append_cons hh]

theorem line_of_outcome_error {w : Warning} (h : outcome ls n text = .error w) : w.line = n := by
  rw [outcome] at h
  split at h
  · cases h; rfl
  · split at h
    · split at h <;> cases h
      rfl
    · cases h; rfl

theorem line_ne_of_mem_outcomesOn {p : LineNumber → Bool} (hp : p n = false) {w : Warning}
    (h : .error w ∈ outcomesOn p ls) : w.line ≠ n := by
  obtain ⟨⟨m, t⟩, hm, hw⟩ := List.mem_map.1 h
  have hpm : p m = true := (List.mem_filter.1 hm).2
  rw [line_of_outcome_error hw]
  rintro rfl
  exact Bool.false_ne_true (hp.symm.trans hpm)

/-- The outcomes of the markers above and below one marker are those without it. -/
theorem outcomes_append_marker
    (hls : (above ++ (.marker text, n) :: below).Pairwise (·.2 < ·.2)) :
    let ls := above ++ (.marker text, n) :: below
    outcomes ls = outcomesOn (· < n) ls ++ outcome ls n text :: outcomesOn (n < ·) ls ∧
      outcomes (above ++ below) = outcomesOn (· < n) ls ++ outcomesOn (n < ·) ls := by
  intro ls
  obtain ⟨-, hbelow, habove⟩ := List.pairwise_append.1 hls
  have hlow : ∀ m ∈ found above, m.1 < n := fun m hm =>
    habove _ (mem_found.1 hm) _ (List.mem_cons_self ..)
  have hhigh : ∀ m ∈ found below, n < m.1 := fun m hm =>
    List.rel_of_pairwise_cons hbelow (mem_found.1 hm)
  have hfound : found ls = found above ++ (n, text) :: found below := List.filterMap_append
  have hfirst : (found ls).filter (·.1 < n) = found above := by
    rw [hfound, List.filter_append, List.filter_eq_self.2 (by simpa using hlow),
      List.filter_eq_nil_iff.2, List.append_nil]
    intro m hm
    rcases List.mem_cons.1 hm with rfl | hm
    · simp
    · simpa using Nat.le_of_lt (hhigh m hm)
  have hlast : (found ls).filter (n < ·.1) = found below := by
    rw [hfound, List.filter_append, List.filter_cons_of_neg (by simp),
      List.filter_eq_nil_iff.2, List.filter_eq_self.2 (by simpa using hhigh), List.nil_append]
    intro m hm
    simpa using Nat.le_of_lt (hlow m hm)
  constructor
  · rw [outcomes, hfound, List.map_append, List.map_cons, outcomesOn, outcomesOn, hfirst, hlast]
  · have hrest : found (above ++ below) = found above ++ found below := List.filterMap_append
    rw [outcomes, hrest, List.map_append, outcomesOn, outcomesOn, hfirst, hlast]
    simp only [ls, outcome_append_cons (x := (.marker text, n)) rfl]

end Marker

namespace Ledger
variable {rs rs' : List (Except Warning Directive)}

/-- Blank lines and comments are passed over. -/
theorem ofLines_append_cons {x : Line × Nat} (hx : ∀ l : Ledger, l.readLine x = l)
    (above below : List (Line × Nat)) : ofLines (above ++ x :: below) = ofLines (above ++ below) := by
  rw [ofLines, ofLines, List.foldl_append, List.foldl_cons, hx, List.foldl_append]

theorem report_append_ok (d : Directive) : report (rs ++ .ok d :: rs') = report (rs ++ rs') := by
  have hlost : lost (rs ++ .ok d :: rs') = lost (rs ++ rs') := by
    rw [lost_append, lost_append]
    rfl
  rw [report, hlost, report]

theorem exists_report_append_error (rs rs' : List (Except Warning Directive)) (w : Warning) :
    ∃ us vs, report (rs ++ .error w :: rs') = us ++ w :: vs ∧ report (rs ++ rs') = us ++ vs := by
  have hlost : lost (rs ++ .error w :: rs') = lost rs ++ w :: lost rs' := lost_append
  rw [report, hlost, report, lost_append]
  cases hw : w.isNoContent with
  | false =>
    refine ⟨(lost rs).filter (!·.isNoContent), (lost rs').filter (!·.isNoContent) ++
      ((lost rs).filter (·.isNoContent) ++ (lost rs').filter (·.isNoContent)), ?_, ?_⟩ <;>
      simp [hw]
  | true =>
    refine ⟨(lost rs).filter (!·.isNoContent) ++ ((lost rs').filter (!·.isNoContent) ++
      (lost rs).filter (·.isNoContent)), (lost rs').filter (·.isNoContent), ?_, ?_⟩ <;>
      simp [hw]

end Ledger

theorem Source.Emptied.ofLines_eq {s s' : String} {x : Line} {n : Nat} (he : Emptied n s s')
    (hx : (x, n) ∈ numberedLines s) (hc : x.isComment = true) :
    ∃ above below, numberedLines s = above ++ (x, n) :: below ∧
      Ledger.ofLines (numberedLines s') = Ledger.ofLines (above ++ below) := by
  obtain ⟨above, below, hs, hs' | ⟨rfl, hs'⟩⟩ := he.numberedLines_eq hx hc
  · refine ⟨above, below, hs, ?_⟩
    rw [hs']
    exact Ledger.ofLines_append_cons (fun l => rfl) above below
  · exact ⟨above, [], hs, by rw [hs', List.append_nil]⟩

theorem Source.Emptied.ofLines_of_marker {s s' : String} {text : List Char} {n : Nat}
    (he : Emptied n s s') (hx : (.marker text, n) ∈ numberedLines s) :
    let ls := numberedLines s
    let above := Marker.outcomesOn (· < n) ls
    let below := Marker.outcomesOn (n < ·) ls
    let r := Marker.outcome ls n text
    Ledger.ofLines ls =
        (Ledger.kept (above ++ r :: below), Ledger.report (above ++ r :: below)) ∧
      Ledger.ofLines (numberedLines s') =
        (Ledger.kept (above ++ below), Ledger.report (above ++ below)) := by
  obtain ⟨above, below, hs, hs'⟩ := he.ofLines_eq hx rfl
  have hrising := pairwise_numberedLines s
  have hrest : (above ++ below).Pairwise (·.2 < ·.2) := by
    rw [hs] at hrising
    exact hrising.sublist ((List.sublist_cons_self ..).append_left above)
  have hmarker := Marker.outcomes_append_marker (hs ▸ hrising)
  rw [← hs] at hmarker
  obtain ⟨houtcomes, hothers⟩ := hmarker
  have hwith := Ledger.ofLines_eq hrising
  have hwithout := hs'.trans (Ledger.ofLines_eq hrest)
  rw [houtcomes] at hwith
  rw [hothers] at hwithout
  exact ⟨hwith, hwithout⟩

/-- A comment or marker that is made an empty line leaves the document as it is. No directive and no
warning comes of a comment; of a marker comes exactly one of the two, which is then missing among
those of the markers above and below. -/
theorem ingest_emptied (t : SymbolTable) {s s' : String} {x : Line} {n : Nat}
    (hx : (x, n) ∈ Source.numberedLines s) (hc : x.isComment = true)
    (he : Source.Emptied n s s') :
    ∃ i i', ingest t s = .ok i ∧ ingest t s' = .ok i' ∧ i'.document = i.document ∧
      (x = .comment → i'.directives = i.directives ∧ i'.warnings = i.warnings) ∧
      ∀ text, x = .marker text →
        let ls := Source.numberedLines s
        let above := Ledger.kept (Marker.outcomesOn (· < n) ls)
        let below := Ledger.kept (Marker.outcomesOn (n < ·) ls)
        match Marker.outcome ls n text with
        | .ok d => i.directives = above ++ d :: below ∧ i'.directives = above ++ below ∧
            i'.warnings = i.warnings
        | .error w => i.directives = above ++ below ∧ i'.directives = above ++ below ∧
            ∃ us vs, i.warnings = us ++ w :: vs ∧ i'.warnings = us ++ vs ∧ w.line = n ∧
              ∀ v ∈ us ++ vs, v.line ≠ n := by
  refine ⟨_, _, ingest_eq t s, ingest_eq t s', ?_, ?_, ?_⟩
  · simp only [Ingested.ofSource, he.sections_eq hx hc]
  · rintro rfl
    obtain ⟨above, below, hs, hs'⟩ := he.ofLines_eq hx hc
    have hledger : Ledger.ofLines (Source.numberedLines s') =
        Ledger.ofLines (Source.numberedLines s) := by
      rw [hs', hs]
      exact (Ledger.ofLines_append_cons (fun l => rfl) above below).symm
    simp only [Ingested.ofSource, hledger, and_self]
  · rintro text rfl
    obtain ⟨hwith, hwithout⟩ := he.ofLines_of_marker hx
    intro ls above below
    simp only [Ingested.ofSource, hwith, hwithout]
    cases hr : Marker.outcome ls n text with
    | ok d =>
      exact ⟨Ledger.kept_append, Ledger.kept_append, (Ledger.report_append_ok d).symm⟩
    | error w =>
      obtain ⟨us, vs, hreport, hrest⟩ := Ledger.exists_report_append_error
        (Marker.outcomesOn (· < n) ls) (Marker.outcomesOn (n < ·) ls) w
      refine ⟨Ledger.kept_append, Ledger.kept_append, us, vs, hreport, hrest,
        Marker.line_of_outcome_error hr, fun v hv => ?_⟩
      rw [← hrest, Ledger.mem_report, Ledger.lost_append, List.mem_append, Ledger.mem_lost,
        Ledger.mem_lost] at hv
      rcases hv with hv | hv <;> exact Marker.line_ne_of_mem_outcomesOn (by simp) hv

/-- The second of two markers that are anchored together inside of a list item. -/
theorem ingest_emptied_stacked_marker :
    let s := "- A\n<!-- @suppress a -->\n<!-- @suppress b -->\ngoes on.\n# H\n<!-- @ -->\n"
    let s' := "- A\n<!-- @suppress a -->\n\ngoes on.\n# H\n<!-- @ -->\n"
    (.marker "suppress b".toList, 3) ∈ Source.numberedLines s ∧ Source.Emptied 3 s s' ∧
      ∃ i i', ingest (SymbolTable.builtin .english) s = .ok i ∧
        ingest (SymbolTable.builtin .english) s' = .ok i' ∧ i'.document = i.document ∧
        i.directives = [⟨.suppress, 4, some 5, ["a"]⟩, ⟨.suppress, 4, some 5, ["b"]⟩] ∧
        i'.directives = [⟨.suppress, 4, some 5, ["a"]⟩] ∧
        i.warnings = [.emptyMarker 6] ∧ i'.warnings = [.emptyMarker 6] := by
  intro s s'
  have hx : (Line.marker "suppress b".toList, 3) ∈ Source.numberedLines s := by decide +kernel
  have he : Source.Emptied 3 s s' := .inl (by decide +kernel)
  obtain ⟨i, i', h, h', hdocument, -, hmarker⟩ :=
    ingest_emptied (SymbolTable.builtin .english) hx rfl he
  obtain rfl := Except.ok.inj ((ingest_eq _ s).symm.trans h)
  have houtcome : Marker.outcome (Source.numberedLines s) 3 "suppress b".toList =
      .ok ⟨.suppress, 4, some 5, ["b"]⟩ := by decide +kernel
  have hrest := hmarker _ rfl
  simp only [houtcome] at hrest
  obtain ⟨hdirectives, hdirectives', hwarnings⟩ := hrest
  have hgiven : (Ingested.ofSource (SymbolTable.builtin .english) s).warnings =
      [.emptyMarker 6] := by decide +kernel
  exact ⟨hx, he, _, i', h, h', hdocument, hdirectives.trans (by decide +kernel),
    hdirectives'.trans (by decide +kernel), hgiven, hwarnings.trans hgiven⟩

end ProseLint
