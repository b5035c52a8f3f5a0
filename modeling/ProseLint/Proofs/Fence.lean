import ProseLint.Proofs.Ingest
import ProseLint.Proofs.Lines
import ProseLint.SymbolTable.Builtin

/-!
# Fenced code is inert

`Opens` and `Closes` say of the text of a line what makes it open and close a fence, and
`opening?_eq_some_iff` and `closedBy_iff` that this is how lines are read. Between the two every
line is code and the fence stays open, whatever the line holds (`readAll_fenced`). So two sources
that differ only inside of a fence have the same parts at the same numbers, and that is all that is
ingested (`ingest_fenced`).
-/

namespace ProseLint

/-! ### Runs of a character -/

theorem Text.eq_replicate_append_iff {c : Char} {n : Nat} {s r : List Char} :
    (s = List.replicate n c ++ r ∧ r.head? ≠ some c) ↔
      (s.takeWhile (· == c)).length = n ∧ s.dropWhile (· == c) = r := by
  constructor
  · rintro ⟨rfl, hr⟩
    have hrun : ∀ a ∈ List.replicate n c, (a == c) = true := by simp [List.mem_replicate]
    rw [List.takeWhile_append_of_pos hrun, List.dropWhile_append_of_pos hrun]
    cases r with
    | nil => simp
    | cons a r =>
      have ha : (a == c) = false := by simpa using hr
      simp [ha]
  · rintro ⟨hn, hr⟩
    have htake : s.takeWhile (· == c) = List.replicate n c := by
      refine List.eq_replicate_iff.2 ⟨hn, fun a ha => ?_⟩
      simpa using List.mem_takeWhile_imp ha
    refine ⟨by rw [← htake, ← hr, List.takeWhile_append_dropWhile], fun hc => ?_⟩
    have hhead := List.head?_dropWhile_not (· == c) s
    rw [hr, hc] at hhead
    simp at hhead

namespace Source

namespace Fence
variable {f : Fence} {line info : List Char}

/-- The line has the run of the fence after at most three spaces, and then `info`. -/
structure Starts (f : Fence) (line info : List Char) : Prop where
  mark : f.mark = '\x60' ∨ f.mark = '~'
  length : 3 ≤ f.length
  line : ∃ i ≤ 3, line = List.replicate i ' ' ++ (List.replicate f.length f.mark ++ info)

/-- The run is as long as it can be, and no backtick follows a run of them. -/
def Opens (f : Fence) (line : List Char) : Prop :=
  ∃ info, f.Starts line info ∧ info.head? ≠ some f.mark ∧ (f.mark = '\x60' → '\x60' ∉ info)

/-- The line has a run of the same character, not shorter, and only blanks after it. -/
def Closes (f : Fence) (line : List Char) : Prop :=
  ∃ n ≥ f.length, ∃ info, Starts ⟨f.mark, n⟩ line info ∧ ∀ c ∈ info, Text.isBlank c = true

theorem isMark_iff {c : Char} : isMark c = true ↔ c = '\x60' ∨ c = '~' := by
  simp [isMark]

theorem run?_eq_some_iff :
    run? line = some (f, info) ↔ f.Starts line info ∧ info.head? ≠ some f.mark := by
  constructor
  · intro h
    rw [run?] at h
    split at h
    · cases h
    next hindent =>
      obtain ⟨hline, -⟩ := Text.eq_replicate_append_iff.2
        ⟨rfl, (rfl : line.dropWhile (· == ' ') = _)⟩
      cases hrest : line.dropWhile (· == ' ') with
      | nil => simp [hrest] at h
      | cons c s =>
        simp only [hrest, Bool.and_eq_true, decide_eq_true_eq, Option.ite_none_right_eq_some,
          Option.some.injEq, Prod.mk.injEq] at h
        obtain ⟨⟨hmark, hlength⟩, rfl, rfl⟩ := h
        obtain ⟨hrun, hinfo⟩ := Text.eq_replicate_append_iff.2
          ⟨rfl, (rfl : s.dropWhile (· == c) = _)⟩
        refine ⟨⟨isMark_iff.1 hmark, hlength, _, Nat.le_of_not_lt hindent, ?_⟩, hinfo⟩
        rw [List.replicate_succ, List.cons_append, ← hrun, ← hrest]
        exact hline
  · rintro ⟨⟨hmark, hlength, i, hi, rfl⟩, hinfo⟩
    obtain ⟨c, n⟩ := f
    obtain ⟨n, rfl⟩ : ∃ m, n = m + 1 := ⟨n - 1, by simp only at hlength; omega⟩
    have hc : c ≠ ' ' := by rcases hmark with rfl | rfl <;> decide
    have hhead : (List.replicate (n + 1) c ++ info).head? ≠ some ' ' := by
      simpa [List.replicate_succ] using hc
    obtain ⟨hindent, hrest⟩ := (Text.eq_replicate_append_iff (n := i)).1 ⟨rfl, hhead⟩
    obtain ⟨hrun, hafter⟩ := (Text.eq_replicate_append_iff (n := n)).1 ⟨rfl, hinfo⟩
    have hfence : (isMark c && decide (3 ≤ n + 1)) = true := by
      rw [isMark_iff.2 hmark, decide_eq_true hlength, Bool.true_and]
    rw [run?, hindent, hrest, if_neg (Nat.not_lt.2 hi), List.replicate_succ, List.cons_append]
    simp only [hrun, hafter, hfence, if_true]

theorem opening?_eq_some_iff : opening? line = some f ↔ f.Opens line := by
  have htick : ∀ info : List Char, ((f.mark == '\x60') && info.contains '\x60') = false ↔
      (f.mark = '\x60' → '\x60' ∉ info) := by
    intro info
    simp
  constructor
  · intro h
    rw [opening?] at h
    split at h
    next g info hg =>
      split at h
      · cases h
      next hinfo =>
        obtain rfl : g = f := Option.some.inj h
        obtain ⟨hstarts, hhead⟩ := run?_eq_some_iff.1 hg
        exact ⟨info, hstarts, hhead, (htick info).1 (Bool.eq_false_iff.2 hinfo)⟩
    · cases h
  · rintro ⟨info, hstarts, hhead, hinfo⟩
    rw [opening?, run?_eq_some_iff.2 ⟨hstarts, hhead⟩]
    simp only [(htick info).2 hinfo, Bool.false_eq_true, if_false]

theorem closedBy_iff : f.closedBy line = true ↔ f.Closes line := by
  constructor
  · intro h
    rw [closedBy] at h
    split at h
    next g info hg =>
      simp only [Bool.and_eq_true, beq_iff_eq, decide_eq_true_eq, Text.isBlankText,
        List.all_eq_true] at h
      obtain ⟨⟨hmark, hlength⟩, hblank⟩ := h
      obtain ⟨c, n⟩ := g
      obtain rfl : c = f.mark := hmark
      exact ⟨n, hlength, info, (run?_eq_some_iff.1 hg).1, hblank⟩
    · cases h
  · rintro ⟨n, hn, info, hstarts, hblank⟩
    -- the run goes on no further, since its character is not blank
    have hhead : info.head? ≠ some f.mark := by
      intro hhead
      have hmark : Text.isBlank f.mark = true := hblank _ (List.mem_of_head? hhead)
      have hnot : Text.isBlank f.mark = false := by
        rcases hstarts.mark with h | h <;> rw [show f.mark = _ from h] <;> decide
      exact Bool.false_ne_true (hnot.symm.trans hmark)
    rw [closedBy, run?_eq_some_iff.2 ⟨hstarts, hhead⟩]
    simpa [hn, Text.isBlankText] using hblank

instance : Decidable (f.Opens line) :=
  decidable_of_iff _ opening?_eq_some_iff

instance : Decidable (f.Closes line) :=
  decidable_of_iff _ closedBy_iff

end Fence

namespace Line
variable {f : Fence}

theorem read_of_opens {line : List Char} (h : f.Opens line) : read none line = (code, some f) := by
  rw [read, Fence.opening?_eq_some_iff.2 h]

theorem readAll_fenced {body : List (List Char)} (h : ∀ l ∈ body, ¬ f.Closes l) :
    readAll (some f) body = List.replicate body.length code ∧ fenceBelow (some f) body = some f := by
  induction body with
  | nil => exact ⟨rfl, rfl⟩
  | cons l body ih =>
    obtain ⟨hl, hbody⟩ := List.forall_mem_cons.1 h
    have hopen : f.closedBy l = false := Bool.eq_false_iff.2 fun hc => hl (Fence.closedBy_iff.1 hc)
    have hread : read (some f) l = (code, some f) := by simp [read, hopen]
    obtain ⟨hcode, hfence⟩ := ih hbody
    constructor
    · rw [readAll, hread, hcode, List.length_cons, List.replicate_succ]
    · have hstep : fenceBelow (some f) (l :: body) = fenceBelow (read (some f) l).2 body := rfl
      rw [hstep, hread, hfence]

theorem readAll_append_fenced {above body : List (List Char)} {line : List Char}
    (habove : fenceBelow none above = none) (hopens : f.Opens line)
    (hbody : ∀ l ∈ body, ¬ f.Closes l) (below : List (List Char)) :
    readAll none (above ++ line :: (body ++ below)) =
      readAll none above ++
        code :: (List.replicate body.length code ++ readAll (some f) below) := by
  obtain ⟨hcode, hfence⟩ := readAll_fenced hbody
  rw [readAll_append, habove, readAll, read_of_opens hopens, readAll_append, hcode, hfence]

end Line

end Source

/-! ### Ingestion -/

/-- Two sources with the same lines but for those inside of one fence, none of which closes it, are
ingested into the same document, directives and warnings. -/
theorem ingest_fenced (t : SymbolTable) {above body body' below : List (List Char)}
    {line : List Char} {f : Source.Fence} (habove : Source.Line.fenceBelow none above = none)
    (hopens : f.Opens line) (hlength : body.length = body'.length)
    (hbody : ∀ l ∈ body, ¬ f.Closes l) (hbody' : ∀ l ∈ body', ¬ f.Closes l) {s s' : String}
    (hs : Source.lines s.toList = above ++ line :: (body ++ below))
    (hs' : Source.lines s'.toList = above ++ line :: (body' ++ below)) :
    ∃ i, ingest t s = .ok i ∧ ingest t s' = .ok i := by
  have hlines : Source.numberedLines s = Source.numberedLines s' := by
    rw [Source.numberedLines, Source.numberedLines, hs, hs',
      Source.Line.readAll_append_fenced habove hopens hbody,
      Source.Line.readAll_append_fenced habove hopens hbody', hlength]
  have hingested : Ingested.ofSource t s = Ingested.ofSource t s' := by
    simp only [Ingested.ofSource, hlines]
  exact ⟨.ofSource t s, ingest_eq t s, by rw [hingested, ingest_eq]⟩

/-- A heading and a marker against a shorter run and a fence of the other character. -/
theorem ingest_fenced_heading_and_marker :
    let s := "A.\n ~~~~ x\n# H\n<!-- @suppress -->\n~~~~\nB.\n"
    let s' := "A.\n ~~~~ x\n~~~\n```\n~~~~\nB.\n"
    ∃ i, ingest (SymbolTable.builtin .english) s = .ok i ∧
      ingest (SymbolTable.builtin .english) s' = .ok i ∧
      i.document.sentences = [⟨"A.", 1⟩, ⟨"B.", 6⟩] ∧ i.directives = [] ∧ i.warnings = [] := by
  intro s s'
  have hs : Source.lines s.toList = ["A.".toList] ++ " ~~~~ x".toList ::
      (["# H".toList, "<!-- @suppress -->".toList] ++ ["~~~~".toList, "B.".toList]) := by
    decide +kernel
  have hs' : Source.lines s'.toList = ["A.".toList] ++ " ~~~~ x".toList ::
      (["~~~".toList, "```".toList] ++ ["~~~~".toList, "B.".toList]) := by
    decide +kernel
  have hopens : Source.Fence.Opens ⟨'~', 4⟩ " ~~~~ x".toList := by decide +kernel
  have hbody : ∀ l ∈ ["# H".toList, "<!-- @suppress -->".toList],
      ¬ Source.Fence.Closes ⟨'~', 4⟩ l := by decide +kernel
  have hbody' : ∀ l ∈ ["~~~".toList, "```".toList], ¬ Source.Fence.Closes ⟨'~', 4⟩ l := by
    decide +kernel
  obtain ⟨i, h, h'⟩ := ingest_fenced (SymbolTable.builtin .english) (by decide +kernel) hopens
    (by decide) hbody hbody' hs hs'
  obtain rfl := Except.ok.inj ((ingest_eq _ s).symm.trans h)
  exact ⟨_, h, h', by decide +kernel, by decide +kernel, by decide +kernel⟩

end ProseLint
