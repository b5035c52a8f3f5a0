import ProseLint.Proofs.Fence
import ProseLint.Proofs.Trim

/-!
# The grammar of lines

`Reading` has a production for each part that a line can play outside of fences, stated on the text
of the line; what fits no other production is text. `read_none_eq_iff` says that lines are read by
this grammar. The productions exclude each other, so the order in which they are tried does not
matter: the first character that is neither a space nor a tab (`lead?`) is of a different kind in
each.
-/

namespace ProseLint.Source.Line
variable {line body indent rest : List Char} {level : Nat} {l : Line} {c : Char} {f : Fence}

def commentStart : List Char := ['<', '!', '-', '-']

def commentEnd : List Char := ['-', '-', '>']

/-- The marks of a comment stand around `body`, and only spaces and tabs around the marks. -/
def Encloses (line body : List Char) : Prop :=
  ∃ u v, (∀ c ∈ u, Text.isIndent c = true) ∧ (∀ c ∈ v, Text.isIndent c = true) ∧
    line = u ++ (commentStart ++ body ++ commentEnd ++ v)

/-- At most three spaces, one to six hashes, and then the end or a space or tab. -/
def Heads (line : List Char) (level : Nat) (rest : List Char) : Prop :=
  1 ≤ level ∧ level ≤ 6 ∧ (∀ c ∈ rest.head?, Text.isIndent c = true) ∧
    ∃ i ≤ 3, line = List.replicate i ' ' ++ (List.replicate level '#' ++ rest)

/-- What an item is marked with. -/
inductive Bullet : List Char → Prop
  | mark {c : Char} (h : c = '-' ∨ c = '*' ∨ c = '+') : Bullet [c]
  | number {ds : List Char} {c : Char} (hne : ds ≠ [])
      (hds : ∀ d ∈ ds, Text.isDecimalDigit d = true) (hc : c = '.' ∨ c = ')') : Bullet (ds ++ [c])

/-- Spaces and tabs, a bullet, a space or tab, and the rest. -/
def Lists (line indent rest : List Char) : Prop :=
  (∀ c ∈ indent, Text.isIndent c = true) ∧
    ∃ bullet c, Bullet bullet ∧ Text.isIndent c = true ∧ line = indent ++ (bullet ++ c :: rest)

/-- The part of a line outside of fences, with the fence that is open below it. -/
inductive Reading (line : List Char) : Line × Option Fence → Prop
  | fence {f : Fence} (h : f.Opens line) : Reading line (.code, some f)
  | blank (h : ∀ c ∈ line, Text.isBlank c = true) : Reading line (.blank, none)
  | marker {body s : List Char} (h : Encloses line body) (hs : Text.trim body = '@' :: s) :
      Reading line (.marker (Text.trim s), none)
  | comment {body : List Char} (h : Encloses line body) (hs : ∀ s, Text.trim body ≠ '@' :: s) :
      Reading line (.comment, none)
  | heading {level : Nat} {rest : List Char} (h : Heads line level rest) :
      Reading line (.heading level (headingText rest), none)
  | item {indent rest : List Char} (h : Lists line indent rest) :
      Reading line
        (.item ((indent.count ' ' + 4 * indent.count '\t') / 2) (Text.trim rest), none)
  | text (hfence : ∀ f : Fence, ¬ f.Opens line) (hblank : ∃ c ∈ line, Text.isBlank c = false)
      (hcomment : ∀ body, ¬ Encloses line body) (hheading : ∀ level rest, ¬ Heads line level rest)
      (hitem : ∀ indent rest, ¬ Lists line indent rest) :
      Reading line (.text (Text.trim line), none)

/-! ### Comments -/

theorem afterCommentStart?_eq_some_iff {s r : List Char} :
    afterCommentStart? s = some r ↔ s = commentStart ++ r := by
  constructor
  · intro h
    unfold afterCommentStart? at h
    split at h <;> cases h
    rfl
  · rintro rfl
    rfl

theorem beforeCommentEnd?_eq_some_iff {s r : List Char} :
    beforeCommentEnd? s = some r ↔ s = r ++ commentEnd := by
  constructor
  · intro h
    unfold beforeCommentEnd? at h
    split at h
    next r' hr' =>
      obtain rfl : r'.reverse = r := Option.some.inj h
      rw [← List.reverse_reverse s, hr']
      simp [commentEnd]
    · cases h
  · rintro rfl
    simp [beforeCommentEnd?, commentEnd]

theorem bare_comment (body : List Char) :
    Text.Bare Text.isIndent (commentStart ++ body ++ commentEnd) :=
  ⟨by simp [commentStart, Text.isIndent], by simp [commentEnd, Text.isIndent]⟩

theorem stripIndent_eq_iff :
    stripIndent line = commentStart ++ body ++ commentEnd ↔ Encloses line body := by
  rw [stripIndent, Text.dropEnds_eq_iff, and_iff_right (bare_comment body)]
  simp only [Encloses, List.append_assoc]

theorem commentBody?_eq_some_iff : commentBody? line = some body ↔ Encloses line body := by
  rw [← stripIndent_eq_iff, commentBody?, Option.bind_eq_some_iff]
  constructor
  · rintro ⟨s, hs, hbody⟩
    rw [afterCommentStart?_eq_some_iff.1 hs, beforeCommentEnd?_eq_some_iff.1 hbody,
      List.append_assoc]
  · intro h
    rw [List.append_assoc] at h
    exact ⟨_, afterCommentStart?_eq_some_iff.2 h, beforeCommentEnd?_eq_some_iff.2 rfl⟩

theorem commentBody?_eq_none_iff : commentBody? line = none ↔ ∀ body, ¬ Encloses line body := by
  simp only [Option.eq_none_iff_forall_ne_some, ne_eq, commentBody?_eq_some_iff]

/-- The marks at both ends do not share a dash. -/
theorem exists_encloses_iff : (∃ body, Encloses line body) ↔
    commentStart <+: stripIndent line ∧ commentEnd <:+ stripIndent line ∧
      7 ≤ (stripIndent line).length := by
  simp only [← stripIndent_eq_iff]
  generalize stripIndent line = s
  constructor
  · rintro ⟨body, rfl⟩
    refine ⟨⟨body ++ commentEnd, by rw [List.append_assoc]⟩, List.suffix_append _ _, ?_⟩
    simp only [List.length_append, commentStart, commentEnd, List.length_cons, List.length_nil]
    omega
  · rintro ⟨⟨r, rfl⟩, hend, hlength⟩
    have hle : commentEnd.length ≤ r.length := by
      simp only [List.length_append, commentStart, List.length_cons, List.length_nil] at hlength
      simp only [commentEnd, List.length_cons, List.length_nil]
      omega
    obtain ⟨body, rfl⟩ := List.suffix_of_suffix_length_le hend (List.suffix_append _ r) hle
    exact ⟨body, by rw [List.append_assoc]⟩

/-! ### Headings -/

theorem heading?_eq_some_iff : heading? line = some l ↔
    ∃ level rest, Heads line level rest ∧ l = heading level (headingText rest) := by
  constructor
  · intro h
    unfold heading? at h
    dsimp only at h
    split at h
    · cases h
    next hnot =>
      split at h
      next hrest =>
        simp only [Bool.or_eq_true, beq_iff_eq, decide_eq_true_eq, not_or] at hnot
        obtain ⟨⟨hindent, hlevel⟩, hsix⟩ := hnot
        obtain ⟨hspaces, -⟩ := Text.eq_replicate_append_iff.2
          ⟨rfl, (rfl : line.dropWhile (· == ' ') = _)⟩
        obtain ⟨hhashes, -⟩ := Text.eq_replicate_append_iff.2
          ⟨rfl, (rfl : (line.dropWhile (· == ' ')).dropWhile (· == '#') = _)⟩
        refine ⟨_, _, ⟨Nat.pos_of_ne_zero hlevel, Nat.le_of_not_lt hsix, ?_, _,
          Nat.le_of_not_lt hindent, ?_⟩, (Option.some.inj h).symm⟩
        · simpa [Option.all_eq_true] using hrest
        · rw [← hhashes]
          exact hspaces
      · cases h
  · rintro ⟨level, rest, ⟨hpos, hsix, hrest, i, hi, rfl⟩, rfl⟩
    have hrest' : rest.head? ≠ some '#' := fun h => absurd (hrest _ h) (by decide)
    obtain ⟨level, rfl⟩ : ∃ n, level = n + 1 := ⟨level - 1, by omega⟩
    have hhash : (List.replicate (level + 1) '#' ++ rest).head? ≠ some ' ' := by
      simp [List.replicate_succ]
    obtain ⟨hindent, hafter⟩ := (Text.eq_replicate_append_iff (n := i)).1 ⟨rfl, hhash⟩
    obtain ⟨hlevel, hlast⟩ := (Text.eq_replicate_append_iff (n := level + 1)).1 ⟨rfl, hrest'⟩
    have hends : rest.head?.all Text.isIndent = true := by simpa [Option.all_eq_true] using hrest
    have hguard : (decide (3 < i) || level + 1 == 0 || decide (6 < level + 1)) = false := by
      simp only [Bool.or_eq_false_iff, decide_eq_false_iff_not, beq_eq_false_iff_ne]
      omega
    simp only [heading?, hindent, hafter, hlevel, hlast, hguard, hends, Bool.false_eq_true,
      if_false, if_true]

theorem heading?_eq_none_iff :
    heading? line = none ↔ ∀ level rest, ¬ Heads line level rest := by
  simp only [Option.eq_none_iff_forall_ne_some, ne_eq, heading?_eq_some_iff]
  constructor
  · intro h level rest hheads
    exact h _ ⟨level, rest, hheads, rfl⟩
  · rintro h _ ⟨level, rest, hheads, -⟩
    exact h level rest hheads

/-! ### Items -/

theorem indentWidth_eq (hindent : ∀ c ∈ indent, Text.isIndent c = true) :
    indentWidth indent = indent.count ' ' + 4 * indent.count '\t' := by
  have hfold : ∀ n, indent.foldl (fun n c => n + if c == '\t' then 4 else 1) n =
      n + (indent.count ' ' + 4 * indent.count '\t') := by
    induction indent with
    | nil => intro n; rfl
    | cons c indent ih =>
      obtain ⟨hc, hrest⟩ := List.forall_mem_cons.1 hindent
      intro n
      rw [List.foldl_cons, ih hrest]
      simp only [Text.isIndent, Bool.or_eq_true, beq_iff_eq] at hc
      rcases hc with rfl | rfl <;> simp <;> omega
  rw [indentWidth, hfold, Nat.zero_add]

theorem Bullet.exists_cons {b : List Char} (h : Bullet b) : ∃ c s, b = c :: s ∧
    Text.isBlank c = false ∧ c ∉ ['\x60', '~', '<', '#'] := by
  cases h with
  | mark h => exact ⟨_, _, rfl, by rcases h with rfl | rfl | rfl <;> decide⟩
  | number hne hds hc =>
    obtain ⟨d, ds, rfl⟩ := List.exists_cons_of_ne_nil hne
    have hd : Text.isDecimalDigit d = true := hds d (List.mem_cons_self ..)
    refine ⟨d, _, rfl, Text.isBlank_of_isDecimalDigit hd, fun hmem => ?_⟩
    have hnone : ['\x60', '~', '<', '#'].any Text.isDecimalDigit = false := by decide
    exact List.any_eq_false.1 hnone d hmem hd

theorem afterBullet?_eq_some_iff {s r : List Char} :
    afterBullet? s = some r ↔ ∃ b, Bullet b ∧ s = b ++ r := by
  constructor
  · intro h
    unfold afterBullet? at h
    split at h
    · cases h
    next c t =>
      split at h
      next hc =>
        cases h
        simp only [Bool.or_eq_true, beq_iff_eq, or_assoc] at hc
        exact ⟨[c], .mark hc, rfl⟩
      · split at h
        next hc =>
          have hds : ∀ d ∈ c :: t.takeWhile Text.isDecimalDigit, Text.isDecimalDigit d = true :=
            List.forall_mem_cons.2 ⟨hc, fun d hd => List.mem_takeWhile_imp hd⟩
          have ht := List.takeWhile_append_dropWhile (p := Text.isDecimalDigit) (l := t)
          split at h
          next e =>
            cases h
            rw [e] at ht
            exact ⟨_, .number (List.cons_ne_nil _ _) hds (.inl rfl), by simp [ht]⟩
          next e =>
            cases h
            rw [e] at ht
            exact ⟨_, .number (List.cons_ne_nil _ _) hds (.inr rfl), by simp [ht]⟩
          · cases h
        · cases h
  · rintro ⟨b, hb, rfl⟩
    cases hb with
    | mark h => rcases h with rfl | rfl | rfl <;> rfl
    | @number ds c hne hds hc =>
      obtain ⟨d, ds, rfl⟩ := List.exists_cons_of_ne_nil hne
      obtain ⟨hd, hds⟩ := List.forall_mem_cons.1 hds
      have hmark : (d == '-' || d == '*' || d == '+') = false := by
        simp only [Bool.or_eq_false_iff, beq_eq_false_iff_ne]
        refine ⟨⟨?_, ?_⟩, ?_⟩ <;> rintro rfl <;> exact absurd hd (by decide)
      have hstop : (ds ++ c :: r).dropWhile Text.isDecimalDigit = c :: r := by
        rw [List.dropWhile_append_of_pos hds]
        refine List.dropWhile_cons_of_neg ?_
        rcases hc with rfl | rfl <;> decide
      have hs : d :: ds ++ [c] ++ r = d :: (ds ++ c :: r) := by simp
      rw [hs, afterBullet?]
      simp only [hmark, hd, hstop, Bool.false_eq_true, if_false, if_true]
      rcases hc with rfl | rfl <;> rfl

theorem item?_eq_some_iff : item? line = some l ↔
    ∃ indent rest, Lists line indent rest ∧
      l = item ((indent.count ' ' + 4 * indent.count '\t') / 2) (Text.trim rest) := by
  constructor
  · intro h
    unfold item? at h
    split at h
    next c r hbullet =>
      split at h
      next hc =>
        obtain ⟨b, hb, hline⟩ := afterBullet?_eq_some_iff.1 hbullet
        have hindent : ∀ c ∈ line.takeWhile Text.isIndent, Text.isIndent c = true :=
          fun c hc => List.mem_takeWhile_imp hc
        refine ⟨line.takeWhile Text.isIndent, r, ⟨hindent, b, c, hb, hc, ?_⟩, ?_⟩
        · rw [← hline, List.takeWhile_append_dropWhile]
        · rw [← indentWidth_eq hindent]
          exact (Option.some.inj h).symm
      · cases h
    · cases h
  · rintro ⟨indent, rest, ⟨hindent, b, c, hb, hc, rfl⟩, rfl⟩
    obtain ⟨a, s, rfl, hblank, -⟩ := hb.exists_cons
    have ha : ¬ Text.isIndent a = true := by simp [Text.isIndent_eq_false hblank]
    have hdrop : (indent ++ (a :: s ++ c :: rest)).dropWhile Text.isIndent =
        a :: s ++ c :: rest := by
      rw [List.dropWhile_append_of_pos hindent]
      exact List.dropWhile_cons_of_neg ha
    have htake : (indent ++ (a :: s ++ c :: rest)).takeWhile Text.isIndent = indent := by
      rw [List.takeWhile_append_of_pos hindent, List.cons_append, List.takeWhile_cons_of_neg ha,
        List.append_nil]
    rw [item?, hdrop, htake, afterBullet?_eq_some_iff.2 ⟨_, hb, rfl⟩, indentWidth_eq hindent]
    simp only [hc, if_true]

theorem item?_eq_none_iff : item? line = none ↔ ∀ indent rest, ¬ Lists line indent rest := by
  simp only [Option.eq_none_iff_forall_ne_some, ne_eq, item?_eq_some_iff]
  constructor
  · intro h indent rest hlists
    exact h _ ⟨indent, rest, hlists, rfl⟩
  · rintro h _ ⟨indent, rest, hlists, -⟩
    exact h indent rest hlists

/-! ### The productions exclude each other -/

/-- The first character that is neither a space nor a tab. -/
def lead? (line : List Char) : Option Char :=
  line.find? (!Text.isIndent ·)

theorem lead?_append (hindent : ∀ c ∈ indent, Text.isIndent c = true)
    (hc : Text.isIndent c = false) : lead? (indent ++ c :: rest) = some c := by
  have hnone : indent.find? (!Text.isIndent ·) = none := by simpa using hindent
  rw [lead?, List.find?_append, hnone]
  simp [hc]

theorem opening?_eq_none_iff : Fence.opening? line = none ↔ ∀ f : Fence, ¬ f.Opens line := by
  simp only [Option.eq_none_iff_forall_ne_some, ne_eq, Fence.opening?_eq_some_iff]

theorem isIndent_of_mem_replicate (i : Nat) :
    ∀ c ∈ List.replicate i ' ', Text.isIndent c = true := by
  intro c hc
  rw [List.eq_of_mem_replicate hc]
  rfl

theorem lead?_of_opens (h : f.Opens line) :
    lead? line = some f.mark ∧ (f.mark = '\x60' ∨ f.mark = '~') := by
  obtain ⟨info, ⟨hmark, hlength, i, -, rfl⟩, -⟩ := h
  obtain ⟨n, hn⟩ : ∃ n, f.length = n + 1 := ⟨f.length - 1, by omega⟩
  refine ⟨?_, hmark⟩
  rw [hn, List.replicate_succ, List.cons_append]
  refine lead?_append (isIndent_of_mem_replicate i) ?_
  rcases hmark with h | h <;> rw [h] <;> rfl

theorem lead?_of_encloses (h : Encloses line body) : lead? line = some '<' := by
  obtain ⟨u, v, hu, -, rfl⟩ := h
  exact lead?_append hu rfl

theorem lead?_of_heads (h : Heads line level rest) : lead? line = some '#' := by
  obtain ⟨hpos, -, -, i, -, rfl⟩ := h
  obtain ⟨n, rfl⟩ : ∃ n, level = n + 1 := ⟨level - 1, by omega⟩
  rw [List.replicate_succ, List.cons_append]
  exact lead?_append (isIndent_of_mem_replicate i) rfl

theorem lead?_of_lists (h : Lists line indent rest) : ∃ c, lead? line = some c ∧
    Text.isBlank c = false ∧ c ∉ ['\x60', '~', '<', '#'] := by
  obtain ⟨hindent, b, c, hb, -, rfl⟩ := h
  obtain ⟨a, s, rfl, hblank, ha⟩ := hb.exists_cons
  exact ⟨a, lead?_append hindent (Text.isIndent_eq_false hblank), hblank, ha⟩

section
variable (h : lead? line = some c)
include h

theorem opening?_eq_none (hc : c ∉ ['\x60', '~']) : Fence.opening? line = none := by
  refine opening?_eq_none_iff.2 fun f hf => ?_
  obtain ⟨hlead, hmark⟩ := lead?_of_opens hf
  obtain rfl : c = f.mark := Option.some.inj (h.symm.trans hlead)
  exact hc (by simpa using hmark)

theorem isBlankText_eq_false (hc : Text.isBlank c = false) : Text.isBlankText line = false :=
  List.all_eq_false.2 ⟨c, List.mem_of_find?_eq_some h, by simp [hc]⟩

theorem commentBody?_eq_none (hc : c ≠ '<') : commentBody? line = none :=
  commentBody?_eq_none_iff.2 fun _ hbody =>
    hc (Option.some.inj (h.symm.trans (lead?_of_encloses hbody)))

theorem heading?_eq_none (hc : c ≠ '#') : heading? line = none :=
  heading?_eq_none_iff.2 fun _ _ hheads =>
    hc (Option.some.inj (h.symm.trans (lead?_of_heads hheads)))

end

/-! ### Reading by the grammar -/

theorem ofComment_eq_marker {s : List Char} (h : Text.trim body = '@' :: s) :
    ofComment body = marker (Text.trim s) := by
  simp only [ofComment, h]

theorem ofComment_eq_comment (h : ∀ s, Text.trim body ≠ '@' :: s) : ofComment body = comment := by
  unfold ofComment
  split
  next s hs => exact absurd hs (h s)
  · rfl

theorem ofComment_of_trimStart {s : List Char} (h : Text.trimStart body = '@' :: s) :
    ofComment body = marker (Text.trim s) := by
  have htrim : Text.trim body = '@' :: Text.trimEnd s := by
    rw [Text.trim, h]
    exact Text.dropEndWhile_cons (by decide) s
  rw [ofComment_eq_marker htrim, Text.trim_trimEnd]

theorem ofComment_of_trimStart_ne (h : ∀ s, Text.trimStart body ≠ '@' :: s) :
    ofComment body = comment := by
  refine ofComment_eq_comment fun s hs => ?_
  obtain ⟨v, -, hv⟩ := Text.exists_dropEndWhile_append Text.isBlank (Text.trimStart body)
  exact h (s ++ v) (hv.trans (congrArg (· ++ v) hs))

theorem reading_read (line : List Char) : Reading line (read none line) := by
  unfold read
  dsimp only
  split
  next f hf => exact .fence (Fence.opening?_eq_some_iff.1 hf)
  next hfence =>
    unfold classify
    split
    next hblank => exact .blank (List.all_eq_true.1 hblank)
    next hblank =>
      split
      next body hbody =>
        have hbody := commentBody?_eq_some_iff.1 hbody
        by_cases hs : ∃ s, Text.trim body = '@' :: s
        · obtain ⟨s, hs⟩ := hs
          rw [ofComment_eq_marker hs]
          exact .marker hbody hs
        · have hs : ∀ s, Text.trim body ≠ '@' :: s := fun s h => hs ⟨s, h⟩
          rw [ofComment_eq_comment hs]
          exact .comment hbody hs
      next hcomment =>
        cases hh : heading? line with
        | some l =>
          obtain ⟨level, rest, hheads, rfl⟩ := heading?_eq_some_iff.1 hh
          exact .heading hheads
        | none =>
          cases hi : item? line with
          | some l =>
            obtain ⟨indent, rest, hlists, rfl⟩ := item?_eq_some_iff.1 hi
            exact .item hlists
          | none =>
            exact .text (opening?_eq_none_iff.1 hfence) (by simpa [Text.isBlankText] using hblank)
              (commentBody?_eq_none_iff.1 hcomment) (heading?_eq_none_iff.1 hh)
              (item?_eq_none_iff.1 hi)

theorem read_of_lead? (h : lead? line = some c) (hc : c ∉ ['\x60', '~'])
    (hblank : Text.isBlank c = false) :
    read none line = ((commentBody? line).elim
      ((heading? line).getD ((item? line).getD (text (Text.trim line)))) ofComment, none) := by
  rw [read, opening?_eq_none h hc, classify, isBlankText_eq_false h hblank]
  cases commentBody? line <;> rfl

theorem read_of_encloses (h : Encloses line body) : read none line = (ofComment body, none) := by
  rw [read_of_lead? (lead?_of_encloses h) (by decide) (by decide), commentBody?_eq_some_iff.2 h]
  rfl

theorem Reading.read_eq {x : Line × Option Fence} (h : Reading line x) :
    Line.read none line = x := by
  cases h with
  | fence h => exact read_of_opens h
  | blank h =>
    have hfence : Fence.opening? line = none := by
      refine opening?_eq_none_iff.2 fun f hf => ?_
      obtain ⟨hlead, hmark⟩ := lead?_of_opens hf
      have hblank := h _ (List.mem_of_find?_eq_some hlead)
      rcases hmark with hmark | hmark <;> rw [hmark] at hblank <;> cases hblank
    rw [Line.read, hfence, classify, Text.isBlankText, List.all_eq_true.2 h, if_pos rfl]
  | marker h hs => rw [read_of_encloses h, ofComment_eq_marker hs]
  | comment h hs => rw [read_of_encloses h, ofComment_eq_comment hs]
  | heading h =>
    have hlead := lead?_of_heads h
    rw [read_of_lead? hlead (by decide) (by decide), commentBody?_eq_none hlead (by decide),
      heading?_eq_some_iff.2 ⟨_, _, h, rfl⟩]
    rfl
  | item h =>
    obtain ⟨c, hlead, hblank, hc⟩ := lead?_of_lists h
    simp only [List.mem_cons, List.not_mem_nil, or_false, not_or] at hc
    obtain ⟨htick, htilde, hcomment, hheading⟩ := hc
    rw [read_of_lead? hlead (by simp [htick, htilde]) hblank, commentBody?_eq_none hlead hcomment,
      heading?_eq_none hlead hheading, item?_eq_some_iff.2 ⟨_, _, h, rfl⟩]
    rfl
  | text hfence hblank hcomment hheading hitem =>
    have hblank : Text.isBlankText line = false := by simpa [Text.isBlankText] using hblank
    rw [Line.read, opening?_eq_none_iff.2 hfence, classify, hblank,
      commentBody?_eq_none_iff.2 hcomment, heading?_eq_none_iff.2 hheading,
      item?_eq_none_iff.2 hitem]
    rfl

/-- Outside of fences a line plays the part that the grammar gives it, and there is one for each
line. Comments are the lines that start and end with the marks of a comment once spaces and tabs
are stripped, and that are long enough for both. -/
theorem read_none_eq_iff (line : List Char) :
    (∀ x, read none line = x ↔ Reading line x) ∧
      ((∃ body, Encloses line body) ↔ commentStart <+: stripIndent line ∧
        commentEnd <:+ stripIndent line ∧ 7 ≤ (stripIndent line).length) := by
  refine ⟨fun x => ⟨?_, Reading.read_eq⟩, exists_encloses_iff⟩
  rintro rfl
  exact reading_read line

/-- Digits of any script number an item, and a tab is as wide as four spaces. -/
example : read none "\t\u0663) Three.".toList = (.item 2 "Three.".toList, none) := by decide +kernel

end ProseLint.Source.Line
