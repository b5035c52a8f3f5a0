import ProseLint.Proofs.Document

/-!
# Walking over a document

A walk keeps a stack of sections: a visit takes the top off and puts its subsections there, the
first of them on top. Read from the top, the stack is a forest whose pre-order is all that the walk
has still to visit (`Walk.Visits.remaining_eq`), so it ends after one visit to each section.

Equal sections may stand in several places, so a place is known by its address. Pre-order goes
through the addresses of a forest once each, a section before all below it and all below a section
before the next one at its side (`Section.Places`).
-/

namespace ProseLint

/-! ### The stack -/

namespace Walk
variable {w w' w'' : Walk} {s : Section} {ss : List Section}

/-- The pending sections as a stack that grows at its end. -/
def stack (w : Walk) : List Section :=
  w.pending.reverse

theorem stack_eq_nil_iff : w.stack = [] ↔ w.next? = none := by
  rw [stack, List.reverse_eq_nil_iff, next?_eq_none_iff]

/-- A visit takes the top and pushes its subsections from the last to the first. -/
theorem stack_of_next? (h : w.next? = some (s, w')) :
    ∃ below, w.stack = below ++ [s] ∧ w'.stack = below ++ s.subsections.reverse := by
  obtain ⟨ss, hw, hw'⟩ := next?_eq_some_iff.1 h
  refine ⟨ss.reverse, ?_, ?_⟩
  · rw [stack, hw, List.reverse_cons]
  · rw [stack, hw', List.reverse_append]

/-- The pre-order of the stack read from the top. -/
def remaining (w : Walk) : List Section :=
  Section.preorders w.stack.reverse

theorem remaining_mk (ss : List Section) : (mk ss).remaining = Section.preorders ss := by
  rw [remaining, stack, List.reverse_reverse]

theorem remaining_of_next? (h : w.next? = some (s, w')) : w.remaining = s :: w'.remaining := by
  obtain ⟨below, htop, hpushed⟩ := stack_of_next? h
  rw [remaining, remaining, htop, hpushed, List.reverse_concat, List.reverse_append,
    List.reverse_reverse, Section.preorders_cons]

theorem remaining_eq_nil_iff : w.remaining = [] ↔ w.next? = none := by
  cases h : w.next? with
  | none =>
    rw [remaining, stack_eq_nil_iff.2 h]
    simp [Section.preorders]
  | some v => simp [remaining_of_next? h]

/-! ### Runs -/

/-- From `w` the walk visits the sections of the list one by one and comes to `w'`. -/
inductive Visits : Walk → List Section → Walk → Prop
  | stay (w : Walk) : Visits w [] w
  | visit {w w' w'' : Walk} {s : Section} {ss : List Section} :
      w.next? = some (s, w') → Visits w' ss w'' → Visits w (s :: ss) w''

theorem Visits.remaining_eq (h : w.Visits ss w') : w.remaining = ss ++ w'.remaining := by
  induction h with
  | stay w => rfl
  | visit hnext _ ih => rw [remaining_of_next? hnext, ih, List.cons_append]

/-- The walk has ended iff the visits made are all that there were to make. -/
theorem Visits.ended_iff (h : w.Visits ss w') : w'.next? = none ↔ ss = w.remaining := by
  rw [← remaining_eq_nil_iff, h.remaining_eq, List.self_eq_append_right]

/-- The walk comes to an end, as each visit makes what is pending smaller. -/
theorem exists_visits_remaining (w : Walk) : ∃ w', w.Visits w.remaining w' ∧ w'.next? = none := by
  induction w using Walk.toList.induct with
  | case1 w h =>
    rw [remaining_eq_nil_iff.2 h]
    exact ⟨w, .stay w, h⟩
  | case2 w s w' h ih =>
    obtain ⟨w'', hvisits, hend⟩ := ih
    rw [remaining_of_next? h]
    exact ⟨w'', .visit h hvisits, hend⟩

end Walk

/-! ### Addresses -/

/-- Where a section stands in a forest: the index of its tree, then at each level down to it the
index of the subsection. -/
abbrev Address := List Nat

namespace Address
variable {a b : Address}

/-- A section is before all below it, and all at or below a section is before all at or below one
further on at its side. -/
inductive Before : Address → Address → Prop
  | below (a : Address) (i : Nat) (b : Address) : Before a (a ++ i :: b)
  | beside (a : Address) {i j : Nat} (h : i < j) (b c : Address) :
      Before (a ++ i :: b) (a ++ j :: c)

theorem Before.lt (h : a.Before b) : a < b := by
  cases h with
  | below a i b => simpa using List.append_left_lt (List.nil_lt_cons i b)
  | beside a h b c => exact List.append_left_lt (List.cons_lt_cons_iff.2 (.inl h))

theorem Before.ne (h : a.Before b) : a ≠ b := by
  rintro rfl
  exact List.lt_irrefl a h.lt

theorem Before.asymm (h : a.Before b) : ¬ b.Before a :=
  fun h' => List.lt_asymm h.lt h'.lt

theorem Before.cons (i : Nat) (h : a.Before b) : Before (i :: a) (i :: b) := by
  cases h with
  | below a j b => exact .below (i :: a) j b
  | beside a h b c => exact .beside (i :: a) h b c

theorem before_append (a : Address) (hb : b ≠ []) : Before a (a ++ b) := by
  obtain ⟨i, b, rfl⟩ := List.exists_cons_of_ne_nil hb
  exact .below a i b

/-- Where a section stands after a tree is put in front of its forest. -/
def next : Address → Address
  | [] => []
  | i :: a => (i + 1) :: a

theorem Before.map_next (h : a.Before b) : a.next.Before b.next := by
  cases h with
  | below a j b =>
    cases a with
    | nil => exact .below [] (j + 1) b
    | cons i a => exact .below ((i + 1) :: a) j b
  | beside a h b c =>
    cases a with
    | nil => exact .beside [] (Nat.succ_lt_succ h) b c
    | cons i a => exact .beside ((i + 1) :: a) h b c

theorem before_next (a : Address) (hb : b ≠ []) : Before (0 :: a) b.next := by
  obtain ⟨i, b, rfl⟩ := List.exists_cons_of_ne_nil hb
  exact .beside [] (Nat.succ_pos i) a b

/-- In a list in this order the one of two addresses that comes first is before the other. -/
theorem lt_iff_before {as : List Address} (h : as.Pairwise Before) (k l : Fin as.length) :
    k < l ↔ as[k].Before as[l] := by
  have hbefore : ∀ k l : Fin as.length, k < l → as[k].Before as[l] := fun k l hlt =>
    List.pairwise_iff_getElem.1 h k l k.2 l.2 hlt
  refine ⟨hbefore k l, fun hkl => ?_⟩
  rcases Nat.lt_trichotomy k l with hlt | heq | hgt
  · exact hlt
  · obtain rfl := Fin.ext heq
    exact absurd rfl hkl.ne
  · exact absurd (hbefore l k hgt) hkl.asymm

end Address

/-! ### Places -/

namespace Section
variable {s : Section} {forest ss ts : List Section} {as bs : List Address} {a : Address}

/-- The section of the forest at the address. -/
def at? (forest : List Section) : Address → Option Section
  | [] => none
  | [i] => forest[i]?
  | i :: j :: a => forest[i]?.bind fun s => at? s.subsections (j :: a)

theorem at?_zero (s : Section) (ss : List Section) (ha : a ≠ []) :
    at? (s :: ss) (0 :: a) = at? s.subsections a := by
  obtain ⟨i, a, rfl⟩ := List.exists_cons_of_ne_nil ha
  rfl

theorem at?_next (s : Section) (ss : List Section) (a : Address) :
    at? (s :: ss) a.next = at? ss a := by
  match a with
  | [] | [_] | _ :: _ :: _ => rfl

/-- The sections `ss` are those of the forest, each once, in the order of the addresses `as` at
which they stand. -/
structure Places (forest : List Section) (as : List Address) (ss : List Section) : Prop where
  /-- Each section stands at its address. -/
  stand : as.map (at? forest) = ss.map some
  /-- No section of the forest is left out. -/
  all : ∀ a, (at? forest a).isSome → a ∈ as
  ordered : as.Pairwise Address.Before

namespace Places

theorem mem_iff (h : Places forest as ss) : a ∈ as ↔ (at? forest a).isSome := by
  refine ⟨fun ha => ?_, h.all a⟩
  have hmem : at? forest a ∈ ss.map some := h.stand ▸ List.mem_map_of_mem ha
  obtain ⟨s, -, hs⟩ := List.mem_map.1 hmem
  rw [← hs, Option.isSome_some]

theorem ne_nil (h : Places forest as ss) (ha : a ∈ as) : a ≠ [] := by
  rintro rfl
  exact absurd (h.mem_iff.1 ha) (by simp [at?])

theorem nil : Places [] [] [] where
  stand := rfl
  all a ha := by
    match a with
    | [] | [_] | _ :: _ :: _ => simp [at?] at ha
  ordered := .nil

/-- A tree in front of a forest: its root, then all below it, then the forest. -/
theorem cons (hs : Places s.subsections bs ts) (h : Places forest as ss) :
    Places (s :: forest) ([0] :: bs.map (0 :: ·) ++ as.map Address.next) (s :: ts ++ ss) where
  stand := by
    have hbelow : bs.map (fun b => at? (s :: forest) (0 :: b)) = ts.map some := by
      rw [← hs.stand]
      exact List.map_congr_left fun b hb => at?_zero s forest (hs.ne_nil hb)
    have hbeside : as.map (fun a => at? (s :: forest) a.next) = ss.map some := by
      rw [← h.stand]
      exact List.map_congr_left fun a _ => at?_next s forest a
    rw [List.map_append, List.map_cons, List.map_map, List.map_map, List.map_append, List.map_cons]
    exact congrArg₂ (fun us vs => some s :: us ++ vs) hbelow hbeside
  all a ha := by
    match a with
    | [] => simp [at?] at ha
    | [0] => simp
    | 0 :: i :: b =>
      have hb : i :: b ∈ bs := hs.all _ ha
      simp [hb]
    | (i + 1) :: b =>
      have hb : i :: b ∈ as := h.all _ (at?_next s forest (i :: b) ▸ ha)
      exact List.mem_append_right _ (List.mem_map_of_mem hb)
  ordered := by
    have hroot : ∀ b ∈ bs.map (0 :: ·), Address.Before [0] b := by
      intro _ hmem
      obtain ⟨b, hb, rfl⟩ := List.mem_map.1 hmem
      exact Address.before_append [0] (hs.ne_nil hb)
    have hbelow : (bs.map (0 :: ·)).Pairwise Address.Before :=
      List.pairwise_map.2 (hs.ordered.imp (Address.Before.cons 0))
    have hbeside : (as.map Address.next).Pairwise Address.Before :=
      List.pairwise_map.2 (h.ordered.imp Address.Before.map_next)
    refine List.pairwise_append.2 ⟨List.pairwise_cons.2 ⟨hroot, hbelow⟩, hbeside, ?_⟩
    intro b hb _ hmem
    obtain ⟨c, hc, rfl⟩ := List.mem_map.1 hmem
    -- the root, like all below it, has an address that starts with 0
    obtain ⟨b, rfl⟩ : ∃ b', b = 0 :: b' := by
      rcases List.mem_cons.1 hb with rfl | hb
      · exact ⟨[], rfl⟩
      · obtain ⟨b', -, rfl⟩ := List.mem_map.1 hb
        exact ⟨b', rfl⟩
    exact Address.before_next b (h.ne_nil hc)

end Places

theorem exists_places : ∀ forest, ∃ as, Places forest as (preorders forest)
  | [] => ⟨[], .nil⟩
  | ⟨p, subs⟩ :: ss => by
    obtain ⟨bs, hbs⟩ := exists_places subs
    obtain ⟨as, has⟩ := exists_places ss
    exact ⟨_, .cons hbs has⟩

end Section

/-! ### The document -/

/-- The walk over a document ends, having visited the sections in pre-order. At every moment of it
the visits made and the pre-order of the stack, read from the top, make up that pre-order, so there
are as many visits as sections. Each place of the document is visited once, and of two places the
one that is above the other, or on the branch further to the front, is visited first. -/
theorem Document.walk_preorder (d : Document) :
    d.sections = Section.preorders d.topSections ∧
      (∃ w, (Walk.mk d.topSections).Visits d.sections w ∧ w.next? = none) ∧
      (∀ ss w, (Walk.mk d.topSections).Visits ss w →
        d.sections = ss ++ Section.preorders w.stack.reverse ∧
          (w.next? = none ↔ ss = d.sections)) ∧
      ∃ as : List Address,
        as.map (Section.at? d.topSections) = d.sections.map some ∧ as.Nodup ∧
          (∀ a, a ∈ as ↔ (Section.at? d.topSections a).isSome) ∧
          ∀ k l : Fin as.length, k < l ↔ as[k].Before as[l] := by
  have hremaining : (Walk.mk d.topSections).remaining = d.sections := by
    rw [Walk.remaining_mk, sections_eq]
  obtain ⟨as, has⟩ := Section.exists_places d.topSections
  rw [← sections_eq] at has
  refine ⟨sections_eq, ?_, fun ss w h => ?_, as, has.stand, ?_, fun a => has.mem_iff, ?_⟩
  · rw [← hremaining]
    exact Walk.exists_visits_remaining _
  · rw [← hremaining]
    exact ⟨h.remaining_eq, h.ended_iff⟩
  · exact has.ordered.imp Address.Before.ne
  · exact Address.lt_iff_before has.ordered

/-- A section that stands in two places is visited at both. -/
example :
    let leaf : Section := ⟨{ level := 3 }, []⟩
    let tree : Section := ⟨{ level := 2 }, [leaf, leaf]⟩
    (Document.mk [tree, leaf]).sections.map (·.own.level) = [2, 3, 3, 3] := by
  decide +kernel

end ProseLint
