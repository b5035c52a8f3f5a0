import ProseLint.Section

/-!
# Walking over sections

A walk visits the sections of a forest one at a time and keeps those that are still to come. It
visits every section before its subsections and these before the sections that follow.
-/

namespace ProseLint

/-- The sections that are still to be visited with all below them, the next one first. -/
structure Walk where
  pending : List Section

namespace Walk

theorem sizeOf_append (ss ts : List Section) :
    sizeOf (ss ++ ts) + 1 = sizeOf ss + sizeOf ts := by
  induction ss with
  | nil => simp; omega
  | cons s ss ih => simp only [List.cons_append, List.cons.sizeOf_spec]; omega

/-- The next section, and the walk after it. -/
def next? : Walk → Option (Section × Walk)
  | ⟨[]⟩ => none
  | ⟨s :: ss⟩ => some (s, ⟨s.subsections ++ ss⟩)

theorem next?_eq_none_iff {w : Walk} : w.next? = none ↔ w.pending = [] := by
  obtain ⟨_ | ⟨s, ss⟩⟩ := w <;> simp [next?]

theorem next?_eq_some_iff {w w' : Walk} {s : Section} :
    w.next? = some (s, w') ↔ ∃ ss, w.pending = s :: ss ∧ w'.pending = s.subsections ++ ss := by
  obtain ⟨_ | ⟨t, ts⟩⟩ := w
  · simp [next?]
  · obtain ⟨us⟩ := w'
    simp only [next?, Option.some.injEq, Prod.mk.injEq, mk.injEq, List.cons.injEq]
    constructor
    · rintro ⟨rfl, rfl⟩
      exact ⟨ts, ⟨rfl, rfl⟩, rfl⟩
    · rintro ⟨ss, ⟨rfl, rfl⟩, rfl⟩
      exact ⟨rfl, rfl⟩

theorem sizeOf_next? {w w' : Walk} {s : Section} (h : w.next? = some (s, w')) :
    sizeOf w'.pending < sizeOf w.pending := by
  obtain ⟨ss, hw, hw'⟩ := next?_eq_some_iff.1 h
  have := sizeOf_append s.subsections ss
  have : sizeOf s.subsections < sizeOf s := by
    cases s; simp only [Section.mk.sizeOf_spec]; omega
  rw [hw, hw', List.cons.sizeOf_spec]
  omega

/-- All sections that the walk visits, in order. -/
def toList (w : Walk) : List Section :=
  match _h : w.next? with
  | none => []
  | some (s, w') => s :: w'.toList
termination_by sizeOf w.pending
decreasing_by exact sizeOf_next? _h

theorem toList_of_next?_eq_none {w : Walk} (h : w.next? = none) : w.toList = [] := by
  rw [toList]
  split
  · rfl
  · simp_all

theorem toList_of_next? {w w' : Walk} {s : Section} (h : w.next? = some (s, w')) :
    w.toList = s :: w'.toList := by
  rw [toList]
  split <;> simp_all

end Walk

end ProseLint
