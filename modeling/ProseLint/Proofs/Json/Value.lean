import ProseLint.Proofs.Json.Token

/-!
# A value is read back from its compact form

The tokens of a value are read back from what is written, and the value from its tokens. Only a text
that has lost its content is not written as it was read.
-/

namespace ProseLint.Json

open Token

/-! ### The tokens of the compact form -/

/-- The tokens are read back when they are written one after the other. -/
def Readable (ts : List Token) : Prop :=
  Reads (ts.flatMap write) ts

/-- No number stands at the start. -/
def StartsFree (ts : List Token) : Prop :=
  ∀ t ∈ ts.head?, t.isNumber = false

theorem StartsFree.nil : StartsFree [] := by
  intro t ht
  cases ht

theorem StartsFree.cons {t : Token} (h : t.isNumber = false) (ts : List Token) :
    StartsFree (t :: ts) := by
  intro u hu
  obtain rfl := Option.some.inj hu
  exact h

theorem StartsFree.stops {ts : List Token} (h : StartsFree ts) : Stops (ts.flatMap write) := by
  cases ts with
  | nil => exact .nil
  | cons t ts =>
    obtain ⟨c, cs, hc, -⟩ := exists_write_eq_cons t
    have hs := stops_write (h t rfl)
    rw [List.flatMap_cons]
    rw [hc] at hs ⊢
    exact hs

namespace Readable
variable {ts ts' : List Token} {t : Token}

theorem append (h : Readable ts) (h' : Readable ts') (hs : StartsFree ts') :
    Readable (ts ++ ts') := by
  rw [Readable, List.flatMap_append]
  exact Reads.append h h' hs.stops

theorem token (ht : t ≠ .text none) : Readable [t] := by
  rw [Readable, List.flatMap_singleton]
  exact Reads.token ht

theorem cons (ht : t ≠ .text none) (hn : t.isNumber = false) (h : Readable ts) :
    Readable (t :: ts) := by
  rw [Readable, List.flatMap_cons]
  exact Reads.cons ht hn h

end Readable

theorem startsFree_moreItems (js : List Json) : StartsFree (moreItems js) := by
  cases js with
  | nil => exact .nil
  | cons j js => exact .cons rfl _

theorem startsFree_moreMembers (ms : List (Option String × Json)) :
    StartsFree (moreMembers ms) := by
  cases ms with
  | nil => exact .nil
  | cons m ms => exact .cons rfl _

mutual

theorem readable_tokens (j : Json) (h : .text none ∉ j.tokens) : Readable j.tokens := by
  match j with
  | null => exact .token nofun
  | bool b => exact .token nofun
  | natural n => exact .token nofun
  | decimal => exact .token nofun
  | text c => exact .token fun hc => h (by simpa [tokens] using hc.symm)
  | array [] => exact .cons nofun rfl (.token nofun)
  | array (j :: js) =>
    have hj := readable_tokens j fun hm => h (by simp [tokens, hm])
    have hjs := readable_moreItems js fun hm => h (by simp [tokens, hm])
    have hitems := hj.append hjs (startsFree_moreItems js)
    have hclosed : Readable (j.tokens ++ moreItems js ++ [.endArray]) :=
      hitems.append (.token nofun) (.cons rfl _)
    exact .cons nofun rfl hclosed
  | object [] => exact .cons nofun rfl (.token nofun)
  | object ((k, j) :: ms) =>
    have hk : Token.text k ≠ .text none := fun hk => h (by simp [tokens, hk])
    have hj := readable_tokens j fun hm => h (by simp [tokens, hm])
    have hms := readable_moreMembers ms fun hm => h (by simp [tokens, hm])
    have hvalues := hj.append hms (startsFree_moreMembers ms)
    have hclosed : Readable (j.tokens ++ moreMembers ms ++ [.endObject]) :=
      hvalues.append (.token nofun) (.cons rfl _)
    exact .cons nofun rfl (.cons hk rfl (.cons nofun rfl hclosed))

theorem readable_moreItems (js : List Json) (h : .text none ∉ moreItems js) :
    Readable (moreItems js) := by
  match js with
  | [] => exact Reads.nil
  | j :: js =>
    have hj := readable_tokens j fun hm => h (by simp [moreItems, hm])
    have hjs := readable_moreItems js fun hm => h (by simp [moreItems, hm])
    exact .cons nofun rfl (hj.append hjs (startsFree_moreItems js))

theorem readable_moreMembers (ms : List (Option String × Json)) (h : .text none ∉ moreMembers ms) :
    Readable (moreMembers ms) := by
  match ms with
  | [] => exact Reads.nil
  | (k, j) :: ms =>
    have hk : Token.text k ≠ .text none := fun hk => h (by simp [moreMembers, hk])
    have hj := readable_tokens j fun hm => h (by simp [moreMembers, hm])
    have hms := readable_moreMembers ms fun hm => h (by simp [moreMembers, hm])
    have hvalues := hj.append hms (startsFree_moreMembers ms)
    exact .cons nofun rfl (.cons hk rfl (.cons nofun rfl hvalues))

end

theorem text_none_not_mem_moreItems {js : List Json}
    (h : ∀ j ∈ js, .text none ∉ j.tokens) : .text none ∉ moreItems js := by
  induction js with
  | nil => exact List.not_mem_nil
  | cons j js ih =>
    obtain ⟨hj, hjs⟩ := List.forall_mem_cons.1 h
    simp [moreItems, hj, ih hjs]

theorem text_none_not_mem_array {js : List Json} (h : ∀ j ∈ js, .text none ∉ j.tokens) :
    .text none ∉ (array js).tokens := by
  cases js with
  | nil => simp [tokens]
  | cons j js =>
    obtain ⟨hj, hjs⟩ := List.forall_mem_cons.1 h
    simp [tokens, hj, text_none_not_mem_moreItems hjs]

/-! ### The value of the tokens -/

theorem exists_tokens_eq_cons (j : Json) :
    ∃ t ts, j.tokens = t :: ts ∧ t ≠ .endArray := by
  match j with
  | null | bool _ | natural _ | decimal | text _ | array [] | array (_ :: _) | object []
  | object ((_, _) :: _) => exact ⟨_, _, rfl, nofun⟩

theorem value?_beginArray (n : Nat) {ts : List Token} (h : ∀ ts', ts ≠ .endArray :: ts') :
    value? (n + 1) (.beginArray :: ts) = (items? n ts).map fun (js, ts) => (array js, ts) := by
  rw [value?]
  exact fun ts' => h ts'

theorem value?_beginObject (n : Nat) (k : Option String) (ts : List Token) :
    value? (n + 1) (.beginObject :: .text k :: ts) =
      (members? n (.text k :: ts)).map fun (ms, ts) => (object ms, ts) := by
  rw [value?]
  nofun

/-- The value is read from its tokens, in no more steps than these are. -/
def Found (j : Json) : Prop :=
  ∀ n rest, j.tokens.length ≤ n → value? n (j.tokens ++ rest) = some (j, rest)

mutual

theorem found (j : Json) : Found j := by
  intro n rest hn
  obtain ⟨n, rfl⟩ : ∃ k, n = k + 1 := by
    obtain ⟨t, ts, ht, -⟩ := exists_tokens_eq_cons j
    rw [ht, List.length_cons] at hn
    exact Nat.exists_eq_add_one.2 (by omega)
  match j with
  | null => rfl
  | bool b => rfl
  | natural k => rfl
  | decimal => rfl
  | text c => rfl
  | array [] => rfl
  | array (j :: js) =>
    obtain ⟨t, ts, ht, hend⟩ := exists_tokens_eq_cons j
    simp only [tokens, List.length_cons, List.length_append, List.length_nil] at hn
    have hjs := items?_moreItems js (found j) n rest (by rw [List.length_append]; omega)
    have hstart : ∀ ts', j.tokens ++ (moreItems js ++ .endArray :: rest) ≠ .endArray :: ts' := by
      intro ts' h
      rw [ht] at h
      exact hend (List.cons.inj h).1
    simp only [tokens, List.cons_append, List.append_assoc, List.nil_append,
      value?_beginArray n hstart, hjs, Option.map_some]
  | object [] => rfl
  | object ((k, j) :: ms) =>
    simp only [tokens, List.length_cons, List.length_append, List.length_nil] at hn
    have hms := members?_moreMembers ms (k := k) (found j) n rest (by rw [List.length_append]; omega)
    simp only [tokens, List.cons_append, List.append_assoc, List.nil_append,
      value?_beginObject, hms, Option.map_some]

-- The first item is handed over with what is known of it, so that the recursion is on the others.
theorem items?_moreItems (js : List Json) {j : Json} (hj : Found j) (n : Nat) (rest : List Token)
    (hn : (j.tokens ++ moreItems js).length < n) :
    items? n (j.tokens ++ (moreItems js ++ .endArray :: rest)) = some (j :: js, rest) := by
  obtain ⟨n, rfl⟩ : ∃ k, n = k + 1 := Nat.exists_eq_add_one.2 (by omega)
  rw [List.length_append] at hn
  rw [items?, hj n _ (by omega)]
  match js with
  | [] => rfl
  | j' :: js =>
    rw [moreItems, List.length_cons] at hn
    have hjs := items?_moreItems js (found j') n rest (by omega)
    simp only [moreItems, List.cons_append, List.append_assoc, Option.bind_eq_bind,
      Option.bind_some, hjs]
    rfl

theorem members?_moreMembers (ms : List (Option String × Json)) {k : Option String} {j : Json}
    (hj : Found j) (n : Nat) (rest : List Token) (hn : (j.tokens ++ moreMembers ms).length < n) :
    members? n (.text k :: .colon :: (j.tokens ++ (moreMembers ms ++ .endObject :: rest))) =
      some ((k, j) :: ms, rest) := by
  obtain ⟨n, rfl⟩ : ∃ k, n = k + 1 := Nat.exists_eq_add_one.2 (by omega)
  rw [List.length_append] at hn
  rw [members?, hj n _ (by omega)]
  match ms with
  | [] => rfl
  | (k', j') :: ms =>
    rw [moreMembers, List.length_cons, List.length_cons, List.length_cons] at hn
    have hms := members?_moreMembers ms (k := k') (found j') n rest (by omega)
    simp only [moreMembers, List.cons_append, List.append_assoc, Option.bind_eq_bind,
      Option.bind_some, hms]
    rfl

end

theorem value?_tokens (j : Json) : value? j.tokens.length j.tokens = some (j, []) := by
  have h := found j j.tokens.length [] (Nat.le_refl _)
  rwa [List.append_nil] at h

theorem read?_compact {j : Json} (h : .text none ∉ j.tokens) : read? j.compact = some j := by
  have ht : tokens? (j.tokens.flatMap write) = some j.tokens := (readable_tokens j h).tokens?_eq
  rw [read?, compact, String.toList_ofList, ht]
  simp [value?_tokens]

end ProseLint.Json
