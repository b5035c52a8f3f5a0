import Mathlib.Data.Option.Basic
import ProseLint.Proofs.Toml.Quoted
import ProseLint.Toml.Reader

/-!
# Plain lines are read as statements

`Says s xs`: the text `s` is read as the statements `xs`. It is built up from the end of the text,
with an entry, a header or an empty line put in front.
-/

namespace ProseLint.Toml

/-- The text reads as these statements. One step for each character is enough. -/
def Says (s : List Char) (xs : List Statement) : Prop :=
  ∀ n, s.length < n → statements? n s = some xs

/-- A key that is written without quotes. -/
def IsBare (key : String) : Prop :=
  key.toList ≠ [] ∧ key.toList.all isBareKey = true

instance (key : String) : Decidable (IsBare key) :=
  inferInstanceAs (Decidable (_ ∧ _))

/-- The text stands for the value up to the end of its line. -/
structure Writes (t : List Char) (v : Toml) : Prop where
  head : ∃ c u, t = c :: u ∧ Quoted.isBlank c = false
  value? : ∀ depth n r, value? depth (n + 1) (t ++ '\n' :: r) = some (v, '\n' :: r)

/-! ### Values -/

theorem value?_quoted {q : Char} (hq : q = '\x22' ∨ q = '\x27') (depth n : Nat) (s : List Char) :
    value? depth (n + 1) (q :: s) = (Quoted.read? (q :: s)).map fun (cs, r) => (.string cs, r) := by
  rcases hq with rfl | rfl
  · rw [Toml.value?]
  · rw [Toml.value?]

theorem writes_string (s : List Char) : Writes (Quoted.write s) (.string s) := by
  obtain ⟨q, t, ht, hq⟩ := Quoted.exists_write_eq_cons s
  refine ⟨⟨q, t, ht, ?_⟩, fun depth n r => ?_⟩
  · rcases hq with rfl | rfl <;> rfl
  · have hread := Quoted.read?_write s r
    rw [ht, List.cons_append] at hread ⊢
    rw [value?_quoted hq, hread]
    rfl

theorem writes_bool (b : Bool) :
    Writes (if b then "true".toList else "false".toList) (.scalar (.bool b)) := by
  cases b with
  | false => exact ⟨⟨'f', _, rfl, rfl⟩, fun _ _ _ => rfl⟩
  | true => exact ⟨⟨'t', _, rfl, rfl⟩, fun _ _ _ => rfl⟩

/-! ### Keys -/

theorem skipBlanks_cons {c : Char} (hc : Quoted.isBlank c = false) (s : List Char) :
    skipBlanks (c :: s) = c :: s :=
  List.dropWhile_cons_of_neg (by simp [hc])

theorem isBlank_of_isBareKey {c : Char} (h : isBareKey c = true) : Quoted.isBlank c = false := by
  rw [Quoted.isBlank, Bool.or_eq_false_iff]
  constructor <;> refine beq_false_of_ne ?_ <;> rintro rfl <;> contradiction

section
variable {key : String} {c : Char}

theorem IsBare.isBareKey_of_mem (h : IsBare key) : ∀ c ∈ key.toList, isBareKey c = true :=
  List.all_eq_true.1 h.2

theorem IsBare.exists_cons (h : IsBare key) :
    ∃ c u, key.toList = c :: u ∧ isBareKey c = true := by
  obtain ⟨c, u, hkey⟩ := List.exists_cons_of_ne_nil h.1
  exact ⟨c, u, hkey, h.isBareKey_of_mem c (hkey ▸ List.mem_cons_self)⟩

theorem skipBlanks_key (h : IsBare key) (s : List Char) :
    skipBlanks (key.toList ++ s) = key.toList ++ s := by
  obtain ⟨c, u, hkey, hc⟩ := h.exists_cons
  rw [hkey, List.cons_append, skipBlanks_cons (isBlank_of_isBareKey hc)]

theorem simpleKey?_append (h : IsBare key) (hc : isBareKey c = false) (s : List Char) :
    simpleKey? (key.toList ++ c :: s) = some (key, c :: s) := by
  have htake : (key.toList ++ c :: s).takeWhile isBareKey = key.toList := by
    rw [List.takeWhile_append_of_pos h.isBareKey_of_mem,
      List.takeWhile_cons_of_neg (by simp [hc]), List.append_nil]
  have hdrop : (key.toList ++ c :: s).dropWhile isBareKey = c :: s := by
    rw [List.dropWhile_append_of_pos h.isBareKey_of_mem,
      List.dropWhile_cons_of_neg (by simp [hc])]
  unfold simpleKey?
  rw [htake, hdrop]
  split
  next hnil => exact absurd hnil h.1
  next => rw [String.ofList_toList]

theorem key?_append (h : IsBare key) (hc : isBareKey c = false) (n : Nat) (s : List Char)
    (hdot : ∀ t, skipBlanks (c :: s) ≠ '.' :: t) :
    key? (n + 1) (key.toList ++ c :: s) = some ([key], skipBlanks (c :: s)) := by
  rw [key?, simpleKey?_append h hc]
  simp only [Option.bind_eq_bind, Option.bind_some]
  rfl

theorem key?_append_dot (h : IsBare key) {n : Nat} {s r : List Char} {ks : List String}
    (hs : key? n (skipBlanks s) = some (ks, r)) :
    key? (n + 1) (key.toList ++ '.' :: s) = some (key :: ks, r) := by
  rw [key?, simpleKey?_append h (by decide)]
  simp only [Option.bind_eq_bind, Option.bind_some, skipBlanks_cons (c := '.') (by decide)]
  rw [hs]
  rfl

end

/-! ### Statements -/

theorem statement?_entry {key : String} {t : List Char} {v : Toml} (hkey : IsBare key)
    (ht : Writes t v) (r : List Char) :
    statement? (key.toList ++ " = ".toList ++ t ++ '\n' :: r) =
      some (.entry [key] v, '\n' :: r) := by
  have hequals : " = ".toList = [' ', '=', ' '] := rfl
  have hk : key? depthLimit (key.toList ++ (' ' :: '=' :: ' ' :: (t ++ '\n' :: r))) =
      some ([key], '=' :: ' ' :: (t ++ '\n' :: r)) :=
    key?_append hkey (by decide) 79 _ nofun
  have hvalue : skipBlanks (' ' :: (t ++ '\n' :: r)) = t ++ '\n' :: r := by
    obtain ⟨a, w, rfl, hblank⟩ := ht.head
    exact skipBlanks_cons hblank _
  obtain ⟨c, u, hc, hbare⟩ := hkey.exists_cons
  have hbracket : c ≠ '[' := by rintro rfl; contradiction
  rw [hequals]
  simp only [List.append_assoc, List.cons_append, List.nil_append]
  rw [statement?.eq_3, hk]
  · simp only [Option.bind_eq_bind, Option.bind_some, skipBlanks_cons (c := '=') (by decide),
      hvalue, ht.value?]
    rfl
  · rw [hc]
    exact fun s h => hbracket (List.cons.inj h).1
  · rw [hc]
    exact fun s h => hbracket (List.cons.inj h).1

theorem statement?_header {k₁ k₂ : String} (h₁ : IsBare k₁) (h₂ : IsBare k₂) (r : List Char) :
    statement? ('[' :: (k₁.toList ++ '.' :: (k₂.toList ++ ']' :: '\n' :: r))) =
      some (.header [k₁, k₂], '\n' :: r) := by
  have hk₂ : key? 79 (skipBlanks (k₂.toList ++ ']' :: '\n' :: r)) =
      some ([k₂], ']' :: '\n' :: r) := by
    rw [skipBlanks_key h₂]
    exact key?_append h₂ (by decide) 78 _ nofun
  have hk : key? depthLimit (k₁.toList ++ '.' :: (k₂.toList ++ ']' :: '\n' :: r)) =
      some ([k₁, k₂], ']' :: '\n' :: r) :=
    key?_append_dot h₁ hk₂
  obtain ⟨c, u, hc, hbare⟩ := h₁.exists_cons
  have hbracket : c ≠ '[' := by rintro rfl; contradiction
  rw [statement?.eq_2, skipBlanks_key h₁, hk]
  · rfl
  · rw [hc]
    exact fun s h => hbracket (List.cons.inj h).1

/-! ### Texts -/

/-- A statement starts with a part of a key or a bracket, before which no gap is left. -/
theorem skipGaps?_cons {c : Char} (hc : isBareKey c = true ∨ c = '[') (n : Nat) (s : List Char) :
    skipGaps? (n + 1) (c :: s) = some (c :: s) := by
  have hblank : Quoted.isBlank c = false := by
    rcases hc with hc | rfl
    · exact isBlank_of_isBareKey hc
    · rfl
  have hne : c ≠ '#' ∧ c ≠ '\n' ∧ c ≠ '\r' := by
    refine ⟨?_, ?_, ?_⟩ <;> rintro rfl <;> revert hc <;> decide
  have hcomment : skipComment? (c :: s) = some (c :: s) :=
    skipComment?.eq_2 _ fun _ h => hne.1 (List.cons.inj h).1
  have hend : Quoted.dropLineEnd? (c :: s) = none :=
    Quoted.dropLineEnd?.eq_3 _ (fun _ h => hne.2.1 (List.cons.inj h).1)
      (fun _ h => hne.2.2 (List.cons.inj h).1)
  rw [skipGaps?, skipBlanks_cons hblank, hcomment]
  simp only [Option.bind_eq_bind, Option.bind_some, hend]
  rfl

theorem says_nil : Says [] [] := by
  intro n hn
  cases n with
  | zero => contradiction
  | succ n => rfl

namespace Says
variable {r : List Char} {xs : List Statement}

theorem cons_newline (h : Says r xs) : Says ('\n' :: r) xs := by
  intro n hn
  cases n with
  | zero => contradiction
  | succ n => exact h (n + 1) (Nat.lt_of_succ_lt hn)

theorem cons_line {c : Char} {u : List Char} {x : Statement} (h : Says r xs)
    (hc : isBareKey c = true ∨ c = '[')
    (hx : statement? (c :: u ++ '\n' :: r) = some (x, '\n' :: r)) :
    Says (c :: u ++ '\n' :: r) (x :: xs) := by
  intro n hn
  cases n with
  | zero => contradiction
  | succ n =>
    have hlength : r.length < n := by simp at hn; omega
    have hend : skipLineEnd? ('\n' :: r) = some r := rfl
    rw [statements?, List.cons_append, skipGaps?_cons hc, ← List.cons_append]
    simp only [Option.bind_eq_bind, Option.bind_some, List.cons_append] at hx ⊢
    rw [hx]
    simp only [Option.bind_some, hend, h n hlength]
    rfl

theorem cons_entry {key : String} {t : List Char} {v : Toml} (h : Says r xs) (hkey : IsBare key)
    (ht : Writes t v) :
    Says (key.toList ++ " = ".toList ++ t ++ '\n' :: r) (.entry [key] v :: xs) := by
  have hx := statement?_entry hkey ht r
  obtain ⟨c, u, hc, hbare⟩ := hkey.exists_cons
  rw [hc] at hx ⊢
  exact h.cons_line (.inl hbare) hx

theorem cons_header {k₁ k₂ : String} (h : Says r xs) (h₁ : IsBare k₁) (h₂ : IsBare k₂) :
    Says ('[' :: (k₁.toList ++ '.' :: (k₂.toList ++ ']' :: '\n' :: r)))
      (.header [k₁, k₂] :: xs) := by
  have hx := statement?_header h₁ h₂ r
  have hline : '[' :: (k₁.toList ++ '.' :: (k₂.toList ++ ']' :: '\n' :: r)) =
      '[' :: (k₁.toList ++ '.' :: (k₂.toList ++ [']'])) ++ '\n' :: r := by simp
  rw [hline] at hx ⊢
  exact h.cons_line (.inr rfl) hx

end Says

end ProseLint.Toml
