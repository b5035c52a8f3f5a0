import ProseLint.Json.Layout
import ProseLint.Proofs.Json.Quoted

/-!
# Written tokens are read back

A token is found again in front of any text, but for a number: the text must not go on with it. In
the layout of a value a comma or a bracket follows each number.
-/

namespace ProseLint.Json

namespace Token

/-- The text does not go on with a number before it. -/
def Stops (s : List Char) : Prop :=
  ∀ c ∈ s.head?, c.isDigit = false ∧ c ≠ '.' ∧ isExponentMark c = false

namespace Stops
variable {s t : List Char}

theorem nil : Stops [] := by
  intro c hc
  cases hc

theorem cons {c : Char} (h : c.isDigit = false ∧ c ≠ '.' ∧ isExponentMark c = false) :
    Stops (c :: s) := by
  intro c' hc
  obtain rfl := Option.some.inj hc
  exact h

theorem append (hs : Stops s) (ht : Stops t) : Stops (s ++ t) := by
  cases s with
  | nil => exact ht
  | cons c s => exact hs

theorem takeWhile_isDigit (h : Stops s) : s.takeWhile Char.isDigit = [] := by
  cases s with
  | nil => rfl
  | cons c s => exact List.takeWhile_cons_of_neg (by simp [(h c rfl).1])

theorem dropWhile_isDigit (h : Stops s) : s.dropWhile Char.isDigit = s := by
  cases s with
  | nil => rfl
  | cons c s => exact List.dropWhile_cons_of_neg (by simp [(h c rfl).1])

theorem skipFraction? (h : Stops s) : skipFraction? s = some s := by
  rw [Token.skipFraction?.eq_2]
  rintro t rfl
  exact (h '.' rfl).2.1 rfl

theorem skipExponent? (h : Stops s) : skipExponent? s = some s := by
  cases s with
  | nil => rfl
  | cons c s => rw [Token.skipExponent?, (h c rfl).2.2]; rfl

theorem goesOn (h : Stops s) : goesOn s = false := by
  cases s with
  | nil => rfl
  | cons c s =>
    obtain ⟨-, hd, he⟩ := h c rfl
    simp [Token.goesOn, hd, he]

end Stops

theorem digitChar_ne_zero : ∀ n < 10, 0 < n → n.digitChar ≠ '0' := by
  decide

theorem isDigit_of_mem_toDigits {n : Nat} {c : Char} (h : c ∈ Nat.toDigits 10 n) : c.isDigit :=
  Nat.isDigit_of_mem_toDigits (by decide) (by decide) h

theorem exists_toDigits_eq_cons (n : Nat) :
    ∃ c cs, Nat.toDigits 10 n = c :: cs ∧ c.isDigit ∧ (0 < n → c ≠ '0') := by
  induction n using Nat.strongRecOn with
  | _ n ih =>
    by_cases hlt : n < 10
    · have hn := Nat.toDigits_of_lt_base hlt
      exact ⟨_, [], hn, isDigit_of_mem_toDigits (hn ▸ List.mem_singleton_self _),
        digitChar_ne_zero n hlt⟩
    · obtain ⟨c, cs, hc, hd, hz⟩ := ih (n / 10) (by omega)
      refine ⟨c, cs ++ [(n % 10).digitChar], ?_, hd, fun _ => hz (by omega)⟩
      rw [Nat.toDigits_of_base_le (by decide) (by omega), hc, List.cons_append]

theorem integerDigits_toDigits (n : Nat) {rest : List Char} (h : Stops rest) :
    integerDigits (Nat.toDigits 10 n ++ rest) = (Nat.toDigits 10 n, rest) := by
  rcases Nat.eq_zero_or_pos n with rfl | hn
  · rfl
  have hz : ∀ s, Nat.toDigits 10 n ++ rest ≠ '0' :: s := by
    obtain ⟨c, cs, hc, -, hne⟩ := exists_toDigits_eq_cons n
    intro s hs
    rw [hc, List.cons_append] at hs
    exact hne hn (List.cons.inj hs).1
  have hd : ∀ c ∈ Nat.toDigits 10 n, c.isDigit := fun _ => isDigit_of_mem_toDigits
  rw [integerDigits.eq_2 _ hz, List.takeWhile_append_of_pos hd, List.dropWhile_append_of_pos hd,
    h.takeWhile_isDigit, h.dropWhile_isDigit, List.append_nil]

theorem decimalNumber_toDigits (n : Nat) : decimalNumber (Nat.toDigits 10 n) = n := by
  rw [decimalNumber, ← Nat.ofDigitChars_eq_foldl]
  exact Nat.ofDigitChars_toDigits (by decide) (by decide)

theorem readUnsigned?_toDigits (n : Nat) {rest : List Char} (h : Stops rest) :
    readUnsigned? (Nat.toDigits 10 n ++ rest) = some (natural n, rest) := by
  have hne : (Nat.toDigits 10 n).isEmpty = false := by simp [Nat.toDigits_ne_nil]
  simp [readUnsigned?, integerDigits_toDigits n h, hne, h.skipFraction?, h.skipExponent?, h.goesOn,
    decimalNumber_toDigits]

theorem readUnsigned?_decimal {rest : List Char} (h : Stops rest) :
    readUnsigned? ('0' :: '.' :: '0' :: rest) = some (decimal, rest) := by
  have hd : skipDigits? ('0' :: rest) = some rest := by
    simp [skipDigits?, h.dropWhile_isDigit]
  simp [readUnsigned?, integerDigits, Token.skipFraction?, hd, h.skipExponent?, Token.goesOn]

theorem read?_of_isDigit {c : Char} (hc : c.isDigit) (s : List Char) :
    read? (c :: s) = readUnsigned? (c :: s) := by
  rw [read?.eq_12]
  all_goals
    rintro s' h
    obtain ⟨rfl, -⟩ := List.cons.inj h
    revert hc
    decide

theorem isSpace_of_isDigit {c : Char} (hc : c.isDigit) : isSpace c = false := by
  rw [← Bool.not_eq_true]
  intro hs
  simp only [isSpace, Bool.or_eq_true, beq_iff_eq] at hs
  rcases hs with ((rfl | rfl) | rfl) | rfl <;> revert hc <;> decide

/-- The tokens that a digit after them would change. -/
def isNumber : Token → Bool
  | natural _ => true
  | decimal => true
  | _ => false

theorem read?_write {t : Token} (ht : t ≠ text none) {rest : List Char}
    (h : t.isNumber → Stops rest) : read? (t.write ++ rest) = some (t, rest) := by
  match t with
  | beginArray | endArray | beginObject | endObject | colon | comma | null | bool true
  | bool false => rfl
  | natural n =>
    obtain ⟨c, cs, hc, hd, -⟩ := exists_toDigits_eq_cons n
    have hr := readUnsigned?_toDigits n (h rfl)
    rw [hc, List.cons_append] at hr
    rw [write, hc, List.cons_append, read?_of_isDigit hd, hr]
  | decimal =>
    exact (read?_of_isDigit (by decide) _).trans (readUnsigned?_decimal (h rfl))
  | text none => exact absurd rfl ht
  | text (some s) =>
    have hq := Quoted.readPieces_flatMap_escapeChar s.toList rest
    simp [write, Quoted.write, read?, hq, Quoted.characters?_map_piece]

theorem exists_write_eq_cons (t : Token) : ∃ c cs, t.write = c :: cs ∧ isSpace c = false := by
  match t with
  | beginArray | endArray | beginObject | endObject | colon | comma | null | bool true
  | bool false | decimal | text _ => exact ⟨_, _, rfl, by decide⟩
  | natural n =>
    obtain ⟨c, cs, hc, hd, -⟩ := exists_toDigits_eq_cons n
    exact ⟨c, cs, hc, isSpace_of_isDigit hd⟩

theorem stops_write {t : Token} (ht : t.isNumber = false) : Stops t.write := by
  match t with
  | beginArray | endArray | beginObject | endObject | colon | comma | null | bool true
  | bool false | text _ => exact .cons (by decide)

end Token

open Token

theorem tokens?_of_read? {c : Char} {s r : List Char} {t : Token} (hc : isSpace c = false)
    (h : Token.read? (c :: s) = some (t, r)) : tokens? (c :: s) = (tokens? r).map (t :: ·) := by
  rw [tokens?, hc, if_neg Bool.false_ne_true]
  split
  next h' => rw [h] at h'; contradiction
  next h' => obtain ⟨rfl, rfl⟩ := Prod.mk.inj (Option.some.inj (h.symm.trans h')); rfl

theorem tokens?_write_append {t : Token} (ht : t ≠ .text none) {rest : List Char}
    (h : t.isNumber → Stops rest) : tokens? (t.write ++ rest) = (tokens? rest).map (t :: ·) := by
  obtain ⟨c, cs, hw, hc⟩ := exists_write_eq_cons t
  have hr := read?_write ht h
  rw [hw, List.cons_append] at hr ⊢
  exact tokens?_of_read? hc hr

/-- Wherever the text stands, it is read as the tokens. -/
def Reads (s : List Char) (ts : List Token) : Prop :=
  ∀ rest, Stops rest → tokens? (s ++ rest) = (tokens? rest).map (ts ++ ·)

namespace Reads
variable {s s' : List Char} {ts ts' : List Token} {t : Token}

theorem nil : Reads [] [] := by
  intro rest _
  simp

theorem append (h : Reads s ts) (h' : Reads s' ts') (hs : Stops s') :
    Reads (s ++ s') (ts ++ ts') := by
  intro rest hr
  rw [List.append_assoc, h _ (hs.append hr), h' _ hr, Option.map_map]
  simp [Function.comp_def]

theorem token (ht : t ≠ .text none) : Reads t.write [t] :=
  fun _ hr => tokens?_write_append ht fun _ => hr

theorem cons (ht : t ≠ .text none) (hn : t.isNumber = false) (h : Reads s ts) :
    Reads (t.write ++ s) (t :: ts) := by
  intro rest hr
  rw [List.append_assoc, tokens?_write_append ht (by simp [hn]), h _ hr, Option.map_map]
  rfl

theorem tokens?_eq (h : Reads s ts) : tokens? s = some ts := by
  have hr := h [] .nil
  simpa [tokens?] using hr

end Reads

end ProseLint.Json
