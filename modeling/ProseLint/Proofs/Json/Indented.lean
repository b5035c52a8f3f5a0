import ProseLint.Proofs.Json.Value

/-!
# A value is read back from its indented form

Between tokens white space means nothing, so the indented form has the tokens of the compact one,
and the value is read from these.
-/

namespace ProseLint.Json

open Token

theorem stops_newLine (depth : Nat) (s : List Char) : Stops (newLine depth ++ s) :=
  .cons (by decide)

theorem stops_indentedItems (depth : Nat) (js : List Json) : Stops (indentedItems depth js) := by
  cases js with
  | nil => exact .nil
  | cons j js => exact .cons (by decide)

theorem stops_indentedMembers (depth : Nat) (ms : List (Option String × Json)) :
    Stops (indentedMembers depth ms) := by
  cases ms with
  | nil => exact .nil
  | cons m ms => exact .cons (by decide)

namespace Reads
variable {s : List Char} {ts : List Token}

theorem space {c : Char} (hc : isSpace c = true) (h : Reads s ts) : Reads (c :: s) ts := by
  intro rest hr
  rw [List.cons_append, tokens?, if_pos hc]
  exact h rest hr

theorem newLine (depth : Nat) (h : Reads s ts) : Reads (newLine depth ++ s) ts := by
  have hspaces : ∀ n, Reads (List.replicate n ' ' ++ s) ts := by
    intro n
    induction n with
    | zero => exact h
    | succ n ih => exact .space (by decide) ih
  exact .space (by decide) (hspaces (2 * depth))

end Reads

mutual

theorem reads_indented (j : Json) (depth : Nat) (h : .text none ∉ j.tokens) :
    Reads (j.indented depth) j.tokens := by
  match j with
  | null => exact .token (t := .null) nofun
  | bool b => exact .token (t := .bool b) nofun
  | natural n => exact .token (t := .natural n) nofun
  | decimal => exact .token (t := .decimal) nofun
  | text c => exact .token (t := .text c) fun hc => h (by simpa [tokens] using hc.symm)
  | array [] => exact .cons (t := .beginArray) nofun rfl (.token (t := .endArray) nofun)
  | array (j :: js) =>
    have hj := reads_indented j (depth + 1) fun hm => h (by simp [tokens, hm])
    have hjs := reads_indentedItems js (depth + 1) fun hm => h (by simp [tokens, hm])
    have hitems := hj.append hjs (stops_indentedItems _ js)
    have hend : Reads (newLine depth ++ [']']) [.endArray] :=
      .newLine depth (.token (t := .endArray) nofun)
    have hclosed := (hitems.append hend (stops_newLine depth _)).newLine (depth + 1)
    have hwhole := Reads.cons (t := .beginArray) nofun rfl hclosed
    simpa only [indented, tokens, Token.write, List.append_assoc, List.cons_append,
      List.nil_append] using hwhole
  | object [] => exact .cons (t := .beginObject) nofun rfl (.token (t := .endObject) nofun)
  | object ((k, j) :: ms) =>
    have hk : Token.text k ≠ .text none := fun hk => h (by simp [tokens, hk])
    have hj := reads_indented j (depth + 1) fun hm => h (by simp [tokens, hm])
    have hms := reads_indentedMembers ms (depth + 1) fun hm => h (by simp [tokens, hm])
    have hvalues := hj.append hms (stops_indentedMembers _ ms)
    have hend : Reads (newLine depth ++ ['\x7d']) [.endObject] :=
      .newLine depth (.token (t := .endObject) nofun)
    have hvalue := (hvalues.append hend (stops_newLine depth _)).space (c := ' ') (by decide)
    have hmember := Reads.cons hk rfl (.cons (t := .colon) nofun rfl hvalue)
    have hwhole := Reads.cons (t := .beginObject) nofun rfl (hmember.newLine (depth + 1))
    simpa only [indented, tokens, Token.write, List.append_assoc, List.cons_append,
      List.nil_append] using hwhole

theorem reads_indentedItems (js : List Json) (depth : Nat) (h : .text none ∉ moreItems js) :
    Reads (indentedItems depth js) (moreItems js) := by
  match js with
  | [] => exact .nil
  | j :: js =>
    have hj := reads_indented j depth fun hm => h (by simp [moreItems, hm])
    have hjs := reads_indentedItems js depth fun hm => h (by simp [moreItems, hm])
    have hitems := (hj.append hjs (stops_indentedItems _ js)).newLine depth
    have hwhole := Reads.cons (t := .comma) nofun rfl hitems
    simpa only [indentedItems, moreItems, Token.write, List.append_assoc, List.cons_append,
      List.nil_append] using hwhole

theorem reads_indentedMembers (ms : List (Option String × Json)) (depth : Nat)
    (h : .text none ∉ moreMembers ms) : Reads (indentedMembers depth ms) (moreMembers ms) := by
  match ms with
  | [] => exact .nil
  | (k, j) :: ms =>
    have hk : Token.text k ≠ .text none := fun hk => h (by simp [moreMembers, hk])
    have hj := reads_indented j depth fun hm => h (by simp [moreMembers, hm])
    have hms := reads_indentedMembers ms depth fun hm => h (by simp [moreMembers, hm])
    have hvalue := (hj.append hms (stops_indentedMembers _ ms)).space (c := ' ') (by decide)
    have hmember := (Reads.cons hk rfl (.cons (t := .colon) nofun rfl hvalue)).newLine depth
    have hwhole := Reads.cons (t := .comma) nofun rfl hmember
    simpa only [indentedMembers, moreMembers, Token.write, List.append_assoc, List.cons_append,
      List.nil_append] using hwhole

end

/-- The value is read back from its indented form with the end of a line after it. -/
theorem read?_pretty {j : Json} (h : .text none ∉ j.tokens) :
    read? (j.pretty ++ "\n") = some j := by
  have hend : Reads ['\n'] [] := .space (by decide) .nil
  have ht : tokens? (j.indented 0 ++ ['\n']) = some (j.tokens ++ []) :=
    ((reads_indented j 0 h).append hend (.cons (by decide))).tokens?_eq
  have hs : (j.pretty ++ "\n").toList = j.indented 0 ++ ['\n'] := by simp [pretty]
  rw [List.append_nil] at ht
  rw [read?, hs, ht]
  simp [value?_tokens]

end ProseLint.Json
