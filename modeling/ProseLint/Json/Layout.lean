import ProseLint.Json.Value

/-!
# Writing JSON

A value is written without any white space, or with every item and member on a line of its own,
indented by two spaces for each array or object around it.
-/

namespace ProseLint.Json

mutual

/-- The tokens of a value. -/
def tokens : Json → List Token
  | null => [.null]
  | bool b => [.bool b]
  | natural n => [.natural n]
  | decimal => [.decimal]
  | text c => [.text c]
  | array [] => [.beginArray, .endArray]
  | array (j :: js) => .beginArray :: (j.tokens ++ moreItems js ++ [.endArray])
  | object [] => [.beginObject, .endObject]
  | object ((k, j) :: ms) =>
    .beginObject :: .text k :: .colon :: (j.tokens ++ moreMembers ms ++ [.endObject])

/-- The tokens of the items after the first. -/
def moreItems : List Json → List Token
  | [] => []
  | j :: js => .comma :: (j.tokens ++ moreItems js)

/-- The tokens of the members after the first. -/
def moreMembers : List (Option String × Json) → List Token
  | [] => []
  | (k, j) :: ms => .comma :: .text k :: .colon :: (j.tokens ++ moreMembers ms)

end

/-- The value without white space. -/
def compact (j : Json) : String :=
  String.ofList (j.tokens.flatMap Token.write)

/-- The end of a line, and the indentation of the next. -/
def newLine (depth : Nat) : List Char :=
  '\n' :: List.replicate (2 * depth) ' '

mutual

/-- The value inside of `depth` arrays and objects. -/
def indented (depth : Nat) : Json → List Char
  | array (j :: js) =>
    '[' :: (newLine (depth + 1) ++ j.indented (depth + 1) ++ indentedItems (depth + 1) js ++
      newLine depth ++ [']'])
  | object ((k, j) :: ms) =>
    '\x7b' :: (newLine (depth + 1) ++ (Token.text k).write ++ [':', ' '] ++
      j.indented (depth + 1) ++ indentedMembers (depth + 1) ms ++ newLine depth ++ ['\x7d'])
  | array [] => ['[', ']']
  | object [] => ['\x7b', '\x7d']
  | null => Token.null.write
  | bool b => (Token.bool b).write
  | natural n => (Token.natural n).write
  | decimal => Token.decimal.write
  | text c => (Token.text c).write

/-- The items after the first. -/
def indentedItems (depth : Nat) : List Json → List Char
  | [] => []
  | j :: js => ',' :: (newLine depth ++ j.indented depth ++ indentedItems depth js)

/-- The members after the first. -/
def indentedMembers (depth : Nat) : List (Option String × Json) → List Char
  | [] => []
  | (k, j) :: ms =>
    ',' :: (newLine depth ++ (Token.text k).write ++ [':', ' '] ++ j.indented depth ++
      indentedMembers depth ms)

end

/-- The value on indented lines. -/
def pretty (j : Json) : String :=
  String.ofList (j.indented 0)

end ProseLint.Json
