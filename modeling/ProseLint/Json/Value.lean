import ProseLint.Json.Token

/-!
# JSON values

Values with as much of them as diagnostics need: of numbers only the natural ones are kept. Objects
keep all their members in order, repeated names included.
-/

namespace ProseLint

inductive Json where
  | null
  | bool (b : Bool)
  | natural (n : Nat)
  | decimal
  | text (content? : Option String)
  | array (items : List Json)
  | object (members : List (Option String × Json))

namespace Json

mutual

/-- Reads the value that the tokens start with, in at most so many steps. -/
def value? : Nat → List Token → Option (Json × List Token)
  | 0, _ => none
  | _, [] => none
  | n + 1, t :: ts => match t, ts with
    | .null, ts => some (null, ts)
    | .bool b, ts => some (bool b, ts)
    | .natural k, ts => some (natural k, ts)
    | .decimal, ts => some (decimal, ts)
    | .text c, ts => some (text c, ts)
    | .beginArray, .endArray :: ts => some (array [], ts)
    | .beginArray, ts => (items? n ts).map fun (js, ts) => (array js, ts)
    | .beginObject, .endObject :: ts => some (object [], ts)
    | .beginObject, ts => (members? n ts).map fun (ms, ts) => (object ms, ts)
    | _, _ => none

/-- Reads one item of an array or more, and the end of the array. -/
def items? : Nat → List Token → Option (List Json × List Token)
  | 0, _ => none
  | n + 1, ts => do
    let (j, ts) ← value? n ts
    match ts with
    | .endArray :: ts => some ([j], ts)
    | .comma :: ts =>
      let (js, ts) ← items? n ts
      return (j :: js, ts)
    | _ => none

/-- Reads one member of an object or more, and the end of the object. -/
def members? : Nat → List Token → Option (List (Option String × Json) × List Token)
  | n + 1, .text k :: .colon :: ts => do
    let (j, ts) ← value? n ts
    match ts with
    | .endObject :: ts => some ([(k, j)], ts)
    | .comma :: ts =>
      let (ms, ts) ← members? n ts
      return ((k, j) :: ms, ts)
    | _ => none
  | _, _ => none

end

/-- Reads a text that holds one value and nothing else. -/
def read? (s : String) : Option Json := do
  let ts ← tokens? s.toList
  match ← value? ts.length ts with
  | (j, []) => some j
  | _ => none

end Json

end ProseLint
