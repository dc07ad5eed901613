import SqlCompose.Dialect
import SqlCompose.Identifier
import SqlCompose.Text.Scan

/-!
Named placeholders, `?name`, and their replacement by the markers of a dialect. Each occurrence
binds a value of its own.
-/

namespace SqlCompose

namespace Placeholder

/-- The name of a placeholder at the head of a text, and the number of characters of both. -/
def head? : List Char → Option (String × Nat)
  | '?' :: c :: s =>
    if isIdentifierChar c && !c.isDigit then
      let rest := s.takeWhile isIdentifierChar
      some (String.ofList (c :: rest), rest.length + 2)
    else none
  | _ => none

end Placeholder

/-- Writes markers for the placeholders of a text after `bound` parameters, and gives the values
that they bind. A missing value is noticed before its marker is asked for. -/
def bindPieces (marker : Int → Except Abort String) (values : List (String × Value)) (bound : Nat) :
    List (Piece String) → Except Abort (List Char × List Value)
  | [] => .ok ([], [])
  | .char c :: ps => do
    let rest ← bindPieces marker values bound ps
    return (c :: rest.1, rest.2)
  | .found name :: ps =>
    match values.lookup name with
    | none => .error (.refused (.missingParameter name))
    | some v => do
      let mark ← marker (bound + 1)
      let rest ← bindPieces marker values (bound + 1) ps
      return (mark.toList ++ rest.1, v :: rest.2)

/-- Writes markers for the placeholders of a text, given the parameters already bound. -/
def bindPlaceholders (marker : Int → Except Abort String) (values : List (String × Value))
    (text : String) (params : List Value) : Except Abort (String × List Value) := do
  let new ← bindPieces marker values params.length (pieces Placeholder.head? text.toList)
  return (String.ofList new.1, params ++ new.2)

end SqlCompose
