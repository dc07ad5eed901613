import SqlCompose.Composer

/-!
Requests as JSON documents: an object with a query and perhaps options.
-/

namespace SqlCompose

/-- Why no statement comes of a document. An integer with too many digits is no error of
composition, nor is a failure to make a dialect. -/
inductive DocumentError where
  | build (e : BuildError)
  | failed (f : Failure)
  | longInt (digits : Nat)

def DocumentError.ofAbort : Abort → DocumentError
  | .refused e => .build e
  | .failed f => .failed f

/-- The query of a document and its options. -/
def requestOf : Value → Except BuildError (Value × Option Value)
  | .obj ms =>
    match ms.lookup "query" with
    | none => .error .noQuery
    | some query =>
      match (ms.map (·.1)).filter (· ∉ ["query", "options"]) with
      | [] => .ok (query, (ms.lookup "options").filter fun
        | .null => false
        | _ => true)
      | others => .error (.unknownMembers others.mergeSort)
  | _ => .error .noQuery

def composeJson (r : Registry) (c : Config) (text : String) : Except DocumentError Statement :=
  match Json.read text with
  | .error (.malformed f) => .error (.build (.malformedJson text f))
  | .error (.longInt digits) => .error (.longInt digits)
  | .ok v =>
    match requestOf v with
    | .error e => .error (.build e)
    | .ok (query, options) => (composeValues r c query options).result.mapError .ofAbort

end SqlCompose
