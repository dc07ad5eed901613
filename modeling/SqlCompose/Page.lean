import SqlCompose.Config
import SqlCompose.Error

/-!
Pages of a result. The rows of an ordered and paged statement carry their position and the number
of rows after them; a page shows the rows without these, and what they tell about the whole result.
-/

namespace SqlCompose

abbrev Row := List (String × Value)

structure PageInfo where
  page : Int
  limit : Int
  /-- The number of rows of the whole result. -/
  total : Int
  hasMore : Bool

structure Page where
  rows : List Row
  info : PageInfo

inductive PageError where
  | build (e : BuildError)
  | number (f : NumberFault)
  | malformed (e : Shape.Error)

namespace Page

/-- The window columns of a row. -/
structure Window where
  remaining : Value
  num : Value

/-- Refuses a row without a window column; that of the remaining rows is missed first. -/
def windowOf (c : Config) (row : Row) : Except BuildError Window :=
  match row.lookup c.remainingColumn with
  | none => .error (.missingColumn c.remainingColumn)
  | some remaining =>
    match row.lookup c.numColumn with
    | none => .error (.missingColumn c.numColumn)
    | some num => .ok ⟨remaining, num⟩

/-- The number of rows of the whole result, by the first row of a page, and whether rows follow
its last row. -/
def totals : List Window → Except NumberFault (Int × Bool)
  | [] => .ok (0, false)
  | first :: rest => do
    let after ← first.remaining.toInt
    let position ← first.num.toInt
    let afterLast ← (rest.getLastD first).remaining.toInt
    return (after + position, 0 < afterLast)

def withoutWindow (c : Config) (row : Row) : Row :=
  row.filter fun e => e.1 ≠ c.numColumn && e.1 ≠ c.remainingColumn

/-- The page and its size, as requested. -/
def decodeRequested (page limit : Value) : Shape.Decoded (Int × Int) :=
  Prod.mk <$> (Shape.int page).under (.member "page") <*>
    (Shape.int limit).under (.member "limit")

end Page

/-- The page that some rows make up. -/
def paginate (c : Config) (rows : List Row) (page limit : Value) : Except PageError Page := do
  let windows ← (rows.mapM (Page.windowOf c)).mapError .build
  let (total, hasMore) ← (Page.totals windows).mapError .number
  match Page.decodeRequested page limit with
  | .error faults => .error (.malformed ⟨.pageInfo, faults⟩)
  | .ok (page, limit) => return ⟨rows.map (Page.withoutWindow c), ⟨page, limit, total, hasMore⟩⟩

end SqlCompose
