import SqlCompose.Config
import SqlCompose.Error
import SqlCompose.Order.Macro
import SqlCompose.Request

/-!
The clauses of a statement. A clause that is absent is the empty text. Names are sanitized; views,
expressions and conditions are written as they are given.
-/

namespace SqlCompose.Clause

def commas (items : List String) : String := ", ".intercalate items

def cte (name query : String) : String := name ++ " AS (" ++ strip query ++ ")"

/-- Views come first, in the order given, then the subqueries. -/
def ctes (views : List View) (subqueries : List Subquery) : String :=
  if subqueries.isEmpty then ""
  else "WITH " ++ commas
    ((views.map fun v => cte v.name v.query) ++
      subqueries.map fun s => cte (sanitize s.name) s.query)

def selectItems (fields : List (String × String)) : List String :=
  fields.map fun f => strip f.2 ++ " AS " ++ sanitize f.1

def rowNumber : String := "ROW_NUMBER() OVER (ORDER BY " ++ OrderMacro.forward.spelling ++ ")"

/-- The position of a row in the whole ordered result and the number of rows after it, both
counted by the same ordering. -/
def windowItems (c : Config) : List String :=
  [rowNumber ++ " AS " ++ c.numColumn,
    "COUNT(*) OVER () - " ++ rowNumber ++ " AS " ++ c.remainingColumn]

/-- Window columns are for paged requests with more than one order term. -/
def hasWindow (c : Config) (o : Options) : Bool :=
  c.windowColumns && 1 < o.orderTerms.length && o.paging?.isSome

def select (c : Config) (q : Query) (o : Options) : String :=
  "SELECT " ++ commas
    (selectItems q.fields ++ q.subqueries.flatMap (selectItems ·.fields) ++
      if hasWindow c o then windowItems c else [])

/-- The table if there is one, otherwise the query in parentheses. -/
def source (q : Query) : String :=
  let table := q.sourceTable.getD ""
  let relation :=
    if isBlank table then "(" ++ q.sourceQuery.getD "None" ++ ")" else sanitize table
  "FROM " ++ relation ++ " AS " ++ sanitize q.aliasName

def join (s : Subquery) : Except Failure String :=
  match s.join.keyword? with
  | some keyword =>
    .ok (keyword ++ " " ++ sanitize s.name ++ " AS " ++ sanitize s.aliasName ++ " ON " ++ s.joinOn)
  | none => .error (.missingKey s.join.spelling)

/-- One line for each subquery. -/
def joins (subqueries : List Subquery) : Except Failure String :=
  (subqueries.mapM join).map "\n".intercalate

/-- The conditions of a request that are not blank. -/
def conditions (q : Query) (o : Options) : List String :=
  (q.filter.toList ++ o.filter.toList).filter fun s => !isBlank s

def filter (q : Query) (o : Options) : String :=
  if (conditions q o).isEmpty then ""
  else "WHERE " ++ " AND ".intercalate ((conditions q o).map fun s => "(" ++ s ++ ")")

def order (o : Options) : String :=
  if o.orderTerms.isEmpty then "" else "ORDER BY " ++ commas o.orderTerms

/-- A keyword and a number, which must not be too long. -/
def counted (keyword : String) (n : Int) : Except Failure String :=
  match decimal? n with
  | some digits => .ok (keyword ++ " " ++ digits)
  | none => .error .longNumber

def limit (o : Options) : Except Failure String :=
  match o.pageSize with
  | none => .ok ""
  | some n => counted "LIMIT" n

def offset (o : Options) : Except Failure String :=
  match o.offset? with
  | none => .ok ""
  | some n => counted "OFFSET" n

/-- The clauses that are not absent. -/
def present (clauses : List String) : List String := clauses.filter (· ≠ "")

/-- What follows the joins. -/
def tail (q : Query) (o : Options) : Except Failure (List String) := do
  let limit ← limit o
  let offset ← offset o
  return [filter q o, order o, limit, offset]

/-- All clauses of a request whose views are in order. -/
def all (c : Config) (views : List View) (q : Query) (o : Options) :
    Except Failure (List String) := do
  let joins ← joins q.subqueries
  let tail ← tail q o
  return [ctes views q.subqueries, select c q o, source q, joins] ++ tail

/-- The clauses that are present, with single spaces between them. -/
def assemble (c : Config) (views : List View) (q : Query) (o : Options) :
    Except Failure String :=
  (all c views q o).map fun clauses => " ".intercalate (present clauses)

end SqlCompose.Clause
