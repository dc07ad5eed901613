import SqlCompose.Join
import SqlCompose.Value

/-!
Requests: what a statement selects from and shows, the subqueries joined to it, and the options of
one call.
-/

namespace SqlCompose

/-- A named piece of SQL that stands in the `WITH` clause after the views it depends on. -/
structure View where
  name : String
  query : String
  dependencies : List View

/-- A subquery joined to the source. `params` holds defaults for placeholders. -/
structure Subquery where
  name : String
  aliasName : String
  query : String
  join : Join
  joinOn : String
  fields : List (String × String)
  params : Option (List (String × Value))
  views : List View

/-- The source of a statement, a table or a query, with its output fields as pairs of name and
expression. -/
structure Query where
  sourceTable : Option String
  sourceQuery : Option String
  aliasName : String
  fields : List (String × String)
  filter : Option String
  subqueries : List Subquery

/-- The options of one call. Pages count from zero. -/
structure Options where
  filter : Option String := none
  params : Option (List (String × Value)) := none
  page : Option Int := none
  pageSize : Option Int := none
  orderBy : Option (List String) := none

namespace Options

def empty : Options := {}

/-- The page and its size, if both are given. -/
def paging? (o : Options) : Option (Int × Int) := do return (← o.page, ← o.pageSize)

/-- The number of rows before the page. -/
def offset? (o : Options) : Option Int := o.paging?.map fun (page, size) => page * size

def orderTerms (o : Options) : List String := o.orderBy.getD []

end Options
end SqlCompose
