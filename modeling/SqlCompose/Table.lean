import SqlCompose.Error
import SqlCompose.Identifier

/-!
Output fields taken from the columns of a table.
-/

namespace SqlCompose

structure Table where
  name : String
  columns : List String

namespace Table

/-- The columns that are kept: those included, if any are named, without those excluded. -/
def kept (t : Table) (include? : Option (List String)) (exclude : List String) : List String :=
  t.columns.filter fun c => c ∉ exclude && include?.all (c ∈ ·)

/-- Each kept column, qualified by the alias of the table. -/
def fields (t : Table) (qualifier : String) (include? : Option (List String)) (exclude : List String) :
    Except BuildError (List (String × String)) :=
  match t.kept include? exclude with
  | [] => .error (.noColumns t.name)
  | columns => .ok (columns.map fun c => (c, s!"{sanitize qualifier}.{c}"))

end Table

inductive TableError where
  | build (e : BuildError)
  /-- The tables of a database cannot be inspected. -/
  | noInspection

/-- The fields of the table called `name`, among the tables of a database, or of one schema in it, if
these are known. -/
def tableFields (tables? : Option (List Table)) (name qualifier : String)
    (include? : Option (List String)) (exclude : List String) :
    Except TableError (List (String × String)) :=
  match tables? with
  | none => .error .noInspection
  | some tables =>
    match tables.find? (·.name = name) with
    | none => .error (.build (.unknownTable name))
    | some t => (t.fields qualifier include? exclude).mapError .build

end SqlCompose
