import SqlCompose.Request

/-!
The order of views in a `WITH` clause: each view after all of its own dependencies and each name
once. The first view of a name wins, and a view that depends on its own name is refused.
-/

namespace SqlCompose

/-- The names along a chain of dependencies from a view to the next of its own name. -/
structure Cycle where
  names : List String
  deriving DecidableEq

def Cycle.message (c : Cycle) : String :=
  "Circular view dependency: " ++ " -> ".intercalate c.names

mutual

/-- Adds a view below the views `path` to the views `done`, unless its name is among them. Chains of
dependencies may be of any depth; that a machine has a limit on recursion is left out. -/
def View.visit (path : List String) (done : List View) : View → Except Cycle (List View)
  | ⟨name, query, dependencies⟩ =>
    if name ∈ path then .error ⟨path.dropWhile (· ≠ name) ++ [name]⟩
    else if name ∈ done.map View.name then .ok done
    else
      match View.visitAll (path ++ [name]) done dependencies with
      | .error c => .error c
      | .ok done => .ok (done ++ [⟨name, query, dependencies⟩])

def View.visitAll (path : List String) (done : List View) : List View → Except Cycle (List View)
  | [] => .ok done
  | v :: vs =>
    match View.visit path done v with
    | .error c => .error c
    | .ok done => View.visitAll path done vs

end

/-- The views that some subqueries need, dependencies first. -/
def expandViews (subqueries : List Subquery) : Except Cycle (List View) :=
  View.visitAll [] [] (subqueries.flatMap Subquery.views)

end SqlCompose
