import SqlCompose.Order.Macro
import SqlCompose.Placeholder

/-!
Drafts: assembled texts whose marks are replaced by passes, one after another.
-/

namespace SqlCompose

/-- A text on its way to a statement, and the parameters bound so far. -/
structure Draft where
  text : String
  params : List Value := []

inductive Pass where
  | orderMacros (terms : List String)
  | placeholders (d : Dialect) (values : List (String × Value))

def Pass.apply (x : Draft) : Pass → Except Abort Draft
  | .orderMacros terms =>
    match expandOrder terms x.text with
    | .ok text => .ok { x with text }
    | .error e => .error (.refused e)
  | .placeholders d values => do
    let bound ← bindPlaceholders d.marker values x.text x.params
    return ⟨bound.1, bound.2⟩

/-- A text after all passes, with nothing bound before the first. -/
def runPasses (passes : List Pass) (text : String) : Except Abort Draft :=
  passes.foldlM Pass.apply { text }

end SqlCompose
