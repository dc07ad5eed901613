import SqlCompose.Clause
import SqlCompose.Draft
import SqlCompose.Request.Decode
import SqlCompose.Validation

/-!
Composition of a request into a statement, with a record of what happened on the way.
-/

namespace SqlCompose

/-- A text with the markers of a dialect, and the values of its parameters in order. -/
structure Statement where
  text : String
  params : List Value
  dialect : String

inductive LogRecord where
  /-- The names of the views that subqueries need, unless there are none. -/
  | expandedViews (names : List String)
  | composed (dialect : String) (params : Nat) (text : String)
  | failed
  deriving DecidableEq

inductive LogLevel where
  | debug
  | error
  deriving DecidableEq

namespace LogRecord

def level : LogRecord → LogLevel
  | failed => .error
  | _ => .debug

def message : LogRecord → String
  | expandedViews names => "Expanded views: " ++ quotedList names
  | composed dialect params text =>
    s!"Composed {dialect} statement with {params} parameter(s): {text}"
  | failed => "Unexpected failure while composing SQL"

end LogRecord

/-- What comes of a composition: a statement, or what is raised. A failure is raised as it is only if
it happens before the composition starts, when the dialect is made. -/
structure Outcome where
  result : Except Abort Statement
  log : List LogRecord := []

structure Composer where
  dialect : Dialect
  config : Config
  validator : Validator := standardValidator

/-- The values of placeholders, of which the first of a name counts: those of the options, then the
defaults of the subqueries. -/
def bindings (subqueries : List Subquery) (o : Options) : List (String × Value) :=
  o.params.getD [] ++ subqueries.flatMap (·.params.getD [])

namespace Composer

def ofTarget (r : Registry) (c : Config) : Except Abort Composer := do
  return { dialect := ← r.find c.target, config := c }

def passes (c : Composer) (q : Query) (o : Options) : List Pass :=
  [.orderMacros o.orderTerms, .placeholders c.dialect (bindings q.subqueries o)]

/-- The statement of a request whose views are in order. -/
def write (c : Composer) (views : List View) (q : Query) (o : Options) :
    Except Abort Statement := do
  let text ← (Clause.assemble c.config views q o).mapError .failed
  let draft ← runPasses (c.passes q o) text
  return ⟨draft.text, draft.params, c.dialect.name⟩

def compose (c : Composer) (q : Query) (o : Options) : Outcome :=
  match c.validator q o with
  | some reason => { result := .error (.refused (.invalid reason)) }
  | none =>
    match expandViews q.subqueries with
    | .error cycle => { result := .error (.refused (.cyclicViews cycle)) }
    | .ok views =>
      let expanded := if views.isEmpty then [] else [.expandedViews (views.map View.name)]
      match c.write views q o with
      | .ok s => ⟨.ok s, expanded ++ [.composed s.dialect s.params.length s.text]⟩
      | .error (.refused e) => ⟨.error (.refused e), expanded⟩
      | .error (.failed f) => ⟨.error (.refused (.unexpected f)), expanded ++ [.failed]⟩

end Composer

/-- Composes with the dialect that the config names. What making it raises is not wrapped. -/
def compose (r : Registry) (c : Config) (q : Query) (o : Options) : Outcome :=
  match Composer.ofTarget r c with
  | .ok composer => composer.compose q o
  | .error a => { result := .error a }

/-- Composes a request given as values; options may be left out. -/
def composeValues (r : Registry) (c : Config) (query : Value) (options : Option Value) : Outcome :=
  let refuse (model : Model) (faults : List Shape.Fault) : Outcome :=
    { result := .error (.refused (.malformedRequest ⟨model, faults⟩)) }
  match Query.decode query with
  | .error faults => refuse .query faults
  | .ok q =>
    match options with
    | none => compose r c q .empty
    | some v =>
      match Options.decode v with
      | .error faults => refuse .options faults
      | .ok o => compose r c q o

end SqlCompose
