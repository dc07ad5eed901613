import SqlCompose.Expansion
import SqlCompose.Json.Reader
import SqlCompose.Shape.Fault

/-!
Errors of composition by their causes.
-/

namespace SqlCompose

/-- A step of composition that an error belongs to. -/
inductive Stage where
  | validate
  | views
  | substitute
  | parse
  | paginate
  | named (name : String)
  deriving DecidableEq

def Stage.name : Stage → String
  | validate => "validate"
  | views => "with"
  | substitute => "rewrite"
  | parse => "parse"
  | paginate => "paginate"
  | named s => s

/-- A failure that is no fault of a request. Signals that stop a program as a whole are none. -/
inductive Failure where
  | missingKey (key : String)
  | badValue (reason : String)
  /-- Any other failure, by its text. -/
  | breakdown (reason : String)
  deriving DecidableEq

def Failure.message : Failure → String
  | missingKey key => quoted key
  | badValue reason => reason
  | breakdown reason => reason

/-- A number with too many digits to be written. -/
def Failure.longNumber : Failure :=
  .badValue s!"Exceeds the limit ({maxDigits} digits) for integer string conversion; use sys.set_int_max_str_digits() to increase the limit"

inductive BuildError where
  /-- A validator refused the request. -/
  | invalid (reason : String)
  | cyclicViews (c : Cycle)
  /-- An order macro stands in a statement without order terms. -/
  | noOrderTerms
  | missingParameter (name : String)
  | malformedRequest (e : Shape.Error)
  | malformedConfig (e : Shape.Error)
  | malformedJson (text : String) (f : Json.Fault)
  /-- A document is no object with a query. -/
  | noQuery
  | unknownMembers (names : List String)
  | unknownTable (name : String)
  /-- All columns of a table are left out. -/
  | noColumns (table : String)
  /-- A row lacks a window column. -/
  | missingColumn (name : String)
  | unknownTarget (name : String) (registered : List String)
  /-- An error that a dialect raises on its own account. -/
  | custom (stage : Option Stage) (message : String)
  /-- A failure during composition. -/
  | unexpected (f : Failure)
  deriving DecidableEq

/-- What an error was raised from. -/
inductive Cause where
  | failure (f : Failure)
  | shape (e : Shape.Error)
  | json (f : Json.Fault)
  /-- An inspected database has no table of the name. -/
  | noTable (name : String)
  deriving DecidableEq

namespace BuildError

def stage? : BuildError → Option Stage
  | invalid _ => some .validate
  | cyclicViews _ => some .views
  | noOrderTerms | missingParameter _ => some .substitute
  | malformedRequest _ | malformedJson .. | noQuery | unknownMembers _ | unknownTable _ |
    noColumns _ => some .parse
  | missingColumn _ => some .paginate
  | custom stage _ => stage
  | malformedConfig _ | unknownTarget .. | unexpected _ => none

/-- The text of an error, given how the faults of an ill-shaped value are put into words. -/
def message (wording : Shape.Error → String) : BuildError → String
  | invalid reason => if reason = "" then "Invalid query" else reason
  | cyclicViews c => c.message
  | noOrderTerms => "Order macro $order_by requires order_by terms"
  | missingParameter name => "Missing parameter: " ++ name
  | malformedRequest e => "Invalid composition request: " ++ wording e
  | malformedConfig e => "Invalid composer configuration: " ++ wording e
  | malformedJson text f => "Invalid JSON: " ++ f.describe text
  | noQuery => "Request must be an object with a 'query' member"
  | unknownMembers names => "Unknown request members: " ++ quotedList names
  | unknownTable name => s!"Table '{name}' not found."
  | noColumns table => s!"No columns of table '{table}' left to project."
  | missingColumn name => "Row is missing pagination field: " ++ name
  | unknownTarget name registered =>
    s!"Unsupported dialect target: '{name}'. Registered targets: {quotedList registered}."
  | custom _ message => message
  | unexpected f => "Failed to build SQL query: " ++ f.message

/-- What an error was raised from, if it was not raised first. -/
def cause? : BuildError → Option Cause
  | malformedRequest e | malformedConfig e => some (.shape e)
  | malformedJson _ f => some (.json f)
  | unknownTable name => some (.noTable name)
  | unexpected f => some (.failure f)
  | invalid _ | cyclicViews _ | noOrderTerms | missingParameter _ | noQuery | unknownMembers _ |
    noColumns _ | missingColumn _ | unknownTarget .. | custom .. => none

end BuildError

/-- What stops a composition: an error that is reported as it is, or a failure. -/
inductive Abort where
  | refused (e : BuildError)
  | failed (f : Failure)
  deriving DecidableEq

end SqlCompose
