import SqlCompose.Text.Blank
import SqlCompose.Text.Word

/-!
Order terms, such as `u.name ASC`, and their reversal.
-/

namespace SqlCompose

inductive Direction where
  | asc
  | desc
  deriving DecidableEq

namespace Direction

def keyword : Direction → String
  | asc => "ASC"
  | desc => "DESC"

def opposite : Direction → Direction
  | asc => desc
  | desc => asc

/-- Upper case of a letter of a keyword. The long s is an S too. -/
def foldLetter (c : Char) : Char := if c = 'ſ' then 'S' else c.toUpper

/-- The direction that a run of characters names, in any case. -/
def ofRun? (run : List Char) : Option Direction :=
  [asc, desc].find? fun d => run.map foldLetter == d.keyword.toList

end Direction

/-- The runs of word characters of a term and of those between them. A direction is named by a
whole run. -/
def termRuns (term : String) : List (List Char) := runs isWordChar term.toList

def hasDirection (term : String) : Bool := (termRuns term).any (Direction.ofRun? · |>.isSome)

def reverseRun (run : List Char) : List Char :=
  match Direction.ofRun? run with
  | some d => d.opposite.keyword.toList
  | none => run

/-- The term that sorts the other way round. A term without a direction sorts upward. -/
def reverseTerm (term : String) : String :=
  if hasDirection term then String.ofList ((termRuns term).flatMap reverseRun)
  else stripRight term ++ " DESC"

end SqlCompose
