import SqlCompose.Text.Blank
import SqlCompose.Text.Upper

/-!
Kinds of joins and their spellings.
-/

namespace SqlCompose

inductive Join where
  | inner
  | left
  /-- A spelling of no supported kind, kept as it is. -/
  | other (spelling : String)
  deriving DecidableEq

namespace Join

/-- Upper case, and single spaces between words. -/
def fold (s : String) : String :=
  " ".intercalate ((wordsBetweenBlanks (upper s.toList)).map String.ofList)

def innerSpellings : List String := ["INNER", "JOIN", "INNER JOIN"]

def leftSpellings : List String := ["LEFT", "LEFT JOIN", "LEFT OUTER JOIN"]

def ofSpelling (s : String) : Join :=
  if fold s ∈ innerSpellings then .inner
  else if fold s ∈ leftSpellings then .left
  else .other s

def spelling : Join → String
  | inner => "INNER"
  | left => "LEFT"
  | other s => s

/-- The words that a statement joins with. -/
def keyword? : Join → Option String
  | inner => some "JOIN"
  | left => some "LEFT JOIN"
  | other _ => none

end Join
end SqlCompose
