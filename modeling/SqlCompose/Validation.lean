import SqlCompose.Identifier
import SqlCompose.Request

/-!
Rules that a request has to meet before anything is assembled. They are checked in a fixed order
and the first fault is reported.
-/

namespace SqlCompose

inductive RequestFault where
  | twoSources
  | noSourceTable
  | noSourceQuery
  | unusableSourceTable
  | noAlias
  | unusableAlias
  | noFields
  | unusableField (name : String)
  | negativePage
  | emptyPage
  | incompleteSubquery
  | unknownJoin (spelling : String)
  | unusableSubqueryNames
  deriving DecidableEq

def RequestFault.message : RequestFault → String
  | twoSources => "Only one of source_table or source_query may be provided"
  | noSourceTable => "sourceTable is required and must be a string"
  | noSourceQuery => "sourceQuery is required and must be a string"
  | unusableSourceTable => "sourceTable has no valid identifier characters"
  | noAlias => "alias is required and must be a string"
  | unusableAlias => "alias has no valid identifier characters"
  | noFields => "fields must contain at least one field definition"
  | unusableField name => s!"Field name '{name}' has no valid identifier characters"
  | negativePage => "page must be a non-negative number"
  | emptyPage => "page_size must be a positive number"
  | incompleteSubquery => "Invalid subquery configuration: missing required fields"
  | unknownJoin spelling => "Invalid join type: " ++ spelling
  | unusableSubqueryNames =>
    "Invalid subquery configuration: name and alias need identifier characters"

/-- Given and not blank. -/
def isFilled (s : Option String) : Bool := s.any fun s => !isBlank s

def fieldNamesFault (fields : List (String × String)) : Option RequestFault :=
  (fields.find? fun f => !hasIdentifierChars f.1).map fun f => .unusableField f.1

def Subquery.fault (s : Subquery) : Option RequestFault :=
  if [s.name, s.aliasName, s.query, s.join.spelling, s.joinOn].any isBlank then
    some .incompleteSubquery
  else if s.join.keyword?.isNone then some (.unknownJoin s.join.spelling)
  else if !(hasIdentifierChars s.name && hasIdentifierChars s.aliasName) then
    some .unusableSubqueryNames
  else fieldNamesFault s.fields

namespace Query

def sourceFault (q : Query) : Option RequestFault :=
  match isFilled q.sourceTable, isFilled q.sourceQuery with
  | true, true => some .twoSources
  | false, false => some (if q.sourceTable.isSome then .noSourceTable else .noSourceQuery)
  | true, false => if q.sourceTable.any hasIdentifierChars then none else some .unusableSourceTable
  | false, true => none

def aliasFault (q : Query) : Option RequestFault :=
  if isBlank q.aliasName then some .noAlias
  else if hasIdentifierChars q.aliasName then none
  else some .unusableAlias

def fieldsFault (q : Query) : Option RequestFault :=
  if q.fields.isEmpty then some .noFields else fieldNamesFault q.fields

def subqueriesFault (q : Query) : Option RequestFault := q.subqueries.findSome? Subquery.fault

end Query

namespace Options

def pageFault (o : Options) : Option RequestFault :=
  if o.page.any (· < 0) then some .negativePage else none

def pageSizeFault (o : Options) : Option RequestFault :=
  if o.pageSize.any (· ≤ 0) then some .emptyPage else none

end Options

/-- The first fault of a request: source, alias, fields, page, page size, subqueries. -/
def firstFault (q : Query) (o : Options) : Option RequestFault :=
  [q.sourceFault, q.aliasFault, q.fieldsFault, o.pageFault, o.pageSizeFault,
    q.subqueriesFault].findSome? id

/-- Gives the reason to refuse a request, if there is one. -/
abbrev Validator := Query → Options → Option String

def standardValidator : Validator := fun q o => (firstFault q o).map RequestFault.message

end SqlCompose
