import SqlCompose.Request
import SqlCompose.Shape.Decoded

/-!
Requests as values: decoding, and the value with every member that decodes to a given request.
-/

namespace SqlCompose

open Shape Shape.Decoded

mutual

def View.decode : Value → Decoded View
  | .obj ms =>
    View.mk <$> requiredMember ms "name" text <*> requiredMember ms "query" text <*>
        View.decodeDependencies ms <*
      onlyMembers ["name", "query", "dependencies"] ms
  | _ => fault (.noRecord .view)

def View.decodeDependencies : List (String × Value) → Decoded (List View)
  | [] => pure []
  | (name, v) :: rest =>
    if name = "dependencies" then
      (match v with
        | .arr vs => View.decodeItems 0 vs
        | _ => fault .noList).under (.member "dependencies")
    else View.decodeDependencies rest

def View.decodeItems (index : Nat) : List Value → Decoded (List View)
  | [] => pure []
  | v :: vs =>
    List.cons <$> (View.decode v).under (.item index) <*> View.decodeItems (index + 1) vs

end

def decodeJoin (v : Value) : Decoded Join := Join.ofSpelling <$> text v

def Subquery.decode : Value → Decoded Subquery
  | .obj ms =>
    Subquery.mk <$> member ms "name" "" text <*> member ms "alias" "" text <*>
        member ms "query" "" text <*> member ms "join_type" (.other "") decodeJoin <*>
        member ms "join_on" "" text <*> member ms "fields" [] (map text) <*>
        member ms "params" none (nullable (map anyValue)) <*>
        member ms "views" [] (list View.decode) <*
      onlyMembers
        ["name", "alias", "query", "join_type", "join_on", "fields", "params", "views"] ms
  | _ => fault (.noRecord .subquery)

def Query.decode : Value → Decoded Query
  | .obj ms =>
    Query.mk <$> member ms "source_table" none (nullable text) <*>
        member ms "source_query" none (nullable text) <*> member ms "alias" "" text <*>
        member ms "fields" [] (map text) <*> member ms "where" none (nullable text) <*>
        member ms "subqueries" [] (list Subquery.decode) <*
      onlyMembers ["source_table", "source_query", "alias", "fields", "where", "subqueries"] ms
  | _ => fault (.noRecord .query)

def Options.decode : Value → Decoded Options
  | .obj ms =>
    Options.mk <$> member ms "where" none (nullable text) <*>
        member ms "params" none (nullable (map anyValue)) <*>
        member ms "page" none (nullable int) <*> member ms "page_size" none (nullable int) <*>
        member ms "order_by" none (nullable (list text)) <*
      onlyMembers ["where", "params", "page", "page_size", "order_by"] ms
  | _ => fault (.noRecord .options)

/-- A value that may be left out, or `null`. -/
def nullOr (f : α → Value) : Option α → Value
  | none => .null
  | some a => f a

def fieldsValue (fields : List (String × String)) : Value :=
  .obj (fields.map fun f => (f.1, .str f.2))

mutual

def View.toValue : View → Value
  | ⟨name, query, dependencies⟩ =>
    .obj [("name", .str name), ("query", .str query),
      ("dependencies", .arr (View.toValues dependencies))]

def View.toValues : List View → List Value
  | [] => []
  | v :: vs => v.toValue :: View.toValues vs

end

def Subquery.toValue (s : Subquery) : Value :=
  .obj [("name", .str s.name), ("alias", .str s.aliasName), ("query", .str s.query),
    ("join_type", .str s.join.spelling), ("join_on", .str s.joinOn),
    ("fields", fieldsValue s.fields), ("params", nullOr .obj s.params),
    ("views", .arr (View.toValues s.views))]

def Query.toValue (q : Query) : Value :=
  .obj [("source_table", nullOr .str q.sourceTable), ("source_query", nullOr .str q.sourceQuery),
    ("alias", .str q.aliasName), ("fields", fieldsValue q.fields), ("where", nullOr .str q.filter),
    ("subqueries", .arr (q.subqueries.map Subquery.toValue))]

def Options.toValue (o : Options) : Value :=
  .obj [("where", nullOr .str o.filter), ("params", nullOr .obj o.params),
    ("page", nullOr .int o.page), ("page_size", nullOr .int o.pageSize),
    ("order_by", nullOr (fun ts => .arr (ts.map .str)) o.orderBy)]

end SqlCompose
