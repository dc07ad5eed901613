import Mathlib.Data.List.Perm.Basic
import SqlCompose.Table
import SqlCompose.Proofs.Fragment
import SqlCompose.Proofs.Composer.Raised

/-!
# Fields of a table

Which columns of a table are selected is told by the names that are included and excluded, whatever
else their lists hold (`Table.kept_congr`). A table without repeated columns has one selection
(`Table.selection_iff`).

A query whose fields are the selected columns names the alias of the table in its fields and again
in its source, both times in the sanitized form. So the text that its clauses make is `columnsText`,
with one alias throughout (`assemble_fieldsOf`). No mark begins in this text, and every dialect
leaves it as it is (`compose_fieldsOf`).
-/

namespace SqlCompose

/-- A column is selected if it is among the included ones, where any are given, and is not
excluded. -/
def Selects (include? : Option (List String)) (exclude : List String) (column : String) : Prop :=
  (∀ included ∈ include?, column ∈ included) ∧ column ∉ exclude

instance (include? : Option (List String)) (exclude : List String) (column : String) :
    Decidable (Selects include? exclude column) :=
  inferInstanceAs (Decidable (_ ∧ _))

/-- The columns of a table that are selected, in the order of the table. -/
structure Table.Selection (t : Table) (include? : Option (List String)) (exclude : List String)
    (columns : List String) : Prop where
  sublist : columns.Sublist t.columns
  mem_iff : ∀ c, c ∈ columns ↔ c ∈ t.columns ∧ Selects include? exclude c

/-- The query of a table under an alias. -/
def Table.query (t : Table) (aliasName : String) (fields : List (String × String)) : Query :=
  ⟨some t.name, none, aliasName, fields, none, []⟩

/-- Columns as fields, each qualified by the alias of their table. -/
def fieldsOf (aliasName : String) (columns : List String) : List (String × String) :=
  columns.map fun c => (c, aliasName ++ "." ++ c)

/-- The statement that shows columns of a table under their own names. -/
def columnsText (table aliasName : String) (columns : List String) : String :=
  "SELECT " ++ ", ".intercalate (columns.map fun c => aliasName ++ "." ++ c ++ " AS " ++ c) ++
    " FROM " ++ table ++ " AS " ++ aliasName

section

variable {t : Table} {tables : List Table} {include? include?' : Option (List String)}
  {exclude exclude' columns : List String} {aliasName : String}

/-! ### Selected columns -/

namespace Table

theorem mem_kept_iff {c : String} :
    c ∈ t.kept include? exclude ↔ c ∈ t.columns ∧ Selects include? exclude c := by
  rw [kept, List.mem_filter, Selects]
  cases include? <;> simp [and_comm]

theorem selection_kept (t : Table) (include? : Option (List String)) (exclude : List String) :
    t.Selection include? exclude (t.kept include? exclude) where
  sublist := List.filter_sublist
  mem_iff _ := mem_kept_iff

/-- A table without repeated columns has one selection for what is included and excluded. -/
theorem selection_iff (h : t.columns.Nodup) :
    t.Selection include? exclude columns ↔ columns = t.kept include? exclude := by
  have hkept := selection_kept t include? exclude
  constructor
  · intro hcolumns
    refine (h.perm_iff_eq_of_sublist hcolumns.sublist hkept.sublist).mp ?_
    refine (List.perm_ext_iff_of_nodup (h.sublist hcolumns.sublist) (h.sublist hkept.sublist)).mpr
      fun c => ?_
    rw [hcolumns.mem_iff, hkept.mem_iff]
  · rintro rfl
    exact hkept

theorem kept_eq_nil_iff :
    t.kept include? exclude = [] ↔ ∀ c ∈ t.columns, ¬ Selects include? exclude c := by
  simp only [List.eq_nil_iff_forall_not_mem, mem_kept_iff, not_and]

/-- Lists that select the same columns of a table may differ in all else. -/
theorem kept_congr (hd : t.columns.Nodup)
    (h : ∀ c ∈ t.columns, Selects include?' exclude' c ↔ Selects include? exclude c) :
    t.kept include?' exclude' = t.kept include? exclude := by
  refine (selection_iff hd).mp ⟨List.filter_sublist, fun c => ?_⟩
  rw [mem_kept_iff]
  exact and_congr_right fun hc => h c hc

end Table

/-! ### Fields of the selected columns -/

section

variable (h : tables.find? (·.name = t.name) = some t)
include h

theorem tableFields_of_kept_eq_nil (hkept : t.kept include? exclude = []) :
    tableFields (some tables) t.name aliasName include? exclude =
      .error (.build (.noColumns t.name)) := by
  simp only [tableFields, h, Table.fields, hkept]
  rfl

theorem tableFields_of_kept_ne_nil (hkept : t.kept include? exclude ≠ []) :
    tableFields (some tables) t.name aliasName include? exclude =
      .ok (fieldsOf (sanitize aliasName) (t.kept include? exclude)) := by
  obtain ⟨c, cs, hcs⟩ := List.exists_cons_of_ne_nil hkept
  simp only [tableFields, h, Table.fields, hcs]
  rfl

theorem tableFields_eq_error_iff :
    tableFields (some tables) t.name aliasName include? exclude =
      .error (.build (.noColumns t.name)) ↔ ∀ c ∈ t.columns, ¬ Selects include? exclude c := by
  rw [← Table.kept_eq_nil_iff]
  constructor
  · intro herror
    by_contra hkept
    rw [tableFields_of_kept_ne_nil h hkept] at herror
    contradiction
  · exact tableFields_of_kept_eq_nil h

end

/-! ### The query of a table -/

section

variable {params : Option (List (String × Value))} (ht : hasIdentifierChars t.name)
  (halias : hasIdentifierChars aliasName) (hplain : ∀ c ∈ columns, isPlainIdentifier c)

include ht halias hplain in
theorem standardValidator_fieldsOf (hne : columns ≠ []) (qualifier : String) :
    standardValidator (t.query aliasName (fieldsOf qualifier columns)) { params } = none := by
  rw [standardValidator_eq_none_iff, firstFault_eq_none_iff]
  exact {
    source := .inl ⟨ht, rfl⟩
    aliasName := halias
    fields := by simpa [Table.query, fieldsOf] using hne
    fieldNames := by
      rintro f hf
      obtain ⟨c, hc, rfl⟩ := List.mem_map.mp hf
      exact hasIdentifierChars_of_isPlainIdentifier (hplain c hc)
    page := by simp
    pageSize := by simp
    subqueries := by simp [Table.query] }

include hplain in
theorem selectItems_fieldsOf (aliasName : String) :
    Clause.selectItems (fieldsOf (sanitize aliasName) columns) =
      columns.map fun c => sanitize aliasName ++ "." ++ c ++ " AS " ++ c := by
  rw [Clause.selectItems, fieldsOf, List.map_map]
  refine List.map_congr_left fun c hc => ?_
  have hsan := ((isPlainIdentifier_iff c).mp (hplain c hc)).2
  -- Neither part of a qualified column has a blank, and the dot is none.
  have hstrip : strip (sanitize aliasName ++ "." ++ c) = sanitize aliasName ++ "." ++ c := by
    refine strip_of_not_blank fun d hd => ?_
    rw [← hsan, String.toList_append, String.toList_append, List.mem_append, List.mem_append] at hd
    rcases hd with (hd | hd) | hd
    · exact not_isBlankChar_of_isIdentifierChar (isIdentifierChar_of_mem_sanitize hd)
    · obtain rfl : d = '.' := by simpa using hd
      decide
    · exact not_isBlankChar_of_isIdentifierChar (isIdentifierChar_of_mem_sanitize hd)
  simp only [Function.comp_apply, hstrip, hsan]

include hplain in
theorem select_fieldsOf (c : Config) (name : String) :
    Clause.select c (t.query name (fieldsOf (sanitize aliasName) columns)) { params } =
      "SELECT " ++ ", ".intercalate
        (columns.map fun c => sanitize aliasName ++ "." ++ c ++ " AS " ++ c) := by
  have hwindow : Clause.hasWindow c { params } = false := by
    simp [Clause.hasWindow, Options.orderTerms]
  simp [Clause.select, Table.query, selectItems_fieldsOf hplain, hwindow, Clause.commas]

include ht in
theorem source_query (fields : List (String × String)) :
    Clause.source (t.query aliasName fields) =
      "FROM " ++ sanitize t.name ++ " AS " ++ sanitize aliasName := by
  simp [Clause.source, Table.query, not_isBlank_of_hasIdentifierChars ht]

include ht hplain in
/-- Both clauses of the query name its alias, and there are no others. -/
theorem assemble_fieldsOf (c : Config) :
    Clause.assemble c [] (t.query aliasName (fieldsOf (sanitize aliasName) columns)) { params } =
      .ok (columnsText (sanitize t.name) (sanitize aliasName) columns) := by
  rw [Clause.assemble_bare rfl rfl, select_fieldsOf hplain, source_query ht, columnsText]
  simp only [String.append_assoc]
  rfl

include hplain in
theorem plain_columnsText (table aliasName : String) :
    Plain (columnsText (sanitize table) (sanitize aliasName) columns) := by
  have halias := plain_sanitize aliasName
  have hitems : Plain (", ".intercalate
      (columns.map fun c => sanitize aliasName ++ "." ++ c ++ " AS " ++ c)) := by
    refine Plain.intercalate (by decide) fun item hitem => ?_
    obtain ⟨c, hc, rfl⟩ := List.mem_map.mp hitem
    have hcolumn := plain_of_isPlainIdentifier (hplain c hc)
    exact (((halias.append (by decide)).append hcolumn).append (by decide)).append hcolumn
  have hselect : Plain "SELECT " := by decide
  exact ((((hselect.append hitems).append (by decide)).append (plain_sanitize table)).append
    (by decide)).append halias

include ht halias hplain in
/-- The query of a table with some of its columns is composed to the same text for all dialects. -/
theorem compose_fieldsOf {r : Registry} {c : Config} {d : Dialect} (hd : r.find c.target = .ok d)
    (hne : columns ≠ []) :
    (compose r c (t.query aliasName (fieldsOf (sanitize aliasName) columns)) { params }).result =
      .ok ⟨columnsText (sanitize t.name) (sanitize aliasName) columns, [], d.name⟩ := by
  have hplainText := plain_columnsText hplain t.name aliasName
  rw [compose_of_find hd]
  refine (Composer.compose_of_write_eq_ok (standardValidator_fieldsOf ht halias hplain hne _) rfl
    ?_).1
  rw [Composer.write_eq, assemble_fieldsOf ht hplain]
  simp only [expandOrder_plain hplainText, bindPlaceholders_plain hplainText]
  rfl

end

end

/-- The fields of a table are its selected columns, if any are selected. A query of the table with
these fields is then accepted, and all dialects show it as the same statement. -/
theorem tableFields_compose {tables : List Table} {t : Table} {aliasName : String}
    (h : tables.find? (·.name = t.name) = some t) (ht : hasIdentifierChars t.name)
    (halias : hasIdentifierChars aliasName) (hplain : ∀ c ∈ t.columns, isPlainIdentifier c)
    (hd : t.columns.Nodup) (include? : Option (List String)) (exclude : List String) :
    (∃! columns, t.Selection include? exclude columns) ∧
    (∀ include?' exclude',
      (∀ c ∈ t.columns, Selects include?' exclude' c ↔ Selects include? exclude c) →
      tableFields (some tables) t.name aliasName include?' exclude' =
        tableFields (some tables) t.name aliasName include? exclude) ∧
    ((tableFields (some tables) t.name aliasName include? exclude =
        .error (.build (.noColumns t.name)) ↔ ∀ c ∈ t.columns, ¬ Selects include? exclude c) ∧
      ∀ wording, (BuildError.noColumns t.name).message wording =
        "No columns of table '" ++ t.name ++ "' left to project.") ∧
    ((∃ c ∈ t.columns, Selects include? exclude c) →
      ∀ columns, t.Selection include? exclude columns →
        ∃ fields, tableFields (some tables) t.name aliasName include? exclude = .ok fields ∧
          fields = fieldsOf (sanitize aliasName) columns ∧
          ∀ params, standardValidator (t.query aliasName fields) { params } = none ∧
            ∀ r : Registry, r.HasBuiltin → ∀ d ∈ Dialect.builtin, ∀ c : Config,
              (compose r { c with target := d.name } (t.query aliasName fields)
                  { params }).result =
                .ok ⟨columnsText (sanitize t.name) (sanitize aliasName) columns, [], d.name⟩) := by
  refine ⟨⟨_, t.selection_kept include? exclude, fun _ => (Table.selection_iff hd).mp⟩, ?_,
    ⟨tableFields_eq_error_iff h, fun _ => rfl⟩, ?_⟩
  · intro include?' exclude' hsame
    simp only [tableFields, h, Table.fields, Table.kept_congr hd hsame]
  · rintro ⟨c, hc, hselects⟩ columns hcolumns
    have hne : columns ≠ [] := List.ne_nil_of_mem ((hcolumns.mem_iff c).mpr ⟨hc, hselects⟩)
    have hplain : ∀ c ∈ columns, isPlainIdentifier c := fun c hc =>
      hplain c (hcolumns.sublist.subset hc)
    obtain rfl := (Table.selection_iff hd).mp hcolumns
    refine ⟨_, tableFields_of_kept_ne_nil h hne, rfl, fun params => ⟨?_, ?_⟩⟩
    · exact standardValidator_fieldsOf ht halias hplain hne _
    · intro r hr d hbuiltin c
      exact compose_fieldsOf ht halias hplain (hr d hbuiltin) hne

def tags : Table := ⟨"tags", ["id", "name"]⟩

def posts : Table := ⟨"posts (old)", ["id", "user_id", "content", "created_at"]⟩

/-- Columns included in another order than that of the table, one of which is excluded and one no
column, and a list that leaves no column. -/
theorem tableFields_compose_of_posts :
    [tags, posts].find? (·.name = posts.name) = some posts ∧ hasIdentifierChars posts.name ∧
    hasIdentifierChars "p-1" ∧ (∀ c ∈ posts.columns, isPlainIdentifier c) ∧ posts.columns.Nodup ∧
    tableFields (some [tags, posts]) posts.name "p-1" (some ["content", "id", "x", "user_id"])
      ["id"] = .ok [("user_id", "p1.user_id"), ("content", "p1.content")] ∧
    (compose .builtin { target := "postgres" }
      (posts.query "p-1" [("user_id", "p1.user_id"), ("content", "p1.content")]) .empty).result =
      .ok ⟨"SELECT p1.user_id AS user_id, p1.content AS content FROM postsold AS p1", [],
        "postgres"⟩ ∧
    tableFields (some [tags, posts]) posts.name "p-1" (some ["x", "id"]) ["id"] =
      .error (.build (.noColumns posts.name)) := by
  have hfind : [tags, posts].find? (·.name = posts.name) = some posts := rfl
  have hname : hasIdentifierChars posts.name := by decide
  have halias : hasIdentifierChars "p-1" := by decide
  have hplain : ∀ c ∈ posts.columns, isPlainIdentifier c := by decide
  have hd : posts.columns.Nodup := by decide
  have hposts := tableFields_compose hfind hname halias hplain hd
  have hselection : posts.Selection (some ["content", "id", "x", "user_id"]) ["id"]
      ["user_id", "content"] := (Table.selection_iff hd).mpr (by decide)
  obtain ⟨fields, hfields, heq, hcompose⟩ := (hposts _ _).2.2.2
    ⟨"content", by decide, by decide⟩ _ hselection
  obtain rfl : fields = [("user_id", "p1.user_id"), ("content", "p1.content")] :=
    heq.trans rfl
  have htext : columnsText (sanitize posts.name) (sanitize "p-1") ["user_id", "content"] =
      "SELECT p1.user_id AS user_id, p1.content AS content FROM postsold AS p1" := rfl
  have hresult := (hcompose none).2 _ Registry.hasBuiltin_builtin .postgres
    (by simp [Dialect.builtin]) {}
  rw [htext] at hresult
  exact ⟨hfind, hname, halias, hplain, hd, hfields, hresult, (hposts _ _).2.2.1.1.mpr (by decide)⟩

end SqlCompose
