import SqlCompose.Proofs.Composer.Stages

/-!
# Names count by what is left of them

A statement shows each name of a request in its sanitized form, and a request is well formed by the
names that leave something when sanitized. So an accepted request is accepted with the sanitized
forms of its names too (`WellFormed.sanitized`) and has the same clauses (`assemble_sanitized`).
Requests that agree in these forms end alike, since each ends like the one with these forms.
-/

namespace SqlCompose

/-- The names of fields are sanitized, and the expressions kept. -/
def sanitizeNames (fields : List (String × String)) : List (String × String) :=
  fields.map fun f => (sanitize f.1, f.2)

/-- A subquery with the sanitized forms of its names. -/
def Subquery.sanitized (s : Subquery) : Subquery :=
  { s with
    name := sanitize s.name
    aliasName := sanitize s.aliasName
    fields := sanitizeNames s.fields }

/-- A query with the sanitized forms of its names, which are those of tables, aliases, subqueries
and fields. Two queries share it if they differ at most in names, and these agree as identifiers. -/
def Query.sanitized (q : Query) : Query :=
  { q with
    sourceTable := q.sourceTable.map sanitize
    aliasName := sanitize q.aliasName
    fields := sanitizeNames q.fields
    subqueries := q.subqueries.map Subquery.sanitized }

section

variable {r : Registry} {c : Config} {q q' : Query} {o : Options} {s : Subquery}
  {fields : List (String × String)}

/-! ### Accepted requests -/

theorem hasIdentifierChars_of_mem_sanitizeNames (h : ∀ f ∈ fields, hasIdentifierChars f.1) :
    ∀ f ∈ sanitizeNames fields, hasIdentifierChars f.1 := by
  intro f hf
  obtain ⟨g, hg, rfl⟩ := List.mem_map.mp hf
  rw [hasIdentifierChars_sanitize]
  exact h g hg

theorem Subquery.Usable.sanitized (h : s.Usable) : s.sanitized.Usable where
  query := h.query
  join := h.join
  joinOn := h.joinOn
  name := (hasIdentifierChars_sanitize s.name).trans h.name
  aliasName := (hasIdentifierChars_sanitize s.aliasName).trans h.aliasName
  fieldNames := hasIdentifierChars_of_mem_sanitizeNames h.fieldNames

theorem not_isFilled_map_sanitize {t : Option String} (h : isFilled t = false) :
    isFilled (t.map sanitize) = false := by
  cases t with
  | none => rfl
  | some t =>
    have ht : isBlank t := by simpa [isFilled] using h
    simp [isFilled, isBlank_sanitize ht]

theorem Query.HasSource.sanitized (h : q.HasSource) : q.sanitized.HasSource := by
  rcases h with ⟨htable, hquery⟩ | ⟨htable, hquery⟩
  · refine .inl ⟨?_, hquery⟩
    cases ht : q.sourceTable with
    | none => simp [ht] at htable
    | some t =>
      rw [ht] at htable
      simpa [Query.sanitized, ht, hasIdentifierChars_sanitize] using htable
  · exact .inr ⟨not_isFilled_map_sanitize htable, hquery⟩

theorem WellFormed.sanitized (h : WellFormed q o) : WellFormed q.sanitized o where
  source := h.source.sanitized
  aliasName := (hasIdentifierChars_sanitize q.aliasName).trans h.aliasName
  fields := by simpa [Query.sanitized, sanitizeNames] using h.fields
  fieldNames := hasIdentifierChars_of_mem_sanitizeNames h.fieldNames
  page := h.page
  pageSize := h.pageSize
  subqueries := by
    intro s hs
    obtain ⟨t, ht, rfl⟩ := List.mem_map.mp hs
    exact (h.subqueries t ht).sanitized

theorem standardValidator_sanitized (h : standardValidator q o = none) :
    standardValidator q.sanitized o = none := by
  rw [standardValidator_eq_none_iff, firstFault_eq_none_iff] at h ⊢
  exact h.sanitized

/-! ### Clauses -/

namespace Clause

theorem selectItems_sanitizeNames (fields : List (String × String)) :
    selectItems (sanitizeNames fields) = selectItems fields := by
  simp [selectItems, sanitizeNames, sanitize_sanitize]

theorem ctes_sanitized (views : List View) (ss : List Subquery) :
    ctes views (ss.map Subquery.sanitized) = ctes views ss := by
  simp [ctes, Subquery.sanitized, Function.comp_def, sanitize_sanitize]

theorem select_sanitized (c : Config) (q : Query) (o : Options) :
    select c q.sanitized o = select c q o := by
  simp [select, Query.sanitized, Subquery.sanitized, List.flatMap_map, selectItems_sanitizeNames]

/-- The source is a table before and after, or a query before and after. -/
theorem source_sanitized (h : q.HasSource) : source q.sanitized = source q := by
  have hblank : isBlank (q.sanitized.sourceTable.getD "") = isBlank (q.sourceTable.getD "") := by
    cases ht : q.sourceTable with
    | none => simp [Query.sanitized, ht]
    | some t =>
      simp only [Query.sanitized, ht, Option.map_some, Option.getD_some]
      rcases h with ⟨htable, -⟩ | ⟨htable, -⟩
      · have hid : hasIdentifierChars t := by simpa [ht] using htable
        rw [not_isBlank_of_hasIdentifierChars hid, not_isBlank_of_hasIdentifierChars
          ((hasIdentifierChars_sanitize t).trans hid)]
      · have hb : isBlank t := by simpa [ht, isFilled] using htable
        rw [hb, isBlank_sanitize hb]
  have htable : sanitize (q.sanitized.sourceTable.getD "") = sanitize (q.sourceTable.getD "") := by
    cases ht : q.sourceTable <;> simp [Query.sanitized, ht, sanitize_sanitize]
  have halias : sanitize q.sanitized.aliasName = sanitize q.aliasName := sanitize_sanitize _
  simp only [source, hblank, htable, halias]
  rfl

theorem join_sanitized (s : Subquery) : join s.sanitized = join s := by
  simp [join, Subquery.sanitized, sanitize_sanitize]

theorem joins_sanitized (ss : List Subquery) : joins (ss.map Subquery.sanitized) = joins ss := by
  have hjoin : join ∘ Subquery.sanitized = join := funext join_sanitized
  rw [joins, List.mapM_map, hjoin, joins]

theorem assemble_sanitized (h : q.HasSource) (views : List View) :
    assemble c views q.sanitized o = assemble c views q o := by
  have hctes : ctes views q.sanitized.subqueries = ctes views q.subqueries := ctes_sanitized ..
  have hjoins : joins q.sanitized.subqueries = joins q.subqueries := joins_sanitized ..
  unfold assemble all
  rw [hctes, hjoins, select_sanitized, source_sanitized h]
  rfl

end Clause

/-! ### Composition -/

theorem Composer.compose_sanitized (d : Dialect) (c : Config) (h : standardValidator q o = none) :
    compose { dialect := d, config := c } q.sanitized o =
      compose { dialect := d, config := c } q o := by
  have hform : WellFormed q o := by rwa [standardValidator_eq_none_iff, firstFault_eq_none_iff] at h
  refine compose_congr ?_ ?_ (Clause.assemble_sanitized hform.source) rfl ?_
  · exact (standardValidator_sanitized h).trans h.symm
  · have hviews : q.sanitized.subqueries.flatMap Subquery.views =
        q.subqueries.flatMap Subquery.views := List.flatMap_map ..
    rw [expandViews, hviews, expandViews]
  · have hparams : q.sanitized.subqueries.flatMap (·.params.getD []) =
        q.subqueries.flatMap (·.params.getD []) := List.flatMap_map ..
    rw [bindings, hparams, bindings]

theorem compose_sanitized (h : standardValidator q o = none) :
    compose r c q.sanitized o = compose r c q o :=
  compose_congr fun d => Composer.compose_sanitized d c h

/-- Accepted queries with the same identifiers end alike, and so does a query that is given by its
identifiers from the start. -/
theorem compose_by_identifiers (r : Registry) (c : Config) (o : Options) :
    (∀ q q' : Query, standardValidator q o = none → standardValidator q' o = none →
      q.sanitized = q'.sanitized → compose r c q o = compose r c q' o) ∧
    ∀ q : Query, standardValidator q o = none →
      standardValidator q.sanitized o = none ∧ compose r c q.sanitized o = compose r c q o := by
  refine ⟨fun q q' hq hq' h => ?_, fun q hq => ?_⟩
  · calc compose r c q o
      _ = compose r c q.sanitized o := (compose_sanitized hq).symm
      _ = compose r c q'.sanitized o := by rw [h]
      _ = compose r c q' o := compose_sanitized hq'
  · exact ⟨standardValidator_sanitized hq, compose_sanitized hq⟩

end

/-- A table, a subquery and their fields under names with much to drop. -/
def spacedUsers : Query :=
  ⟨some "users; --", none, "u.", [("full name", "u.name")], none,
    [⟨"posts ", "p!", "SELECT ?since", .left, "true", [("n (of posts)", "p.n")],
      some [("since", .int 1)], []⟩]⟩

/-- The same with other names of the same identifiers. -/
def plainUsers : Query :=
  ⟨some "users", none, "-u", [("fullname", "u.name")], none,
    [⟨"po sts", "p", "SELECT ?since", .left, "true", [("nofposts", "p.n")],
      some [("since", .int 1)], []⟩]⟩

theorem compose_by_identifiers_of_users :
    standardValidator spacedUsers .empty = none ∧ standardValidator plainUsers .empty = none ∧
      spacedUsers.sanitized = plainUsers.sanitized ∧
      compose .builtin {} spacedUsers .empty = compose .builtin {} plainUsers .empty ∧
      compose .builtin {} spacedUsers.sanitized .empty =
        compose .builtin {} spacedUsers .empty := by
  have hq : standardValidator spacedUsers .empty = none := by decide +kernel
  have hq' : standardValidator plainUsers .empty = none := by decide +kernel
  have hsame : spacedUsers.sanitized = plainUsers.sanitized := by
    have htable : sanitize "users; --" = sanitize "users" := by decide +kernel
    have halias : sanitize "u." = sanitize "-u" := by decide +kernel
    have hfield : sanitize "full name" = sanitize "fullname" := by decide +kernel
    have hname : sanitize "posts " = sanitize "po sts" := by decide +kernel
    have hjoined : sanitize "p!" = sanitize "p" := by decide +kernel
    have hcount : sanitize "n (of posts)" = sanitize "nofposts" := by decide +kernel
    simp [Query.sanitized, Subquery.sanitized, sanitizeNames, spacedUsers, plainUsers, htable,
      halias, hfield, hname, hjoined, hcount]
  exact ⟨hq, hq', hsame, (compose_by_identifiers .builtin {} .empty).1 _ _ hq hq' hsame,
    ((compose_by_identifiers .builtin {} .empty).2 _ hq).2⟩

end SqlCompose
