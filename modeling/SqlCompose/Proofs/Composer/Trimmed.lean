import SqlCompose.Proofs.Composer.Secrecy

/-!
# Parts that say nothing

A part of a request that says nothing may be there or not: a blank source or condition, an empty
list of order terms or of parameters, a page without a size. A request that is accepted is accepted
too when any of these are left out (`WellFormed.trims`), and has the same clauses
(`Clause.assemble_trims`) and the same values (`bindings_trims`).
-/

namespace SqlCompose

/-- A part stays as it is, or is left out, which it may only be if it says nothing. -/
inductive Trims {α : Type} (idle : α → Prop) : (part part' : Option α) → Prop
  | keep {part : Option α} : Trims idle part part
  | drop {a : α} : idle a → Trims idle (some a) none

def Subquery.Trims (s s' : Subquery) : Prop :=
  ∃ params, SqlCompose.Trims (· = []) s.params params ∧ s' = { s with params }

structure Query.Trims (q q' : Query) : Prop where
  sourceTable : SqlCompose.Trims (isBlank ·) q.sourceTable q'.sourceTable
  sourceQuery : SqlCompose.Trims (isBlank ·) q.sourceQuery q'.sourceQuery
  aliasName : q'.aliasName = q.aliasName
  fields : q'.fields = q.fields
  filter : SqlCompose.Trims (isBlank ·) q.filter q'.filter
  subqueries : List.Forall₂ Subquery.Trims q.subqueries q'.subqueries

structure Options.Trims (o o' : Options) : Prop where
  filter : SqlCompose.Trims (isBlank ·) o.filter o'.filter
  params : SqlCompose.Trims (· = []) o.params o'.params
  page : o'.page = o.page ∨ (o.pageSize = none ∧ o'.page = none)
  pageSize : o'.pageSize = o.pageSize
  orderBy : SqlCompose.Trims (· = []) o.orderBy o'.orderBy

section

variable {r : Registry} {c : Config} {views : List View} {q q' : Query} {o o' : Options}
  {ss ss' : List Subquery}

/-! ### One part -/

theorem isBlank_getD (text : Option String) : isBlank (text.getD "") = !isFilled text := by
  cases text with
  | none => decide
  | some t => simp [isFilled]

namespace Trims

variable {α : Type} {idle : α → Prop} {part part' : Option α} {text text' : Option String}

/-- What is read of a part stays, if an idle part is read like one that is left out. -/
theorem read_eq {β : Type} (H : Trims idle part part') (read : Option α → β)
    (h : ∀ a, idle a → read none = read (some a)) : read part' = read part := by
  cases H with
  | keep => rfl
  | drop ha => exact h _ ha

theorem eq_of_not (H : Trims idle part part') (h : ∀ a ∈ part, ¬ idle a) : part' = part := by
  cases H with
  | keep => rfl
  | drop ha => exact absurd ha (h _ rfl)

theorem getD_nil {items items' : Option (List α)} (H : Trims (· = []) items items') :
    items'.getD [] = items.getD [] :=
  H.read_eq (·.getD []) fun _ h => h.symm

theorem isFilled_eq (H : Trims (isBlank ·) text text') : isFilled text' = isFilled text :=
  H.read_eq isFilled fun t h => by simp [isFilled, h]

theorem any_hasIdentifierChars (H : Trims (isBlank ·) text text') :
    text'.any hasIdentifierChars = text.any hasIdentifierChars := by
  refine H.read_eq (·.any hasIdentifierChars) fun t h => ?_
  cases ht : hasIdentifierChars t with
  | true =>
    rw [not_isBlank_of_hasIdentifierChars ht] at h
    contradiction
  | false => simp [ht]

theorem eq_of_isFilled (H : Trims (isBlank ·) text text') (h : isFilled text) : text' = text := by
  refine H.eq_of_not ?_
  rintro t rfl
  simpa [isFilled] using h

theorem filter_toList (H : Trims (isBlank ·) text text') :
    text'.toList.filter (fun s => !isBlank s) = text.toList.filter fun s => !isBlank s :=
  H.read_eq (·.toList.filter fun s => !isBlank s) fun t h => by simp [h]

end Trims

/-! ### Options -/

theorem Options.Trims.orderTerms (H : o.Trims o') : o'.orderTerms = o.orderTerms :=
  H.orderBy.getD_nil

theorem Options.Trims.paging? (H : o.Trims o') : o'.paging? = o.paging? := by
  rcases H.page with hpage | ⟨hsize, hpage⟩
  · rw [Options.paging?, Options.paging?, hpage, H.pageSize]
  · have hsize' := H.pageSize.trans hsize
    simp only [Options.paging?, hpage, hsize, hsize']
    cases o.page <;> rfl

/-! ### Subqueries -/

theorem map_withoutParams_trims (H : List.Forall₂ Subquery.Trims ss ss') :
    ss'.map Subquery.withoutParams = ss.map Subquery.withoutParams := by
  refine (map_eq_map_of_forall₂ H fun s s' h => ?_).symm
  obtain ⟨params, -, rfl⟩ := h
  rfl

theorem flatMap_params_trims (H : List.Forall₂ Subquery.Trims ss ss') :
    ss'.flatMap (·.params.getD []) = ss.flatMap (·.params.getD []) := by
  rw [List.flatMap_def, List.flatMap_def]
  refine congrArg List.flatten (map_eq_map_of_forall₂ H fun s s' h => ?_).symm
  obtain ⟨params, hparams, rfl⟩ := h
  exact hparams.getD_nil.symm

theorem subqueriesFault_trims (H : q.Trims q') : q'.subqueriesFault = q.subqueriesFault := by
  rw [← subqueriesFault_withoutParams, ← subqueriesFault_withoutParams (q := q)]
  unfold Query.subqueriesFault Query.withoutParams
  rw [map_withoutParams_trims H.subqueries]

theorem bindings_trims (hq : q.Trims q') (ho : o.Trims o') :
    bindings q'.subqueries o' = bindings q.subqueries o := by
  rw [bindings, bindings, ho.params.getD_nil, flatMap_params_trims hq.subqueries]

theorem expandViews_trims (H : q.Trims q') :
    expandViews q'.subqueries = expandViews q.subqueries := by
  have hss := map_withoutParams_trims H.subqueries
  have hviews (q : Query) : expandViews (q.subqueries.map Subquery.withoutParams) =
      expandViews q.subqueries := expandViews_withoutParams
  rw [← hviews q', hss, hviews]

/-! ### Accepted requests -/

theorem Query.HasSource.trims (h : q.HasSource) (H : q.Trims q') : q'.HasSource := by
  rcases h with ⟨htable, hquery⟩ | ⟨htable, hquery⟩
  · exact .inl ⟨H.sourceTable.any_hasIdentifierChars.trans htable,
      H.sourceQuery.isFilled_eq.trans hquery⟩
  · exact .inr ⟨H.sourceTable.isFilled_eq.trans htable, H.sourceQuery.isFilled_eq.trans hquery⟩

theorem WellFormed.trims (h : WellFormed q o) (hq : q.Trims q') (ho : o.Trims o') :
    WellFormed q' o' where
  source := h.source.trims hq
  aliasName := hq.aliasName ▸ h.aliasName
  fields := hq.fields ▸ h.fields
  fieldNames := hq.fields ▸ h.fieldNames
  page := by
    intro page hpage
    rcases ho.page with heq | ⟨-, hnone⟩
    · exact h.page page (heq ▸ hpage)
    · rw [hnone] at hpage
      contradiction
  pageSize := ho.pageSize ▸ h.pageSize
  subqueries := by
    rw [← Query.subqueriesFault_eq_none_iff, subqueriesFault_trims hq,
      Query.subqueriesFault_eq_none_iff]
    exact h.subqueries

theorem standardValidator_trims (h : standardValidator q o = none) (hq : q.Trims q')
    (ho : o.Trims o') : standardValidator q' o' = none := by
  rw [standardValidator_eq_none_iff, firstFault_eq_none_iff] at h ⊢
  exact h.trims hq ho

/-! ### Clauses -/

namespace Clause

theorem select_trims (hq : q.Trims q') (ho : o.Trims o') : select c q' o' = select c q o := by
  have hwindow : hasWindow c o' = hasWindow c o := by
    rw [hasWindow, hasWindow, ho.orderTerms, ho.paging?]
  rw [select, select, hwindow, hq.fields, ← flatMap_selectItems_withoutParams q'.subqueries,
    map_withoutParams_trims hq.subqueries, flatMap_selectItems_withoutParams]

/-- Of table and query the one that is shown is not blank, so it stays. -/
theorem source_trims (h : q.HasSource) (H : q.Trims q') : source q' = source q := by
  simp only [source, isBlank_getD, H.sourceTable.isFilled_eq, H.aliasName]
  rcases h with ⟨htable, -⟩ | ⟨htable, hquery⟩
  · have hfilled := isFilled_of_any htable
    simp [hfilled, H.sourceTable.eq_of_isFilled hfilled]
  · simp [htable, H.sourceQuery.eq_of_isFilled hquery]

theorem filter_trims (hq : q.Trims q') (ho : o.Trims o') : filter q' o' = filter q o := by
  have hconditions : conditions q' o' = conditions q o := by
    rw [conditions, conditions, List.filter_append, List.filter_append, hq.filter.filter_toList,
      ho.filter.filter_toList]
  rw [filter, filter, hconditions]

theorem tail_trims (hq : q.Trims q') (ho : o.Trims o') : tail q' o' = tail q o := by
  have horder : order o' = order o := by rw [order, order, ho.orderTerms]
  have hlimit : limit o' = limit o := by rw [limit, limit, ho.pageSize]
  have hoffset : offset o' = offset o := by
    rw [offset, offset, Options.offset?, Options.offset?, ho.paging?]
  rw [tail, tail, filter_trims hq ho, horder, hlimit, hoffset]

theorem assemble_trims (h : q.HasSource) (hq : q.Trims q') (ho : o.Trims o') (views : List View) :
    assemble c views q' o' = assemble c views q o := by
  have hss := map_withoutParams_trims hq.subqueries
  have hctes : ctes views q'.subqueries = ctes views q.subqueries := by
    rw [← ctes_withoutParams, hss, ctes_withoutParams]
  have hjoins : joins q'.subqueries = joins q.subqueries := by
    rw [← joins_withoutParams, hss, joins_withoutParams]
  rw [assemble, assemble, all, all, hctes, hjoins, select_trims hq ho, source_trims h hq,
    tail_trims hq ho]

end Clause

/-! ### Composition -/

/-- An accepted request is accepted without the parts that say nothing, and composed to the same
end. -/
theorem compose_trimmed (r : Registry) (c : Config) (h : standardValidator q o = none)
    (hq : q.Trims q') (ho : o.Trims o') :
    standardValidator q' o' = none ∧ compose r c q' o' = compose r c q o := by
  have hvalid := standardValidator_trims h hq ho
  have hform : WellFormed q o := by rwa [standardValidator_eq_none_iff, firstFault_eq_none_iff] at h
  refine ⟨hvalid, compose_congr fun d => ?_⟩
  exact Composer.compose_congr (hvalid.trans h.symm) (expandViews_trims hq)
    (Clause.assemble_trims hform.source hq ho) ho.orderTerms (bindings_trims hq ho)

end

/-- A table with a blank query beside it, blank conditions and empty lists of parameters. -/
def paddedUsers : Query :=
  ⟨some "users", some " ", "u", [("id", "u.id")], some "\t",
    [⟨"p", "p", "SELECT 1", .left, "TRUE", [], some [], []⟩]⟩

def paddedOptions : Options :=
  { filter := some "", params := some [], page := some 3, orderBy := some [] }

theorem compose_trimmed_of_padded :
    standardValidator paddedUsers paddedOptions = none ∧
      ∃ q o, paddedUsers.Trims q ∧ paddedOptions.Trims o ∧
        (q.sourceQuery, q.filter, o.filter, o.page) = (none, none, none, none) ∧
        standardValidator q o = none ∧
        compose .builtin {} q o = compose .builtin {} paddedUsers paddedOptions := by
  have hvalid : standardValidator paddedUsers paddedOptions = none := by decide +kernel
  let q : Query := ⟨some "users", none, "u", [("id", "u.id")], none,
    [⟨"p", "p", "SELECT 1", .left, "TRUE", [], none, []⟩]⟩
  have hq : paddedUsers.Trims q :=
    ⟨.keep, .drop (by decide), rfl, rfl, .drop (by decide), .cons ⟨none, .drop rfl, rfl⟩ .nil⟩
  have ho : paddedOptions.Trims { orderBy := some [] } :=
    ⟨.drop (by decide), .drop rfl, .inr ⟨rfl, rfl⟩, rfl, .keep⟩
  exact ⟨hvalid, q, _, hq, ho, rfl, compose_trimmed .builtin {} hvalid hq ho⟩

end SqlCompose
