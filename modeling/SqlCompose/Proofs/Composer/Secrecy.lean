import Mathlib.Data.List.Forall2
import SqlCompose.Proofs.Composer.Stages

/-!
# Values of parameters stay out of the text

Two requests agree if they differ at most in the values of parameters. Nothing before binding reads
these values (the lemmas about `withoutParams`), and binding writes and refuses by the names that
have values (`bindPlaceholders_agrees`). So the runs of two requests that agree leave the same
records and end alike; the values of parameters are seen in the parameters of the statement only.
-/

namespace SqlCompose

/-- Parameters for the same names, perhaps with other values. -/
def SameNames (ps ps' : Option (List (String × Value))) : Prop :=
  ∀ name, name ∈ paramNames ps ↔ name ∈ paramNames ps'

def Subquery.Agrees (s s' : Subquery) : Prop :=
  ∃ ps, s' = { s with params := ps } ∧ SameNames s.params ps

def Query.Agrees (q q' : Query) : Prop :=
  ∃ ss, q' = { q with subqueries := ss } ∧ List.Forall₂ Subquery.Agrees q.subqueries ss

def Options.Agrees (o o' : Options) : Prop :=
  ∃ ps, o' = { o with params := ps } ∧ SameNames o.params ps

/-- Statements with the same text, and at each position of the parameters the values of one name,
by `value` and by `value'`. -/
structure Statement.Agrees (value value' : String → Option Value) (s s' : Statement) : Prop where
  text : s.text = s'.text
  dialect : s.dialect = s'.dialect
  params : ∃ names : List String,
    s.params.map some = names.map value ∧ s'.params.map some = names.map value'

theorem Statement.Agrees.length_params {value value' : String → Option Value} {s s' : Statement}
    (H : s.Agrees value value' s') : s.params.length = s'.params.length := by
  obtain ⟨names, h, h'⟩ := H.params
  have hlen : s.params.length = names.length := by simpa using congrArg List.length h
  have hlen' : s'.params.length = names.length := by simpa using congrArg List.length h'
  rw [hlen, hlen']

/-! ### Requests without parameters -/

def Subquery.withoutParams (s : Subquery) : Subquery := { s with params := none }

def Query.withoutParams (q : Query) : Query :=
  { q with subqueries := q.subqueries.map Subquery.withoutParams }

def Options.withoutParams (o : Options) : Options := { o with params := none }

section

variable {c : Config} {views : List View} {q q' : Query} {o o' : Options}

theorem subqueriesFault_withoutParams : q.withoutParams.subqueriesFault = q.subqueriesFault :=
  List.findSome?_map

theorem firstFault_withoutParams : firstFault q.withoutParams o.withoutParams = firstFault q o := by
  unfold firstFault
  rw [subqueriesFault_withoutParams]
  rfl

theorem standardValidator_withoutParams :
    standardValidator q.withoutParams o.withoutParams = standardValidator q o := by
  unfold standardValidator
  rw [firstFault_withoutParams]

theorem expandViews_withoutParams :
    expandViews q.withoutParams.subqueries = expandViews q.subqueries := by
  have hviews : q.withoutParams.subqueries.flatMap Subquery.views =
      q.subqueries.flatMap Subquery.views := List.flatMap_map ..
  unfold expandViews
  rw [hviews]

theorem Clause.ctes_withoutParams (views : List View) (ss : List Subquery) :
    ctes views (ss.map Subquery.withoutParams) = ctes views ss := by
  simp only [ctes, List.isEmpty_map, List.map_map]
  rfl

theorem Clause.flatMap_selectItems_withoutParams (ss : List Subquery) :
    (ss.map Subquery.withoutParams).flatMap (selectItems ·.fields) =
      ss.flatMap (selectItems ·.fields) :=
  List.flatMap_map ..

theorem Clause.joins_withoutParams (ss : List Subquery) :
    joins (ss.map Subquery.withoutParams) = joins ss := by
  simp only [joins, List.mapM_map]
  rfl

theorem Clause.assemble_withoutParams :
    assemble c views q.withoutParams o.withoutParams = assemble c views q o := by
  have hctes : ctes views q.withoutParams.subqueries = ctes views q.subqueries :=
    ctes_withoutParams ..
  have hselect : select c q.withoutParams o.withoutParams = select c q o := by
    unfold select
    rw [Query.withoutParams, flatMap_selectItems_withoutParams]
    rfl
  have hjoins : joins q.withoutParams.subqueries = joins q.subqueries := joins_withoutParams ..
  unfold assemble all
  rw [hctes, hselect, hjoins]
  rfl

section

variable (hq : q.withoutParams = q'.withoutParams) (ho : o.withoutParams = o'.withoutParams)
include hq ho

theorem standardValidator_eq_of_withoutParams : standardValidator q o = standardValidator q' o' := by
  rw [← standardValidator_withoutParams, hq, ho, standardValidator_withoutParams]

theorem Clause.assemble_eq_of_withoutParams : assemble c views q o = assemble c views q' o' := by
  rw [← assemble_withoutParams, hq, ho, assemble_withoutParams]

omit ho in
theorem expandViews_eq_of_withoutParams : expandViews q.subqueries = expandViews q'.subqueries := by
  rw [← expandViews_withoutParams, hq, expandViews_withoutParams]

omit hq in
theorem orderTerms_eq_of_withoutParams : o.orderTerms = o'.orderTerms := by
  change o.withoutParams.orderTerms = _
  rw [ho]
  rfl

end

theorem map_eq_map_of_forall₂ {α β : Type} {R : α → α → Prop} {f : α → β} {as as' : List α}
    (H : List.Forall₂ R as as') (h : ∀ a a', R a a' → f a = f a') : as.map f = as'.map f := by
  have hmap : List.Forall₂ (· = ·) (as.map f) (as'.map f) := by
    rw [List.forall₂_map_left_iff, List.forall₂_map_right_iff]
    exact H.imp h
  rwa [List.forall₂_eq_eq_eq] at hmap

theorem map_withoutParams_eq {ss ss' : List Subquery} (H : List.Forall₂ Subquery.Agrees ss ss') :
    ss.map Subquery.withoutParams = ss'.map Subquery.withoutParams := by
  refine map_eq_map_of_forall₂ H fun s s' h => ?_
  obtain ⟨ps, rfl, -⟩ := h
  rfl

theorem Query.Agrees.withoutParams_eq (H : q.Agrees q') : q.withoutParams = q'.withoutParams := by
  obtain ⟨ss, rfl, hss⟩ := H
  simp only [Query.withoutParams, map_withoutParams_eq hss]

theorem Options.Agrees.withoutParams_eq (H : o.Agrees o') : o.withoutParams = o'.withoutParams := by
  obtain ⟨ps, rfl, -⟩ := H
  rfl

/-! ### Two runs -/

theorem exists_mem_paramNames_iff {ss ss' : List Subquery} {name : String}
    (H : List.Forall₂ Subquery.Agrees ss ss') :
    (∃ s ∈ ss, name ∈ paramNames s.params) ↔ ∃ s ∈ ss', name ∈ paramNames s.params := by
  induction H with
  | nil => rfl
  | cons h _ ih =>
    obtain ⟨ps, rfl, hps⟩ := h
    simp only [List.mem_cons, exists_eq_or_imp, ih, hps name]

variable (hq : q.Agrees q') (ho : o.Agrees o')
include hq ho

theorem isKey_iff_of_agrees (name : String) : IsKey q o name ↔ IsKey q' o' name := by
  obtain ⟨ss, rfl, hss⟩ := hq
  obtain ⟨ps, rfl, hps⟩ := ho
  exact or_congr (hps name) (exists_mem_paramNames_iff hss)

theorem hasValue_eq_of_agrees :
    hasValue (bindings q.subqueries o) = hasValue (bindings q'.subqueries o') := by
  funext name
  rw [Bool.eq_iff_iff, hasValue_bindings_iff, hasValue_bindings_iff,
    isKey_iff_of_agrees hq ho]

theorem Clause.assemble_eq_of_agrees : assemble c views q o = assemble c views q' o' :=
  assemble_eq_of_withoutParams hq.withoutParams_eq ho.withoutParams_eq

theorem standardValidator_eq_of_agrees : standardValidator q o = standardValidator q' o' :=
  standardValidator_eq_of_withoutParams hq.withoutParams_eq ho.withoutParams_eq

omit ho in
theorem expandViews_eq_of_agrees : expandViews q.subqueries = expandViews q'.subqueries :=
  expandViews_eq_of_withoutParams hq.withoutParams_eq

omit hq in
theorem orderTerms_eq_of_agrees : o.orderTerms = o'.orderTerms :=
  orderTerms_eq_of_withoutParams ho.withoutParams_eq

/-- Both runs write the same text, or both stop for the same reason. -/
theorem bindPlaceholders_agrees (marker : Int → Except Abort String) (text : String) :
    (∃ a, bindPlaceholders marker (bindings q.subqueries o) text [] = .error a ∧
      bindPlaceholders marker (bindings q'.subqueries o') text [] = .error a) ∨
    ∃ out ps ps', bindPlaceholders marker (bindings q.subqueries o) text [] = .ok (out, ps) ∧
      bindPlaceholders marker (bindings q'.subqueries o') text [] = .ok (out, ps') := by
  rw [bindPlaceholders_eq, bindPlaceholders_eq, ← hasValue_eq_of_agrees hq ho]
  cases writeMarks marker (hasValue (bindings q.subqueries o)) ([] : List Value).length
      (pieces Placeholder.head? text.toList) with
  | error a => exact .inl ⟨a, rfl, rfl⟩
  | ok out => exact .inr ⟨_, _, _, rfl, rfl⟩

omit hq ho in
theorem params_of_bindPlaceholders {marker : Int → Except Abort String} {text out : String}
    {ps : List Value}
    (h : bindPlaceholders marker (bindings q.subqueries o) text [] = .ok (out, ps)) :
    ps.map some = (occurrences Placeholder.head? text.toList).map (valueOf? q o) := by
  obtain ⟨new, rfl, hnew⟩ := bindsNames_of_bindPlaceholders h
  rw [hnew]
  simp only [lookup_bindings]

theorem Composer.write_agrees (x : Composer) (views : List View) :
    (∃ a, x.write views q o = .error a ∧ x.write views q' o' = .error a) ∨
    ∃ s s', x.write views q o = .ok s ∧ x.write views q' o' = .ok s' ∧
      s.Agrees (valueOf? q o) (valueOf? q' o') s' := by
  rw [write_eq, write_eq, ← Clause.assemble_eq_of_agrees hq ho, ← orderTerms_eq_of_agrees ho]
  cases Clause.assemble x.config views q o with
  | error f => exact .inl ⟨.failed f, rfl, rfl⟩
  | ok text =>
    dsimp only
    cases expandOrder o.orderTerms text with
    | error e => exact .inl ⟨.refused e, rfl, rfl⟩
    | ok expanded =>
      dsimp only
      rcases bindPlaceholders_agrees hq ho x.dialect.marker expanded with
        ⟨a, h, h'⟩ | ⟨out, ps, ps', h, h'⟩
      · rw [h, h']
        exact .inl ⟨a, rfl, rfl⟩
      · rw [h, h']
        exact .inr ⟨_, _, rfl, rfl, rfl, rfl, _, params_of_bindPlaceholders h,
          params_of_bindPlaceholders h'⟩

/-- The runs of two requests that differ in the values of parameters only, for any markers. -/
theorem compose_agrees (d : Dialect) (c : Config) :
    (Composer.compose ⟨d, c, standardValidator⟩ q o).log =
      (Composer.compose ⟨d, c, standardValidator⟩ q' o').log ∧
    ((∃ e, (Composer.compose ⟨d, c, standardValidator⟩ q o).result = .error (.refused e) ∧
        (Composer.compose ⟨d, c, standardValidator⟩ q' o').result = .error (.refused e)) ∨
      ∃ s s', (Composer.compose ⟨d, c, standardValidator⟩ q o).result = .ok s ∧
        (Composer.compose ⟨d, c, standardValidator⟩ q' o').result = .ok s' ∧
        s.Agrees (valueOf? q o) (valueOf? q' o') s') := by
  unfold Composer.compose
  dsimp only
  rw [← standardValidator_eq_of_agrees hq ho, ← expandViews_eq_of_agrees hq]
  cases standardValidator q o with
  | some reason => exact ⟨rfl, .inl ⟨_, rfl, rfl⟩⟩
  | none =>
    cases expandViews q.subqueries with
    | error cycle => exact ⟨rfl, .inl ⟨_, rfl, rfl⟩⟩
    | ok views =>
      dsimp only
      rcases Composer.write_agrees hq ho ⟨d, c, standardValidator⟩ views with
        ⟨a, h, h'⟩ | ⟨s, s', h, h', H⟩
      · rw [h, h']
        cases a with
        | refused e => exact ⟨rfl, .inl ⟨e, rfl, rfl⟩⟩
        | failed f => exact ⟨rfl, .inl ⟨_, rfl, rfl⟩⟩
      · rw [h, h']
        refine ⟨?_, .inr ⟨s, s', rfl, rfl, H⟩⟩
        dsimp only
        rw [H.text, H.dialect, H.length_params]

end

/-- Posts of a user since some time. -/
def postsSince (since : Value) : Query :=
  ⟨some "users", none, "u", [("id", "u.id")], some "u.id = ?id",
    [⟨"posts", "p", "SELECT ?since", .left, "true", [], some [("since", since)], []⟩]⟩

def ofUser (id : Value) : Options := { params := some [("id", id)] }

/-- Other values in the options and among the defaults of a subquery. -/
theorem compose_agrees_on_posts :
    ∃ s s',
      (Composer.compose ⟨.postgres, {}, standardValidator⟩ (postsSince (.int 1))
        (ofUser (.int 7))).result = .ok s ∧
      (Composer.compose ⟨.postgres, {}, standardValidator⟩ (postsSince (.str "now"))
        (ofUser .null)).result = .ok s' ∧
      s.Agrees (valueOf? (postsSince (.int 1)) (ofUser (.int 7)))
        (valueOf? (postsSince (.str "now")) (ofUser .null)) s' := by
  have hq : (postsSince (.int 1)).Agrees (postsSince (.str "now")) :=
    ⟨_, rfl, .cons ⟨some [("since", .str "now")], rfl, by simp [SameNames, paramNames]⟩ .nil⟩
  have ho : (ofUser (.int 7)).Agrees (ofUser .null) :=
    ⟨some [("id", .null)], rfl, by simp [SameNames, paramNames, ofUser]⟩
  have hok : (Composer.compose ⟨.postgres, {}, standardValidator⟩ (postsSince (.int 1))
      (ofUser (.int 7))).result.isOk := by decide +kernel
  rcases (compose_agrees hq ho .postgres {}).2 with ⟨e, h, -⟩ | H
  · rw [h] at hok
    contradiction
  · exact H

end SqlCompose
