import SqlCompose.Proofs.Composer.Fragments
import SqlCompose.Proofs.Composer.Outcome
import SqlCompose.Proofs.Composer.Secrecy

/-!
# Which parameters count

A placeholder binds the value that the options have for its name, or else that of the first subquery
with a default for it (`Supplies`). So of all parameters of a request only those count that the
request supplies to a name in its statement. Requests may differ in all others, and their runs do
not (`compose_eq_of_sameParams`).
-/

namespace SqlCompose

/-- The value of a name in a request: the one given with the options, or else the default of the
first subquery that has one. -/
inductive Supplies (q : Query) (o : Options) (name : String) (v : Value) : Prop
  | given : (o.params.getD []).lookup name = some v → Supplies q o name v
  | byDefault (before : List Subquery) (s : Subquery) (after : List Subquery) :
    name ∉ paramNames o.params → q.subqueries = before ++ s :: after →
    (∀ t ∈ before, name ∉ paramNames t.params) → (s.params.getD []).lookup name = some v →
    Supplies q o name v

/-- A request that is accepted has a placeholder of this name in its statement. -/
def Asks (c : Config) (q : Query) (o : Options) (name : String) : Prop :=
  standardValidator q o = none ∧
    ∃ text, Expands c q o text ∧ Placeholder.OccursIn name text.toList

/-- The defaults of subqueries are the same for all names that are `asked`, except that after the
first default of a name it is not asked any more. -/
inductive SameDefaults : (asked : String → Prop) → (ss ss' : List Subquery) → Prop
  | nil : SameDefaults asked [] []
  | cons {s s' : Subquery} {ss ss' : List Subquery} :
    (∀ name, asked name → (s.params.getD []).lookup name = (s'.params.getD []).lookup name) →
    SameDefaults (fun name => asked name ∧ name ∉ paramNames s.params) ss ss' →
    SameDefaults asked (s :: ss) (s' :: ss')

/-- Two requests differ in parameters only, and the same are given for all names that are `asked`.
A default is not asked for if the options have a value. -/
structure SameParams (asked : String → Prop) (q : Query) (o : Options) (q' : Query)
    (o' : Options) : Prop where
  query : q.withoutParams = q'.withoutParams
  options : o.withoutParams = o'.withoutParams
  given : ∀ name, asked name →
    (o.params.getD []).lookup name = (o'.params.getD []).lookup name
  defaults : SameDefaults (fun name => asked name ∧ name ∉ paramNames o.params) q.subqueries
    q'.subqueries

section

variable {c : Config} {q q' : Query} {o o' : Options} {x : Composer} {st : Statement}
  {asked : String → Prop} {ss ss' : List Subquery} {name : String} {v : Value}

/-! ### The value of a name -/

theorem lookup_eq_none_iff {params : Option (List (String × Value))} :
    (params.getD []).lookup name = none ↔ name ∉ paramNames params :=
  lookup_eq_none_iff_not_mem

theorem valueOf?_eq_some_iff : valueOf? q o name = some v ↔ Supplies q o name v := by
  rw [valueOf?, Option.or_eq_some_iff, List.findSome?_eq_some_iff, lookup_eq_none_iff]
  constructor
  · rintro (hgiven | ⟨hnone, before, s, after, hss, hs, hbefore⟩)
    · exact .given hgiven
    · exact .byDefault before s after hnone hss
        (fun t ht => lookup_eq_none_iff.mp (hbefore t ht)) hs
  · rintro (hgiven | ⟨before, s, after, hnone, hss, hbefore, hs⟩)
    · exact .inl hgiven
    · exact .inr ⟨hnone, before, s, after, hss, hs,
        fun t ht => lookup_eq_none_iff.mpr (hbefore t ht)⟩

theorem forall₂_supplies_iff {names : List String} {values : List Value} :
    List.Forall₂ (Supplies q o) names values ↔ values.map some = names.map (valueOf? q o) := by
  rw [eq_comm, ← List.forall₂_eq_eq_eq, List.forall₂_map_left_iff, List.forall₂_map_right_iff]
  simp only [valueOf?_eq_some_iff]

/-- Each placeholder of a statement is bound to the value of its name. -/
theorem exists_supplies_of_compose (h : (x.compose q o).result = .ok st) :
    ∃ text gs names, Expands x.config q o text ∧ Placeholder.Splits text.toList gs names ∧
      List.Forall₂ (Supplies q o) names st.params := by
  obtain ⟨views, hviews, hwrite⟩ := Composer.compose_eq_ok h
  obtain ⟨text, y, htext, hy, rfl⟩ := Composer.write_eq_ok_iff.mp hwrite
  obtain ⟨expanded, hexp, hbind⟩ := rewrite_eq_ok_iff.mp hy
  refine ⟨expanded, _, _, ⟨text, ⟨views, hviews, htext⟩, hexp⟩,
    Placeholder.splits_pieces expanded.toList, ?_⟩
  exact forall₂_supplies_iff.mpr (params_of_bindPlaceholders hbind)

/-! ### Requests with the same parameters -/

theorem SameDefaults.findSome?_eq (h : SameDefaults asked ss ss') (hname : asked name) :
    ss.findSome? (fun s => (s.params.getD []).lookup name) =
      ss'.findSome? fun s => (s.params.getD []).lookup name := by
  induction h with
  | nil => rfl
  | @cons asked s s' ss ss' hs _ ih =>
    rw [List.findSome?_cons, List.findSome?_cons, ← hs name hname]
    cases hlookup : (s.params.getD []).lookup name with
    | some v => rfl
    | none => exact ih ⟨hname, lookup_eq_none_iff.mp hlookup⟩

theorem SameParams.valueOf?_eq (H : SameParams asked q o q' o') (hname : asked name) :
    valueOf? q o name = valueOf? q' o' name := by
  rw [valueOf?, valueOf?, ← H.given name hname]
  cases hlookup : (o.params.getD []).lookup name with
  | some v => rfl
  | none => rw [H.defaults.findSome?_eq ⟨hname, lookup_eq_none_iff.mp hlookup⟩]

namespace Composer

variable {d : Dialect} {views : List View}

theorem write_eq_of_sameParams (hvalid : standardValidator q o = none)
    (hviews : expandViews q.subqueries = .ok views) (H : SameParams (Asks c q o) q o q' o') :
    write { dialect := d, config := c } views q o =
      write { dialect := d, config := c } views q' o' := by
  rw [write_eq, write_eq, Clause.assemble_eq_of_withoutParams H.query H.options,
    orderTerms_eq_of_withoutParams H.options]
  cases htext : Clause.assemble c views q' o' with
  | error f => rfl
  | ok text =>
    dsimp only
    cases hexp : expandOrder o'.orderTerms text with
    | error e => rfl
    | ok expanded =>
      rw [← Clause.assemble_eq_of_withoutParams H.query H.options] at htext
      rw [← orderTerms_eq_of_withoutParams H.options] at hexp
      have hexpands : Expands c q o expanded := ⟨text, ⟨views, hviews, htext⟩, hexp⟩
      dsimp only
      rw [bindPlaceholders_congr fun name hname => ?_]
      rw [lookup_bindings, lookup_bindings, H.valueOf?_eq ⟨hvalid, expanded, hexpands, hname⟩]

theorem compose_eq_of_sameParams (d : Dialect) (H : SameParams (Asks c q o) q o q' o') :
    compose { dialect := d, config := c } q o = compose { dialect := d, config := c } q' o' := by
  unfold compose
  dsimp only
  rw [← standardValidator_eq_of_withoutParams H.query H.options,
    ← expandViews_eq_of_withoutParams H.query]
  cases hvalid : standardValidator q o with
  | some reason => rfl
  | none =>
    cases hviews : expandViews q.subqueries with
    | error cycle => rfl
    | ok views =>
      dsimp only
      rw [write_eq_of_sameParams hvalid hviews H]

end Composer

theorem compose_eq_of_sameParams (r : Registry) (H : SameParams (Asks c q o) q o q' o') :
    compose r c q o = compose r c q' o' :=
  compose_congr fun d => Composer.compose_eq_of_sameParams d H

/-- The values that a statement binds, and the parameters on which its composition depends. -/
theorem compose_values :
    (∀ (x : Composer) (q : Query) (o : Options) (st : Statement), (x.compose q o).result = .ok st →
      ∃ text gs names, Expands x.config q o text ∧ Placeholder.Splits text.toList gs names ∧
        List.Forall₂ (Supplies q o) names st.params) ∧
    ∀ (r : Registry) (c : Config) (q : Query) (o : Options) (q' : Query) (o' : Options),
      SameParams (Asks c q o) q o q' o' → compose r c q o = compose r c q' o' :=
  ⟨fun _ _ _ _ h => exists_supplies_of_compose h, fun r _ _ _ _ _ H => compose_eq_of_sameParams r H⟩

end

/-- Two subqueries with the same placeholder and with defaults for it. -/
def twoDefaults (ps ps' : List (String × Value)) : Query :=
  ⟨some "u", none, "u", [("id", "id")], some "?id",
    [⟨"p", "p", "?t", .left, "1", [], some ps, []⟩, ⟨"s", "s", "?t", .left, "1", [], some ps', []⟩]⟩

def given (params : List (String × Value)) : Options := { params := some params }

def defaulted : Query := twoDefaults [("t", .int 1), ("id", .int 3)] [("t", .int 2)]

theorem occurrences_defaulted {text : String} (h : Expands {} defaulted (given [("id", .null)]) text) :
    occurrences Placeholder.head? text.toList = ["t", "t", "id"] := by
  have hvalid : standardValidator defaulted (given [("id", .null)]) = none := by decide
  have hnames : ((expandedText {} defaulted (given [("id", .null)])).toOption.map fun text =>
      occurrences Placeholder.head? text.toList) = some ["t", "t", "id"] := by
    decide
  rw [expandedText_of_expands hvalid h] at hnames
  exact Option.some.inj hnames

/-- A null is a value that is given. Other values may be there for a name that is not in the
statement, and as defaults for names that have values before. -/
theorem compose_values_of_twoDefaults :
    SameParams (Asks {} defaulted (given [("id", .null)])) defaulted (given [("id", .null)])
      (twoDefaults [("t", .int 1)] [("x", .null), ("t", .str "now")])
      (given [("x", .int 9), ("id", .null)]) ∧
    compose .builtin {} defaulted (given [("id", .null)]) =
      compose .builtin {} (twoDefaults [("t", .int 1)] [("x", .null), ("t", .str "now")])
        (given [("x", .int 9), ("id", .null)]) ∧
    ∃ st, (Composer.compose ⟨.sqlite, {}, standardValidator⟩ defaulted
        (given [("id", .null)])).result = .ok st ∧ st.params = [.int 1, .int 1, .null] := by
  have hsame : SameParams (Asks {} defaulted (given [("id", .null)])) defaulted (given [("id", .null)])
      (twoDefaults [("t", .int 1)] [("x", .null), ("t", .str "now")])
      (given [("x", .int 9), ("id", .null)]) := by
    have hasked (name : String) (h : Asks {} defaulted (given [("id", .null)]) name) :
        name = "t" ∨ name = "id" := by
      obtain ⟨-, text, htext, hname⟩ := h
      rw [← Placeholder.mem_occurrences_iff, occurrences_defaulted htext] at hname
      simpa using hname
    refine ⟨rfl, rfl, fun name hname => ?_, .cons (fun name hname => ?_) (.cons ?_ .nil)⟩
    · rcases hasked name hname with rfl | rfl <;> rfl
    · rcases hasked name hname.1 with rfl | rfl
      · rfl
      · exact absurd (List.mem_singleton_self _) hname.2
    · rintro name ⟨⟨hname, hgiven⟩, hposts⟩
      rcases hasked name hname with rfl | rfl
      · exact absurd List.mem_cons_self hposts
      · exact absurd (List.mem_singleton_self _) hgiven
  have hok : (Composer.compose ⟨.sqlite, {}, standardValidator⟩ defaulted
      (given [("id", .null)])).result.isOk := by decide +kernel
  obtain ⟨st, hst⟩ := exists_eq_ok_of_isOk hok
  obtain ⟨text, gs, names, htext, hsplits, hvalues⟩ := compose_values.1 _ _ _ _ hst
  obtain ⟨-, rfl⟩ := Placeholder.splits_iff.mp hsplits
  rw [occurrences_defaulted htext, forall₂_supplies_iff] at hvalues
  have hparams : st.params.map some = [.int 1, .int 1, .null].map some := hvalues
  exact ⟨hsame, compose_values.2 _ _ _ _ _ _ hsame, st, hst,
    (List.map_inj_right fun _ _ => Option.some.inj).mp hparams⟩

end SqlCompose
