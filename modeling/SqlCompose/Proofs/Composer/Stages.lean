import SqlCompose.Composer
import SqlCompose.Proofs.Clause
import SqlCompose.Proofs.Order.Occurrence
import SqlCompose.Proofs.Placeholder.Binding

/-!
# The stages of a composition

A request is validated, its views are put in order, its clauses are assembled, order macros are
expanded, and at last placeholders are bound. Only the last stage looks at the dialect and at the
values of parameters; what the others make of a request is `expandedText`. For a dialect whose
markers never fail the result of a composition is known in closed form (`result_eq`).
-/

namespace SqlCompose

/-! ### Values of placeholders -/

/-- The names that parameters are given for. -/
def paramNames (params : Option (List (String × Value))) : List String :=
  (params.getD []).map Prod.fst

/-- The value that a name stands for: that of the options, or else of the first subquery with a
default for it. -/
def valueOf? (q : Query) (o : Options) (name : String) : Option Value :=
  ((o.params.getD []).lookup name).or
    (q.subqueries.findSome? fun s => (s.params.getD []).lookup name)

/-- A name for which the options or a subquery have a value. -/
def IsKey (q : Query) (o : Options) (name : String) : Prop :=
  name ∈ paramNames o.params ∨ ∃ s ∈ q.subqueries, name ∈ paramNames s.params

theorem lookup_flatMap {α : Type} (f : α → List (String × Value)) (xs : List α) (name : String) :
    (xs.flatMap f).lookup name = xs.findSome? fun x => (f x).lookup name := by
  induction xs with
  | nil => rfl
  | cons x xs ih =>
    rw [List.flatMap_cons, List.lookup_append, ih, List.findSome?_cons]
    cases (f x).lookup name <;> rfl

theorem lookup_bindings (q : Query) (o : Options) (name : String) :
    (bindings q.subqueries o).lookup name = valueOf? q o name := by
  rw [bindings, List.lookup_append, lookup_flatMap, valueOf?]

theorem isSome_lookup_iff {params : Option (List (String × Value))} {name : String} :
    ((params.getD []).lookup name).isSome ↔ name ∈ paramNames params :=
  hasValue_iff_mem_keys

theorem isSome_valueOf?_iff {q : Query} {o : Options} {name : String} :
    (valueOf? q o name).isSome ↔ IsKey q o name := by
  simp [valueOf?, IsKey, ← isSome_lookup_iff]

theorem hasValue_bindings_iff {q : Query} {o : Options} {name : String} :
    hasValue (bindings q.subqueries o) name ↔ IsKey q o name := by
  rw [hasValue, lookup_bindings, isSome_valueOf?_iff]

/-! ### Text before binding -/

/-- The text of a request in which macros are expanded and placeholders are not bound yet. -/
def expandedText (c : Config) (q : Query) (o : Options) : Except BuildError String :=
  match standardValidator q o with
  | some reason => .error (.invalid reason)
  | none =>
    match expandViews q.subqueries with
    | .error cycle => .error (.cyclicViews cycle)
    | .ok views =>
      match Clause.assemble c views q o with
      | .error f => .error (.unexpected f)
      | .ok text => expandOrder o.orderTerms text

theorem runPasses_eq (terms : List String) (d : Dialect) (values : List (String × Value))
    (text : String) :
    runPasses [.orderMacros terms, .placeholders d values] text =
      match expandOrder terms text with
      | .error e => .error (.refused e)
      | .ok expanded =>
        (bindPlaceholders d.marker values expanded []).map fun bound => ⟨bound.1, bound.2⟩ := by
  simp only [runPasses, List.foldlM_cons, List.foldlM_nil, bind, Except.bind, Pass.apply]
  cases expandOrder terms text with
  | error e => rfl
  | ok expanded =>
    dsimp only
    cases bindPlaceholders d.marker values expanded [] <;> rfl

namespace Composer

theorem write_eq (c : Composer) (views : List View) (q : Query) (o : Options) :
    c.write views q o =
      match Clause.assemble c.config views q o with
      | .error f => .error (.failed f)
      | .ok text =>
        match expandOrder o.orderTerms text with
        | .error e => .error (.refused e)
        | .ok expanded =>
          (bindPlaceholders c.dialect.marker (bindings q.subqueries o) expanded []).map fun bound =>
            ⟨bound.1, bound.2, c.dialect.name⟩ := by
  unfold write
  cases Clause.assemble c.config views q o with
  | error f => rfl
  | ok text =>
    change (runPasses (c.passes q o) text).bind _ = _
    rw [passes, runPasses_eq]
    dsimp only
    cases expandOrder o.orderTerms text with
    | error e => rfl
    | ok expanded =>
      dsimp only
      cases bindPlaceholders c.dialect.marker (bindings q.subqueries o) expanded [] <;> rfl

/-- All that a composition reads of a request. -/
theorem compose_congr {x : Composer} {q q' : Query} {o o' : Options}
    (hvalid : x.validator q o = x.validator q' o')
    (hviews : expandViews q.subqueries = expandViews q'.subqueries)
    (htext : ∀ views, Clause.assemble x.config views q o = Clause.assemble x.config views q' o')
    (hterms : o.orderTerms = o'.orderTerms)
    (hvalues : bindings q.subqueries o = bindings q'.subqueries o') :
    x.compose q o = x.compose q' o' := by
  simp only [compose, hvalid, hviews, write_eq, htext, hterms, hvalues]

section

variable {d : Dialect} {mark : Int → String} (hd : ∀ n, d.marker n = .ok (mark n))
include hd

/-- The result of a composition with markers that never fail. -/
theorem result_eq (c : Config) (q : Query) (o : Options) :
    (compose { dialect := d, config := c } q o).result =
      match expandedText c q o with
      | .error e => .error (.refused e)
      | .ok text =>
        match (occurrences Placeholder.head? text.toList).find?
            (!hasValue (bindings q.subqueries o) ·) with
        | some name => .error (.refused (.missingParameter name))
        | none =>
          .ok ⟨String.ofList (weave (gaps (pieces Placeholder.head? text.toList))
              (marksAfter mark 0 (occurrences Placeholder.head? text.toList).length)),
            (occurrences Placeholder.head? text.toList).filterMap
              ((bindings q.subqueries o).lookup ·),
            d.name⟩ := by
  unfold compose expandedText
  simp only [write_eq, bindPlaceholders_of_total hd, List.length_nil, List.nil_append]
  cases standardValidator q o with
  | some reason => rfl
  | none =>
    cases expandViews q.subqueries with
    | error cycle => rfl
    | ok views =>
      dsimp only
      cases Clause.assemble c views q o with
      | error f => rfl
      | ok text =>
        dsimp only
        cases expandOrder o.orderTerms text with
        | error e => rfl
        | ok expanded =>
          dsimp only
          cases (occurrences Placeholder.head? expanded.toList).find?
            (!hasValue (bindings q.subqueries o) ·) <;> rfl

end

end Composer

/-! ### Built-in dialects -/

def Dialect.builtin : List Dialect := [.sqlite, .postgres, .mysql]

/-- The built-in dialects are registered under their own names. -/
def Registry.HasBuiltin (r : Registry) : Prop :=
  ∀ d ∈ Dialect.builtin, r.find d.name = .ok d

theorem Registry.hasBuiltin_builtin : builtin.HasBuiltin := by
  simp [HasBuiltin, Dialect.builtin, builtin, find, Dialect.sqlite, Dialect.postgres,
    Dialect.mysql, List.lookup_cons]

theorem Dialect.exists_mark {d : Dialect} (h : d ∈ builtin) :
    ∃ mark : Int → String, ∀ n, d.marker n = .ok (mark n) := by
  simp only [builtin, List.mem_cons, List.not_mem_nil, or_false] at h
  rcases h with rfl | rfl | rfl
  · exact ⟨fun _ => "?", fun _ => rfl⟩
  · exact ⟨fun n => "$" ++ toString n, fun _ => rfl⟩
  · exact ⟨fun _ => "%s", fun _ => rfl⟩

/-! ### Targets -/

section

variable {r : Registry} {c : Config} {d : Dialect} {name : String} {a : Abort}

theorem Registry.find_eq_ok_iff : r.find name = .ok d ↔ r.entries.lookup name = some (.ok d) := by
  rw [find]
  cases r.entries.lookup name <;> simp

/-- A name is not registered, or what makes its dialect fails. -/
theorem Registry.find_eq_error_iff :
    r.find name = .error a ↔
      (r.entries.lookup name = none ∧ a = .refused (.unknownTarget name r.targets)) ∨
        r.entries.lookup name = some (.error a) := by
  rw [find]
  cases r.entries.lookup name <;> simp [eq_comm]

/-- The dialect of a name is made when it is asked for, or refused. -/
def Registry.Makes (r : Registry) (name : String) : Prop :=
  ∀ f, r.entries.lookup name ≠ some (.error (.failed f))

theorem Registry.makes_builtin (name : String) : builtin.Makes name := by
  intro f h
  simp only [builtin, List.lookup_cons, List.lookup_nil] at h
  split at h
  · simp at h
  · split at h
    · simp at h
    · split at h <;> simp at h

theorem Registry.find_eq_failed_iff {f : Failure} :
    r.find name = .error (.failed f) ↔ r.entries.lookup name = some (.error (.failed f)) := by
  simp [find_eq_error_iff]

theorem compose_of_find (h : r.find c.target = .ok d) (q : Query) (o : Options) :
    compose r c q o = Composer.compose { dialect := d, config := c } q o := by
  unfold compose Composer.ofTarget
  rw [h]
  rfl

theorem compose_of_find_eq_error (h : r.find c.target = .error a) (q : Query) (o : Options) :
    compose r c q o = { result := .error a } := by
  unfold compose Composer.ofTarget
  rw [h]
  rfl

/-- Requests end alike if they do so with every dialect. -/
theorem compose_congr {q q' : Query} {o o' : Options}
    (h : ∀ d : Dialect, Composer.compose { dialect := d, config := c } q o =
      Composer.compose { dialect := d, config := c } q' o') :
    compose r c q o = compose r c q' o' := by
  cases hfind : r.find c.target with
  | error a => rw [compose_of_find_eq_error hfind, compose_of_find_eq_error hfind]
  | ok d => rw [compose_of_find hfind, compose_of_find hfind, h d]

end

end SqlCompose
