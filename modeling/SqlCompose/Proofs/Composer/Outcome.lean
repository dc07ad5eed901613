import SqlCompose.Proofs.Composer.Stages

/-!
# Which requests are composed, and how the others are refused

Five conditions decide whether a statement comes of a request (`Composable`). The first that fails
decides how the request is refused (`Refused`). Each request is on one of the two sides
(`composable_or_refused`), and composition tells which.
-/

namespace SqlCompose

/-- What an error tells: its text, its stage and its cause. -/
structure BuildError.Report where
  message : String
  stage : Option String
  cause : Option Cause

def BuildError.report (wording : Shape.Error → String) (e : BuildError) : Report :=
  ⟨e.message wording, e.stage?.map Stage.name, e.cause?⟩

section

variable (c : Config) (q : Query) (o : Options)

/-- The text of a request whose macros are not expanded yet. -/
def Assembles (text : String) : Prop :=
  ∃ views, expandViews q.subqueries = .ok views ∧ Clause.assemble c views q o = .ok text

/-- The text of a request whose macros are expanded. -/
def Expands (expanded : String) : Prop :=
  ∃ text, Assembles c q o text ∧ expandOrder o.orderTerms text = .ok expanded

/-- What a request needs for a statement to come of it. -/
structure Composable : Prop where
  valid : standardValidator q o = none
  acyclic : ∃ views, expandViews q.subqueries = .ok views
  numbers : NumbersFit o
  macros : ∀ text, Assembles c q o text → (∃ m, OrderMacro.OccursIn m text.toList) →
    o.orderTerms ≠ []
  placeholders : ∀ expanded, Expands c q o expanded →
    ∀ name, Placeholder.OccursIn name expanded.toList → IsKey q o name

/-- The first need of a request that is not met, with what is told of it. -/
inductive Refused : BuildError.Report → Prop
  | invalid (reason : String) : standardValidator q o = some reason →
    Refused ⟨reason, some "validate", none⟩
  | cyclicViews (cycle : Cycle) : standardValidator q o = none →
    expandViews q.subqueries = .error cycle →
    Refused ⟨"Circular view dependency: " ++ " -> ".intercalate cycle.names, some "with", none⟩
  | longNumber (views : List View) : standardValidator q o = none →
    expandViews q.subqueries = .ok views → ¬ NumbersFit o →
    Refused ⟨"Failed to build SQL query: " ++ Failure.longNumber.message, none,
      some (.failure .longNumber)⟩
  | noOrderTerms (text : String) (m : OrderMacro) : standardValidator q o = none →
    NumbersFit o → Assembles c q o text → OrderMacro.OccursIn m text.toList →
    o.orderTerms = [] →
    Refused ⟨"Order macro $order_by requires order_by terms", some "rewrite", none⟩
  | missingParameter (expanded name : String) : standardValidator q o = none →
    NumbersFit o → Expands c q o expanded → FirstMissing (IsKey q o) name expanded.toList →
    Refused ⟨"Missing parameter: " ++ name, some "rewrite", none⟩

end

section

variable {c : Config} {q : Query} {o : Options}

theorem report_invalid {reason : String} (h : standardValidator q o = some reason)
    (wording : Shape.Error → String) :
    (BuildError.invalid reason).report wording = ⟨reason, some "validate", none⟩ := by
  obtain ⟨fault, -, rfl⟩ := Option.map_eq_some_iff.mp h
  have hmessage : (BuildError.invalid fault.message).message wording = fault.message :=
    if_neg fault.message_ne_empty
  simp only [BuildError.report, hmessage]
  rfl

theorem exists_assembles (hv : standardValidator q o = none) (hn : NumbersFit o)
    {views : List View} (h : expandViews q.subqueries = .ok views) : ∃ text, Assembles c q o text := by
  obtain ⟨text, htext⟩ := Clause.exists_assemble (standardValidator_eq_none_iff.mp hv) hn
  exact ⟨text, views, h, htext⟩

theorem expandedText_of_assembles (hv : standardValidator q o = none) {text : String}
    (h : Assembles c q o text) : expandedText c q o = expandOrder o.orderTerms text := by
  obtain ⟨views, hviews, htext⟩ := h
  simp only [expandedText, hv, hviews, htext]

theorem expandedText_of_expands (hv : standardValidator q o = none) {expanded : String}
    (h : Expands c q o expanded) : expandedText c q o = .ok expanded := by
  obtain ⟨text, htext, hexp⟩ := h
  rw [expandedText_of_assembles hv htext, hexp]

theorem find?_unbound_eq_some_iff {text : List Char} {name : String} :
    (occurrences Placeholder.head? text).find? (!hasValue (bindings q.subqueries o) ·) = some name ↔
      FirstMissing (IsKey q o) name text := by
  rw [find?_occurrences_eq_some_iff]
  simp only [hasValue_bindings_iff]

theorem find?_unbound_eq_none_iff {text : List Char} :
    (occurrences Placeholder.head? text).find? (!hasValue (bindings q.subqueries o) ·) = none ↔
      ∀ name, Placeholder.OccursIn name text → IsKey q o name := by
  rw [find?_occurrences_eq_none_iff]
  simp only [hasValue_bindings_iff]

theorem composable_or_refused (c : Config) (q : Query) (o : Options) :
    Composable c q o ∨ ∃ report, Refused c q o report := by
  cases hv : standardValidator q o with
  | some reason => exact .inr ⟨_, .invalid reason hv⟩
  | none =>
  cases hviews : expandViews q.subqueries with
  | error cycle => exact .inr ⟨_, .cyclicViews cycle hv hviews⟩
  | ok views =>
  by_cases hn : NumbersFit o
  · by_cases hmacros : ∃ text, Assembles c q o text ∧
        (∃ m, OrderMacro.OccursIn m text.toList) ∧ o.orderTerms = []
    · obtain ⟨text, htext, ⟨m, hm⟩, hterms⟩ := hmacros
      exact .inr ⟨_, .noOrderTerms text m hv hn htext hm hterms⟩
    · by_cases hmissing : ∃ expanded name, Expands c q o expanded ∧
          FirstMissing (IsKey q o) name expanded.toList
      · obtain ⟨expanded, name, hexp, hname⟩ := hmissing
        exact .inr ⟨_, .missingParameter expanded name hv hn hexp hname⟩
      · refine .inl ⟨hv, ⟨views, hviews⟩, hn, ?_, ?_⟩
        · intro text htext hm hterms
          exact hmacros ⟨text, htext, hm, hterms⟩
        · intro expanded hexp
          rw [← find?_unbound_eq_none_iff, Option.eq_none_iff_forall_ne_some]
          intro name hname
          exact hmissing ⟨expanded, name, hexp, find?_unbound_eq_some_iff.mp hname⟩
  · exact .inr ⟨_, .longNumber views hv hviews hn⟩

namespace Composer

variable {d : Dialect} {mark : Int → String} (hd : ∀ n, d.marker n = .ok (mark n))
include hd

theorem exists_statement (h : Composable c q o) :
    ∃ s, (compose { dialect := d, config := c } q o).result = .ok s := by
  obtain ⟨views, hviews⟩ := h.acyclic
  obtain ⟨text, htext⟩ := exists_assembles h.valid h.numbers hviews
  obtain ⟨expanded, hexpand⟩ := exists_expandOrder_iff.mpr (h.macros text htext)
  have hexp : Expands c q o expanded := ⟨text, htext, hexpand⟩
  rw [result_eq hd, expandedText_of_expands h.valid hexp]
  dsimp only
  rw [find?_unbound_eq_none_iff.mpr (h.placeholders expanded hexp)]
  exact ⟨_, rfl⟩

theorem exists_report (wording : Shape.Error → String) {report : BuildError.Report}
    (h : Refused c q o report) :
    ∃ e, (compose { dialect := d, config := c } q o).result = .error (.refused e) ∧
      e.report wording = report := by
  rw [result_eq hd]
  cases h with
  | invalid reason hv =>
    refine ⟨.invalid reason, ?_, report_invalid hv wording⟩
    simp only [expandedText, hv]
  | cyclicViews cycle hv hviews =>
    refine ⟨.cyclicViews cycle, ?_, rfl⟩
    simp only [expandedText, hv, hviews]
  | longNumber views hv hviews hn =>
    refine ⟨.unexpected .longNumber, ?_, rfl⟩
    simp only [expandedText, hv, hviews,
      Clause.assemble_of_not_fit (standardValidator_eq_none_iff.mp hv) hn]
  | noOrderTerms text m hv hn htext hm hterms =>
    refine ⟨.noOrderTerms, ?_, rfl⟩
    rw [expandedText_of_assembles hv htext,
      expandOrder_eq_error_iff.mpr ⟨rfl, hterms, m, hm⟩]
  | missingParameter expanded name hv hn hexp hname =>
    refine ⟨.missingParameter name, ?_, rfl⟩
    rw [expandedText_of_expands hv hexp]
    dsimp only
    rw [find?_unbound_eq_some_iff.mpr hname]

end Composer

/-- The outcome of a composition, for a dialect that is built in. -/
theorem compose_outcome {r : Registry} (hr : r.HasBuiltin)
    (ht : c.target ∈ Dialect.builtin.map Dialect.name) (q : Query) (o : Options)
    (wording : Shape.Error → String) :
    ((∃ s, (compose r c q o).result = .ok s) ↔ Composable c q o) ∧
      ∀ report, (∃ e, (compose r c q o).result = .error (.refused e) ∧
        e.report wording = report) ↔ Refused c q o report := by
  obtain ⟨d, hd, hname⟩ := List.mem_map.mp ht
  obtain ⟨mark, hmark⟩ := Dialect.exists_mark hd
  rw [compose_of_find (hname ▸ hr d hd)]
  have hok (H : Composable c q o) := Composer.exists_statement hmark H
  have herr (report) (H : Refused c q o report) := Composer.exists_report hmark wording H
  refine ⟨⟨?_, hok⟩, fun report => ⟨?_, herr report⟩⟩
  · rintro ⟨s, hs⟩
    rcases composable_or_refused c q o with H | ⟨report, H⟩
    · exact H
    · obtain ⟨e, he, -⟩ := herr report H
      rw [hs] at he
      contradiction
  · rintro ⟨e, he, rfl⟩
    rcases composable_or_refused c q o with H | ⟨report, H⟩
    · obtain ⟨s, hs⟩ := hok H
      rw [he] at hs
      contradiction
    · obtain ⟨e', he', rfl⟩ := herr report H
      obtain rfl : e = e' := Abort.refused.inj (Except.error.inj (he.symm.trans he'))
      exact H

end

/-- A placeholder and a macro in a field, and a placeholder in the filter. -/
def tiled : Query := ⟨some "t", none, "t", [("n", "f(?n, $order_by)")], some "t.id = ?id", []⟩

set_option maxRecDepth 4000 in
/-- Values for both placeholders, and a value for the second only. -/
theorem compose_outcome_of_tiled :
    Composable {} tiled
      { params := some [("id", .int 1), ("n", .int 4)], orderBy := some ["t.id"] } ∧
    Refused {} tiled { params := some [("id", .int 1)], orderBy := some ["t.id"] }
      ⟨"Missing parameter: n", some "rewrite", none⟩ := by
  have ht : ({} : Config).target ∈ Dialect.builtin.map Dialect.name := by decide
  have h (o : Options) := compose_outcome Registry.hasBuiltin_builtin ht tiled o fun _ => ""
  exact ⟨(h _).1.mp ⟨_, rfl⟩, ((h _).2 _).mp ⟨_, rfl, rfl⟩⟩

end SqlCompose
