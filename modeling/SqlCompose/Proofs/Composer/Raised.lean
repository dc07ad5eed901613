import SqlCompose.Proofs.Composer.Outcome

/-!
# What stops a composition, and how it is told

Values are decoded, the dialect is looked up and made, and the stages of a composition follow. Each
of them may stop it (`Raises`), the last one by the dialect itself, whose markers may fail in any
way and at any position. What stops a composition is told as it is if it is an error, and wrapped
into one and logged if it is a failure (`Raises.told`). Only a failure to make the dialect is not
wrapped (`MakingFails`). A composition that nothing stops has a result
(`exists_statement_or_raises`).
-/

namespace SqlCompose

/-- The error that is told of what stops a composition. -/
def Abort.toError : Abort → BuildError
  | refused e => e
  | failed f => .unexpected f

def Outcome.LogsError (x : Outcome) : Prop := ∃ record ∈ x.log, record.level = .error

/-- The request that values decode to. Options that are not given are empty. -/
structure Decodes (query : Value) (options : Option Value) (q : Query) (o : Options) : Prop where
  query : Query.decode query = .ok q
  given : ∀ v, options = some v → Options.decode v = .ok o
  absent : options = none → o = .empty

/-- What stops the composition of a request for a dialect, with what is told of it. -/
inductive Composer.Raises (wording : Shape.Error → String) (c : Config) (d : Dialect) (q : Query)
    (o : Options) : Abort → BuildError.Report → Prop
  | invalid (reason : String) : standardValidator q o = some reason →
    Raises wording c d q o (.refused (.invalid reason)) ⟨reason, some "validate", none⟩
  | cyclicViews (cycle : Cycle) : standardValidator q o = none →
    expandViews q.subqueries = .error cycle →
    Raises wording c d q o (.refused (.cyclicViews cycle))
      ⟨"Circular view dependency: " ++ " -> ".intercalate cycle.names, some "with", none⟩
  | longNumber (views : List View) : standardValidator q o = none →
    expandViews q.subqueries = .ok views → ¬ NumbersFit o →
    Raises wording c d q o (.failed .longNumber)
      ⟨"Failed to build SQL query: " ++ Failure.longNumber.message, none,
        some (.failure .longNumber)⟩
  | noOrderTerms (text : String) (m : OrderMacro) : standardValidator q o = none →
    Assembles c q o text → OrderMacro.OccursIn m text.toList → o.orderTerms = [] →
    Raises wording c d q o (.refused .noOrderTerms)
      ⟨"Order macro $order_by requires order_by terms", some "rewrite", none⟩
  | missingParameter (expanded : String) (k : Nat) (name : String) :
    standardValidator q o = none → Expands c q o expanded →
    Reaches d.marker (IsKey q o) expanded.toList k name → ¬ IsKey q o name →
    Raises wording c d q o (.refused (.missingParameter name))
      ⟨"Missing parameter: " ++ name, some "rewrite", none⟩
  | refusedMarker (expanded : String) (k : Nat) (name : String) (e : BuildError) :
    standardValidator q o = none → Expands c q o expanded →
    Reaches d.marker (IsKey q o) expanded.toList k name → IsKey q o name →
    d.marker (k + 1) = .error (.refused e) →
    Raises wording c d q o (.refused e) (e.report wording)
  | failedMarker (expanded : String) (k : Nat) (name : String) (f : Failure) :
    standardValidator q o = none → Expands c q o expanded →
    Reaches d.marker (IsKey q o) expanded.toList k name → IsKey q o name →
    d.marker (k + 1) = .error (.failed f) →
    Raises wording c d q o (.failed f)
      ⟨"Failed to build SQL query: " ++ f.message, none, some (.failure f)⟩

/-- What stops the composition of a request given as values. -/
inductive Raises (wording : Shape.Error → String) (r : Registry) (c : Config) (query : Value)
    (options : Option Value) : Abort → BuildError.Report → Prop
  | malformedQuery (faults : List Shape.Fault) : Query.decode query = .error faults →
    Raises wording r c query options (.refused (.malformedRequest ⟨.query, faults⟩))
      ⟨"Invalid composition request: " ++ wording ⟨.query, faults⟩, some "parse",
        some (.shape ⟨.query, faults⟩)⟩
  | malformedOptions (q : Query) (v : Value) (faults : List Shape.Fault) :
    Query.decode query = .ok q → options = some v → Options.decode v = .error faults →
    Raises wording r c query options (.refused (.malformedRequest ⟨.options, faults⟩))
      ⟨"Invalid composition request: " ++ wording ⟨.options, faults⟩, some "parse",
        some (.shape ⟨.options, faults⟩)⟩
  | unknownTarget (q : Query) (o : Options) : Decodes query options q o →
    r.entries.lookup c.target = none →
    Raises wording r c query options (.refused (.unknownTarget c.target r.targets))
      ⟨"Unsupported dialect target: '" ++ c.target ++ "'. Registered targets: " ++
        quotedList r.targets ++ ".", none, none⟩
  | refusedMaking (q : Query) (o : Options) (e : BuildError) : Decodes query options q o →
    r.entries.lookup c.target = some (.error (.refused e)) →
    Raises wording r c query options (.refused e) (e.report wording)
  | pipeline (q : Query) (o : Options) (d : Dialect) (a : Abort) (report : BuildError.Report) :
    Decodes query options q o → r.entries.lookup c.target = some (.ok d) →
    Composer.Raises wording c d q o a report → Raises wording r c query options a report

/-- The dialect of a request cannot be made. That failure is told as it is. -/
structure MakingFails (r : Registry) (c : Config) (query : Value) (options : Option Value)
    (f : Failure) : Prop where
  decodes : ∃ q o, Decodes query options q o
  making : r.entries.lookup c.target = some (.error (.failed f))

variable {wording : Shape.Error → String} {r : Registry} {c : Config} {d : Dialect} {q : Query}
  {o : Options} {a : Abort} {report : BuildError.Report} {query : Value} {options : Option Value}

/-! ### How a stop is told -/

theorem logsError_of_expanded_iff (result : Except Abort Statement) (views : List View)
    (records : List LogRecord) :
    (Outcome.mk result ((if views.isEmpty then [] else [.expandedViews (views.map View.name)]) ++
      records)).LogsError ↔ ∃ record ∈ records, record.level = .error := by
  unfold Outcome.LogsError
  split
  · rfl
  · simp [LogRecord.level]

namespace Composer

section

variable {x : Composer} {views : List View} (hv : x.validator q o = none)
  (hviews : expandViews q.subqueries = .ok views)
include hv hviews

theorem compose_of_write_eq_ok {st : Statement} (h : x.write views q o = .ok st) :
    (x.compose q o).result = .ok st ∧ ¬ (x.compose q o).LogsError := by
  unfold compose
  simp only [hv, hviews, h, logsError_of_expanded_iff]
  simp [LogRecord.level]

theorem compose_of_write_eq_error (h : x.write views q o = .error a) :
    (x.compose q o).result = .error (.refused a.toError) ∧
      ((x.compose q o).LogsError ↔ ∃ f, a = .failed f) := by
  unfold compose
  cases a with
  | refused e =>
    simp only [hv, hviews, h]
    refine ⟨rfl, ?_⟩
    simpa using logsError_of_expanded_iff (.error (.refused e)) views []
  | failed f =>
    simp only [hv, hviews, h, logsError_of_expanded_iff]
    simp [Abort.toError, LogRecord.level]

end

theorem write_of_expands {expanded : String} (h : Expands c q o expanded) :
    ∃ views, expandViews q.subqueries = .ok views ∧
      write { dialect := d, config := c } views q o =
        (bindPlaceholders d.marker (bindings q.subqueries o) expanded []).map fun bound =>
          ⟨bound.1, bound.2, d.name⟩ := by
  obtain ⟨text, ⟨views, hviews, htext⟩, hexp⟩ := h
  refine ⟨views, hviews, ?_⟩
  rw [write_eq, htext]
  dsimp only
  rw [hexp]

theorem bindPlaceholders_bindings_eq_error_iff {text : String} :
    bindPlaceholders d.marker (bindings q.subqueries o) text [] = .error a ↔
      ∃ k name, Reaches d.marker (IsKey q o) text.toList k name ∧
        Rejects d.marker (IsKey q o) (k + 1) name a := by
  rw [bindPlaceholders_eq_error_iff]
  simp only [hasValue_bindings_iff]

/-- What a placeholder stops, after all stages before the last. -/
theorem compose_of_rejects {expanded name : String} {k : Nat} (hv : standardValidator q o = none)
    (hexp : Expands c q o expanded) (hreach : Reaches d.marker (IsKey q o) expanded.toList k name)
    (hrej : Rejects d.marker (IsKey q o) (k + 1) name a) :
    (compose { dialect := d, config := c } q o).result = .error (.refused a.toError) ∧
      ((compose { dialect := d, config := c } q o).LogsError ↔ ∃ f, a = .failed f) := by
  obtain ⟨views, hviews, hwrite⟩ := write_of_expands (d := d) hexp
  refine compose_of_write_eq_error hv hviews ?_
  rw [hwrite, map_eq_error_iff, bindPlaceholders_bindings_eq_error_iff]
  exact ⟨k, name, hreach, hrej⟩

theorem Raises.told (h : Raises wording c d q o a report) :
    ((compose { dialect := d, config := c } q o).result = .error (.refused a.toError) ∧
      ((compose { dialect := d, config := c } q o).LogsError ↔ ∃ f, a = .failed f)) ∧
    a.toError.report wording = report := by
  cases h with
  | invalid reason hv =>
    refine ⟨?_, report_invalid hv wording⟩
    unfold compose
    simp [hv, Abort.toError, Outcome.LogsError]
  | cyclicViews cycle hv hviews =>
    refine ⟨?_, rfl⟩
    unfold compose
    simp [hv, hviews, Abort.toError, Outcome.LogsError]
  | longNumber views hv hviews hn =>
    refine ⟨compose_of_write_eq_error hv hviews ?_, rfl⟩
    rw [write_eq, Clause.assemble_of_not_fit (standardValidator_eq_none_iff.mp hv) hn]
  | noOrderTerms text m hv htext hm hterms =>
    obtain ⟨views, hviews, htext⟩ := htext
    refine ⟨compose_of_write_eq_error hv hviews ?_, rfl⟩
    rw [write_eq, htext]
    dsimp only
    rw [expandOrder_eq_error_iff.mpr ⟨rfl, hterms, m, hm⟩]
  | missingParameter expanded k name hv hexp hreach hname =>
    exact ⟨compose_of_rejects hv hexp hreach (.inl ⟨hname, rfl⟩), rfl⟩
  | refusedMarker expanded k name e hv hexp hreach hname hmarker =>
    exact ⟨compose_of_rejects hv hexp hreach (.inr ⟨hname, hmarker⟩), rfl⟩
  | failedMarker expanded k name f hv hexp hreach hname hmarker =>
    exact ⟨compose_of_rejects hv hexp hreach (.inr ⟨hname, hmarker⟩), rfl⟩

theorem exists_raises_of_rejects (wording : Shape.Error → String) {expanded name : String} {k : Nat}
    (hv : standardValidator q o = none) (hexp : Expands c q o expanded)
    (hreach : Reaches d.marker (IsKey q o) expanded.toList k name)
    (hrej : Rejects d.marker (IsKey q o) (k + 1) name a) :
    ∃ report, Raises wording c d q o a report := by
  rcases hrej with ⟨hname, rfl⟩ | ⟨hname, hmarker⟩
  · exact ⟨_, .missingParameter expanded k name hv hexp hreach hname⟩
  · cases a with
    | refused e => exact ⟨_, .refusedMarker expanded k name e hv hexp hreach hname hmarker⟩
    | failed f => exact ⟨_, .failedMarker expanded k name f hv hexp hreach hname hmarker⟩

/-- The stages of a composition one after another. -/
theorem exists_statement_or_raises (wording : Shape.Error → String) (c : Config) (d : Dialect)
    (q : Query) (o : Options) :
    (∃ st, (compose { dialect := d, config := c } q o).result = .ok st ∧
      ¬ (compose { dialect := d, config := c } q o).LogsError) ∨
      ∃ a report, Raises wording c d q o a report := by
  cases hv : standardValidator q o with
  | some reason => exact .inr ⟨_, _, .invalid reason hv⟩
  | none =>
  cases hviews : expandViews q.subqueries with
  | error cycle => exact .inr ⟨_, _, .cyclicViews cycle hv hviews⟩
  | ok views =>
  by_cases hn : NumbersFit o
  · obtain ⟨text, htext⟩ := exists_assembles (c := c) hv hn hviews
    cases hexpand : expandOrder o.orderTerms text with
    | error e =>
      obtain ⟨-, hterms, m, hm⟩ := expandOrder_eq_error_iff.mp hexpand
      exact .inr ⟨_, _, .noOrderTerms text m hv htext hm hterms⟩
    | ok expanded =>
      have hexp : Expands c q o expanded := ⟨text, htext, hexpand⟩
      cases hbind : bindPlaceholders d.marker (bindings q.subqueries o) expanded [] with
      | error a =>
        obtain ⟨k, name, hreach, hrej⟩ := bindPlaceholders_bindings_eq_error_iff.mp hbind
        exact .inr ⟨a, exists_raises_of_rejects wording hv hexp hreach hrej⟩
      | ok bound =>
        obtain ⟨views, hviews, hwrite⟩ := write_of_expands (d := d) hexp
        rw [hbind] at hwrite
        exact .inl ⟨_, compose_of_write_eq_ok hv hviews hwrite⟩
  · exact .inr ⟨_, _, .longNumber views hv hviews hn⟩

end Composer

/-! ### Requests given as values -/

theorem composeValues_of_decodes (h : Decodes query options q o) :
    composeValues r c query options = compose r c q o := by
  unfold composeValues
  simp only [h.query]
  cases options with
  | none => rw [h.absent rfl]
  | some v => simp only [h.given v rfl]

theorem compose_of_lookup (hd : r.entries.lookup c.target = some (.ok d)) (q : Query)
    (o : Options) :
    compose r c q o = Composer.compose { dialect := d, config := c } q o :=
  compose_of_find (Registry.find_eq_ok_iff.mpr hd) q o

theorem Raises.told (h : Raises wording r c query options a report) :
    ((composeValues r c query options).result = .error (.refused a.toError) ∧
      ((composeValues r c query options).LogsError ↔ ∃ f, a = .failed f)) ∧
    a.toError.report wording = report := by
  cases h with
  | malformedQuery faults hq =>
    refine ⟨?_, rfl⟩
    unfold composeValues
    simp [hq, Abort.toError, Outcome.LogsError]
  | malformedOptions q v faults hq hoptions hv =>
    refine ⟨?_, rfl⟩
    unfold composeValues
    simp [hq, hoptions, hv, Abort.toError, Outcome.LogsError]
  | unknownTarget q o hdecodes hnone =>
    refine ⟨?_, rfl⟩
    rw [composeValues_of_decodes hdecodes,
      compose_of_find_eq_error (Registry.find_eq_error_iff.mpr (.inl ⟨hnone, rfl⟩))]
    simp [Abort.toError, Outcome.LogsError]
  | refusedMaking q o e hdecodes hmaking =>
    refine ⟨?_, rfl⟩
    rw [composeValues_of_decodes hdecodes,
      compose_of_find_eq_error (Registry.find_eq_error_iff.mpr (.inr hmaking))]
    simp [Abort.toError, Outcome.LogsError]
  | pipeline q o d a report hdecodes hd h =>
    rw [composeValues_of_decodes hdecodes, compose_of_lookup hd]
    exact h.told

theorem MakingFails.told {f : Failure} (h : MakingFails r c query options f) :
    composeValues r c query options = { result := .error (.failed f) } := by
  obtain ⟨q, o, hdecodes⟩ := h.decodes
  rw [composeValues_of_decodes hdecodes,
    compose_of_find_eq_error (Registry.find_eq_failed_iff.mpr h.making)]

theorem exists_decodes_or_raises (wording : Shape.Error → String) (r : Registry) (c : Config)
    (query : Value) (options : Option Value) :
    (∃ q o, Decodes query options q o) ∨
      ∃ a report, Raises wording r c query options a report := by
  cases hq : Query.decode query with
  | error faults => exact .inr ⟨_, _, .malformedQuery faults hq⟩
  | ok q =>
    cases options with
    | none => exact .inl ⟨q, .empty, hq, by simp, fun _ => rfl⟩
    | some v =>
      cases hv : Options.decode v with
      | error faults => exact .inr ⟨_, _, .malformedOptions q v faults hq rfl hv⟩
      | ok o => exact .inl ⟨q, o, hq, by rintro _ ⟨⟩; exact hv, by simp⟩

theorem exists_statement_or_raises (wording : Shape.Error → String) (r : Registry) (c : Config)
    (query : Value) (options : Option Value) :
    (∃ st, (composeValues r c query options).result = .ok st ∧
      ¬ (composeValues r c query options).LogsError) ∨
      (∃ a report, Raises wording r c query options a report) ∨
      ∃ f, MakingFails r c query options f := by
  rcases exists_decodes_or_raises wording r c query options with ⟨q, o, hdecodes⟩ | hraises
  · cases hmake : r.entries.lookup c.target with
    | none => exact .inr (.inl ⟨_, _, .unknownTarget q o hdecodes hmake⟩)
    | some make =>
      cases make with
      | error a =>
        cases a with
        | refused e => exact .inr (.inl ⟨_, _, .refusedMaking q o e hdecodes hmake⟩)
        | failed f => exact .inr (.inr ⟨f, ⟨q, o, hdecodes⟩, hmake⟩)
      | ok d =>
        rw [composeValues_of_decodes hdecodes, compose_of_lookup hmake]
        rcases Composer.exists_statement_or_raises wording c d q o with hst | ⟨a, report, h⟩
        · exact .inl hst
        · exact .inr (.inl ⟨a, report, .pipeline q o d a report hdecodes hmake h⟩)
  · exact .inr (.inl hraises)

/-- A failure leaves as it is only if it is one to make the dialect. -/
theorem composeValues_eq_failed_iff {f : Failure} :
    (composeValues r c query options).result = .error (.failed f) ↔
      MakingFails r c query options f := by
  constructor
  · intro h
    rcases exists_statement_or_raises (fun _ => "") r c query options with
      ⟨st, hst, -⟩ | ⟨a, report, hraises⟩ | ⟨f', hfails⟩
    · rw [hst] at h
      contradiction
    · rw [hraises.told.1.1] at h
      simp at h
    · rw [hfails.told] at h
      obtain rfl : f' = f := by simpa using h
      exact hfails
  · intro h
    rw [h.told]

end SqlCompose
