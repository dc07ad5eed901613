import SqlCompose.Proofs.Balance
import SqlCompose.Proofs.Composer.Fragments
import SqlCompose.Proofs.Composer.Stages
import SqlCompose.Proofs.Config
import SqlCompose.Proofs.View.Order

/-!
# Statements keep parentheses balanced

Each clause puts texts of the request between texts of its own, in which parentheses match, and
names are written without any. So all clauses are balanced if the texts that are written as they are
given are (`Clause.balanced_of_mem_fragments`), and rewriting keeps them so. No text of a request
then closes a parenthesis that a clause has opened around it.
-/

namespace SqlCompose

/-- The texts of a request that are written as they are given are balanced. Of names this asks only
those of views. -/
structure BalancedTexts (q : Query) (o : Options) : Prop where
  views : ∀ v, Occurs (rootViews q.subqueries) v → Balanced v.name ∧ Balanced v.query
  queries : ∀ s ∈ q.subqueries, Balanced s.query
  joinOns : ∀ s ∈ q.subqueries, Balanced s.joinOn
  expressions : ∀ f ∈ q.fields ++ q.subqueries.flatMap Subquery.fields, Balanced f.2
  source : ∀ text, q.sourceQuery = some text → Balanced text
  filter : ∀ text, q.filter = some text → Balanced text
  addedFilter : ∀ text, o.filter = some text → Balanced text
  orderTerms : ∀ term ∈ o.orderTerms, Balanced term

theorem balanced_sanitize (s : String) : Balanced (sanitize s) :=
  balanced_of_not_isParenthesis fun _ hc =>
    not_isParenthesis_of_isIdentifierChar (isIdentifierChar_of_mem_sanitize hc)

theorem balanced_of_isPlainIdentifier {s : String} (h : isPlainIdentifier s) : Balanced s := by
  rw [← ((isPlainIdentifier_iff s).mp h).2]
  exact balanced_sanitize s

theorem balanced_toString (n : Int) : Balanced (toString n) := by
  refine balanced_of_not_isParenthesis fun c hc => ?_
  rcases Clause.isDigit_or_minus_of_mem_toString hc with hdigit | rfl
  · exact not_isParenthesis_of_isIdentifierChar
      (by simp [isIdentifierChar, Char.isAlphanum, hdigit])
  · rfl

theorem balanced_postgres_marker (n : Int) : Balanced ("$" ++ toString n) :=
  Balanced.append (balanced_iff.mpr rfl) (balanced_toString n)

theorem Dialect.balancedMarkers_of_mem_builtin {d : Dialect} (h : d ∈ builtin) :
    d.BalancedMarkers := by
  intro n mark hmark
  simp only [builtin, List.mem_cons, List.not_mem_nil, or_false] at h
  rcases h with rfl | rfl | rfl
  · exact Except.ok.inj hmark ▸ balanced_iff.mpr rfl
  · exact Except.ok.inj hmark ▸ balanced_postgres_marker n
  · exact Except.ok.inj hmark ▸ balanced_iff.mpr rfl

namespace Clause

variable {c : Config} {views : List View} {q : Query} {o : Options}

theorem balanced_commas {items : List String} (h : ∀ item ∈ items, Balanced item) :
    Balanced (commas items) :=
  Balanced.intercalate (balanced_iff.mpr rfl) h

theorem balanced_cte {name query : String} (hname : Balanced name) (hquery : Balanced query) :
    Balanced (cte name query) := by
  have heq : cte name query = name ++ " AS " ++ ("(" ++ strip query ++ ")") := by
    simp [cte, ← String.toList_inj]
  rw [heq]
  exact (hname.append (balanced_iff.mpr rfl)).append hquery.strip.parenthesized

theorem balanced_ctes (hviews : ∀ v ∈ views, Balanced v.name ∧ Balanced v.query)
    (h : BalancedTexts q o) : Balanced (ctes views q.subqueries) := by
  unfold ctes
  split
  · exact balanced_iff.mpr rfl
  · refine Balanced.append (balanced_iff.mpr rfl) (balanced_commas fun item hitem => ?_)
    rcases List.mem_append.mp hitem with hitem | hitem
    · obtain ⟨v, hv, rfl⟩ := List.mem_map.mp hitem
      exact balanced_cte (hviews v hv).1 (hviews v hv).2
    · obtain ⟨s, hs, rfl⟩ := List.mem_map.mp hitem
      exact balanced_cte (balanced_sanitize s.name) (h.queries s hs)

theorem balanced_of_mem_selectItems {fields : List (String × String)} {item : String}
    (h : ∀ f ∈ fields, Balanced f.2) (hitem : item ∈ selectItems fields) : Balanced item := by
  obtain ⟨f, hf, rfl⟩ := List.mem_map.mp hitem
  exact ((h f hf).strip.append (balanced_iff.mpr rfl)).append (balanced_sanitize f.1)

theorem balanced_of_mem_windowItems (hc : c.Accepted) {item : String} (h : item ∈ windowItems c) :
    Balanced item := by
  have hnum : Balanced c.numColumn := balanced_of_isPlainIdentifier hc.columns.1
  have hremaining : Balanced c.remainingColumn := balanced_of_isPlainIdentifier hc.columns.2
  simp only [windowItems, List.mem_cons, List.not_mem_nil, or_false] at h
  rcases h with rfl | rfl
  · exact Balanced.append (balanced_iff.mpr rfl) hnum
  · exact Balanced.append (balanced_iff.mpr rfl) hremaining

theorem balanced_select (hc : c.Accepted) (h : BalancedTexts q o) : Balanced (select c q o) := by
  unfold select
  refine Balanced.append (balanced_iff.mpr rfl) (balanced_commas fun item hitem => ?_)
  rw [List.append_assoc, List.mem_append, List.mem_append] at hitem
  rcases hitem with hitem | hitem | hitem
  · exact balanced_of_mem_selectItems
      (fun f hf => h.expressions f (List.mem_append_left _ hf)) hitem
  · obtain ⟨s, hs, hitem⟩ := List.mem_flatMap.mp hitem
    exact balanced_of_mem_selectItems (fun f hf => h.expressions f
      (List.mem_append_right _ (List.mem_flatMap.mpr ⟨s, hs, hf⟩))) hitem
  · split at hitem
    · exact balanced_of_mem_windowItems hc hitem
    · contradiction

theorem balanced_source (h : BalancedTexts q o) : Balanced (source q) := by
  have hquery : Balanced (q.sourceQuery.getD "None") := by
    cases hq : q.sourceQuery with
    | none => exact balanced_iff.mpr rfl
    | some text => exact h.source text hq
  unfold source
  refine Balanced.append (Balanced.append (Balanced.append (balanced_iff.mpr rfl) ?_)
    (balanced_iff.mpr rfl)) (balanced_sanitize _)
  split
  · exact hquery.parenthesized
  · exact balanced_sanitize _

theorem balanced_join {s : Subquery} {line : String} (hon : Balanced s.joinOn)
    (h : join s = .ok line) : Balanced line := by
  unfold join at h
  split at h
  · next keyword hkeyword =>
    have hbalanced : Balanced keyword := by
      cases hj : s.join <;> rw [hj] at hkeyword
      · exact Option.some.inj hkeyword ▸ balanced_iff.mpr rfl
      · exact Option.some.inj hkeyword ▸ balanced_iff.mpr rfl
      · contradiction
    have hspace : Balanced " " := balanced_iff.mpr rfl
    have has : Balanced " AS " := balanced_iff.mpr rfl
    have hons : Balanced " ON " := balanced_iff.mpr rfl
    rw [← Except.ok.inj h]
    exact (((((hbalanced.append hspace).append (balanced_sanitize _)).append has).append
      (balanced_sanitize _)).append hons).append hon
  · contradiction

theorem exists_join_of_mem {ss : List Subquery} {lines : List String} {line : String}
    (h : ss.mapM join = .ok lines) (hline : line ∈ lines) : ∃ s ∈ ss, join s = .ok line := by
  induction ss generalizing lines with
  | nil =>
    obtain rfl := Except.ok.inj h
    contradiction
  | cons s ss ih =>
    rw [List.mapM_cons] at h
    obtain ⟨first, hfirst, h⟩ := bind_eq_ok_iff.mp h
    obtain ⟨rest, hrest, heq⟩ := bind_eq_ok_iff.mp h
    obtain rfl := Except.ok.inj heq
    rcases List.mem_cons.mp hline with rfl | hline
    · exact ⟨s, List.mem_cons_self, hfirst⟩
    · obtain ⟨s', hs', hjoin⟩ := ih hrest hline
      exact ⟨s', List.mem_cons_of_mem _ hs', hjoin⟩

theorem balanced_joins {ss : List Subquery} {text : String} (hons : ∀ s ∈ ss, Balanced s.joinOn)
    (h : joins ss = .ok text) : Balanced text := by
  obtain ⟨lines, hlines, rfl⟩ := map_eq_ok_iff.mp h
  refine Balanced.intercalate (balanced_iff.mpr rfl) fun line hline => ?_
  obtain ⟨s, hs, hjoin⟩ := exists_join_of_mem hlines hline
  exact balanced_join (hons s hs) hjoin

theorem balanced_filter (h : BalancedTexts q o) : Balanced (filter q o) := by
  unfold filter
  split
  · exact balanced_iff.mpr rfl
  · refine Balanced.append (balanced_iff.mpr rfl)
      (Balanced.intercalate (balanced_iff.mpr rfl) fun item hitem => ?_)
    obtain ⟨text, htext, rfl⟩ := List.mem_map.mp hitem
    refine Balanced.parenthesized ?_
    rcases List.mem_append.mp (List.mem_filter.mp htext).1 with hmem | hmem
    · exact h.filter text (Option.mem_toList.mp hmem)
    · exact h.addedFilter text (Option.mem_toList.mp hmem)

theorem balanced_order (h : BalancedTexts q o) : Balanced (order o) := by
  unfold order
  split
  · exact balanced_iff.mpr rfl
  · exact Balanced.append (balanced_iff.mpr rfl) (balanced_commas h.orderTerms)

theorem balanced_counted {keyword text : String} {n : Int} (hk : Balanced keyword)
    (h : counted keyword n = .ok text) : Balanced text := by
  rw [(counted_eq_ok_iff.mp h).2]
  exact (hk.append (balanced_iff.mpr rfl)).append (balanced_toString n)

theorem balanced_limit {text : String} (h : limit o = .ok text) : Balanced text := by
  unfold limit at h
  split at h
  · exact Except.ok.inj h ▸ balanced_iff.mpr rfl
  · exact balanced_counted (balanced_iff.mpr rfl) h

theorem balanced_offset {text : String} (h : offset o = .ok text) : Balanced text := by
  unfold offset at h
  split at h
  · exact Except.ok.inj h ▸ balanced_iff.mpr rfl
  · exact balanced_counted (balanced_iff.mpr rfl) h

theorem balanced_of_mem_fragments (hc : c.Accepted) (h : BalancedTexts q o)
    (hviews : expandViews q.subqueries = .ok views) {joins limit offset clause : String}
    (hjoins : Clause.joins q.subqueries = .ok joins) (hlimit : Clause.limit o = .ok limit)
    (hoffset : Clause.offset o = .ok offset)
    (hclause : clause ∈ fragments c views q o joins limit offset) : Balanced clause := by
  have hctes (v : View) (hv : v ∈ views) : Balanced v.name ∧ Balanced v.query :=
    h.views v (((walks_of_expandViews hviews).occurs hv).resolve_left (by simp))
  have hall := (List.mem_filter.mp hclause).1
  simp only [List.mem_cons, List.not_mem_nil, or_false] at hall
  rcases hall with rfl | rfl | rfl | rfl | rfl | rfl | rfl | rfl
  · exact balanced_ctes hctes h
  · exact balanced_select hc h
  · exact balanced_source h
  · exact balanced_joins h.joinOns hjoins
  · exact balanced_filter h
  · exact balanced_order h
  · exact balanced_limit hlimit
  · exact balanced_offset hoffset

end Clause

/-- Statements of the built-in dialects are balanced, and so are their clauses when each is
rewritten alone, after any parameters. -/
theorem compose_balanced {x : Composer} {q : Query} {o : Options} {st : Statement}
    (hd : x.dialect ∈ Dialect.builtin) (hc : x.config.Accepted) (hq : BalancedTexts q o)
    (h : (x.compose q o).result = .ok st) :
    Balanced st.text ∧ ∃ views joins limit offset, expandViews q.subqueries = .ok views ∧
      Clause.joins q.subqueries = .ok joins ∧ Clause.limit o = .ok limit ∧
      Clause.offset o = .ok offset ∧
      ∀ clause ∈ Clause.fragments x.config views q o joins limit offset,
        (∃ y, rewrite o.orderTerms x.dialect (bindings q.subqueries o) ⟨clause, []⟩ = .ok y) ∧
        ∀ params y, rewrite o.orderTerms x.dialect (bindings q.subqueries o)
          ⟨clause, params⟩ = .ok y → Balanced y.text := by
  obtain ⟨views, joins, limit, offset, hviews, hjoins, hlimit, hoffset, -, hrewrite⟩ :=
    exists_fragments_of_compose h
  have hmarkers := Dialect.balancedMarkers_of_mem_builtin hd
  have hclauses (clause : String)
      (hclause : clause ∈ Clause.fragments x.config views q o joins limit offset) :
      Balanced clause :=
    Clause.balanced_of_mem_fragments hc hq hviews hjoins hlimit hoffset hclause
  have htext :
      Balanced (" ".intercalate (Clause.fragments x.config views q o joins limit offset)) :=
    Balanced.intercalate (balanced_iff.mpr rfl) hclauses
  refine ⟨balanced_of_rewrite hmarkers hq.orderTerms htext hrewrite, views, joins, limit, offset,
    hviews, hjoins, hlimit, hoffset, fun clause hclause => ⟨?_, fun params y hy => ?_⟩⟩
  · have hnone : x.dialect.HasMarkers ([] : List Value).length :=
      fun n hn => absurd hn n.not_lt_zero
    obtain ⟨drafts, hdrafts, -⟩ := rewrite_intercalate hnone hrewrite
    obtain ⟨i, rfl⟩ := List.get_of_mem hclause
    exact ⟨_, hdrafts.get i.2 (hdrafts.length_eq ▸ i.2)⟩
  · exact balanced_of_rewrite hmarkers hq.orderTerms (hclauses clause hclause) hy

/-- Parentheses around a macro and a placeholder, and a direction inside of parentheses. -/
def nested : Query :=
  ⟨some "t)(", none, "t(", [("n)", "f($rev_order_by)")], some "a IN (?a, (?b))",
    [⟨"s", "s", "(1)", .inner, "(1)", [], none, [⟨"v", "(2)", [⟨"w", "3", []⟩]⟩]⟩]⟩

def nestedOptions : Options :=
  { params := some [("a", .int 1), ("b", .int 2)], orderBy := some ["g(x ASC, (?a))", "y"] }

theorem balancedTexts_nested : BalancedTexts nested nestedOptions where
  views v h := by
    rw [rootViews] at h
    simp only [nested, List.flatMap_cons, List.flatMap_nil, List.append_nil, occurs_cons_iff,
      not_occurs_nil, or_false] at h
    rcases h with rfl | rfl
    · exact ⟨balanced_iff.mpr rfl, balanced_iff.mpr rfl⟩
    · exact ⟨balanced_iff.mpr rfl, balanced_iff.mpr rfl⟩
  queries := List.forall_mem_singleton.mpr (balanced_iff.mpr rfl)
  joinOns := List.forall_mem_singleton.mpr (balanced_iff.mpr rfl)
  expressions := List.forall_mem_singleton.mpr (balanced_iff.mpr rfl)
  source := by simp [nested]
  filter := by
    rintro text ⟨⟩
    exact balanced_iff.mpr rfl
  addedFilter := by simp [nestedOptions]
  orderTerms := List.forall_mem_cons.mpr
    ⟨balanced_iff.mpr rfl, List.forall_mem_singleton.mpr (balanced_iff.mpr rfl)⟩

theorem compose_balanced_of_nested :
    BalancedTexts nested nestedOptions ∧ Config.Accepted {} ∧
      ∃ st, (Composer.compose ⟨.postgres, {}, standardValidator⟩ nested nestedOptions).result =
        .ok st ∧ Balanced st.text := by
  have hd : Dialect.postgres ∈ Dialect.builtin := by simp [Dialect.builtin]
  have hc : Config.Accepted {} := ⟨.obj [], rfl⟩
  have hok : (Composer.compose ⟨.postgres, {}, standardValidator⟩ nested
      nestedOptions).result.isOk := by decide +kernel
  obtain ⟨st, hst⟩ := exists_eq_ok_of_isOk hok
  exact ⟨balancedTexts_nested, hc, st, hst, (compose_balanced hd hc balancedTexts_nested hst).1⟩

end SqlCompose
