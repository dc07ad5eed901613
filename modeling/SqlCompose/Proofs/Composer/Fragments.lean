import SqlCompose.Composer
import SqlCompose.Proofs.Fragment

/-!
# Parameters clause by clause

The text of a statement is its clauses with spaces between them, and spaces are places at which a
text can be cut. So a statement binds what its clauses bind when each is rewritten alone, in the
order in which they stand (`bindsByClause_of_compose`).
-/

namespace SqlCompose

open Clause

variable {c : Config} {views : List View} {q : Query} {o : Options}

/-! ### Stages of a composition that succeeds -/

theorem Clause.all_eq_ok {clauses : List String} (h : all c views q o = .ok clauses) :
    ∃ joins limit offset, Clause.joins q.subqueries = .ok joins ∧ Clause.limit o = .ok limit ∧
      Clause.offset o = .ok offset ∧
      clauses = [ctes views q.subqueries, select c q o, source q, joins, filter q o, order o, limit,
        offset] := by
  obtain ⟨joins, hjoins, h⟩ := bind_eq_ok_iff.mp h
  obtain ⟨rest, hrest, h⟩ := bind_eq_ok_iff.mp h
  obtain ⟨limit, hlimit, hrest⟩ := bind_eq_ok_iff.mp hrest
  obtain ⟨offset, hoffset, hrest⟩ := bind_eq_ok_iff.mp hrest
  obtain rfl := Except.ok.inj hrest
  exact ⟨joins, limit, offset, hjoins, hlimit, hoffset, (Except.ok.inj h).symm⟩

theorem Clause.assemble_eq_ok {text : String} (h : assemble c views q o = .ok text) :
    ∃ clauses, all c views q o = .ok clauses ∧ text = " ".intercalate (present clauses) := by
  obtain ⟨clauses, hclauses, rfl⟩ := map_eq_ok_iff.mp h
  exact ⟨clauses, hclauses, rfl⟩

namespace Composer

variable {x : Composer} {st : Statement}

theorem write_eq_ok_iff :
    x.write views q o = .ok st ↔ ∃ text y, assemble x.config views q o = .ok text ∧
      rewrite o.orderTerms x.dialect (bindings q.subqueries o) ⟨text, []⟩ = .ok y ∧
      st = ⟨y.text, y.params, x.dialect.name⟩ := by
  unfold write
  cases assemble x.config views q o with
  | error f => simp [Except.mapError, bind, Except.bind]
  | ok text =>
    change (rewrite o.orderTerms x.dialect (bindings q.subqueries o) ⟨text, []⟩).bind _ = _ ↔ _
    cases hy : rewrite o.orderTerms x.dialect (bindings q.subqueries o) ⟨text, []⟩ with
    | error a => simp [Except.bind, hy]
    | ok y => simp [Except.bind, pure, Except.pure, hy, eq_comm]

theorem compose_eq_ok (h : (x.compose q o).result = .ok st) :
    ∃ views, expandViews q.subqueries = .ok views ∧ x.write views q o = .ok st := by
  unfold compose at h
  split at h
  · contradiction
  · split at h
    · contradiction
    · next views hviews =>
      refine ⟨views, hviews, ?_⟩
      dsimp only at h
      split at h
      · next hwrite => exact hwrite.trans (congrArg _ (Except.ok.inj h))
      · contradiction
      · contradiction

end Composer

/-- The clauses of a statement that are present, in the order in which they stand. -/
def Clause.fragments (c : Config) (views : List View) (q : Query) (o : Options)
    (joins limit offset : String) : List String :=
  present [ctes views q.subqueries, select c q o, source q, joins, filter q o, order o, limit,
    offset]

/-- A statement is what is made of its clauses, with spaces between them. -/
theorem exists_fragments_of_compose {x : Composer} {st : Statement}
    (h : (x.compose q o).result = .ok st) :
    ∃ views joins limit offset, expandViews q.subqueries = .ok views ∧
      Clause.joins q.subqueries = .ok joins ∧ Clause.limit o = .ok limit ∧
      Clause.offset o = .ok offset ∧
      assemble x.config views q o =
        .ok (" ".intercalate (fragments x.config views q o joins limit offset)) ∧
      rewrite o.orderTerms x.dialect (bindings q.subqueries o)
        ⟨" ".intercalate (fragments x.config views q o joins limit offset), []⟩ =
          .ok ⟨st.text, st.params⟩ := by
  obtain ⟨views, hviews, hwrite⟩ := Composer.compose_eq_ok h
  obtain ⟨text, y, htext, hy, rfl⟩ := Composer.write_eq_ok_iff.mp hwrite
  obtain ⟨clauses, hclauses, rfl⟩ := assemble_eq_ok htext
  obtain ⟨joins, limit, offset, hjoins, hlimit, hoffset, rfl⟩ := all_eq_ok hclauses
  exact ⟨views, joins, limit, offset, hviews, hjoins, hlimit, hoffset, htext, hy⟩

/-- The parameters that the clauses of a statement bind when each is rewritten alone, in order. -/
def BindsByClause (x : Composer) (q : Query) (o : Options) (params : List Value) : Prop :=
  ∃ views joins limit offset drafts, expandViews q.subqueries = .ok views ∧
    Clause.joins q.subqueries = .ok joins ∧ Clause.limit o = .ok limit ∧
    Clause.offset o = .ok offset ∧
    List.Forall₂ (fun clause y =>
        rewrite o.orderTerms x.dialect (bindings q.subqueries o) ⟨clause, []⟩ = .ok y)
      (fragments x.config views q o joins limit offset) drafts ∧
    params = drafts.flatMap Draft.params

theorem bindsByClause_of_compose {x : Composer} {st : Statement}
    (h : (x.compose q o).result = .ok st) : BindsByClause x q o st.params := by
  obtain ⟨views, joins, limit, offset, hviews, hjoins, hlimit, hoffset, -, hy⟩ :=
    exists_fragments_of_compose h
  have hnone : x.dialect.HasMarkers ([] : List Value).length := fun n hn => absurd hn n.not_lt_zero
  obtain ⟨drafts, hdrafts, hparams⟩ := rewrite_intercalate hnone hy
  exact ⟨views, joins, limit, offset, drafts, hviews, hjoins, hlimit, hoffset, hdrafts, hparams⟩

/-- A text is rewritten part by part, and a statement clause by clause. -/
theorem compose_fragments :
    (∀ terms d values params (s t : String), Separate t.toList → ∀ out all,
      rewrite terms d values ⟨s ++ t, params⟩ = .ok ⟨out, all⟩ ↔
        ∃ a mid b, rewrite terms d values ⟨s, params⟩ = .ok ⟨a, mid⟩ ∧
          rewrite terms d values ⟨t, mid⟩ = .ok ⟨b, all⟩ ∧ out = a ++ b) ∧
    ∀ (x : Composer) q o st, (x.compose q o).result = .ok st → BindsByClause x q o st.params := by
  refine ⟨fun terms d values params s t ht out all => ?_, fun x q o st h => ?_⟩
  · exact rewrite_append_eq_ok_iff ht
  · exact bindsByClause_of_compose h

def people : Query := ⟨some "people", none, "p", [("id", "p.id")], none, []⟩

/-- Those within a distance, nearest first. -/
def nearby : Options :=
  { filter := some "p.x < ?d", params := some [("d", .int 7)], orderBy := some ["p.x - ?d"] }

theorem fragments_nearby :
    fragments {} [] people nearby "" "" "" =
      ["SELECT p.id AS id", "FROM people AS p", "WHERE (p.x < ?d)", "ORDER BY p.x - ?d"] := by
  decide +kernel

/-- A macro whose expansion has a placeholder, after one of the same name, and a statement with
both in clauses of their own. -/
theorem compose_fragments_of_nearby :
    Separate " < $order_by".toList ∧
    rewrite ["p.x - ?d"] .postgres [("d", .int 7)] ⟨"?d" ++ " < $order_by", [.null]⟩ =
      .ok ⟨"$2 < p.x - $3", [.null, .int 7, .int 7]⟩ ∧
    ∃ st, (Composer.compose ⟨.postgres, {}, standardValidator⟩ people nearby).result = .ok st ∧
      ∃ drafts, List.Forall₂ (fun clause y =>
          rewrite nearby.orderTerms .postgres (bindings [] nearby) ⟨clause, []⟩ = .ok y)
        ["SELECT p.id AS id", "FROM people AS p", "WHERE (p.x < ?d)", "ORDER BY p.x - ?d"] drafts ∧
      st.params = drafts.flatMap Draft.params := by
  have ht : Separate " < $order_by".toList := by
    rintro c ⟨⟩
    decide +kernel
  have hok : (Composer.compose ⟨.postgres, {}, standardValidator⟩ people nearby).result.isOk := by
    decide +kernel
  refine ⟨ht, ?_, ?_⟩
  · exact (compose_fragments.1 _ _ _ _ _ _ ht _ _).mpr
      ⟨"$2", [.null, .int 7], " < p.x - $3", rfl, rfl, rfl⟩
  · cases hst : (Composer.compose ⟨.postgres, {}, standardValidator⟩ people nearby).result with
    | error e =>
      rw [hst] at hok
      contradiction
    | ok st =>
      obtain ⟨views, joins, limit, offset, drafts, hviews, hjoins, hlimit, hoffset, hdrafts,
        hparams⟩ := compose_fragments.2 _ _ _ _ hst
      obtain rfl : [] = views := Except.ok.inj hviews
      obtain rfl : "" = joins := Except.ok.inj hjoins
      obtain rfl : "" = limit := Except.ok.inj hlimit
      obtain rfl : "" = offset := Except.ok.inj hoffset
      rw [fragments_nearby] at hdrafts
      exact ⟨st, rfl, drafts, hdrafts, hparams⟩

end SqlCompose
