import SqlCompose.Proofs.Composer.Stages
import SqlCompose.Proofs.Placeholder.Reading

/-!
# Dialects differ in their markers only

A text has the same gaps whatever is written between them, so all dialects whose markers never fail
end alike: they refuse a request with one error, or they write their markers between the same gaps
and bind the same values (`refuses_or_weaves`).
-/

namespace SqlCompose

/-- The target of a config is not looked at once its dialect is found. -/
theorem expandedText_target (c : Config) (target : String) (q : Query) (o : Options) :
    expandedText { c with target } q o = expandedText c q o := rfl

/-- What the dialects with markers that never fail have in common for a request. -/
theorem Composer.refuses_or_weaves (c : Config) (q : Query) (o : Options) :
    (∃ e, ∀ (d : Dialect) (mark : Int → String), (∀ n, d.marker n = .ok (mark n)) →
      ∀ target, (compose { dialect := d, config := { c with target } } q o).result =
        .error (.refused e)) ∨
    ∃ (gs : List (List Char)) (params : List Value), gs.length = params.length + 1 ∧
      ∀ (d : Dialect) (mark : Int → String), (∀ n, d.marker n = .ok (mark n)) →
        ∀ target, (compose { dialect := d, config := { c with target } } q o).result =
          .ok ⟨String.ofList (weave gs (marksAfter mark 0 params.length)), params, d.name⟩ := by
  cases htext : expandedText c q o with
  | error e =>
    refine .inl ⟨e, fun d mark hd target => ?_⟩
    rw [result_eq hd, expandedText_target, htext]
  | ok text =>
    cases hfind : (occurrences Placeholder.head? text.toList).find?
        (!hasValue (bindings q.subqueries o) ·) with
    | some name =>
      refine .inl ⟨.missingParameter name, fun d mark hd target => ?_⟩
      rw [result_eq hd, expandedText_target, htext]
      dsimp only
      rw [hfind]
    | none =>
      have hknown : ∀ name ∈ occurrences Placeholder.head? text.toList,
          hasValue (bindings q.subqueries o) name := by
        simpa using List.find?_eq_none.mp hfind
      have hparams := congrArg List.length (map_some_filterMap_lookup hknown)
      rw [List.length_map, List.length_map] at hparams
      refine .inr ⟨gaps (pieces Placeholder.head? text.toList),
        (occurrences Placeholder.head? text.toList).filterMap ((bindings q.subqueries o).lookup ·),
        ?_, fun d mark hd target => ?_⟩
      · rw [length_gaps, finds_pieces, hparams]
      · rw [result_eq hd, expandedText_target, htext]
        dsimp only
        rw [hfind, hparams]

/-- One request, composed for each of the built-in dialects. -/
theorem compose_dialects {r : Registry} (hr : r.HasBuiltin) (c : Config) (q : Query)
    (o : Options) :
    (∃ e, (compose r { c with target := "sqlite" } q o).result = .error (.refused e) ∧
      (compose r { c with target := "postgres" } q o).result = .error (.refused e) ∧
      (compose r { c with target := "mysql" } q o).result = .error (.refused e)) ∨
    ∃ (gs : List (List Char)) (params : List Value), gs.length = params.length + 1 ∧
      (compose r { c with target := "sqlite" } q o).result =
        .ok ⟨String.ofList (weave gs (List.replicate params.length ['?'])), params, "sqlite"⟩ ∧
      (compose r { c with target := "postgres" } q o).result =
        .ok ⟨String.ofList (weave gs ((List.range' 1 params.length).map numberedSpelling)), params,
          "postgres"⟩ ∧
      (compose r { c with target := "mysql" } q o).result =
        .ok ⟨String.ofList (weave gs (List.replicate params.length ['%', 's'])), params,
          "mysql"⟩ := by
  have hsqlite : r.find "sqlite" = .ok .sqlite := hr .sqlite (by simp [Dialect.builtin])
  have hpostgres : r.find "postgres" = .ok .postgres := hr .postgres (by simp [Dialect.builtin])
  have hmysql : r.find "mysql" = .ok .mysql := hr .mysql (by simp [Dialect.builtin])
  rw [compose_of_find hsqlite, compose_of_find hpostgres, compose_of_find hmysql]
  rcases Composer.refuses_or_weaves c q o with ⟨e, he⟩ | ⟨gs, params, hlen, hs⟩
  · exact .inl ⟨e, he .sqlite _ (fun _ => rfl) _, he .postgres _ (fun _ => rfl) _,
      he .mysql _ (fun _ => rfl) _⟩
  · refine .inr ⟨gs, params, hlen, ?_, ?_, ?_⟩
    · rw [hs .sqlite _ (fun _ => rfl), marksAfter_const]
      rfl
    · rw [hs .postgres _ (fun _ => rfl), marksAfter_postgres]
      rfl
    · rw [hs .mysql _ (fun _ => rfl), marksAfter_const]
      rfl

def users : Query := ⟨some "users", none, "u", [("id", "u.id")], none, []⟩

/-- A placeholder in the filter and in an order term. -/
def nearest : Options := ⟨some "u.x < ?p", some [("p", .int 1)], none, none, some ["u.x - ?p"]⟩

theorem compose_dialects_of_nearest :
    Registry.builtin.HasBuiltin ∧
    ∃ (gs : List (List Char)) (params : List Value), gs.length = params.length + 1 ∧
      (compose .builtin { target := "sqlite" } users nearest).result =
        .ok ⟨String.ofList (weave gs (List.replicate params.length ['?'])), params, "sqlite"⟩ ∧
      (compose .builtin { target := "postgres" } users nearest).result =
        .ok ⟨String.ofList (weave gs ((List.range' 1 params.length).map numberedSpelling)), params,
          "postgres"⟩ ∧
      (compose .builtin { target := "mysql" } users nearest).result =
        .ok ⟨String.ofList (weave gs (List.replicate params.length ['%', 's'])), params,
          "mysql"⟩ := by
  refine ⟨Registry.hasBuiltin_builtin, ?_⟩
  have hok : (compose .builtin { target := "sqlite" } users nearest).result.isOk := by
    decide +kernel
  rcases compose_dialects Registry.hasBuiltin_builtin {} users nearest with ⟨e, h, -⟩ | H
  · rw [h] at hok
    contradiction
  · exact H

end SqlCompose
