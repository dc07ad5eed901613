import Mathlib.Logic.ExistsUnique
import SqlCompose.Draft
import SqlCompose.Proofs.Placeholder.Binding

/-!
# The pass over placeholders

A text falls into placeholders and gaps in exactly one way (`existsUnique_splits`). For a dialect
whose markers never fail this is all that the pass looks at: it writes a marker between any two
gaps and binds the values of the names in order (`apply_placeholders_eq_ok_iff`), unless a name has
no value, and then it tells the first such name (`apply_placeholders_of_missing`).
-/

namespace SqlCompose

open Placeholder

variable {d : Dialect} {mark : Int → String} {values : List (String × Value)} {x y : Draft}
  {gs : List (List Char)} {names before after : List String} {name : String}

theorem existsUnique_splits (text : List Char) :
    ∃! split : List (List Char) × List String, Splits text split.1 split.2 := by
  refine ⟨(gaps (pieces head? text), occurrences head? text), splits_pieces text, ?_⟩
  intro split h
  obtain ⟨hgaps, hnames⟩ := splits_iff.mp h
  exact Prod.ext hgaps hnames

theorem apply_placeholders (d : Dialect) (values : List (String × Value)) (x : Draft) :
    Pass.apply x (.placeholders d values) =
      (bindPlaceholders d.marker values x.text x.params).map fun bound => ⟨bound.1, bound.2⟩ := by
  cases h : bindPlaceholders d.marker values x.text x.params <;>
    simp [Pass.apply, h, bind, Except.bind, Except.map, pure, Except.pure]

section

variable (hs : Splits x.text.toList gs names) (hd : ∀ n, d.marker n = .ok (mark n))
include hs hd

/-- The text and the parameters of a pass, if there are values for all names. -/
theorem apply_placeholders_eq_ok_iff :
    Pass.apply x (.placeholders d values) = .ok y ↔
      y.text.toList = weave gs (marksAfter mark x.params.length names.length) ∧
        BindsNames values names x.params y.params := by
  obtain ⟨rfl, rfl⟩ := splits_iff.mp hs
  constructor
  · intro h
    rw [apply_placeholders, map_eq_ok_iff] at h
    obtain ⟨⟨out, all⟩, hbind, rfl⟩ := h
    exact (bindPlaceholders_eq_ok hd hs hbind).symm
  · rintro ⟨htext, new, hparams, hnew⟩
    have hknown : (occurrences head? x.text.toList).find? (!hasValue values ·) = none := by
      rw [List.find?_eq_none]
      intro n hn
      have hmem : values.lookup n ∈ new.map some := hnew ▸ List.mem_map_of_mem hn
      obtain ⟨v, -, hv⟩ := List.mem_map.mp hmem
      simp [hasValue, ← hv]
    have hvalues : new = (occurrences head? x.text.toList).filterMap (values.lookup ·) := by
      have := congrArg (List.filterMap id) hnew
      simpa [List.filterMap_map] using this
    rw [apply_placeholders, bindPlaceholders_of_total hd, hknown, ← htext, ← hvalues, ← hparams]
    simp [Except.map]

theorem exists_apply_placeholders_iff :
    (∃ y, Pass.apply x (.placeholders d values) = .ok y) ↔
      ∀ name ∈ names, name ∈ values.map Prod.fst := by
  obtain ⟨rfl, rfl⟩ := splits_iff.mp hs
  simp only [apply_placeholders, exists_map_eq_ok_iff, bindPlaceholders_of_total hd,
    ← hasValue_iff_mem_keys]
  cases h : (occurrences head? x.text.toList).find? (!hasValue values ·) with
  | none => simpa using h
  | some name =>
    have hname := List.find?_some h
    simp only [reduceCtorEq, exists_false, false_iff]
    intro hall
    simp [hall name (List.mem_of_find?_eq_some h)] at hname

/-- The first name without a value is told. -/
theorem apply_placeholders_of_missing (hnames : names = before ++ name :: after)
    (hbefore : ∀ n ∈ before, n ∈ values.map Prod.fst) (hname : name ∉ values.map Prod.fst) :
    Pass.apply x (.placeholders d values) = .error (.refused (.missingParameter name)) := by
  obtain ⟨rfl, rfl⟩ := splits_iff.mp hs
  have hfind : (occurrences head? x.text.toList).find? (!hasValue values ·) = some name := by
    rw [← hasValue_iff_mem_keys] at hname
    rw [List.find?_eq_some_iff_append]
    refine ⟨by simpa using hname, before, after, hnames, fun n hn => ?_⟩
    simpa using hasValue_iff_mem_keys.mpr (hbefore n hn)
  rw [apply_placeholders, bindPlaceholders_of_total hd, hfind]
  rfl

end

/-- A text has one division into gaps and placeholders, and by it the pass is known for every
dialect whose markers never fail: when it succeeds, what it writes and binds, and else which name
it misses. -/
theorem placeholders_pass (text : String) :
    (∃! split : List (List Char) × List String, Splits text.toList split.1 split.2) ∧
    ∀ gs names, Splits text.toList gs names →
      ∀ (d : Dialect) (mark : Int → String), (∀ n, d.marker n = .ok (mark n)) →
      ∀ (values : List (String × Value)) (params : List Value),
        ((∃ y, Pass.apply ⟨text, params⟩ (.placeholders d values) = .ok y) ↔
          ∀ name ∈ names, name ∈ values.map Prod.fst) ∧
        (∀ y, Pass.apply ⟨text, params⟩ (.placeholders d values) = .ok y ↔
          y.text.toList = weave gs (marksAfter mark params.length names.length) ∧
            BindsNames values names params y.params) ∧
        ∀ before name after, names = before ++ name :: after →
          (∀ n ∈ before, n ∈ values.map Prod.fst) → name ∉ values.map Prod.fst →
          Pass.apply ⟨text, params⟩ (.placeholders d values) =
              .error (.refused (.missingParameter name)) ∧
            ∀ wording, (BuildError.missingParameter name).message wording =
              "Missing parameter: " ++ name := by
  refine ⟨existsUnique_splits text.toList, fun gs names hs d mark hd values params => ?_⟩
  refine ⟨exists_apply_placeholders_iff hs hd, fun y => apply_placeholders_eq_ok_iff hs hd, ?_⟩
  intro before name after hnames hbefore hname
  exact ⟨apply_placeholders_of_missing hs hd hnames hbefore hname, fun _ => rfl⟩

/-- A question mark on its own, one before a digit, a name that ends at a letter outside of ASCII,
and names next to each other, with values for all of them and for the first only. -/
theorem placeholders_pass_of_neighbours :
    Splits "??aé?1?_b?a".toList [['?'], ['é', '?', '1'], [], []] ["a", "_b", "a"] ∧
    Pass.apply ⟨"??aé?1?_b?a", [.null]⟩ (.placeholders .postgres [("a", .int 1), ("_b", .null)]) =
      .ok ⟨"?$2é?1$3$4", [.null, .int 1, .null, .int 1]⟩ ∧
    Pass.apply ⟨"??aé?1?_b?a", []⟩ (.placeholders .postgres [("a", .int 1)]) =
      .error (.refused (.missingParameter "_b")) := by
  have hs : Splits "??aé?1?_b?a".toList [['?'], ['é', '?', '1'], [], []] ["a", "_b", "a"] :=
    splits_iff.mpr (by decide)
  have hpass := (placeholders_pass "??aé?1?_b?a").2 _ _ hs .postgres _ fun _ => rfl
  have hmissing := (hpass [("a", .int 1)] []).2.2 ["a"] "_b" ["a"] rfl (by simp) (by decide)
  exact ⟨hs, ((hpass _ [.null]).2.1 _).mpr ⟨by decide, [.int 1, .null, .int 1], rfl, rfl⟩,
    hmissing.1⟩

end SqlCompose
