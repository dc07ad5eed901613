import SqlCompose.Proofs.Composer.Raised
import SqlCompose.Proofs.Composer.Window

/-!
# Statements for pages

The numbers of a page stand at the end of its statement, behind all that is rewritten
(`write_paged_eq_ok_iff`). So the statements for the pages of one request differ in the last number
only, and if there is one for some page, there is one for each page whose offset can be written
(`compose_atPage`).
-/

namespace SqlCompose

/-- A request for one page. -/
def Options.atPage (o : Options) (page size : Nat) : Options :=
  { o with page := some page, pageSize := some size }

theorem toString_natCast_mul (m n : Nat) : toString ((m : Int) * n) = toString (m * n) := by
  rw [← Int.natCast_mul]
  rfl

/-! ### The end of a text -/

/-- A text that ends with a divider is rewritten up to there. -/
theorem rewrite_divider_eq_ok_iff {terms : List String} {d : Dialect}
    {values : List (String × Value)} {s w out : String} {bound all : List Value}
    (hw : Divider w) :
    rewrite terms d values ⟨s ++ w, bound⟩ = .ok ⟨out, all⟩ ↔
      ∃ a, rewrite terms d values ⟨s, bound⟩ = .ok ⟨a, all⟩ ∧ out = a ++ w := by
  have hempty (mid : List Value) : rewrite terms d values ⟨"", mid⟩ = .ok ⟨"", mid⟩ :=
    rewrite_eq_ok_iff.mpr ⟨"", rfl, bindPlaceholders_empty mid⟩
  have h : rewrite terms d values ⟨s ++ (w ++ ""), bound⟩ = .ok ⟨out, all⟩ ↔ _ :=
    rewrite_divided_eq_ok_iff hw
  rw [String.append_empty] at h
  rw [h]
  constructor
  · rintro ⟨a, mid, b, ha, hb, rfl⟩
    obtain ⟨rfl, rfl⟩ : "" = b ∧ mid = all := by simpa [hempty] using hb
    exact ⟨a, ha, by rw [String.append_empty]⟩
  · rintro ⟨a, ha, rfl⟩
    exact ⟨a, all, "", ha, hempty all, by rw [String.append_empty]⟩

namespace Clause

/-- A statement up to the numbers of its page. -/
def unpaged (c : Config) (views : List View) (q : Query) (joins : String) (o : Options) : String :=
  " ".intercalate (present [ctes views q.subqueries, select c q o, source q, joins, filter q o,
    order o])

variable {c : Config} {views : List View} {q : Query} {o : Options} {page size : Int}

theorem intercalate_fragments_eq_unpaged (joins : String) :
    " ".intercalate (fragments c views q o joins ("LIMIT" ++ " " ++ toString size)
        ("OFFSET" ++ " " ++ toString (page * size))) =
      unpaged c views q joins o ++
        (" LIMIT " ++ toString size ++ " OFFSET " ++ toString (page * size)) := by
  have hselect : select c q o ≠ "" := append_ne_empty (by decide)
  have hhead : present [ctes views q.subqueries, select c q o, source q, joins, filter q o,
      order o] ≠ [] := List.ne_nil_of_mem (a := select c q o) (by simp [present, hselect])
  have htail : present ["LIMIT" ++ " " ++ toString size,
      "OFFSET" ++ " " ++ toString (page * size)] =
        ["LIMIT" ++ " " ++ toString size, "OFFSET" ++ " " ++ toString (page * size)] := by
    rw [present_cons_of_ne (append_ne_empty (by decide)),
      present_cons_of_ne (append_ne_empty (by decide))]
    rfl
  have hfragments : fragments c views q o joins ("LIMIT" ++ " " ++ toString size)
      ("OFFSET" ++ " " ++ toString (page * size)) =
        present [ctes views q.subqueries, select c q o, source q, joins, filter q o, order o] ++
          ["LIMIT" ++ " " ++ toString size, "OFFSET" ++ " " ++ toString (page * size)] := by
    rw [← htail, ← present_append]
    rfl
  rw [hfragments, intercalate_append_eq_join " " hhead, unpaged]
  simp [← String.toList_inj]

theorem assemble_paged_eq_ok_iff (hpage : o.page = some page) (hsize : o.pageSize = some size)
    {text : String} :
    assemble c views q o = .ok text ↔ ∃ joins, Clause.joins q.subqueries = .ok joins ∧
      NumbersFit o ∧ text = unpaged c views q joins o ++
        (" LIMIT " ++ toString size ++ " OFFSET " ++ toString (page * size)) := by
  have hlimit : limit o = counted "LIMIT" size := by rw [limit, hsize]
  have hoffset : offset o = counted "OFFSET" (page * size) := by
    simp only [offset, Options.offset?, Options.paging?, hpage, hsize]
    rfl
  constructor
  · intro h
    obtain ⟨clauses, hclauses, rfl⟩ := assemble_eq_ok h
    obtain ⟨joins, l, f, hjoins, hl, hf, rfl⟩ := all_eq_ok hclauses
    obtain ⟨hfit, rfl⟩ := counted_eq_ok_iff.mp (hlimit ▸ hl)
    obtain ⟨hfit', rfl⟩ := counted_eq_ok_iff.mp (hoffset ▸ hf)
    exact ⟨joins, hjoins, ⟨by simp [hsize, hfit], by simp [hpage, hsize, hfit']⟩,
      intercalate_fragments_eq_unpaged joins⟩
  · rintro ⟨joins, hjoins, hfit, rfl⟩
    rw [counted_of_fits (hfit.pageSize size hsize)] at hlimit
    rw [counted_of_fits (hfit.offset page size hpage hsize)] at hoffset
    rw [← intercalate_fragments_eq_unpaged]
    simp only [assemble, all, tail, hjoins, hlimit, hoffset]
    rfl

end Clause

open Clause

/-! ### Statements -/

namespace Composer

variable {x : Composer} {views : List View} {q : Query} {o : Options} {st : Statement}

section

variable {page size : Int} (hpage : o.page = some page) (hsize : o.pageSize = some size)
include hpage hsize

theorem write_paged_eq_ok_iff :
    x.write views q o = .ok st ↔ ∃ joins y, Clause.joins q.subqueries = .ok joins ∧
      NumbersFit o ∧
      rewrite o.orderTerms x.dialect (bindings q.subqueries o)
        ⟨unpaged x.config views q joins o, []⟩ = .ok y ∧
      st = ⟨y.text ++ (" LIMIT " ++ toString size ++ " OFFSET " ++ toString (page * size)),
        y.params, x.dialect.name⟩ := by
  have hdivider := divider_limit size (page * size)
  rw [write_eq_ok_iff]
  simp only [assemble_paged_eq_ok_iff hpage hsize]
  constructor
  · rintro ⟨_, y, ⟨joins, hjoins, hfit, rfl⟩, hy, rfl⟩
    obtain ⟨a, ha, htext⟩ := (rewrite_divider_eq_ok_iff hdivider).mp hy
    exact ⟨joins, ⟨a, y.params⟩, hjoins, hfit, ha, by rw [htext]⟩
  · rintro ⟨joins, y, hjoins, hfit, hy, rfl⟩
    exact ⟨_, ⟨_, y.params⟩, ⟨joins, hjoins, hfit, rfl⟩,
      (rewrite_divider_eq_ok_iff hdivider).mpr ⟨y.text, hy, rfl⟩, rfl⟩

/-- The statement for a page ends with its numbers. -/
theorem exists_front_of_compose (h : (x.compose q o).result = .ok st) :
    NumbersFit o ∧ ∃ front, st.text = front ++ (" LIMIT " ++ toString size ++ " OFFSET " ++
      toString (page * size)) := by
  obtain ⟨views, -, hwrite⟩ := compose_eq_ok h
  obtain ⟨joins, y, -, hfit, -, rfl⟩ := (write_paged_eq_ok_iff hpage hsize).mp hwrite
  exact ⟨hfit, y.text, rfl⟩

end

theorem exists_front_of_compose_atPage {p s : Nat}
    (h : (x.compose q (o.atPage p s)).result = .ok st) :
    ∃ front, st.text = front ++ (" LIMIT " ++ toString s ++ " OFFSET " ++ toString (p * s)) := by
  obtain ⟨-, front, htext⟩ := exists_front_of_compose rfl rfl h
  rw [toString_natCast_mul] at htext
  exact ⟨front, htext⟩

theorem clauses_of_compose_atPage {p s : Nat} (h : (x.compose q (o.atPage p s)).result = .ok st) :
    Clause.limit (o.atPage p s) = .ok ("LIMIT " ++ toString s) ∧
      Clause.offset (o.atPage p s) = .ok ("OFFSET " ++ toString (p * s)) := by
  obtain ⟨hfit, -⟩ := exists_front_of_compose rfl rfl h
  have hlimit := counted_of_fits (hfit.pageSize _ rfl) "LIMIT"
  have hoffset := counted_of_fits (hfit.offset _ _ rfl rfl) "OFFSET"
  rw [toString_natCast_mul] at hoffset
  exact ⟨hlimit, hoffset⟩

theorem validator_of_compose (h : (x.compose q o).result = .ok st) : x.validator q o = none := by
  unfold compose at h
  split at h
  · contradiction
  · assumption

/-- The statements for the pages of one request. -/
theorem compose_atPage {p p' s : Nat} (h : (x.compose q (o.atPage p s)).result = .ok st)
    (hvalidator : x.validator q (o.atPage p' s) = x.validator q (o.atPage p s))
    (hfit : digitCount (p' * s) ≤ maxDigits) :
    ∃ front, st.text = front ++ (" LIMIT " ++ toString s ++ " OFFSET " ++ toString (p * s)) ∧
      (x.compose q (o.atPage p' s)).result = .ok { st with
        text := front ++ (" LIMIT " ++ toString s ++ " OFFSET " ++ toString (p' * s)) } := by
  obtain ⟨views, hviews, hwrite⟩ := compose_eq_ok h
  obtain ⟨joins, y, hjoins, hfits, hy, rfl⟩ := (write_paged_eq_ok_iff rfl rfl).mp hwrite
  have hfits' : NumbersFit (o.atPage p' s) := by
    refine ⟨hfits.pageSize, ?_⟩
    rintro _ _ ⟨⟩ ⟨⟩
    exact hfit
  have hunpaged : unpaged x.config views q joins (o.atPage p' s) =
      unpaged x.config views q joins (o.atPage p s) := rfl
  have hvalid := hvalidator.trans (validator_of_compose h)
  refine ⟨y.text, ?_, (compose_of_write_eq_ok hvalid hviews
    ((write_paged_eq_ok_iff rfl rfl).mpr ⟨joins, y, hjoins, hfits', hunpaged ▸ hy, ?_⟩)).1⟩
  · rw [toString_natCast_mul]
    rfl
  · rw [toString_natCast_mul]
    rfl

end Composer

/-- The standard validator does not look at which page is asked for. -/
theorem standardValidator_atPage (q : Query) (o : Options) (p p' s : Nat) :
    standardValidator q (o.atPage p' s) = standardValidator q (o.atPage p s) := by
  have hpage (p : Nat) : (o.atPage p s).pageFault = none := if_neg (by simp [Options.atPage])
  simp only [standardValidator, firstFault, hpage]
  rfl

end SqlCompose
