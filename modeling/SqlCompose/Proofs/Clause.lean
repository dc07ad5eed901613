import SqlCompose.Clause
import SqlCompose.Proofs.Validation

/-!
# Assembly of accepted requests

A request that the standard validator accepts can be assembled unless one of the two numbers that a
statement shows, the page size and the offset, has too many digits (`exists_assemble`,
`assemble_of_not_fit`). A query without subqueries and conditions comes to two clauses if neither
order nor page is asked for (`assemble_bare`).
-/

namespace SqlCompose

/-- The numbers that a statement shows can be written. -/
structure NumbersFit (o : Options) : Prop where
  pageSize : ∀ size, o.pageSize = some size → digitCount size.natAbs ≤ maxDigits
  offset : ∀ page size, o.page = some page → o.pageSize = some size →
    digitCount (page * size).natAbs ≤ maxDigits

namespace Clause

variable {c : Config} {views : List View} {q : Query} {o : Options}

theorem exists_join {s : Subquery} (h : s.join.keyword?.isSome) : ∃ line, join s = .ok line := by
  obtain ⟨keyword, hk⟩ := Option.isSome_iff_exists.mp h
  simp [join, hk]

theorem exists_joins {ss : List Subquery} (h : ∀ s ∈ ss, s.join.keyword?.isSome) :
    ∃ lines, joins ss = .ok lines := by
  suffices ∃ lines, ss.mapM join = .ok lines by
    obtain ⟨lines, hlines⟩ := this
    exact ⟨_, by rw [joins, hlines]; rfl⟩
  induction ss with
  | nil => exact ⟨[], rfl⟩
  | cons s ss ih =>
    obtain ⟨line, hline⟩ := exists_join (h s List.mem_cons_self)
    obtain ⟨lines, hlines⟩ := ih fun s hs => h s (List.mem_cons_of_mem _ hs)
    exact ⟨line :: lines, by rw [List.mapM_cons, hline, hlines]; rfl⟩

theorem isDigit_or_minus_of_mem_toString {n : Int} {c : Char} (h : c ∈ (toString n).toList) :
    c.isDigit ∨ c = '-' := by
  have hdigits (n : Nat) (h : c ∈ n.repr.toList) : c.isDigit := by
    rw [Nat.toList_repr] at h
    exact Nat.isDigit_of_mem_toDigits (by decide) (by decide) h
  cases n with
  | ofNat n => exact .inl (hdigits n h)
  | negSucc n =>
    have heq : (toString (Int.negSucc n)).toList = '-' :: (n + 1).repr.toList :=
      String.toList_append
    rw [heq] at h
    rcases List.mem_cons.mp h with rfl | h
    · exact .inr rfl
    · exact .inl (hdigits (n + 1) h)

theorem counted_of_fits {n : Int} (h : digitCount n.natAbs ≤ maxDigits) (keyword : String) :
    counted keyword n = .ok (keyword ++ " " ++ toString n) := by
  simp [counted, decimal?, h]

theorem counted_of_not_fits {n : Int} (h : ¬ digitCount n.natAbs ≤ maxDigits) (keyword : String) :
    counted keyword n = .error .longNumber := by
  simp [counted, decimal?, h]

theorem counted_eq_ok_iff {keyword text : String} {n : Int} :
    counted keyword n = .ok text ↔
      digitCount n.natAbs ≤ maxDigits ∧ text = keyword ++ " " ++ toString n := by
  by_cases hn : digitCount n.natAbs ≤ maxDigits
  · simp [counted_of_fits hn, hn, eq_comm]
  · simp [counted_of_not_fits hn, hn]

theorem exists_tail (h : NumbersFit o) : ∃ clauses, tail q o = .ok clauses := by
  obtain ⟨l, hl⟩ : ∃ l, limit o = .ok l := by
    unfold limit
    cases hsize : o.pageSize with
    | none => exact ⟨_, rfl⟩
    | some size => exact ⟨_, counted_of_fits (h.pageSize size hsize) _⟩
  obtain ⟨f, hf⟩ : ∃ f, offset o = .ok f := by
    unfold offset Options.offset? Options.paging?
    cases hpage : o.page with
    | none => exact ⟨_, rfl⟩
    | some page =>
      cases hsize : o.pageSize with
      | none => exact ⟨_, rfl⟩
      | some size => exact ⟨_, counted_of_fits (h.offset page size hpage hsize) _⟩
  exact ⟨[filter q o, order o, l, f], by simp [tail, hl, hf, bind, Except.bind, pure, Except.pure]⟩

theorem tail_of_not_fit (h : ¬ NumbersFit o) : tail q o = .error .longNumber := by
  unfold tail limit offset Options.offset? Options.paging?
  cases hsize : o.pageSize with
  | none => exact absurd ⟨by simp [hsize], by simp [hsize]⟩ h
  | some size =>
    by_cases hfit : digitCount size.natAbs ≤ maxDigits
    · cases hpage : o.page with
      | none => exact absurd ⟨by simp [hsize, hfit], by simp [hpage]⟩ h
      | some page =>
        -- The size alone can be written, so the product is too long.
        have hlong : ¬ digitCount (page * size).natAbs ≤ maxDigits := fun hprod =>
          h ⟨by simp [hsize, hfit], by simp [hsize, hpage, hprod]⟩
        simp [counted_of_fits hfit, counted_of_not_fits hlong, bind, Except.bind]
    · simp [counted_of_not_fits hfit, bind, Except.bind]

theorem all_eq (hv : firstFault q o = none) :
    ∃ lines, all c views q o = (tail q o).map fun clauses =>
      [ctes views q.subqueries, select c q o, source q, lines] ++ clauses := by
  obtain ⟨lines, hlines⟩ := exists_joins fun s hs =>
    Subquery.isSome_keyword?_of_fault (fault_of_firstFault hv s hs)
  refine ⟨lines, ?_⟩
  unfold all
  rw [hlines]
  cases tail q o <;> rfl

theorem exists_assemble (hv : firstFault q o = none) (h : NumbersFit o) :
    ∃ text, assemble c views q o = .ok text := by
  obtain ⟨lines, hall⟩ := all_eq hv
  obtain ⟨clauses, hclauses⟩ := exists_tail h
  exact ⟨_, by rw [assemble, hall, hclauses]; rfl⟩

theorem assemble_of_not_fit (hv : firstFault q o = none) (h : ¬ NumbersFit o) :
    assemble c views q o = .error .longNumber := by
  obtain ⟨lines, hall⟩ := all_eq hv
  rw [assemble, hall, tail_of_not_fit h]
  rfl

theorem assemble_bare (hsubqueries : q.subqueries = []) (hfilter : q.filter = none)
    (params : Option (List (String × Value))) :
    assemble c [] q { params } = .ok (select c q { params } ++ " " ++ source q) := by
  have hall : all c [] q { params } =
      .ok ["", select c q { params }, source q, "", "", "", "", ""] := by
    simp only [all, tail, filter, conditions, hsubqueries, hfilter]
    rfl
  have hselect : select c q { params } ≠ "" := append_ne_empty (by decide)
  have hsource : source q ≠ "" :=
    append_ne_empty (append_ne_empty (append_ne_empty (by decide)))
  rw [assemble, hall]
  simp [Except.map, present, hselect, hsource]

end Clause

end SqlCompose
