import SqlCompose.Proofs.Identifier
import SqlCompose.Validation

/-!
# What the standard validator tells

No reason for refusing a request is empty. The requests that are accepted are those that are well
formed (`firstFault_eq_none_iff`): they have one source, their names leave identifiers, their pages
are countable, and their subqueries are usable.
-/

namespace SqlCompose

theorem append_ne_empty {s t : String} (h : s ≠ "") : s ++ t ≠ "" :=
  fun hst => h (String.append_eq_empty_iff.mp hst).1

theorem RequestFault.message_ne_empty (fault : RequestFault) : fault.message ≠ "" := by
  cases fault with
  | unusableField name => exact append_ne_empty (append_ne_empty (by decide))
  | unknownJoin spelling => exact append_ne_empty (by decide)
  | _ => decide

section

variable {q : Query} {o : Options}

/-! ### Well-formed requests -/

/-- One source is filled. If it is the table, its name leaves an identifier. -/
def Query.HasSource (q : Query) : Prop :=
  (q.sourceTable.any hasIdentifierChars ∧ isFilled q.sourceQuery = false) ∨
    (isFilled q.sourceTable = false ∧ isFilled q.sourceQuery)

structure Subquery.Usable (s : Subquery) : Prop where
  query : isBlank s.query = false
  join : s.join.keyword?.isSome
  joinOn : isBlank s.joinOn = false
  name : hasIdentifierChars s.name
  aliasName : hasIdentifierChars s.aliasName
  fieldNames : ∀ f ∈ s.fields, hasIdentifierChars f.1

structure WellFormed (q : Query) (o : Options) : Prop where
  source : q.HasSource
  aliasName : hasIdentifierChars q.aliasName
  fields : q.fields ≠ []
  fieldNames : ∀ f ∈ q.fields, hasIdentifierChars f.1
  page : ∀ page, o.page = some page → 0 ≤ page
  pageSize : ∀ size, o.pageSize = some size → 0 < size
  subqueries : ∀ s ∈ q.subqueries, s.Usable

theorem fieldNamesFault_eq_none_iff {fields : List (String × String)} :
    fieldNamesFault fields = none ↔ ∀ f ∈ fields, hasIdentifierChars f.1 := by
  simp [fieldNamesFault]

theorem Join.not_isBlank_spelling {j : Join} (h : j.keyword?.isSome) :
    isBlank j.spelling = false := by
  cases j with
  | inner | left => decide
  | other s => contradiction

theorem Subquery.fault_eq_none_iff {s : Subquery} : s.fault = none ↔ s.Usable := by
  unfold Subquery.fault
  constructor
  · intro h
    split at h
    · contradiction
    · next hblank =>
      split at h
      · contradiction
      · next hjoin =>
        split at h
        · contradiction
        · next hnames =>
          simp only [List.any_cons, List.any_nil, Bool.or_false, Bool.or_eq_true, not_or,
            Bool.not_eq_true] at hblank
          simp only [Bool.not_eq_true', Bool.not_eq_false, Bool.and_eq_true] at hnames
          rw [Option.isNone_iff_eq_none, ← ne_eq, ← Option.isSome_iff_ne_none] at hjoin
          exact ⟨hblank.2.2.1, hjoin, hblank.2.2.2.2, hnames.1, hnames.2,
            fieldNamesFault_eq_none_iff.mp h⟩
  · intro h
    have hblank :
        [s.name, s.aliasName, s.query, s.join.spelling, s.joinOn].any isBlank = false := by
      simp [not_isBlank_of_hasIdentifierChars h.name, not_isBlank_of_hasIdentifierChars h.aliasName,
        h.query, Join.not_isBlank_spelling h.join, h.joinOn]
    have hjoin : s.join.keyword?.isNone = false := by simpa using h.join
    simp [hblank, hjoin, h.name, h.aliasName, fieldNamesFault_eq_none_iff.mpr h.fieldNames]

theorem isFilled_of_any {t : Option String} (h : t.any hasIdentifierChars) : isFilled t := by
  cases t with
  | none => contradiction
  | some t => simp [isFilled, not_isBlank_of_hasIdentifierChars h]

theorem Query.sourceFault_eq_none_iff : q.sourceFault = none ↔ q.HasSource := by
  unfold Query.sourceFault Query.HasSource
  cases htable : isFilled q.sourceTable with
  | true => cases isFilled q.sourceQuery <;> simp
  | false =>
    have hany : ¬ q.sourceTable.any hasIdentifierChars := fun h => by
      simp [isFilled_of_any h] at htable
    cases isFilled q.sourceQuery <;> simp [hany]

theorem Query.aliasFault_eq_none_iff : q.aliasFault = none ↔ hasIdentifierChars q.aliasName := by
  unfold Query.aliasFault
  cases h : hasIdentifierChars q.aliasName with
  | true => simp [not_isBlank_of_hasIdentifierChars h]
  | false => cases isBlank q.aliasName <;> simp

theorem Query.fieldsFault_eq_none_iff :
    q.fieldsFault = none ↔ q.fields ≠ [] ∧ ∀ f ∈ q.fields, hasIdentifierChars f.1 := by
  unfold Query.fieldsFault
  by_cases h : q.fields = []
  · simp [h]
  · rw [if_neg (by simpa using h), fieldNamesFault_eq_none_iff, and_iff_right h]

theorem Options.pageFault_eq_none_iff :
    o.pageFault = none ↔ ∀ page, o.page = some page → 0 ≤ page := by
  unfold Options.pageFault
  cases o.page <;> simp

theorem Options.pageSizeFault_eq_none_iff :
    o.pageSizeFault = none ↔ ∀ size, o.pageSize = some size → 0 < size := by
  unfold Options.pageSizeFault
  cases o.pageSize <;> simp

theorem Query.subqueriesFault_eq_none_iff :
    q.subqueriesFault = none ↔ ∀ s ∈ q.subqueries, s.Usable := by
  simp [Query.subqueriesFault, List.findSome?_eq_none_iff, Subquery.fault_eq_none_iff]

theorem firstFault_eq_none_iff : firstFault q o = none ↔ WellFormed q o := by
  simp only [firstFault, List.findSome?_eq_none_iff, List.forall_mem_cons, id,
    Query.sourceFault_eq_none_iff, Query.aliasFault_eq_none_iff, Query.fieldsFault_eq_none_iff,
    Options.pageFault_eq_none_iff, Options.pageSizeFault_eq_none_iff,
    Query.subqueriesFault_eq_none_iff]
  constructor
  · rintro ⟨hsource, halias, ⟨hne, hfields⟩, hpage, hsize, hss, -⟩
    exact ⟨hsource, halias, hne, hfields, hpage, hsize, hss⟩
  · intro h
    exact ⟨h.source, h.aliasName, ⟨h.fields, h.fieldNames⟩, h.page, h.pageSize, h.subqueries,
      by simp⟩

theorem standardValidator_eq_none_iff : standardValidator q o = none ↔ firstFault q o = none :=
  Option.map_eq_none_iff

theorem fault_of_firstFault (h : firstFault q o = none) : ∀ s ∈ q.subqueries, s.fault = none :=
  fun s hs => Subquery.fault_eq_none_iff.mpr ((firstFault_eq_none_iff.mp h).subqueries s hs)

theorem Subquery.isSome_keyword?_of_fault {s : Subquery} (h : s.fault = none) :
    s.join.keyword?.isSome :=
  (Subquery.fault_eq_none_iff.mp h).join

end

end SqlCompose
