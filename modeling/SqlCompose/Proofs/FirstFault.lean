import SqlCompose.Proofs.Validation

/-!
# Which fault is told

The standard validator goes through six rules in order and tells of the first that is broken. Two of
the rules are about lists, and there it tells of the first bad field, or of the first bad subquery
and the first of its checks that fails. All of these are searches for the first item of a list that
is not as it should be (`FirstTold`), so one lemma describes what they find
(`map_message_findSome?_eq_some_iff`).
-/

namespace SqlCompose

/-- A reason is told of the first item that is not kept. -/
def FirstTold {α : Type} (items : List α) (Kept : α → Prop) (Tells : α → String → Prop)
    (reason : String) : Prop :=
  ∃ before a after, items = before ++ a :: after ∧ (∀ b ∈ before, Kept b) ∧ Tells a reason

theorem firstTold_nil {α : Type} {Kept : α → Prop} {Tells : α → String → Prop} {reason : String} :
    ¬ FirstTold [] Kept Tells reason := by
  simp [FirstTold]

theorem firstTold_cons_iff {α : Type} {a : α} {items : List α} {Kept : α → Prop}
    {Tells : α → String → Prop} {reason : String} :
    FirstTold (a :: items) Kept Tells reason ↔
      Tells a reason ∨ Kept a ∧ FirstTold items Kept Tells reason := by
  constructor
  · rintro ⟨before, b, after, hitems, hbefore, hb⟩
    cases before with
    | nil =>
      obtain ⟨rfl, -⟩ := List.cons.inj hitems
      exact .inl hb
    | cons x before =>
      obtain ⟨rfl, hrest⟩ := List.cons.inj hitems
      obtain ⟨ha, hbefore⟩ := List.forall_mem_cons.mp hbefore
      exact .inr ⟨ha, before, b, after, hrest, hbefore, hb⟩
  · rintro (ha | ⟨ha, before, b, after, rfl, hbefore, hb⟩)
    · exact ⟨[], a, items, rfl, by simp, ha⟩
    · exact ⟨a :: before, b, after, rfl, List.forall_mem_cons.mpr ⟨ha, hbefore⟩, hb⟩

/-- Something is told of a list if one of its items is not kept. -/
theorem exists_firstTold_iff {α : Type} {items : List α} {Kept : α → Prop}
    {Tells : α → String → Prop} (h : ∀ a, (∃ reason, Tells a reason) ↔ ¬ Kept a) :
    (∃ reason, FirstTold items Kept Tells reason) ↔ ∃ a ∈ items, ¬ Kept a := by
  induction items with
  | nil => simp [firstTold_nil]
  | cons a items ih =>
    simp only [firstTold_cons_iff, exists_or, exists_and_left, ih, h]
    by_cases ha : Kept a <;> simp [ha]

/-- What is told of a field: that its name leaves no identifier. -/
def FieldTells (f : String × String) (reason : String) : Prop :=
  hasIdentifierChars f.1 = false ∧
    reason = "Field name '" ++ f.1 ++ "' has no valid identifier characters"

namespace Subquery

/-- The checks of a subquery. -/
inductive Check where
  | complete
  | join
  | names
  | fieldNames

namespace Check

/-- Checks are made in this order. -/
def order : List Check := [complete, join, names, fieldNames]

variable (s : Subquery)

def Kept : Check → Prop
  | complete => ∀ t ∈ [s.name, s.aliasName, s.query, s.join.spelling, s.joinOn], isBlank t = false
  | join => s.join = .inner ∨ s.join = .left
  | names => hasIdentifierChars s.name ∧ hasIdentifierChars s.aliasName
  | fieldNames => ∀ f ∈ s.fields, hasIdentifierChars f.1

/-- What is told of a check that fails. -/
inductive Tells : Check → String → Prop
  | incomplete (t : String) :
    t ∈ [s.name, s.aliasName, s.query, s.join.spelling, s.joinOn] → isBlank t →
    Tells .complete "Invalid subquery configuration: missing required fields"
  | join (spelling : String) : s.join = .other spelling →
    Tells .join ("Invalid join type: " ++ spelling)
  | names : ¬ (hasIdentifierChars s.name ∧ hasIdentifierChars s.aliasName) →
    Tells .names "Invalid subquery configuration: name and alias need identifier characters"
  | fieldName (reason : String) :
    FirstTold s.fields (fun f => hasIdentifierChars f.1) FieldTells reason →
    Tells .fieldNames reason

def fault : Check → Option RequestFault
  | complete =>
    if [s.name, s.aliasName, s.query, s.join.spelling, s.joinOn].any isBlank then
      some .incompleteSubquery
    else none
  | join => if s.join.keyword?.isNone then some (.unknownJoin s.join.spelling) else none
  | names =>
    if hasIdentifierChars s.name && hasIdentifierChars s.aliasName then none
    else some .unusableSubqueryNames
  | fieldNames => fieldNamesFault s.fields

end Check

/-- What is told of a subquery: the first of its checks that fails. -/
def Tells (s : Subquery) (reason : String) : Prop :=
  FirstTold Check.order (Check.Kept s) (Check.Tells s) reason

end Subquery

/-- What is checked of a subquery. -/
def Subquery.checked (s : Subquery) : Subquery :=
  { s with fields := s.fields.map fun f => (f.1, ""), params := none, views := [] }

/-- The rules for requests. -/
inductive Rule where
  | source
  | aliasName
  | fields
  | page
  | pageSize
  | subqueries

namespace Rule

/-- Rules are checked in this order. -/
def order : List Rule := [source, aliasName, fields, page, pageSize, subqueries]

section

variable (q : Query) (o : Options)

def Kept : Rule → Prop
  | source => q.HasSource
  | aliasName => hasIdentifierChars q.aliasName
  | fields => q.fields ≠ [] ∧ ∀ f ∈ q.fields, hasIdentifierChars f.1
  | page => ∀ page, o.page = some page → 0 ≤ page
  | pageSize => ∀ size, o.pageSize = some size → 0 < size
  | subqueries => ∀ s ∈ q.subqueries, s.Usable

/-- What is told of a rule that is broken. -/
inductive Tells : Rule → String → Prop
  | twoSources : isFilled q.sourceTable → isFilled q.sourceQuery →
    Tells .source "Only one of source_table or source_query may be provided"
  | noSourceTable (t : String) : q.sourceTable = some t → isBlank t →
    isFilled q.sourceQuery = false →
    Tells .source "sourceTable is required and must be a string"
  | noSourceQuery : q.sourceTable = none → isFilled q.sourceQuery = false →
    Tells .source "sourceQuery is required and must be a string"
  | unusableSourceTable (t : String) : q.sourceTable = some t → isBlank t = false →
    isFilled q.sourceQuery = false → hasIdentifierChars t = false →
    Tells .source "sourceTable has no valid identifier characters"
  | noAlias : isBlank q.aliasName → Tells .aliasName "alias is required and must be a string"
  | unusableAlias : isBlank q.aliasName = false → hasIdentifierChars q.aliasName = false →
    Tells .aliasName "alias has no valid identifier characters"
  | noFields : q.fields = [] → Tells .fields "fields must contain at least one field definition"
  | field (reason : String) :
    FirstTold q.fields (fun f => hasIdentifierChars f.1) FieldTells reason → Tells .fields reason
  | negativePage (page : Int) : o.page = some page → page < 0 →
    Tells .page "page must be a non-negative number"
  | emptyPage (size : Int) : o.pageSize = some size → size ≤ 0 →
    Tells .pageSize "page_size must be a positive number"
  | subquery (reason : String) :
    FirstTold q.subqueries Subquery.Usable Subquery.Tells reason → Tells .subqueries reason

def fault : Rule → Option RequestFault
  | source => q.sourceFault
  | aliasName => q.aliasFault
  | fields => q.fieldsFault
  | page => o.pageFault
  | pageSize => o.pageSizeFault
  | subqueries => q.subqueriesFault

/-- Another request has the same of what a rule looks at. -/
def Same (q' : Query) (o' : Options) : Rule → Prop
  | source => q'.sourceTable = q.sourceTable ∧ q'.sourceQuery = q.sourceQuery
  | aliasName => q'.aliasName = q.aliasName
  | fields => q'.fields.map Prod.fst = q.fields.map Prod.fst
  | page => o'.page = o.page
  | pageSize => o'.pageSize = o.pageSize
  | subqueries => q'.subqueries.map Subquery.checked = q.subqueries.map Subquery.checked

end

end Rule

section

variable {q q' : Query} {o o' : Options} {s : Subquery} {fields : List (String × String)}
  {reason : String}

theorem map_message_findSome?_eq_some_iff {α : Type} {items : List α}
    {fault : α → Option RequestFault} {Kept : α → Prop} {Tells : α → String → Prop}
    (hkept : ∀ a, fault a = none ↔ Kept a)
    (htells : ∀ a, (fault a).map RequestFault.message = some reason ↔ Tells a reason) :
    (items.findSome? fault).map RequestFault.message = some reason ↔
      FirstTold items Kept Tells reason := by
  simp only [FirstTold, ← hkept, ← htells, Option.map_eq_some_iff, List.findSome?_eq_some_iff]
  constructor
  · rintro ⟨f, ⟨before, a, after, hitems, ha, hbefore⟩, hf⟩
    exact ⟨before, a, after, hitems, hbefore, f, ha, hf⟩
  · rintro ⟨before, a, after, hitems, hbefore, f, ha, hf⟩
    exact ⟨f, ⟨before, a, after, hitems, ha, hbefore⟩, hf⟩

theorem map_message_ite_iff {p : Prop} [Decidable p] {f : RequestFault} :
    (if p then some f else none).map RequestFault.message = some reason ↔
      p ∧ f.message = reason := by
  split <;> simp [*]

theorem map_message_ite_not_iff {p : Prop} [Decidable p] {f : RequestFault} :
    (if p then none else some f).map RequestFault.message = some reason ↔
      ¬ p ∧ f.message = reason := by
  split <;> simp [*]

/-! ### Fields -/

theorem fieldNamesFault_eq_findSome? (fields : List (String × String)) :
    fieldNamesFault fields = fields.findSome? fun f =>
      if hasIdentifierChars f.1 then none else some (.unusableField f.1) := by
  induction fields with
  | nil => rfl
  | cons f fields ih =>
    rw [List.findSome?_cons, ← ih, fieldNamesFault, List.find?_cons]
    cases hasIdentifierChars f.1 <;> rfl

theorem map_message_fieldNamesFault_iff :
    (fieldNamesFault fields).map RequestFault.message = some reason ↔
      FirstTold fields (fun f => hasIdentifierChars f.1) FieldTells reason := by
  rw [fieldNamesFault_eq_findSome?]
  refine map_message_findSome?_eq_some_iff (fun f => by simp) fun f => ?_
  cases hf : hasIdentifierChars f.1 with
  | true => simp [FieldTells, hf]
  | false =>
    simp only [FieldTells, hf, Bool.false_eq_true, if_false, Option.map_some, Option.some.injEq,
      true_and]
    exact eq_comm

/-! ### Subqueries -/

theorem Subquery.fault_eq_findSome? (s : Subquery) :
    s.fault = Check.order.findSome? (Check.fault s) := by
  simp only [Subquery.fault, Check.order, List.findSome?_cons, List.findSome?_nil, Check.fault]
  cases [s.name, s.aliasName, s.query, s.join.spelling, s.joinOn].any isBlank with
  | true => rfl
  | false =>
    cases s.join.keyword? with
    | none => rfl
    | some keyword =>
      cases hasIdentifierChars s.name && hasIdentifierChars s.aliasName with
      | false => rfl
      | true => cases fieldNamesFault s.fields <;> rfl

namespace Subquery.Check

theorem fault_eq_none_iff (check : Check) : check.fault s = none ↔ check.Kept s := by
  cases check with
  | complete => simp [fault, Kept]
  | join => cases hs : s.join <;> simp [fault, Kept, hs, Join.keyword?]
  | names => simp [fault, Kept]
  | fieldNames => exact fieldNamesFault_eq_none_iff

theorem map_message_fault_iff (check : Check) :
    (check.fault s).map RequestFault.message = some reason ↔ check.Tells s reason := by
  cases check with
  | complete =>
    rw [fault, map_message_ite_iff, List.any_eq_true]
    constructor
    · rintro ⟨⟨t, ht, hblank⟩, rfl⟩
      exact .incomplete t ht hblank
    · intro h
      cases h with
      | incomplete t ht hblank => exact ⟨⟨t, ht, hblank⟩, rfl⟩
  | join =>
    rw [fault, map_message_ite_iff]
    constructor
    · rintro ⟨hjoin, rfl⟩
      cases hs : s.join with
      | inner | left => simp [hs, Join.keyword?] at hjoin
      | other spelling => exact .join spelling hs
    · intro h
      cases h with
      | join spelling hs =>
        rw [hs]
        exact ⟨rfl, rfl⟩
  | names =>
    rw [fault, map_message_ite_not_iff, Bool.and_eq_true]
    constructor
    · rintro ⟨hnames, rfl⟩
      exact .names hnames
    · intro h
      cases h with
      | names hnames => exact ⟨hnames, rfl⟩
  | fieldNames =>
    rw [fault, map_message_fieldNamesFault_iff]
    refine ⟨.fieldName reason, fun h => ?_⟩
    cases h with
    | fieldName _ hfield => exact hfield

end Subquery.Check

theorem Subquery.map_message_fault_iff (s : Subquery) :
    s.fault.map RequestFault.message = some reason ↔ s.Tells reason := by
  rw [fault_eq_findSome?]
  exact map_message_findSome?_eq_some_iff Check.fault_eq_none_iff Check.map_message_fault_iff

/-! ### Rules -/

namespace Rule

theorem fault_eq_none_iff (rule : Rule) : rule.fault q o = none ↔ rule.Kept q o := by
  cases rule with
  | source => exact Query.sourceFault_eq_none_iff
  | aliasName => exact Query.aliasFault_eq_none_iff
  | fields => exact Query.fieldsFault_eq_none_iff
  | page => exact Options.pageFault_eq_none_iff
  | pageSize => exact Options.pageSizeFault_eq_none_iff
  | subqueries => exact Query.subqueriesFault_eq_none_iff

theorem map_message_sourceFault_iff :
    q.sourceFault.map RequestFault.message = some reason ↔ Tells q o .source reason := by
  constructor
  · intro h
    obtain ⟨f, hf, rfl⟩ := Option.map_eq_some_iff.mp h
    unfold Query.sourceFault at hf
    split at hf
    · next ht hq =>
      obtain rfl := Option.some.inj hf
      exact .twoSources ht hq
    · next ht hq =>
      cases htable : q.sourceTable with
      | none =>
        rw [htable] at hf
        obtain rfl := Option.some.inj hf
        exact .noSourceQuery htable hq
      | some t =>
        rw [htable] at hf
        obtain rfl := Option.some.inj hf
        exact .noSourceTable t htable (by simpa [htable, isFilled] using ht) hq
    · next ht hq =>
      cases htable : q.sourceTable with
      | none => simp [htable, isFilled] at ht
      | some t =>
        rw [htable] at ht
        split at hf
        · contradiction
        · next hid =>
          obtain rfl := Option.some.inj hf
          exact .unusableSourceTable t htable (by simpa [isFilled] using ht) hq
            (by simpa [htable] using hid)
    · contradiction
  · intro h
    cases h with
    | twoSources ht hq =>
      rw [Query.sourceFault, ht, hq]
      rfl
    | noSourceTable t ht hblank hq =>
      have hfilled : isFilled q.sourceTable = false := by simp [ht, isFilled, hblank]
      rw [Query.sourceFault, hfilled, hq, ht]
      rfl
    | noSourceQuery ht hq =>
      have hfilled : isFilled q.sourceTable = false := by simp [ht, isFilled]
      rw [Query.sourceFault, hfilled, hq, ht]
      rfl
    | unusableSourceTable t ht hblank hq hid =>
      have hfilled : isFilled q.sourceTable := by simp [ht, isFilled, hblank]
      have hany : q.sourceTable.any hasIdentifierChars = false := by simp [ht, hid]
      rw [Query.sourceFault, hfilled, hq, hany]
      rfl

theorem map_message_aliasFault_iff :
    q.aliasFault.map RequestFault.message = some reason ↔ Tells q o .aliasName reason := by
  unfold Query.aliasFault
  constructor
  · intro h
    split at h
    · next hblank =>
      obtain rfl := Option.some.inj h
      exact .noAlias hblank
    · next hblank =>
      obtain ⟨hid, rfl⟩ := map_message_ite_not_iff.mp h
      exact .unusableAlias (by simpa using hblank) (by simpa using hid)
  · intro h
    cases h with
    | noAlias hblank =>
      rw [if_pos hblank]
      rfl
    | unusableAlias hblank hid =>
      rw [hblank, hid]
      rfl

theorem map_message_fieldsFault_iff :
    q.fieldsFault.map RequestFault.message = some reason ↔ Tells q o .fields reason := by
  unfold Query.fieldsFault
  constructor
  · intro h
    split at h
    · next hnone =>
      obtain rfl := Option.some.inj h
      exact .noFields (List.isEmpty_iff.mp hnone)
    · exact .field reason (map_message_fieldNamesFault_iff.mp h)
  · intro h
    cases h with
    | noFields hnone =>
      rw [hnone]
      rfl
    | field _ hfield =>
      have hne : q.fields.isEmpty = false := by
        obtain ⟨before, f, after, hfields, -⟩ := hfield
        simp [hfields]
      rw [hne]
      exact map_message_fieldNamesFault_iff.mpr hfield

theorem map_message_pageFault_iff :
    o.pageFault.map RequestFault.message = some reason ↔ Tells q o .page reason := by
  rw [Options.pageFault, map_message_ite_iff, Option.any_eq_true]
  constructor
  · rintro ⟨⟨page, hpage, hneg⟩, rfl⟩
    exact .negativePage page hpage (of_decide_eq_true hneg)
  · intro h
    cases h with
    | negativePage page hpage hneg => exact ⟨⟨page, hpage, decide_eq_true hneg⟩, rfl⟩

theorem map_message_pageSizeFault_iff :
    o.pageSizeFault.map RequestFault.message = some reason ↔ Tells q o .pageSize reason := by
  rw [Options.pageSizeFault, map_message_ite_iff, Option.any_eq_true]
  constructor
  · rintro ⟨⟨size, hsize, hle⟩, rfl⟩
    exact .emptyPage size hsize (of_decide_eq_true hle)
  · intro h
    cases h with
    | emptyPage size hsize hle => exact ⟨⟨size, hsize, decide_eq_true hle⟩, rfl⟩

theorem map_message_subqueriesFault_iff :
    q.subqueriesFault.map RequestFault.message = some reason ↔ Tells q o .subqueries reason := by
  rw [Query.subqueriesFault, map_message_findSome?_eq_some_iff
    (fun s => Subquery.fault_eq_none_iff) Subquery.map_message_fault_iff]
  refine ⟨.subquery reason, fun h => ?_⟩
  cases h with
  | subquery _ hsub => exact hsub

theorem map_message_fault_iff (rule : Rule) :
    (rule.fault q o).map RequestFault.message = some reason ↔ rule.Tells q o reason := by
  cases rule with
  | source => exact map_message_sourceFault_iff
  | aliasName => exact map_message_aliasFault_iff
  | fields => exact map_message_fieldsFault_iff
  | page => exact map_message_pageFault_iff
  | pageSize => exact map_message_pageSizeFault_iff
  | subqueries => exact map_message_subqueriesFault_iff

end Rule

theorem standardValidator_eq (q : Query) (o : Options) :
    standardValidator q o = (Rule.order.findSome? (Rule.fault q o)).map RequestFault.message :=
  rfl

theorem standardValidator_eq_some_iff :
    standardValidator q o = some reason ↔
      FirstTold Rule.order (Rule.Kept q o) (Rule.Tells q o) reason := by
  rw [standardValidator_eq]
  exact map_message_findSome?_eq_some_iff Rule.fault_eq_none_iff Rule.map_message_fault_iff

/-! ### What the rules look at -/

theorem fieldNamesFault_eq_of_names {fields' : List (String × String)}
    (h : fields'.map Prod.fst = fields.map Prod.fst) :
    fieldNamesFault fields' = fieldNamesFault fields := by
  have hnames (fields : List (String × String)) : fieldNamesFault fields =
      (fields.map Prod.fst).findSome? fun name =>
        if hasIdentifierChars name then none else some (.unusableField name) := by
    rw [fieldNamesFault_eq_findSome?, List.findSome?_map]
    rfl
  rw [hnames, hnames, h]

theorem Subquery.fault_checked (s : Subquery) : s.checked.fault = s.fault := by
  have hfields : fieldNamesFault s.checked.fields = fieldNamesFault s.fields :=
    fieldNamesFault_eq_of_names (by simp [checked])
  unfold Subquery.fault
  rw [hfields]
  rfl

theorem Rule.Same.fault_eq {rule : Rule} (h : rule.Same q o q' o') :
    rule.fault q' o' = rule.fault q o := by
  cases rule with
  | source =>
    obtain ⟨htable, hquery⟩ := h
    simp only [fault, Query.sourceFault, htable, hquery]
  | aliasName =>
    have h : q'.aliasName = q.aliasName := h
    simp only [fault, Query.aliasFault, h]
  | fields =>
    have hempty : q'.fields.isEmpty = q.fields.isEmpty := by
      rw [← List.isEmpty_map (f := Prod.fst), h, List.isEmpty_map]
    simp only [fault, Query.fieldsFault, hempty, fieldNamesFault_eq_of_names h]
  | page =>
    have h : o'.page = o.page := h
    simp only [fault, Options.pageFault, h]
  | pageSize =>
    have h : o'.pageSize = o.pageSize := h
    simp only [fault, Options.pageSizeFault, h]
  | subqueries =>
    have hchecked (q : Query) : q.subqueriesFault =
        (q.subqueries.map Subquery.checked).findSome? Subquery.fault := by
      simp only [Query.subqueriesFault, List.findSome?_map, Function.comp_def,
        Subquery.fault_checked]
    rw [fault, fault, hchecked, hchecked, h]

/-- The standard validator accepts well-formed requests, and of others it tells the first fault.
What later rules look at does not change this, nor what no rule looks at. -/
theorem standardValidator_tells (q : Query) (o : Options) :
    (standardValidator q o = none ↔ WellFormed q o) ∧
    (∀ reason, standardValidator q o = some reason ↔
      FirstTold Rule.order (Rule.Kept q o) (Rule.Tells q o) reason) ∧
    ∀ before rule after, Rule.order = before ++ rule :: after → (∀ r ∈ before, r.Kept q o) →
      ∀ reason, rule.Tells q o reason →
        ∀ q' o', (∀ r ∈ before ++ [rule], r.Same q o q' o') →
          standardValidator q' o' = some reason := by
  refine ⟨standardValidator_eq_none_iff.trans firstFault_eq_none_iff,
    fun reason => standardValidator_eq_some_iff, ?_⟩
  intro before rule after horder hkept reason htells q' o' hsame
  refine standardValidator_eq_some_iff.mpr ⟨before, rule, after, horder, fun r hr => ?_, ?_⟩
  · rw [← Rule.fault_eq_none_iff, (hsame r (List.mem_append_left _ hr)).fault_eq,
      Rule.fault_eq_none_iff]
    exact hkept r hr
  · rw [← Rule.map_message_fault_iff, (hsame rule (by simp)).fault_eq, Rule.map_message_fault_iff]
    exact htells

end

/-- A request that breaks all rules but the first. -/
def brokenUsers : Query :=
  ⟨some "users", some " ", "", [], none, [⟨"p", "p", "SELECT 1", .other "CROSS", "TRUE", [], none, []⟩]⟩

def brokenOptions : Options := { page := some (-1), pageSize := some 0 }

/-- Of the alias it is told, also if all later rules are kept. -/
theorem standardValidator_tells_of_broken :
    standardValidator brokenUsers brokenOptions = some "alias is required and must be a string" ∧
      FirstTold Rule.order (Rule.Kept brokenUsers brokenOptions)
        (Rule.Tells brokenUsers brokenOptions) "alias is required and must be a string" ∧
      standardValidator ⟨some "users", some " ", "", [("id", "u.id")], some "?a", []⟩ .empty =
        some "alias is required and must be a string" := by
  obtain ⟨-, htells, hsame⟩ := standardValidator_tells brokenUsers brokenOptions
  have hsource : ∀ r ∈ [Rule.source], r.Kept brokenUsers brokenOptions := by
    simp only [List.mem_singleton, forall_eq]
    exact .inl (by decide)
  have halias : Rule.Tells brokenUsers brokenOptions .aliasName
      "alias is required and must be a string" := .noAlias (by decide)
  have hfirst : FirstTold Rule.order (Rule.Kept brokenUsers brokenOptions)
      (Rule.Tells brokenUsers brokenOptions) "alias is required and must be a string" :=
    ⟨[.source], .aliasName, _, rfl, hsource, halias⟩
  refine ⟨(htells _).mpr hfirst, hfirst, hsame [.source] .aliasName _ rfl hsource _ halias _ _ ?_⟩
  simp [Rule.Same, brokenUsers]

end SqlCompose
