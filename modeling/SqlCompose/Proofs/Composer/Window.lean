import SqlCompose.Proofs.Composer.Fragments
import SqlCompose.Proofs.Composer.Stages
import SqlCompose.Proofs.Config

/-!
# Window columns

The window columns of a paged statement count rows by an order macro, and the statement itself is
ordered by its terms as they are. Both come to the same ordering (`expandOrder_windowedText`): the
fixed texts around it are dividers, so what stands before, between and after them is expanded part
by part, and the terms have no macros of their own. The ordering is then bound three times, to the
same values (`bindsOrderings_of_bindPlaceholders`).
-/

namespace SqlCompose

/-! ### Texts joined -/

theorem intercalate_cons_eq_join (s x : String) (ys : List String) :
    s.intercalate (x :: ys) = x ++ String.join (ys.map (s ++ ·)) := by
  induction ys generalizing x with
  | nil => simp
  | cons y ys ih =>
    rw [String.intercalate_cons_cons, ih, List.map_cons, String.join_cons, String.append_assoc,
      String.append_assoc]

theorem intercalate_append_eq_join (s : String) {xs : List String} (h : xs ≠ [])
    (ys : List String) :
    s.intercalate (xs ++ ys) = s.intercalate xs ++ String.join (ys.map (s ++ ·)) := by
  obtain ⟨x, xs, rfl⟩ := List.exists_cons_of_ne_nil h
  rw [List.cons_append, intercalate_cons_eq_join, intercalate_cons_eq_join, List.map_append,
    String.join_append, String.append_assoc]

theorem intercalate_concat_append (s : String) (xs : List String) (x y : String) :
    s.intercalate (xs ++ [x ++ y]) = s.intercalate (xs ++ [x]) ++ y := by
  cases xs with
  | nil => simp
  | cons z zs =>
    simp only [List.cons_append, intercalate_cons_eq_join, List.map_append, List.map_cons,
      List.map_nil, String.join_append, String.join_cons, String.join_nil, String.append_empty,
      String.append_assoc]

/-! ### The text of a paged statement -/

namespace Clause

/-- What stands before the window columns: the `WITH` clause and the other columns. -/
def beforeWindow (views : List View) (q : Query) : String :=
  " ".intercalate (present [ctes views q.subqueries,
    "SELECT " ++ commas (selectItems q.fields ++ q.subqueries.flatMap (selectItems ·.fields))])

/-- The clauses between the window columns and the ordering, each after a space. -/
def afterWindow (q : Query) (joins : String) (o : Options) : String :=
  String.join ((present [source q, joins, filter q o]).map (" " ++ ·))

/-- A paged statement with window columns, by the orderings of its columns and its rows and by what
stands before and between them. -/
def windowedText (c : Config) (page size : Int) (before first second between last : String) :
    String :=
  before ++ ", ROW_NUMBER() OVER (ORDER BY " ++ first ++ ") AS " ++ c.numColumn ++
    ", COUNT(*) OVER () - ROW_NUMBER() OVER (ORDER BY " ++ second ++ ") AS " ++
    c.remainingColumn ++ between ++ " ORDER BY " ++ last ++ " LIMIT " ++ toString size ++
    " OFFSET " ++ toString (page * size)

variable {c : Config} {views : List View} {q : Query} {o : Options} {page size : Int}

theorem hasWindow_of_paged (hw : c.windowColumns) (hpage : o.page = some page)
    (hsize : o.pageSize = some size) (hterms : 2 ≤ o.orderTerms.length) : hasWindow c o := by
  have hlt : 1 < o.orderTerms.length := hterms
  simp [hasWindow, hw, hlt, Options.paging?, hpage, hsize]

theorem commas_windowItems (c : Config) :
    commas (windowItems c) = "ROW_NUMBER() OVER (ORDER BY $order_by) AS " ++ c.numColumn ++
      ", COUNT(*) OVER () - ROW_NUMBER() OVER (ORDER BY $order_by) AS " ++ c.remainingColumn := by
  have hrow : rowNumber = "ROW_NUMBER() OVER (ORDER BY $order_by)" := by decide
  simp [commas, windowItems, hrow, ← String.toList_inj]

theorem select_eq_append (h : hasWindow c o) (hfields : q.fields ≠ []) :
    select c q o =
      "SELECT " ++ commas (selectItems q.fields ++ q.subqueries.flatMap (selectItems ·.fields)) ++
        (", " ++ commas (windowItems c)) := by
  have hitems : selectItems q.fields ++ q.subqueries.flatMap (selectItems ·.fields) ≠ [] := by
    simp [selectItems, hfields]
  rw [select, if_pos h, commas, String.intercalate_append_of_ne_nil hitems (by simp [windowItems]),
    commas, commas, String.append_assoc, String.append_assoc]

theorem present_cons_of_ne {clause : String} (h : clause ≠ "") (clauses : List String) :
    present (clause :: clauses) = clause :: present clauses :=
  List.filter_cons_of_pos (by simpa using h)

theorem present_append (xs ys : List String) : present (xs ++ ys) = present xs ++ present ys :=
  List.filter_append xs ys

theorem order_of_terms (h : o.orderTerms ≠ []) : order o = "ORDER BY " ++ commas o.orderTerms :=
  if_neg (by simpa using h)

theorem present_pair_of_ne {clause : String} (first : String) (h : clause ≠ "") :
    present [first, clause] = present [first] ++ [clause] := by
  rw [← List.singleton_append, present_append, present_cons_of_ne h]
  rfl

theorem beforeWindow_append (views : List View) (q : Query) (more : String) :
    " ".intercalate (present [ctes views q.subqueries,
        "SELECT " ++ commas (selectItems q.fields ++ q.subqueries.flatMap (selectItems ·.fields)) ++
          more]) = beforeWindow views q ++ more := by
  rw [beforeWindow, String.append_assoc, present_pair_of_ne _ (append_ne_empty (by decide)),
    present_pair_of_ne _ (append_ne_empty (by decide)), ← String.append_assoc,
    intercalate_concat_append]

theorem fragments_eq_append {limit offset : String} (horder : order o ≠ "") (hlimit : limit ≠ "")
    (hoffset : offset ≠ "") (joins : String) :
    fragments c views q o joins limit offset =
      present [ctes views q.subqueries, select c q o] ++
        (present [source q, joins, filter q o] ++ [order o, limit, offset]) := by
  have htail : present [order o, limit, offset] = [order o, limit, offset] := by
    rw [present_cons_of_ne horder, present_cons_of_ne hlimit, present_cons_of_ne hoffset]
    rfl
  rw [← htail, ← present_append, ← present_append]
  rfl

section

variable (hw : c.windowColumns) (hpage : o.page = some page) (hsize : o.pageSize = some size)
  (hterms : 2 ≤ o.orderTerms.length) (hfields : q.fields ≠ [])
include hw hpage hsize hterms hfields

theorem intercalate_fragments (joins : String) :
    " ".intercalate (fragments c views q o joins ("LIMIT" ++ " " ++ toString size)
      ("OFFSET" ++ " " ++ toString (page * size))) =
      windowedText c page size (beforeWindow views q) "$order_by" "$order_by"
        (afterWindow q joins o) (commas o.orderTerms) := by
  have hne : o.orderTerms ≠ [] := by
    rintro h
    simp [h] at hterms
  have hselect := select_eq_append (hasWindow_of_paged hw hpage hsize hterms) hfields
  have hhead : present [ctes views q.subqueries, select c q o] ≠ [] := by
    rw [select, present_pair_of_ne _ (append_ne_empty (by decide))]
    simp
  rw [fragments_eq_append (order_of_terms hne ▸ append_ne_empty (by decide))
      (append_ne_empty (by decide)) (append_ne_empty (by decide)),
    intercalate_append_eq_join " " hhead, hselect, beforeWindow_append, List.map_append,
    String.join_append, ← afterWindow, order_of_terms hne, commas_windowItems]
  simp [windowedText, ← String.toList_inj]

theorem eq_windowedText_of_assemble {text : String} (h : assemble c views q o = .ok text) :
    ∃ joins, Clause.joins q.subqueries = .ok joins ∧
      text = windowedText c page size (beforeWindow views q) "$order_by" "$order_by"
        (afterWindow q joins o) (commas o.orderTerms) := by
  obtain ⟨clauses, hclauses, rfl⟩ := assemble_eq_ok h
  obtain ⟨joins, limit, offset, hjoins, hlimit, hoffset, rfl⟩ := all_eq_ok hclauses
  obtain rfl : limit = "LIMIT" ++ " " ++ toString size := by
    rw [Clause.limit, hsize] at hlimit
    exact (counted_eq_ok_iff.mp hlimit).2
  obtain rfl : offset = "OFFSET" ++ " " ++ toString (page * size) := by
    simp only [Clause.offset, Options.offset?, Options.paging?, hpage, hsize] at hoffset
    exact (counted_eq_ok_iff.mp hoffset).2
  exact ⟨joins, hjoins, intercalate_fragments hw hpage hsize hterms hfields joins⟩

end

/-! ### Parts that are rewritten apart -/

theorem plain_toString (n : Int) : Plain (toString n) := by
  constructor
  · exact fun hc => absurd (isDigit_or_minus_of_mem_toString hc) (by decide)
  · exact fun hc => absurd (isDigit_or_minus_of_mem_toString hc) (by decide)

theorem divider_rowNumber : Divider ", ROW_NUMBER() OVER (ORDER BY " := by decide

theorem divider_orderBy : Divider " ORDER BY " := by decide

theorem divider_comma : Divider ", " := by decide

theorem divider_as {column : String} (h : isPlainIdentifier column) :
    Divider (") AS " ++ column) :=
  Divider.append (by decide) (plain_of_isPlainIdentifier h)

theorem divider_numColumn (hc : c.Accepted) :
    Divider (") AS " ++ c.numColumn ++ ", COUNT(*) OVER () - ROW_NUMBER() OVER (ORDER BY ") :=
  (divider_as hc.columns.1).append (by decide)

theorem divider_limit (size offset : Int) :
    Divider (" LIMIT " ++ toString size ++ " OFFSET " ++ toString offset) := by
  have hlimit : Divider " LIMIT " := by decide
  have hoffset : Plain " OFFSET " := by decide
  exact ((hlimit.append (plain_toString size)).append hoffset).append (plain_toString offset)

section

variable {before first second between last out : String}

theorem windowedText_eq :
    windowedText c page size before first second between last =
      before ++ (", ROW_NUMBER() OVER (ORDER BY " ++ (first ++ ((") AS " ++ c.numColumn ++
        ", COUNT(*) OVER () - ROW_NUMBER() OVER (ORDER BY ") ++ (second ++
          ((") AS " ++ c.remainingColumn) ++ (between ++ (" ORDER BY " ++ (last ++
            ((" LIMIT " ++ toString size ++ " OFFSET " ++ toString (page * size)) ++
              ""))))))))) := by
  simp only [windowedText, String.append_assoc, String.append_empty]

variable {terms : List String} {marker : Int → Except Abort String}
  {values : List (String × Value)} {params all : List Value}

theorem expandOrder_windowedText_eq_ok_iff (hc : c.Accepted) :
    expandOrder terms (windowedText c page size before first second between last) = .ok out ↔
      ∃ x f s y l, expandOrder terms before = .ok x ∧ expandOrder terms first = .ok f ∧
        expandOrder terms second = .ok s ∧ expandOrder terms between = .ok y ∧
        expandOrder terms last = .ok l ∧ out = windowedText c page size x f s y l := by
  have hempty : expandOrder terms "" = .ok "" := rfl
  simp only [windowedText_eq, expandOrder_divided_eq_ok_iff divider_rowNumber,
    expandOrder_divided_eq_ok_iff (divider_numColumn hc),
    expandOrder_divided_eq_ok_iff (divider_as hc.columns.2),
    expandOrder_divided_eq_ok_iff divider_orderBy,
    expandOrder_divided_eq_ok_iff (divider_limit size (page * size)), hempty]
  constructor
  · rintro ⟨x, _, hx, ⟨f, _, hf, ⟨s, _, hs, ⟨y, _, hy, ⟨l, _, hl, ⟨⟩, rfl⟩, rfl⟩, rfl⟩, rfl⟩, rfl⟩
    exact ⟨x, f, s, y, l, hx, hf, hs, hy, hl, rfl⟩
  · rintro ⟨x, f, s, y, l, hx, hf, hs, hy, hl, rfl⟩
    exact ⟨x, _, hx, ⟨f, _, hf, ⟨s, _, hs, ⟨y, _, hy, ⟨l, _, hl, rfl, rfl⟩, rfl⟩, rfl⟩, rfl⟩, rfl⟩

theorem bindPlaceholders_windowedText_eq_ok_iff (hc : c.Accepted) :
    bindPlaceholders marker values (windowedText c page size before first second between last)
        params = .ok (out, all) ↔
      ∃ x p f p₁ s p₂ y p₃ l, bindPlaceholders marker values before params = .ok (x, p) ∧
        bindPlaceholders marker values first p = .ok (f, p₁) ∧
        bindPlaceholders marker values second p₁ = .ok (s, p₂) ∧
        bindPlaceholders marker values between p₂ = .ok (y, p₃) ∧
        bindPlaceholders marker values last p₃ = .ok (l, all) ∧
        out = windowedText c page size x f s y l := by
  simp only [windowedText_eq, bindPlaceholders_divided_eq_ok_iff divider_rowNumber,
    bindPlaceholders_divided_eq_ok_iff (divider_numColumn hc),
    bindPlaceholders_divided_eq_ok_iff (divider_as hc.columns.2),
    bindPlaceholders_divided_eq_ok_iff divider_orderBy,
    bindPlaceholders_divided_eq_ok_iff (divider_limit size (page * size)), bindPlaceholders_empty]
  constructor
  · rintro ⟨x, p, _, hx, ⟨f, p₁, _, hf, ⟨s, p₂, _, hs, ⟨y, p₃, _, hy, ⟨l, _, _, hl, ⟨⟩, rfl⟩, rfl⟩,
      rfl⟩, rfl⟩, rfl⟩
    exact ⟨x, p, f, p₁, s, p₂, y, p₃, l, hx, hf, hs, hy, hl, rfl⟩
  · rintro ⟨x, p, f, p₁, s, p₂, y, p₃, l, hx, hf, hs, hy, hl, rfl⟩
    exact ⟨x, p, _, hx, ⟨f, p₁, _, hf, ⟨s, p₂, _, hs, ⟨y, p₃, _, hy, ⟨l, all, _, hl, rfl, rfl⟩,
      rfl⟩, rfl⟩, rfl⟩, rfl⟩

end

end Clause

/-! ### The ordering -/

theorem expandOrder_spelling {terms : List String} (h : terms ≠ []) :
    expandOrder terms "$order_by" = .ok (Clause.commas terms) := by
  have hpieces : pieces OrderMacro.head? "$order_by".toList = [.found .forward] := rfl
  rw [expandOrder_eq_ok_iff, hpieces]
  exact ⟨fun _ => h, (List.append_nil _).symm⟩

/-- Terms without macros make an ordering without macros. -/
theorem expandOrder_commas {terms items : List String}
    (h : ∀ item ∈ items, ¬ ∃ m, OrderMacro.OccursIn m item.toList) :
    expandOrder terms (Clause.commas items) = .ok (Clause.commas items) := by
  induction items with
  | nil => rfl
  | cons item items ih =>
    rw [List.forall_mem_cons] at h
    have hitem : expandOrder terms item = .ok item := expandOrder_of_not_occursIn h.1
    cases items with
    | nil => rwa [Clause.commas, String.intercalate_singleton]
    | cons item' items =>
      rw [Clause.commas, String.intercalate_cons_cons, String.append_assoc,
        expandOrder_divided_eq_ok_iff Clause.divider_comma]
      exact ⟨_, _, hitem, ih h.2, rfl⟩

open Clause

theorem expandOrder_windowedText {c : Config} {page size : Int} {terms : List String}
    {before between out : String} (hc : c.Accepted) (hne : terms ≠ [])
    (hmacros : ∀ term ∈ terms, ¬ ∃ m, OrderMacro.OccursIn m term.toList)
    (h : expandOrder terms (windowedText c page size before "$order_by" "$order_by" between
      (commas terms)) = .ok out) :
    ∃ x y, expandOrder terms before = .ok x ∧ expandOrder terms between = .ok y ∧
      out = windowedText c page size x (commas terms) (commas terms) y (commas terms) := by
  obtain ⟨x, f, s, y, l, hx, hf, hs, hy, hl, rfl⟩ := (expandOrder_windowedText_eq_ok_iff hc).mp h
  -- The three places of the ordering come to the same text.
  obtain rfl : commas terms = f := Except.ok.inj ((expandOrder_spelling hne).symm.trans hf)
  obtain rfl : commas terms = s := Except.ok.inj ((expandOrder_spelling hne).symm.trans hs)
  obtain rfl : commas terms = l := Except.ok.inj ((expandOrder_commas hmacros).symm.trans hl)
  exact ⟨x, y, hx, hy, rfl⟩

/-- A statement for a paged text whose ordering is bound three times. Each time it binds the values
of its own placeholders, right after the parameters of all that stands before it. -/
def BindsOrderings (x : Composer) (q : Query) (o : Options) (page size : Int)
    (before ordering between : String) (st : Statement) : Prop :=
  let bind := bindPlaceholders x.dialect.marker (bindings q.subqueries o)
  ∃ a f₁ f₂ b f₃ u v w,
    bind before [] = .ok (a, u) ∧
    bind ordering u = .ok (f₁, u ++ v) ∧
    bind ordering (u ++ v) = .ok (f₂, u ++ v ++ v) ∧
    bind between (u ++ v ++ v) = .ok (b, u ++ v ++ v ++ w) ∧
    bind ordering (u ++ v ++ v ++ w) = .ok (f₃, st.params) ∧
    st.text = windowedText x.config page size a f₁ f₂ b f₃ ∧
    st.params = u ++ v ++ v ++ w ++ v ∧
    v.map some = (occurrences Placeholder.head? ordering.toList).map (valueOf? q o)

variable {x : Composer} {q : Query} {o : Options} {st : Statement} {page size : Int}

theorem bindsOrderings_of_bindPlaceholders (hc : x.config.Accepted)
    {before ordering between : String}
    (h : bindPlaceholders x.dialect.marker (bindings q.subqueries o)
      (windowedText x.config page size before ordering ordering between ordering) [] =
        .ok (st.text, st.params)) :
    BindsOrderings x q o page size before ordering between st := by
  obtain ⟨a, u, f₁, p₁, f₂, p₂, b, p₃, f₃, ha, h₁, h₂, hb, h₃, htext⟩ :=
    (bindPlaceholders_windowedText_eq_ok_iff hc).mp h
  obtain ⟨v, rfl, hv⟩ := bindsNames_of_bindPlaceholders h₁
  have hnew {f : String} {p all : List Value}
      (h : bindPlaceholders x.dialect.marker (bindings q.subqueries o) ordering p = .ok (f, all)) :
      all = p ++ v := by
    have hv := (bindPlaceholders_eq_ok_iff.mp h₁).2
    rw [(bindPlaceholders_eq_ok_iff.mp h).2, List.append_cancel_left hv]
  obtain rfl := hnew h₂
  obtain ⟨w, rfl, -⟩ := bindsNames_of_bindPlaceholders hb
  refine ⟨a, f₁, f₂, b, f₃, u, v, w, ha, h₁, h₂, hb, h₃, htext, hnew h₃, ?_⟩
  rw [hv]
  exact List.map_congr_left fun name _ => lookup_bindings q o name

/-- The window columns of a paged statement count by the ordering of the statement. -/
theorem compose_windowed (hvalid : standardValidator q o = none) (hc : x.config.Accepted)
    (hwindow : x.config.windowColumns) (hpage : o.page = some page) (hsize : o.pageSize = some size)
    (hterms : 2 ≤ o.orderTerms.length)
    (hmacros : ∀ term ∈ o.orderTerms, ¬ ∃ m, OrderMacro.OccursIn m term.toList)
    (h : (x.compose q o).result = .ok st) :
    ∃ views joins text before between, expandViews q.subqueries = .ok views ∧
      Clause.joins q.subqueries = .ok joins ∧ assemble x.config views q o = .ok text ∧
      text = windowedText x.config page size (beforeWindow views q) "$order_by" "$order_by"
        (afterWindow q joins o) (commas o.orderTerms) ∧
      expandOrder o.orderTerms (beforeWindow views q) = .ok before ∧
      expandOrder o.orderTerms (afterWindow q joins o) = .ok between ∧
      expandOrder o.orderTerms text = .ok (windowedText x.config page size before
        (commas o.orderTerms) (commas o.orderTerms) between (commas o.orderTerms)) ∧
      BindsOrderings x q o page size before (commas o.orderTerms) between st := by
  have hfields : q.fields ≠ [] :=
    (firstFault_eq_none_iff.mp (standardValidator_eq_none_iff.mp hvalid)).fields
  have hne : o.orderTerms ≠ [] := by
    rintro hnil
    simp [hnil] at hterms
  obtain ⟨views, hviews, hwrite⟩ := Composer.compose_eq_ok h
  obtain ⟨text, y, htext, hrewrite, rfl⟩ := Composer.write_eq_ok_iff.mp hwrite
  obtain ⟨joins, hjoins, rfl⟩ :=
    eq_windowedText_of_assemble hwindow hpage hsize hterms hfields htext
  obtain ⟨expanded, hexpand, hbind⟩ := rewrite_eq_ok_iff.mp hrewrite
  obtain ⟨before, between, hbefore, hbetween, rfl⟩ :=
    expandOrder_windowedText hc hne hmacros hexpand
  exact ⟨views, joins, _, before, between, hviews, hjoins, htext, rfl, hbefore, hbetween, hexpand,
    bindsOrderings_of_bindPlaceholders hc hbind⟩

/-- A macro in a field, and a placeholder in a term. -/
def ranked : Query := ⟨some "t", none, "t", [("n", "f($order_by)")], none, []⟩

def rankedOptions : Options :=
  { params := some [("b", .int 1)], page := some 2, pageSize := some 5,
    orderBy := some ["a", "?b"] }

theorem compose_windowed_of_ranked :
    ∃ st, (Composer.compose ⟨.postgres, {}, standardValidator⟩ ranked rankedOptions).result =
        .ok st ∧
      ∃ before between, BindsOrderings ⟨.postgres, {}, standardValidator⟩ ranked rankedOptions 2 5
        before "a, ?b" between st := by
  have hmacros : ∀ term ∈ rankedOptions.orderTerms, ¬ ∃ m, OrderMacro.OccursIn m term.toList := by
    refine List.forall_mem_cons.mpr ⟨?_, List.forall_mem_singleton.mpr ?_⟩
    · exact all_isNone_pieces_iff.mp (by decide +kernel)
    · exact all_isNone_pieces_iff.mp (by decide +kernel)
  have hok : (Composer.compose ⟨.postgres, {}, standardValidator⟩ ranked
      rankedOptions).result.isOk := by decide +kernel
  obtain ⟨st, hst⟩ := exists_eq_ok_of_isOk hok
  obtain ⟨views, joins, text, before, between, -, -, -, -, -, -, -, hbinds⟩ :=
    compose_windowed (by decide +kernel) ⟨.obj [], rfl⟩ rfl rfl rfl (by decide) hmacros hst
  exact ⟨st, hst, before, between, hbinds⟩

end SqlCompose
