import SqlCompose.Page
import SqlCompose.Proofs.Composer.Paged

/-!
# Reading a result page by page

A database is known here by the rows that it gives for statements. Of a statement with window
columns it reads the two numbers at the end, and gives the rows that they leave, each with its place
in the whole result (`Serves`). A page made of such rows shows its part of the result
(`paginate_of_serves`). Reading on while rows follow comes to an end (`exists_reads`), and what has
been read by then is all that was left (`Reads.flatMap_rows`).
-/

namespace SqlCompose

/-- A row without window columns. -/
def Bare (c : Config) (row : Row) : Prop :=
  ∀ e ∈ row, e.1 ≠ c.numColumn ∧ e.1 ≠ c.remainingColumn

/-- A row of a result of `count` rows, with its position and the number of rows after it. -/
def numberRow (c : Config) (count : Nat) (x : Row × Nat) : Row :=
  x.1 ++ [(c.numColumn, .int (x.2 + 1)), (c.remainingColumn, .int (count - (x.2 + 1)))]

def numbered (c : Config) (result : List Row) : List Row :=
  result.zipIdx.map (numberRow c result.length)

/-- The database gives, for the statements of a request with window columns, the numbered rows of a
result that the limit and the offset at the end of the statement leave. -/
def Serves (run : Statement → List Row) (x : Composer) (q : Query) (o : Options)
    (result : List Row) : Prop :=
  ∀ (page size : Nat) (st : Statement), (x.compose q (o.atPage page size)).result = .ok st →
    Clause.hasWindow x.config (o.atPage page size) →
    ∀ (front : String) (limit offset : Nat),
      st.text = front ++ (" LIMIT " ++ toString limit ++ " OFFSET " ++ toString offset) →
      run st = ((numbered x.config result).drop offset).take limit

/-- The part of a result that one page shows. -/
def pageAt (result : List Row) (size page : Nat) : Page where
  rows := (result.drop (page * size)).take size
  info :=
    { page := page
      limit := size
      total := if page * size < result.length then result.length else 0
      hasMore := (page + 1) * size < result.length }

variable {c : Config} {row : Row} {rows result : List Row} {count k p s : Nat}

/-! ### Numbered rows -/

/-- What the window columns of a numbered row hold. -/
def windowAt (count : Nat) (x : Row × Nat) : Page.Window :=
  ⟨.int (count - (x.2 + 1)), .int (x.2 + 1)⟩

theorem windowOf_numberRow (hcols : c.numColumn ≠ c.remainingColumn) (hrow : Bare c row) :
    Page.windowOf c (numberRow c count (row, k)) = .ok (windowAt count (row, k)) := by
  have hnum : row.lookup c.numColumn = none := by
    rw [List.lookup_eq_none_iff]
    exact fun e he => by simpa using (hrow e he).1.symm
  have hremaining : row.lookup c.remainingColumn = none := by
    rw [List.lookup_eq_none_iff]
    exact fun e he => by simpa using (hrow e he).2.symm
  have hne : (c.remainingColumn == c.numColumn) = false := by simpa using hcols.symm
  simp [Page.windowOf, numberRow, windowAt, List.lookup_append, hnum, hremaining,
    List.lookup_cons, hne]

theorem withoutWindow_numberRow (hrow : Bare c row) :
    Page.withoutWindow c (numberRow c count (row, k)) = row := by
  have hkeep : row.filter (fun e => e.1 ≠ c.numColumn && e.1 ≠ c.remainingColumn) = row :=
    List.filter_eq_self.mpr fun e he => by simpa using hrow e he
  rw [Page.withoutWindow, numberRow, List.filter_append, hkeep]
  simp

theorem mapM_windowOf (hcols : c.numColumn ≠ c.remainingColumn) (hrows : ∀ row ∈ rows, Bare c row) :
    ((rows.zipIdx k).map (numberRow c count)).mapM (Page.windowOf c) =
      .ok ((rows.zipIdx k).map (windowAt count)) := by
  induction rows generalizing k with
  | nil => rfl
  | cons row rows ih =>
    rw [List.forall_mem_cons] at hrows
    rw [List.zipIdx_cons, List.map_cons, List.mapM_cons, windowOf_numberRow hcols hrows.1,
      ih hrows.2]
    rfl

theorem map_withoutWindow (hrows : ∀ row ∈ rows, Bare c row) :
    ((rows.zipIdx k).map (numberRow c count)).map (Page.withoutWindow c) = rows := by
  induction rows generalizing k with
  | nil => rfl
  | cons row rows ih =>
    rw [List.forall_mem_cons] at hrows
    rw [List.zipIdx_cons, List.map_cons, List.map_cons, withoutWindow_numberRow hrows.1,
      ih hrows.2]

theorem getLastD_windowAt :
    ((rows.zipIdx (k + 1)).map (windowAt count)).getLastD (windowAt count (row, k)) =
      windowAt count (rows.getLastD row, k + rows.length) := by
  induction rows generalizing row k with
  | nil => rfl
  | cons next rows ih =>
    rw [List.zipIdx_cons, List.map_cons, List.getLastD_cons, List.getLastD_cons, ih,
      List.length_cons, Nat.add_right_comm, Nat.add_assoc]

/-- Each row tells the size of the result; the last one of a page tells whether more follow. -/
theorem totals_windowAt :
    Page.totals ((rows.zipIdx k).map (windowAt count)) =
      .ok (if rows = [] then 0 else count, rows ≠ [] ∧ k + rows.length < count) := by
  cases rows with
  | nil => rfl
  | cons row rows =>
    rw [List.zipIdx_cons, List.map_cons, Page.totals, getLastD_windowAt]
    have htotal : (count : Int) - (k + 1) + (k + 1) = count := by omega
    have hmore : 0 < (count : Int) - ((k + rows.length : Nat) + 1) ↔
        k + (row :: rows).length < count := by
      rw [List.length_cons]
      omega
    simp only [windowAt, Value.toInt, bind, Except.bind, pure, Except.pure, htotal, hmore]
    simp

/-! ### One page -/

theorem paginate_numbered (hcols : c.numColumn ≠ c.remainingColumn)
    (hrows : ∀ row ∈ rows, Bare c row) :
    paginate c ((rows.zipIdx k).map (numberRow c count)) (.int p) (.int s) =
      .ok ⟨rows, p, s, if rows = [] then 0 else count, rows ≠ [] ∧ k + rows.length < count⟩ := by
  rw [paginate, mapM_windowOf hcols hrows, map_withoutWindow hrows]
  change ((Page.totals _).mapError PageError.number).bind _ = _
  rw [totals_windowAt]
  rfl

theorem window_numbered (offset limit : Nat) :
    ((numbered c result).drop offset).take limit =
      (((result.drop offset).take limit).zipIdx offset).map (numberRow c result.length) := by
  have hzip : (result.zipIdx.drop offset).take limit =
      ((result.drop offset).take limit).zipIdx offset := by
    refine List.ext_getElem? fun i => ?_
    simp only [List.getElem?_take, List.getElem?_drop, List.getElem?_zipIdx, Nat.zero_add]
    split <;> rfl
  rw [numbered, ← List.map_drop, ← List.map_take, hzip]

/-- A page shows its part of the result, and tells the size of the whole and whether rows follow. -/
theorem paginate_window (hcols : c.numColumn ≠ c.remainingColumn)
    (hresult : ∀ row ∈ result, Bare c row) (hs : 1 ≤ s) :
    paginate c (((numbered c result).drop (p * s)).take s) (.int p) (.int s) =
      .ok (pageAt result s p) := by
  have hrows : ∀ row ∈ (result.drop (p * s)).take s, Bare c row := fun row hrow =>
    hresult row (List.mem_of_mem_drop (List.mem_of_mem_take hrow))
  have hempty : (result.drop (p * s)).take s = [] ↔ ¬ p * s < result.length := by
    rw [List.take_eq_nil_iff, List.drop_eq_nil_iff]
    omega
  have hmore : ((result.drop (p * s)).take s ≠ [] ∧
      p * s + ((result.drop (p * s)).take s).length < result.length) ↔
        (p + 1) * s < result.length := by
    rw [ne_eq, hempty, List.length_take, List.length_drop, Nat.succ_mul]
    omega
  rw [window_numbered, paginate_numbered hcols hrows, pageAt]
  simp only [hempty, hmore, ite_not]

variable {run : Statement → List Row} {x : Composer} {q : Query} {o : Options} {st : Statement}

section

variable (hcols : x.config.numColumn ≠ x.config.remainingColumn) (hwindow : x.config.windowColumns)
  (hterms : 2 ≤ o.orderTerms.length) (hresult : ∀ row ∈ result, Bare x.config row)
  (hrun : Serves run x q o result) (hs : 1 ≤ s)
include hcols hwindow hterms hresult hrun hs

theorem paginate_of_serves (h : (x.compose q (o.atPage p s)).result = .ok st) :
    paginate x.config (run st) (.int p) (.int s) = .ok (pageAt result s p) := by
  obtain ⟨front, htext⟩ := Composer.exists_front_of_compose_atPage h
  rw [hrun p s st h (Clause.hasWindow_of_paged hwindow rfl rfl hterms) front s (p * s) htext]
  exact paginate_window hcols hresult hs

end

/-! ### Page after page -/

/-- Why a page is not shown: its statement is not composed, or its rows make up no page. -/
inductive FetchError where
  | compose (a : Abort)
  | paginate (e : PageError)

/-- Composes the statement for a page, runs it and makes a page of its rows. -/
def fetchPage (run : Statement → List Row) (x : Composer) (q : Query) (o : Options)
    (size page : Nat) : Except FetchError Page :=
  match (x.compose q (o.atPage page size)).result with
  | .error a => .error (.compose a)
  | .ok st => (paginate x.config (run st) (.int page) (.int size)).mapError .paginate

/-- Reading from one page on until no rows follow. -/
inductive Reads {ε : Type} (fetch : Nat → Except ε Page) : Nat → List Page → Prop
  | last {p : Nat} {page : Page} : fetch p = .ok page → page.info.hasMore = false →
      Reads fetch p [page]
  | next {p : Nat} {page : Page} {pages : List Page} : fetch p = .ok page →
      page.info.hasMore = true → Reads fetch (p + 1) pages → Reads fetch p (page :: pages)

section

variable {ε : Type} {fetch : Nat → Except ε Page} {pages : List Page}
  (hfetch : ∀ p, p = 0 ∨ p * s < result.length → fetch p = .ok (pageAt result s p))
include hfetch

theorem exists_reads (hs : 1 ≤ s) (hp : p = 0 ∨ p * s < result.length) :
    ∃ pages, Reads fetch p pages := by
  -- Each page that rows follow leaves fewer of them.
  induction hn : result.length - p * s using Nat.strongRecOn generalizing p with
  | _ n ih =>
    subst hn
    by_cases hmore : (p + 1) * s < result.length
    · have hlt : result.length - (p + 1) * s < result.length - p * s := by
        rw [Nat.succ_mul] at hmore ⊢
        omega
      obtain ⟨pages, hpages⟩ := ih _ hlt (.inr hmore) rfl
      exact ⟨_, .next (hfetch p hp) (decide_eq_true hmore) hpages⟩
    · exact ⟨_, .last (hfetch p hp) (decide_eq_false hmore)⟩

theorem Reads.flatMap_rows (h : Reads fetch p pages) (hp : p = 0 ∨ p * s < result.length) :
    pages.flatMap Page.rows = result.drop (p * s) := by
  induction h with
  | @last p page hpage hmore =>
    obtain rfl := Except.ok.inj ((hfetch p hp).symm.trans hpage)
    have hlast : ¬ (p + 1) * s < result.length := of_decide_eq_false hmore
    have hle : (result.drop (p * s)).length ≤ s := by
      rw [List.length_drop]
      rw [Nat.succ_mul] at hlast
      omega
    simp [pageAt, List.take_of_length_le hle]
  | @next p page pages hpage hmore _ ih =>
    obtain rfl := Except.ok.inj ((hfetch p hp).symm.trans hpage)
    rw [List.flatMap_cons, ih (.inr (of_decide_eq_true hmore)), Nat.succ_mul, ← List.drop_drop]
    exact List.take_append_drop s _

theorem Reads.length_pages (h : Reads fetch p pages) (hp : p = 0 ∨ p * s < result.length) :
    ∃ k, pages.length = k + 1 ∧ result.length ≤ (p + k + 1) * s ∧
      (k = 0 ∨ (p + k) * s < result.length) := by
  induction h with
  | @last p page hpage hmore =>
    obtain rfl := Except.ok.inj ((hfetch p hp).symm.trans hpage)
    exact ⟨0, rfl, Nat.le_of_not_lt (of_decide_eq_false hmore), .inl rfl⟩
  | @next p page pages hpage hmore _ ih =>
    obtain rfl := Except.ok.inj ((hfetch p hp).symm.trans hpage)
    have hmore : (p + 1) * s < result.length := of_decide_eq_true hmore
    obtain ⟨k, hlen, hle, hlt⟩ := ih (.inr hmore)
    have hcomm : p + 1 + k = p + (k + 1) := by omega
    rw [hcomm] at hle hlt
    refine ⟨k + 1, by rw [List.length_cons, hlen], hle, .inr ?_⟩
    rcases hlt with rfl | hlt
    · exact hmore
    · exact hlt

end

theorem eq_max_ceil {n : Nat} (hs : 1 ≤ s) (hle : n ≤ (k + 1) * s) (hlt : k = 0 ∨ k * s < n) :
    k + 1 = max 1 ((n + s - 1) / s) := by
  rcases hlt with rfl | hlt
  · have : (n + s - 1) / s ≤ 1 := by
      rw [← Nat.lt_succ_iff, Nat.div_lt_iff_lt_mul hs]
      omega
    omega
  · have : (n + s - 1) / s = k + 1 := by
      refine Nat.div_eq_of_lt_le ?_ ?_
      · rw [Nat.succ_mul]
        omega
      · rw [Nat.succ_mul]
        omega
    omega

/-- Paging through a result shows each of its rows once. -/
theorem paging_reads_result (hcols : x.config.numColumn ≠ x.config.remainingColumn)
    (hwindow : x.config.windowColumns) (hterms : 2 ≤ o.orderTerms.length)
    (hresult : ∀ row ∈ result, Bare x.config row) (hrun : Serves run x q o result) (hs : 1 ≤ s)
    (hpages : ∀ p : Nat, p = 0 ∨ p * s < result.length →
      ∃ st, (x.compose q (o.atPage p s)).result = .ok st) :
    (∀ (p : Nat) (st : Statement), (x.compose q (o.atPage p s)).result = .ok st →
      Clause.limit (o.atPage p s) = .ok ("LIMIT " ++ toString s) ∧
      Clause.offset (o.atPage p s) = .ok ("OFFSET " ++ toString (p * s)) ∧
      (∃ front, st.text = front ++ (" LIMIT " ++ toString s ++ " OFFSET " ++ toString (p * s))) ∧
      paginate x.config (run st) (.int p) (.int s) = .ok (pageAt result s p)) ∧
    (∃ pages, Reads (fetchPage run x q o s) 0 pages) ∧
    ∀ pages, Reads (fetchPage run x q o s) 0 pages →
      pages.length = max 1 ((result.length + s - 1) / s) ∧ pages.flatMap Page.rows = result := by
  have hpaginate {p : Nat} {st : Statement} (h : (x.compose q (o.atPage p s)).result = .ok st) :=
    paginate_of_serves hcols hwindow hterms hresult hrun hs h
  have hfetch : ∀ p, p = 0 ∨ p * s < result.length →
      fetchPage run x q o s p = .ok (pageAt result s p) := by
    intro p hp
    obtain ⟨st, hst⟩ := hpages p hp
    rw [fetchPage, hst]
    dsimp only
    rw [hpaginate hst]
    rfl
  refine ⟨fun p st hst => ?_, exists_reads hfetch hs (.inl rfl), fun pages hreads => ⟨?_, ?_⟩⟩
  · obtain ⟨hlimit, hoffset⟩ := Composer.clauses_of_compose_atPage hst
    exact ⟨hlimit, hoffset, Composer.exists_front_of_compose_atPage hst, hpaginate hst⟩
  · obtain ⟨k, hlen, hle, hlt⟩ := hreads.length_pages hfetch (.inl rfl)
    rw [Nat.zero_add] at hle hlt
    rw [hlen]
    exact eq_max_ceil hs hle hlt
  · rw [hreads.flatMap_rows hfetch (.inl rfl), Nat.zero_mul, List.drop_zero]

/-! ### A database that holds one result -/

/-- The number that a text ends with, and what stands before it. -/
def lastNumber (s : List Char) : Nat × List Char :=
  let front := trimRight Char.isDigit s
  (Nat.ofDigitChars 10 (s.drop front.length) 0, front)

/-- Reads limit and offset off the end of a statement with window columns. -/
def serve (c : Config) (result : List Row) (st : Statement) : List Row :=
  let (offset, front) := lastNumber st.text.toList
  let (limit, _) := lastNumber (front.take (front.length - " OFFSET ".length))
  ((numbered c result).drop offset).take limit

theorem trimRight_append {f : Char → Bool} {t w : List Char} (hw : ∀ a ∈ w, f a)
    (ht : ∀ a ∈ t.getLast?, f a = false) : trimRight f (t ++ w) = t := by
  have hhead : t.reverse.dropWhile f = t.reverse := by
    rw [← List.head?_reverse] at ht
    cases h : t.reverse with
    | nil => rfl
    | cons a l => rw [List.dropWhile_cons_of_neg (by simp [ht a (by rw [h]; rfl)])]
  rw [trimRight, List.reverse_append, List.dropWhile_append_of_pos (by simpa using hw), hhead,
    List.reverse_reverse]

theorem lastNumber_append (n : Nat) {t : List Char} (ht : ∀ a ∈ t.getLast?, a.isDigit = false) :
    lastNumber (t ++ (toString n).toList) = (n, t) := by
  have hdigits : (toString n).toList = Nat.toDigits 10 n := Nat.toList_repr
  have htrim : trimRight Char.isDigit (t ++ Nat.toDigits 10 n) = t :=
    trimRight_append (fun _ h => Nat.isDigit_of_mem_toDigits (by decide) (by decide) h) ht
  rw [lastNumber, hdigits, htrim]
  simp [Nat.ofDigitChars_ten_toDigits]

theorem serves_serve (x : Composer) (q : Query) (o : Options) (result : List Row) :
    Serves (serve x.config result) x q o result := by
  intro page size st _ _ front limit offset htext
  have hspace (u w : List Char) (hw : w.getLast? = some ' ') :
      ∀ a ∈ (u ++ w).getLast?, a.isDigit = false := by
    rw [List.getLast?_append, hw]
    rintro _ ⟨⟩
    rfl
  have hlimit := lastNumber_append limit (hspace front.toList " LIMIT ".toList rfl)
  have hoffset := lastNumber_append offset (hspace
    (front.toList ++ " LIMIT ".toList ++ (toString limit).toList) " OFFSET ".toList rfl)
  have hlength : " OFFSET ".length = " OFFSET ".toList.length := rfl
  have htoList : st.text.toList = front.toList ++ " LIMIT ".toList ++ (toString limit).toList ++
      " OFFSET ".toList ++ (toString offset).toList := by
    rw [htext]
    simp only [String.toList_append, List.append_assoc]
  simp only [serve, htoList, hoffset, hlength, List.length_append, Nat.add_sub_cancel]
  rw [List.take_left' (by simp only [List.length_append]), hlimit]

def ids : List Row := [[("id", .int 1)], [("id", .int 2)], [("id", .int 3)]]

def idQuery : Query := ⟨some "t", none, "t", [("id", "t.id")], none, []⟩

/-- Two order terms, so that the window columns are selected. -/
def byTwo : Options := { orderBy := some ["a", "b"] }

def sqliteComposer : Composer := { dialect := .sqlite, config := {} }

/-- A last page that is not full. -/
theorem paging_reads_ids :
    sqliteComposer.config.numColumn ≠ sqliteComposer.config.remainingColumn ∧
    sqliteComposer.config.windowColumns ∧ 2 ≤ byTwo.orderTerms.length ∧
    (∀ row ∈ ids, Bare sqliteComposer.config row) ∧
    Serves (serve sqliteComposer.config ids) sqliteComposer idQuery byTwo ids ∧ 1 ≤ 2 ∧
    (∀ p : Nat, p = 0 ∨ p * 2 < ids.length →
      ∃ st, (sqliteComposer.compose idQuery (byTwo.atPage p 2)).result = .ok st) ∧
    ∃ pages, Reads (fetchPage (serve sqliteComposer.config ids) sqliteComposer idQuery byTwo 2) 0
        pages ∧
      pages.length = 2 ∧ pages.flatMap Page.rows = ids := by
  have hcols : sqliteComposer.config.numColumn ≠ sqliteComposer.config.remainingColumn := by decide
  have hids : ∀ row ∈ ids, Bare sqliteComposer.config row := by
    simp [ids, Bare, sqliteComposer]
  have hserves := serves_serve sqliteComposer idQuery byTwo ids
  have hfirst : (sqliteComposer.compose idQuery (byTwo.atPage 0 2)).result.isOk := by
    decide +kernel
  have hpages : ∀ p : Nat, p = 0 ∨ p * 2 < ids.length →
      ∃ st, (sqliteComposer.compose idQuery (byTwo.atPage p 2)).result = .ok st := by
    intro p hp
    obtain ⟨st, hst⟩ := exists_eq_ok_of_isOk hfirst
    have hfit : digitCount (p * 2) ≤ maxDigits := by
      have hlength : ids.length = 3 := rfl
      obtain rfl | rfl : p = 0 ∨ p = 1 := by omega
      · decide
      · decide
    obtain ⟨front, -, hst'⟩ :=
      Composer.compose_atPage hst (standardValidator_atPage idQuery byTwo 0 p 2) hfit
    exact ⟨_, hst'⟩
  obtain ⟨-, ⟨pages, hreads⟩, hall⟩ :=
    paging_reads_result hcols rfl (by decide) hids hserves (by decide : 1 ≤ 2) hpages
  obtain ⟨hlen, hrows⟩ := hall pages hreads
  exact ⟨hcols, rfl, by decide, hids, hserves, by decide, hpages, pages, hreads, hlen, hrows⟩

end SqlCompose
