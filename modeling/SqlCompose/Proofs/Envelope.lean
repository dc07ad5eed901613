import Mathlib.Data.List.Forall2
import SqlCompose.Page
import SqlCompose.Proofs.FirstFault
import SqlCompose.Proofs.Placeholder.Binding

/-!
# What a page shows of its rows

Before anything else each row is looked at for its window columns, and the first that lacks one is
told of (`mapM_windowOf_eq_error_iff`). What a page tells of the whole result is read off its first
and its last row (`totals_congr`), and the rows that it shows are those that it is made of without
their window columns (`drops_withoutWindow`). So the window columns of the other rows may hold
anything.
-/

namespace SqlCompose

/-! ### Rows with window columns -/

/-- A row that has both window columns. -/
structure Windowed (c : Config) (row : Row) : Prop where
  remaining : c.remainingColumn ∈ row.map Prod.fst
  num : c.numColumn ∈ row.map Prod.fst

/-- The window column that a row is said to lack. That of the remaining rows is missed first. -/
inductive Lacks (c : Config) (row : Row) : String → Prop
  | remaining : c.remainingColumn ∉ row.map Prod.fst → Lacks c row c.remainingColumn
  | num : c.remainingColumn ∈ row.map Prod.fst → c.numColumn ∉ row.map Prod.fst →
    Lacks c row c.numColumn

/-- A row and what is left of it without the members of some names. -/
inductive Drops (names : List String) : Row → Row → Prop
  | nil : Drops names [] []
  | drop {e : String × Value} {row shown : Row} : e.1 ∈ names → Drops names row shown →
    Drops names (e :: row) shown
  | keep {e : String × Value} {row shown : Row} : e.1 ∉ names → Drops names row shown →
    Drops names (e :: row) (e :: shown)

/-- Rows with the same members, but perhaps with other values in the window columns. -/
def AlikeBesideWindow (c : Config) : Row → Row → Prop :=
  List.Forall₂ fun e e' => e'.1 = e.1 ∧ (e.1 ∉ [c.numColumn, c.remainingColumn] → e' = e)

/-- Pages with the same values in the window columns of the first row, and the same number of rows
after the last. -/
structure SameEdges (c : Config) (rows rows' : List Row) : Prop where
  firstRemaining : rows'.head?.bind (·.lookup c.remainingColumn) =
    rows.head?.bind (·.lookup c.remainingColumn)
  firstNum : rows'.head?.bind (·.lookup c.numColumn) = rows.head?.bind (·.lookup c.numColumn)
  lastRemaining : rows'.getLast?.bind (·.lookup c.remainingColumn) =
    rows.getLast?.bind (·.lookup c.remainingColumn)

section

variable {c : Config} {row row' shown : Row} {rows rows' : List Row} {page limit : Value}
  {name : String} {e : BuildError} {w : Page.Window} {windows windows' : List Page.Window}

theorem mapM_cons_eq_error_iff {ε α β : Type} {f : α → Except ε β} {x : α} {xs : List α} {e : ε} :
    (x :: xs).mapM f = .error e ↔
      f x = .error e ∨ (∃ b, f x = .ok b) ∧ xs.mapM f = .error e := by
  rw [List.mapM_cons]
  cases f x with
  | error e' => simp [bind, Except.bind]
  | ok b => cases xs.mapM f <;> simp [bind, Except.bind, pure, Except.pure]

theorem head?_bind_of_map_eq {α β γ : Type} {f : α → Option γ} {g : β → γ} {xs : List α}
    {ys : List β} (h : xs.map f = ys.map (some <| g ·)) : xs.head?.bind f = ys.head?.map g := by
  cases xs <;> cases ys <;> simp_all

theorem getLast?_bind_of_map_eq {α β γ : Type} {f : α → Option γ} {g : β → γ} {xs : List α}
    {ys : List β} (h : xs.map f = ys.map (some <| g ·)) :
    xs.getLast?.bind f = ys.getLast?.map g := by
  rw [List.getLast?_eq_head?_reverse, List.getLast?_eq_head?_reverse]
  exact head?_bind_of_map_eq (by rw [List.map_reverse, List.map_reverse, h])

namespace Page

theorem windowOf_eq_ok_iff :
    windowOf c row = .ok w ↔
      row.lookup c.remainingColumn = some w.remaining ∧ row.lookup c.numColumn = some w.num := by
  obtain ⟨remaining, num⟩ := w
  unfold windowOf
  cases row.lookup c.remainingColumn with
  | none => simp
  | some r => cases row.lookup c.numColumn <;> simp

theorem exists_windowOf_iff : (∃ w, windowOf c row = .ok w) ↔ Windowed c row := by
  constructor
  · rintro ⟨w, hw⟩
    obtain ⟨hremaining, hnum⟩ := windowOf_eq_ok_iff.mp hw
    exact ⟨exists_lookup_iff_mem.mp ⟨_, hremaining⟩, exists_lookup_iff_mem.mp ⟨_, hnum⟩⟩
  · intro h
    obtain ⟨remaining, hremaining⟩ := exists_lookup_iff_mem.mpr h.remaining
    obtain ⟨num, hnum⟩ := exists_lookup_iff_mem.mpr h.num
    exact ⟨⟨remaining, num⟩, windowOf_eq_ok_iff.mpr ⟨hremaining, hnum⟩⟩

theorem windowOf_eq_error_iff :
    windowOf c row = .error e ↔ ∃ name, Lacks c row name ∧ e = .missingColumn name := by
  unfold windowOf
  constructor
  · intro h
    split at h
    · next hremaining =>
      obtain rfl := Except.error.inj h
      exact ⟨_, .remaining (lookup_eq_none_iff_not_mem.mp hremaining), rfl⟩
    · next remaining hremaining =>
      split at h
      · next hnum =>
        obtain rfl := Except.error.inj h
        exact ⟨_, .num (exists_lookup_iff_mem.mp ⟨_, hremaining⟩)
          (lookup_eq_none_iff_not_mem.mp hnum), rfl⟩
      · contradiction
  · rintro ⟨name, hlacks, rfl⟩
    cases hlacks with
    | remaining hremaining => rw [lookup_eq_none_iff_not_mem.mpr hremaining]
    | num hremaining hnum =>
      obtain ⟨remaining, hremaining⟩ := exists_lookup_iff_mem.mpr hremaining
      rw [hremaining, lookup_eq_none_iff_not_mem.mpr hnum]

/-- The first row that lacks a window column is told of. -/
theorem mapM_windowOf_eq_error_iff :
    rows.mapM (windowOf c) = .error e ↔
      ∃ name, FirstTold rows (Windowed c) (Lacks c) name ∧ e = .missingColumn name := by
  induction rows with
  | nil => simp [firstTold_nil, pure, Except.pure]
  | cons row rows ih =>
    simp only [mapM_cons_eq_error_iff, windowOf_eq_error_iff, exists_windowOf_iff, ih,
      firstTold_cons_iff, or_and_right, exists_or, and_assoc, exists_and_left]

/-! ### What a page tells of the result -/

theorem lookups_of_mapM_windowOf (h : rows.mapM (windowOf c) = .ok windows) :
    rows.map (·.lookup c.remainingColumn) = windows.map (some ·.remaining) ∧
      rows.map (·.lookup c.numColumn) = windows.map (some ·.num) := by
  induction rows generalizing windows with
  | nil =>
    obtain rfl := Except.ok.inj h
    exact ⟨rfl, rfl⟩
  | cons row rows ih =>
    rw [List.mapM_cons] at h
    cases hw : windowOf c row with
    | error e =>
      rw [hw] at h
      contradiction
    | ok w =>
      cases hws : rows.mapM (windowOf c) with
      | error e =>
        rw [hw, hws] at h
        contradiction
      | ok ws =>
        rw [hw, hws] at h
        obtain rfl := Except.ok.inj h
        obtain ⟨hremaining, hnum⟩ := windowOf_eq_ok_iff.mp hw
        obtain ⟨hremainings, hnums⟩ := ih hws
        exact ⟨congrArg₂ List.cons hremaining hremainings, congrArg₂ List.cons hnum hnums⟩

theorem totals_congr
    (hremaining : windows'.head?.map Window.remaining = windows.head?.map Window.remaining)
    (hnum : windows'.head?.map Window.num = windows.head?.map Window.num)
    (hlast : windows'.getLast?.map Window.remaining = windows.getLast?.map Window.remaining) :
    totals windows' = totals windows := by
  cases windows' with
  | nil =>
    cases windows with
    | nil => rfl
    | cons w ws => contradiction
  | cons w' ws' =>
    cases windows with
    | nil => contradiction
    | cons w ws =>
      rw [List.getLast?_cons, List.getLast?_cons, ← List.getLastD_eq_getLast?,
        ← List.getLastD_eq_getLast?] at hlast
      simp only [List.head?_cons, Option.map_some, Option.some.injEq] at hremaining hnum hlast
      simp only [totals, hremaining, hnum, hlast]

/-- What a page of some windows tells of the result. -/
def infoOf (windows : List Window) (page limit : Value) : Except PageError PageInfo :=
  match totals windows with
  | .error f => .error (.number f)
  | .ok (total, hasMore) =>
    match decodeRequested page limit with
    | .error faults => .error (.malformed ⟨.pageInfo, faults⟩)
    | .ok (page, limit) => .ok ⟨page, limit, total, hasMore⟩

theorem paginate_eq (c : Config) (rows : List Row) (page limit : Value) :
    paginate c rows page limit =
      match rows.mapM (windowOf c) with
      | .error e => .error (.build e)
      | .ok windows =>
        (infoOf windows page limit).map fun info => ⟨rows.map (withoutWindow c), info⟩ := by
  unfold paginate infoOf
  cases rows.mapM (windowOf c) with
  | error e => rfl
  | ok windows =>
    simp only [bind, Except.bind, Except.mapError]
    cases totals windows with
    | error f => rfl
    | ok t => cases decodeRequested page limit <;> rfl

/-- An error of composition is only raised for rows that lack a window column. -/
theorem paginate_eq_build_iff :
    paginate c rows page limit = .error (.build e) ↔ rows.mapM (windowOf c) = .error e := by
  rw [paginate_eq]
  cases rows.mapM (windowOf c) with
  | error e' => simp
  | ok windows =>
    have hinfo : infoOf windows page limit ≠ .error (.build e) := by
      unfold infoOf
      split
      · simp
      · split <;> simp
    simpa [map_eq_error_iff] using hinfo

theorem info_paginate (h : rows.mapM (windowOf c) = .ok windows) :
    (paginate c rows page limit).map Page.info = infoOf windows page limit := by
  rw [paginate_eq, h]
  dsimp only
  cases infoOf windows page limit <;> rfl

theorem rows_of_paginate {p : Page} (h : paginate c rows page limit = .ok p) :
    p.rows = rows.map (withoutWindow c) := by
  rw [paginate_eq] at h
  cases hwindows : rows.mapM (windowOf c) with
  | error e =>
    rw [hwindows] at h
    contradiction
  | ok windows =>
    rw [hwindows] at h
    obtain ⟨info, -, rfl⟩ := map_eq_ok_iff.mp h
    rfl

end Page

theorem exists_lacks_iff (row : Row) : (∃ name, Lacks c row name) ↔ ¬ Windowed c row := by
  constructor
  · rintro ⟨name, hlacks⟩ h
    cases hlacks with
    | remaining hremaining => exact hremaining h.remaining
    | num _ hnum => exact hnum h.num
  · intro h
    by_cases hremaining : c.remainingColumn ∈ row.map Prod.fst
    · exact ⟨_, .num hremaining fun hnum => h ⟨hremaining, hnum⟩⟩
    · exact ⟨_, .remaining hremaining⟩

theorem exists_firstLacks_iff :
    (∃ name, FirstTold rows (Windowed c) (Lacks c) name) ↔ ∃ row ∈ rows, ¬ Windowed c row :=
  exists_firstTold_iff exists_lacks_iff

theorem exists_windows (h : ∀ row ∈ rows, Windowed c row) :
    ∃ windows, rows.mapM (Page.windowOf c) = .ok windows := by
  cases hwindows : rows.mapM (Page.windowOf c) with
  | ok windows => exact ⟨windows, rfl⟩
  | error e =>
    obtain ⟨name, hfirst, -⟩ := Page.mapM_windowOf_eq_error_iff.mp hwindows
    obtain ⟨row, hrow, hlacks⟩ := exists_firstLacks_iff.mp ⟨name, hfirst⟩
    exact absurd (h row hrow) hlacks

/-! ### Rows with other values -/

theorem drops_withoutWindow (c : Config) (row : Row) :
    Drops [c.numColumn, c.remainingColumn] row (Page.withoutWindow c row) := by
  induction row with
  | nil => exact .nil
  | cons e row ih =>
    rw [Page.withoutWindow, List.filter_cons]
    split
    · next h => exact .keep (by simpa using h) ih
    · next h => exact .drop (by simpa [Classical.or_iff_not_imp_left] using h) ih

namespace AlikeBesideWindow

variable (h : AlikeBesideWindow c row row')
include h

theorem names_eq : row'.map Prod.fst = row.map Prod.fst := by
  induction h with
  | nil => rfl
  | cons he _ ih => rw [List.map_cons, List.map_cons, he.1, ih]

theorem withoutWindow_eq : Page.withoutWindow c row' = Page.withoutWindow c row := by
  induction h with
  | nil => rfl
  | @cons e e' row row' he _ ih =>
    simp only [Page.withoutWindow, List.filter_cons, he.1] at ih ⊢
    split
    · next hkeep => rw [he.2 (by simpa using hkeep), ih]
    · exact ih

theorem windowed_iff : Windowed c row' ↔ Windowed c row := by
  have hnames := h.names_eq
  constructor
  · rintro ⟨hremaining, hnum⟩
    exact ⟨hnames ▸ hremaining, hnames ▸ hnum⟩
  · rintro ⟨hremaining, hnum⟩
    exact ⟨hnames ▸ hremaining, hnames ▸ hnum⟩

theorem lacks_iff : Lacks c row' name ↔ Lacks c row name := by
  have hnames := h.names_eq
  constructor
  · intro hlacks
    cases hlacks with
    | remaining hremaining => exact .remaining (hnames ▸ hremaining)
    | num hremaining hnum => exact .num (hnames ▸ hremaining) (hnames ▸ hnum)
  · intro hlacks
    cases hlacks with
    | remaining hremaining => exact .remaining (hnames ▸ hremaining)
    | num hremaining hnum => exact .num (hnames ▸ hremaining) (hnames ▸ hnum)

end AlikeBesideWindow

theorem firstLacks_iff_of_alike (h : List.Forall₂ (AlikeBesideWindow c) rows rows') :
    FirstTold rows' (Windowed c) (Lacks c) name ↔ FirstTold rows (Windowed c) (Lacks c) name := by
  induction h with
  | nil => rfl
  | cons hrow _ ih =>
    rw [firstTold_cons_iff, firstTold_cons_iff, hrow.windowed_iff, hrow.lacks_iff, ih]

theorem map_withoutWindow_of_alike (h : List.Forall₂ (AlikeBesideWindow c) rows rows') :
    rows'.map (Page.withoutWindow c) = rows.map (Page.withoutWindow c) := by
  induction h with
  | nil => rfl
  | cons hrow _ ih => rw [List.map_cons, List.map_cons, hrow.withoutWindow_eq, ih]

theorem SameEdges.infoOf_eq (H : SameEdges c rows rows')
    (h : rows.mapM (Page.windowOf c) = .ok windows)
    (h' : rows'.mapM (Page.windowOf c) = .ok windows') :
    Page.infoOf windows' page limit = Page.infoOf windows page limit := by
  obtain ⟨hremaining, hnum⟩ := Page.lookups_of_mapM_windowOf h
  obtain ⟨hremaining', hnum'⟩ := Page.lookups_of_mapM_windowOf h'
  have htotals : Page.totals windows' = Page.totals windows := by
    refine Page.totals_congr ?_ ?_ ?_
    · rw [← head?_bind_of_map_eq hremaining, ← head?_bind_of_map_eq hremaining', H.firstRemaining]
    · rw [← head?_bind_of_map_eq hnum, ← head?_bind_of_map_eq hnum', H.firstNum]
    · rw [← getLast?_bind_of_map_eq hremaining, ← getLast?_bind_of_map_eq hremaining',
        H.lastRemaining]
  rw [Page.infoOf, Page.infoOf, htotals]

/-- Values in the window columns of rows between the edges are not looked at. -/
theorem paginate_eq_of_alike (halike : List.Forall₂ (AlikeBesideWindow c) rows rows')
    (H : SameEdges c rows rows') : paginate c rows' page limit = paginate c rows page limit := by
  rw [Page.paginate_eq, Page.paginate_eq, map_withoutWindow_of_alike halike]
  cases hwindows : rows.mapM (Page.windowOf c) with
  | error e =>
    obtain ⟨name, hfirst, rfl⟩ := Page.mapM_windowOf_eq_error_iff.mp hwindows
    have hfirst' := (firstLacks_iff_of_alike halike).mpr hfirst
    rw [Page.mapM_windowOf_eq_error_iff.mpr ⟨name, hfirst', rfl⟩]
  | ok windows =>
    cases hwindows' : rows'.mapM (Page.windowOf c) with
    | error e =>
      obtain ⟨name, hfirst', rfl⟩ := Page.mapM_windowOf_eq_error_iff.mp hwindows'
      have hfirst := (firstLacks_iff_of_alike halike).mp hfirst'
      rw [Page.mapM_windowOf_eq_error_iff.mpr ⟨name, hfirst, rfl⟩] at hwindows
      contradiction
    | ok windows' =>
      dsimp only
      rw [H.infoOf_eq hwindows hwindows']

end

/-- The first row that lacks a window column is told of, whatever else is wrong. If there is none,
the rows are shown without their window columns, of which only those at the edges are read. -/
theorem paginate_envelope (c : Config) (rows : List Row) (page limit : Value) :
    ((∃ row ∈ rows, ¬ Windowed c row) →
      ∃ name e, FirstTold rows (Windowed c) (Lacks c) name ∧
        paginate c rows page limit = .error (.build e) ∧
        (∀ wording, e.message wording = "Row is missing pagination field: " ++ name) ∧
        e.stage? = some .paginate) ∧
    ((∀ row ∈ rows, Windowed c row) → ∀ e, paginate c rows page limit ≠ .error (.build e)) ∧
    (∀ p, paginate c rows page limit = .ok p →
      List.Forall₂ (Drops [c.numColumn, c.remainingColumn]) rows p.rows) ∧
    ((∀ row ∈ rows, Windowed c row) → ∀ rows', (∀ row ∈ rows', Windowed c row) →
      SameEdges c rows rows' →
      (paginate c rows' page limit).map Page.info = (paginate c rows page limit).map Page.info) ∧
    ∀ rows', List.Forall₂ (AlikeBesideWindow c) rows rows' → SameEdges c rows rows' →
      paginate c rows' page limit = paginate c rows page limit := by
  refine ⟨fun h => ?_, fun h e he => ?_, fun p hp => ?_, fun h rows' h' H => ?_,
    fun rows' halike H => ?_⟩
  · obtain ⟨name, hfirst⟩ := exists_firstLacks_iff.mpr h
    refine ⟨name, .missingColumn name, hfirst, Page.paginate_eq_build_iff.mpr ?_, fun _ => rfl, rfl⟩
    exact Page.mapM_windowOf_eq_error_iff.mpr ⟨name, hfirst, rfl⟩
  · obtain ⟨windows, hwindows⟩ := exists_windows h
    rw [Page.paginate_eq_build_iff, hwindows] at he
    contradiction
  · rw [Page.rows_of_paginate hp, List.forall₂_map_right_iff, List.forall₂_same]
    exact fun row _ => drops_withoutWindow c row
  · obtain ⟨windows, hwindows⟩ := exists_windows h
    obtain ⟨windows', hwindows'⟩ := exists_windows h'
    rw [Page.info_paginate hwindows, Page.info_paginate hwindows', H.infoOf_eq hwindows hwindows']
  · exact paginate_eq_of_alike halike H

/-- Three rows of which those inside hold no numbers in their window columns. -/
def heldRows (inside : Value) : List Row :=
  [[("_num", .str "3"), ("id", .int 1), ("_remaining", .int 2)],
    [("id", .int 2), ("_remaining", inside), ("_num", .null)],
    [("_remaining", .int 0), ("_num", inside), ("id", .int 3)]]

theorem paginate_envelope_of_heldRows :
    (∀ row ∈ heldRows (.str "x"), Windowed {} row) ∧
    SameEdges {} (heldRows (.str "x")) (heldRows (.arr [])) ∧
    List.Forall₂ (AlikeBesideWindow {}) (heldRows (.str "x")) (heldRows (.arr [])) ∧
    paginate {} (heldRows (.str "x")) (.int 1) (.int 3) =
      .ok ⟨[[("id", .int 1)], [("id", .int 2)], [("id", .int 3)]], ⟨1, 3, 5, false⟩⟩ ∧
    paginate {} (heldRows (.arr [])) (.int 1) (.int 3) =
      paginate {} (heldRows (.str "x")) (.int 1) (.int 3) ∧
    ∃ name e, FirstTold ([("_num", .null), ("_remaining", .null)] :: [("_remaining", .null)] ::
        heldRows (.str "x")) (Windowed {}) (Lacks {}) name ∧
      paginate {} ([("_num", .null), ("_remaining", .null)] :: [("_remaining", .null)] ::
        heldRows (.str "x")) (.str "one") .null = .error (.build e) ∧
      ∀ wording, e.message wording = "Row is missing pagination field: " ++ name := by
  have hwindowed : ∀ row ∈ heldRows (.str "x"), Windowed {} row := by
    simp only [heldRows, List.forall_mem_cons]
    exact ⟨⟨by decide, by decide⟩, ⟨by decide, by decide⟩, ⟨by decide, by decide⟩, by simp⟩
  have hedges : SameEdges {} (heldRows (.str "x")) (heldRows (.arr [])) := ⟨rfl, rfl, rfl⟩
  have halike : List.Forall₂ (AlikeBesideWindow {}) (heldRows (.str "x")) (heldRows (.arr [])) := by
    simp [heldRows, AlikeBesideWindow]
  obtain ⟨-, -, -, -, hsame⟩ := paginate_envelope {} (heldRows (.str "x")) (.int 1) (.int 3)
  obtain ⟨hlacks, -⟩ := paginate_envelope {}
    ([("_num", .null), ("_remaining", .null)] :: [("_remaining", .null)] :: heldRows (.str "x"))
    (.str "one") .null
  obtain ⟨name, e, hfirst, he, hmessage, -⟩ := hlacks ⟨[("_remaining", .null)], by simp, fun h => by
    simpa using h.num⟩
  exact ⟨hwindowed, hedges, halike, rfl, hsame _ halike hedges, name, e, hfirst, he, hmessage⟩

end SqlCompose
