import SqlCompose.Clause
import SqlCompose.Proofs.View.Position
import SqlCompose.Proofs.View.Walk

/-!
# The order of the views in a `WITH` clause

A walk keeps the views that it has added in order (`InOrder`): a name on the path from a root to the
view that is visited is not added below it (`Walks.mem_names_of_mem_path`), so a view is still new
when its dependencies have been added. Which of several views of one name is added is known for a
view that is the first of its name, like all views above it: the walk cannot have passed its name
before it comes there (`Walks.mem_of_leads`).
-/

namespace SqlCompose

variable {path : List String} {done done' vs views forest : List View} {v w : View}
  {p q : List Nat} {name : String}

/-- Each view comes after all of its direct dependencies, and after no other view of its name. -/
def InOrder (views : List View) : Prop :=
  ∀ before v after, views = before ++ v :: after →
    v.name ∉ before.map View.name ∧ ∀ d ∈ v.dependencies, d.name ∈ before.map View.name

theorem inOrder_nil : InOrder [] := by simp [InOrder]

theorem InOrder.concat (H : InOrder views) (hv : v.name ∉ views.map View.name)
    (hd : ∀ d ∈ v.dependencies, d.name ∈ views.map View.name) : InOrder (views ++ [v]) := by
  intro before w after heq
  rcases List.eq_nil_or_concat after with rfl | ⟨after, u, rfl⟩
  · obtain ⟨rfl, hw⟩ := List.append_inj' heq rfl
    obtain rfl := List.singleton_inj.mp hw
    exact ⟨hv, hd⟩
  · rw [List.concat_eq_append, ← List.cons_append, ← List.append_assoc] at heq
    exact H before w after (List.append_inj' heq rfl).1

theorem InOrder.nodup (H : InOrder views) : (views.map View.name).Nodup := by
  induction views using List.reverseRecOn with
  | nil => simp
  | append_singleton views v ih =>
    have hviews : InOrder views := fun before w after heq =>
      H before w (after ++ [v]) (by simp [heq])
    obtain ⟨hv, -⟩ := H views v [] rfl
    rw [List.map_append, List.nodup_append]
    refine ⟨ih hviews, by simp, ?_⟩
    rintro name hname _ hmem rfl
    simp only [List.map_cons, List.map_nil, List.mem_singleton] at hmem
    exact hv (hmem ▸ hname)

/-! ### What a walk adds -/

theorem Walks.grows (h : Walks path done vs done') : done <+: done' := by
  induction h with
  | nil => exact List.prefix_rfl
  | skip _ _ _ ih => exact ih
  | add _ _ _ _ ihbelow ih => exact ihbelow.trans ((List.prefix_append _ _).trans ih)

theorem Walks.mem_names_of_mem (h : Walks path done vs done') (hname : name ∈ done.map View.name) :
    name ∈ done'.map View.name :=
  (h.grows.map View.name).subset hname

theorem Walks.root_mem_names (h : Walks path done vs done') :
    ∀ v ∈ vs, v.name ∈ done'.map View.name := by
  induction h with
  | nil => simp
  | skip _ hd h ih =>
    rintro w (_ | ⟨_, hw⟩)
    · exact h.mem_names_of_mem hd
    · exact ih w hw
  | add _ _ _ h _ ih =>
    rintro w (_ | ⟨_, hw⟩)
    · exact h.mem_names_of_mem (by simp)
    · exact ih w hw

/-- The names of the views above are not added. -/
theorem Walks.mem_names_of_mem_path (h : Walks path done vs done') (hpath : name ∈ path)
    (hname : name ∈ done'.map View.name) : name ∈ done.map View.name := by
  induction h with
  | nil => exact hname
  | skip _ _ _ ih => exact ih hpath hname
  | add hp _ _ _ ihbelow ih =>
    have hbelow := ih hpath hname
    rw [List.map_append, List.mem_append, List.map_singleton, List.mem_singleton] at hbelow
    rcases hbelow with hbelow | rfl
    · exact ihbelow (List.mem_append_left _ hpath) hbelow
    · contradiction

theorem Walks.inOrder (h : Walks path done vs done') (H : InOrder done) : InOrder done' := by
  induction h with
  | nil => exact H
  | skip _ _ _ ih => exact ih H
  | add _ hd hbelow _ ihbelow ih =>
    refine ih ((ihbelow H).concat (fun hv => hd ?_) hbelow.root_mem_names)
    exact hbelow.mem_names_of_mem_path (List.mem_append_right _ List.mem_cons_self) hv

theorem Walks.occurs (h : Walks path done vs done') (hw : w ∈ done') : w ∈ done ∨ Occurs vs w := by
  induction h with
  | nil => exact .inl hw
  | skip _ _ _ ih => exact (ih hw).imp_right fun h => occurs_cons_iff.mpr (.inr (.inr h))
  | add _ _ _ _ ihbelow ih =>
    rcases ih hw with hw | hw
    · rcases List.mem_append.mp hw with hw | hw
      · exact (ihbelow hw).imp_right fun h => occurs_cons_iff.mpr (.inr (.inl h))
      · exact .inr (occurs_cons_iff.mpr (.inl (List.mem_singleton.mp hw)))
    · exact .inr (occurs_cons_iff.mpr (.inr (.inr hw)))

/-! ### First views of their names -/

/-- No view that stands before a position has the name of the view there. -/
def IsFirst (forest : List View) (p : List Nat) : Prop :=
  ∀ v, viewAt? forest p = some v →
    ∀ q w, viewAt? forest q = some w → q < p → w.name ≠ v.name

/-- The view at a position and all views above it are the first of their names, and their names
are none of those passed before the forest. -/
def Leads (passed : String → Prop) (forest : List View) (p : List Nat) : Prop :=
  ∀ q, q <+: p → IsFirst forest q ∧ ∀ v, viewAt? forest q = some v → ¬ passed v.name

theorem Leads.root {passed : String → Prop} (H : Leads passed (v :: vs) (0 :: p)) :
    ¬ passed v.name :=
  (H [0] (List.cons_prefix_cons.mpr ⟨rfl, List.nil_prefix⟩)).2 v (viewAt?_root v vs)

theorem Leads.below {passed : String → Prop} (H : Leads passed (v :: vs) (0 :: p)) :
    Leads (fun n => passed n ∨ n = v.name) v.dependencies p := by
  intro q hq
  by_cases hnil : q = []
  · simp [hnil, IsFirst]
  obtain ⟨hfirst, hnew⟩ := H (0 :: q) (List.cons_prefix_cons.mpr ⟨rfl, hq⟩)
  have hat : viewAt? (v :: vs) (0 :: q) = viewAt? v.dependencies q := viewAt?_below hnil v vs
  constructor
  · intro w hw r u hr hlt
    refine hfirst w (hat.trans hw) (0 :: r) u ?_ (List.cons_lt_cons_iff.mpr (.inr ⟨rfl, hlt⟩))
    rw [viewAt?_below (ne_nil_of_viewAt? hr), hr]
  · rintro w hw (hpassed | hname)
    · exact hnew w (hat.trans hw) hpassed
    · exact hfirst w (hat.trans hw) [0] v (viewAt?_root v vs) (lt_append hnil [0]) hname.symm

theorem Leads.after {passed : String → Prop} {i : Nat}
    (H : Leads passed (v :: vs) ((i + 1) :: p)) :
    Leads (fun n => passed n ∨ n = v.name ∨ ∃ w, Occurs v.dependencies w ∧ w.name = n) vs
      (i :: p) := by
  intro q hq
  cases q with
  | nil => simp [IsFirst]
  | cons j q =>
    obtain ⟨rfl, hqp⟩ := List.cons_prefix_cons.mp hq
    obtain ⟨hfirst, hnew⟩ := H ((j + 1) :: q) (List.cons_prefix_cons.mpr ⟨rfl, hqp⟩)
    have hat : viewAt? (v :: vs) ((j + 1) :: q) = viewAt? vs (j :: q) := viewAt?_after v vs j q
    have hzero (r : List Nat) : 0 :: r < (j + 1) :: q :=
      List.cons_lt_cons_iff.mpr (.inl j.succ_pos)
    constructor
    · intro w hw r u hr hlt
      obtain ⟨k, r, rfl⟩ := List.exists_cons_of_ne_nil (ne_nil_of_viewAt? hr)
      refine hfirst w (hat.trans hw) ((k + 1) :: r) u (by rw [viewAt?_after, hr]) ?_
      simpa [List.cons_lt_cons_iff] using List.cons_lt_cons_iff.mp hlt
    · rintro w hw (hpassed | hname | ⟨u, ⟨r, hr⟩, hname⟩)
      · exact hnew w (hat.trans hw) hpassed
      · exact hfirst w (hat.trans hw) [0] v (viewAt?_root v vs) (hzero []) hname.symm
      · refine hfirst w (hat.trans hw) (0 :: r) u ?_ (hzero r) hname
        rw [viewAt?_below (ne_nil_of_viewAt? hr), hr]

/-- A walk comes to a view if neither its name nor one above it can have been passed before. -/
theorem Walks.mem_of_leads (h : Walks path done vs done') {passed : String → Prop}
    (hpath : ∀ n ∈ path, passed n) (hdone : ∀ w ∈ done, passed w.name)
    (hv : viewAt? vs p = some v) (H : Leads passed vs p) : v ∈ done' := by
  induction h generalizing p passed with
  | nil => exact absurd ⟨p, hv⟩ not_occurs_nil
  | skip _ hd _ ih =>
    obtain ⟨w, hw, heq⟩ := List.mem_map.mp hd
    have hpassed := heq ▸ hdone w hw
    rcases viewAt?_cons_eq_some_iff.mp hv with ⟨rfl, -⟩ | ⟨q, rfl, -⟩ | ⟨i, q, rfl, hq⟩
    · exact absurd hpassed H.root
    · exact absurd hpassed H.root
    · exact ih (fun n hn => .inl (hpath n hn)) (fun w hw => .inl (hdone w hw)) hq H.after
  | add _ _ hbelow h ihbelow ih =>
    rcases viewAt?_cons_eq_some_iff.mp hv with ⟨rfl, rfl⟩ | ⟨q, rfl, hq⟩ | ⟨i, q, rfl, hq⟩
    · exact h.grows.subset (List.mem_append_right _ List.mem_cons_self)
    · refine h.grows.subset (List.mem_append_left _ (ihbelow ?_ ?_ hq H.below))
      · intro n hn
        exact (List.mem_append.mp hn).imp (hpath n) List.mem_singleton.mp
      · exact fun w hw => .inl (hdone w hw)
    · refine ih (fun n hn => .inl (hpath n hn)) (fun w hw => ?_) hq H.after
      rcases List.mem_append.mp hw with hw | hw
      · exact (hbelow.occurs hw).imp (hdone w) fun hocc => .inr ⟨w, hocc, rfl⟩
      · exact .inr (.inl (congrArg View.name (List.mem_singleton.mp hw)))

/-! ### The views of a forest in order -/

/-- The views of a forest, one for each name that is asked for, dependencies first. -/
structure DependencyOrder (forest views : List View) : Prop where
  nodup : (views.map View.name).Nodup
  occurs : ∀ v ∈ views, Occurs forest v
  roots : ∀ v ∈ forest, v.name ∈ views.map View.name
  dependencies : ∀ before v after, views = before ++ v :: after →
    ∀ d ∈ v.dependencies, d.name ∈ before.map View.name
  /-- A view stands for its name if it is the first of that name, like each view above it. -/
  first : ∀ p v, viewAt? forest p = some v → (∀ q, q <+: p → IsFirst forest q) →
    ∀ w, w ∈ views ∧ w.name = v.name ↔ w = v

theorem Walks.dependencyOrder (h : Walks [] [] forest views) : DependencyOrder forest views := by
  have hord := h.inOrder inOrder_nil
  refine ⟨hord.nodup, ?_, h.root_mem_names, ?_, ?_⟩
  · exact fun v hv => (h.occurs hv).resolve_left List.not_mem_nil
  · exact fun before v after heq => (hord before v after heq).2
  · intro p v hv hfirst w
    have hleads : Leads (fun _ => False) forest p := fun q hq => ⟨hfirst q hq, fun _ _ => id⟩
    have hmem : v ∈ views := h.mem_of_leads (by simp) (by simp) hv hleads
    constructor
    · rintro ⟨hw, hname⟩
      exact List.inj_on_of_nodup_map hord.nodup hw hmem hname
    · rintro rfl
      exact ⟨hmem, rfl⟩

/-! ### Entries of the clause -/

/-- An entry of a `WITH` clause. -/
inductive WithEntry where
  | view (v : View)
  | subquery (s : Subquery)

/-- An entry as it is written: a name, and in parentheses what it stands for. -/
def WithEntry.text : WithEntry → String
  | view v => v.name ++ " AS (" ++ strip v.query ++ ")"
  | subquery s => sanitize s.name ++ " AS (" ++ strip s.query ++ ")"

def WithEntry.subquery? : WithEntry → Option Subquery
  | view _ => none
  | subquery s => some s

/-- The entries in the order in which they are written. -/
def withEntries (views : List View) (subqueries : List Subquery) : List WithEntry :=
  views.map .view ++ subqueries.map .subquery

/-- The names that a subquery depends on, through the views that are defined. -/
inductive Needs (views : List View) (s : Subquery) : String → Prop
  | own {v : View} : v ∈ s.views → Needs views s v.name
  | dependency {v d : View} : Needs views s v.name → v ∈ views → d ∈ v.dependencies →
    Needs views s d.name

/-- The entries of a clause: subqueries as they are declared, each after all that it needs. -/
structure WithOrder (views : List View) (subqueries : List Subquery) : Prop where
  text : Clause.ctes views subqueries = if subqueries.isEmpty then "" else
    "WITH " ++ ", ".intercalate ((withEntries views subqueries).map WithEntry.text)
  declared : (withEntries views subqueries).filterMap WithEntry.subquery? = subqueries
  needed : ∀ before s after, withEntries views subqueries = before ++ .subquery s :: after →
    ∀ name, Needs views s name → ∃ v, .view v ∈ before ∧ v.name = name

theorem ctes_eq_entries (views : List View) (subqueries : List Subquery) :
    Clause.ctes views subqueries = if subqueries.isEmpty then "" else
      "WITH " ++ ", ".intercalate ((withEntries views subqueries).map WithEntry.text) := by
  simp only [Clause.ctes, withEntries, List.map_append, List.map_map]
  rfl

theorem filterMap_withEntries (views : List View) (subqueries : List Subquery) :
    (withEntries views subqueries).filterMap WithEntry.subquery? = subqueries := by
  rw [withEntries, List.filterMap_append, List.filterMap_map, List.filterMap_map]
  have hviews : views.filterMap (WithEntry.subquery? ∘ WithEntry.view) = [] :=
    List.filterMap_eq_nil_iff.mpr fun _ _ => rfl
  have hsubs : subqueries.filterMap (WithEntry.subquery? ∘ WithEntry.subquery) = subqueries :=
    List.filterMap_some
  rw [hviews, hsubs, List.nil_append]

/-- All views are defined before a subquery. -/
theorem views_before_subquery {subqueries : List Subquery} {before after : List WithEntry}
    {s : Subquery} (h : withEntries views subqueries = before ++ .subquery s :: after) :
    views.map .view <+: before := by
  rcases List.append_eq_append_iff.mp h with ⟨as, rfl, -⟩ | ⟨bs, hbs, has⟩
  · exact List.prefix_append _ _
  · cases bs with
    | nil => simp [hbs]
    | cons b bs =>
      obtain ⟨rfl, -⟩ := List.cons.inj has
      have hs : WithEntry.subquery s ∈ views.map .view := by simp [hbs]
      simp at hs

theorem DependencyOrder.mem_names_of_needs {subqueries : List Subquery} {s : Subquery}
    (H : DependencyOrder (rootViews subqueries) views) (hs : s ∈ subqueries)
    (hname : Needs views s name) : name ∈ views.map View.name := by
  induction hname with
  | own hv => exact H.roots _ (List.mem_flatMap.mpr ⟨s, hs, hv⟩)
  | dependency _ hv hd _ =>
    obtain ⟨before, after, rfl⟩ := List.append_of_mem hv
    have := H.dependencies before _ after rfl _ hd
    rw [List.map_append]
    exact List.mem_append_left _ this

theorem DependencyOrder.withOrder {subqueries : List Subquery}
    (H : DependencyOrder (rootViews subqueries) views) : WithOrder views subqueries := by
  refine ⟨ctes_eq_entries _ _, filterMap_withEntries _ _, ?_⟩
  intro before s after heq name hname
  have hs : WithEntry.subquery s ∈ withEntries views subqueries := by simp [heq]
  obtain ⟨v, hv, rfl⟩ := List.mem_map.mp
    (H.mem_names_of_needs (by simpa [withEntries] using hs) hname)
  exact ⟨v, (views_before_subquery heq).subset (List.mem_map_of_mem hv), rfl⟩

/-- The views that some subqueries need are put in the order of their dependencies, and so are the
entries of the clause that defines them. -/
theorem expandViews_order {subqueries : List Subquery} (h : expandViews subqueries = .ok views) :
    DependencyOrder (rootViews subqueries) views ∧ WithOrder views subqueries :=
  have H := (walks_of_expandViews h).dependencyOrder
  ⟨H, H.withOrder⟩

def shared : View := ⟨"shared", "SELECT 1", []⟩

/-- Two subqueries whose views depend on the same view, which the second defines anew. -/
def sharing : List Subquery :=
  [⟨"one", "o", "SELECT 1", .left, "TRUE", [], none, [⟨"left", "SELECT 2", [shared]⟩]⟩,
    ⟨"two", "t", "SELECT 1", .left, "TRUE", [], none,
      [⟨"right", "SELECT 3", [⟨"shared", "SELECT 4", []⟩]⟩, shared]⟩]

theorem expandViews_order_of_sharing :
    ∃ views, expandViews sharing = .ok views ∧
      views.map View.name = ["shared", "left", "right"] ∧
      DependencyOrder (rootViews sharing) views ∧ WithOrder views sharing := by
  have h : expandViews sharing = .ok [shared, ⟨"left", "SELECT 2", [shared]⟩,
      ⟨"right", "SELECT 3", [⟨"shared", "SELECT 4", []⟩]⟩] := rfl
  exact ⟨_, h, rfl, expandViews_order h⟩

end SqlCompose
