import SqlCompose.Expansion

/-!
# The walk through a forest of views

What a walk does depends on the view that comes next: it closes a cycle, it is passed over, or it
is added after its dependencies. `Walks` and `Stops` say this for walks that end with a list of
views and for those that end with a cycle (`walks_or_stops`), and what holds of a walk is proved by
induction on them.
-/

namespace SqlCompose

/-- A walk through the views `vs`, below the views named in `path`, adds to the views `done`. -/
inductive Walks : (path : List String) → (done vs done' : List View) → Prop
  | nil : Walks path done [] done
  | skip : v.name ∉ path → v.name ∈ done.map View.name → Walks path done vs done' →
    Walks path done (v :: vs) done'
  | add : v.name ∉ path → v.name ∉ done.map View.name →
    Walks (path ++ [v.name]) done v.dependencies below → Walks path (below ++ [v]) vs done' →
    Walks path done (v :: vs) done'

/-- A walk through the views `vs`, below the views named in `path`, closes a cycle. -/
inductive Stops : (path : List String) → (done vs : List View) → Cycle → Prop
  | here : v.name ∈ path →
    Stops path done (v :: vs) ⟨path.dropWhile (· ≠ v.name) ++ [v.name]⟩
  | under : v.name ∉ path → Stops (path ++ [v.name]) done v.dependencies c →
    Stops path done (v :: vs) c
  | after : Walks path done [v] done' → Stops path done' vs c → Stops path done (v :: vs) c

variable {path : List String} {done done' vs : List View} {v : View} {c : Cycle}

/-! ### One visit -/

theorem visit_of_mem_path (h : v.name ∈ path) :
    View.visit path done v = .error ⟨path.dropWhile (· ≠ v.name) ++ [v.name]⟩ := by
  cases v
  exact if_pos h

theorem visit_of_mem_done (hp : v.name ∉ path) (hd : v.name ∈ done.map View.name) :
    View.visit path done v = .ok done := by
  cases v
  rw [View.visit, if_neg hp, if_pos hd]

theorem visit_of_new (hp : v.name ∉ path) (hd : v.name ∉ done.map View.name) :
    View.visit path done v =
      (View.visitAll (path ++ [v.name]) done v.dependencies).map (· ++ [v]) := by
  cases v
  rw [View.visit, if_neg hp, if_neg hd]
  dsimp only
  split <;> rename_i h <;> rw [h] <;> rfl

theorem visitAll_cons (path : List String) (done : List View) (v : View) (vs : List View) :
    View.visitAll path done (v :: vs) =
      (View.visit path done v).bind fun done => View.visitAll path done vs := by
  rw [View.visitAll]
  cases View.visit path done v <;> rfl

/-! ### The whole walk -/

/-- A walk that goes on after its first view. -/
theorem Walks.cons (hv : Walks path done [v] done') (h : Walks path done' vs done'') :
    Walks path done (v :: vs) done'' := by
  cases hv with
  | skip hp hd h' => cases h' with | nil => exact .skip hp hd h
  | add hp hd hbelow h' => cases h' with | nil => exact .add hp hd hbelow h

theorem walks_or_stops (path : List String) (done vs : List View) :
    match View.visitAll path done vs with
    | .ok done' => Walks path done vs done'
    | .error c => Stops path done vs c := by
  -- The walk goes down to the dependencies of a view and on to the views after it.
  induction hn : sizeOf vs using Nat.strongRecOn generalizing path done vs with
  | _ n ih =>
    subst hn
    cases vs with
    | nil => exact .nil
    | cons v vs =>
      -- If the first view can be added or passed over, the rest decides.
      have hafter (done' : List View) (hv : Walks path done [v] done') :
          match View.visitAll path done' vs with
          | .ok done'' => Walks path done (v :: vs) done''
          | .error c => Stops path done (v :: vs) c := by
        have := ih (sizeOf vs) (by simp only [List.cons.sizeOf_spec]; omega) path done' vs rfl
        cases hr : View.visitAll path done' vs <;> rw [hr] at this
        · exact .after hv this
        · exact hv.cons this
      rw [visitAll_cons]
      by_cases hp : v.name ∈ path
      · rw [visit_of_mem_path hp]
        exact .here hp
      by_cases hd : v.name ∈ done.map View.name
      · rw [visit_of_mem_done hp hd]
        exact hafter done (.skip hp hd .nil)
      have hbelow := ih (sizeOf v.dependencies)
        (by cases v; simp only [List.cons.sizeOf_spec, View.mk.sizeOf_spec]; omega)
        (path ++ [v.name]) done v.dependencies rfl
      rw [visit_of_new hp hd]
      cases hr : View.visitAll (path ++ [v.name]) done v.dependencies <;> rw [hr] at hbelow
      · exact .under hp hbelow
      · exact hafter _ (.add hp hd hbelow .nil)

/-- The views that subqueries ask for themselves. -/
def rootViews (subqueries : List Subquery) : List View := subqueries.flatMap Subquery.views

theorem walks_of_visitAll (h : View.visitAll path done vs = .ok done') :
    Walks path done vs done' := by
  have := walks_or_stops path done vs
  rwa [h] at this

theorem walks_of_expandViews {subqueries : List Subquery} {views : List View}
    (h : expandViews subqueries = .ok views) : Walks [] [] (rootViews subqueries) views :=
  walks_of_visitAll h

theorem stops_of_expandViews {subqueries : List Subquery} (h : expandViews subqueries = .error c) :
    Stops [] [] (rootViews subqueries) c := by
  have := walks_or_stops [] [] (rootViews subqueries)
  unfold expandViews at h
  rwa [rootViews, h] at this

end SqlCompose
