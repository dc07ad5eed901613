import SqlCompose.Proofs.View.Cycle

/-!
# Subqueries declared after others

The walk through the views of more subqueries is the walk through those of the first, and then goes
on from the views that this one has added (`expandViews_append`). So what the first subqueries need
stays as it is, and what the others add are views under new names (`Walks.exists_added`). Views
whose names are all there already add nothing, whatever they are (`visitAll_of_mem_names`).
-/

namespace SqlCompose

variable {path : List String} {done done' vs : List View}

theorem visitAll_append (path : List String) (done vs ws : List View) :
    View.visitAll path done (vs ++ ws) =
      (View.visitAll path done vs).bind fun done => View.visitAll path done ws := by
  induction vs generalizing done with
  | nil => rfl
  | cons v vs ih =>
    rw [List.cons_append, visitAll_cons, visitAll_cons]
    cases View.visit path done v with
    | error c => rfl
    | ok done' => exact ih done'

theorem expandViews_append (cs ds : List Subquery) :
    expandViews (cs ++ ds) =
      (expandViews cs).bind fun done => View.visitAll [] done (rootViews ds) := by
  rw [expandViews, List.flatMap_append, visitAll_append]
  rfl

theorem visitAll_of_mem_names (hpath : ∀ v ∈ vs, v.name ∉ path)
    (hdone : ∀ v ∈ vs, v.name ∈ done.map View.name) : View.visitAll path done vs = .ok done := by
  induction vs with
  | nil => rfl
  | cons v vs ih =>
    have hv := visit_of_mem_done (hpath v List.mem_cons_self) (hdone v List.mem_cons_self)
    rw [visitAll_cons, hv]
    exact ih (fun w hw => hpath w (List.mem_cons_of_mem v hw))
      fun w hw => hdone w (List.mem_cons_of_mem v hw)

/-- A walk adds views of its forest at the end, under names that were not there. -/
theorem Walks.exists_added (h : Walks path done vs done') (H : InOrder done) :
    ∃ added, done' = done ++ added ∧
      ∀ v ∈ added, v.name ∉ done.map View.name ∧ Occurs vs v := by
  obtain ⟨added, rfl⟩ := h.grows
  refine ⟨added, rfl, fun v hv => ?_⟩
  have hnodup := (h.inOrder H).nodup
  rw [List.map_append, List.nodup_append] at hnodup
  have hnew : v.name ∉ done.map View.name := fun hname =>
    hnodup.2.2 v.name hname v.name (List.mem_map_of_mem hv) rfl
  have hdone : v ∉ done := fun hmem => hnew (List.mem_map_of_mem hmem)
  exact ⟨hnew, (h.occurs (List.mem_append_right done hv)).resolve_left hdone⟩

/-- Subqueries that are declared after others add views under new names at the end, and none if the
names of their views are there already. A cycle in the views of the others stays what it is. -/
theorem expandViews_extended (cs ds : List Subquery) :
    (∀ views, expandViews (cs ++ ds) = .ok views →
      ∃ before added, expandViews cs = .ok before ∧ views = before ++ added ∧
        ∀ v ∈ added, v.name ∉ before.map View.name ∧ Occurs (rootViews ds) v) ∧
    (∀ c, expandViews cs = .error c → expandViews (cs ++ ds) = .error c) ∧
    ∀ views, expandViews cs = .ok views →
      (∀ v ∈ rootViews ds, v.name ∈ views.map View.name) →
      expandViews (cs ++ ds) = .ok views := by
  rw [expandViews_append]
  refine ⟨fun views h => ?_, fun c hc => ?_, fun views hviews hnames => ?_⟩
  · cases hcs : expandViews cs with
    | error c =>
      rw [hcs] at h
      contradiction
    | ok before =>
      rw [hcs] at h
      obtain ⟨added, heq, hadded⟩ :=
        (walks_of_visitAll h).exists_added ((walks_of_expandViews hcs).inOrder inOrder_nil)
      exact ⟨before, added, rfl, heq, hadded⟩
  · rw [hc]
    rfl
  · rw [hviews]
    exact visitAll_of_mem_names (fun v _ => List.not_mem_nil) hnames

/-- A subquery that defines a view anew, on a cycle of its own. -/
def redefining : Subquery :=
  ⟨"three", "r", "SELECT 1", .left, "TRUE", [], none,
    [⟨"shared", "SELECT 5", [⟨"a", "SELECT 6", [⟨"a", "SELECT 7", []⟩]⟩]⟩]⟩

/-- The second subquery adds a view to those of the first, the third adds none, and a cycle in the
first subquery is reported whatever follows. -/
theorem expandViews_extended_of_sharing :
    (∃ before added, expandViews (sharing.take 1) = .ok before ∧
      before.map View.name = ["shared", "left"] ∧
      expandViews (sharing.take 1 ++ sharing.drop 1) = .ok (before ++ added) ∧
      added.map View.name = ["right"]) ∧
    expandViews (looping ++ sharing) = .error ⟨["a", "b", "a"]⟩ ∧
    ∃ views, expandViews sharing = .ok views ∧ expandViews (sharing ++ [redefining]) = .ok views := by
  refine ⟨?_, (expandViews_extended looping sharing).2.1 _ rfl, ?_⟩
  · obtain ⟨before, added, hbefore, hviews, -⟩ :=
      (expandViews_extended (sharing.take 1) (sharing.drop 1)).1 _ rfl
    obtain rfl := Except.ok.inj hbefore
    obtain rfl := List.append_cancel_left hviews
    exact ⟨_, _, rfl, rfl, rfl, rfl⟩
  · have hnames : ∀ v ∈ rootViews [redefining], v.name ∈ ["shared", "left", "right"] := by
      simp [rootViews, redefining]
    exact ⟨_, rfl, (expandViews_extended sharing [redefining]).2.2 _ rfl hnames⟩

end SqlCompose
