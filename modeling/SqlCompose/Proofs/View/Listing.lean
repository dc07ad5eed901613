import SqlCompose.Proofs.View.Cycle

/-!
# The walk and the listing of all views

The post-order of a forest lists all of its views, each after those below it, and goes again
through what is asked for again. If views of one name are the same wherever they stand, a walk that
passes over a view has listed all below it before (`Complete`). So what it has added at any time is
what is left of the listing so far when each name is kept once (`Walks.eq_firstsByName`), and it
never closes a cycle, since no view stands below itself (`not_hasCycle`).
-/

namespace SqlCompose

mutual

/-- A view after all views below it. -/
def View.postorder : View → List View
  | ⟨name, query, dependencies⟩ => postorderAll dependencies ++ [⟨name, query, dependencies⟩]

/-- The views of a forest, tree by tree. -/
def View.postorderAll : List View → List View
  | [] => []
  | v :: vs => View.postorder v ++ View.postorderAll vs

end

/-- The views of a list without those after another of their name. -/
def firstsByName (views : List View) : List View := views.eraseDupsBy fun v w => v.name == w.name

/-- Views of one name are the same, wherever they stand. -/
def UniquelyNamed (forest : List View) : Prop :=
  ∀ v w, Occurs forest v → Occurs forest w → v.name = w.name → v = w

variable {path : List String} {done done' vs ws listed forest : List View} {v w : View}
  {subqueries subqueries' : List Subquery}

open View

/-! ### The listing -/

theorem postorderAll_cons (v : View) (vs : List View) :
    postorderAll (v :: vs) = postorderAll v.dependencies ++ v :: postorderAll vs := by
  cases v
  simp [postorderAll, postorder]

theorem mem_postorderAll_iff : w ∈ postorderAll vs ↔ Occurs vs w := by
  induction hn : sizeOf vs using Nat.strongRecOn generalizing vs with
  | _ n ih =>
    subst hn
    cases vs with
    | nil => simp [postorderAll]
    | cons v vs =>
      have hbelow := ih (sizeOf v.dependencies)
        (by cases v; simp only [List.cons.sizeOf_spec, View.mk.sizeOf_spec]; omega) rfl
      have hafter := ih (sizeOf vs) (by simp only [List.cons.sizeOf_spec]; omega) rfl
      rw [postorderAll_cons, List.mem_append, List.mem_cons, hbelow, hafter, occurs_cons_iff,
        or_left_comm]

/-! ### Each name once -/

theorem firstsByName_cons (v : View) (vs : List View) :
    firstsByName (v :: vs) = v :: firstsByName (vs.filter (·.name ≠ v.name)) := by
  simp [firstsByName, List.eraseDupsBy_cons]

theorem firstsByName_concat (vs : List View) (v : View) :
    firstsByName (vs ++ [v]) =
      if v.name ∈ vs.map View.name then firstsByName vs else firstsByName vs ++ [v] := by
  induction hn : vs.length using Nat.strongRecOn generalizing vs with
  | _ n ih =>
    subst hn
    cases vs with
    | nil => rfl
    | cons u vs =>
      rw [List.cons_append, firstsByName_cons, firstsByName_cons, List.filter_append,
        List.map_cons]
      by_cases hname : v.name = u.name
      · simp [hname]
      · rw [List.filter_cons_of_pos (by simpa using hname), List.filter_nil,
          ih _ (Nat.lt_succ_of_le (List.length_filter_le _ _)) _ rfl]
        have hmem : v.name ∈ (vs.filter (·.name ≠ u.name)).map View.name ↔
            v.name ∈ vs.map View.name := by
          simp only [List.mem_map, List.mem_filter, decide_eq_true_eq]
          exact exists_congr fun w => ⟨fun h => ⟨h.1.1, h.2⟩, fun h => ⟨⟨h.1, h.2 ▸ hname⟩, h.2⟩⟩
        simp only [hmem, List.mem_cons, hname, false_or]
        split <;> simp

theorem firstsByName_concat_of_mem (h : v.name ∈ vs.map View.name) :
    firstsByName (vs ++ [v]) = firstsByName vs := by
  rw [firstsByName_concat, if_pos h]

theorem firstsByName_concat_of_notMem (h : v.name ∉ vs.map View.name) :
    firstsByName (vs ++ [v]) = firstsByName vs ++ [v] := by
  rw [firstsByName_concat, if_neg h]

theorem mem_names_firstsByName_iff {name : String} :
    name ∈ (firstsByName vs).map View.name ↔ name ∈ vs.map View.name := by
  induction vs using List.reverseRecOn with
  | nil => rfl
  | append_singleton vs v ih =>
    by_cases h : v.name ∈ vs.map View.name
    · rw [firstsByName_concat_of_mem h, ih, List.map_append, List.mem_append, List.map_singleton,
        List.mem_singleton, or_iff_left_of_imp (· ▸ h)]
    · rw [firstsByName_concat_of_notMem h, List.map_append, List.map_append, List.mem_append,
        List.mem_append, ih]

theorem mem_of_mem_firstsByName (h : v ∈ firstsByName vs) : v ∈ vs := by
  induction vs using List.reverseRecOn with
  | nil => exact h
  | append_singleton vs u ih =>
    rw [firstsByName_concat] at h
    split at h
    · exact List.mem_append_left _ (ih h)
    · rcases List.mem_append.mp h with h | h
      · exact List.mem_append_left _ (ih h)
      · exact List.mem_append_right _ h

/-- Nothing is kept of views whose names are all there already. -/
theorem firstsByName_append_of_subset (h : ∀ w ∈ ws, w.name ∈ vs.map View.name) :
    firstsByName (vs ++ ws) = firstsByName vs := by
  induction ws using List.reverseRecOn with
  | nil => rw [List.append_nil]
  | append_singleton ws w ih =>
    rw [← List.append_assoc, firstsByName_concat_of_mem, ih fun u hu => h u (by simp [hu])]
    rw [List.map_append]
    exact List.mem_append_left _ (h w (by simp))

/-! ### What a walk has listed -/

/-- All views below those of a list are in it too. -/
def Complete (views : List View) : Prop := ∀ v ∈ views, ∀ w, Occurs v.dependencies w → w ∈ views

theorem complete_postorderAll (vs : List View) : Complete (postorderAll vs) := by
  intro v hv w hw
  exact mem_postorderAll_iff.mpr ((mem_postorderAll_iff.mp hv).below hw)

theorem Complete.append (hvs : Complete vs) (hws : Complete ws) : Complete (vs ++ ws) := by
  intro v hv w hw
  rcases List.mem_append.mp hv with hv | hv
  · exact List.mem_append_left _ (hvs v hv w hw)
  · exact List.mem_append_right _ (hws v hv w hw)

theorem Complete.concat (h : Complete vs) (hv : ∀ w, Occurs v.dependencies w → w ∈ vs) :
    Complete (vs ++ [v]) := by
  intro u hu w hw
  rcases List.mem_append.mp hu with hu | hu
  · exact List.mem_append_left _ (h u hu w hw)
  · exact List.mem_append_left _ (hv w (List.mem_singleton.mp hu ▸ hw))

theorem Walks.eq_firstsByName (h : Walks path done vs done') (hdone : done = firstsByName listed)
    (hlisted : Complete listed)
    (hsame : ∀ v ∈ listed ++ postorderAll vs, ∀ w ∈ listed ++ postorderAll vs,
      v.name = w.name → v = w) :
    done' = firstsByName (listed ++ postorderAll vs) := by
  induction h generalizing listed with
  | nil => rw [hdone, postorderAll, List.append_nil]
  | @skip path done vs done' v _ hd _ ih =>
    have hv : v ∈ listed := by
      -- The view of its name that is listed is the same one.
      rw [hdone, mem_names_firstsByName_iff] at hd
      obtain ⟨u, hu, hname⟩ := List.mem_map.mp hd
      obtain rfl : u = v := hsame u (by simp [hu]) v (by simp [postorderAll_cons]) hname
      exact hu
    have hbelow : ∀ w ∈ postorderAll v.dependencies ++ [v], w ∈ listed := by
      intro w hw
      rcases List.mem_append.mp hw with hw | hw
      · exact hlisted v hv w (mem_postorderAll_iff.mp hw)
      · exact List.mem_singleton.mp hw ▸ hv
    have hlist : listed ++ postorderAll (v :: vs) =
        listed ++ (postorderAll v.dependencies ++ [v]) ++ postorderAll vs := by
      simp [postorderAll_cons]
    rw [hlist]
    refine ih ?_ ?_ ?_
    · rw [hdone, firstsByName_append_of_subset fun w hw => List.mem_map_of_mem (hbelow w hw)]
    · intro u hu w hw
      have hu : u ∈ listed := (List.mem_append.mp hu).elim id (hbelow u)
      exact List.mem_append_left _ (hlisted u hu w hw)
    · rwa [← hlist]
  | @add path done below v vs done' hp hd hbelow _ ihbelow ih =>
    have hlist : listed ++ postorderAll (v :: vs) =
        listed ++ postorderAll v.dependencies ++ [v] ++ postorderAll vs := by
      simp [postorderAll_cons]
    rw [hlist] at hsame ⊢
    have hbelow_eq : below = firstsByName (listed ++ postorderAll v.dependencies) := by
      refine ihbelow hdone hlisted fun u hu w hw => hsame u ?_ w ?_
      · exact List.mem_append_left _ (List.mem_append_left _ hu)
      · exact List.mem_append_left _ (List.mem_append_left _ hw)
    have hnew : v.name ∉ (listed ++ postorderAll v.dependencies).map View.name := by
      rw [← mem_names_firstsByName_iff, ← hbelow_eq]
      exact fun hv => hd (hbelow.mem_names_of_mem_path (by simp) hv)
    refine ih ?_ ?_ hsame
    · rw [firstsByName_concat_of_notMem hnew, ← hbelow_eq]
    · refine (hlisted.append (complete_postorderAll _)).concat fun w hw => ?_
      exact List.mem_append_right _ (mem_postorderAll_iff.mpr hw)

/-! ### Uniquely named forests -/

namespace UniquelyNamed

theorem not_hasCycle (h : UniquelyNamed forest) : ¬ HasCycle forest := by
  rintro ⟨v, w, hv, hw, hname⟩
  obtain rfl : w = v := h w v (hv.below hw) hv hname
  obtain ⟨q, hq⟩ := hw
  exact lt_irrefl _ (sizeOf_lt_of_viewAt? hq)

theorem expandViews_eq (h : UniquelyNamed (rootViews subqueries)) :
    expandViews subqueries = .ok (firstsByName (postorderAll (rootViews subqueries))) := by
  cases hviews : expandViews subqueries with
  | error c => exact absurd (isIn_of_expandViews hviews).hasCycle h.not_hasCycle
  | ok views =>
    have hcomplete : Complete [] := by simp [Complete]
    rw [(walks_of_expandViews hviews).eq_firstsByName rfl hcomplete, List.nil_append]
    intro v hv w hw hname
    rw [List.nil_append, mem_postorderAll_iff] at hv hw
    exact h v w hv hw hname

/-- All views of the forest are kept. -/
theorem mem_firstsByName_iff (h : UniquelyNamed forest) :
    v ∈ firstsByName (postorderAll forest) ↔ Occurs forest v := by
  constructor
  · exact fun hv => mem_postorderAll_iff.mp (mem_of_mem_firstsByName hv)
  · intro hv
    have hname := mem_names_firstsByName_iff.mpr
      (List.mem_map_of_mem (f := View.name) (mem_postorderAll_iff.mpr hv))
    obtain ⟨w, hw, hname⟩ := List.mem_map.mp hname
    obtain rfl : w = v := h w v (mem_postorderAll_iff.mp (mem_of_mem_firstsByName hw)) hv hname
    exact hw

theorem nodup_firstsByName (h : UniquelyNamed (rootViews subqueries)) :
    (firstsByName (postorderAll (rootViews subqueries))).Nodup :=
  .of_map _ (walks_of_expandViews h.expandViews_eq).dependencyOrder.nodup

end UniquelyNamed

/-! ### Other orders of the subqueries -/

theorem occurs_iff_of_mem_iff (h : ∀ v, v ∈ vs ↔ v ∈ ws) (w : View) :
    Occurs vs w ↔ Occurs ws w := by
  have hroot (forest : List View) :
      Occurs forest w ↔ ∃ v ∈ forest, w = v ∨ Occurs v.dependencies w := by
    induction forest with
    | nil => simp
    | cons v vs ih => simp [occurs_cons_iff, ih, or_assoc]
  rw [hroot, hroot]
  exact exists_congr fun v => and_congr_left fun _ => h v

theorem occurs_rootViews_iff_of_perm (h : subqueries.Perm subqueries') (w : View) :
    Occurs (rootViews subqueries) w ↔ Occurs (rootViews subqueries') w :=
  occurs_iff_of_mem_iff (fun _ => (h.flatMap_right Subquery.views).mem_iff) w

theorem UniquelyNamed.of_perm (H : UniquelyNamed (rootViews subqueries))
    (h : subqueries.Perm subqueries') : UniquelyNamed (rootViews subqueries') := by
  intro v w hv hw
  rw [← occurs_rootViews_iff_of_perm h] at hv hw
  exact H v w hv hw

/-- If views of one name are the same, the walk adds what is left of the post-order of the forest
when each name is kept once, and the order of the subqueries decides on the order of views only. -/
theorem expandViews_listing (h : UniquelyNamed (rootViews subqueries)) :
    expandViews subqueries = .ok (firstsByName (postorderAll (rootViews subqueries))) ∧
    (∀ name, name ∈ (firstsByName (postorderAll (rootViews subqueries))).map View.name ↔
      ∃ v, Occurs (rootViews subqueries) v ∧ v.name = name) ∧
    ∀ subqueries', subqueries.Perm subqueries' →
      ∃ views, expandViews subqueries' = .ok views ∧
        views.Perm (firstsByName (postorderAll (rootViews subqueries))) := by
  refine ⟨h.expandViews_eq, fun name => ?_, fun subqueries' hperm => ?_⟩
  · simp only [List.mem_map, h.mem_firstsByName_iff]
  · have h' := h.of_perm hperm
    refine ⟨_, h'.expandViews_eq, ?_⟩
    rw [List.perm_ext_iff_of_nodup h'.nodup_firstsByName h.nodup_firstsByName]
    intro v
    rw [h'.mem_firstsByName_iff, h.mem_firstsByName_iff, occurs_rootViews_iff_of_perm hperm]

/-- Two views that depend on the same one, each asked for by a subquery of its own. -/
def twoOnShared : List Subquery :=
  [⟨"one", "o", "SELECT 1", .left, "TRUE", [], none, [⟨"left", "SELECT 2", [shared]⟩]⟩,
    ⟨"two", "t", "SELECT 1", .left, "TRUE", [], none, [⟨"right", "SELECT 3", [shared]⟩]⟩]

theorem expandViews_listing_of_twoOnShared :
    UniquelyNamed (rootViews twoOnShared) ∧
    (postorderAll (rootViews twoOnShared)).map View.name = ["shared", "left", "shared", "right"] ∧
    expandViews twoOnShared = .ok (firstsByName (postorderAll (rootViews twoOnShared))) ∧
    (firstsByName (postorderAll (rootViews twoOnShared))).map View.name =
      ["shared", "left", "right"] ∧
    ∃ views, expandViews twoOnShared.reverse = .ok views ∧
      views.Perm (firstsByName (postorderAll (rootViews twoOnShared))) := by
  have h : UniquelyNamed (rootViews twoOnShared) := by
    intro v w hv hw hname
    have hlist : postorderAll (rootViews twoOnShared) =
        [shared, ⟨"left", "SELECT 2", [shared]⟩, shared, ⟨"right", "SELECT 3", [shared]⟩] := rfl
    rw [← mem_postorderAll_iff, hlist] at hv hw
    simp only [List.mem_cons, List.not_mem_nil, or_false] at hv hw
    rcases hv with rfl | rfl | rfl | rfl <;> rcases hw with rfl | rfl | rfl | rfl <;>
      simp_all [shared]
  obtain ⟨heq, -, hperm⟩ := expandViews_listing h
  exact ⟨h, rfl, heq, rfl, hperm _ (List.reverse_perm _).symm⟩

end SqlCompose
