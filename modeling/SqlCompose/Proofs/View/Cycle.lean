import Mathlib.Data.List.Chain
import SqlCompose.Error
import SqlCompose.Proofs.View.Order

/-!
# Cycles of views

A walk that stops has gone down a chain of views in the forest, and what it reports is the part of
the chain from the first view of the repeated name on (`Stops.isIn`).

A walk does not go below a view whose name it has passed, so it could miss a cycle there. It does
not if views of one name are the same wherever neither lies inside of the other. Then, if the walk
ends, every view of the forest is among those it added (`DependencyOrder.mem_of_consistent`), and
below a view that was added there are only names that were added before it.
-/

namespace SqlCompose

variable {path : List String} {done vs views forest above : List View} {v w : View} {c : Cycle}
  {p q : List Nat}

/-- The names of a cycle are those along a chain of views in a forest, from a view to the next of
its name. -/
structure Cycle.IsIn (forest : List View) (c : Cycle) : Prop where
  chain : ∃ chain : List View, chain.map View.name = c.names ∧
    chain.IsChain (fun v w => w ∈ v.dependencies) ∧ ∀ v ∈ chain, Occurs forest v
  two_le : 2 ≤ c.names.length
  closed : c.names.getLast? = c.names.head?
  distinct : c.names.dropLast.Nodup

/-! ### What is reported -/

/-- The names from a repeated one on. -/
theorem exists_dropWhile_eq_cons {name : String} (h : name ∈ path) :
    ∃ rest, path.dropWhile (· ≠ name) = name :: rest := by
  obtain ⟨front, rest, rfl, hfront⟩ := List.eq_append_cons_of_mem h
  have hne : ∀ n ∈ front, n ≠ name := fun n hn heq => hfront (heq ▸ hn)
  exact ⟨rest, by rw [List.dropWhile_append_of_pos (by simpa using hne),
    List.dropWhile_cons_of_neg (by simp)]⟩

theorem Cycle.isIn_of_mem_path (hnodup : (above.map View.name).Nodup)
    (hchain : (above ++ [v]).IsChain fun v w => w ∈ v.dependencies)
    (hocc : ∀ u ∈ above ++ [v], Occurs forest u) (h : v.name ∈ above.map View.name) :
    IsIn forest ⟨(above.map View.name).dropWhile (· ≠ v.name) ++ [v.name]⟩ := by
  have hsuffix : above.dropWhile ((· ≠ v.name) ∘ View.name) ++ [v] <:+ above ++ [v] := by
    obtain ⟨front, hfront⟩ := List.dropWhile_suffix ((· ≠ v.name) ∘ View.name) (l := above)
    exact ⟨front, by rw [← List.append_assoc, hfront]⟩
  obtain ⟨rest, hrest⟩ := exists_dropWhile_eq_cons h
  refine ⟨⟨_, ?_, hchain.suffix hsuffix, fun u hu => hocc u (hsuffix.subset hu)⟩, ?_, ?_, ?_⟩
  · rw [List.map_append, List.dropWhile_map]
    rfl
  · rw [hrest, List.length_append, List.length_cons, List.length_singleton]
    omega
  · rw [hrest, List.getLast?_concat]
    rfl
  · rw [List.dropLast_concat]
    exact hnodup.sublist (List.dropWhile_sublist _)

theorem Stops.isIn (h : Stops path done vs c) (hpath : above.map View.name = path)
    (hnodup : path.Nodup)
    (hchain : ∀ v ∈ vs, (above ++ [v]).IsChain fun v w => w ∈ v.dependencies)
    (habove : ∀ u ∈ above, Occurs forest u) (hocc : ∀ v ∈ vs, Occurs forest v) :
    c.IsIn forest := by
  induction h generalizing above with
  | here hp =>
    subst hpath
    refine Cycle.isIn_of_mem_path hnodup (hchain _ List.mem_cons_self) ?_ hp
    intro u hu
    rcases List.mem_append.mp hu with hu | hu
    · exact habove u hu
    · exact hocc u (List.mem_cons.mpr (.inl (List.mem_singleton.mp hu)))
  | @under _ _ _ v _ hp _ ih =>
    subst hpath
    have hv := hocc v List.mem_cons_self
    have hpath : (above ++ [v]).map View.name = above.map View.name ++ [v.name] := List.map_append
    refine ih hpath ?_ ?_ ?_ ?_
    · rw [← List.concat_eq_append, List.nodup_concat]
      exact ⟨hp, hnodup⟩
    · intro d hd
      rw [List.append_assoc, List.singleton_append, List.isChain_append_cons_cons]
      exact ⟨hchain _ List.mem_cons_self, hd, List.isChain_singleton d⟩
    · intro u hu
      rcases List.mem_append.mp hu with hu | hu
      · exact habove u hu
      · exact List.mem_singleton.mp hu ▸ hv
    · exact fun d hd => hv.below (.of_mem hd)
  | after _ _ ih =>
    exact ih hpath hnodup (fun w hw => hchain w (List.mem_cons_of_mem _ hw)) habove
      fun w hw => hocc w (List.mem_cons_of_mem _ hw)

theorem isIn_of_expandViews {subqueries : List Subquery} (h : expandViews subqueries = .error c) :
    c.IsIn (rootViews subqueries) := by
  have hpath : ([] : List View).map View.name = [] := rfl
  exact (stops_of_expandViews h).isIn hpath List.nodup_nil (fun v _ => List.isChain_singleton v)
    (by simp) fun _ hv => .of_mem hv

/-! ### What is found -/

/-- Views of one name are the same, unless one lies inside of the other. -/
def ConsistentlyNamed (forest : List View) : Prop :=
  ∀ p q v w, viewAt? forest p = some v → viewAt? forest q = some w → v.name = w.name →
    ¬ p <+: q → ¬ q <+: p → v = w

/-- Below some view stands a view of the same name. -/
def HasCycle (forest : List View) : Prop :=
  ∃ v w, Occurs forest v ∧ Occurs v.dependencies w ∧ w.name = v.name

/-- The last view of a chain stands below the first. -/
theorem occurs_of_isChain {chain : List View}
    (h : (v :: chain).IsChain fun v w => w ∈ v.dependencies) (hw : w ∈ chain.getLast?) :
    Occurs v.dependencies w := by
  induction chain generalizing v with
  | nil => simp at hw
  | cons u chain ih =>
    obtain ⟨hu, hchain⟩ := List.isChain_cons_cons.mp h
    cases chain with
    | nil =>
      obtain rfl : u = w := by simpa using hw
      exact .of_mem hu
    | cons u' chain =>
      rw [List.getLast?_cons_cons] at hw
      exact (Occurs.of_mem hu).below (ih hchain hw)

theorem Cycle.IsIn.hasCycle (H : c.IsIn forest) : HasCycle forest := by
  obtain ⟨⟨chain, hnames, hchain, hocc⟩, hlen, hclosed, -⟩ := H
  rw [← hnames] at hlen hclosed
  match chain with
  | [] | [_] => simp at hlen
  | v :: u :: chain =>
    have hne : u :: chain ≠ [] := List.cons_ne_nil _ _
    have hlast := List.getLast?_eq_some_getLast hne
    refine ⟨v, (u :: chain).getLast hne, hocc v List.mem_cons_self,
      occurs_of_isChain hchain hlast, ?_⟩
    rw [List.getLast?_map, List.getLast?_cons_cons, hlast] at hclosed
    exact Option.some.inj hclosed

namespace DependencyOrder

variable (H : DependencyOrder forest views)
include H

theorem eq_of_name_eq (hv : v ∈ views) (hw : w ∈ views) (h : v.name = w.name) : v = w :=
  List.inj_on_of_nodup_map H.nodup hv hw h

theorem idxOf_dependency_lt (hv : v ∈ views) (hw : w ∈ v.dependencies) :
    (views.map View.name).idxOf w.name < (views.map View.name).idxOf v.name := by
  obtain ⟨before, after, rfl⟩ := List.append_of_mem hv
  have hw := H.dependencies before v after rfl w hw
  have hv : v.name ∉ before.map View.name := by
    have hnodup := H.nodup
    rw [List.map_append, List.map_cons, List.nodup_append] at hnodup
    exact fun h => hnodup.2.2 _ h _ List.mem_cons_self rfl
  rw [List.map_append, List.map_cons, List.idxOf_append_of_mem hw, List.idxOf_append_of_notMem hv,
    List.idxOf_cons_self, Nat.add_zero]
  exact List.idxOf_lt_length_iff.mpr hw

/-- Names come earlier the deeper they stand, as long as the views on the way were added. -/
theorem idxOf_below_lt (hv : v ∈ views) (hw : viewAt? v.dependencies q = some w)
    (hmid : ∀ r u, r <+: q → r ≠ q → viewAt? v.dependencies r = some u → u ∈ views) :
    (views.map View.name).idxOf w.name < (views.map View.name).idxOf v.name := by
  induction q generalizing v with
  | nil => simp at hw
  | cons i q ih =>
    by_cases hq : q = []
    · subst hq
      rw [viewAt?_singleton] at hw
      exact H.idxOf_dependency_lt hv (List.mem_of_getElem? hw)
    · rw [viewAt?_cons hq] at hw
      obtain ⟨u, hu, hw⟩ := Option.bind_eq_some_iff.mp hw
      have hmem : u ∈ views :=
        hmid [i] u (List.cons_prefix_cons.mpr ⟨rfl, List.nil_prefix⟩) (by simp [Ne.symm hq])
          (by rw [viewAt?_singleton, hu])
      have hlt := ih hmem hw fun r u' hr hne hu' =>
        hmid (i :: r) u' (List.cons_prefix_cons.mpr ⟨rfl, hr⟩) (by simp [hne])
          (by rw [viewAt?_cons (ne_nil_of_viewAt? hu'), hu]; exact hu')
      exact hlt.trans (H.idxOf_dependency_lt hv (List.mem_of_getElem? hu))

/-- If the views before a position were added, the names above differ from the one there. -/
theorem name_ne_above {r : List Nat} (hv : viewAt? forest (q ++ r) = some v) (hr : r ≠ [])
    (hw : viewAt? forest q = some w)
    (hadded : ∀ s u, viewAt? forest s = some u → s < q ++ r → u ∈ views) : w.name ≠ v.name := by
  intro hname
  rw [viewAt?_append_of_some hw hr] at hv
  have hlt := H.idxOf_below_lt (hadded q w hw (lt_append hr q)) hv fun s u hs hne hu => by
    obtain ⟨t, ht, rfl⟩ := exists_eq_append_of_ne hs hne
    refine hadded (q ++ s) u ?_ (by rw [← List.append_assoc]; exact lt_append ht _)
    rw [viewAt?_append_of_some hw (ne_nil_of_viewAt? hu), hu]
  rw [hname] at hlt
  exact lt_irrefl _ hlt

/-- If the views before a position were added, then above a first view there are only first
views: another one above it would have an earlier copy, with a copy of the view inside. -/
theorem isFirst_above (hv : viewAt? forest p = some v)
    (hadded : ∀ q w, viewAt? forest q = some w → q < p → w ∈ views) (hp : IsFirst forest p)
    (hq : q <+: p) : IsFirst forest q := by
  intro a ha q' a' ha' hlt hname
  have hne : q ≠ p := by
    rintro rfl
    exact hp a ha q' a' ha' hlt hname
  obtain ⟨r, hr, rfl⟩ := exists_eq_append_of_ne hq hne
  have hqp : q < q ++ r := lt_append hr q
  obtain rfl : a' = a :=
    H.eq_of_name_eq (hadded q' a' ha' (hlt.trans hqp)) (hadded q a ha hqp) hname
  by_cases hpre : q' <+: q
  · obtain ⟨s, hs, rfl⟩ := exists_eq_append_of_ne hpre hlt.ne
    rw [viewAt?_append_of_some ha' hs] at ha
    exact lt_irrefl _ (sizeOf_lt_of_viewAt? ha)
  · refine hp v hv (q' ++ r) v ?_ (append_lt_append hlt hpre r r) rfl
    rw [viewAt?_append_of_some ha' hr, ← viewAt?_append_of_some ha hr, hv]

theorem mem_of_consistent (hc : ConsistentlyNamed forest) (h : viewAt? forest p = some v) :
    v ∈ views := by
  refine position_induction (P := fun _ v => v ∈ views) (fun p v hv ih => ?_) h
  by_cases hfirst : IsFirst forest p
  · exact ((H.first p v hv (fun q => H.isFirst_above hv ih hfirst) v).mpr rfl).1
  · simp only [IsFirst, not_forall] at hfirst
    obtain ⟨v', hv', q, w, hw, hlt, hname⟩ := hfirst
    obtain rfl : v = v' := Option.some.inj (hv.symm.trans hv')
    have hwv : w.name = v.name := not_not.mp hname
    have hpre : ¬ q <+: p := by
      intro hpre
      obtain ⟨r, hr, rfl⟩ := exists_eq_append_of_ne hpre hlt.ne
      exact H.name_ne_above hv hr hw ih hwv
    exact hc p q v w hv hw hwv.symm (not_isPrefix_of_lt hlt) hpre ▸ ih q w hw hlt

theorem not_hasCycle (hc : ConsistentlyNamed forest) : ¬ HasCycle forest := by
  rintro ⟨v, w, ⟨p, hv⟩, ⟨q, hw⟩, hname⟩
  have hq := ne_nil_of_viewAt? hw
  rw [← viewAt?_append_of_some hv hq] at hw
  exact H.name_ne_above hw hq hv (fun s u hu _ => H.mem_of_consistent hc hu) hname.symm

end DependencyOrder

/-- Cycles are reported as they are in the forest. If views of one name are the same unless one
lies inside of the other, none is missed. -/
theorem expandViews_cycle (subqueries : List Subquery) :
    (∀ c, expandViews subqueries = .error c →
      (∀ wording, (BuildError.cyclicViews c).message wording =
        "Circular view dependency: " ++ " -> ".intercalate c.names) ∧
      c.IsIn (rootViews subqueries)) ∧
    (ConsistentlyNamed (rootViews subqueries) →
      ((∃ c, expandViews subqueries = .error c) ↔ HasCycle (rootViews subqueries))) := by
  refine ⟨fun c h => ⟨fun _ => rfl, isIn_of_expandViews h⟩, fun hc => ⟨?_, fun hcycle => ?_⟩⟩
  · rintro ⟨c, h⟩
    exact (isIn_of_expandViews h).hasCycle
  · cases h : expandViews subqueries with
    | error c => exact ⟨c, rfl⟩
    | ok views =>
      exact absurd hcycle ((walks_of_expandViews h).dependencyOrder.not_hasCycle hc)

def plain : View := ⟨"plain", "SELECT 0", []⟩

/-- A view that depends on another of its name, and one that is asked for twice. -/
def looping : List Subquery :=
  [⟨"one", "o", "SELECT 1", .left, "TRUE", [], none,
    [plain, ⟨"a", "SELECT 1", [⟨"b", "SELECT 2", [plain, ⟨"a", "SELECT 3", []⟩]⟩]⟩]⟩]

theorem expandViews_cycle_of_looping :
    ConsistentlyNamed (rootViews looping) ∧ HasCycle (rootViews looping) ∧
      expandViews looping = .error ⟨["a", "b", "a"]⟩ ∧
      Cycle.IsIn (rootViews looping) ⟨["a", "b", "a"]⟩ := by
  have h : expandViews looping = .error ⟨["a", "b", "a"]⟩ := rfl
  have hat (p : List Nat) (v : View) (hp : viewAt? (rootViews looping) p = some v) :
      (p = [0] ∨ p = [1, 0, 0]) ∧ v = plain ∨ p = [1] ∧ v.name = "a" ∨ p = [1, 0] ∧ v.name = "b" ∨
        p = [1, 0, 1] ∧ v.name = "a" := by
    have hplain : plain.dependencies = [] := rfl
    simp only [rootViews, looping, List.flatMap_cons, List.flatMap_nil, List.append_nil,
      viewAt?_cons_eq_some_iff, hplain, viewAt?_no_roots, List.cons.injEq, reduceCtorEq, and_false,
      exists_false, or_false, false_or] at hp
    rcases hp with ⟨rfl, rfl⟩ | ⟨_, _, rfl, ⟨⟨h, rfl⟩, rfl⟩ | ⟨_, ⟨h, rfl⟩, hp⟩⟩
    · simp
    · simp_all
    · rcases hp with ⟨rfl, rfl⟩ | ⟨_, rfl, ⟨rfl, rfl⟩ | ⟨_, _, rfl, ⟨h, rfl⟩, rfl⟩⟩ <;> simp_all
  have hc : ConsistentlyNamed (rootViews looping) := by
    intro p q v w hp hq hname hpq hqp
    rcases hat p v hp with ⟨rfl | rfl, rfl⟩ | ⟨rfl, hv⟩ | ⟨rfl, hv⟩ | ⟨rfl, hv⟩ <;>
      rcases hat q w hq with ⟨rfl | rfl, rfl⟩ | ⟨rfl, hw⟩ | ⟨rfl, hw⟩ | ⟨rfl, hw⟩ <;>
      simp_all [plain]
  exact ⟨hc, ((expandViews_cycle looping).2 hc).mp ⟨_, h⟩, h, ((expandViews_cycle looping).1 _ h).2⟩

end SqlCompose
