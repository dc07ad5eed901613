import Mathlib.Data.List.Lex
import Mathlib.Order.WellFoundedSet
import SqlCompose.Expansion

/-!
# Positions in a forest of views

A position says which of the roots to take, then on each level which of the dependencies. Its
proper beginnings are the positions of the views above. The lexicographic order of positions is
the pre-order of the forest: a view stands before its dependencies, and these before what comes
after the view. A forest has finitely many positions, so facts about them can be proved along this
order (`position_induction`).
-/

namespace SqlCompose

/-- The view at a position. -/
def viewAt? : List View → List Nat → Option View
  | _, [] => none
  | vs, [i] => vs[i]?
  | vs, i :: j :: p => vs[i]?.bind fun v => viewAt? v.dependencies (j :: p)

/-- A view stands somewhere in a forest. -/
def Occurs (forest : List View) (v : View) : Prop := ∃ p, viewAt? forest p = some v

variable {vs : List View} {u v w : View} {i j : Nat} {p q r : List Nat}

@[simp] theorem viewAt?_nil (vs : List View) : viewAt? vs [] = none := by
  cases vs <;> rfl

@[simp] theorem viewAt?_no_roots (p : List Nat) : viewAt? [] p = none :=
  match p with
  | [] | [_] | _ :: _ :: _ => rfl

@[simp] theorem viewAt?_singleton (vs : List View) (i : Nat) : viewAt? vs [i] = vs[i]? := by
  cases vs <;> rfl

theorem viewAt?_cons (hp : p ≠ []) (vs : List View) (i : Nat) :
    viewAt? vs (i :: p) = vs[i]?.bind fun v => viewAt? v.dependencies p := by
  obtain ⟨j, p, rfl⟩ := List.exists_cons_of_ne_nil hp
  cases vs <;> rfl

theorem ne_nil_of_viewAt? (h : viewAt? vs p = some v) : p ≠ [] := by
  rintro rfl
  simp at h

theorem viewAt?_root (v : View) (vs : List View) : viewAt? (v :: vs) [0] = some v := by simp

theorem viewAt?_below (hp : p ≠ []) (v : View) (vs : List View) :
    viewAt? (v :: vs) (0 :: p) = viewAt? v.dependencies p := by
  simp [viewAt?_cons hp]

theorem viewAt?_after (v : View) (vs : List View) (i : Nat) (p : List Nat) :
    viewAt? (v :: vs) ((i + 1) :: p) = viewAt? vs (i :: p) := by
  by_cases hp : p = []
  · simp [hp]
  · simp [viewAt?_cons hp]

theorem viewAt?_append (hp : p ≠ []) (hq : q ≠ []) (vs : List View) :
    viewAt? vs (p ++ q) = (viewAt? vs p).bind fun v => viewAt? v.dependencies q := by
  induction p generalizing vs with
  | nil => contradiction
  | cons i p ih =>
    by_cases hp : p = []
    · simp [hp, viewAt?_cons hq]
    · have hpq : p ++ q ≠ [] := by simp [hp]
      rw [List.cons_append, viewAt?_cons hpq, viewAt?_cons hp, Option.bind_assoc]
      exact Option.bind_congr fun v _ => ih hp v.dependencies

theorem viewAt?_append_of_some (h : viewAt? vs p = some v) (hq : q ≠ []) :
    viewAt? vs (p ++ q) = viewAt? v.dependencies q := by
  rw [viewAt?_append (ne_nil_of_viewAt? h) hq, h]
  rfl

/-- What stands in the first tree of a forest, by the two parts of the tree, or after it. -/
theorem viewAt?_cons_eq_some_iff :
    viewAt? (v :: vs) p = some w ↔ (p = [0] ∧ w = v) ∨
      (∃ q, p = 0 :: q ∧ viewAt? v.dependencies q = some w) ∨
      ∃ i q, p = (i + 1) :: q ∧ viewAt? vs (i :: q) = some w := by
  constructor
  · intro h
    cases p with
    | nil => simp at h
    | cons i p =>
      cases i with
      | succ i => exact .inr (.inr ⟨i, p, rfl, by rw [← viewAt?_after, h]⟩)
      | zero =>
        by_cases hp : p = []
        · subst hp
          rw [viewAt?_root] at h
          exact .inl ⟨rfl, (Option.some.inj h).symm⟩
        · exact .inr (.inl ⟨p, rfl, by rw [← viewAt?_below hp, h]⟩)
  · rintro (⟨rfl, rfl⟩ | ⟨q, rfl, h⟩ | ⟨i, q, rfl, h⟩)
    · exact viewAt?_root w vs
    · rw [viewAt?_below (ne_nil_of_viewAt? h), h]
    · rw [viewAt?_after, h]

/-! ### Occurrence -/

@[simp] theorem not_occurs_nil : ¬ Occurs [] v := by simp [Occurs]

theorem occurs_cons_iff :
    Occurs (v :: vs) w ↔ w = v ∨ Occurs v.dependencies w ∨ Occurs vs w := by
  constructor
  · rintro ⟨p, h⟩
    rcases viewAt?_cons_eq_some_iff.mp h with ⟨-, rfl⟩ | ⟨q, -, hq⟩ | ⟨i, q, -, hq⟩
    · exact .inl rfl
    · exact .inr (.inl ⟨q, hq⟩)
    · exact .inr (.inr ⟨i :: q, hq⟩)
  · rintro (rfl | ⟨q, hq⟩ | ⟨p, hp⟩)
    · exact ⟨[0], viewAt?_root w vs⟩
    · exact ⟨0 :: q, by rw [viewAt?_below (ne_nil_of_viewAt? hq), hq]⟩
    · obtain ⟨i, q, rfl⟩ := List.exists_cons_of_ne_nil (ne_nil_of_viewAt? hp)
      exact ⟨(i + 1) :: q, by rw [viewAt?_after, hp]⟩

theorem Occurs.of_mem (h : v ∈ vs) : Occurs vs v := by
  obtain ⟨i, hi⟩ := List.mem_iff_getElem?.mp h
  exact ⟨[i], by simpa using hi⟩

theorem Occurs.below (h : Occurs vs v) (hw : Occurs v.dependencies w) : Occurs vs w := by
  obtain ⟨p, hp⟩ := h
  obtain ⟨q, hq⟩ := hw
  exact ⟨p ++ q, by rw [viewAt?_append_of_some hp (ne_nil_of_viewAt? hq), hq]⟩

theorem sizeOf_dependencies_lt (v : View) : sizeOf v.dependencies < sizeOf v := by
  cases v
  simp only [View.mk.sizeOf_spec]
  omega

theorem sizeOf_dependency_lt (h : w ∈ v.dependencies) : sizeOf w < sizeOf v :=
  (List.sizeOf_lt_of_mem h).trans (sizeOf_dependencies_lt v)

/-- No view stands below itself. -/
theorem sizeOf_lt_of_viewAt? (h : viewAt? v.dependencies q = some w) : sizeOf w < sizeOf v := by
  induction q generalizing v with
  | nil => simp at h
  | cons i q ih =>
    by_cases hq : q = []
    · subst hq
      rw [viewAt?_singleton] at h
      exact sizeOf_dependency_lt (List.mem_of_getElem? h)
    · rw [viewAt?_cons hq] at h
      obtain ⟨u, hu, hw⟩ := Option.bind_eq_some_iff.mp h
      exact (ih hw).trans (sizeOf_dependency_lt (List.mem_of_getElem? hu))

/-! ### Order of positions -/

theorem lt_append (hq : q ≠ []) (p : List Nat) : p < p ++ q := by
  obtain ⟨i, q, rfl⟩ := List.exists_cons_of_ne_nil hq
  have h : p ++ [] < p ++ i :: q := List.append_left_lt (List.nil_lt_cons i q)
  rwa [List.append_nil] at h

theorem exists_eq_append_of_ne (hpre : q <+: p) (hne : q ≠ p) : ∃ r, r ≠ [] ∧ p = q ++ r := by
  obtain ⟨r, rfl⟩ := hpre
  refine ⟨r, ?_, rfl⟩
  rintro rfl
  exact hne (List.append_nil q).symm

theorem not_isPrefix_of_lt (hlt : q < p) : ¬ p <+: q := by
  intro hpre
  obtain ⟨r, hr, rfl⟩ := exists_eq_append_of_ne hpre hlt.ne'
  exact lt_asymm hlt (lt_append hr p)

/-- Of two positions neither of which lies below the other, all below the one come before all
below the other. -/
theorem append_lt_append (h : q < p) (hpre : ¬ q <+: p) (r r' : List Nat) : q ++ r < p ++ r' := by
  induction q generalizing p with
  | nil => exact absurd (List.nil_prefix) hpre
  | cons i q ih =>
    cases p with
    | nil => exact absurd h (List.not_lt_nil _)
    | cons j p =>
      rw [List.cons_append, List.cons_append, List.cons_lt_cons_iff]
      rcases List.cons_lt_cons_iff.mp h with hij | ⟨rfl, hqp⟩
      · exact .inl hij
      · exact .inr ⟨rfl, ih hqp fun hp => hpre (List.cons_prefix_cons.mpr ⟨rfl, hp⟩)⟩

theorem finite_positions (vs : List View) : {p | (viewAt? vs p).isSome}.Finite := by
  induction hn : sizeOf vs using Nat.strongRecOn generalizing vs with
  | _ n ih =>
    subst hn
    -- Below each root there are finitely many positions.
    have hroot : ∀ i ∈ Finset.range vs.length,
        {p | ∃ q, p = i :: q ∧ (viewAt? vs p).isSome}.Finite := by
      intro i hi
      rw [Finset.mem_range] at hi
      have hlt : sizeOf vs[i].dependencies < sizeOf vs :=
        (sizeOf_dependencies_lt _).trans (List.sizeOf_lt_of_mem (List.getElem_mem hi))
      refine (((ih _ hlt _ rfl).image (i :: ·)).insert [i]).subset ?_
      rintro p ⟨q, rfl, hq⟩
      by_cases hnil : q = []
      · exact .inl (by rw [hnil])
      · refine .inr ⟨q, ?_, rfl⟩
        simpa [viewAt?_cons hnil, hi] using hq
    refine ((Finset.range vs.length).finite_toSet.biUnion hroot).subset ?_
    intro p hp
    obtain ⟨v, hv⟩ := Option.isSome_iff_exists.mp hp
    obtain ⟨i, q, rfl⟩ := List.exists_cons_of_ne_nil (ne_nil_of_viewAt? hv)
    have hi : i < vs.length := by
      by_contra hi
      have hnone : vs[i]? = none := by simpa using hi
      by_cases hq : q = []
      · simp [hq, hnone] at hv
      · simp [viewAt?_cons hq, hnone] at hv
    exact Set.mem_biUnion (Finset.mem_coe.mpr (Finset.mem_range.mpr hi)) ⟨q, rfl, hp⟩

/-- Induction along the pre-order of a forest. -/
theorem position_induction {P : List Nat → View → Prop}
    (step : ∀ p v, viewAt? vs p = some v →
      (∀ q w, viewAt? vs q = some w → q < p → P q w) → P p v)
    (h : viewAt? vs p = some v) : P p v := by
  have hwf := (finite_positions vs).wellFoundedOn (r := (· < ·))
  have hall : ∀ v, viewAt? vs p = some v → P p v := by
    refine hwf.induction (x := p) (P := fun p => ∀ v, viewAt? vs p = some v → P p v)
      (by simp [h]) ?_
    intro p _ ih v hv
    exact step p v hv fun q w hq hlt => ih q (by simp [hq]) hlt w hq
  exact hall v h

end SqlCompose
