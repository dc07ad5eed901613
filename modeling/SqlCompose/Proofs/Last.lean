/-!
# What was said last

Of items that speak of one thing the last one counts: that of a list which says something, after
which no other does (`lastSome?_eq_some_iff`). A default stands for the silence of all
(`lastSaid_iff`).
-/

namespace SqlCompose

variable {α β : Type} {f : α → Option β} {items : List α} {a : α} {b default : β}

/-- What the last of the items says that say something. -/
def lastSome? (f : α → Option β) (items : List α) : Option β := items.reverse.findSome? f

theorem lastSome?_cons : lastSome? f (a :: items) = (lastSome? f items).or (f a) := by
  simp [lastSome?, List.findSome?_append]

theorem lastSome?_eq_some_iff :
    lastSome? f items = some b ↔
      ∃ before a after, items = before ++ a :: after ∧ f a = some b ∧ ∀ x ∈ after, f x = none := by
  rw [lastSome?, List.findSome?_eq_some_iff]
  constructor
  · rintro ⟨after, a, before, hitems, ha, hafter⟩
    refine ⟨before.reverse, a, after.reverse, ?_, ha, by simpa using hafter⟩
    rw [← List.reverse_reverse items, hitems]
    simp
  · rintro ⟨before, a, after, rfl, ha, hafter⟩
    exact ⟨after.reverse, a, before.reverse, by simp, ha, by simpa using hafter⟩

theorem lastSome?_eq_none_iff : lastSome? f items = none ↔ ∀ a ∈ items, f a = none := by
  simp [lastSome?, List.findSome?_eq_none_iff]

/-- What the last item says that says something, or a default if none does. -/
inductive LastSaid (f : α → Option β) (items : List α) (default : β) : β → Prop
  | said {before later : List α} {a : α} {b : β} : items = before ++ a :: later → f a = some b →
    (∀ x ∈ later, f x = none) → LastSaid f items default b
  | unsaid : (∀ x ∈ items, f x = none) → LastSaid f items default default

theorem lastSaid_iff : LastSaid f items default b ↔ (lastSome? f items).getD default = b := by
  constructor
  · intro h
    cases h with
    | said hitems ha hlater =>
      rw [lastSome?_eq_some_iff.mpr ⟨_, _, _, hitems, ha, hlater⟩, Option.getD_some]
    | unsaid hnone => rw [lastSome?_eq_none_iff.mpr hnone, Option.getD_none]
  · rintro rfl
    cases h : lastSome? f items with
    | none => exact .unsaid (lastSome?_eq_none_iff.mp h)
    | some b =>
      obtain ⟨before, a, later, hitems, ha, hlater⟩ := lastSome?_eq_some_iff.mp h
      exact .said hitems ha hlater

end SqlCompose
