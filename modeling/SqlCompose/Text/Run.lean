/-!
Runs: a text cut at each place where a property of its characters begins or ends to hold.
-/

namespace SqlCompose

/-- The maximal runs of characters that agree on `p`. -/
def runs (p : Char → Bool) (s : List Char) : List (List Char) :=
  s.splitBy fun a b => p a == p b

variable {p : Char → Bool} {w t : List Char}

/-- A run ends at the first character without the property. -/
theorem takeWhile_run_append (hw : ∀ c ∈ w, p c) (ht : ∀ c ∈ t.head?, p c = false) :
    (w ++ t).takeWhile p = w := by
  rw [List.takeWhile_append_of_pos hw]
  cases t with
  | nil => simp
  | cons c t => simp [ht c rfl]

theorem head?_dropWhile_run (s : List Char) : ∀ c ∈ (s.dropWhile p).head?, p c = false := by
  intro c hc
  have := List.head?_dropWhile_not p s
  rw [Option.mem_def.mp hc] at this
  simpa using this

theorem exists_run_append (p : Char → Bool) (s : List Char) :
    ∃ w t, s = w ++ t ∧ (∀ c ∈ w, p c) ∧ ∀ c ∈ t.head?, p c = false :=
  ⟨s.takeWhile p, s.dropWhile p, List.takeWhile_append_dropWhile.symm,
    fun c hc => List.all_eq_true.mp List.all_takeWhile c hc, head?_dropWhile_run s⟩

end SqlCompose
