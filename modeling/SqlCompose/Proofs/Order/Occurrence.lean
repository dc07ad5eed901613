import SqlCompose.Order.Macro
import SqlCompose.Proofs.Scan

/-!
# Order macros in a text

A macro stands where its spelling does and a word ends right after it (`head?_eq_some_iff`). No
spelling is the beginning of the other, so what is found says which of the two stands there.
Expansion needs terms only for a text in which a macro occurs (`exists_expandOrder_iff`).
-/

namespace SqlCompose

namespace OrderMacro

theorem head?_eq_some_iff {s : List Char} {m : OrderMacro} {n : Nat} :
    head? s = some (m, n) ↔ n = m.spelling.toList.length ∧
      ∃ t, atWordEnd t ∧ s = m.spelling.toList ++ t := by
  constructor
  · intro h
    obtain ⟨m', hm', heq⟩ := Option.map_eq_some_iff.mp h
    obtain ⟨rfl, rfl⟩ := Prod.mk.inj heq
    have hhead := List.find?_some hm'
    simp only [Bool.and_eq_true, List.isPrefixOf_iff_prefix] at hhead
    obtain ⟨⟨t, rfl⟩, hend⟩ := hhead
    rw [← String.length_toList, List.drop_left] at hend
    exact ⟨String.length_toList.symm, t, hend, rfl⟩
  · rintro ⟨rfl, t, ht, rfl⟩
    have hself : (m.spelling.toList.isPrefixOf (m.spelling.toList ++ t) &&
        atWordEnd ((m.spelling.toList ++ t).drop m.spelling.length)) = true := by
      rw [← String.length_toList, List.drop_left, ht, Bool.and_true,
        List.isPrefixOf_iff_prefix]
      exact List.prefix_append _ _
    cases m with
    | backward => simp only [head?, List.find?_cons, hself, Option.map_some, String.length_toList]
    | forward =>
      have hother : backward.spelling.toList.isPrefixOf (forward.spelling.toList ++ t) = false :=
        rfl
      simp only [head?, List.find?_cons, hself, hother, Bool.false_and, Option.map_some,
        String.length_toList]

theorem spells : Spells head? (·.spelling.toList) := by
  intro s m n h
  obtain ⟨rfl, t, -, rfl⟩ := head?_eq_some_iff.mp h
  exact ⟨by cases m <;> decide, rfl, t, rfl⟩

/-- A macro stands somewhere in a text, and a word ends right after it. -/
def OccursIn (m : OrderMacro) (text : List Char) : Prop :=
  ∃ before after, atWordEnd after ∧ text = before ++ (m.spelling.toList ++ after)

theorem exists_occursIn_iff {text : List Char} :
    (∃ m, OccursIn m text) ↔ ∃ m, .found m ∈ pieces head? text := by
  rw [spells.exists_found_iff]
  constructor
  · rintro ⟨m, before, after, hend, rfl⟩
    exact ⟨before, m.spelling.toList ++ after, rfl,
      by rw [head?_eq_some_iff.mpr ⟨rfl, after, hend, rfl⟩]; rfl⟩
  · rintro ⟨before, s, rfl, hs⟩
    obtain ⟨⟨m, n⟩, hm⟩ := Option.isSome_iff_exists.mp hs
    obtain ⟨-, after, hend, rfl⟩ := head?_eq_some_iff.mp hm
    exact ⟨m, before, after, hend, rfl⟩

end OrderMacro

open OrderMacro

variable {terms : List String} {text : String}

theorem all_isNone_pieces_iff :
    (pieces OrderMacro.head? text.toList).all (·.found?.isNone) ↔
      ¬ ∃ m, OccursIn m text.toList := by
  rw [exists_occursIn_iff, List.all_eq_true]
  constructor
  · rintro h ⟨m, hm⟩
    simpa [Piece.found?] using h _ hm
  · intro h p hp
    cases p with
    | char c => rfl
    | found m => exact absurd ⟨m, hp⟩ h

theorem expandOrder_of_not_occursIn (h : ¬ ∃ m, OccursIn m text.toList) :
    expandOrder terms text = .ok text :=
  if_pos (all_isNone_pieces_iff.mpr h)

theorem expandOrder_of_occursIn (h : ∃ m, OccursIn m text.toList) :
    expandOrder terms text =
      if terms = [] then .error .noOrderTerms
      else .ok (String.ofList (fill (fun m => (m.expansion terms).toList)
        (pieces OrderMacro.head? text.toList))) := by
  unfold expandOrder
  rw [if_neg (mt all_isNone_pieces_iff.mp (not_not_intro h))]
  simp only [List.isEmpty_iff]

theorem expandOrder_eq_error_iff {e : BuildError} :
    expandOrder terms text = .error e ↔
      e = .noOrderTerms ∧ terms = [] ∧ ∃ m, OccursIn m text.toList := by
  by_cases h : ∃ m, OccursIn m text.toList
  · rw [expandOrder_of_occursIn h]
    by_cases hterms : terms = []
    · simp [hterms, h, eq_comm]
    · simp [hterms]
  · simp [expandOrder_of_not_occursIn h, h]

theorem exists_expandOrder_iff :
    (∃ out, expandOrder terms text = .ok out) ↔ ((∃ m, OccursIn m text.toList) → terms ≠ []) := by
  have hor : (∃ out, expandOrder terms text = .ok out) ↔
      ∀ e, expandOrder terms text ≠ .error e := by
    cases expandOrder terms text <;> simp
  rw [hor]
  constructor
  · exact fun h hm hterms => h _ (expandOrder_eq_error_iff.mpr ⟨rfl, hterms, hm⟩)
  · intro h e he
    obtain ⟨-, hterms, hm⟩ := expandOrder_eq_error_iff.mp he
    exact h hm hterms

end SqlCompose
