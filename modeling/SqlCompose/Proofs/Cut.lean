import SqlCompose.Proofs.Scan

/-!
# Texts cut at their marks

What counts as a mark of a text is said by its spelling and by what stands around it. Pieces cut a
text at its marks if a mark is found among them wherever one stands, and nothing else is (`Cuts`).
This can be done in one way at most (`Cuts.eq`), and scanning does it if no mark begins inside of
another (`Spells.cuts`).
-/

namespace SqlCompose

variable {α : Type} {spell : α → List Char} {ps qs : List (Piece α)} {before after : List Char}
  {a : α}

/-! ### Places of finds -/

/-- Among some pieces `a` is found, between the texts of those before it and of those after it. -/
def FoundAt (spell : α → List Char) (ps : List (Piece α)) (before : List Char) (a : α)
    (after : List Char) : Prop :=
  ∃ qs rs, ps = qs ++ .found a :: rs ∧ before = fill spell qs ∧ after = fill spell rs

theorem not_foundAt_nil : ¬ FoundAt spell [] before a after := by
  rintro ⟨qs, rs, h, -⟩
  simp at h

theorem foundAt_char_iff {c : Char} :
    FoundAt spell (.char c :: ps) before a after ↔
      ∃ before', before = c :: before' ∧ FoundAt spell ps before' a after := by
  constructor
  · rintro ⟨qs, rs, heq, rfl, rfl⟩
    cases qs with
    | nil => simp at heq
    | cons q qs =>
      obtain ⟨rfl, rfl⟩ := List.cons.inj heq
      exact ⟨fill spell qs, rfl, qs, rs, rfl, rfl, rfl⟩
  · rintro ⟨before', rfl, qs, rs, rfl, rfl, rfl⟩
    exact ⟨.char c :: qs, rs, rfl, rfl, rfl⟩

theorem foundAt_chars_append_iff {w : List Char} :
    FoundAt spell (w.map .char ++ ps) before a after ↔
      ∃ before', before = w ++ before' ∧ FoundAt spell ps before' a after := by
  induction w generalizing before with
  | nil => simp
  | cons c w ih =>
    rw [List.map_cons, List.cons_append, foundAt_char_iff]
    constructor
    · rintro ⟨before', rfl, h⟩
      obtain ⟨before'', rfl, h'⟩ := ih.mp h
      exact ⟨before'', rfl, h'⟩
    · rintro ⟨before', rfl, h⟩
      exact ⟨w ++ before', rfl, ih.mpr ⟨before', rfl, h⟩⟩

theorem foundAt_found_iff {b : α} :
    FoundAt spell (.found b :: ps) before a after ↔
      (before = [] ∧ a = b ∧ after = fill spell ps) ∨
        ∃ before', before = spell b ++ before' ∧ FoundAt spell ps before' a after := by
  constructor
  · rintro ⟨qs, rs, heq, rfl, rfl⟩
    cases qs with
    | nil =>
      obtain ⟨hab, rfl⟩ := List.cons.inj heq
      exact .inl ⟨rfl, (Piece.found.inj hab).symm, rfl⟩
    | cons q qs =>
      obtain ⟨rfl, rfl⟩ := List.cons.inj heq
      exact .inr ⟨fill spell qs, rfl, qs, rs, rfl, rfl, rfl⟩
  · rintro (⟨rfl, rfl, rfl⟩ | ⟨before', rfl, qs, rs, rfl, rfl, rfl⟩)
    · exact ⟨[], ps, rfl, rfl, rfl⟩
    · exact ⟨.found b :: qs, rs, rfl, rfl, rfl⟩

theorem exists_foundAt_iff : (∃ before after, FoundAt spell ps before a after) ↔ .found a ∈ ps := by
  rw [List.mem_iff_append]
  constructor
  · rintro ⟨_, _, qs, rs, h, -, -⟩
    exact ⟨qs, rs, h⟩
  · rintro ⟨qs, rs, h⟩
    exact ⟨_, _, qs, rs, h, rfl, rfl⟩

/-- Pieces are known by their text and by the places of what is found in it. -/
theorem eq_of_foundAt_iff (hne : ∀ a, spell a ≠ []) (hfill : fill spell ps = fill spell qs)
    (h : ∀ before a after, FoundAt spell ps before a after ↔ FoundAt spell qs before a after) :
    ps = qs := by
  induction ps generalizing qs with
  | nil =>
    match qs with
    | [] => rfl
    | .char c :: qs => simp at hfill
    | .found b :: qs => simp [hne] at hfill
  | cons p ps ih =>
    match p, qs with
    | .char c, [] => simp at hfill
    | .found b, [] => simp [hne] at hfill
    | .char c, .char d :: qs =>
      rw [fill_char, fill_char, List.cons.injEq] at hfill
      obtain ⟨rfl, htail⟩ := hfill
      refine congrArg _ (ih htail fun before a after => ?_)
      simpa [foundAt_char_iff] using h (c :: before) a after
    | .char c, .found b :: qs =>
      have := (h [] b (fill spell qs)).mpr (foundAt_found_iff.mpr (.inl ⟨rfl, rfl, rfl⟩))
      simp [foundAt_char_iff] at this
    | .found b, .char c :: qs =>
      have := (h [] b (fill spell ps)).mp (foundAt_found_iff.mpr (.inl ⟨rfl, rfl, rfl⟩))
      simp [foundAt_char_iff] at this
    | .found b, .found b' :: qs =>
      have hb := (h [] b (fill spell ps)).mp (foundAt_found_iff.mpr (.inl ⟨rfl, rfl, rfl⟩))
      obtain ⟨rfl, htail⟩ : b = b' ∧ fill spell ps = fill spell qs := by
        simpa [foundAt_found_iff, hne] using hb
      refine congrArg _ (ih htail fun before a after => ?_)
      simpa [foundAt_found_iff, hne] using h (spell b ++ before) a after

/-! ### Cuts -/

/-- Pieces that spell a text and in which each of its marks is found, and nothing else. A mark is
told from other places where it is spelled by the texts before and after it. -/
structure Cuts (spell : α → List Char) (IsMark : List Char → α → List Char → Prop)
    (ps : List (Piece α)) (text : List Char) : Prop where
  fill_eq : fill spell ps = text
  foundAt_iff : ∀ before a after, FoundAt spell ps before a after ↔
    text = before ++ (spell a ++ after) ∧ IsMark before a after

variable {IsMark : List Char → α → List Char → Prop} {text : List Char}

theorem Cuts.eq (hne : ∀ a, spell a ≠ []) (hps : Cuts spell IsMark ps text)
    (hqs : Cuts spell IsMark qs text) : ps = qs :=
  eq_of_foundAt_iff hne (hps.fill_eq.trans hqs.fill_eq.symm) fun before a after =>
    (hps.foundAt_iff before a after).trans (hqs.foundAt_iff before a after).symm

theorem Cuts.mem_iff (h : Cuts spell IsMark ps text) :
    .found a ∈ ps ↔
      ∃ before after, text = before ++ (spell a ++ after) ∧ IsMark before a after := by
  rw [← @exists_foundAt_iff α spell]
  simp only [h.foundAt_iff]

/-- A text is cut by scanning it, if nothing is found at a place inside of a find. -/
theorem Spells.cuts {head? : List Char → Option (α × Nat)} (H : Spells head? spell)
    (hinside : ∀ a u c v t, spell a = u ++ c :: v → u ≠ [] → head? (c :: v ++ t) = none)
    (text : List Char) :
    Cuts spell (fun _ a after => head? (spell a ++ after) = some (a, (spell a).length))
      (pieces head? text) text := by
  refine ⟨H.fill_pieces text, ?_⟩
  refine H.induction (motive := fun s ps => ∀ before a after, FoundAt spell ps before a after ↔
    s = before ++ (spell a ++ after) ∧ head? (spell a ++ after) = some (a, (spell a).length))
    ?_ ?_ ?_ text
  · intro before a after
    refine iff_of_false not_foundAt_nil ?_
    rintro ⟨heq, ha⟩
    simp [H.ne_nil ha] at heq
  · intro c s hc ih before a after
    rw [foundAt_char_iff]
    constructor
    · rintro ⟨before', rfl, h⟩
      obtain ⟨rfl, ha⟩ := (ih before' a after).mp h
      exact ⟨rfl, ha⟩
    · rintro ⟨heq, ha⟩
      cases before with
      | nil =>
        rw [List.nil_append] at heq
        rw [← heq, hc] at ha
        contradiction
      | cons d before =>
        obtain ⟨rfl, rfl⟩ := List.cons.inj heq
        exact ⟨before, rfl, (ih before a after).mpr ⟨rfl, ha⟩⟩
  · intro b t hb ih before a after
    rw [foundAt_found_iff, H.fill_pieces]
    constructor
    · rintro (⟨rfl, rfl, rfl⟩ | ⟨before', rfl, h⟩)
      · exact ⟨rfl, hb⟩
      · obtain ⟨rfl, ha⟩ := (ih before' a after).mp h
        exact ⟨(List.append_assoc ..).symm, ha⟩
    · rintro ⟨heq, ha⟩
      rcases List.append_eq_append_iff.mp heq with ⟨u, rfl, rfl⟩ | ⟨u, hu, hrest⟩
      · exact .inr ⟨u, rfl, (ih u a after).mpr ⟨rfl, ha⟩⟩
      · cases before with
        | nil =>
          rw [List.nil_append] at heq
          rw [← heq, hb] at ha
          obtain rfl : b = a := (Prod.mk.inj (Option.some.inj ha)).1
          exact .inl ⟨rfl, rfl, (List.append_cancel_left heq).symm⟩
        | cons d before =>
          cases u with
          | nil =>
            refine .inr ⟨[], by simp [hu], (ih [] a after).mpr ⟨by simpa using hrest.symm, ha⟩⟩
          | cons c v =>
            rw [hrest, hinside b _ c v t hu (List.cons_ne_nil _ _)] at ha
            contradiction

end SqlCompose
