import SqlCompose.Text.Scan

/-!
# Texts cut at what is found in them

A scanner is given by what it finds at the head of a text. If all that it finds stands there as a
fixed spelling (`Spells`), the pieces of a text spell that text (`fill_pieces`), and facts about
texts and their pieces are proved piece by piece (`Spells.induction`).

The pieces are also a list of gaps around a list of finds. A text woven of gaps and marks falls into
these again, if nothing is found inside of a gap (`pieces_weave`).
-/

namespace SqlCompose

variable {α : Type} {head? : List Char → Option (α × Nat)} {spell : α → List Char}

/-! ### Gaps -/

/-- Gaps and marks in turn, from the first gap. -/
def weave : List (List Char) → List (List Char) → List Char
  | gap :: gaps, mark :: marks => gap ++ mark ++ weave gaps marks
  | gaps, _ => gaps.flatten

@[simp] theorem weave_nil_marks (gaps : List (List Char)) : weave gaps [] = gaps.flatten := by
  cases gaps <;> rfl

@[simp] theorem weave_cons (gap mark : List Char) (gaps marks : List (List Char)) :
    weave (gap :: gaps) (mark :: marks) = gap ++ mark ++ weave gaps marks := rfl

theorem weave_cons_char (c : Char) (gap : List Char) (gaps marks : List (List Char)) :
    weave ((c :: gap) :: gaps) marks = c :: weave (gap :: gaps) marks := by
  cases marks <;> simp

/-- What stands before, between and after the finds. -/
def gaps : List (Piece α) → List (List Char)
  | [] => [[]]
  | .char c :: ps => (gaps ps).modifyHead (c :: ·)
  | .found _ :: ps => [] :: gaps ps

/-- What is found, in order. -/
def finds (ps : List (Piece α)) : List α := ps.filterMap Piece.found?

@[simp] theorem finds_nil : finds ([] : List (Piece α)) = [] := rfl

@[simp] theorem finds_char (c : Char) (ps : List (Piece α)) : finds (.char c :: ps) = finds ps := rfl

@[simp] theorem finds_found (a : α) (ps : List (Piece α)) :
    finds (.found a :: ps) = a :: finds ps := rfl

@[simp] theorem finds_append (ps qs : List (Piece α)) : finds (ps ++ qs) = finds ps ++ finds qs :=
  List.filterMap_append

@[simp] theorem finds_chars (s : List Char) : finds (s.map .char : List (Piece α)) = [] := by
  induction s with
  | nil => rfl
  | cons c s ih => exact ih

theorem finds_pieces (s : List Char) : finds (pieces head? s) = occurrences head? s := rfl

theorem length_gaps (ps : List (Piece α)) : (gaps ps).length = (finds ps).length + 1 := by
  induction ps with
  | nil => rfl
  | cons p ps ih => cases p <;> simp [gaps, ih]

theorem gaps_ne_nil (ps : List (Piece α)) : gaps ps ≠ [] := by
  intro h
  have := length_gaps ps
  simp [h] at this

theorem weave_gaps_char (c : Char) (ps : List (Piece α)) (marks : List (List Char)) :
    weave (gaps (.char c :: ps)) marks = c :: weave (gaps ps) marks := by
  obtain ⟨gap, rest, h⟩ := List.exists_cons_of_ne_nil (gaps_ne_nil ps)
  simp only [gaps, h, List.modifyHead_cons, weave_cons_char]

theorem fill_append (f : α → List Char) (ps qs : List (Piece α)) :
    fill f (ps ++ qs) = fill f ps ++ fill f qs :=
  List.flatMap_append

@[simp] theorem fill_chars (f : α → List Char) (s : List Char) : fill f (s.map .char) = s := by
  induction s with
  | nil => rfl
  | cons c s ih => rw [List.map_cons, fill_char, ih]

theorem fill_congr {f g : α → List Char} {ps : List (Piece α)}
    (h : ∀ a, .found a ∈ ps → f a = g a) : fill f ps = fill g ps := by
  induction ps with
  | nil => rfl
  | cons p ps ih =>
    have ih := ih fun a ha => h a (List.mem_cons_of_mem _ ha)
    cases p with
    | char c => rw [fill_char, fill_char, ih]
    | found a => rw [fill_found, fill_found, ih, h a List.mem_cons_self]

theorem mem_fill_iff {f : α → List Char} {ps : List (Piece α)} {c : Char} :
    c ∈ fill f ps ↔ .char c ∈ ps ∨ ∃ a, .found a ∈ ps ∧ c ∈ f a := by
  rw [fill, List.mem_flatMap]
  constructor
  · rintro ⟨d | a, hp, hc⟩
    · obtain rfl := List.mem_singleton.mp hc
      exact .inl hp
    · exact .inr ⟨a, hp, hc⟩
  · rintro (hp | ⟨a, hp, hc⟩)
    · exact ⟨.char c, hp, List.mem_singleton_self c⟩
    · exact ⟨.found a, hp, hc⟩

/-- A find is passed over as a whole. -/
theorem pieces_found_append {a : α} {w t : List Char} (hw : w ≠ [])
    (h : head? (w ++ t) = some (a, w.length)) :
    pieces head? (w ++ t) = .found a :: pieces head? t := by
  obtain ⟨c, w, rfl⟩ := List.exists_cons_of_ne_nil hw
  rw [List.cons_append] at h
  rw [List.cons_append, pieces_cons_of_some h]
  simp

/-- Where nothing is found before `t`, the characters stand for themselves. -/
theorem pieces_chars_append {g t : List Char}
    (h : ∀ u c v, g = u ++ c :: v → head? (c :: v ++ t) = none) :
    pieces head? (g ++ t) = g.map .char ++ pieces head? t := by
  induction g with
  | nil => rfl
  | cons c g ih =>
    have hc := h [] c g rfl
    rw [List.cons_append] at hc
    rw [List.cons_append, pieces_cons_of_none hc,
      ih fun u d v hg => h (c :: u) d v (by rw [hg, List.cons_append])]
    rfl

/-! ### Spelled finds -/

/-- All that `head?` finds stands at the head of a text as `spell` writes it. -/
def Spells (head? : List Char → Option (α × Nat)) (spell : α → List Char) : Prop :=
  ∀ ⦃s a n⦄, head? s = some (a, n) → 0 < n ∧ n = (spell a).length ∧ ∃ t, s = spell a ++ t

namespace Spells

variable (H : Spells head? spell)
include H

theorem ne_nil {a : α} {s : List Char} {n : Nat} (h : head? s = some (a, n)) : spell a ≠ [] := by
  obtain ⟨hpos, rfl, -⟩ := H h
  exact List.ne_nil_of_length_pos hpos

theorem pieces_found {a : α} {t : List Char}
    (h : head? (spell a ++ t) = some (a, (spell a).length)) :
    pieces head? (spell a ++ t) = .found a :: pieces head? t :=
  pieces_found_append (H.ne_nil h) h

/-- Induction on a text along its pieces. -/
theorem induction {motive : List Char → List (Piece α) → Prop} (nil : motive [] [])
    (char : ∀ c s, head? (c :: s) = none → motive s (pieces head? s) →
      motive (c :: s) (.char c :: pieces head? s))
    (found : ∀ a t, head? (spell a ++ t) = some (a, (spell a).length) →
      motive t (pieces head? t) → motive (spell a ++ t) (.found a :: pieces head? t))
    (s : List Char) : motive s (pieces head? s) := by
  induction hl : s.length using Nat.strongRecOn generalizing s with
  | _ l ih =>
    subst hl
    cases s with
    | nil => exact nil
    | cons c s =>
      cases h : head? (c :: s) with
      | none =>
        rw [pieces_cons_of_none h]
        exact char c s h (ih s.length (by simp) s rfl)
      | some found? =>
        obtain ⟨a, n⟩ := found?
        obtain ⟨hpos, rfl, t, ht⟩ := H h
        rw [ht] at h ⊢
        rw [H.pieces_found h]
        refine found a t h (ih t.length ?_ t rfl)
        have := congrArg List.length ht
        simp only [List.length_append] at this
        omega

/-- Nothing of a text is lost in its pieces. -/
theorem fill_pieces (s : List Char) : fill spell (pieces head? s) = s := by
  refine H.induction (motive := fun s ps => fill spell ps = s) rfl ?_ ?_ s
  · intro c s _ ih
    rw [fill_char, ih]
  · intro a t _ ih
    rw [fill_found, ih]

/-- A text is scanned on its own if no more is found with what follows it. -/
theorem pieces_append {t : List Char} (ht : ∀ c s, head? (c :: s ++ t) = head? (c :: s))
    (s : List Char) : pieces head? (s ++ t) = pieces head? s ++ pieces head? t := by
  refine H.induction (motive := fun s ps => pieces head? (s ++ t) = ps ++ pieces head? t)
    rfl ?_ ?_ s
  · intro c s h ih
    rw [List.cons_append, pieces_cons_of_none (by rw [← List.cons_append, ht, h]), ih,
      List.cons_append]
  · intro a s h ih
    have h' : head? (spell a ++ (s ++ t)) = some (a, (spell a).length) := by
      obtain ⟨c, w, hw⟩ := List.exists_cons_of_ne_nil (H.ne_nil h)
      rw [← List.append_assoc, hw, List.cons_append, ht, ← List.cons_append, ← hw, h]
    rw [List.append_assoc, H.pieces_found h', ih, List.cons_append]

/-- Something is found in a text as soon as it stands at the head of what follows a place in it. -/
theorem exists_found_iff (s : List Char) :
    (∃ a, .found a ∈ pieces head? s) ↔ ∃ before after, s = before ++ after ∧ (head? after).isSome := by
  refine H.induction (motive := fun s ps =>
    (∃ a, .found a ∈ ps) ↔ ∃ before after, s = before ++ after ∧ (head? after).isSome) ?_ ?_ ?_ s
  · constructor
    · rintro ⟨a, ha⟩
      simp at ha
    · rintro ⟨before, after, heq, h⟩
      obtain ⟨rfl, rfl⟩ := List.append_eq_nil_iff.mp heq.symm
      obtain ⟨⟨a, n⟩, ha⟩ := Option.isSome_iff_exists.mp h
      obtain ⟨hpos, hn, t, ht⟩ := H ha
      simp only [List.nil_eq, List.append_eq_nil_iff] at ht
      simp [ht.1] at hn
      omega
  · intro c s h ih
    constructor
    · rintro ⟨a, ha⟩
      obtain ⟨before, after, rfl, hf⟩ := ih.mp ⟨a, by simpa using ha⟩
      exact ⟨c :: before, after, rfl, hf⟩
    · rintro ⟨before, after, heq, hf⟩
      cases before with
      | nil =>
        rw [List.nil_append] at heq
        rw [← heq, h] at hf
        contradiction
      | cons d before =>
        obtain ⟨rfl, rfl⟩ := List.cons.inj heq
        obtain ⟨a, ha⟩ := ih.mpr ⟨before, after, rfl, hf⟩
        exact ⟨a, List.mem_cons_of_mem _ ha⟩
  · intro a t h _
    exact ⟨fun _ => ⟨[], spell a ++ t, rfl, by rw [h]; rfl⟩, fun _ => ⟨a, List.mem_cons_self⟩⟩

end Spells

/-! ### Woven texts -/

theorem count_weave (c : Char) {gs ms : List (List Char)} (h : gs.length = ms.length + 1) :
    (weave gs ms).count c = gs.flatten.count c + ms.flatten.count c := by
  induction ms generalizing gs with
  | nil => simp
  | cons m ms ih =>
    obtain ⟨g, gs, rfl⟩ := List.exists_cons_of_length_eq_add_one h
    simp only [weave_cons, List.count_append, List.flatten_cons, ih (by simpa using h)]
    omega

theorem infix_weave {g : List Char} {gs ms : List (List Char)} (hlen : gs.length = ms.length + 1)
    (hg : g ∈ gs) : g <:+: weave gs ms := by
  induction ms generalizing gs with
  | nil =>
    rw [weave_nil_marks]
    obtain ⟨g', rfl⟩ := List.length_eq_one_iff.mp hlen
    obtain rfl := List.mem_singleton.mp hg
    simp
  | cons m ms ih =>
    obtain ⟨g', gs, rfl⟩ := List.exists_cons_of_length_eq_add_one hlen
    rw [weave_cons]
    rcases List.mem_cons.mp hg with rfl | hg
    · rw [List.append_assoc]
      exact (List.prefix_append _ _).isInfix
    · exact (ih (by simpa using hlen) hg).trans (List.suffix_append _ _).isInfix

/-- The pieces of gaps and finds in turn. -/
def spread : List (List Char) → List α → List (Piece α)
  | gap :: gaps, a :: as => gap.map .char ++ .found a :: spread gaps as
  | gaps, _ => gaps.flatten.map .char

theorem finds_spread {gs : List (List Char)} {as : List α} (h : gs.length = as.length + 1) :
    finds (spread gs as) = as := by
  induction as generalizing gs with
  | nil => cases gs <;> exact finds_chars _
  | cons a as ih =>
    obtain ⟨g, gs, rfl⟩ := List.exists_cons_of_length_eq_add_one h
    simp [spread, ih (by simpa using h)]

theorem gaps_chars_append (g : List Char) (ps : List (Piece α)) :
    gaps (g.map .char ++ ps) = (gaps ps).modifyHead (g ++ ·) := by
  obtain ⟨gap, rest, h⟩ := List.exists_cons_of_ne_nil (gaps_ne_nil ps)
  induction g with
  | nil => simp [h]
  | cons c g ih => simp [gaps, ih, h]

theorem gaps_spread {gs : List (List Char)} {as : List α} (h : gs.length = as.length + 1) :
    gaps (spread gs as) = gs := by
  induction as generalizing gs with
  | nil =>
    obtain ⟨g, rfl⟩ := List.length_eq_one_iff.mp h
    simpa [spread, gaps] using gaps_chars_append g ([] : List (Piece α))
  | cons a as ih =>
    obtain ⟨g, gs, rfl⟩ := List.exists_cons_of_length_eq_add_one h
    simp [spread, gaps_chars_append, gaps, ih (by simpa using h)]

/-- What stands after a gap: nothing, or the spelling of one of `as` and more. -/
def Resumes (spell : α → List Char) (as : List α) (t : List Char) : Prop :=
  t = [] ∨ ∃ a ∈ as, ∃ t', t = spell a ++ t'

theorem weave_cons_eq_append (spell : α → List Char) (g : List Char) {gs : List (List Char)}
    {as : List α} (h : gs.length = as.length) :
    ∃ t, Resumes spell as t ∧ weave (g :: gs) (as.map spell) = g ++ t := by
  cases as with
  | nil =>
    obtain rfl := List.length_eq_zero_iff.mp h
    exact ⟨[], .inl rfl, by simp⟩
  | cons a as =>
    exact ⟨_, .inr ⟨a, List.mem_cons_self, weave gs (as.map spell), rfl⟩, by simp⟩

/-- A woven text falls into its gaps and marks again, if nothing is found inside of a gap and what
follows a mark does not change it. -/
theorem pieces_weave {gs : List (List Char)} {as : List α} (hlen : gs.length = as.length + 1)
    (hne : ∀ a ∈ as, spell a ≠ [])
    (hgap : ∀ g ∈ gs, ∀ u c v t, g = u ++ c :: v → Resumes spell as t → head? (c :: v ++ t) = none)
    (hmark : ∀ a ∈ as, ∀ g ∈ gs.tail, ∀ t, Resumes spell as t →
      head? (spell a ++ (g ++ t)) = some (a, (spell a).length)) :
    pieces head? (weave gs (as.map spell)) = spread gs as := by
  induction as generalizing gs with
  | nil =>
    obtain ⟨g, rfl⟩ := List.length_eq_one_iff.mp hlen
    have hg : pieces head? (g ++ []) = g.map .char ++ pieces head? [] :=
      pieces_chars_append fun u c v hg => hgap g (by simp) u c v [] hg (.inl rfl)
    simpa [spread] using hg
  | cons a as ih =>
    obtain ⟨g, gs, rfl⟩ := List.exists_cons_of_length_eq_add_one hlen
    have hlen : gs.length = as.length + 1 := by simpa using hlen
    have hres : ∀ {t}, Resumes spell as t → Resumes spell (a :: as) t := by
      rintro t (rfl | ⟨b, hb, t', rfl⟩)
      · exact .inl rfl
      · exact .inr ⟨b, List.mem_cons_of_mem _ hb, t', rfl⟩
    have ih := ih hlen (fun b hb => hne b (List.mem_cons_of_mem _ hb))
      (fun g' hg' u c v t hu ht => hgap g' (List.mem_cons_of_mem _ hg') u c v t hu (hres ht))
      (fun b hb g' hg' t ht => hmark b (List.mem_cons_of_mem _ hb) g' (List.mem_of_mem_tail hg') t
        (hres ht))
    have hfound : head? (spell a ++ weave gs (as.map spell)) = some (a, (spell a).length) := by
      obtain ⟨g', gs', rfl⟩ := List.exists_cons_of_length_eq_add_one hlen
      obtain ⟨t, ht, heq⟩ := weave_cons_eq_append spell g' (by simpa using hlen)
      rw [heq]
      exact hmark a List.mem_cons_self g' (by simp) t (hres ht)
    rw [List.map_cons, weave_cons, List.append_assoc, pieces_chars_append fun u c v hg =>
      hgap g List.mem_cons_self u c v _ hg (.inr ⟨a, List.mem_cons_self, _, rfl⟩),
      pieces_found_append (hne a List.mem_cons_self) hfound, ih]
    rfl

/-- A reader that finds the marks in a text woven of them puts it back together with other marks. -/
theorem weave_gaps_of_pieces_eq {s : List Char} {gs : List (List Char)} {as : List α}
    (h : pieces head? s = spread gs as) (hlen : gs.length = as.length + 1)
    (marks : List (List Char)) :
    occurrences head? s = as ∧ weave (gaps (pieces head? s)) marks = weave gs marks := by
  rw [← finds_pieces, h, finds_spread hlen, gaps_spread hlen]
  exact ⟨rfl, rfl⟩

end SqlCompose
