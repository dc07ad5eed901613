import SqlCompose.Placeholder
import SqlCompose.Proofs.Scan
import SqlCompose.Text.Run

/-!
# Named placeholders in a text

A placeholder reaches as far as its name can (`head?_eq_some_iff`), so the placeholders of a text
are where a name of the right form stands behind a question mark and ends (`mem_occurrences_iff`).
A text splits into its placeholders and the gaps between them in one way only, which is the one
that scanning finds (`splits_iff`).
-/

namespace SqlCompose.Placeholder

def isNameStart (c : Char) : Bool := isIdentifierChar c && !c.isDigit

/-- An identifier that does not start with a digit. -/
def IsName (name : String) : Prop :=
  ∃ c s, name.toList = c :: s ∧ isNameStart c ∧ ∀ d ∈ s, isIdentifierChar d

/-- A name that stands right before `t` ends there. -/
def NameEnds (t : List Char) : Prop := ∀ c ∈ t.head?, isIdentifierChar c = false

/-- A placeholder as it is written. -/
def spelling (name : String) : List Char := '?' :: name.toList

theorem isIdentifierChar_questionMark : isIdentifierChar '?' = false := by decide

theorem IsName.isIdentifierChar (h : IsName name) (hc : c ∈ name.toList) :
    isIdentifierChar c := by
  obtain ⟨d, s, hs, hd, hall⟩ := h
  rw [hs] at hc
  rcases List.mem_cons.mp hc with rfl | hc
  · simp only [isNameStart, Bool.and_eq_true] at hd
    exact hd.1
  · exact hall c hc

theorem IsName.not_mem (h : IsName name) (hc : SqlCompose.isIdentifierChar c = false) :
    c ∉ name.toList := by
  intro hmem
  rw [h.isIdentifierChar hmem] at hc
  contradiction

theorem nameEnds_nil : NameEnds [] := by simp [NameEnds]

theorem nameEnds_spelling (name : String) (t : List Char) : NameEnds (spelling name ++ t) := by
  simp [NameEnds, spelling, isIdentifierChar_questionMark]

/-! ### The placeholder at the head of a text -/

theorem head?_cons_cons {c : Char} {s : List Char} (h : isNameStart c) :
    head? ('?' :: c :: s) =
      some (String.ofList (c :: s.takeWhile SqlCompose.isIdentifierChar),
        (s.takeWhile SqlCompose.isIdentifierChar).length + 2) := by
  simp only [head?]
  exact if_pos h

theorem isSome_head?_iff {s : List Char} :
    (head? s).isSome ↔ ∃ c t, s = '?' :: c :: t ∧ isNameStart c := by
  constructor
  · intro h
    unfold head? at h
    split at h
    · rename_i c t
      split at h
      · exact ⟨c, t, rfl, ‹_›⟩
      · contradiction
    · contradiction
  · rintro ⟨c, t, rfl, hc⟩
    rw [head?_cons_cons hc]
    rfl

theorem head?_eq_some_iff {s : List Char} {name : String} {n : Nat} :
    head? s = some (name, n) ↔ IsName name ∧ n = (spelling name).length ∧
      ∃ t, NameEnds t ∧ s = spelling name ++ t := by
  constructor
  · intro h
    obtain ⟨c, t, rfl, hc⟩ := isSome_head?_iff.mp (Option.isSome_of_eq_some h)
    rw [head?_cons_cons hc] at h
    obtain ⟨rfl, rfl⟩ := Prod.mk.inj (Option.some.inj h)
    refine ⟨⟨c, _, String.toList_ofList, hc, fun d hd => List.all_eq_true.mp
      List.all_takeWhile d hd⟩, by simp [spelling], _, head?_dropWhile_run t, ?_⟩
    simp [spelling]
  · rintro ⟨⟨c, w, hw, hc, hall⟩, rfl, t, ht, rfl⟩
    have hname : name = String.ofList (c :: w) := by rw [← hw, String.ofList_toList]
    simp only [spelling, hw, List.cons_append]
    rw [head?_cons_cons hc, takeWhile_run_append hall ht, hname]
    simp

theorem head?_eq_none_of_ne {c : Char} (hc : c ≠ '?') (s : List Char) : head? (c :: s) = none := by
  cases s <;> simp [head?, hc]

theorem spells : Spells head? spelling := by
  intro s name n h
  obtain ⟨_, rfl, t, _, rfl⟩ := head?_eq_some_iff.mp h
  exact ⟨by simp [spelling], rfl, t, rfl⟩

/-- A placeholder does not reach into a text that cannot go on with its name. -/
theorem head?_append {t : List Char} (ht : NameEnds t) (c : Char) (s : List Char) :
    head? (c :: s ++ t) = head? (c :: s) := by
  cases s with
  | nil =>
    have hs : head? [c] = none := by
      rw [← Option.not_isSome_iff_eq_none, isSome_head?_iff]
      simp
    rw [hs, ← Option.not_isSome_iff_eq_none, isSome_head?_iff]
    rintro ⟨d, t', heq, hd⟩
    obtain ⟨rfl, rfl⟩ := List.cons.inj heq
    simp [isNameStart, ht d rfl] at hd
  | cons d s =>
    by_cases h : c = '?' ∧ isNameStart d
    · obtain ⟨rfl, hd⟩ := h
      have htake : (s ++ t).takeWhile SqlCompose.isIdentifierChar =
          s.takeWhile SqlCompose.isIdentifierChar := by
        rw [List.takeWhile_append]
        split
        · next hlen =>
          have hs := (List.takeWhile_prefix SqlCompose.isIdentifierChar).eq_of_length hlen
          rw [hs]
          simpa using takeWhile_run_append (w := []) (by simp) ht
        · rfl
      rw [List.cons_append, List.cons_append, head?_cons_cons hd, head?_cons_cons hd, htake]
    · have hnone : ∀ s', head? (c :: d :: s') = none := by
        intro s'
        rw [← Option.not_isSome_iff_eq_none, isSome_head?_iff]
        rintro ⟨d', t', heq, hd⟩
        simp only [List.cons.injEq] at heq
        obtain ⟨rfl, rfl, rfl⟩ := heq
        exact h ⟨rfl, hd⟩
      rw [List.cons_append, List.cons_append, hnone, hnone]

theorem pieces_append {t : List Char} (ht : NameEnds t) (s : List Char) :
    pieces head? (s ++ t) = pieces head? s ++ pieces head? t :=
  spells.pieces_append (head?_append ht) s

theorem occurrences_append {t : List Char} (ht : NameEnds t) (s : List Char) :
    occurrences head? (s ++ t) = occurrences head? s ++ occurrences head? t := by
  rw [← finds_pieces, pieces_append ht, finds_append]
  rfl

theorem head?_spelling_append {name : String} {t : List Char} (h : IsName name)
    (ht : NameEnds t) : head? (spelling name ++ t) = some (name, (spelling name).length) :=
  head?_eq_some_iff.mpr ⟨h, rfl, t, ht, rfl⟩

theorem occurrences_spelling_append {name : String} {t : List Char} (h : IsName name)
    (ht : NameEnds t) :
    occurrences head? (spelling name ++ t) = name :: occurrences head? t := by
  rw [← finds_pieces, spells.pieces_found (head?_spelling_append h ht)]
  rfl

theorem NameEnds.of_append {s t : List Char} (h : NameEnds (s ++ t)) : NameEnds s := by
  cases s with
  | nil => exact nameEnds_nil
  | cons c s => simpa [NameEnds] using h

theorem NameEnds.append {s t : List Char} (hs : NameEnds s) (ht : NameEnds t) :
    NameEnds (s ++ t) := by
  cases s with
  | nil => exact ht
  | cons c s => simpa [NameEnds] using hs

/-! ### The placeholders of a text -/

/-- The placeholder of a name stands somewhere in a text, and its name ends there. -/
def OccursIn (name : String) (text : List Char) : Prop :=
  ∃ before after, IsName name ∧ NameEnds after ∧ text = before ++ (spelling name ++ after)

theorem occurrences_eq_append_iff {text : List Char} {ns ms : List String} {name : String} :
    occurrences head? text = ns ++ name :: ms ↔
      ∃ before after, IsName name ∧ NameEnds after ∧ text = before ++ (spelling name ++ after) ∧
        occurrences head? before = ns ∧ occurrences head? after = ms := by
  constructor
  · revert ns
    refine spells.induction (motive := fun s ps => ∀ {ns}, finds ps = ns ++ name :: ms →
      ∃ before after, IsName name ∧ NameEnds after ∧ s = before ++ (spelling name ++ after) ∧
        occurrences head? before = ns ∧ occurrences head? after = ms) ?_ ?_ ?_ text
    · intro ns h
      simp at h
    · intro c s hc ih ns h
      obtain ⟨before, after, hname, hends, rfl, rfl, rfl⟩ := ih h
      refine ⟨c :: before, after, hname, hends, rfl, ?_, rfl⟩
      rw [← List.cons_append, head?_append (nameEnds_spelling _ _)] at hc
      rw [← finds_pieces, pieces_cons_of_none hc, finds_char, finds_pieces]
    · intro a t ha ih ns h
      obtain ⟨hname, -, t', ht, heq⟩ := head?_eq_some_iff.mp ha
      obtain rfl := List.append_cancel_left heq
      cases ns with
      | nil =>
        obtain ⟨rfl, rfl⟩ := List.cons.inj h
        exact ⟨[], t, hname, ht, rfl, rfl, rfl⟩
      | cons n ns =>
        rw [finds_found, List.cons_append] at h
        obtain ⟨rfl, hns⟩ := List.cons.inj h
        obtain ⟨before, after, hname', hends, rfl, rfl, rfl⟩ := ih hns
        exact ⟨spelling a ++ before, after, hname', hends, by simp,
          occurrences_spelling_append hname ht.of_append, rfl⟩
  · rintro ⟨before, after, hname, hends, rfl, rfl, rfl⟩
    rw [occurrences_append (nameEnds_spelling _ _), occurrences_spelling_append hname hends]

theorem mem_occurrences_iff {text : List Char} {name : String} :
    name ∈ occurrences head? text ↔ OccursIn name text := by
  rw [List.mem_iff_append]
  constructor
  · rintro ⟨ns, ms, h⟩
    obtain ⟨before, after, hname, hends, rfl, -, -⟩ := occurrences_eq_append_iff.mp h
    exact ⟨before, after, hname, hends, rfl⟩
  · rintro ⟨before, after, hname, hends, rfl⟩
    exact ⟨_, _, occurrences_eq_append_iff.mpr ⟨before, after, hname, hends, rfl, rfl, rfl⟩⟩

/-- A text in its gaps and placeholders. A gap neither goes on with the name before it nor has a
placeholder inside. -/
structure Splits (text : List Char) (gs : List (List Char)) (names : List String) : Prop where
  text_eq : text = weave gs (names.map spelling)
  length_eq : gs.length = names.length + 1
  isName : ∀ name ∈ names, IsName name
  nameEnds : ∀ g ∈ gs.tail, NameEnds g
  free : ∀ g ∈ gs, ∀ before c after, g = before ++ '?' :: c :: after → isNameStart c = false

theorem Resumes.nameEnds {names : List String} (h : Resumes spelling names t) : NameEnds t := by
  rcases h with rfl | ⟨name, -, t, rfl⟩
  · exact nameEnds_nil
  · exact nameEnds_spelling name t

theorem Splits.pieces_eq {text : List Char} {gs : List (List Char)} {names : List String}
    (h : Splits text gs names) : pieces head? text = spread gs names := by
  rw [h.text_eq]
  refine pieces_weave h.length_eq (fun name _ => List.cons_ne_nil _ _) ?_ ?_
  · intro g hg u c v t hu ht
    rw [← Option.not_isSome_iff_eq_none, isSome_head?_iff]
    rintro ⟨d, t', heq, hd⟩
    cases v with
    | nil =>
      -- The question mark ends its gap, so what follows it is no name.
      obtain ⟨rfl, rfl⟩ := List.cons.inj heq
      simp [isNameStart, Resumes.nameEnds ht d rfl] at hd
    | cons d' v =>
      simp only [List.cons_append, List.cons.injEq] at heq
      obtain ⟨rfl, rfl, -⟩ := heq
      simp [h.free g hg u _ v hu] at hd
  · intro name hname g hg t ht
    exact head?_spelling_append (h.isName name hname)
      ((h.nameEnds g hg).append (Resumes.nameEnds ht))

theorem splits_pieces (text : List Char) :
    Splits text (gaps (pieces head? text)) (occurrences head? text) := by
  refine spells.induction (motive := fun s ps => Splits s (gaps ps) (finds ps)) ?_ ?_ ?_ text
  · exact ⟨rfl, rfl, by simp, by simp [gaps], by simp [gaps]⟩
  · intro c s hc ih
    obtain ⟨g, gs, hg⟩ := List.exists_cons_of_ne_nil (gaps_ne_nil (pieces head? s))
    have hgaps : gaps (.char c :: pieces head? s) = (c :: g) :: gs := by simp [gaps, hg]
    rw [hg] at ih
    have htext : c :: s = weave ((c :: g) :: gs) ((finds (pieces head? s)).map spelling) := by
      rw [weave_cons_char, ← ih.text_eq]
    rw [hgaps]
    refine ⟨htext, by simpa using ih.length_eq, ih.isName, ih.nameEnds, ?_⟩
    intro g' hg' before d after heq
    rcases List.mem_cons.mp hg' with rfl | hg'
    · cases before with
      | cons _ before =>
        exact ih.free g List.mem_cons_self before d after (List.cons.inj heq).2
      | nil =>
        obtain ⟨rfl, rfl⟩ := List.cons.inj heq
        have hlen : gs.length = (finds (pieces head? s)).length := by simpa using ih.length_eq
        obtain ⟨t, -, ht⟩ := weave_cons_eq_append spelling (d :: after) hlen
        rw [ih.text_eq, ht] at hc
        rw [← Option.not_isSome_iff_eq_none, isSome_head?_iff] at hc
        simpa using fun hd => hc ⟨d, after ++ t, rfl, hd⟩
    · exact ih.free g' (List.mem_cons_of_mem _ hg') before d after heq
  · intro name t hname ih
    obtain ⟨hname, -, t', ht, heq⟩ := head?_eq_some_iff.mp hname
    obtain rfl := List.append_cancel_left heq
    refine ⟨by simp [gaps, ← ih.text_eq], by simp [gaps, ih.length_eq], ?_, ?_, ?_⟩
    · intro n hn
      rcases List.mem_cons.mp hn with rfl | hn
      · exact hname
      · exact ih.isName n hn
    · intro g hg
      obtain ⟨g', gs, hgs⟩ := List.exists_cons_of_ne_nil (gaps_ne_nil (pieces head? t))
      have htext := ih.text_eq
      have hlen : gs.length = (finds (pieces head? t)).length := by
        simpa [hgs] using ih.length_eq
      have hends := ih.nameEnds
      simp only [gaps, List.tail_cons, hgs] at hg htext hends
      rcases List.mem_cons.mp hg with rfl | hg
      · obtain ⟨t', -, ht'⟩ := weave_cons_eq_append spelling g hlen
        rw [htext, ht'] at ht
        exact ht.of_append
      · exact hends g hg
    · intro g hg
      rcases List.mem_cons.mp hg with rfl | hg
      · simp
      · exact ih.free g hg

theorem splits_iff {text : List Char} {gs : List (List Char)} {names : List String} :
    Splits text gs names ↔ gs = gaps (pieces head? text) ∧ names = occurrences head? text := by
  constructor
  · intro h
    rw [← finds_pieces, h.pieces_eq, gaps_spread h.length_eq, finds_spread h.length_eq]
    exact ⟨rfl, rfl⟩
  · rintro ⟨rfl, rfl⟩
    exact splits_pieces text

end SqlCompose.Placeholder
