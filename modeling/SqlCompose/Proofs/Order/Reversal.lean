import Mathlib.Data.List.DropRight
import SqlCompose.Proofs.Order.Direction

/-!
# Reversal of order terms

A term in which a direction occurs is reversed by writing the opposite of each in its place
(`toList_reverseTerm_of_occursIn`). The directions of the reversed term are the ones written there,
in upper case (`canonical_reverseTerm`), and a term whose directions are all in upper case comes
back when it is reversed twice (`reverseTerm_reverseTerm`). What is known of reversing a term more
than once follows from these two.
-/

namespace SqlCompose

open Direction

variable {s t u : List Char} {term : String}

/-! ### Blanks at the end -/

/-- `u` is `s` without the blank characters at its end. -/
def StripsTo (s u : List Char) : Prop :=
  ∃ blanks, s = u ++ blanks ∧ (∀ c ∈ blanks, isBlankChar c) ∧
    ∀ c ∈ u.getLast?, isBlankChar c = false

theorem stripsTo_trimRight (s : List Char) : StripsTo s (trimRight isBlankChar s) := by
  refine ⟨s.rtakeWhile isBlankChar, (List.rdropWhile_append_rtakeWhile ..).symm,
    fun c hc => List.mem_rtakeWhile_imp hc, fun c hc => ?_⟩
  obtain ⟨hne, rfl⟩ := List.mem_getLast?_eq_getLast hc
  exact Bool.eq_false_iff.mpr (List.rdropWhile_last_not isBlankChar s hne)

theorem StripsTo.eq_trimRight (h : StripsTo s u) : u = trimRight isBlankChar s := by
  obtain ⟨blanks, rfl, hblank, hlast⟩ := h
  have hself : u.rdropWhile isBlankChar = u :=
    List.rdropWhile_eq_self_iff.mpr fun hne =>
      Bool.eq_false_iff.mp (hlast _ (List.getLast?_eq_some_getLast hne))
  rw [trimRight, List.reverse_append,
    List.dropWhile_append_of_pos fun c hc => hblank c (List.mem_reverse.mp hc)]
  exact hself.symm

theorem exists_mem_of_inRanges {n : Nat} {rs : List (Nat × Nat)} (h : inRanges n rs) :
    ∃ r ∈ rs, r.1 ≤ n ∧ n ≤ r.2 := by
  induction rs with
  | nil => simp [inRanges] at h
  | cons r rs ih =>
    simp only [inRanges, Bool.and_eq_true, Bool.or_eq_true, decide_eq_true_eq] at h
    obtain ⟨hfirst, hlast | hrest⟩ := h
    · exact ⟨r, List.mem_cons_self, hfirst, hlast⟩
    · obtain ⟨r', hr', hn⟩ := ih hrest
      exact ⟨r', List.mem_cons_of_mem _ hr', hn⟩

theorem not_isWordChar_of_isBlankChar {c : Char} (h : isBlankChar c) : isWordChar c = false := by
  have hranges : ∀ r ∈ blankRanges, ∀ k ≤ r.2 - r.1, inRanges (r.1 + k) wordRanges = false := by
    decide +kernel
  obtain ⟨r, hr, hfirst, hlast⟩ := exists_mem_of_inRanges h
  have hword := hranges r hr (c.toNat - r.1) (Nat.sub_le_sub_right hlast r.1)
  rwa [Nat.add_sub_cancel' hfirst] at hword

theorem StripsTo.eq_append (h : StripsTo s u) : ∃ blanks, s = u ++ blanks ∧ atWordEnd blanks := by
  obtain ⟨blanks, rfl, hblank, -⟩ := h
  refine ⟨blanks, rfl, atWordEnd_iff.mpr fun c hc => ?_⟩
  exact not_isWordChar_of_isBlankChar (hblank c (List.mem_of_mem_head? hc))

/-! ### Directions that occur -/

namespace Direction.Token

/-- A token stands in a text, as a word. -/
def OccursIn (tok : Token) (text : List Char) : Prop :=
  ∃ before after, text = before ++ (tok.run ++ after) ∧ IsWord before tok.run after

/-- The token of the opposite direction, in upper case. -/
def reversed (tok : Token) : Token := token tok.direction.opposite

end Direction.Token

theorem found_mem_directionPieces_iff {tok : Token} :
    .found tok ∈ directionPieces s ↔ tok.OccursIn s :=
  (cuts_directionPieces s).mem_iff

theorem found_mem_runPieces_iff {w : List Char} {tok : Token} :
    .found tok ∈ runPieces w ↔ tok.run = w := by
  rcases exists_token_or_eq_none w with ⟨tok', rfl⟩ | h
  · rw [runPieces_run, List.mem_singleton, Piece.found.injEq, Token.run_inj]
  · have hne : tok.run ≠ w := by
      intro heq
      rw [← heq, tok.ofRun?_run] at h
      contradiction
    simp [runPieces_of_ofRun?_eq_none h, hne]

theorem hasDirection_iff : hasDirection term ↔ ∃ tok : Token, tok.OccursIn term.toList := by
  simp only [← found_mem_directionPieces_iff, directionPieces, List.mem_flatMap,
    found_mem_runPieces_iff]
  rw [hasDirection, List.any_eq_true]
  constructor
  · rintro ⟨run, hrun, hd⟩
    obtain ⟨d, hd⟩ := Option.isSome_iff_exists.mp hd
    exact ⟨⟨d, run, ofRun?_eq_some_iff.mp hd⟩, run, hrun, rfl⟩
  · rintro ⟨tok, run, hrun, rfl⟩
    exact ⟨tok.run, hrun, by rw [tok.ofRun?_run]; rfl⟩

theorem fill_reversed_runPieces (run : List Char) :
    fill (fun tok => tok.reversed.run) (runPieces run) = reverseRun run := by
  rw [reverseRun]
  rcases exists_token_or_eq_none run with ⟨tok, rfl⟩ | h
  · rw [runPieces_run, fill_found, fill_nil, List.append_nil, tok.ofRun?_run]
    rfl
  · rw [runPieces_of_ofRun?_eq_none h, fill_chars, h]

theorem toList_reverseTerm_of_occursIn (h : ∃ tok : Token, tok.OccursIn term.toList) :
    (reverseTerm term).toList =
      fill (fun tok => tok.reversed.run) (directionPieces term.toList) := by
  rw [reverseTerm, if_pos (hasDirection_iff.mpr h), String.toList_ofList, fill, directionPieces,
    List.flatMap_assoc]
  exact congrArg (List.flatMap · _) (funext fun run => (fill_reversed_runPieces run).symm)

theorem toList_reverseTerm_of_not_occursIn (h : ¬ ∃ tok : Token, tok.OccursIn term.toList) :
    (reverseTerm term).toList = trimRight isBlankChar term.toList ++ " DESC".toList := by
  rw [reverseTerm, if_neg (mt hasDirection_iff.mp h), String.toList_append, stripRight,
    String.toList_ofList]

/-- Reversal writes upper-case letters and blanks only. -/
theorem mem_reverseTerm {c : Char} (h : c ∈ (reverseTerm term).toList) :
    c ∈ term.toList ∨ c = ' ' ∨ c.isUpper := by
  by_cases hd : ∃ tok : Token, tok.OccursIn term.toList
  · rw [toList_reverseTerm_of_occursIn hd] at h
    rcases mem_fill_iff.mp h with hchar | ⟨tok, -, hc⟩
    · rw [← fill_directionPieces term.toList]
      exact .inl (mem_fill_iff.mpr (.inl hchar))
    · exact .inr (.inr (isUpper_of_mem_keyword _ c hc))
  · have hdesc : " DESC".toList = ' ' :: desc.keyword.toList := rfl
    rw [toList_reverseTerm_of_not_occursIn hd, hdesc, List.mem_append, List.mem_cons] at h
    rcases h with hterm | hblank | hkeyword
    · exact .inl ((List.rdropWhile_prefix isBlankChar term.toList).subset hterm)
    · exact .inr (.inl hblank)
    · exact .inr (.inr (isUpper_of_mem_keyword desc c hkeyword))

/-! ### Directions of a reversed term -/

/-- A text with a direction, and with all of its directions in upper case. -/
structure Canonical (text : List Char) : Prop where
  exists_token : ∃ tok : Token, tok.OccursIn text
  upperCase : ∀ tok : Token, tok.OccursIn text → tok.run = tok.direction.keyword.toList

theorem directionPieces_reverseTerm (h : ∃ tok : Token, tok.OccursIn term.toList) :
    directionPieces (reverseTerm term).toList =
      (directionPieces term.toList).map (Piece.map Token.reversed) := by
  rw [toList_reverseTerm_of_occursIn h, directionPieces_fill]

theorem directionPieces_desc :
    directionPieces " DESC".toList = [.char ' ', .found (token .desc)] := by
  have hdesc : " DESC".toList = ' ' :: ((token .desc).run ++ []) := rfl
  rw [hdesc, directionPieces_cons (by decide), directionPieces_word_append (Token.ne_nil _)
    (Token.isWordChar _) rfl, runPieces_run, directionPieces_nil]
  rfl

theorem occursIn_reverseTerm_iff (h : ∃ tok : Token, tok.OccursIn term.toList) {tok : Token} :
    tok.OccursIn (reverseTerm term).toList ↔
      ∃ tok' : Token, tok'.OccursIn term.toList ∧ tok = tok'.reversed := by
  simp only [← found_mem_directionPieces_iff, directionPieces_reverseTerm h]
  rw [found_mem_map_iff]

theorem occursIn_reverseTerm_iff_of_not (h : ¬ ∃ tok : Token, tok.OccursIn term.toList)
    {tok : Token} : tok.OccursIn (reverseTerm term).toList ↔ tok = token .desc := by
  obtain ⟨blanks, heq, hends⟩ := (stripsTo_trimRight term.toList).eq_append
  have hnone : .found tok ∉ directionPieces (trimRight isBlankChar term.toList) := by
    intro hmem
    refine h ⟨tok, found_mem_directionPieces_iff.mp ?_⟩
    rw [heq, directionPieces_append hends]
    exact List.mem_append_left _ hmem
  rw [← found_mem_directionPieces_iff, toList_reverseTerm_of_not_occursIn h,
    directionPieces_append (by decide), directionPieces_desc, List.mem_append]
  simp [hnone]

theorem canonical_reverseTerm (term : String) : Canonical (reverseTerm term).toList := by
  by_cases h : ∃ tok : Token, tok.OccursIn term.toList
  · have htokens {tok : Token} := @occursIn_reverseTerm_iff _ h tok
    obtain ⟨tok, htok⟩ := h
    refine ⟨⟨tok.reversed, htokens.mpr ⟨tok, htok, rfl⟩⟩, fun tok' htok' => ?_⟩
    obtain ⟨tok'', -, rfl⟩ := htokens.mp htok'
    rfl
  · refine ⟨⟨token .desc, (occursIn_reverseTerm_iff_of_not h).mpr rfl⟩, fun tok htok => ?_⟩
    rw [(occursIn_reverseTerm_iff_of_not h).mp htok]
    rfl

theorem Direction.opposite_opposite (d : Direction) : d.opposite.opposite = d := by
  cases d <;> rfl

theorem reverseTerm_reverseTerm (h : Canonical term.toList) :
    reverseTerm (reverseTerm term) = term := by
  have hback : ∀ tok : Token, .found tok ∈ directionPieces term.toList →
      tok.reversed.reversed.run = tok.run := by
    intro tok htok
    rw [h.upperCase tok (found_mem_directionPieces_iff.mp htok)]
    exact congrArg (·.keyword.toList) tok.direction.opposite_opposite
  rw [← String.toList_inj, toList_reverseTerm_of_occursIn (canonical_reverseTerm term).exists_token,
    directionPieces_reverseTerm h.exists_token, fill_map, fill_congr hback, fill_directionPieces]

theorem reverseTerm_reverseTerm_eq_iff :
    reverseTerm (reverseTerm term) = term ↔ Canonical term.toList := by
  refine ⟨fun h => ?_, reverseTerm_reverseTerm⟩
  rw [← h]
  exact canonical_reverseTerm _

/-! ### Joined terms -/

theorem directionPieces_comma (s t : List Char) :
    directionPieces (s ++ ", ".toList ++ t) =
      directionPieces s ++ (", ".toList.map .char ++ directionPieces t) := by
  have hcomma : ", ".toList = [',', ' '] := rfl
  have hword : isWordChar ',' = false := by decide
  have hends : atWordEnd (',' :: ' ' :: t) := by simp [atWordEnd, hword]
  rw [hcomma, List.append_assoc, List.cons_append, List.cons_append, List.nil_append,
    directionPieces_append hends, directionPieces_cons hword, directionPieces_cons (by decide)]
  rfl

theorem reverseTerm_comma {x y : String} (hx : ∃ tok : Token, tok.OccursIn x.toList)
    (hy : ∃ tok : Token, tok.OccursIn y.toList) :
    (∃ tok : Token, tok.OccursIn (x ++ ", " ++ y).toList) ∧
      reverseTerm (x ++ ", " ++ y) = reverseTerm x ++ ", " ++ reverseTerm y := by
  have hpieces := directionPieces_comma x.toList y.toList
  rw [← String.toList_append, ← String.toList_append] at hpieces
  have hxy : ∃ tok : Token, tok.OccursIn (x ++ ", " ++ y).toList := by
    obtain ⟨tok, htok⟩ := hx
    rw [← found_mem_directionPieces_iff] at htok
    refine ⟨tok, found_mem_directionPieces_iff.mp ?_⟩
    rw [hpieces]
    exact List.mem_append_left _ htok
  refine ⟨hxy, ?_⟩
  rw [← String.toList_inj, toList_reverseTerm_of_occursIn hxy, hpieces, fill_append, fill_append,
    fill_chars, String.toList_append, String.toList_append, toList_reverseTerm_of_occursIn hx,
    toList_reverseTerm_of_occursIn hy, List.append_assoc]

theorem reverseTerm_intercalate {terms : List String} (hne : terms ≠ [])
    (h : ∀ x ∈ terms, ∃ tok : Token, tok.OccursIn x.toList) :
    (∃ tok : Token, tok.OccursIn (", ".intercalate terms).toList) ∧
      reverseTerm (", ".intercalate terms) = ", ".intercalate (terms.map reverseTerm) := by
  induction terms with
  | nil => exact absurd rfl hne
  | cons x terms ih =>
    rw [List.forall_mem_cons] at h
    cases terms with
    | nil => exact ⟨h.1, rfl⟩
    | cons y terms =>
      obtain ⟨hrest, heq⟩ := ih (List.cons_ne_nil y terms) h.2
      obtain ⟨hxy, hall⟩ := reverseTerm_comma h.1 hrest
      rw [String.intercalate_cons_cons, List.map_cons, List.map_cons,
        String.intercalate_cons_cons, ← List.map_cons, ← heq]
      exact ⟨hxy, hall⟩

/-! ### The laws of reversal -/

/-- What reversal does to a term is known from its cut at directions: without one, `DESC` is added
behind the term and its blanks are dropped, and else each is replaced by its opposite. Hence
reversing a term once and three times is the same, a term comes back if and only if it has a
direction and all are in upper case, and joined terms are reversed one by one. -/
theorem reverseTerm_laws :
    (∀ term : String, (∃! ps, DirectionCuts ps term.toList) ∧
      ∀ ps, DirectionCuts ps term.toList →
        ((¬ ∃ tok : Token, tok.OccursIn term.toList) →
          ∃ u, StripsTo term.toList u ∧ (reverseTerm term).toList = u ++ " DESC".toList) ∧
        ((∃ tok : Token, tok.OccursIn term.toList) →
          (reverseTerm term).toList =
            fill (fun tok => tok.direction.opposite.keyword.toList) ps)) ∧
    (∀ term, reverseTerm (reverseTerm (reverseTerm term)) = reverseTerm term) ∧
    (∀ term : String, reverseTerm (reverseTerm term) = term ↔
      (∃ tok : Token, tok.OccursIn term.toList) ∧
        ∀ tok : Token, tok.OccursIn term.toList → tok.run = tok.direction.keyword.toList) ∧
    ∀ terms : List String, terms ≠ [] → (∀ x ∈ terms, ∃ tok : Token, tok.OccursIn x.toList) →
      reverseTerm (", ".intercalate terms) = ", ".intercalate (terms.map reverseTerm) := by
  refine ⟨fun term => ⟨existsUnique_directionCuts term.toList, fun ps hps => ⟨?_, ?_⟩⟩, ?_, ?_, ?_⟩
  · intro h
    exact ⟨_, stripsTo_trimRight term.toList, toList_reverseTerm_of_not_occursIn h⟩
  · intro h
    rw [hps.eq Token.ne_nil (cuts_directionPieces term.toList)]
    exact toList_reverseTerm_of_occursIn h
  · exact fun term => reverseTerm_reverseTerm (canonical_reverseTerm term)
  · intro term
    rw [reverseTerm_reverseTerm_eq_iff]
    exact ⟨fun h => ⟨h.exists_token, h.upperCase⟩, fun h => ⟨h.1, h.2⟩⟩
  · exact fun terms hne h => (reverseTerm_intercalate hne h).2

/-- Directions in mixed case and with a long s next to words that only begin or end with one, and a
term whose only word goes on behind `desc`, with blanks at its end. -/
theorem reverseTerm_laws_of_longS :
    ((∃ tok : Token, tok.OccursIn "asc_(aſc),xDESC Desc".toList) ∧
      reverseTerm "asc_(aſc),xDESC Desc" = "asc_(DESC),xDESC ASC") ∧
    ((¬ ∃ tok : Token, tok.OccursIn "descé \t".toList) ∧ reverseTerm "descé \t" = "descé DESC") ∧
    reverseTerm (", ".intercalate ["x aſc", "Desc"]) = "x DESC, ASC" := by
  obtain ⟨hterm, -, -, hjoined⟩ := reverseTerm_laws
  have hcuts (term : String) := cuts_directionPieces term.toList
  have hlong : ∃ tok : Token, tok.OccursIn "asc_(aſc),xDESC Desc".toList :=
    hasDirection_iff.mp (by decide)
  have hnone : ¬ ∃ tok : Token, tok.OccursIn "descé \t".toList :=
    mt hasDirection_iff.mpr (by decide)
  have hboth : ∀ x ∈ ["x aſc", "Desc"], ∃ tok : Token, tok.OccursIn x.toList :=
    fun x hx => hasDirection_iff.mp (by revert x; decide)
  refine ⟨⟨hlong, ?_⟩, ⟨hnone, ?_⟩, ?_⟩
  · rw [← String.toList_inj, ((hterm _).2 _ (hcuts _)).2 hlong]
    rfl
  · obtain ⟨u, hu, heq⟩ := ((hterm _).2 _ (hcuts _)).1 hnone
    rw [← String.toList_inj, heq, hu.eq_trimRight]
    rfl
  · rw [hjoined _ (List.cons_ne_nil _ _) hboth]
    rfl

end SqlCompose
