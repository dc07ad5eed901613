import SqlCompose.Proofs.Fragment
import SqlCompose.Proofs.Order.Reversal

/-!
# The pass over order macros

The macros of a text cut it into pieces in exactly one way (`existsUnique_macroCuts`), and all the
pass does is to write the terms in their place, or the reversed terms, if there are any
(`orderMacros_pass`).

What is written is not looked at again. It can still make a macro of what stands before it, as in
`$rev_$order_by`, if a dollar sign and word characters do. In a text where they do not (`Unglued`),
no macro is left or made by terms without dollar signs (`pieces_fill_of_unglued`).
-/

namespace SqlCompose

open Direction

variable {s t : List Char} {terms : List String} {text : String} {params : List Value}

namespace OrderMacro

/-! ### Macros as marks -/

/-- The macros of a text are told among its pieces by a word that ends behind them. -/
def MacroCuts (ps : List (Piece OrderMacro)) (text : List Char) : Prop :=
  Cuts (fun m => m.spelling.toList) (fun _ _ after => atWordEnd after) ps text

theorem isWordChar_dollar : isWordChar '$' = false := by decide

theorem head?_spelling_append_iff {m : OrderMacro} :
    head? (m.spelling.toList ++ t) = some (m, m.spelling.toList.length) ↔ atWordEnd t := by
  rw [head?_eq_some_iff]
  constructor
  · rintro ⟨-, t', ht', heq⟩
    rwa [List.append_cancel_left heq]
  · exact fun ht => ⟨rfl, t, ht, rfl⟩

theorem ne_dollar_of_isWordChar {c : Char} (hc : isWordChar c) : c ≠ '$' := by
  rintro rfl
  rw [isWordChar_dollar] at hc
  contradiction

theorem macroCuts_pieces (s : List Char) : MacroCuts (pieces head? s) s := by
  have hcuts := spells.cuts (fun m u c v t hm hu => ?_) s
  · refine ⟨hcuts.fill_eq, fun before m after => ?_⟩
    rw [hcuts.foundAt_iff, head?_spelling_append_iff]
  · obtain ⟨d, u, rfl⟩ := List.exists_cons_of_ne_nil hu
    have hc := isWordChar_of_mem_tail_spelling m c (by simp [hm])
    exact head?_eq_none_of_ne (ne_dollar_of_isWordChar hc) (v ++ t)

theorem spelling_ne_nil (m : OrderMacro) : m.spelling.toList ≠ [] :=
  spells.ne_nil (head?_spelling_append_iff.mpr (rfl : atWordEnd []))

theorem existsUnique_macroCuts (s : List Char) : ∃! ps, MacroCuts ps s :=
  ⟨pieces head? s, macroCuts_pieces s, fun _ h => h.eq spelling_ne_nil (macroCuts_pieces s)⟩

end OrderMacro

open OrderMacro

/-! ### The pass -/

theorem apply_orderMacros_of_not_occursIn (h : ¬ ∃ m, OccursIn m text.toList) :
    Pass.apply ⟨text, params⟩ (.orderMacros terms) = .ok ⟨text, params⟩ := by
  simp only [Pass.apply, expandOrder_of_not_occursIn h]

theorem apply_orderMacros_of_no_terms (h : ∃ m, OccursIn m text.toList) :
    Pass.apply ⟨text, params⟩ (.orderMacros []) = .error (.refused .noOrderTerms) := by
  simp only [Pass.apply, expandOrder_of_occursIn h, if_true]

/-- The text of a pass that has terms, whether a macro occurs or not. -/
theorem apply_orderMacros_of_terms (hne : terms ≠ []) :
    Pass.apply ⟨text, params⟩ (.orderMacros terms) =
      .ok ⟨String.ofList (fill (fun m => (m.expansion terms).toList)
        (pieces OrderMacro.head? text.toList)), params⟩ := by
  have hexp : expandOrder terms text = .ok (String.ofList
      (fill (fun m => (m.expansion terms).toList) (pieces OrderMacro.head? text.toList))) :=
    expandOrder_eq_ok_iff.mpr ⟨fun _ => hne, String.toList_ofList⟩
  simp only [Pass.apply, hexp]

/-- A text has one cut at its macros, and by it the pass is known for all terms and parameters.
Without a macro it changes nothing; without terms it is refused; and otherwise it fills in the
terms, as they are or reversed, where the macros stand. -/
theorem orderMacros_pass (text : String) :
    (∃! ps, MacroCuts ps text.toList) ∧
    ∀ ps, MacroCuts ps text.toList → ∀ (terms : List String) (params : List Value),
      ((¬ ∃ m, OccursIn m text.toList) →
        Pass.apply ⟨text, params⟩ (.orderMacros terms) = .ok ⟨text, params⟩) ∧
      ((∃ m, OccursIn m text.toList) → terms = [] →
        Pass.apply ⟨text, params⟩ (.orderMacros terms) = .error (.refused .noOrderTerms) ∧
          (∀ wording, BuildError.noOrderTerms.message wording =
            "Order macro $order_by requires order_by terms") ∧
          BuildError.noOrderTerms.stage? = some .substitute) ∧
      ((∃ m, OccursIn m text.toList) → terms ≠ [] →
        ∃ out : String, Pass.apply ⟨text, params⟩ (.orderMacros terms) = .ok ⟨out, params⟩ ∧
          out.toList = fill (fun
            | .forward => (", ".intercalate terms).toList
            | .backward => (", ".intercalate (terms.map reverseTerm)).toList) ps) := by
  refine ⟨existsUnique_macroCuts text.toList, fun ps hps terms params => ⟨?_, ?_, ?_⟩⟩
  · exact apply_orderMacros_of_not_occursIn
  · rintro h rfl
    exact ⟨apply_orderMacros_of_no_terms h, fun _ => rfl, rfl⟩
  · intro _ hne
    refine ⟨_, apply_orderMacros_of_terms hne, ?_⟩
    rw [String.toList_ofList, hps.eq spelling_ne_nil (macroCuts_pieces text.toList)]
    refine fill_congr fun m _ => ?_
    cases m <;> rfl

/-- A macro behind a dollar sign, one before a letter outside of ASCII and one at the end, with a
term that holds a macro itself. -/
theorem orderMacros_pass_of_nearby :
    (∃ m, OccursIn m "$$order_by $order_byé $rev_order_by".toList) ∧
    Pass.apply ⟨"$$order_by $order_byé $rev_order_by", [.null]⟩
        (.orderMacros ["$order_by", "b desc"]) =
      .ok ⟨"$$order_by, b desc $order_byé $order_by DESC, b ASC", [.null]⟩ ∧
    Pass.apply ⟨"$$order_by $order_byé $rev_order_by", []⟩ (.orderMacros []) =
      .error (.refused .noOrderTerms) ∧
    (¬ ∃ m, OccursIn m "$order_byé".toList) ∧
    Pass.apply ⟨"$order_byé", []⟩ (.orderMacros []) = .ok ⟨"$order_byé", []⟩ := by
  have hpass := (orderMacros_pass "$$order_by $order_byé $rev_order_by").2 _ (macroCuts_pieces _)
  have hsame := (orderMacros_pass "$order_byé").2 _ (macroCuts_pieces _)
  have hoccurs : ∃ m, OccursIn m "$$order_by $order_byé $rev_order_by".toList :=
    ⟨.backward, "$$order_by $order_byé ".toList, [], rfl, by decide⟩
  have hnone : ¬ ∃ m, OccursIn m "$order_byé".toList :=
    all_isNone_pieces_iff.mp (by decide)
  refine ⟨hoccurs, ?_, ((hpass [] []).2.1 hoccurs rfl).1, hnone, (hsame [] []).1 hnone⟩
  obtain ⟨out, hout, heq⟩ :=
    (hpass ["$order_by", "b desc"] [.null]).2.2 hoccurs (List.cons_ne_nil _ _)
  have hexpanded : out = "$$order_by, b desc $order_byé $order_by DESC, b ASC" :=
    String.toList_inj.mp (heq.trans (by decide))
  rw [hout, hexpanded]

/-! ### Texts that terms leave without macros -/

/-- No macro stands right behind a dollar sign and word characters. -/
def Unglued (text : List Char) : Prop :=
  ∀ before w (m : OrderMacro) after, text = before ++ '$' :: (w ++ (m.spelling.toList ++ after)) →
    atWordEnd after → ¬ ∀ c ∈ w, isWordChar c

theorem unglued_nil : Unglued [] := by simp [Unglued]

theorem Unglued.of_append {u : List Char} (h : Unglued (u ++ s)) : Unglued s := by
  intro before w m after heq
  exact h (u ++ before) w m after (by rw [heq, List.append_assoc])

/-- Where a dollar sign stands, it is enough to look behind the word that follows it. -/
theorem unglued_cons_iff {c : Char} :
    Unglued (c :: s) ↔
      (c = '$' → OrderMacro.head? (s.dropWhile isWordChar) = none) ∧ Unglued s := by
  constructor
  · intro h
    refine ⟨?_, h.of_append (u := [c])⟩
    rintro rfl
    rw [Option.eq_none_iff_forall_ne_some]
    intro ⟨m, n⟩ hm
    obtain ⟨-, after, hend, heq⟩ := head?_eq_some_iff.mp hm
    refine h [] (s.takeWhile isWordChar) m after ?_ hend fun d hd => List.mem_takeWhile_imp hd
    rw [← heq, List.takeWhile_append_dropWhile, List.nil_append]
  · intro ⟨hc, hs⟩ before w m after heq hend hw
    cases before with
    | nil =>
      obtain ⟨rfl, rfl⟩ := List.cons.inj heq
      have hspelling : m.spelling.toList = '$' :: m.spelling.toList.tail := by cases m <;> rfl
      have hdrop : (w ++ (m.spelling.toList ++ after)).dropWhile isWordChar =
          m.spelling.toList ++ after := by
        rw [List.dropWhile_append_of_pos hw, hspelling, List.cons_append,
          List.dropWhile_cons_of_neg (by simp [isWordChar_dollar])]
      have hnone := hc rfl
      rw [hdrop, head?_spelling_append_iff.mpr hend] at hnone
      contradiction
    | cons d before => exact hs before w m after (List.cons.inj heq).2 hend hw

instance : (s : List Char) → Decidable (Unglued s)
  | [] => .isTrue unglued_nil
  | _ :: s =>
    have : Decidable (Unglued s) := instDecidableUnglued s
    decidable_of_iff _ unglued_cons_iff.symm

variable {f : OrderMacro → List Char}

/-- What does not begin with a macro begins as before once its macros are filled in. -/
theorem atWordEnd_fill_pieces (hnone : OrderMacro.head? s = none) (hs : atWordEnd s) :
    atWordEnd (fill f (pieces OrderMacro.head? s)) := by
  cases s with
  | nil => rfl
  | cons c s =>
    rw [pieces_cons_of_none hnone, fill_char]
    exact hs

theorem head?_fill_eq_none (hword : OrderMacro.head? (s.dropWhile isWordChar) = none)
    (hnone : OrderMacro.head? ('$' :: s) = none) :
    OrderMacro.head? ('$' :: fill f (pieces OrderMacro.head? s)) = none := by
  have hends := atWordEnd_dropWhile s
  have hdollar : '$' ∉ s.takeWhile isWordChar := fun hmem =>
    ne_dollar_of_isWordChar (List.mem_takeWhile_imp hmem) rfl
  rw [← List.takeWhile_append_dropWhile (p := isWordChar) (l := s)] at hnone ⊢
  rw [← List.cons_append, OrderMacro.head?_append hends] at hnone
  rw [pieces_plain_append (fun c => head?_eq_none_of_ne) hdollar, fill_append, fill_chars,
    ← List.cons_append, OrderMacro.head?_append (atWordEnd_fill_pieces hword hends), hnone]

/-- No macro is left or made where nothing with a dollar sign is filled in. -/
theorem pieces_fill_of_unglued (h : Unglued s) (hf : ∀ m, '$' ∉ f m) :
    pieces OrderMacro.head? (fill f (pieces OrderMacro.head? s)) =
      (fill f (pieces OrderMacro.head? s)).map .char := by
  revert h
  refine OrderMacro.spells.induction (motive := fun s ps => Unglued s →
    pieces OrderMacro.head? (fill f ps) = (fill f ps).map .char) ?_ ?_ ?_ s
  · exact fun _ => rfl
  · intro c s hnone ih h
    obtain ⟨hword, hs⟩ := unglued_cons_iff.mp h
    have hfilled : OrderMacro.head? (c :: fill f (pieces OrderMacro.head? s)) = none := by
      by_cases hc : c = '$'
      · subst hc
        exact head?_fill_eq_none (hword rfl) hnone
      · exact head?_eq_none_of_ne hc _
    rw [fill_char, pieces_cons_of_none hfilled, ih hs, List.map_cons]
  · intro m t _ ih h
    rw [fill_found, pieces_plain_append (fun c => head?_eq_none_of_ne) (hf m), ih h.of_append,
      List.map_append]

/-! ### Terms without dollar signs -/

theorem not_mem_intercalate {c : Char} {sep : String} {ts : List String} (hsep : c ∉ sep.toList)
    (h : ∀ t ∈ ts, c ∉ t.toList) : c ∉ (sep.intercalate ts).toList := by
  refine intercalate_induction (P := fun s => c ∉ s.toList) List.not_mem_nil ?_ hsep h
  intro s t hs ht
  rw [String.toList_append, List.mem_append, not_or]
  exact ⟨hs, ht⟩

theorem OrderMacro.dollar_not_mem_expansion (h : ∀ term ∈ terms, '$' ∉ term.toList)
    (m : OrderMacro) : '$' ∉ (m.expansion terms).toList := by
  have hcomma : '$' ∉ ", ".toList := by decide
  cases m with
  | forward => exact not_mem_intercalate hcomma h
  | backward =>
    refine not_mem_intercalate hcomma fun reversed hreversed hmem => ?_
    obtain ⟨term, hterm, rfl⟩ := List.mem_map.mp hreversed
    rcases mem_reverseTerm hmem with hold | hblank | hupper
    · exact h term hterm hold
    · exact absurd hblank (by decide)
    · exact absurd hupper (by decide)

/-- Terms without dollar signs leave no macro in a text whose macros are not behind one, so that no
further pass changes anything, with whatever terms. -/
theorem orderMacros_leave_none (hne : terms ≠ []) (hterms : ∀ term ∈ terms, '$' ∉ term.toList)
    (h : Unglued text.toList) (params : List Value) :
    ∃ y, Pass.apply ⟨text, params⟩ (.orderMacros terms) = .ok y ∧
      (¬ ∃ m, OccursIn m y.text.toList) ∧
      ∀ terms', Pass.apply y (.orderMacros terms') = .ok y := by
  refine ⟨_, apply_orderMacros_of_terms hne, ?_⟩
  have hpieces := pieces_fill_of_unglued h (OrderMacro.dollar_not_mem_expansion hterms)
  have hnone : ¬ ∃ m, OccursIn m (String.ofList (fill
      (fun m => (m.expansion terms).toList) (pieces OrderMacro.head? text.toList))).toList := by
    rw [exists_occursIn_iff, String.toList_ofList, hpieces]
    rintro ⟨m, hm⟩
    simp at hm
  exact ⟨hnone, fun terms' => apply_orderMacros_of_not_occursIn hnone⟩

/-- Macros near dollar signs, with a blank between them, and a term that begins like the end of a
macro. -/
theorem orderMacros_leave_none_behind_words :
    (["order_by asc", "b"] : List String) ≠ [] ∧
    (∀ term ∈ ["order_by asc", "b"], '$' ∉ term.toList) ∧
    Unglued "$rev_ a$order_by,$ $rev_order_by".toList ∧
    ∃ y, Pass.apply ⟨"$rev_ a$order_by,$ $rev_order_by", []⟩
        (.orderMacros ["order_by asc", "b"]) = .ok y ∧
      (¬ ∃ m, OccursIn m y.text.toList) ∧
      ∀ terms', Pass.apply y (.orderMacros terms') = .ok y := by
  have hterms : ∀ term ∈ ["order_by asc", "b"], '$' ∉ term.toList := by decide
  have hunglued : Unglued "$rev_ a$order_by,$ $rev_order_by".toList := by decide
  have hne : ["order_by asc", "b"] ≠ [] := List.cons_ne_nil _ _
  exact ⟨hne, hterms, hunglued, orderMacros_leave_none hne hterms hunglued []⟩

end SqlCompose
