import Mathlib
import SqlCompose.Order.Term
import SqlCompose.Proofs.Cut
import SqlCompose.Proofs.Identifier
import SqlCompose.Proofs.Word

/-!
# Directions in an order term

A word names a direction if it spells its keyword letter by letter, in either case
(`ofRun?_eq_some_iff`). The words that do so cut a term into pieces (`cuts_directionPieces`). Words
are not affected by what is written in the place of others, as long as that is a word too, so the
pieces of a term in which words are replaced are those of the term, with the replacements
(`directionPieces_fill`).
-/

namespace SqlCompose

/-! ### Spellings -/

namespace Direction

/-- `c` is the letter `k` of a keyword, in either case. The long s is an S too. -/
def IsLetter (k c : Char) : Prop := c = k ∨ c = k.toLower ∨ k = 'S' ∧ c = 'ſ'

/-- A run of characters is the keyword of a direction, each letter in either case. -/
def SpelledBy (d : Direction) (run : List Char) : Prop :=
  List.Forall₂ IsLetter d.keyword.toList run

theorem toUpper_eq_iff {k c : Char} (hk : k.isUpper) : c.toUpper = k ↔ c = k ∨ c = k.toLower := by
  have hself : k.toUpper = k := Char.toUpper_eq_of_not_isLower (Char.not_isLower_of_isUpper hk)
  constructor
  · rintro rfl
    by_cases hc : c.isLower
    · right
      rw [Char.toLower_toUpper_eq_toLower,
        Char.toLower_eq_of_not_isUpper (Char.not_isUpper_of_isLower hc)]
    · exact .inl (Char.toUpper_eq_of_not_isLower hc).symm
  · rintro (rfl | rfl)
    · exact hself
    · rw [Char.toUpper_toLower_eq_toUpper, hself]

theorem foldLetter_eq_iff {k c : Char} (hk : k.isUpper) : foldLetter c = k ↔ IsLetter k c := by
  unfold foldLetter IsLetter
  by_cases hc : c = 'ſ'
  · subst hc
    have hupper : 'ſ' ≠ k := by
      rintro rfl
      exact absurd hk (by decide)
    have hlower : 'ſ' ≠ k.toLower := by
      intro h
      have hk' := Char.isLower_toLower_eq_isAlpha k
      rw [← h, Char.isAlpha, hk, Bool.true_or] at hk'
      exact absurd hk' (by decide)
    simp [hupper, hlower, eq_comm]
  · simp [hc, toUpper_eq_iff hk]

theorem map_foldLetter_eq_iff {ks run : List Char} (hks : ∀ k ∈ ks, k.isUpper) :
    run.map foldLetter = ks ↔ List.Forall₂ IsLetter ks run := by
  induction ks generalizing run with
  | nil => simp
  | cons k ks ih =>
    rw [List.forall_mem_cons] at hks
    cases run with
    | nil => simp
    | cons c run =>
      rw [List.map_cons, List.cons.injEq, List.forall₂_cons, foldLetter_eq_iff hks.1, ih hks.2]

theorem isUpper_of_mem_keyword (d : Direction) : ∀ k ∈ d.keyword.toList, k.isUpper := by
  have h : d.keyword.toList.all Char.isUpper := by cases d <;> decide
  exact List.all_eq_true.mp h

theorem spelledBy_iff {d : Direction} {run : List Char} :
    d.SpelledBy run ↔ run.map foldLetter = d.keyword.toList :=
  (map_foldLetter_eq_iff d.isUpper_of_mem_keyword).symm

theorem ofRun?_eq_some_iff {run : List Char} {d : Direction} :
    ofRun? run = some d ↔ d.SpelledBy run := by
  rw [spelledBy_iff]
  constructor
  · intro h
    have hd := List.find?_some h
    exact beq_iff_eq.mp hd
  · intro h
    cases d <;> simp [ofRun?, h, keyword]

/-- The keyword itself spells its direction. -/
theorem spelledBy_keyword (d : Direction) : d.SpelledBy d.keyword.toList := by
  rw [spelledBy_iff]
  cases d <;> decide

/-! ### Tokens -/

/-- A direction and a run of characters that spells it. -/
@[ext]
structure Token where
  direction : Direction
  run : List Char
  spelled : direction.SpelledBy run

/-- The token that is spelled in upper case. -/
def token (d : Direction) : Token := ⟨d, d.keyword.toList, d.spelledBy_keyword⟩

/-- The token that a whole run is, if it spells a direction. -/
def tokenOf? (run : List Char) : Option Token :=
  (ofRun? run).attach.map fun d => ⟨d.1, run, ofRun?_eq_some_iff.mp d.2⟩

namespace Token

theorem ofRun?_run (tok : Token) : ofRun? tok.run = some tok.direction :=
  ofRun?_eq_some_iff.mpr tok.spelled

/-- A token is known by its run. -/
theorem run_inj {tok tok' : Token} : tok.run = tok'.run ↔ tok = tok' := by
  refine ⟨fun h => ?_, congrArg Token.run⟩
  have hd := tok.ofRun?_run
  rw [h, tok'.ofRun?_run] at hd
  exact Token.ext (Option.some.inj hd).symm h

theorem ne_nil (tok : Token) : tok.run ≠ [] := by
  intro h
  have hlen := tok.spelled.length_eq
  rw [h] at hlen
  cases hd : tok.direction <;> simp [hd, keyword] at hlen

end Token

theorem isWordChar_of_isLetter {k c : Char} (hk : k.isUpper) (h : IsLetter k c) : isWordChar c := by
  rcases h with rfl | rfl | ⟨-, rfl⟩
  · exact isWordChar_of_isIdentifierChar
      (by simp [isIdentifierChar, Char.isAlphanum, Char.isAlpha, hk])
  · have hlower : k.toLower.isLower := by
      rw [Char.isLower_toLower_eq_isAlpha, Char.isAlpha, hk, Bool.true_or]
    exact isWordChar_of_isIdentifierChar
      (by simp [isIdentifierChar, Char.isAlphanum, Char.isAlpha, hlower])
  · decide

theorem Token.isWordChar (tok : Token) : ∀ c ∈ tok.run, isWordChar c := by
  intro c hc
  have hfold : foldLetter c ∈ tok.direction.keyword.toList := by
    rw [← spelledBy_iff.mp tok.spelled]
    exact List.mem_map_of_mem hc
  have hupper := tok.direction.isUpper_of_mem_keyword _ hfold
  exact isWordChar_of_isLetter hupper ((foldLetter_eq_iff hupper).mp rfl)

theorem tokenOf?_eq_some_iff {run : List Char} {tok : Token} :
    tokenOf? run = some tok ↔ tok.run = run := by
  rw [tokenOf?, Option.map_eq_some_iff]
  constructor
  · rintro ⟨d, -, rfl⟩
    rfl
  · rintro rfl
    exact ⟨⟨tok.direction, tok.ofRun?_run⟩, by simp [tok.ofRun?_run], rfl⟩

/-! ### Pieces of a term -/

/-- The pieces of a run: a token, or characters on their own. -/
def runPieces (run : List Char) : List (Piece Token) :=
  match tokenOf? run with
  | some tok => [.found tok]
  | none => run.map .char

theorem runPieces_run (tok : Token) : runPieces tok.run = [.found tok] := by
  rw [runPieces, tokenOf?_eq_some_iff.mpr rfl]

theorem runPieces_of_ofRun?_eq_none {run : List Char} (h : ofRun? run = none) :
    runPieces run = run.map .char := by
  have hnone : tokenOf? run = none := by simp [tokenOf?, h]
  rw [runPieces, hnone]

theorem exists_token_or_eq_none (run : List Char) :
    (∃ tok : Token, tok.run = run) ∨ ofRun? run = none := by
  cases h : ofRun? run with
  | none => exact .inr rfl
  | some d => exact .inl ⟨⟨d, run, ofRun?_eq_some_iff.mp h⟩, rfl⟩

theorem ofRun?_eq_none {run : List Char} {c : Char} (hc : c ∈ run)
    (h : SqlCompose.isWordChar c = false) : ofRun? run = none := by
  rcases exists_token_or_eq_none run with ⟨tok, rfl⟩ | hnone
  · rw [tok.isWordChar c hc] at h
    contradiction
  · exact hnone

end Direction

open Direction

/-- A text in which the words that name a direction are found. -/
def directionPieces (s : List Char) : List (Piece Token) :=
  (runs isWordChar s).flatMap runPieces

variable {s t w : List Char} {c : Char}

theorem directionPieces_nil : directionPieces [] = [] := rfl

theorem directionPieces_word_append (hne : w ≠ []) (hw : ∀ c ∈ w, isWordChar c)
    (hs : atWordEnd s) : directionPieces (w ++ s) = runPieces w ++ directionPieces s := by
  have hends : ∀ c ∈ s.head?, isWordChar c ≠ true := by
    simpa using atWordEnd_iff.mp hs
  rw [directionPieces, runs_append hne hw hends, List.flatMap_cons]
  rfl

/-- Characters between words are not part of a direction. -/
theorem directionPieces_between_append (hw : ∀ c ∈ w, isWordChar c = false)
    (hs : ∀ c ∈ s.head?, isWordChar c) :
    directionPieces (w ++ s) = w.map .char ++ directionPieces s := by
  cases w with
  | nil => rfl
  | cons c w =>
    have hends : ∀ c ∈ s.head?, isWordChar c ≠ false := by simpa using hs
    rw [directionPieces, runs_append (List.cons_ne_nil c w) hw hends, List.flatMap_cons,
      runPieces_of_ofRun?_eq_none (ofRun?_eq_none List.mem_cons_self (hw c List.mem_cons_self))]
    rfl

theorem directionPieces_cons (hc : isWordChar c = false) :
    directionPieces (c :: s) = .char c :: directionPieces s := by
  obtain ⟨u, v, rfl, hu, hv⟩ := exists_run_append (!isWordChar ·) s
  simp only [Bool.not_eq_true', Bool.not_eq_false'] at hu hv
  rw [← List.cons_append, directionPieces_between_append (List.forall_mem_cons.mpr ⟨hc, hu⟩) hv,
    directionPieces_between_append hu hv, List.map_cons, List.cons_append]

theorem directionPieces_append (ht : atWordEnd t) (s : List Char) :
    directionPieces (s ++ t) = directionPieces s ++ directionPieces t := by
  refine word_induction (motive := fun s =>
    directionPieces (s ++ t) = directionPieces s ++ directionPieces t) rfl ?_ ?_ s
  · intro c s hc ih
    rw [List.cons_append, directionPieces_cons hc, directionPieces_cons hc, ih, List.cons_append]
  · intro w s hne hw hs ih
    rw [List.append_assoc, directionPieces_word_append hne hw (atWordEnd_append hs ht), ih,
      directionPieces_word_append hne hw hs, List.append_assoc]

theorem fill_runPieces (w : List Char) : fill Token.run (runPieces w) = w := by
  rcases exists_token_or_eq_none w with ⟨tok, rfl⟩ | h
  · rw [runPieces_run, fill_found, fill_nil, List.append_nil]
  · rw [runPieces_of_ofRun?_eq_none h, fill_chars]

theorem fill_directionPieces (s : List Char) : fill Token.run (directionPieces s) = s := by
  refine word_induction (motive := fun s => fill Token.run (directionPieces s) = s) rfl ?_ ?_ s
  · intro c s hc ih
    rw [directionPieces_cons hc, fill_char, ih]
  · intro w s hne hw hs ih
    rw [directionPieces_word_append hne hw hs, fill_append, fill_runPieces, ih]

/-! ### Directions as marks -/

/-- The directions of a text are told among its pieces by standing there as words. -/
def DirectionCuts (ps : List (Piece Token)) (text : List Char) : Prop :=
  Cuts Token.run (fun before tok after => IsWord before tok.run after) ps text

theorem foundAt_runPieces_append_iff {ps : List (Piece Token)} {before after : List Char}
    {tok : Token} :
    FoundAt Token.run (runPieces w ++ ps) before tok after ↔
      (before = [] ∧ tok.run = w ∧ after = fill Token.run ps) ∨
        ∃ before', before = w ++ before' ∧ FoundAt Token.run ps before' tok after := by
  rcases exists_token_or_eq_none w with ⟨tok', rfl⟩ | h
  · rw [runPieces_run, List.singleton_append, foundAt_found_iff, Token.run_inj]
  · have hne : tok.run ≠ w := by
      rintro rfl
      rw [tok.ofRun?_run] at h
      contradiction
    rw [runPieces_of_ofRun?_eq_none h, foundAt_chars_append_iff]
    simp [hne]

theorem cuts_directionPieces (s : List Char) : DirectionCuts (directionPieces s) s := by
  refine ⟨fill_directionPieces s, ?_⟩
  refine word_induction (motive := fun s => ∀ before tok after,
    FoundAt Token.run (directionPieces s) before tok after ↔
      s = before ++ (tok.run ++ after) ∧ IsWord before tok.run after) ?_ ?_ ?_ s
  · intro before tok after
    refine iff_of_false not_foundAt_nil ?_
    rintro ⟨heq, -⟩
    simp [tok.ne_nil] at heq
  · intro c s hc ih before tok after
    rw [directionPieces_cons hc, foundAt_char_iff]
    constructor
    · rintro ⟨before', rfl, h⟩
      obtain ⟨rfl, hword⟩ := (ih before' tok after).mp h
      exact ⟨rfl, (isWord_cons_iff hc).mpr hword⟩
    · rintro ⟨heq, hword⟩
      cases before with
      | nil =>
        -- A token begins with a character of a word.
        obtain ⟨d, run, hrun⟩ := List.exists_cons_of_ne_nil tok.ne_nil
        rw [List.nil_append, hrun, List.cons_append] at heq
        obtain ⟨rfl, -⟩ := List.cons.inj heq
        rw [tok.isWordChar c (by simp [hrun])] at hc
        contradiction
      | cons d before =>
        obtain ⟨rfl, rfl⟩ := List.cons.inj heq
        exact ⟨before, rfl, (ih before tok after).mpr ⟨rfl, (isWord_cons_iff hc).mp hword⟩⟩
  · intro w s hne hw hs ih before tok after
    rw [directionPieces_word_append hne hw hs, foundAt_runPieces_append_iff,
      fill_directionPieces, isWord_append_iff hne hw hs]
    simp only [ih]

theorem existsUnique_directionCuts (s : List Char) : ∃! ps, DirectionCuts ps s :=
  ⟨directionPieces s, cuts_directionPieces s, fun _ h => h.eq Token.ne_nil (cuts_directionPieces s)⟩

/-! ### Other tokens in the place of those of a text -/

/-- A piece with another find. -/
def Piece.map {α β : Type} (g : α → β) : Piece α → Piece β
  | .char c => .char c
  | .found a => .found (g a)

theorem Piece.map_map_char {α β : Type} (g : α → β) (s : List Char) :
    (s.map Piece.char).map (Piece.map g) = s.map Piece.char :=
  List.map_map

theorem fill_map {α β : Type} (f : β → List Char) (g : α → β) (ps : List (Piece α)) :
    fill f (ps.map (Piece.map g)) = fill (fun a => f (g a)) ps := by
  induction ps with
  | nil => rfl
  | cons p ps ih =>
    rw [List.map_cons]
    cases p with
    | char c => rw [Piece.map, fill_char, fill_char, ih]
    | found a => rw [Piece.map, fill_found, fill_found, ih]

theorem found_mem_map_iff {α β : Type} {g : α → β} {ps : List (Piece α)} {b : β} :
    .found b ∈ ps.map (Piece.map g) ↔ ∃ a, .found a ∈ ps ∧ b = g a := by
  rw [List.mem_map]
  constructor
  · rintro ⟨_ | a, hp, heq⟩
    · simp [Piece.map] at heq
    · exact ⟨a, hp, (Piece.found.inj heq).symm⟩
  · rintro ⟨a, ha, rfl⟩
    exact ⟨.found a, ha, rfl⟩

theorem atWordEnd_fill_directionPieces (f : Token → List Char) (hs : atWordEnd s) :
    atWordEnd (fill f (directionPieces s)) := by
  cases s with
  | nil => rfl
  | cons c s =>
    have hc := atWordEnd_iff.mp hs c rfl
    rw [directionPieces_cons hc, fill_char]
    simpa [atWordEnd] using hc

theorem directionPieces_fill_runPieces_append (g : Token → Token) (hne : w ≠ [])
    (hw : ∀ c ∈ w, isWordChar c) (hs : atWordEnd s) :
    directionPieces (fill (fun tok => (g tok).run) (runPieces w) ++ s) =
      (runPieces w).map (Piece.map g) ++ directionPieces s := by
  rcases exists_token_or_eq_none w with ⟨tok, rfl⟩ | h
  · rw [runPieces_run, fill_found, fill_nil, List.append_nil,
      directionPieces_word_append (g tok).ne_nil (g tok).isWordChar hs, runPieces_run]
    rfl
  · rw [runPieces_of_ofRun?_eq_none h, fill_chars, directionPieces_word_append hne hw hs,
      runPieces_of_ofRun?_eq_none h, Piece.map_map_char]

theorem directionPieces_fill (g : Token → Token) (s : List Char) :
    directionPieces (fill (fun tok => (g tok).run) (directionPieces s)) =
      (directionPieces s).map (Piece.map g) := by
  refine word_induction (motive := fun s =>
    directionPieces (fill (fun tok => (g tok).run) (directionPieces s)) =
      (directionPieces s).map (Piece.map g)) rfl ?_ ?_ s
  · intro c s hc ih
    rw [directionPieces_cons hc, fill_char, directionPieces_cons hc, ih, List.map_cons, Piece.map]
  · intro w s hne hw hs ih
    rw [directionPieces_word_append hne hw hs, fill_append,
      directionPieces_fill_runPieces_append g hne hw (atWordEnd_fill_directionPieces _ hs), ih,
      List.map_append]

end SqlCompose
