import SqlCompose.Proofs.Placeholder.Binding

/-!
# Reading markers back

A driver reads the markers of its dialect out of a statement from left to right: question marks,
numbers behind dollar signs, or `%s` where `%%` stands for a percent sign. What it finds are the
placeholders of the text that the markers were written into, in order, as long as that text holds
nothing that reads like a marker.
-/

namespace SqlCompose

open Placeholder

/-! ### Readers -/

/-- A dollar sign at the head of a text and all digits behind it, of which there is one at least. -/
def numberedMarker? : List Char → Option (Nat × Nat)
  | '$' :: s =>
    let digits := s.takeWhile Char.isDigit
    if digits.isEmpty then none else some (Nat.ofDigitChars 10 digits 0, digits.length + 1)
  | _ => none

def questionMark? : List Char → Option (Unit × Nat)
  | '?' :: _ => some ((), 1)
  | _ => none

/-- What a percent sign starts in a text with markers `%s`. -/
inductive FormatToken where
  | percent
  | marker
  /-- A percent sign that is neither doubled nor part of a marker. -/
  | stray
  deriving DecidableEq

def formatToken? : List Char → Option (FormatToken × Nat)
  | '%' :: '%' :: _ => some (.percent, 2)
  | '%' :: 's' :: _ => some (.marker, 2)
  | '%' :: _ => some (.stray, 1)
  | _ => none

/-! ### Texts without accidental markers -/

/-- No dollar sign stands right before a digit. -/
def NoDollarDigit (s : List Char) : Prop :=
  ∀ before c after, s = before ++ '$' :: c :: after → c.isDigit = false

/-- Each question mark starts a placeholder. -/
def QuestionMarksNamed (s : List Char) : Prop :=
  ∀ before after, s = before ++ '?' :: after → ∃ c t, after = c :: t ∧ isNameStart c

/-- Each run of a character that cannot be made longer is of even length. -/
def EvenRuns (c : Char) (s : List Char) : Prop :=
  ∀ before n after, s = before ++ List.replicate n c ++ after → before.getLast? ≠ some c →
    after.head? ≠ some c → 2 ∣ n

/-! ### Numbered markers -/

/-- A text that does not go on with a number. -/
def NumberEnds (t : List Char) : Prop := ∀ c ∈ t.head?, c.isDigit = false

theorem numberEnds_of_nameEnds {t : List Char} (h : NameEnds t) : NumberEnds t := by
  intro c hc
  have := h c hc
  simp only [SqlCompose.isIdentifierChar, Bool.or_eq_false_iff, Char.isAlphanum] at this
  exact this.1.2

def numberedSpelling (n : Nat) : List Char := '$' :: Nat.toDigits 10 n

theorem toList_postgres_mark (n : Nat) :
    ("$" ++ toString (n : Int)).toList = numberedSpelling n := by
  have : toString (n : Int) = n.repr := rfl
  simp [numberedSpelling, this, Nat.toList_repr]

theorem marksAfter_postgres (bound k : Nat) :
    marksAfter (fun n => "$" ++ toString n) bound k =
      (List.range' (bound + 1) k).map numberedSpelling := by
  simp only [marksAfter, toList_postgres_mark]

theorem takeWhile_toDigits (n : Nat) {t : List Char} (ht : NumberEnds t) :
    (Nat.toDigits 10 n ++ t).takeWhile Char.isDigit = Nat.toDigits 10 n :=
  takeWhile_run_append (fun _ hc => Nat.isDigit_of_mem_toDigits (by decide) (by decide) hc) ht

theorem numberedMarker?_spelling (n : Nat) {t : List Char} (ht : NumberEnds t) :
    numberedMarker? (numberedSpelling n ++ t) = some (n, (numberedSpelling n).length) := by
  simp only [numberedSpelling, List.cons_append, numberedMarker?, takeWhile_toDigits n ht]
  simp [Nat.toDigits_ne_nil, Nat.ofDigitChars_ten_toDigits]

theorem numberedMarker?_eq_none {c : Char} {s : List Char} (h : c = '$' → NumberEnds s) :
    numberedMarker? (c :: s) = none := by
  by_cases hc : c = '$'
  · subst hc
    have hs : s.takeWhile Char.isDigit = [] := by
      cases s with
      | nil => rfl
      | cons d s => simp [h rfl d rfl]
    simp [numberedMarker?, hs]
  · simp [numberedMarker?, hc]

theorem NumberEnds.append {s t : List Char} (hs : NumberEnds s) (ht : NumberEnds t) :
    NumberEnds (s ++ t) := by
  cases s with
  | nil => exact ht
  | cons c s => simpa [NumberEnds] using hs

theorem Resumes.numberEnds {ns : List Nat} {t : List Char} (h : Resumes numberedSpelling ns t) :
    NumberEnds t := by
  rcases h with rfl | ⟨n, -, t, rfl⟩
  · simp [NumberEnds]
  · have : Char.isDigit '$' = false := by decide
    simp [NumberEnds, numberedSpelling, this]

theorem pieces_numberedMarker {gs : List (List Char)} {ns : List Nat}
    (hlen : gs.length = ns.length + 1) (hends : ∀ g ∈ gs.tail, NameEnds g)
    (hfree : ∀ g ∈ gs, NoDollarDigit g) :
    pieces numberedMarker? (weave gs (ns.map numberedSpelling)) = spread gs ns := by
  refine pieces_weave hlen (fun n _ => List.cons_ne_nil _ _) ?_ ?_
  · intro g hg u c v t hu ht
    refine numberedMarker?_eq_none ?_
    rintro rfl
    cases v with
    | nil => exact ht.numberEnds
    | cons d v =>
      intro d' hd'
      obtain rfl : d = d' := by simpa using hd'
      exact hfree g hg u d v hu
  · intro n _ g hg t ht
    exact numberedMarker?_spelling n ((numberEnds_of_nameEnds (hends g hg)).append ht.numberEnds)

/-! ### Question marks -/

theorem count_questionMark_spelling {name : String} (h : IsName name) :
    (spelling name).count '?' = 1 := by
  rw [spelling, List.count_cons_self,
    List.count_eq_zero.mpr (h.not_mem isIdentifierChar_questionMark)]

theorem count_questionMark_spellings {names : List String} (h : ∀ name ∈ names, IsName name) :
    (names.map spelling).flatten.count '?' = names.length := by
  induction names with
  | nil => rfl
  | cons name names ih =>
    rw [List.map_cons, List.flatten_cons, List.count_append,
      count_questionMark_spelling (h name List.mem_cons_self),
      ih fun n hn => h n (List.mem_cons_of_mem _ hn), List.length_cons, Nat.add_comm]

theorem questionMarksNamed_cons {c : Char} {s : List Char} (hc : c ≠ '?') :
    QuestionMarksNamed (c :: s) ↔ QuestionMarksNamed s := by
  constructor
  · intro h before after heq
    exact h (c :: before) after (by rw [heq, List.cons_append])
  · intro h before after heq
    cases before with
    | nil => exact absurd (List.cons.inj heq).1 hc
    | cons d before => exact h before after (List.cons.inj heq).2

theorem questionMarksNamed_append {w s : List Char} (hw : '?' ∉ w) :
    QuestionMarksNamed (w ++ s) ↔ QuestionMarksNamed s := by
  induction w with
  | nil => rfl
  | cons c w ih =>
    simp only [List.mem_cons, not_or] at hw
    rw [List.cons_append, questionMarksNamed_cons (Ne.symm hw.1), ih hw.2]

theorem questionMarksNamed_spelling_append {name : String} {s : List Char} (h : IsName name) :
    QuestionMarksNamed (spelling name ++ s) ↔ QuestionMarksNamed s := by
  rw [← questionMarksNamed_append (s := s) (h.not_mem isIdentifierChar_questionMark), spelling,
    List.cons_append]
  constructor
  · intro hq before after heq
    exact hq ('?' :: before) after (by rw [heq, List.cons_append])
  · intro hq before after heq
    cases before with
    | nil =>
      obtain ⟨c, w, hw, hc, -⟩ := h
      obtain rfl := (List.cons.inj heq).2
      exact ⟨c, w ++ s, by rw [hw, List.cons_append], hc⟩
    | cons d before => exact hq before after (List.cons.inj heq).2

/-- A question mark without a name stands in a gap. -/
theorem questionMarksNamed_iff (text : List Char) :
    QuestionMarksNamed text ↔ '?' ∉ (gaps (pieces head? text)).flatten := by
  refine spells.induction
    (motive := fun s ps => QuestionMarksNamed s ↔ '?' ∉ (gaps ps).flatten) ?_ ?_ ?_ text
  · simp [QuestionMarksNamed, gaps]
  · intro c s hc ih
    obtain ⟨g, gs, hg⟩ := List.exists_cons_of_ne_nil (gaps_ne_nil (pieces head? s))
    have hmem : '?' ∉ (gaps (.char c :: pieces head? s)).flatten ↔
        c ≠ '?' ∧ '?' ∉ (gaps (pieces head? s)).flatten := by
      simp [gaps, hg, eq_comm]
    rw [hmem]
    by_cases h : c = '?'
    · subst h
      simp only [ne_eq, not_true, false_and, iff_false]
      intro hq
      obtain ⟨d, t, rfl, hd⟩ := hq [] s rfl
      rw [← Option.not_isSome_iff_eq_none, isSome_head?_iff] at hc
      exact hc ⟨d, t, rfl, hd⟩
    · rw [questionMarksNamed_cons h, ih]
      simp [h]
  · intro name t hname ih
    rw [questionMarksNamed_spelling_append (head?_eq_some_iff.mp hname).1, ih]
    simp [gaps]

theorem pieces_questionMark {gs : List (List Char)} {k : Nat} (hlen : gs.length = k + 1)
    (h : '?' ∉ gs.flatten) :
    pieces questionMark? (weave gs ((List.replicate k ()).map fun _ => ['?'])) =
      spread gs (List.replicate k ()) := by
  refine pieces_weave (by simpa using hlen) (by simp) ?_ ?_
  · intro g hg u c v t hu _
    have hc : c ≠ '?' := by
      rintro rfl
      exact h (List.mem_flatten.mpr ⟨g, hg, by simp [hu]⟩)
    simp [questionMark?, hc]
  · intro _ _ g _ t _
    rfl

/-! ### Percent signs -/

/-- Percent signs in pairs, from the left. -/
inductive Doubled : List Char → Prop where
  | nil : Doubled []
  | char : c ≠ '%' → Doubled s → Doubled (c :: s)
  | percent : Doubled s → Doubled ('%' :: '%' :: s)

theorem EvenRuns.of_cons {c d : Char} {s : List Char} (h : EvenRuns c (d :: s)) (hd : d ≠ c) :
    EvenRuns c s := by
  intro before n after heq hbefore hafter
  refine h (d :: before) n after (by rw [heq]; simp) ?_ hafter
  cases before with
  | nil => simpa using hd
  | cons e before => simpa [List.getLast?_cons_cons] using hbefore

theorem EvenRuns.of_pair {c : Char} {s : List Char} (h : EvenRuns c (c :: c :: s)) :
    EvenRuns c s := by
  intro before n after heq hbefore hafter
  cases before with
  | nil =>
    -- The run at the start of `s` goes on with the pair before it.
    have := h [] (n + 2) after (by rw [heq]; simp [List.replicate_succ]) (by simp) hafter
    omega
  | cons e before =>
    exact h (c :: c :: e :: before) n after (by rw [heq]; simp)
      (by simpa [List.getLast?_cons_cons] using hbefore) hafter

theorem doubled_of_evenRuns (s : List Char) (h : EvenRuns '%' s) : Doubled s := by
  induction hl : s.length using Nat.strongRecOn generalizing s with
  | _ l ih =>
    subst hl
    cases s with
    | nil => exact .nil
    | cons c s =>
      by_cases hc : c = '%'
      · subst hc
        cases s with
        | nil => exact absurd (h [] 1 [] rfl (by simp) (by simp)) (by decide)
        | cons d s =>
          by_cases hd : d = '%'
          · subst hd
            exact .percent (ih s.length (by simp only [List.length_cons]; omega) s h.of_pair rfl)
          · exact absurd (h [] 1 (d :: s) rfl (by simp) (by simpa using hd)) (by decide)
      · exact .char hc (ih s.length (by simp) s (h.of_cons hc) rfl)

theorem Doubled.evenRuns {s : List Char} (h : Doubled s) : EvenRuns '%' s := by
  intro before n after heq hbefore hafter
  induction h generalizing before n with
  | nil =>
    have := congrArg List.length heq
    simp only [List.length_nil, List.length_append, List.length_replicate] at this
    omega
  | @char c s hc _ ih =>
    cases before with
    | nil =>
      cases n with
      | zero => exact Nat.dvd_zero 2
      | succ n => exact absurd (List.cons.inj heq).1 hc
    | cons d before =>
      refine ih before n (List.cons.inj heq).2 ?_
      cases before with
      | nil => simp
      | cons e before => simpa [List.getLast?_cons_cons] using hbefore
  | @percent s _ ih =>
    match before with
    | [] =>
      match n with
      | 0 => exact absurd (by rw [← show _ = after from heq]; rfl) hafter
      | 1 => exact absurd (by rw [← show _ = after from (List.cons.inj heq).2]; rfl) hafter
      | n + 2 =>
        have := ih [] n (List.cons.inj (List.cons.inj heq).2).2 (by simp)
        omega
    | [d] => exact absurd (by rw [← (List.cons.inj heq).1]; rfl) hbefore
    | d :: e :: before =>
      refine ih before n (List.cons.inj (List.cons.inj heq).2).2 ?_
      cases before with
      | nil => simp
      | cons f before => simpa [List.getLast?_cons_cons] using hbefore

/-- A pair does not reach over the start of a text without a percent sign there. -/
theorem Doubled.of_append {g t : List Char} (ht : ∀ c ∈ t.head?, c ≠ '%') (h : Doubled (g ++ t)) :
    Doubled g ∧ Doubled t := by
  generalize hs : g ++ t = s at h
  induction h generalizing g with
  | nil =>
    obtain ⟨rfl, rfl⟩ := List.append_eq_nil_iff.mp hs
    exact ⟨.nil, .nil⟩
  | @char c s hc hs' ih =>
    cases g with
    | nil => exact ⟨.nil, by rw [List.nil_append] at hs; exact hs ▸ .char hc hs'⟩
    | cons d g =>
      rw [List.cons_append] at hs
      obtain ⟨rfl, hrest⟩ := List.cons.inj hs
      exact ⟨.char hc (ih hrest).1, (ih hrest).2⟩
  | @percent s hs' ih =>
    cases g with
    | nil =>
      rw [List.nil_append] at hs
      exact absurd rfl (ht '%' (by simp [hs]))
    | cons d g =>
      cases g with
      | nil =>
        rw [List.cons_append, List.nil_append] at hs
        exact absurd rfl (ht '%' (by simp [(List.cons.inj hs).2]))
      | cons e g =>
        simp only [List.cons_append, List.cons.injEq] at hs
        obtain ⟨rfl, rfl, hs⟩ := hs
        exact ⟨.percent (ih hs).1, (ih hs).2⟩

theorem Doubled.tail {c : Char} {s : List Char} (hc : c ≠ '%') (h : Doubled (c :: s)) :
    Doubled s := by
  cases h with
  | char _ h => exact h
  | percent => exact absurd rfl hc

theorem Doubled.of_chars_append {w t : List Char} (hw : '%' ∉ w) (h : Doubled (w ++ t)) :
    Doubled t := by
  induction w with
  | nil => exact h
  | cons c w ih =>
    simp only [List.mem_cons, not_or] at hw
    exact ih hw.2 (h.tail (Ne.symm hw.1))

theorem percent_not_mem_spelling {name : String} (h : IsName name) : '%' ∉ spelling name := by
  intro hmem
  rcases List.mem_cons.mp hmem with h' | hmem
  · exact absurd h' (by decide)
  · exact h.not_mem (by decide) hmem

theorem Doubled.gaps {gs : List (List Char)} {names : List String}
    (hlen : gs.length = names.length + 1) (hnames : ∀ name ∈ names, IsName name)
    (h : Doubled (weave gs (names.map spelling))) : ∀ g ∈ gs, Doubled g := by
  induction names generalizing gs with
  | nil =>
    obtain ⟨g, rfl⟩ := List.length_eq_one_iff.mp hlen
    simpa using h
  | cons name names ih =>
    obtain ⟨g, gs, rfl⟩ := List.exists_cons_of_length_eq_add_one hlen
    rw [List.map_cons, weave_cons, List.append_assoc] at h
    obtain ⟨hg, h⟩ := h.of_append (by simp [spelling])
    intro g' hg'
    rcases List.mem_cons.mp hg' with rfl | hg'
    · exact hg
    · exact ih (by simpa using hlen) (fun n hn => hnames n (List.mem_cons_of_mem _ hn))
        (h.of_chars_append (percent_not_mem_spelling (hnames name List.mem_cons_self))) g' hg'

/-- Of a gap only doubled percent signs are read, whatever follows it. -/
theorem occurrences_formatToken_append {g : List Char} (h : Doubled g) (t : List Char) :
    ∃ n, occurrences formatToken? (g ++ t) =
      List.replicate n .percent ++ occurrences formatToken? t := by
  simp only [← finds_pieces]
  induction h with
  | nil => exact ⟨0, rfl⟩
  | @char c s hc _ ih =>
    obtain ⟨n, ih⟩ := ih
    refine ⟨n, ?_⟩
    rw [List.cons_append, pieces_cons_of_none (by simp [formatToken?, hc]), finds_char, ih]
  | percent _ ih =>
    obtain ⟨n, ih⟩ := ih
    refine ⟨n + 1, ?_⟩
    rw [List.cons_append, List.cons_append, pieces_cons_of_some rfl, finds_found]
    simpa [List.replicate_succ] using ih

theorem occurrences_formatToken {gs : List (List Char)} {k : Nat} (hlen : gs.length = k + 1)
    (h : ∀ g ∈ gs, Doubled g) :
    .stray ∉ occurrences formatToken? (weave gs (List.replicate k ['%', 's'])) ∧
      (occurrences formatToken? (weave gs (List.replicate k ['%', 's']))).count .marker = k := by
  induction k generalizing gs with
  | zero =>
    obtain ⟨g, rfl⟩ := List.length_eq_one_iff.mp hlen
    obtain ⟨n, hn⟩ := occurrences_formatToken_append (h g List.mem_cons_self) []
    simp only [List.replicate_zero, weave_nil_marks, List.flatten_cons, List.flatten_nil, hn]
    simp [occurrences, List.count_replicate]
  | succ k ih =>
    obtain ⟨g, gs, rfl⟩ := List.exists_cons_of_length_eq_add_one hlen
    obtain ⟨n, hn⟩ := occurrences_formatToken_append (h g List.mem_cons_self)
      (['%', 's'] ++ weave gs (List.replicate k ['%', 's']))
    have hmark : occurrences formatToken? (['%', 's'] ++ weave gs (List.replicate k ['%', 's'])) =
        .marker :: occurrences formatToken? (weave gs (List.replicate k ['%', 's'])) := rfl
    obtain ⟨hstray, hcount⟩ := ih (by simpa using hlen)
      fun g' hg' => h g' (List.mem_cons_of_mem _ hg')
    rw [List.replicate_succ, weave_cons, List.append_assoc, hn, hmark]
    simp [hstray, hcount, List.count_replicate]

/-! ### The markers of a statement -/

section

variable {text out : String} {gs : List (List Char)} {names : List String}
  {values : List (String × Value)} {params all : List Value}

theorem noDollarDigit_of_infix {g s : List Char} (hg : g <:+: s) (h : NoDollarDigit s) :
    NoDollarDigit g := by
  obtain ⟨x, y, rfl⟩ := hg
  intro before c after heq
  exact h (x ++ before) c (after ++ y) (by simp [heq])

theorem numberedMarkers_of_bind (hs : Splits text.toList gs names)
    (h : bindPlaceholders Dialect.postgres.marker values text params = .ok (out, all))
    (hfree : NoDollarDigit text.toList) :
    occurrences numberedMarker? out.toList = List.range' (params.length + 1) names.length ∧
      weave (gaps (pieces numberedMarker? out.toList)) (names.map spelling) = text.toList := by
  obtain ⟨-, hout⟩ := bindPlaceholders_eq_ok (fun _ => rfl) hs h
  have hmarks := marksAfter_postgres params.length names.length
  have hlen : gs.length = (List.range' (params.length + 1) names.length).length + 1 := by
    rw [List.length_range', hs.length_eq]
  have hgaps : ∀ g ∈ gs, NoDollarDigit g := by
    intro g hg
    refine noDollarDigit_of_infix ?_ hfree
    rw [hs.text_eq]
    exact infix_weave (by rw [List.length_map, hs.length_eq]) hg
  rw [hout, hmarks, hs.text_eq]
  exact weave_gaps_of_pieces_eq (pieces_numberedMarker hlen hs.nameEnds hgaps) hlen _

theorem Placeholder.Splits.count_questionMark (hs : Splits text.toList gs names) :
    text.toList.count '?' = gs.flatten.count '?' + names.length := by
  rw [hs.text_eq, count_weave _ (by rw [List.length_map, hs.length_eq]),
    count_questionMark_spellings hs.isName]

theorem Placeholder.Splits.questionMarksNamed_iff (hs : Splits text.toList gs names) :
    QuestionMarksNamed text.toList ↔ '?' ∉ gs.flatten := by
  rw [SqlCompose.questionMarksNamed_iff, ← (splits_iff.mp hs).1]

theorem marksAfter_questionMark (bound k : Nat) :
    marksAfter (fun _ => "?") bound k = (List.replicate k ()).map fun _ => ['?'] := by
  rw [marksAfter_const, List.map_replicate]
  rfl

theorem count_questionMark_of_bind (hs : Splits text.toList gs names)
    (h : bindPlaceholders Dialect.sqlite.marker values text params = .ok (out, all)) :
    out.toList.count '?' = text.toList.count '?' := by
  obtain ⟨-, hout⟩ := bindPlaceholders_eq_ok (fun _ => rfl) hs h
  rw [hs.count_questionMark, hout, marksAfter_questionMark,
    count_weave _ (by rw [List.length_map, List.length_replicate, hs.length_eq])]
  simp

theorem questionMarks_of_bind (hs : Splits text.toList gs names)
    (h : bindPlaceholders Dialect.sqlite.marker values text params = .ok (out, all))
    (hnamed : QuestionMarksNamed text.toList) :
    occurrences questionMark? out.toList = List.replicate names.length () ∧
      weave (gaps (pieces questionMark? out.toList)) (names.map spelling) = text.toList := by
  obtain ⟨-, hout⟩ := bindPlaceholders_eq_ok (fun _ => rfl) hs h
  have hgaps := hs.questionMarksNamed_iff.mp hnamed
  rw [hout, marksAfter_questionMark, hs.text_eq]
  exact weave_gaps_of_pieces_eq (pieces_questionMark hs.length_eq hgaps)
    (by rw [List.length_replicate, hs.length_eq]) _

/-- Question marks are as many as parameters only if no other question mark is there. -/
theorem count_questionMark_eq_iff (hs : Splits text.toList gs names)
    (h : bindPlaceholders Dialect.sqlite.marker values text [] = .ok (out, all)) :
    out.toList.count '?' = all.length ↔ QuestionMarksNamed text.toList := by
  obtain ⟨⟨new, hall, hnew⟩, -⟩ := bindPlaceholders_eq_ok (fun _ => rfl) hs h
  have hlen : all.length = names.length := by
    rw [hall, List.nil_append]
    simpa using congrArg List.length hnew
  rw [count_questionMark_of_bind hs h, hs.count_questionMark, hlen, hs.questionMarksNamed_iff,
    ← List.count_eq_zero]
  omega

theorem formatTokens_of_bind (hs : Splits text.toList gs names)
    (h : bindPlaceholders Dialect.mysql.marker values text params = .ok (out, all))
    (heven : EvenRuns '%' text.toList) :
    .stray ∉ occurrences formatToken? out.toList ∧
      (occurrences formatToken? out.toList).count .marker = names.length := by
  obtain ⟨-, hout⟩ := bindPlaceholders_eq_ok (fun _ => rfl) hs h
  have hmarks : marksAfter (fun _ => "%s") params.length names.length =
      List.replicate names.length ['%', 's'] := marksAfter_const "%s" _ _
  have hdoubled := doubled_of_evenRuns _ heven
  rw [hs.text_eq] at hdoubled
  rw [hout, hmarks]
  exact occurrences_formatToken hs.length_eq (hdoubled.gaps hs.length_eq hs.isName)

/-- The readings of what binding writes, by dialect, where `names` are the placeholders of the
text. The original text comes back when placeholders are put where markers are read. -/
theorem driver_reads_bound_parameters (hs : Splits text.toList gs names) :
    (bindPlaceholders Dialect.postgres.marker values text params = .ok (out, all) →
      BindsNames values names params all ∧
      (NoDollarDigit text.toList →
        occurrences numberedMarker? out.toList = List.range' (params.length + 1) names.length ∧
        weave (gaps (pieces numberedMarker? out.toList)) (names.map spelling) = text.toList)) ∧
    (bindPlaceholders Dialect.sqlite.marker values text params = .ok (out, all) →
      BindsNames values names params all ∧
      out.toList.count '?' = text.toList.count '?' ∧
      (params = [] → (out.toList.count '?' = all.length ↔ QuestionMarksNamed text.toList)) ∧
      (QuestionMarksNamed text.toList →
        occurrences questionMark? out.toList = List.replicate names.length () ∧
        weave (gaps (pieces questionMark? out.toList)) (names.map spelling) = text.toList)) ∧
    (bindPlaceholders Dialect.mysql.marker values text params = .ok (out, all) →
      BindsNames values names params all ∧
      (EvenRuns '%' text.toList →
        .stray ∉ occurrences formatToken? out.toList ∧
        (occurrences formatToken? out.toList).count .marker = names.length)) := by
  refine ⟨fun h => ⟨?_, numberedMarkers_of_bind hs h⟩, fun h => ⟨?_, ?_, ?_, ?_⟩,
    fun h => ⟨?_, formatTokens_of_bind hs h⟩⟩
  · exact (bindPlaceholders_eq_ok (fun _ => rfl) hs h).1
  · exact (bindPlaceholders_eq_ok (fun _ => rfl) hs h).1
  · exact count_questionMark_of_bind hs h
  · rintro rfl
    exact count_questionMark_eq_iff hs h
  · exact questionMarks_of_bind hs h
  · exact (bindPlaceholders_eq_ok (fun _ => rfl) hs h).1

end

/-- Markers next to a dollar sign, to each other and to a doubled percent sign. -/
theorem driver_reads_glued_markers :
    (Splits "$?a1?_b%%".toList [['$'], [], ['%', '%']] ["a1", "_b"] ∧
      NoDollarDigit "$?a1?_b%%".toList ∧ QuestionMarksNamed "$?a1?_b%%".toList ∧
      EvenRuns '%' "$?a1?_b%%".toList) ∧
    (bindPlaceholders Dialect.postgres.marker [("_b", .int 8), ("a1", .null)] "$?a1?_b%%"
        [.bool true] = .ok ("$$2$3%%", [.bool true, .null, .int 8]) ∧
      occurrences numberedMarker? "$$2$3%%".toList = [2, 3] ∧
      weave (gaps (pieces numberedMarker? "$$2$3%%".toList)) (["a1", "_b"].map spelling) =
        "$?a1?_b%%".toList) ∧
    (bindPlaceholders Dialect.sqlite.marker [("_b", .int 8), ("a1", .null)] "$?a1?_b%%" [] =
        .ok ("$??%%", [.null, .int 8]) ∧
      ("$??%%".toList.count '?' = 2 ↔ QuestionMarksNamed "$?a1?_b%%".toList) ∧
      occurrences questionMark? "$??%%".toList = [(), ()] ∧
      weave (gaps (pieces questionMark? "$??%%".toList)) (["a1", "_b"].map spelling) =
        "$?a1?_b%%".toList) ∧
    (bindPlaceholders Dialect.mysql.marker [("_b", .int 8), ("a1", .null)] "$?a1?_b%%" [] =
        .ok ("$%s%s%%", [.null, .int 8]) ∧
      .stray ∉ occurrences formatToken? "$%s%s%%".toList ∧
      (occurrences formatToken? "$%s%s%%".toList).count .marker = 2) := by
  have hs : Splits "$?a1?_b%%".toList [['$'], [], ['%', '%']] ["a1", "_b"] :=
    splits_iff.mpr (by decide +kernel)
  have hdollar : NoDollarDigit "$?a1?_b%%".toList := by
    intro before c after heq
    replace heq : '$' :: "?a1?_b%%".toList = before ++ '$' :: c :: after := heq
    cases before with
    | nil =>
      obtain rfl : '?' = c := (List.cons.inj (List.cons.inj heq).2).1
      rfl
    | cons d before =>
      have : '$' ∈ "?a1?_b%%".toList := by rw [(List.cons.inj heq).2]; simp
      exact absurd this (by decide)
  have hnamed : QuestionMarksNamed "$?a1?_b%%".toList :=
    hs.questionMarksNamed_iff.mpr (by decide)
  have heven : EvenRuns '%' "$?a1?_b%%".toList := by
    refine Doubled.evenRuns (s := "$?a1?_b".toList ++ ['%', '%']) ?_
    iterate 7 refine .char (by decide) ?_
    exact .percent .nil
  have hpostgres : bindPlaceholders Dialect.postgres.marker [("_b", .int 8), ("a1", .null)]
      "$?a1?_b%%" [.bool true] = .ok ("$$2$3%%", [.bool true, .null, .int 8]) := rfl
  have hsqlite : bindPlaceholders Dialect.sqlite.marker [("_b", .int 8), ("a1", .null)]
      "$?a1?_b%%" [] = .ok ("$??%%", [.null, .int 8]) := rfl
  have hmysql : bindPlaceholders Dialect.mysql.marker [("_b", .int 8), ("a1", .null)]
      "$?a1?_b%%" [] = .ok ("$%s%s%%", [.null, .int 8]) := rfl
  have hmarks := ((driver_reads_bound_parameters hs).2.1 hsqlite).2.2
  exact ⟨⟨hs, hdollar, hnamed, heven⟩,
    ⟨hpostgres, ((driver_reads_bound_parameters hs).1 hpostgres).2 hdollar⟩,
    ⟨hsqlite, hmarks.1 rfl, hmarks.2 hnamed⟩,
    ⟨hmysql, ((driver_reads_bound_parameters hs).2.2 hmysql).2 heven⟩⟩

end SqlCompose
