import Mathlib.Data.List.SplitBy
import SqlCompose.Proofs.Fragment

/-!
# Balanced parentheses

A text is walked from the left with the number of parentheses that are open (`depthAfter?`). A text
is balanced if the walk through it comes back to where it started, and then it does so from any
depth (`Balanced.depthAfter?_eq`). So balanced texts can take each other's places
(`depthAfter?_fill`): marks have no parentheses, and what is written for them is balanced if all
order terms are (`balanced_of_rewrite`). Trimming and reversing a text keep its parentheses.
-/

namespace SqlCompose

/-- No beginning of a text closes more parentheses than it opens, and the whole text closes all. -/
structure Balanced (s : String) : Prop where
  closed_le : ∀ t, t <+: s.toList → t.count ')' ≤ t.count '('
  closed_eq : s.toList.count ')' = s.toList.count '('

/-- The number of open parentheses after a text that starts inside of `k`, unless it closes one that
is not open. -/
def depthAfter? : Nat → List Char → Option Nat
  | k, [] => some k
  | k, '(' :: s => depthAfter? (k + 1) s
  | 0, ')' :: _ => none
  | k + 1, ')' :: s => depthAfter? k s
  | k, _ :: s => depthAfter? k s

def isParenthesis (c : Char) : Bool := c = '(' || c = ')'

variable {s t : String} {k m : Nat}

/-! ### Walks -/

theorem depthAfter?_cons_of_not {c : Char} (hc : isParenthesis c = false) (k : Nat)
    (s : List Char) : depthAfter? k (c :: s) = depthAfter? k s := by
  simp only [isParenthesis, Bool.or_eq_false_iff, decide_eq_false_iff_not] at hc
  cases k <;> simp [depthAfter?, hc.1, hc.2]

theorem depthAfter?_append (k : Nat) (s t : List Char) :
    depthAfter? k (s ++ t) = (depthAfter? k s).bind (depthAfter? · t) := by
  fun_induction depthAfter? k s <;> simp_all [depthAfter?]

theorem depthAfter?_cons (k : Nat) (c : Char) (s : List Char) :
    depthAfter? k (c :: s) = (depthAfter? k [c]).bind (depthAfter? · s) :=
  depthAfter?_append k [c] s

theorem depthAfter?_of_not {s : List Char} (h : ∀ c ∈ s, isParenthesis c = false) (k : Nat) :
    depthAfter? k s = some k := by
  induction s with
  | nil => simp [depthAfter?]
  | cons c s ih =>
    rw [List.forall_mem_cons] at h
    rw [depthAfter?_cons_of_not h.1, ih h.2]

/-- What holds of all beginnings of a text, by its first character. -/
theorem forall_prefix_cons_iff {c : Char} {s : List Char} {p : List Char → Prop} :
    (∀ t, t <+: c :: s → p t) ↔ p [] ∧ ∀ t, t <+: s → p (c :: t) := by
  constructor
  · intro h
    exact ⟨h [] List.nil_prefix, fun t ht => h _ ((List.prefix_cons_inj c).mpr ht)⟩
  · rintro ⟨hnil, hcons⟩ t ht
    rcases List.prefix_cons_iff.mp ht with rfl | ⟨u, rfl, hu⟩
    · exact hnil
    · exact hcons u hu

theorem depthAfter?_eq_some_iff {s : List Char} :
    depthAfter? k s = some m ↔
      (∀ t, t <+: s → t.count ')' ≤ k + t.count '(') ∧ m + s.count ')' = k + s.count '(' := by
  fun_induction depthAfter? k s with
  | case1 k => simp [eq_comm]
  | case2 k s ih =>
    rw [ih, forall_prefix_cons_iff]
    simp [Nat.add_right_comm, ← Nat.add_assoc]
  | case3 s =>
    -- The first character alone closes too many.
    refine iff_of_false (by simp) fun h => ?_
    simpa using h.1 [')'] (List.prefix_append [')'] s)
  | case4 k s ih =>
    rw [ih, forall_prefix_cons_iff]
    simp [Nat.add_right_comm, ← Nat.add_assoc]
  | case5 k c s hopen hzero hsucc ih =>
    have hclose : c ≠ ')' := by
      rintro rfl
      cases k with
      | zero => exact hzero rfl rfl
      | succ k => exact hsucc k rfl rfl
    rw [ih, forall_prefix_cons_iff]
    simp [List.count_cons_of_ne hopen, List.count_cons_of_ne hclose]

theorem balanced_iff : Balanced s ↔ depthAfter? 0 s.toList = some 0 := by
  rw [depthAfter?_eq_some_iff]
  simp only [Nat.zero_add]
  exact ⟨fun h => ⟨h.closed_le, h.closed_eq⟩, fun h => ⟨h.1, h.2⟩⟩

/-- From any depth, the walk through a balanced text comes back. -/
theorem Balanced.depthAfter?_eq (h : Balanced s) (k : Nat) : depthAfter? k s.toList = some k := by
  rw [depthAfter?_eq_some_iff, h.closed_eq]
  exact ⟨fun t ht => Nat.le_trans (h.closed_le t ht) (Nat.le_add_left _ _), rfl⟩

/-! ### Balanced texts -/

theorem balanced_of_not_isParenthesis (h : ∀ c ∈ s.toList, isParenthesis c = false) : Balanced s :=
  balanced_iff.mpr (depthAfter?_of_not h 0)

theorem Balanced.append (hs : Balanced s) (ht : Balanced t) : Balanced (s ++ t) := by
  rw [balanced_iff, String.toList_append, depthAfter?_append, hs.depthAfter?_eq]
  exact ht.depthAfter?_eq 0

theorem Balanced.parenthesized (h : Balanced s) : Balanced ("(" ++ s ++ ")") := by
  have hopen : depthAfter? 0 "(".toList = some 1 := rfl
  rw [balanced_iff, String.toList_append, String.toList_append, depthAfter?_append,
    depthAfter?_append, hopen, Option.bind_some, h.depthAfter?_eq]
  rfl

theorem Balanced.intercalate (hs : Balanced s) {ts : List String} (hts : ∀ t ∈ ts, Balanced t) :
    Balanced (s.intercalate ts) :=
  intercalate_induction (balanced_iff.mpr rfl) (fun _ _ => Balanced.append) hs hts

/-! ### Texts with the same parentheses -/

theorem depthAfter?_filter (k : Nat) (s : List Char) :
    depthAfter? k (s.filter isParenthesis) = depthAfter? k s := by
  induction s generalizing k with
  | nil => rfl
  | cons c s ih =>
    cases hc : isParenthesis c with
    | false => rw [List.filter_cons_of_neg (by simp [hc]), depthAfter?_cons_of_not hc, ih]
    | true =>
      rw [List.filter_cons_of_pos hc]
      simp only [isParenthesis, Bool.or_eq_true, decide_eq_true_eq] at hc
      rcases hc with rfl | rfl
      · rw [depthAfter?, depthAfter?, ih]
      · cases k with
        | zero => rfl
        | succ k => rw [depthAfter?, depthAfter?, ih]

theorem Balanced.of_filter_eq (h : Balanced s)
    (heq : t.toList.filter isParenthesis = s.toList.filter isParenthesis) : Balanced t := by
  rw [balanced_iff, ← depthAfter?_filter, heq, depthAfter?_filter]
  exact h.depthAfter?_eq 0

theorem filter_dropWhile_of_not {p : Char → Bool} (hp : ∀ c, p c → isParenthesis c = false)
    (s : List Char) : (s.dropWhile p).filter isParenthesis = s.filter isParenthesis := by
  induction s with
  | nil => rfl
  | cons c s ih =>
    by_cases hc : p c
    · rw [List.dropWhile_cons_of_pos hc, ih, List.filter_cons_of_neg (by simp [hp c hc])]
    · rw [List.dropWhile_cons_of_neg hc]

theorem filter_trimRight_of_not {p : Char → Bool} (hp : ∀ c, p c → isParenthesis c = false)
    (s : List Char) : (trimRight p s).filter isParenthesis = s.filter isParenthesis := by
  rw [trimRight, List.filter_reverse, filter_dropWhile_of_not hp, List.filter_reverse,
    List.reverse_reverse]

theorem not_isParenthesis_of_isIdentifierChar {c : Char} (h : isIdentifierChar c) :
    isParenthesis c = false := by
  simpa using of_isIdentifierChar (p := fun c => !isParenthesis c) (by decide) h

theorem not_isParenthesis_of_isBlankChar (c : Char) (h : isBlankChar c) :
    isParenthesis c = false := by
  refine Bool.eq_false_iff.mpr fun hc => ?_
  simp only [isParenthesis, Bool.or_eq_true, decide_eq_true_eq] at hc
  rcases hc with rfl | rfl
  · exact absurd h (by decide)
  · exact absurd h (by decide)

theorem Balanced.strip (h : Balanced s) : Balanced (strip s) := by
  refine h.of_filter_eq ?_
  rw [SqlCompose.strip, String.toList_ofList, trimBoth,
    filter_trimRight_of_not not_isParenthesis_of_isBlankChar,
    filter_dropWhile_of_not not_isParenthesis_of_isBlankChar]

theorem Balanced.stripRight (h : Balanced s) : Balanced (stripRight s) := by
  refine h.of_filter_eq ?_
  rw [SqlCompose.stripRight, String.toList_ofList,
    filter_trimRight_of_not not_isParenthesis_of_isBlankChar]

/-! ### Order terms -/

theorem Direction.not_isParenthesis_of_ofRun? {run : List Char} {d : Direction}
    (h : Direction.ofRun? run = some d) : ∀ c ∈ run, isParenthesis c = false := by
  intro c hc
  have hrun := List.find?_some h
  have hfold : Direction.foldLetter c ∈ d.keyword.toList := by
    rw [← beq_iff_eq.mp hrun]
    exact List.mem_map_of_mem hc
  refine Bool.eq_false_iff.mpr fun hparen => ?_
  simp only [isParenthesis, Bool.or_eq_true, decide_eq_true_eq] at hparen
  rcases hparen with rfl | rfl
  · cases d <;> exact absurd hfold (by decide)
  · cases d <;> exact absurd hfold (by decide)

theorem filter_reverseRun (run : List Char) :
    (reverseRun run).filter isParenthesis = run.filter isParenthesis := by
  unfold reverseRun
  cases h : Direction.ofRun? run with
  | none => rfl
  | some d =>
    have hkeyword : d.opposite.keyword.toList.filter isParenthesis = [] := by cases d <;> decide
    have hrun : run.filter isParenthesis = [] := by
      simpa [List.filter_eq_nil_iff] using Direction.not_isParenthesis_of_ofRun? h
    rw [hkeyword, hrun]

theorem Balanced.reverseTerm (h : Balanced s) : Balanced (reverseTerm s) := by
  unfold SqlCompose.reverseTerm
  split
  · refine h.of_filter_eq ?_
    rw [String.toList_ofList, List.filter_flatMap]
    simp only [filter_reverseRun]
    rw [← List.filter_flatMap, List.flatMap_id', termRuns, runs, List.flatten_splitBy]
  · exact h.stripRight.append (balanced_iff.mpr rfl)

/-! ### Passes -/

section

variable {α : Type} {f g : α → List Char} {ps : List (Piece α)}

/-- What is filled in does not show in the depth if the walk through it comes back. -/
theorem depthAfter?_fill (hf : ∀ a, .found a ∈ ps → ∀ k, depthAfter? k (f a) = some k)
    (hg : ∀ a, .found a ∈ ps → ∀ k, depthAfter? k (g a) = some k) (k : Nat) :
    depthAfter? k (fill f ps) = depthAfter? k (fill g ps) := by
  induction ps generalizing k with
  | nil => rfl
  | cons p ps ih =>
    have ih := ih (fun a ha => hf a (List.mem_cons_of_mem _ ha))
      (fun a ha => hg a (List.mem_cons_of_mem _ ha))
    cases p with
    | char c =>
      rw [fill_char, fill_char, depthAfter?_cons k c (fill f ps), depthAfter?_cons k c (fill g ps)]
      exact Option.bind_congr fun m _ => ih m
    | found a =>
      rw [fill_found, fill_found, depthAfter?_append, depthAfter?_append,
        hf a List.mem_cons_self, hg a List.mem_cons_self]
      exact ih k

end

variable {terms : List String} {text out : String}

theorem OrderMacro.balanced_spelling (m : OrderMacro) : Balanced m.spelling := by
  cases m <;> exact balanced_iff.mpr rfl

theorem OrderMacro.balanced_expansion (h : ∀ t ∈ terms, Balanced t) (m : OrderMacro) :
    Balanced (m.expansion terms) := by
  have hcomma : Balanced ", " := balanced_iff.mpr rfl
  cases m with
  | forward => exact hcomma.intercalate h
  | backward =>
    refine hcomma.intercalate fun t ht => ?_
    obtain ⟨u, hu, rfl⟩ := List.mem_map.mp ht
    exact (h u hu).reverseTerm

theorem balanced_of_expandOrder (hterms : ∀ t ∈ terms, Balanced t) (htext : Balanced text)
    (h : expandOrder terms text = .ok out) : Balanced out := by
  obtain ⟨-, hout⟩ := expandOrder_eq_ok_iff.mp h
  rw [balanced_iff, hout, depthAfter?_fill
    (fun m _ => (OrderMacro.balanced_expansion hterms m).depthAfter?_eq)
    (fun m _ => (OrderMacro.balanced_spelling m).depthAfter?_eq),
    OrderMacro.spells.fill_pieces]
  exact htext.depthAfter?_eq 0

theorem Placeholder.depthAfter?_spelling {name : String} (h : IsName name) (k : Nat) :
    depthAfter? k (spelling name) = some k := by
  refine depthAfter?_of_not (fun c hc => ?_) k
  rcases List.mem_cons.mp hc with rfl | hc
  · rfl
  · exact not_isParenthesis_of_isIdentifierChar (h.isIdentifierChar hc)

/-- The markers that a dialect has are balanced. -/
def Dialect.BalancedMarkers (d : Dialect) : Prop :=
  ∀ n mark, d.marker n = .ok mark → Balanced mark

section

variable {d : Dialect} (hd : d.BalancedMarkers)
include hd

theorem depthAfter?_of_writeMarks {known : String → Bool} {ps : List (Piece String)}
    {written : List Char} {bound : Nat} (hnames : ∀ name ∈ finds ps, Placeholder.IsName name)
    (h : writeMarks d.marker known bound ps = .ok written) (k : Nat) :
    depthAfter? k written = depthAfter? k (fill Placeholder.spelling ps) := by
  induction ps generalizing bound written k with
  | nil =>
    obtain rfl := Except.ok.inj h
    rfl
  | cons p ps ih =>
    cases p with
    | char c =>
      obtain ⟨rest, hrest, rfl⟩ := map_eq_ok_iff.mp h
      rw [fill_char, depthAfter?_cons k c rest, depthAfter?_cons k c (fill Placeholder.spelling ps)]
      exact Option.bind_congr fun m _ => ih hnames hrest m
    | found name =>
      rw [finds_found, List.forall_mem_cons] at hnames
      rw [writeMarks] at h
      split at h
      · obtain ⟨mark, hmark, h⟩ := bind_eq_ok_iff.mp h
        obtain ⟨rest, hrest, rfl⟩ := map_eq_ok_iff.mp h
        rw [fill_found, depthAfter?_append, depthAfter?_append, (hd _ _ hmark).depthAfter?_eq,
          Placeholder.depthAfter?_spelling hnames.1]
        exact ih hnames.2 hrest k
      · contradiction

theorem balanced_of_bindPlaceholders {values : List (String × Value)} {params all : List Value}
    (htext : Balanced text) (h : bindPlaceholders d.marker values text params = .ok (out, all)) :
    Balanced out := by
  obtain ⟨hmarks, -⟩ := bindPlaceholders_eq_ok_iff.mp h
  rw [balanced_iff,
    depthAfter?_of_writeMarks hd (Placeholder.splits_pieces text.toList).isName hmarks,
    Placeholder.spells.fill_pieces]
  exact htext.depthAfter?_eq 0

/-- Rewriting keeps a text balanced. -/
theorem balanced_of_rewrite {values : List (String × Value)} {x y : Draft}
    (hterms : ∀ t ∈ terms, Balanced t) (hx : Balanced x.text)
    (h : rewrite terms d values x = .ok y) : Balanced y.text := by
  obtain ⟨expanded, hexpand, hbind⟩ := rewrite_eq_ok_iff.mp h
  exact balanced_of_bindPlaceholders hd (balanced_of_expandOrder hterms hx hexpand) hbind

end

end SqlCompose
