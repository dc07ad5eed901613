import Mathlib.Data.List.SplitBy
import SqlCompose.Text.Run
import SqlCompose.Text.Word

/-!
# Words of a text

A word is a maximal run of word characters. A text is made of words and of the characters between
them (`word_induction`), and its words are known from that: a word at its head and the words of what
follows (`isWord_append_iff`).
-/

namespace SqlCompose

variable {w s t before word after : List Char} {c : Char}

theorem runs_append {p : Char → Bool} {b : Bool} (hw : w ≠ []) (hall : ∀ c ∈ w, p c = b)
    (hs : ∀ c ∈ s.head?, p c ≠ b) : runs p (w ++ s) = w :: runs p s := by
  have hchain : w.IsChain fun c d => p c == p d := by
    refine (List.pairwise_of_forall_mem_list fun c hc d hd => ?_).isChain
    rw [hall c hc, hall d hd, beq_self_eq_true]
  have hends : ∀ c ∈ w.getLast?, ∀ d ∈ s.head?, (p c == p d) = false := by
    intro c hc d hd
    rw [hall c (List.mem_of_mem_getLast? hc), beq_eq_false_iff_ne]
    exact (hs d hd).symm
  rw [runs, List.splitBy_append hends, List.splitBy_of_isChain hw hchain]
  rfl

/-! ### Ends of words -/

theorem atWordEnd_iff : atWordEnd t ↔ ∀ c ∈ t.head?, isWordChar c = false := by
  cases t <;> simp [atWordEnd]

theorem atWordEnd_append (hs : atWordEnd s) (ht : atWordEnd t) : atWordEnd (s ++ t) := by
  cases s with
  | nil => exact ht
  | cons c s => exact hs

theorem atWordEnd_of_append (h : atWordEnd (s ++ t)) : atWordEnd s := by
  cases s with
  | nil => rfl
  | cons c s => exact h

theorem atWordEnd_dropWhile (s : List Char) : atWordEnd (s.dropWhile isWordChar) :=
  atWordEnd_iff.mpr (head?_dropWhile_run s)

/-! ### Words -/

/-- A maximal run of word characters, between what stands before and after it. -/
structure IsWord (before word after : List Char) : Prop where
  ne_nil : word ≠ []
  isWordChar : ∀ c ∈ word, isWordChar c
  starts : ∀ c ∈ before.getLast?, SqlCompose.isWordChar c = false
  ends : atWordEnd after

/-- Induction on a text, word by word and character by character between words. -/
theorem word_induction {motive : List Char → Prop} (nil : motive [])
    (char : ∀ c s, isWordChar c = false → motive s → motive (c :: s))
    (word : ∀ w s, w ≠ [] → (∀ c ∈ w, isWordChar c) → atWordEnd s → motive s → motive (w ++ s))
    (s : List Char) : motive s := by
  induction hl : s.length using Nat.strongRecOn generalizing s with
  | _ l ih =>
    subst hl
    match s with
    | [] => exact nil
    | c :: s =>
      cases hc : isWordChar c with
      | false => exact char c s hc (ih s.length (by simp) s rfl)
      | true =>
        obtain ⟨w, t, rfl, hw, ht⟩ := exists_run_append isWordChar s
        refine word (c :: w) t (List.cons_ne_nil c w) (List.forall_mem_cons.mpr ⟨hc, hw⟩)
          (atWordEnd_iff.mpr ht) (ih t.length ?_ t rfl)
        rw [List.length_cons, List.length_append]
        omega

theorem isWord_cons_iff (hc : isWordChar c = false) :
    IsWord (c :: before) word after ↔ IsWord before word after := by
  have hlast : (∀ d ∈ (c :: before).getLast?, isWordChar d = false) ↔
      ∀ d ∈ before.getLast?, isWordChar d = false := by
    cases before with
    | nil => simp [hc]
    | cons e before => rw [List.getLast?_cons_cons]
  constructor
  · rintro ⟨hne, hall, hstart, hend⟩
    exact ⟨hne, hall, hlast.mp hstart, hend⟩
  · rintro ⟨hne, hall, hstart, hend⟩
    exact ⟨hne, hall, hlast.mpr hstart, hend⟩

/-- The words of a text that begins with one. -/
theorem isWord_append_iff (hne : w ≠ []) (hw : ∀ c ∈ w, isWordChar c) (hs : atWordEnd s) :
    w ++ s = before ++ (word ++ after) ∧ IsWord before word after ↔
      (before = [] ∧ word = w ∧ after = s) ∨
        ∃ before', before = w ++ before' ∧ s = before' ++ (word ++ after) ∧
          IsWord before' word after := by
  constructor
  · rintro ⟨heq, hword⟩
    rcases List.append_eq_append_iff.mp heq with ⟨u, rfl, rfl⟩ | ⟨u, rfl, hrest⟩
    · refine .inr ⟨u, rfl, rfl, hword.ne_nil, hword.isWordChar, fun c hc => ?_, hword.ends⟩
      exact hword.starts c (List.mem_getLast?_append_of_mem_getLast? hc)
    · cases before with
      | nil =>
        obtain rfl : word = u := by
          rw [List.nil_append] at hw
          rw [← takeWhile_run_append hword.isWordChar (atWordEnd_iff.mp hword.ends), hrest,
            takeWhile_run_append hw (atWordEnd_iff.mp hs)]
        exact .inl ⟨rfl, rfl, List.append_cancel_left hrest⟩
      | cons c before =>
        -- The character right before the word would belong to a word too.
        have hne := List.cons_ne_nil c before
        have hlast := hw _ (List.mem_append_left u (List.getLast_mem hne))
        rw [hword.starts _ (List.getLast?_eq_some_getLast hne)] at hlast
        contradiction
  · rintro (⟨rfl, rfl, rfl⟩ | ⟨before', rfl, rfl, hword⟩)
    · exact ⟨rfl, hne, hw, by simp, hs⟩
    · refine ⟨(List.append_assoc ..).symm, hword.ne_nil, hword.isWordChar, fun c hc => ?_,
        hword.ends⟩
      cases before' with
      | nil =>
        obtain ⟨d, word, rfl⟩ := List.exists_cons_of_ne_nil hword.ne_nil
        have := hword.isWordChar d List.mem_cons_self
        rw [atWordEnd_iff.mp hs d rfl] at this
        contradiction
      | cons d before' =>
        rw [List.getLast?_append_of_ne_nil _ (List.cons_ne_nil d before')] at hc
        exact hword.starts c hc

end SqlCompose
