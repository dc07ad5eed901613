import SqlCompose.Proofs.Composer.Fragments
import SqlCompose.Proofs.Composer.Stages
import SqlCompose.Proofs.Placeholder.Pass

/-!
# Texts without placeholders

A text is free of names if none of its question marks stands right before the start of a name
(`NameFree`). Gaps are free of names, and a gap behind a placeholder does not go on with a name, so
whatever stands between gaps leaves a text free of names if it is so itself and does not go on with
a name either (`nameFree_weave`). The markers of the built-in dialects are of this kind: what they
are written into has no placeholders left, and another pass finds nothing to do.
-/

namespace SqlCompose

open Placeholder

variable {s t : List Char} {d : Dialect} {x y : Draft} {values : List (String × Value)}

/-- No question mark stands right before the start of a name. -/
def NameFree (s : List Char) : Prop :=
  ∀ before c after, s = before ++ '?' :: c :: after → isNameStart c = false

theorem nameFree_nil : NameFree [] := by simp [NameFree]

theorem nameFree_cons_iff {d : Char} :
    NameFree (d :: s) ↔ (d = '?' → ∀ c ∈ s.head?, isNameStart c = false) ∧ NameFree s := by
  constructor
  · intro h
    refine ⟨?_, fun before c after heq => h (d :: before) c after (by rw [heq, List.cons_append])⟩
    rintro rfl c hc
    obtain ⟨after, rfl⟩ := List.head?_eq_some_iff.mp hc
    exact h [] c after rfl
  · rintro ⟨hd, hs⟩ before c after heq
    cases before with
    | nil =>
      obtain ⟨rfl, rfl⟩ := List.cons.inj heq
      exact hd rfl c rfl
    | cons e before => exact hs before c after (List.cons.inj heq).2

theorem nameFree_of_not_mem (h : '?' ∉ s) : NameFree s := by
  intro before c after heq
  exact absurd (by simp [heq]) h

theorem Placeholder.NameEnds.not_isNameStart {c : Char} (h : NameEnds s) (hc : c ∈ s.head?) :
    isNameStart c = false := by
  simp [isNameStart, h c hc]

theorem nameEnds_cons {c : Char} (h : isIdentifierChar c = false) : NameEnds (c :: s) := by
  simpa [NameEnds] using h

theorem NameFree.append (hs : NameFree s) (ht : NameFree t) (hends : NameEnds t) :
    NameFree (s ++ t) := by
  induction s with
  | nil => exact ht
  | cons d s ih =>
    obtain ⟨hd, hs⟩ := nameFree_cons_iff.mp hs
    rw [List.cons_append]
    refine nameFree_cons_iff.mpr ⟨fun hmark c hc => ?_, ih hs⟩
    cases s with
    | nil => exact hends.not_isNameStart hc
    | cons e s => exact hd hmark c hc

/-! ### Gaps and marks -/

theorem nameEnds_weave {gs marks : List (List Char)} (hlen : gs.length = marks.length + 1)
    (hgaps : ∀ g ∈ gs, NameEnds g) (hmarks : ∀ m ∈ marks, NameEnds m) :
    NameEnds (weave gs marks) := by
  induction marks generalizing gs with
  | nil =>
    obtain ⟨g, rfl⟩ := List.length_eq_one_iff.mp hlen
    simpa using hgaps
  | cons m marks ih =>
    obtain ⟨g, gs, rfl⟩ := List.exists_cons_of_length_eq_add_one hlen
    rw [List.forall_mem_cons] at hgaps hmarks
    rw [weave_cons, List.append_assoc]
    exact hgaps.1.append (hmarks.1.append (ih (by simpa using hlen) hgaps.2 hmarks.2))

theorem nameFree_weave {gs marks : List (List Char)} (hlen : gs.length = marks.length + 1)
    (hgaps : ∀ g ∈ gs, NameFree g) (hends : ∀ g ∈ gs.tail, NameEnds g)
    (hmarks : ∀ m ∈ marks, NameFree m ∧ NameEnds m) : NameFree (weave gs marks) := by
  induction marks generalizing gs with
  | nil =>
    obtain ⟨g, rfl⟩ := List.length_eq_one_iff.mp hlen
    simpa using hgaps
  | cons m marks ih =>
    obtain ⟨g, gs, rfl⟩ := List.exists_cons_of_length_eq_add_one hlen
    have hlen : gs.length = marks.length + 1 := by simpa using hlen
    rw [List.forall_mem_cons] at hgaps hmarks
    rw [List.tail_cons] at hends
    have hrest : NameFree (weave gs marks) :=
      ih hlen hgaps.2 (fun g hg => hends g (List.mem_of_mem_tail hg)) hmarks.2
    have hrestEnds : NameEnds (weave gs marks) :=
      nameEnds_weave hlen hends fun m hm => (hmarks.2 m hm).2
    rw [weave_cons]
    exact (hgaps.1.append hmarks.1.1 hmarks.1.2).append hrest hrestEnds

/-! ### Passes -/

/-- Markers that are free of names, and right behind which a name would end. -/
def Dialect.NameFreeMarkers (d : Dialect) : Prop :=
  ∃ mark : Int → String, (∀ n, d.marker n = .ok (mark n)) ∧
    ∀ n, NameFree (mark n).toList ∧ NameEnds (mark n).toList

theorem Dialect.nameFreeMarkers_of_mem_builtin (h : d ∈ builtin) : d.NameFreeMarkers := by
  simp only [builtin, List.mem_cons, List.not_mem_nil, or_false] at h
  rcases h with rfl | rfl | rfl
  · have hmark : "?".toList = ['?'] := rfl
    refine ⟨fun _ => "?", fun _ => rfl, fun _ => ?_⟩
    rw [hmark]
    exact ⟨nameFree_cons_iff.mpr ⟨fun _ => by simp, nameFree_nil⟩, nameEnds_cons (by decide)⟩
  · refine ⟨fun n => "$" ++ toString n, fun _ => rfl, fun n => ?_⟩
    have hmark : ("$" ++ toString n).toList = '$' :: (toString n).toList := String.toList_append
    have hn : '?' ∉ (toString n).toList := fun hc =>
      absurd (Clause.isDigit_or_minus_of_mem_toString hc) (by decide)
    rw [hmark]
    exact ⟨nameFree_of_not_mem (List.not_mem_cons_of_ne_of_not_mem (by decide) hn),
      nameEnds_cons (by decide)⟩
  · have hmark : "%s".toList = ['%', 's'] := rfl
    refine ⟨fun _ => "%s", fun _ => rfl, fun _ => ?_⟩
    rw [hmark]
    exact ⟨nameFree_of_not_mem (by decide), nameEnds_cons (by decide)⟩

theorem nameFree_of_bindPlaceholders (hd : d.NameFreeMarkers) {text out : String}
    {params all : List Value} (h : bindPlaceholders d.marker values text params = .ok (out, all)) :
    NameFree out.toList := by
  obtain ⟨mark, hmark, hfree⟩ := hd
  have hs := splits_pieces text.toList
  rw [(bindPlaceholders_eq_ok hmark hs h).2]
  refine nameFree_weave (by simpa [marksAfter] using hs.length_eq) hs.free hs.nameEnds ?_
  intro m hm
  obtain ⟨n, -, rfl⟩ := List.mem_map.mp hm
  exact hfree n

theorem pieces_of_nameFree (h : NameFree s) : pieces head? s = s.map .char := by
  induction s with
  | nil => rfl
  | cons d s ih =>
    obtain ⟨hd, hs⟩ := nameFree_cons_iff.mp h
    have hnone : head? (d :: s) = none := by
      rw [← Option.not_isSome_iff_eq_none, isSome_head?_iff]
      rintro ⟨c, t, heq, hc⟩
      obtain ⟨rfl, rfl⟩ := List.cons.inj heq
      rw [hd rfl c rfl] at hc
      contradiction
    rw [pieces_cons_of_none hnone, ih hs, List.map_cons]

/-- Without placeholders there is nothing to bind, whatever the dialect and the values. -/
theorem apply_placeholders_of_nameFree (h : NameFree x.text.toList) :
    Pass.apply x (.placeholders d values) = .ok x := by
  rw [apply_placeholders, bindPlaceholders_eq, ← finds_pieces, pieces_of_nameFree h,
    writeMarks_chars, finds_chars]
  simp [Except.map]

theorem nameFree_of_apply_placeholders (hd : d.NameFreeMarkers)
    (h : Pass.apply x (.placeholders d values) = .ok y) : NameFree y.text.toList := by
  rw [apply_placeholders, map_eq_ok_iff] at h
  obtain ⟨⟨out, all⟩, hbind, rfl⟩ := h
  exact nameFree_of_bindPlaceholders hd hbind

theorem nameFree_of_compose {x : Composer} {q : Query} {o : Options} {st : Statement}
    (hd : x.dialect.NameFreeMarkers) (h : (x.compose q o).result = .ok st) :
    NameFree st.text.toList := by
  obtain ⟨views, -, hwrite⟩ := Composer.compose_eq_ok h
  obtain ⟨text, y, -, hy, rfl⟩ := Composer.write_eq_ok_iff.mp hwrite
  obtain ⟨expanded, -, hbind⟩ := rewrite_eq_ok_iff.mp hy
  exact nameFree_of_bindPlaceholders hd hbind

/-- A pass for a built-in dialect leaves no placeholder, so that no further pass for any dialect
changes anything, and no statement composed for a built-in dialect has one. -/
theorem nameFree_of_builtin (hd : d ∈ Dialect.builtin) :
    (∀ values x y, Pass.apply x (.placeholders d values) = .ok y →
      NameFree y.text.toList ∧
        ∀ (d' : Dialect) values', Pass.apply y (.placeholders d' values') = .ok y) ∧
    ∀ (x : Composer) q o st, x.dialect = d → (x.compose q o).result = .ok st →
      NameFree st.text.toList := by
  have hmarkers := Dialect.nameFreeMarkers_of_mem_builtin hd
  refine ⟨fun values x y h => ?_, fun x q o st hx h => ?_⟩
  · have hfree := nameFree_of_apply_placeholders hmarkers h
    exact ⟨hfree, fun d' values' => apply_placeholders_of_nameFree hfree⟩
  · exact nameFree_of_compose (hx ▸ hmarkers) h

/-- Question marks next to placeholders and to a letter outside of ASCII. -/
theorem nameFree_of_builtin_between :
    Dialect.sqlite ∈ Dialect.builtin ∧
    Pass.apply ⟨"??a?b1é?", []⟩ (.placeholders .sqlite [("a", .int 1), ("b1", .null)]) =
      .ok ⟨"???é?", [.int 1, .null]⟩ ∧
    NameFree "???é?".toList ∧
    Pass.apply ⟨"???é?", [.int 1, .null]⟩ (.placeholders .postgres []) =
      .ok ⟨"???é?", [.int 1, .null]⟩ := by
  have hsqlite : Dialect.sqlite ∈ Dialect.builtin := by simp [Dialect.builtin]
  have hpass : Pass.apply ⟨"??a?b1é?", []⟩
      (.placeholders .sqlite [("a", .int 1), ("b1", .null)]) = .ok ⟨"???é?", [.int 1, .null]⟩ := rfl
  obtain ⟨hfree, hnext⟩ := (nameFree_of_builtin hsqlite).1 _ _ _ hpass
  exact ⟨hsqlite, hpass, hfree, hnext .postgres []⟩

end SqlCompose
