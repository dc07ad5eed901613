import Mathlib.Data.List.Forall2
import SqlCompose.Draft
import SqlCompose.Proofs.Identifier
import SqlCompose.Proofs.Order.Occurrence
import SqlCompose.Proofs.Placeholder.Binding
import SqlCompose.Proofs.Word

/-!
# Rewriting a text part by part

A text can be cut where a word ends and no macro begins: what stands after the cut neither goes on
with a macro or a name before it (`OrderMacro.pieces_append`) nor does so once its own macros are
expanded (`nameEnds_of_expandOrder`). The parts are then rewritten one after another, each with the
parameters that those before it have bound (`rewrite_append_eq_ok_iff`).

What one part binds does not depend on the parameters before it, but whether there are markers for
its positions may (`rewrite_alone`).
-/

namespace SqlCompose

/-- A text that can be rewritten on its own after any other: a word that ends right before it ends
there, and it does not begin with a macro. -/
def Separate (t : List Char) : Prop := ∀ c ∈ t.head?, isWordChar c = false ∧ c ≠ '$'

instance : (t : List Char) → Decidable (Separate t)
  | [] => .isTrue (by simp [Separate])
  | c :: _ => decidable_of_iff (isWordChar c = false ∧ c ≠ '$') (by simp [Separate])

theorem Separate.atWordEnd {t : List Char} (h : Separate t) : atWordEnd t := by
  cases t with
  | nil => rfl
  | cons c t => simp [SqlCompose.atWordEnd, (h c rfl).1]

theorem Separate.nameEnds {t : List Char} (h : Separate t) : Placeholder.NameEnds t :=
  fun c hc => Bool.eq_false_iff.mpr fun hid => by
    simpa [isWordChar_of_isIdentifierChar hid] using (h c hc).1

/-! ### Macros -/

namespace OrderMacro

theorem isWordChar_of_mem_tail_spelling (m : OrderMacro) :
    ∀ c ∈ m.spelling.toList.tail, isWordChar c := by
  have h : m.spelling.toList.tail.all isIdentifierChar := by cases m <;> decide
  exact fun c hc => isWordChar_of_isIdentifierChar (List.all_eq_true.mp h c hc)

/-- A macro does not reach into a text that cannot go on with its word. -/
theorem head?_append {t : List Char} (ht : atWordEnd t) (c : Char) (s : List Char) :
    head? (c :: s ++ t) = head? (c :: s) := by
  refine Option.ext fun ⟨m, n⟩ => ?_
  rw [head?_eq_some_iff, head?_eq_some_iff]
  refine and_congr_right fun _ => ⟨?_, ?_⟩
  · rintro ⟨u, hu, heq⟩
    rcases List.append_eq_append_iff.mp heq with ⟨bs, hbs, rfl⟩ | ⟨bs, hbs, rfl⟩
    · cases bs with
      | nil => exact ⟨[], rfl, by simpa using hbs.symm⟩
      | cons d bs =>
        -- The spelling would end after the cut, with word characters there.
        have hd := isWordChar_of_mem_tail_spelling m d (by simp [hbs])
        simp [atWordEnd, hd] at ht
    · exact ⟨bs, atWordEnd_of_append hu, hbs⟩
  · rintro ⟨u, hu, heq⟩
    exact ⟨u ++ t, atWordEnd_append hu ht, by rw [heq, List.append_assoc]⟩

theorem pieces_append {t : List Char} (ht : atWordEnd t) (s : List Char) :
    pieces head? (s ++ t) = pieces head? s ++ pieces head? t :=
  spells.pieces_append (head?_append ht) s

theorem head?_eq_none_of_ne {c : Char} (hc : c ≠ '$') (s : List Char) : head? (c :: s) = none := by
  rw [Option.eq_none_iff_forall_ne_some]
  rintro ⟨m, n⟩ h
  obtain ⟨-, t, -, heq⟩ := head?_eq_some_iff.mp h
  have hhead : m.spelling.toList.head? = some '$' := by cases m <;> rfl
  obtain ⟨w, hw⟩ := List.head?_eq_some_iff.mp hhead
  rw [hw] at heq
  exact hc (List.cons.inj heq).1

end OrderMacro

open OrderMacro

variable {terms : List String} {s t out : String}

theorem expandOrder_eq_ok_iff :
    expandOrder terms s = .ok out ↔
      ((∃ m, .found m ∈ pieces OrderMacro.head? s.toList) → terms ≠ []) ∧
        out.toList = fill (fun m => (m.expansion terms).toList)
          (pieces OrderMacro.head? s.toList) := by
  rw [← exists_occursIn_iff]
  by_cases h : ∃ m, OccursIn m s.toList
  · rw [expandOrder_of_occursIn h]
    by_cases hterms : terms = []
    · simp [hterms, h]
    · simp [hterms, ← String.toList_inj, eq_comm]
  · have hfill : fill (fun m => (m.expansion terms).toList) (pieces OrderMacro.head? s.toList) =
        s.toList :=
      (fill_congr fun m hm => absurd (exists_occursIn_iff.mpr ⟨m, hm⟩) h).trans
        (OrderMacro.spells.fill_pieces s.toList)
    rw [expandOrder_of_not_occursIn h, hfill, String.toList_inj]
    simp [h, eq_comm]

theorem expandOrder_append_eq_ok_iff (ht : atWordEnd t.toList) :
    expandOrder terms (s ++ t) = .ok out ↔
      ∃ a b, expandOrder terms s = .ok a ∧ expandOrder terms t = .ok b ∧ out = a ++ b := by
  simp only [expandOrder_eq_ok_iff, String.toList_append, OrderMacro.pieces_append ht,
    List.mem_append, exists_or, or_imp, fill_append]
  constructor
  · rintro ⟨⟨hs, ht⟩, hout⟩
    exact ⟨_, _, ⟨hs, String.toList_ofList⟩, ⟨ht, String.toList_ofList⟩,
      by simp [← String.toList_inj, hout]⟩
  · rintro ⟨a, b, ⟨hs, ha⟩, ⟨ht, hb⟩, rfl⟩
    exact ⟨⟨hs, ht⟩, by rw [String.toList_append, ha, hb]⟩

/-- What stands at the head of a separate text is not changed by expansion. -/
theorem nameEnds_of_expandOrder (ht : Separate t.toList) (h : expandOrder terms t = .ok out) :
    Placeholder.NameEnds out.toList := by
  obtain ⟨-, hout⟩ := expandOrder_eq_ok_iff.mp h
  rw [hout]
  cases hl : t.toList with
  | nil => exact Placeholder.nameEnds_nil
  | cons c r =>
    obtain ⟨hword, hmark⟩ := ht c (by simp [hl])
    rw [pieces_cons_of_none (head?_eq_none_of_ne hmark r), fill_char]
    refine Separate.nameEnds fun d hd => ?_
    obtain rfl : c = d := by simpa using hd
    exact ⟨hword, hmark⟩

/-! ### Placeholders -/

variable {marker : Int → Except Abort String} {values : List (String × Value)}
  {params all : List Value} {known : String → Bool}

theorem writeMarks_append (bound : Nat) (ps qs : List (Piece String)) :
    writeMarks marker known bound (ps ++ qs) =
      (writeMarks marker known bound ps).bind fun a =>
        (writeMarks marker known (bound + (finds ps).length) qs).map (a ++ ·) := by
  induction ps generalizing bound with
  | nil =>
    change writeMarks marker known bound qs = (writeMarks marker known bound qs).map ([] ++ ·)
    cases writeMarks marker known bound qs <;> rfl
  | cons p ps ih =>
    cases p with
    | char c =>
      simp only [List.cons_append, writeMarks, ih, finds_char]
      cases writeMarks marker known bound ps with
      | error e => rfl
      | ok a => cases writeMarks marker known (bound + (finds ps).length) qs <;> rfl
    | found name =>
      have hbound : bound + ((finds ps).length + 1) = bound + 1 + (finds ps).length := by omega
      simp only [List.cons_append, writeMarks, ih, finds_found, List.length_cons, hbound]
      cases known name with
      | false => rfl
      | true =>
        cases marker (bound + 1) with
        | error e => rfl
        | ok mark =>
          cases writeMarks marker known (bound + 1) ps with
          | error e => rfl
          | ok a =>
            cases writeMarks marker known (bound + 1 + (finds ps).length) qs with
            | error e => rfl
            | ok b => exact congrArg Except.ok (List.append_assoc mark.toList a b).symm

/-- As many values are bound as there are placeholders. -/
theorem length_of_bindPlaceholders (h : bindPlaceholders marker values s params = .ok (out, all)) :
    all.length = params.length + (occurrences Placeholder.head? s.toList).length := by
  obtain ⟨new, rfl, hnew⟩ := bindsNames_of_bindPlaceholders h
  have := congrArg List.length hnew
  simp only [List.length_map] at this
  rw [List.length_append, this]

theorem bindPlaceholders_append_eq_ok_iff (ht : Placeholder.NameEnds t.toList) :
    bindPlaceholders marker values (s ++ t) params = .ok (out, all) ↔
      ∃ a mid b, bindPlaceholders marker values s params = .ok (a, mid) ∧
        bindPlaceholders marker values t mid = .ok (b, all) ∧ out = a ++ b := by
  rw [bindPlaceholders_eq_ok_iff, String.toList_append, Placeholder.pieces_append ht,
    Placeholder.occurrences_append ht, writeMarks_append, bind_eq_ok_iff, finds_pieces,
    List.filterMap_append, ← List.append_assoc]
  constructor
  · rintro ⟨⟨a, ha, hb⟩, rfl⟩
    obtain ⟨b, hb, hout⟩ := map_eq_ok_iff.mp hb
    have hs : bindPlaceholders marker values s params = .ok (String.ofList a, params ++ _) :=
      bindPlaceholders_eq_ok_iff.mpr ⟨by rw [ha, String.toList_ofList], rfl⟩
    refine ⟨_, _, String.ofList b, hs, bindPlaceholders_eq_ok_iff.mpr ⟨?_, rfl⟩, ?_⟩
    · rw [length_of_bindPlaceholders hs, hb, String.toList_ofList]
    · rw [← String.toList_inj, String.toList_append, String.toList_ofList, String.toList_ofList,
        hout]
  · rintro ⟨a, mid, b, hs, hb, rfl⟩
    have hlen := length_of_bindPlaceholders hs
    obtain ⟨ha, rfl⟩ := bindPlaceholders_eq_ok_iff.mp hs
    obtain ⟨hmarks, rfl⟩ := bindPlaceholders_eq_ok_iff.mp hb
    refine ⟨⟨a.toList, ha, map_eq_ok_iff.mpr ⟨b.toList, ?_, String.toList_append.symm⟩⟩, rfl⟩
    rw [← hlen, hmarks]

/-! ### Drafts -/

/-- The two passes of a composition. -/
def rewrite (terms : List String) (d : Dialect) (values : List (String × Value)) (x : Draft) :
    Except Abort Draft :=
  [.orderMacros terms, .placeholders d values].foldlM Pass.apply x

variable {d : Dialect}

theorem rewrite_eq_ok_iff {x y : Draft} :
    rewrite terms d values x = .ok y ↔ ∃ expanded, expandOrder terms x.text = .ok expanded ∧
      bindPlaceholders d.marker values expanded x.params = .ok (y.text, y.params) := by
  simp only [rewrite, List.foldlM_cons, List.foldlM_nil, bind, Except.bind, Pass.apply]
  cases expandOrder terms x.text with
  | error e => simp
  | ok expanded =>
    simp only [Except.ok.injEq, exists_eq_left']
    cases bindPlaceholders d.marker values expanded x.params with
    | error e => simp
    | ok bound =>
      obtain ⟨text, all⟩ := bound
      obtain ⟨text', all'⟩ := y
      simp [pure, Except.pure]

theorem rewrite_append_eq_ok_iff (ht : Separate t.toList) :
    rewrite terms d values ⟨s ++ t, params⟩ = .ok ⟨out, all⟩ ↔
      ∃ a mid b, rewrite terms d values ⟨s, params⟩ = .ok ⟨a, mid⟩ ∧
        rewrite terms d values ⟨t, mid⟩ = .ok ⟨b, all⟩ ∧ out = a ++ b := by
  simp only [rewrite_eq_ok_iff]
  constructor
  · rintro ⟨expanded, hexp, hbind⟩
    obtain ⟨s', t', hs, ht', rfl⟩ := (expandOrder_append_eq_ok_iff ht.atWordEnd).mp hexp
    obtain ⟨a, mid, b, ha, hb, rfl⟩ :=
      (bindPlaceholders_append_eq_ok_iff (nameEnds_of_expandOrder ht ht')).mp hbind
    exact ⟨a, mid, b, ⟨s', hs, ha⟩, ⟨t', ht', hb⟩, rfl⟩
  · rintro ⟨a, mid, b, ⟨s', hs, ha⟩, ⟨t', ht', hb⟩, rfl⟩
    exact ⟨s' ++ t', (expandOrder_append_eq_ok_iff ht.atWordEnd).mpr ⟨s', t', hs, ht', rfl⟩,
      (bindPlaceholders_append_eq_ok_iff (nameEnds_of_expandOrder ht ht')).mpr
        ⟨a, mid, b, ha, hb, rfl⟩⟩

/-! ### Texts without marks -/

/-- What holds of texts and of their appends holds of joined texts. -/
theorem intercalate_induction {P : String → Prop} (empty : P "")
    (append : ∀ s t, P s → P t → P (s ++ t)) {sep : String} (hsep : P sep) {ts : List String}
    (hts : ∀ t ∈ ts, P t) : P (sep.intercalate ts) := by
  induction ts with
  | nil => exact empty
  | cons t ts ih =>
    rw [List.forall_mem_cons] at hts
    cases ts with
    | nil => exact hts.1
    | cons u ts =>
      rw [String.intercalate_cons_cons]
      exact append _ _ (append _ _ hts.1 hsep) (ih hts.2)

/-- No mark begins in a text. -/
structure Plain (w : String) : Prop where
  noMacro : '$' ∉ w.toList
  noName : '?' ∉ w.toList

/-- A text that keeps what stands before it from what follows it: each is rewritten on its own. -/
structure Divider (w : String) : Prop extends Plain w where
  ne_empty : w ≠ ""
  separate : Separate w.toList

instance (w : String) : Decidable (Plain w) :=
  decidable_of_iff ('$' ∉ w.toList ∧ '?' ∉ w.toList)
    ⟨fun h => ⟨h.1, h.2⟩, fun h => ⟨h.noMacro, h.noName⟩⟩

instance (w : String) : Decidable (Divider w) :=
  decidable_of_iff (Plain w ∧ w ≠ "" ∧ Separate w.toList)
    ⟨fun h => ⟨h.1, h.2.1, h.2.2⟩, fun h => ⟨h.toPlain, h.ne_empty, h.separate⟩⟩

theorem Plain.append {w v : String} (hw : Plain w) (hv : Plain v) : Plain (w ++ v) :=
  ⟨by simp [hw.noMacro, hv.noMacro], by simp [hw.noName, hv.noName]⟩

theorem Plain.intercalate {sep : String} (hsep : Plain sep) {ts : List String}
    (hts : ∀ t ∈ ts, Plain t) : Plain (sep.intercalate ts) :=
  intercalate_induction (by decide) (fun _ _ => Plain.append) hsep hts

theorem plain_sanitize (s : String) : Plain (sanitize s) where
  noMacro hc := absurd (isIdentifierChar_of_mem_sanitize hc) (by decide)
  noName hc := absurd (isIdentifierChar_of_mem_sanitize hc) (by decide)

theorem plain_of_isPlainIdentifier {s : String} (h : isPlainIdentifier s) : Plain s :=
  ((isPlainIdentifier_iff s).mp h).2 ▸ plain_sanitize s

theorem Divider.separate_append {w : String} (hw : Divider w) (t : String) :
    Separate (w ++ t).toList := by
  obtain ⟨c, r, hc⟩ := List.exists_cons_of_ne_nil (mt String.toList_eq_nil_iff.mp hw.ne_empty)
  have hsep := hw.separate
  rw [hc] at hsep
  rw [String.toList_append, hc]
  exact hsep

theorem Divider.append {w v : String} (hw : Divider w) (hv : Plain v) : Divider (w ++ v) where
  toPlain := hw.toPlain.append hv
  ne_empty h := hw.ne_empty (String.append_eq_empty_iff.mp h).1
  separate := hw.separate_append v

theorem divider_space : Divider " " := by decide

theorem pieces_plain_append {α : Type} {head? : List Char → Option (α × Nat)} {d : Char}
    (hnone : ∀ c, c ≠ d → ∀ s, head? (c :: s) = none) {w : List Char} (hw : d ∉ w)
    (t : List Char) : pieces head? (w ++ t) = w.map .char ++ pieces head? t := by
  refine pieces_chars_append fun u c v hg => hnone c ?_ _
  rintro rfl
  exact hw (by simp [hg])

theorem writeMarks_chars (bound : Nat) (s : List Char) :
    writeMarks marker known bound (s.map .char) = .ok s := by
  induction s with
  | nil => rfl
  | cons c s ih => rw [List.map_cons, writeMarks, ih]; rfl

theorem expandOrder_plain_append {w : String} (hw : Plain w) (t : String) :
    expandOrder terms (w ++ t) = (expandOrder terms t).map (w ++ ·) := by
  have hpieces : pieces OrderMacro.head? (w ++ t).toList =
      w.toList.map .char ++ pieces OrderMacro.head? t.toList := by
    rw [String.toList_append, pieces_plain_append (fun c => head?_eq_none_of_ne) hw.noMacro]
  have hchars : (w.toList.map Piece.char : List (Piece OrderMacro)).all (·.found?.isNone) := by
    simp [Piece.found?]
  unfold expandOrder
  simp only [hpieces, List.all_append, hchars, Bool.true_and, fill_append, fill_chars]
  split
  · rfl
  · split
    · rfl
    · exact congrArg Except.ok (by rw [String.ofList_append, String.ofList_toList])

theorem bindPlaceholders_plain_append {w : String} (hw : Plain w) (t : String) :
    bindPlaceholders marker values (w ++ t) params =
      (bindPlaceholders marker values t params).map fun b => (w ++ b.1, b.2) := by
  have hpieces : pieces Placeholder.head? (w ++ t).toList =
      w.toList.map .char ++ pieces Placeholder.head? t.toList := by
    rw [String.toList_append, pieces_plain_append (fun c => Placeholder.head?_eq_none_of_ne)
      hw.noName]
  simp only [bindPlaceholders_eq, ← finds_pieces, hpieces, writeMarks_append, writeMarks_chars,
    finds_append, finds_chars]
  simp only [Except.bind, List.length_nil, Nat.add_zero, List.nil_append]
  cases writeMarks marker (hasValue values) params.length (pieces Placeholder.head? t.toList) with
  | error e => rfl
  | ok a =>
    exact congrArg (fun s => Except.ok (s, _))
      (by rw [String.ofList_append, String.ofList_toList])

theorem expandOrder_plain {w : String} (hw : Plain w) : expandOrder terms w = .ok w :=
  calc expandOrder terms w
    _ = expandOrder terms (w ++ "") := by rw [String.append_empty]
    _ = .ok (w ++ "") := expandOrder_plain_append hw ""
    _ = .ok w := by rw [String.append_empty]

theorem bindPlaceholders_empty (params : List Value) :
    bindPlaceholders marker values "" params = .ok ("", params) :=
  congrArg (fun all => Except.ok ("", all)) (List.append_nil params)

theorem bindPlaceholders_plain {w : String} (hw : Plain w) :
    bindPlaceholders marker values w params = .ok (w, params) :=
  calc bindPlaceholders marker values w params
    _ = bindPlaceholders marker values (w ++ "") params := by rw [String.append_empty]
    _ = (bindPlaceholders marker values "" params).map fun b => (w ++ b.1, b.2) :=
      bindPlaceholders_plain_append hw ""
    _ = .ok (w ++ "", params) := by rw [bindPlaceholders_empty]; rfl
    _ = .ok (w, params) := by rw [String.append_empty]

theorem expandOrder_divided_eq_ok_iff {w : String} (hw : Divider w) :
    expandOrder terms (s ++ (w ++ t)) = .ok out ↔
      ∃ a b, expandOrder terms s = .ok a ∧ expandOrder terms t = .ok b ∧ out = a ++ (w ++ b) := by
  simp only [expandOrder_append_eq_ok_iff (hw.separate_append t).atWordEnd,
    expandOrder_plain_append hw.toPlain, map_eq_ok_iff]
  constructor
  · rintro ⟨a, _, ha, ⟨b, hb, rfl⟩, rfl⟩
    exact ⟨a, b, ha, hb, rfl⟩
  · rintro ⟨a, b, ha, hb, rfl⟩
    exact ⟨a, _, ha, ⟨b, hb, rfl⟩, rfl⟩

theorem bindPlaceholders_divided_eq_ok_iff {w : String} (hw : Divider w) :
    bindPlaceholders marker values (s ++ (w ++ t)) params = .ok (out, all) ↔
      ∃ a mid b, bindPlaceholders marker values s params = .ok (a, mid) ∧
        bindPlaceholders marker values t mid = .ok (b, all) ∧ out = a ++ (w ++ b) := by
  simp only [bindPlaceholders_append_eq_ok_iff (hw.separate_append t).nameEnds,
    bindPlaceholders_plain_append hw.toPlain, map_eq_ok_iff, Prod.exists, Prod.mk.injEq]
  constructor
  · rintro ⟨a, mid, _, ha, ⟨b, _, hb, rfl, rfl⟩, rfl⟩
    exact ⟨a, mid, b, ha, hb, rfl⟩
  · rintro ⟨a, mid, b, ha, hb, rfl⟩
    exact ⟨a, mid, _, ha, ⟨b, _, hb, rfl, rfl⟩, rfl⟩

/-- What stands before and after a divider is rewritten part by part. -/
theorem rewrite_divided_eq_ok_iff {w : String} (hw : Divider w) :
    rewrite terms d values ⟨s ++ (w ++ t), params⟩ = .ok ⟨out, all⟩ ↔
      ∃ a mid b, rewrite terms d values ⟨s, params⟩ = .ok ⟨a, mid⟩ ∧
        rewrite terms d values ⟨t, mid⟩ = .ok ⟨b, all⟩ ∧ out = a ++ (w ++ b) := by
  simp only [rewrite_eq_ok_iff]
  constructor
  · rintro ⟨expanded, hexp, hbind⟩
    obtain ⟨s', t', hs, ht, rfl⟩ := (expandOrder_divided_eq_ok_iff hw).mp hexp
    obtain ⟨a, mid, b, ha, hb, rfl⟩ := (bindPlaceholders_divided_eq_ok_iff hw).mp hbind
    exact ⟨a, mid, b, ⟨s', hs, ha⟩, ⟨t', ht, hb⟩, rfl⟩
  · rintro ⟨a, mid, b, ⟨s', hs, ha⟩, ⟨t', ht, hb⟩, rfl⟩
    exact ⟨s' ++ (w ++ t'), (expandOrder_divided_eq_ok_iff hw).mpr ⟨s', t', hs, ht, rfl⟩,
      (bindPlaceholders_divided_eq_ok_iff hw).mpr ⟨a, mid, b, ha, hb, rfl⟩⟩

/-- There are markers for the first `k` positions. -/
def Dialect.HasMarkers (d : Dialect) (k : Nat) : Prop :=
  ∀ n : Nat, n < k → ∃ mark, d.marker (n + 1) = .ok mark

/-- What a text binds after other parameters it binds alone too. -/
theorem rewrite_alone {x y : Draft} (hd : d.HasMarkers x.params.length)
    (h : rewrite terms d values x = .ok y) :
    d.HasMarkers y.params.length ∧ ∃ z, rewrite terms d values ⟨x.text, []⟩ = .ok z ∧
      y.params = x.params ++ z.params := by
  obtain ⟨expanded, hexp, hbind⟩ := rewrite_eq_ok_iff.mp h
  have hlen := length_of_bindPlaceholders hbind
  obtain ⟨hmarks, hparams⟩ := bindPlaceholders_eq_ok_iff.mp hbind
  obtain ⟨hnames, hmarkers⟩ := exists_writeMarks_iff.mp ⟨_, hmarks⟩
  have hall : d.HasMarkers y.params.length := by
    intro n hn
    rcases Nat.lt_or_ge n x.params.length with hlt | hge
    · exact hd n hlt
    · exact hmarkers n hge (by rwa [finds_pieces, ← hlen])
  have halone : ∃ marks, writeMarks d.marker (hasValue values) 0
      (pieces Placeholder.head? expanded.toList) = .ok marks :=
    exists_writeMarks_iff.mpr ⟨hnames, fun n _ hn => hall n (by rw [finds_pieces] at hn; omega)⟩
  obtain ⟨marks, hmarks⟩ := halone
  refine ⟨hall, ⟨String.ofList marks, _⟩, rewrite_eq_ok_iff.mpr ⟨expanded, hexp,
    bindPlaceholders_eq_ok_iff.mpr ⟨by rw [String.toList_ofList]; exact hmarks, rfl⟩⟩, hparams⟩

/-- Texts joined by spaces bind what they bind alone, one after another. -/
theorem rewrite_intercalate {cs : List String} (hd : d.HasMarkers params.length)
    (h : rewrite terms d values ⟨" ".intercalate cs, params⟩ = .ok ⟨out, all⟩) :
    ∃ drafts, List.Forall₂ (fun c y => rewrite terms d values ⟨c, []⟩ = .ok y) cs drafts ∧
      all = params ++ drafts.flatMap Draft.params := by
  induction cs generalizing params out with
  | nil =>
    obtain ⟨expanded, hexp, hbind⟩ := rewrite_eq_ok_iff.mp h
    obtain rfl : "" = expanded := Except.ok.inj hexp
    obtain ⟨-, rfl⟩ := Prod.mk.inj (Except.ok.inj hbind)
    exact ⟨[], .nil, rfl⟩
  | cons c cs ih =>
    cases cs with
    | nil =>
      rw [String.intercalate_singleton] at h
      obtain ⟨-, y, hy, heq⟩ := rewrite_alone hd h
      exact ⟨[y], .cons hy .nil, by simpa using heq⟩
    | cons c' cs =>
      rw [String.intercalate_cons_cons, String.append_assoc] at h
      obtain ⟨a, mid, b, ha, hb, -⟩ := (rewrite_divided_eq_ok_iff divider_space).mp h
      obtain ⟨hmid, y, hy, heq⟩ := rewrite_alone hd ha
      obtain ⟨drafts, hdrafts, hall⟩ := ih hmid hb
      exact ⟨y :: drafts, .cons hy hdrafts, by
        rw [hall, heq, List.flatMap_cons, List.append_assoc]⟩

end SqlCompose
