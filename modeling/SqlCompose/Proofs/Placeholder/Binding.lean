import SqlCompose.Proofs.Placeholder.Name

/-!
# What binding writes and what it binds

Binding walks along the pieces of a text, with the values at hand. The text that it writes and the
place where it stops depend on which names have values, not on the values (`bindPieces_eq`). It
comes to the end if each name has a value and each position a marker (`exists_writeMarks_iff`). For
markers that never fail it is known in closed form: the first name without a value is missed, and
otherwise the markers stand between the gaps of the text (`bindPlaceholders_of_total`).
-/

namespace SqlCompose

open Placeholder

theorem bind_eq_ok_iff {ε α β : Type} {x : Except ε α} {f : α → Except ε β} {b : β} :
    x.bind f = .ok b ↔ ∃ a, x = .ok a ∧ f a = .ok b := by
  cases x <;> simp [Except.bind]

theorem map_eq_ok_iff {ε α β : Type} {x : Except ε α} {f : α → β} {b : β} :
    x.map f = .ok b ↔ ∃ a, x = .ok a ∧ f a = b := by
  cases x <;> simp [Except.map]

theorem exists_map_eq_ok_iff {ε α β : Type} {x : Except ε α} {f : α → β} :
    (∃ b, x.map f = .ok b) ↔ ∃ a, x = .ok a := by
  cases x <;> simp [Except.map]

theorem exists_eq_ok_of_isOk {ε α : Type} {x : Except ε α} (h : x.isOk) : ∃ a, x = .ok a := by
  cases x with
  | error e => contradiction
  | ok a => exact ⟨a, rfl⟩

theorem map_eq_error_iff {ε α β : Type} {x : Except ε α} {f : α → β} {e : ε} :
    x.map f = .error e ↔ x = .error e := by
  cases x <;> simp [Except.map]

variable {marker : Int → Except Abort String} {values : List (String × Value)}
  {known : String → Bool}

/-- The text of `bindPieces`, by the names that have values. -/
def writeMarks (marker : Int → Except Abort String) (known : String → Bool) (bound : Nat) :
    List (Piece String) → Except Abort (List Char)
  | [] => .ok []
  | .char c :: ps => (writeMarks marker known bound ps).map (c :: ·)
  | .found name :: ps =>
    if known name then
      (marker (bound + 1)).bind fun mark =>
        (writeMarks marker known (bound + 1) ps).map (mark.toList ++ ·)
    else .error (.refused (.missingParameter name))

/-- The names that have values. -/
def hasValue (values : List (String × Value)) (name : String) : Bool := (values.lookup name).isSome

theorem hasValue_iff_mem_keys {name : String} :
    hasValue values name ↔ name ∈ values.map Prod.fst :=
  isSome_lookup_iff_mem

theorem filterMap_lookup_cons {name : String} {v : Value} (hv : values.lookup name = some v)
    (names : List String) :
    (name :: names).filterMap (values.lookup ·) = v :: names.filterMap (values.lookup ·) := by
  simp [hv]

theorem bindPieces_eq (bound : Nat) (ps : List (Piece String)) :
    bindPieces marker values bound ps =
      (writeMarks marker (hasValue values) bound ps).map fun out =>
        (out, (finds ps).filterMap (values.lookup ·)) := by
  induction ps generalizing bound with
  | nil => rfl
  | cons p ps ih =>
    cases p with
    | char c =>
      simp only [bindPieces, writeMarks, ih]
      cases writeMarks marker (hasValue values) bound ps <;> rfl
    | found name =>
      simp only [bindPieces, writeMarks, ih]
      cases hv : values.lookup name with
      | none => simp [hasValue, hv, Except.map]
      | some v =>
        simp only [hasValue, hv, Option.isSome_some, if_true, finds_found, filterMap_lookup_cons hv]
        cases marker (bound + 1) with
        | error e => rfl
        | ok mark => cases writeMarks marker (hasValue values) (bound + 1) ps <;> rfl

theorem bindPlaceholders_eq (text : String) (params : List Value) :
    bindPlaceholders marker values text params =
      (writeMarks marker (hasValue values) params.length (pieces head? text.toList)).map fun out =>
        (String.ofList out,
          params ++ (occurrences head? text.toList).filterMap (values.lookup ·)) := by
  unfold bindPlaceholders
  rw [bindPieces_eq]
  cases writeMarks marker (hasValue values) params.length (pieces head? text.toList) <;> rfl

/-- Of the values only those of the names in the text are looked at. -/
theorem bindPieces_congr {values' : List (String × Value)} {ps : List (Piece String)}
    (h : ∀ name ∈ finds ps, values.lookup name = values'.lookup name) (bound : Nat) :
    bindPieces marker values bound ps = bindPieces marker values' bound ps := by
  induction ps generalizing bound with
  | nil => rfl
  | cons p ps ih =>
    cases p with
    | char c => simp only [bindPieces, ih h]
    | found name =>
      obtain ⟨hname, hnames⟩ := List.forall_mem_cons.mp h
      simp only [bindPieces, hname, ih hnames]

theorem bindPlaceholders_congr {values' : List (String × Value)} {text : String}
    (h : ∀ name, OccursIn name text.toList → values.lookup name = values'.lookup name)
    (params : List Value) :
    bindPlaceholders marker values text params = bindPlaceholders marker values' text params := by
  unfold bindPlaceholders
  rw [bindPieces_congr fun name hname => h name (mem_occurrences_iff.mp hname)]

theorem bindPlaceholders_eq_ok_iff {text out : String} {params all : List Value} :
    bindPlaceholders marker values text params = .ok (out, all) ↔
      writeMarks marker (hasValue values) params.length
          (pieces head? text.toList) = .ok out.toList ∧
        all = params ++ (occurrences head? text.toList).filterMap (values.lookup ·) := by
  rw [bindPlaceholders_eq, map_eq_ok_iff]
  constructor
  · rintro ⟨a, ha, heq⟩
    obtain ⟨rfl, rfl⟩ := Prod.mk.inj heq
    exact ⟨by rw [ha, String.toList_ofList], rfl⟩
  · rintro ⟨ha, rfl⟩
    exact ⟨out.toList, ha, by rw [String.ofList_toList]⟩

theorem exists_writeMarks_found_iff {bound : Nat} {name : String} {ps : List (Piece String)} :
    (∃ a, writeMarks marker known bound (.found name :: ps) = .ok a) ↔
      known name ∧ (∃ mark, marker (bound + 1) = .ok mark) ∧
        ∃ a, writeMarks marker known (bound + 1) ps = .ok a := by
  rw [writeMarks]
  cases known name with
  | false => simp
  | true =>
    cases marker (bound + 1) with
    | error e => simp [Except.bind]
    | ok mark => simp [Except.bind, exists_map_eq_ok_iff]

/-- Marks are written if all names have values and there is a marker for each position. -/
theorem exists_writeMarks_iff {bound : Nat} {ps : List (Piece String)} :
    (∃ a, writeMarks marker known bound ps = .ok a) ↔
      (∀ name ∈ finds ps, known name) ∧
        ∀ n : Nat, bound ≤ n → n < bound + (finds ps).length →
          ∃ mark, marker (n + 1) = .ok mark := by
  induction ps generalizing bound with
  | nil => exact ⟨fun _ => ⟨by simp, by simp; omega⟩, fun _ => ⟨[], rfl⟩⟩
  | cons p ps ih =>
    cases p with
    | char c => rw [writeMarks, exists_map_eq_ok_iff, ih, finds_char]
    | found name =>
      rw [exists_writeMarks_found_iff, ih, finds_found, List.forall_mem_cons, List.length_cons]
      constructor
      · rintro ⟨hname, hmark, hnames, hmarks⟩
        refine ⟨⟨hname, hnames⟩, fun n hle hlt => ?_⟩
        rcases Nat.eq_or_lt_of_le hle with rfl | hle
        · exact hmark
        · exact hmarks n hle (by omega)
      · rintro ⟨⟨hname, hnames⟩, hmarks⟩
        exact ⟨hname, hmarks bound (Nat.le_refl _) (by omega), hnames,
          fun n hle hlt => hmarks n (by omega) (by omega)⟩

theorem map_some_filterMap_lookup {names : List String} (h : ∀ name ∈ names, hasValue values name) :
    (names.filterMap (values.lookup ·)).map some = names.map (values.lookup ·) := by
  induction names with
  | nil => rfl
  | cons name names ih =>
    obtain ⟨v, hv⟩ := Option.isSome_iff_exists.mp (h name List.mem_cons_self)
    rw [filterMap_lookup_cons hv, List.map_cons, List.map_cons, hv,
      ih fun n hn => h n (List.mem_cons_of_mem _ hn)]

/-- The values of names, in order, after the parameters already bound. -/
def BindsNames (values : List (String × Value)) (names : List String) (params all : List Value) :
    Prop :=
  ∃ new, all = params ++ new ∧ new.map some = names.map (values.lookup ·)

/-- A binding that succeeds gives a value of its own to each placeholder. -/
theorem bindsNames_of_bindPlaceholders {text out : String} {params all : List Value}
    (h : bindPlaceholders marker values text params = .ok (out, all)) :
    BindsNames values (occurrences head? text.toList) params all := by
  obtain ⟨hmarks, rfl⟩ := bindPlaceholders_eq_ok_iff.mp h
  exact ⟨_, rfl, map_some_filterMap_lookup (exists_writeMarks_iff.mp ⟨_, hmarks⟩).1⟩

/-! ### Where a binding stops -/

/-- The placeholder of a name is not replaced by the marker of a position: the name has no value, or
else there is no marker. -/
def Rejects (marker : Int → Except Abort String) (known : String → Prop) (position : Int)
    (name : String) (a : Abort) : Prop :=
  (¬ known name ∧ a = .refused (.missingParameter name)) ∨ (known name ∧ marker position = .error a)

theorem writeMarks_found_eq_error_iff {bound : Nat} {name : String} {ps : List (Piece String)}
    {a : Abort} :
    writeMarks marker known bound (.found name :: ps) = .error a ↔
      Rejects marker (known ·) (bound + 1) name a ∨
        known name ∧ (∃ mark, marker (bound + 1) = .ok mark) ∧
          writeMarks marker known (bound + 1) ps = .error a := by
  rw [writeMarks]
  cases hname : known name with
  | false => simp [Rejects, hname, eq_comm]
  | true =>
    cases hmark : marker (bound + 1) with
    | error e => simp [Rejects, hname, hmark, Except.bind]
    | ok mark => simp [Rejects, hname, hmark, Except.bind, map_eq_error_iff]

/-- Writing stops at the first name that is rejected. -/
theorem writeMarks_eq_error_iff {bound : Nat} {ps : List (Piece String)} {a : Abort} :
    writeMarks marker known bound ps = .error a ↔
      ∃ before name after, finds ps = before ++ name :: after ∧ (∀ n ∈ before, known n) ∧
        (∀ n : Nat, bound ≤ n → n < bound + before.length → ∃ mark, marker (n + 1) = .ok mark) ∧
        Rejects marker (known ·) ((bound + before.length : Nat) + 1) name a := by
  induction ps generalizing bound with
  | nil => simp [writeMarks]
  | cons p ps ih =>
    cases p with
    | char c => rw [writeMarks, map_eq_error_iff, ih, finds_char]
    | found name =>
      have hlen (before : List String) :
          bound + 1 + before.length = bound + (before.length + 1) := by omega
      rw [finds_found, writeMarks_found_eq_error_iff, ih]
      constructor
      · rintro (hrej | ⟨hname, hmark, before, name', after, hfinds, hnames, hmarks, hrej⟩)
        · exact ⟨[], name, finds ps, rfl, by simp, by simp; omega, hrej⟩
        · refine ⟨name :: before, name', after, by rw [hfinds, List.cons_append],
            List.forall_mem_cons.mpr ⟨hname, hnames⟩, fun n hle hlt => ?_, hlen before ▸ hrej⟩
          rcases Nat.eq_or_lt_of_le hle with rfl | hle
          · exact hmark
          · exact hmarks n hle (by rw [List.length_cons] at hlt; omega)
      · rintro ⟨before, name', after, hfinds, hnames, hmarks, hrej⟩
        cases before with
        | nil =>
          obtain ⟨rfl, -⟩ := List.cons.inj hfinds
          exact .inl hrej
        | cons n before =>
          obtain ⟨rfl, hrest⟩ := List.cons.inj hfinds
          obtain ⟨hname, hnames⟩ := List.forall_mem_cons.mp hnames
          rw [List.length_cons] at hmarks hrej
          exact .inr ⟨hname, hmarks bound (Nat.le_refl _) (by omega), before, name', after, hrest,
            hnames, fun k hle hlt => hmarks k (by omega) (by omega), hlen before ▸ hrej⟩

/-- A placeholder that binding comes to: the `k` before it have values and markers. -/
def Reaches (marker : Int → Except Abort String) (known : String → Prop) (text : List Char)
    (k : Nat) (name : String) : Prop :=
  ∃ before after, IsName name ∧ NameEnds after ∧ text = before ++ (spelling name ++ after) ∧
    (occurrences head? before).length = k ∧ (∀ n, OccursIn n before → known n) ∧
    ∀ n : Nat, n < k → ∃ mark, marker (n + 1) = .ok mark

theorem bindPlaceholders_eq_error_iff {text : String} {a : Abort} :
    bindPlaceholders marker values text [] = .error a ↔
      ∃ k name, Reaches marker (hasValue values ·) text.toList k name ∧
        Rejects marker (hasValue values ·) (k + 1) name a := by
  rw [bindPlaceholders_eq, map_eq_error_iff, writeMarks_eq_error_iff, finds_pieces]
  simp only [occurrences_eq_append_iff, List.length_nil, Nat.zero_le, true_imp_iff, Nat.zero_add]
  constructor
  · rintro ⟨_, name, _, ⟨before, after, hname, hafter, htext, rfl, rfl⟩, hnames, hmarks, hrej⟩
    exact ⟨_, name, ⟨before, after, hname, hafter, htext, rfl,
      fun n hn => hnames n (mem_occurrences_iff.mpr hn), hmarks⟩, hrej⟩
  · rintro ⟨_, name, ⟨before, after, hname, hafter, htext, rfl, hnames, hmarks⟩, hrej⟩
    exact ⟨_, name, _, ⟨before, after, hname, hafter, htext, rfl, rfl⟩,
      fun n hn => hnames n (mem_occurrences_iff.mp hn), hmarks, hrej⟩

/-! ### Markers that never fail -/

/-- The markers for `k` parameters after `bound` others. -/
def marksAfter (mark : Int → String) (bound k : Nat) : List (List Char) :=
  (List.range' (bound + 1) k).map fun n : Nat => (mark n).toList

theorem marksAfter_const (s : String) (bound k : Nat) :
    marksAfter (fun _ => s) bound k = List.replicate k s.toList := by
  simp [marksAfter, List.map_const']

theorem writeMarks_of_total {mark : Int → String} (hm : ∀ n, marker n = .ok (mark n))
    (known : String → Bool) (bound : Nat) (ps : List (Piece String)) :
    writeMarks marker known bound ps =
      match (finds ps).find? (!known ·) with
      | some name => .error (.refused (.missingParameter name))
      | none => .ok (weave (gaps ps) (marksAfter mark bound (finds ps).length)) := by
  induction ps generalizing bound with
  | nil => rfl
  | cons p ps ih =>
    cases p with
    | char c =>
      simp only [writeMarks, ih, finds_char, weave_gaps_char]
      cases (finds ps).find? (!known ·) <;> rfl
    | found name =>
      simp only [writeMarks, hm, ih, finds_found]
      cases hk : known name with
      | false => simp [hk]
      | true =>
        simp only [hk, if_true, List.find?_cons, Bool.not_true]
        cases (finds ps).find? (!known ·) with
        | some n => rfl
        | none => simp [Except.bind, Except.map, gaps, marksAfter, List.range'_succ]

theorem bindPlaceholders_of_total {mark : Int → String} (hm : ∀ n, marker n = .ok (mark n))
    (text : String) (params : List Value) :
    bindPlaceholders marker values text params =
      match (occurrences head? text.toList).find? (!hasValue values ·) with
      | some name => .error (.refused (.missingParameter name))
      | none =>
        .ok (String.ofList (weave (gaps (pieces head? text.toList))
            (marksAfter mark params.length (occurrences head? text.toList).length)),
          params ++ (occurrences head? text.toList).filterMap (values.lookup ·)) := by
  rw [bindPlaceholders_eq, writeMarks_of_total hm, finds_pieces]
  cases (occurrences head? text.toList).find? (!hasValue values ·) <;> rfl

/-- Success of a binding, by the gaps and placeholders of its text. -/
theorem bindPlaceholders_eq_ok {mark : Int → String} (hm : ∀ n, marker n = .ok (mark n))
    {text out : String} {params all : List Value} {gs : List (List Char)} {names : List String}
    (hs : Splits text.toList gs names)
    (h : bindPlaceholders marker values text params = .ok (out, all)) :
    BindsNames values names params all ∧
      out.toList = weave gs (marksAfter mark params.length names.length) := by
  obtain ⟨rfl, rfl⟩ := splits_iff.mp hs
  refine ⟨bindsNames_of_bindPlaceholders h, ?_⟩
  rw [bindPlaceholders_of_total hm] at h
  split at h
  · contradiction
  · obtain ⟨rfl, -⟩ := Prod.mk.inj (Except.ok.inj h)
    exact String.toList_ofList

/-- The placeholder of a name without a value, with values for all before it. -/
def FirstMissing (known : String → Prop) (name : String) (text : List Char) : Prop :=
  ∃ before after, IsName name ∧ NameEnds after ∧ text = before ++ (spelling name ++ after) ∧
    ¬ known name ∧ ∀ n, OccursIn n before → known n

theorem find?_occurrences_eq_some_iff {known : String → Bool} {name : String} {text : List Char} :
    (occurrences head? text).find? (!known ·) = some name ↔
      FirstMissing (known ·) name text := by
  rw [List.find?_eq_some_iff_append]
  constructor
  · rintro ⟨hname, ns, ms, htext, hns⟩
    obtain ⟨before, after, hn, ha, rfl, rfl, rfl⟩ := occurrences_eq_append_iff.mp htext
    exact ⟨before, after, hn, ha, rfl, by simpa using hname, fun n hn =>
      by simpa using hns n (mem_occurrences_iff.mpr hn)⟩
  · rintro ⟨before, after, hn, ha, rfl, hname, hbefore⟩
    refine ⟨by simpa using hname, _, _,
      occurrences_eq_append_iff.mpr ⟨before, after, hn, ha, rfl, rfl, rfl⟩, fun n hn => ?_⟩
    simpa using hbefore n (mem_occurrences_iff.mp hn)

theorem find?_occurrences_eq_none_iff {known : String → Bool} {text : List Char} :
    (occurrences head? text).find? (!known ·) = none ↔
      ∀ name, OccursIn name text → known name := by
  simp [List.find?_eq_none, mem_occurrences_iff]

end SqlCompose
