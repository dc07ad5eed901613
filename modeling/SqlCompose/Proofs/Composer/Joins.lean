import Mathlib.Data.List.Forall2
import SqlCompose.Proofs.Clause
import SqlCompose.Proofs.RoundTrip
import SqlCompose.Proofs.Word

/-!
# Spellings of joins

A join may be spelled in any case and with any blanks between the words: what counts is the spelling
in its folded form (`Join.FoldsTo`), which has words of its own (`Spaced`). Of the folded forms six
name a kind of join (`Join.Names`), and only subqueries joined in this way are accepted and written.
A request does not change if its joins are spelled in another way that has the same folded form
(`Query.decode_respelled`).
-/

namespace SqlCompose

open Shape Shape.Decoded

/-! ### Words between blanks -/

/-- A text and its words: runs of other characters than blanks, each with a blank after it or at the
end of the text. -/
inductive Spaced : List Char → List (List Char) → Prop
  | nil : Spaced [] []
  | blank {c : Char} {s : List Char} {words : List (List Char)} : isBlankChar c → Spaced s words →
    Spaced (c :: s) words
  | word {w s : List Char} {words : List (List Char)} : w ≠ [] →
    (∀ c ∈ w, isBlankChar c = false) → (∀ c ∈ s.head?, isBlankChar c) → Spaced s words →
    Spaced (w ++ s) (w :: words)

section

variable {c : Char} {s w : List Char} {words : List (List Char)}

theorem wordsBetweenBlanks_word_append (hw : w ≠ []) (hall : ∀ c ∈ w, isBlankChar c = false)
    (hs : ∀ c ∈ s.head?, isBlankChar c) :
    wordsBetweenBlanks (w ++ s) = w :: wordsBetweenBlanks s := by
  have hends : ∀ c ∈ s.head?, isBlankChar c ≠ false := fun c hc => by simp [hs c hc]
  have hkeep : w.all isBlankChar = false := by
    obtain ⟨c, rest, rfl⟩ := List.exists_cons_of_ne_nil hw
    simp [hall c List.mem_cons_self]
  rw [wordsBetweenBlanks, runs_append hw hall hends, List.filter_cons_of_pos (by simp [hkeep]),
    wordsBetweenBlanks]

theorem wordsBetweenBlanks_blanks_append (hall : ∀ c ∈ w, isBlankChar c)
    (hs : ∀ c ∈ s.head?, isBlankChar c = false) :
    wordsBetweenBlanks (w ++ s) = wordsBetweenBlanks s := by
  by_cases hw : w = []
  · rw [hw, List.nil_append]
  · have hends : ∀ c ∈ s.head?, isBlankChar c ≠ true := fun c hc => by simp [hs c hc]
    have hdrop : w.all isBlankChar := List.all_eq_true.mpr hall
    rw [wordsBetweenBlanks, runs_append hw hall hends, List.filter_cons_of_neg (by simp [hdrop]),
      wordsBetweenBlanks]

theorem wordsBetweenBlanks_cons_of_blank (hc : isBlankChar c) :
    wordsBetweenBlanks (c :: s) = wordsBetweenBlanks s := by
  obtain ⟨b, t, rfl, hb, ht⟩ := exists_run_append isBlankChar s
  rw [← List.cons_append,
    wordsBetweenBlanks_blanks_append (List.forall_mem_cons.mpr ⟨hc, hb⟩) ht,
    wordsBetweenBlanks_blanks_append hb ht]

theorem Spaced.words_eq (h : Spaced s words) : wordsBetweenBlanks s = words := by
  induction h with
  | nil => rfl
  | blank hc _ ih => rw [wordsBetweenBlanks_cons_of_blank hc, ih]
  | word hw hall hs _ ih => rw [wordsBetweenBlanks_word_append hw hall hs, ih]

theorem exists_spaced (s : List Char) : ∃ words, Spaced s words := by
  -- Each step takes a blank or a whole word from the head.
  induction hn : s.length using Nat.strongRecOn generalizing s with
  | _ n ih =>
    subst hn
    cases s with
    | nil => exact ⟨[], .nil⟩
    | cons c s =>
      cases hc : isBlankChar c with
      | true =>
        obtain ⟨words, h⟩ := ih s.length (by simp) s rfl
        exact ⟨words, .blank hc h⟩
      | false =>
        obtain ⟨w, t, rfl, hw, ht⟩ := exists_run_append (fun c => !isBlankChar c) s
        obtain ⟨words, h⟩ := ih t.length (by rw [List.length_cons, List.length_append]; omega) t rfl
        refine ⟨_, .word (List.cons_ne_nil c w) ?_ (by simpa using ht) h⟩
        exact List.forall_mem_cons.mpr ⟨hc, by simpa using hw⟩

theorem spaced_iff : Spaced s words ↔ wordsBetweenBlanks s = words := by
  refine ⟨Spaced.words_eq, fun h => ?_⟩
  obtain ⟨words', h'⟩ := exists_spaced s
  rwa [← h, h'.words_eq]

end

/-! ### Folded spellings -/

namespace Join

/-- The folded form of a spelling: its words in upper case with single spaces between them. -/
def FoldsTo (v w : String) : Prop :=
  ∃ words, Spaced (upper v.toList) words ∧ w = " ".intercalate (words.map String.ofList)

/-- The kind of join that a folded form names. -/
inductive Names (w : String) : Join → Prop
  | inner : w ∈ ["INNER", "JOIN", "INNER JOIN"] → Names w .inner
  | left : w ∈ ["LEFT", "LEFT JOIN", "LEFT OUTER JOIN"] → Names w .left

variable {v w : String} {j : Join}

theorem foldsTo_iff : FoldsTo v w ↔ fold v = w := by
  simp [FoldsTo, spaced_iff, fold, eq_comm]

theorem not_mem_innerSpellings_of_left : ∀ w ∈ leftSpellings, w ∉ innerSpellings := by decide

theorem ofSpelling_of_names (hw : FoldsTo v w) (h : Names w j) : ofSpelling v = j := by
  obtain rfl := foldsTo_iff.mp hw
  cases h with
  | inner hin => exact if_pos hin
  | left hle => exact (if_neg (not_mem_innerSpellings_of_left _ hle)).trans (if_pos hle)

theorem ofSpelling_of_no_name (hw : FoldsTo v w) (h : ∀ j, ¬ Names w j) :
    ofSpelling v = .other v := by
  obtain rfl := foldsTo_iff.mp hw
  exact (if_neg fun hin => h _ (.inner hin)).trans (if_neg fun hle => h _ (.left hle))

/-- The names of the supported kinds fold to themselves. -/
theorem ne_of_no_name (hw : FoldsTo v w) (h : ∀ j, ¬ Names w j) : v ≠ "INNER" ∧ v ≠ "LEFT" := by
  have hinner : fold "INNER" = "INNER" := by decide
  have hleft : fold "LEFT" = "LEFT" := by decide
  obtain rfl := foldsTo_iff.mp hw
  constructor
  · rintro rfl
    exact h .inner (.inner (by simp [hinner]))
  · rintro rfl
    exact h .left (.left (by simp [hleft]))

theorem isSome_keyword?_iff (hw : FoldsTo v w) :
    (ofSpelling v).keyword?.isSome ↔ ∃ j, Names w j := by
  constructor
  · intro h
    by_contra hnone
    rw [ofSpelling_of_no_name hw fun j hj => hnone ⟨j, hj⟩] at h
    contradiction
  · rintro ⟨j, hj⟩
    rw [ofSpelling_of_names hw hj]
    cases hj <;> rfl

end Join

/-! ### A subquery by the spelling of its join -/

section

variable {ms : List (String × Value)} {s : Subquery} {v w : String}

theorem Subquery.join_of_decode (h : Subquery.decode (.obj ms) = .ok s)
    (hv : ms.lookup "join_type" = some (.str v)) : s.join = Join.ofSpelling v := by
  have hjoin : decodeJoin (.str v) = .ok (Join.ofSpelling v) := rfl
  have hmember := Subquery.member_join_of_decode h
  rw [member_of_lookup hv hjoin] at hmember
  exact (Except.ok.inj hmember).symm

/-- A subquery is joined by a keyword, and keeps the name of the kind of join that it stands for. -/
structure Subquery.JoinedBy (s : Subquery) (kind keyword : String) : Prop where
  spelling_eq : s.join.spelling = kind
  keyword_eq : s.join.keyword? = some keyword
  line_eq : Clause.join s = .ok (keyword ++ " " ++ sanitize s.name ++ " AS " ++
    sanitize s.aliasName ++ " ON " ++ s.joinOn)

/-- No keyword joins a subquery, which keeps the spelling `v`. -/
structure Subquery.NotJoined (s : Subquery) (v : String) : Prop where
  spelling_eq : s.join.spelling = v
  ne_inner : v ≠ "INNER"
  ne_left : v ≠ "LEFT"
  keyword_eq : s.join.keyword? = none
  line_eq : Clause.join s = .error (.missingKey v)

theorem Subquery.joinedBy {kind keyword : String} (hkind : s.join.spelling = kind)
    (hkeyword : s.join.keyword? = some keyword) : s.JoinedBy kind keyword :=
  ⟨hkind, hkeyword, by rw [Clause.join, hkeyword]⟩

theorem Subquery.notJoined (hw : Join.FoldsTo v w) (hno : ∀ j, ¬ Join.Names w j)
    (hs : s.join = Join.ofSpelling v) : s.NotJoined v := by
  rw [Join.ofSpelling_of_no_name hw hno] at hs
  obtain ⟨hinner, hleft⟩ := Join.ne_of_no_name hw hno
  exact ⟨by rw [hs]; rfl, hinner, hleft, by rw [hs]; rfl, by rw [Clause.join, hs]; rfl⟩

/-- The keyword is found under what is kept of a spelling. -/
theorem Join.keyword?_ofSpelling (v : String) :
    (ofSpelling v).keyword? =
      [("INNER", "JOIN"), ("LEFT", "LEFT JOIN")].lookup (ofSpelling v).spelling := by
  have hw : FoldsTo v (fold v) := foldsTo_iff.mpr rfl
  by_cases h : ∃ j, Names (fold v) j
  · obtain ⟨j, hj⟩ := h
    rw [ofSpelling_of_names hw hj]
    cases hj <;> rfl
  · have hno : ∀ j, ¬ Names (fold v) j := fun j hj => h ⟨j, hj⟩
    obtain ⟨hinner, hleft⟩ := ne_of_no_name hw hno
    rw [ofSpelling_of_no_name hw hno, spelling, List.lookup_cons, List.lookup_cons,
      beq_eq_false_iff_ne.mpr hinner, beq_eq_false_iff_ne.mpr hleft]
    rfl

/-! ### Validation -/

theorem Subquery.Usable.of_join {j : Join} (h : { s with join := j }.Usable)
    (hjoin : s.join.keyword?.isSome) : s.Usable :=
  ⟨h.query, hjoin, h.joinOn, h.name, h.aliasName, h.fieldNames⟩

/-- A request that would be accepted with another join for one of its subqueries is accepted if that
join has a keyword. -/
theorem standardValidator_eq_none_iff_of_join {q : Query} {o : Options}
    {before after : List Subquery} {j : Join} (hq : q.subqueries = before ++ s :: after)
    (h : standardValidator { q with subqueries := before ++ { s with join := j } :: after } o =
      none) : standardValidator q o = none ↔ s.join.keyword?.isSome := by
  rw [standardValidator_eq_none_iff, firstFault_eq_none_iff] at h ⊢
  constructor
  · intro hform
    exact (hform.subqueries s (by simp [hq])).join
  · intro hjoin
    refine ⟨h.source, h.aliasName, h.fields, h.fieldNames, h.page, h.pageSize, ?_⟩
    have hothers := h.subqueries
    rw [List.forall_mem_append, List.forall_mem_cons] at hothers
    rw [hq, List.forall_mem_append, List.forall_mem_cons]
    exact ⟨hothers.1, hothers.2.1.of_join hjoin, hothers.2.2⟩

end

/-! ### Requests with other spellings -/

/-- Subqueries as values that are alike but for the spelling of a join of a supported kind. -/
inductive Respelled : Value → Value → Prop
  | same (v : Value) : Respelled v v
  | join {ms : List (String × Value)} {v v' w : String} {j : Join} :
    ms.lookup "join_type" = some (.str v) → Join.FoldsTo v w → Join.FoldsTo v' w →
    Join.Names w j → Respelled (.obj ms) (.obj (putMember "join_type" (.str v') ms))

theorem Subquery.decode_respelled {v v' : Value} (h : Respelled v v') :
    Subquery.decode v' = Subquery.decode v := by
  cases h with
  | same => rfl
  | @join ms v v' w j hms hv hv' hj =>
    have hjoin : decodeJoin (.str v') = decodeJoin (.str v) :=
      congrArg Except.ok
        ((Join.ofSpelling_of_names hv' hj).trans (Join.ofSpelling_of_names hv hj).symm)
    simp (disch := decide) only [Subquery.decode, member_putMember hms hjoin,
      member_putMember_of_ne, onlyMembers_putMember]

theorem list_subquery_respelled {vs vs' : List Value} (h : List.Forall₂ Respelled vs vs') :
    list Subquery.decode (.arr vs') = list Subquery.decode (.arr vs) := by
  have hitems (i : Nat) : items Subquery.decode i vs' = items Subquery.decode i vs := by
    induction h generalizing i with
    | nil => rfl
    | cons hv _ ih => rw [items, items, Subquery.decode_respelled hv, ih]
  exact hitems 0

theorem Query.decode_respelled {ms : List (String × Value)} {vs vs' : List Value}
    (hms : ms.lookup "subqueries" = some (.arr vs)) (h : List.Forall₂ Respelled vs vs') :
    Query.decode (.obj (putMember "subqueries" (.arr vs') ms)) = Query.decode (.obj ms) := by
  simp (disch := decide) only [Query.decode, member_putMember hms (list_subquery_respelled h),
    member_putMember_of_ne, onlyMembers_putMember]

/-- A folded spelling decides what is kept of a join, whether the subquery is accepted, how it is
joined, and nothing else about the spelling does. -/
theorem joins_agree :
    (∀ v, ∃! w, Join.FoldsTo v w) ∧
    (∀ v, ∃ s, Subquery.decode (.obj [("join_type", .str v)]) = .ok s) ∧
    (∀ ms v w s, ms.lookup "join_type" = some (.str v) → Join.FoldsTo v w →
      Subquery.decode (.obj ms) = .ok s →
      (Join.Names w .inner → s.JoinedBy "INNER" "JOIN") ∧
      (Join.Names w .left → s.JoinedBy "LEFT" "LEFT JOIN") ∧
      ((∀ j, ¬ Join.Names w j) → s.NotJoined v) ∧
      s.join.keyword? = [("INNER", "JOIN"), ("LEFT", "LEFT JOIN")].lookup s.join.spelling ∧
      ∀ (q : Query) (o : Options) before after j, q.subqueries = before ++ s :: after →
        standardValidator { q with subqueries := before ++ { s with join := j } :: after } o =
          none →
        (standardValidator q o = none ↔ ∃ j, Join.Names w j)) ∧
    (∀ v, Join.ofSpelling (Join.ofSpelling v).spelling = Join.ofSpelling v) ∧
    ∀ (r : Registry) (c : Config) ms vs vs' options, ms.lookup "subqueries" = some (.arr vs) →
      List.Forall₂ Respelled vs vs' →
      composeValues r c (.obj (putMember "subqueries" (.arr vs') ms)) options =
        composeValues r c (.obj ms) options := by
  refine ⟨fun v => ⟨Join.fold v, Join.foldsTo_iff.mpr rfl, fun w hw => ?_⟩, fun v => ⟨_, rfl⟩,
    fun ms v w s hms hw hs => ?_, Join.ofSpelling_spelling, fun r c ms vs vs' options hms h => ?_⟩
  · exact (Join.foldsTo_iff.mp hw).symm
  · have hjoin := Subquery.join_of_decode hs hms
    refine ⟨fun hin => ?_, fun hle => ?_, fun hno => Subquery.notJoined hw hno hjoin, ?_, ?_⟩
    · rw [Join.ofSpelling_of_names hw hin] at hjoin
      exact Subquery.joinedBy (by rw [hjoin]; rfl) (by rw [hjoin]; rfl)
    · rw [Join.ofSpelling_of_names hw hle] at hjoin
      exact Subquery.joinedBy (by rw [hjoin]; rfl) (by rw [hjoin]; rfl)
    · rw [hjoin, Join.keyword?_ofSpelling]
    · intro q o before after j hq h
      rw [standardValidator_eq_none_iff_of_join hq h, hjoin, Join.isSome_keyword?_iff hw]
  · simp only [composeValues, Query.decode_respelled hms h]

/-- A left outer join in small letters, one of them without its dot, between other blanks than
spaces. -/
def dotlessJoin : String := "\u001cleft\u00a0outer\tjo\u0131n "

def tagsMembers (spelling : String) : List (String × Value) :=
  [("name", .str "tags"), ("alias", .str "t"), ("query", .str "SELECT 1"),
    ("join_type", .str spelling), ("join_on", .str "TRUE")]

def taggedMembers (spelling : String) : List (String × Value) :=
  [("source_table", .str "users"), ("alias", .str "u"), ("fields", .obj [("id", .str "u.id")]),
    ("subqueries", .arr [.obj (tagsMembers spelling)])]

theorem joins_agree_of_dotless :
    Join.FoldsTo dotlessJoin "LEFT OUTER JOIN" ∧
    ∃ s, Subquery.decode (.obj (tagsMembers dotlessJoin)) = .ok s ∧
      s.JoinedBy "LEFT" "LEFT JOIN" ∧
      standardValidator ⟨some "users", none, "u", [("id", "u.id")], none, [s]⟩ .empty = none ∧
      composeValues .builtin {} (.obj (taggedMembers "left join")) none =
        composeValues .builtin {} (.obj (taggedMembers "\tLEFT  JOIN")) none := by
  obtain ⟨-, -, hjoined, -, hsame⟩ := joins_agree
  have hfold : Join.FoldsTo dotlessJoin "LEFT OUTER JOIN" := Join.foldsTo_iff.mpr (by decide)
  have hnames : Join.Names "LEFT OUTER JOIN" .left := .left (by decide)
  have hs : Subquery.decode (.obj (tagsMembers dotlessJoin)) =
      .ok ⟨"tags", "t", "SELECT 1", .left, "TRUE", [], none, []⟩ := by rfl
  obtain ⟨-, hleft, -, -, haccepted⟩ := hjoined _ _ _ _ rfl hfold hs
  refine ⟨hfold, _, hs, hleft hnames, ?_, ?_⟩
  · exact (haccepted ⟨some "users", none, "u", [("id", "u.id")], none, _⟩ .empty [] [] .inner rfl
      (by decide)).mpr ⟨_, hnames⟩
  · exact hsame .builtin {} (taggedMembers "\tLEFT  JOIN") _ _ none rfl
      (.cons (.join rfl (Join.foldsTo_iff.mpr (by decide)) (Join.foldsTo_iff.mpr (by decide))
        (.left (by decide : "LEFT JOIN" ∈ _))) .nil)

end SqlCompose
