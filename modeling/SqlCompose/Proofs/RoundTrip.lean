import SqlCompose.Composer
import SqlCompose.Proofs.Config

/-!
# Records written as values

The value that shows every member of a record is decoded into the record again. Of views and of
options this holds of all that there are; a subquery is kept if its join is not a spelling of a
supported kind (`Join.ofSpelling_spelling`), and a config if its window columns are plain
identifiers, as they are after decoding. So nothing changes if a request is decoded, written and
decoded once more.
-/

namespace SqlCompose

open Shape Shape.Decoded

/-- A decoded record comes back if it is written with all of its members and decoded again. -/
def Restores {α : Type} (decode : Value → Decoded α) (encode : α → Value) : Prop :=
  ∀ v a, decode v = .ok a → decode (encode a) = .ok a

section

variable {α : Type} {decode : Value → Decoded α} {encode : α → Value} {v : Value}

/-! ### Members -/

theorem text_str (s : String) : text (.str s) = .ok s := rfl

theorem int_int (n : Int) : int (.int n) = .ok n := rfl

theorem list_text (ts : List String) : list text (.arr (ts.map .str)) = .ok ts :=
  list_map fun t _ => text_str t

theorem map_fieldsValue (fields : List (String × String)) :
    map text (fieldsValue fields) = .ok fields :=
  map_map text_str

theorem nullable_nullOr (hnull : ∀ a, encode a ≠ .null) (h : ∀ a, decode (encode a) = .ok a)
    (x : Option α) : nullable decode (nullOr encode x) = .ok x := by
  cases x with
  | none => rfl
  | some a => exact nullable_of_ne_null (hnull a) (h a)

/-! ### Views -/

mutual

theorem View.decode_toValue : ∀ v : View, View.decode v.toValue = .ok v
  | ⟨name, query, dependencies⟩ => by
    have hbelow := View.decodeItems_toValues dependencies 0
    rw [View.toValue, View.decode, requiredMember_of_lookup rfl (text_str name),
      requiredMember_of_lookup rfl (text_str query), onlyMembers_of_subset (by simp)]
    simp only [View.decodeDependencies, hbelow]
    rfl

theorem View.decodeItems_toValues :
    ∀ (vs : List View) (i : Nat), View.decodeItems i (View.toValues vs) = .ok vs
  | [], _ => by rfl
  | v :: vs, i => by
    rw [View.toValues, View.decodeItems, View.decode_toValue v, View.decodeItems_toValues vs]
    rfl

end

theorem View.toValues_eq_map (vs : List View) : View.toValues vs = vs.map View.toValue := by
  induction vs with
  | nil => rfl
  | cons v vs ih => rw [View.toValues, ih, List.map_cons]

theorem list_view (vs : List View) : list View.decode (.arr (View.toValues vs)) = .ok vs := by
  rw [View.toValues_eq_map]
  exact list_map fun v _ => v.decode_toValue

/-! ### Options -/

theorem Options.decode_toValue (o : Options) : Options.decode o.toValue = .ok o := by
  have hfilter := nullable_nullOr (by simp) text_str o.filter
  have hparams := nullable_nullOr (by simp) map_anyValue o.params
  have hpage := nullable_nullOr (by simp) int_int o.page
  have hsize := nullable_nullOr (by simp) int_int o.pageSize
  have horder := nullable_nullOr (by simp) list_text o.orderBy
  rw [Options.toValue, Options.decode, member_of_lookup rfl hfilter, member_of_lookup rfl hparams,
    member_of_lookup rfl hpage, member_of_lookup rfl hsize, member_of_lookup rfl horder,
    onlyMembers_of_subset (by simp)]
  rfl

/-! ### Subqueries and queries -/

/-- The spelling that a join is kept under names it again, also if it is that of no supported
kind. -/
theorem Join.ofSpelling_spelling (s : String) :
    ofSpelling (ofSpelling s).spelling = ofSpelling s := by
  have hinner : ofSpelling "INNER" = .inner := by decide
  have hleft : ofSpelling "LEFT" = .left := by decide
  by_cases hin : fold s ∈ innerSpellings
  · rw [show ofSpelling s = .inner from if_pos hin]
    exact hinner
  by_cases hle : fold s ∈ leftSpellings
  · rw [show ofSpelling s = .left from (if_neg hin).trans (if_pos hle)]
    exact hleft
  · have hother : ofSpelling s = .other s := (if_neg hin).trans (if_neg hle)
    rw [hother]
    exact hother

theorem Subquery.decode_toValue {s : Subquery} (h : Join.ofSpelling s.join.spelling = s.join) :
    Subquery.decode s.toValue = .ok s := by
  have hjoin : decodeJoin (.str s.join.spelling) = .ok s.join := congrArg Except.ok h
  have hparams := nullable_nullOr (by simp) map_anyValue s.params
  rw [Subquery.toValue, Subquery.decode, member_of_lookup rfl (text_str s.name),
    member_of_lookup rfl (text_str s.aliasName), member_of_lookup rfl (text_str s.query),
    member_of_lookup rfl hjoin, member_of_lookup rfl (text_str s.joinOn),
    member_of_lookup rfl (map_fieldsValue s.fields), member_of_lookup rfl hparams,
    member_of_lookup rfl (list_view s.views), onlyMembers_of_subset (by simp)]
  rfl

theorem Subquery.member_join_of_decode {ms : List (String × Value)} {s : Subquery}
    (h : Subquery.decode (.obj ms) = .ok s) :
    member ms "join_type" (.other "") decodeJoin = .ok s.join := by
  obtain ⟨f, views, hf, -, rfl⟩ := seq_eq_ok (seqLeft_eq_ok h)
  obtain ⟨g, params, hg, -, rfl⟩ := seq_eq_ok hf
  obtain ⟨i, fields, hi, -, rfl⟩ := seq_eq_ok hg
  obtain ⟨j, joinOn, hj, -, rfl⟩ := seq_eq_ok hi
  obtain ⟨k, join, hk, hjoin, rfl⟩ := seq_eq_ok hj
  obtain ⟨l, query, hl, -, rfl⟩ := seq_eq_ok hk
  obtain ⟨m, aliasName, hm, -, rfl⟩ := seq_eq_ok hl
  obtain ⟨name, -, rfl⟩ := map_eq_ok hm
  exact hjoin

/-- A join that was decoded is named by its spelling. -/
theorem Subquery.ofSpelling_join {s : Subquery} (h : Subquery.decode v = .ok s) :
    Join.ofSpelling s.join.spelling = s.join := by
  cases v with
  | obj ms =>
    rcases member_eq_ok (Subquery.member_join_of_decode h) with hjoin | ⟨w, hw⟩
    · rw [hjoin]
      decide
    · obtain ⟨spelling, -, hjoin⟩ := map_eq_ok hw
      rw [← hjoin]
      exact Join.ofSpelling_spelling spelling
  | _ => contradiction

theorem Query.decode_toValue {q : Query} (h : ∀ s ∈ q.subqueries, Subquery.decode s.toValue = .ok s) :
    Query.decode q.toValue = .ok q := by
  have htable := nullable_nullOr (by simp) text_str q.sourceTable
  have hquery := nullable_nullOr (by simp) text_str q.sourceQuery
  have hfilter := nullable_nullOr (by simp) text_str q.filter
  rw [Query.toValue, Query.decode, member_of_lookup rfl htable, member_of_lookup rfl hquery,
    member_of_lookup rfl (text_str q.aliasName), member_of_lookup rfl (map_fieldsValue q.fields),
    member_of_lookup rfl hfilter, member_of_lookup rfl (list_map h), onlyMembers_of_subset (by simp)]
  rfl

/-- The subqueries of a query are decoded with it. -/
theorem Query.exists_decode_subquery {q : Query} (h : Query.decode v = .ok q) :
    ∀ s ∈ q.subqueries, ∃ w, Subquery.decode w = .ok s := by
  cases v with
  | obj ms =>
    obtain ⟨f, subqueries, hf, hsubs, rfl⟩ := seq_eq_ok (seqLeft_eq_ok h)
    obtain ⟨g, filter, hg, -, rfl⟩ := seq_eq_ok hf
    obtain ⟨i, fields, hi, -, rfl⟩ := seq_eq_ok hg
    obtain ⟨j, aliasName, hj, -, rfl⟩ := seq_eq_ok hi
    obtain ⟨k, sourceQuery, hk, -, rfl⟩ := seq_eq_ok hj
    obtain ⟨sourceTable, -, rfl⟩ := map_eq_ok hk
    rcases member_eq_ok hsubs with rfl | ⟨w, hw⟩
    · exact fun s hs => absurd hs List.not_mem_nil
    · exact exists_of_mem_list hw
  | _ => contradiction

/-! ### Configs -/

theorem Config.decode_toValue {c : Config} (hnum : isPlainIdentifier c.numColumn)
    (hremaining : isPlainIdentifier c.remainingColumn) : Config.decode c.toValue = .ok c := by
  have hnum : decodeColumn (.str c.numColumn) = .ok c.numColumn := if_pos hnum
  have hremaining : decodeColumn (.str c.remainingColumn) = .ok c.remainingColumn :=
    if_pos hremaining
  have hwindow : Shape.bool (.bool c.windowColumns) = .ok c.windowColumns := rfl
  rw [Config.toValue, Config.decode, member_of_lookup rfl (text_str c.target),
    member_of_lookup rfl hnum, member_of_lookup rfl hremaining, member_of_lookup rfl hwindow,
    onlyMembers_of_subset (by simp)]
  rfl

/-! ### All records -/

theorem restores_view : Restores View.decode View.toValue := fun _ w _ => w.decode_toValue

theorem restores_options : Restores Options.decode Options.toValue := fun _ o _ => o.decode_toValue

theorem restores_subquery : Restores Subquery.decode Subquery.toValue := fun _ _ h =>
  Subquery.decode_toValue (Subquery.ofSpelling_join h)

theorem restores_query : Restores Query.decode Query.toValue := by
  intro v q h
  refine Query.decode_toValue fun s hs => ?_
  obtain ⟨w, hw⟩ := Query.exists_decode_subquery h s hs
  exact restores_subquery w s hw

theorem restores_config : Restores Config.decode Config.toValue := by
  intro v c h
  obtain ⟨hnum, hremaining⟩ := Config.Accepted.columns ⟨v, h⟩
  exact Config.decode_toValue hnum hremaining

end

/-- Every kind of record is restored from its value, and a request ends as the one that is written
from its records. -/
theorem records_restored :
    (Restores Query.decode Query.toValue ∧ Restores Subquery.decode Subquery.toValue ∧
      Restores View.decode View.toValue ∧ Restores Options.decode Options.toValue ∧
      Restores Config.decode Config.toValue) ∧
    ∀ (r : Registry) (c : Config) (query : Value) (q : Query), Query.decode query = .ok q →
      composeValues r c query none = composeValues r c q.toValue none ∧
      ∀ (options : Value) (o : Options), Options.decode options = .ok o →
        composeValues r c query (some options) = composeValues r c q.toValue (some o.toValue) := by
  refine ⟨⟨restores_query, restores_subquery, restores_view, restores_options, restores_config⟩,
    fun r c query q hq => ⟨?_, fun options o ho => ?_⟩⟩
  · simp only [composeValues, hq, restores_query query q hq]
  · simp only [composeValues, hq, ho, restores_query query q hq, o.decode_toValue]

def looseView : Value :=
  .obj [("name", .str "v"), ("query", .str "SELECT 1"),
    ("dependencies", .arr [.obj [("query", .str "SELECT 2"), ("name", .str "w")]])]

def looseSubquery : Value :=
  .obj [("join_type", .str "left\touter join"), ("views", .arr [looseView])]

/-- A query with a join in other words, one of no supported kind, and views. -/
def looseQuery : Value :=
  .obj [("alias", .str "u"), ("subqueries", .arr
    [looseSubquery, .obj [("params", .obj [("p", .null)]), ("join_type", .str "cross")]])]

def looseOptions : Value := .obj [("page", .str " 1_0"), ("page_size", .bool true)]

def looseConfig : Value := .obj [("pagination_columns", .str "Off"), ("num_column", .str "n")]

theorem records_restored_of_loose :
    ∃ q s v o c, Query.decode looseQuery = .ok q ∧ Subquery.decode looseSubquery = .ok s ∧
      View.decode looseView = .ok v ∧ Options.decode looseOptions = .ok o ∧
      Config.decode looseConfig = .ok c ∧ q.subqueries.map Subquery.join = [.left, .other "cross"] ∧
      (o.page, o.pageSize, c.windowColumns) = (some 10, some 1, false) ∧
      Query.decode q.toValue = .ok q ∧ Subquery.decode s.toValue = .ok s ∧
      View.decode v.toValue = .ok v ∧ Options.decode o.toValue = .ok o ∧
      Config.decode c.toValue = .ok c ∧
      composeValues .builtin c looseQuery none = composeValues .builtin c q.toValue none ∧
      composeValues .builtin c looseQuery (some looseOptions) =
        composeValues .builtin c q.toValue (some o.toValue) := by
  let v : View := ⟨"v", "SELECT 1", [⟨"w", "SELECT 2", []⟩]⟩
  let s : Subquery := ⟨"", "", "", .left, "", [], none, [v]⟩
  let q : Query := ⟨none, none, "u", [], none,
    [s, ⟨"", "", "", .other "cross", "", [], some [("p", .null)], []⟩]⟩
  have hq : Query.decode looseQuery = .ok q := by rfl
  have hs : Subquery.decode looseSubquery = .ok s := by rfl
  have hv : View.decode looseView = .ok v := by rfl
  have ho : Options.decode looseOptions = .ok { page := some 10, pageSize := some 1 } := by rfl
  have hc : Config.decode looseConfig = .ok { numColumn := "n", windowColumns := false } := by rfl
  obtain ⟨⟨hquery, hsubquery, hview, hoptions, hconfig⟩, hcompose⟩ := records_restored
  obtain ⟨hnone, hsome⟩ := hcompose .builtin _ looseQuery q hq
  exact ⟨q, s, v, _, _, hq, hs, hv, ho, hc, rfl, rfl, hquery _ _ hq, hsubquery _ _ hs,
    hview _ _ hv, hoptions _ _ ho, hconfig _ _ hc, hnone, hsome looseOptions _ ho⟩

end SqlCompose
